import ArmSim.Flags
import ArmSim.Handlers

/-! Multiplications: the product, and the flags against those of the operands' states. -/
namespace ArmSim
open Lib

/-- `MUL` or `MULS`, without the pc. -/
structure IsMultiply (inst : Word) : Prop where
  opcode : getBits inst 27 21 = 0
  pattern : getBits inst 7 4 = 0b1001
  rd : getBits inst 19 16 ≠ 15
  rs : getBits inst 11 8 ≠ 15
  rm : getBits inst 3 0 ≠ 15

theorem IsMultiply.fields {inst : Word} (h : IsMultiply inst) :
    getBits inst 27 25 = 0 ∧ getBit inst 4 = 1 ∧ getBit inst 7 = 1 ∧ getBit inst 5 = 0 ∧
      getBit inst 6 = 0 := by
  have hopcode := h.opcode
  have hpattern := h.pattern
  simp only [getBits_eq, getBit_eq_div] at *
  omega

/-- The CPSR that a multiplication leaves. -/
def multiplyCpsr (v cpsr : Word) : Word :=
  let cpsr := if getBit v 31 = 0 then clrBit cpsr Flag.C else setBit cpsr Flag.C
  if v = 0 then setBit cpsr Flag.Z else clrBit cpsr Flag.Z

/-- The sign of the result goes to C, where N is meant. -/
theorem getBit_multiplyCpsr (v cpsr : Word) (j : ℕ) :
    getBit (multiplyCpsr v cpsr) j =
      if j = Flag.Z then (if v = 0 then 1 else 0)
      else if j = Flag.C then getBit v 31 else getBit cpsr j := by
  have hcarry : (if getBit v 31 = 0 then clrBit cpsr Flag.C else setBit cpsr Flag.C) =
      if getBit v 31 ≠ 0 then setBit cpsr Flag.C else clrBit cpsr Flag.C := by
    split <;> simp [*]
  unfold multiplyCpsr
  dsimp only
  rw [hcarry, getBit_putBit _ _ (by decide), getBit_putBit _ _ (by decide), getBit_ite_ne_zero]

theorem multiplyCpsr_low (v cpsr : Word) :
    (multiplyCpsr v cpsr).toNat % 2^28 = cpsr.toNat % 2^28 := by
  unfold multiplyCpsr
  dsimp only
  rw [putBit_low _ _ (by decide)]
  split
  · exact clrBit_low _ (by decide)
  · exact setBit_low _ (by decide)

section multiply
variable [Platform]

def product (p : ArmCore) (inst : Word) : Word := p.gp (getBits inst 3 0) * p.gp (getBits inst 11 8)

/-- The multiplication as it should be: the product, and with the S bit its sign and whether
it is 0 in N and Z. -/
structure MultiplyEffect (p q : ArmCore) (inst : Word) : Prop where
  result : q.gp (getBits inst 19 16) = product p inst
  cells : ∀ c, c ≠ cpsrCell → c ≠ bankCell (getBits inst 19 16) p.bank → q.reg c = p.reg c
  plain : getBit inst 20 = 0 → q.cpsr = p.cpsr
  n : getBit inst 20 = 1 → getBit q.cpsr Flag.N = getBit (product p inst) 31
  z : getBit inst 20 = 1 → (getBit q.cpsr Flag.Z = 1 ↔ product p inst = 0)
  others : getBit inst 20 = 1 → ∀ i, i ≠ Flag.N → i ≠ Flag.Z →
    getBit q.cpsr i = getBit p.cpsr i

def MultipliesRight (env : Env) (p : ArmCore) (inst : Word) : Prop :=
  ∃ q, armFetchCodeInst env p inst p.cpsr = .ok (0, q) ∧ MultiplyEffect p q inst

/-- The registers have cells, and the flags hold what the multiplication should leave in
them or leaves in their place. -/
structure FlagsFit (p : ArmCore) (inst : Word) : Prop where
  rd : p.HasCell (getBits inst 19 16)
  rs : p.HasCell (getBits inst 11 8)
  rm : p.HasCell (getBits inst 3 0)
  c : getBit p.cpsr Flag.C = getBit (product p inst) 31
  z : getBit inst 20 = 0 → getBit p.cpsr Flag.Z = if product p inst = 0 then 1 else 0
  n : getBit inst 20 = 1 → getBit p.cpsr Flag.N = getBit (product p inst) 31

variable {p : ArmCore} {inst : Word}

/-- The state after a multiplication. -/
def multiplied (p : ArmCore) (inst : Word) : ArmCore :=
  armWriteCpsr (p.setGp (getBits inst 19 16) (product p inst))
    (multiplyCpsr (product p inst) p.cpsr)

theorem multiply_run (env : Env) (h : IsMultiply inst) (hd : p.HasCell (getBits inst 19 16))
    (hs : p.HasCell (getBits inst 11 8)) (hm : p.HasCell (getBits inst 3 0)) :
    armFetchCodeInst env p inst p.cpsr = .ok (0, multiplied p inst) := by
  obtain ⟨hcode, h4, h7, h5, h6⟩ := h.fields
  have hwrite (v : Word) := armWriteRegister_hasCell (getBits_lt_sixteen inst rfl) hd v
  rw [decode_multiply env _ _ hcode h4 h7 h5 h6]
  unfold armMultiply
  -- The flag that the source calls S is bit 4 of the pattern, which is 1.
  simp only [armReadRegister_hasCell (getBits_lt_sixteen inst rfl) hs,
    armReadRegister_hasCell (getBits_lt_sixteen inst rfl) hm, operand_of_ne h.rs,
    operand_of_ne h.rm, ok_bind, hwrite, h4, ↓reduceIte]
  unfold multiplied product
  rw [BitVec.mul_comm]
  rfl

/-- A multiplication that returns has found its registers. -/
theorem multiply_cells (env : Env) (h : IsMultiply inst) {r : ℤ × ArmCore}
    (hrun : armFetchCodeInst env p inst p.cpsr = .ok r) :
    p.HasCell (getBits inst 19 16) ∧ p.HasCell (getBits inst 11 8) ∧
      p.HasCell (getBits inst 3 0) := by
  obtain ⟨hcode, h4, h7, h5, h6⟩ := h.fields
  rw [decode_multiply env _ _ hcode h4 h7 h5 h6] at hrun
  unfold armMultiply at hrun
  obtain ⟨a, ha, hrun⟩ := bind_eq_ok.mp hrun
  obtain ⟨b, hb, hrun⟩ := bind_eq_ok.mp hrun
  obtain ⟨q, hq, -⟩ := bind_eq_ok.mp hrun
  exact ⟨((armWriteRegister_cell p (getBits_lt_sixteen inst rfl) _).value hq).1,
    (armReadRegister_cell p (getBits_lt_sixteen inst rfl)).value ha,
    (armReadRegister_cell p (getBits_lt_sixteen inst rfl)).value hb⟩

theorem multiplied_cpsr : (multiplied p inst).cpsr = multiplyCpsr (product p inst) p.cpsr :=
  armWriteCpsr_cpsr _ _

/-- The flags move, the mode does not. -/
theorem multiplied_bank : (multiplied p inst).bank = p.bank := by
  have hlow := multiplyCpsr_low (product p inst) p.cpsr
  apply Registers.bank_congr
  change (multiplied p inst).cpsr.toNat % 2^6 = p.cpsr.toNat % 2^6
  rw [multiplied_cpsr]
  omega

theorem multiplied_result (hd : p.HasCell (getBits inst 19 16)) :
    (multiplied p inst).gp (getBits inst 19 16) = product p inst := by
  have hn : getBits inst 19 16 < 16 := getBits_lt_sixteen inst rfl
  have hcell := armWriteCpsr_cell (p.setGp (getBits inst 19 16) (product p inst))
    (multiplyCpsr (product p inst) p.cpsr) (bankCell_ne_cpsr_hasCell hn hd)
  rw [ArmCore.gp, multiplied_bank]
  calc
    (multiplied p inst).reg.get (bankCell (getBits inst 19 16) p.bank) =
        (p.setGp (getBits inst 19 16) (product p inst)).reg.get
          (bankCell (getBits inst 19 16) p.bank) := Registers.get_congr hcell
    _ = product p inst := Registers.get_set_self _ _ _

/-- Each flag is right where the one written, or the one kept, is what it should be. -/
theorem multiplied_effect_iff (hd : p.HasCell (getBits inst 19 16))
    (hs : p.HasCell (getBits inst 11 8)) (hm : p.HasCell (getBits inst 3 0)) :
    MultiplyEffect p (multiplied p inst) inst ↔ FlagsFit p inst := by
  have hbit (j : ℕ) : getBit (multiplied p inst).cpsr j = if j = Flag.Z then
      (if product p inst = 0 then 1 else 0) else if j = Flag.C then getBit (product p inst) 31
      else getBit p.cpsr j := by
    rw [multiplied_cpsr, getBit_multiplyCpsr]
  have hcarry : getBit (multiplied p inst).cpsr Flag.C = getBit (product p inst) 31 := by
    rw [hbit, if_neg (by decide), if_pos rfl]
  have hzero : getBit (multiplied p inst).cpsr Flag.Z = if product p inst = 0 then 1 else 0 := by
    rw [hbit, if_pos rfl]
  have hother {j : ℕ} (hz : j ≠ Flag.Z) (hc : j ≠ Flag.C) :
      getBit (multiplied p inst).cpsr j = getBit p.cpsr j := by
    rw [hbit, if_neg hz, if_neg hc]
  constructor
  · intro h
    refine ⟨hd, hs, hm, ?_, ?_, ?_⟩
    · -- C is to be kept with the S bit and without.
      rw [← hcarry]
      rcases getBit_zero_or_one inst 20 with hS | hS
      · rw [h.plain hS]
      · exact (h.others hS _ (by decide) (by decide)).symm
    · -- Without the S bit Z is to be kept, and the source writes it.
      intro hS
      rw [← hzero, h.plain hS]
    · -- N is never written.
      intro hS
      rw [← h.n hS, hother (by decide) (by decide)]
  · intro h
    refine ⟨multiplied_result hd, ?_, ?_, ?_, ?_, ?_⟩
    · intro c hc hcell
      exact (armWriteCpsr_cell _ _ hc).trans (setCell_cell _ _ hcell)
    · -- A CPSR that is kept is kept bit by bit.
      intro hS
      rw [eq_iff_getBit]
      intro j
      by_cases hz : j = Flag.Z
      · rw [hz, hzero, h.z hS]
      · by_cases hc : j = Flag.C
        · rw [hc, hcarry, h.c]
        · exact hother hz hc
    · intro hS
      rw [hother (by decide) (by decide), h.n hS]
    · intro _
      rw [hzero]
      simp
    · intro _ i hn hz
      by_cases hc : i = Flag.C
      · rw [hc, hcarry, h.c]
      · exact hother hz hc

/-- A multiplication sets the flags of a `MULS` whether the S bit is set or not, and takes C
for N: it is right exactly where the flags happen to fit. -/
theorem multiply_iff (env : Env) (p : ArmCore) (inst : Word) (h : IsMultiply inst) :
    MultipliesRight env p inst ↔ FlagsFit p inst := by
  constructor
  · rintro ⟨q, hq, heffect⟩
    obtain ⟨hd, hs, hm⟩ := multiply_cells env h hq
    rw [multiply_run env h hd hs hm] at hq
    cases hq
    exact (multiplied_effect_iff hd hs hm).mp heffect
  · intro hfit
    exact ⟨_, multiply_run env h hfit.rd hfit.rs hfit.rm,
      (multiplied_effect_iff hfit.rd hfit.rs hfit.rm).mpr hfit⟩

end multiply

/-- `MUL r0, r1, r2` of zeros with Z set and C clear. -/
theorem multiply_zero : @MultipliesRight makefile ⟨0, 0, 0, 0⟩ (ArmCore.boot 0x40000010 [])
    0xE0000291 :=
  (@multiply_iff makefile _ _ _ ⟨by decide, by decide, by decide, by decide, by decide⟩).mpr
    (@FlagsFit.mk makefile _ _ (by decide) (by decide) (by decide) (by decide) (by decide)
      (by decide))

/-- `MUL r0, r1, r2` of zeros with Z clear sets Z. -/
theorem multiply_sets_z :
    IsMultiply 0xE0000291 ∧ getBit (0xE0000291 : Word) 20 = 0 ∧
      ¬@MultipliesRight makefile ⟨0, 0, 0, 0⟩ (ArmCore.boot 0x10 []) 0xE0000291 := by
  refine ⟨⟨by decide, by decide, by decide, by decide, by decide⟩, by decide, ?_⟩
  rintro ⟨q, hq, heffect⟩
  have hrun : (@armFetchCodeInst makefile ⟨0, 0, 0, 0⟩ (ArmCore.boot 0x10 []) 0xE0000291
      (ArmCore.boot 0x10 []).cpsr).map (fun r => r.2.cpsr) = .ok 0x40000010 := by decide
  rw [hq] at hrun
  have hset := Except.ok.inj hrun
  have hkept := @MultiplyEffect.plain makefile _ _ _ heffect (by decide)
  exact absurd (hset.symm.trans hkept) (by decide)

end ArmSim
