import ArmSim.Step

/-! What every instruction handler can do: the codes it returns, the crashes it can
end in, and what it leaves alone in a mode without an SPSR. -/
namespace ArmSim
open Lib

/-- The cells the user bank sees: the general registers' own and the CPSR. -/
def Cell.user (c : Cell) : Prop := c.reg ≤ 16 ∧ c.index = 0

/-- What code without an SPSR cannot change: the CPSR below the flags, and the
cells of the other banks. -/
structure UserFrame (p p' : ArmCore) : Prop where
  cpsr : p'.cpsr.toNat % 2^28 = p.cpsr.toNat % 2^28
  cells : ∀ c : Cell, ¬c.user → p'.reg c = p.reg c

/-- In a mode without an SPSR, the step from `p` to `p'` keeps the frame. -/
def Stays (p p' : ArmCore) : Prop := p.bank < 2 → UserFrame p p'

theorem UserFrame.bank_eq {p p' : ArmCore} (h : UserFrame p p') : p'.bank = p.bank := by
  apply Registers.bank_congr
  -- The six mode bits are among the 28 that are kept.
  have hc := h.cpsr
  unfold ArmCore.cpsr at hc
  omega

theorem Stays.refl (p : ArmCore) : Stays p p := fun _ => ⟨rfl, fun _ _ => rfl⟩

theorem Stays.trans {p p' p'' : ArmCore} (h : Stays p p') (h' : Stays p' p'') : Stays p p'' := by
  intro hb
  have h₁ := h hb
  have h₂ := h' (by rw [h₁.bank_eq]; exact hb)
  exact ⟨h₂.cpsr.trans h₁.cpsr, fun c hc => (h₂.cells c hc).trans (h₁.cells c hc)⟩

/-- A state with the same registers. -/
theorem Stays.of_reg_eq {p p' : ArmCore} (h : p'.reg = p.reg) : Stays p p' := by
  intro _
  refine ⟨?_, fun c _ => by rw [h]⟩
  unfold ArmCore.cpsr
  rw [h]

theorem bankCell_user {reg m : ℕ} (hr : reg < 16) (hm : m < 2) :
    (bankCell reg m).user ∧ bankCell reg m ≠ cpsrCell := by
  refine ⟨⟨?_, bankCell_user_index hr hm⟩, bankCell_ne_cpsr hr (by omega)⟩
  rw [bankCell_reg hr (by omega)]
  omega

/-- A crash other than the `NULL` bank pointer. -/
abbrev NoNull (e : Crash) : Prop := e ≠ .nullPointer

theorem noNull_registerCell {α : Type} {x : Except Crash α} {P : α → Prop}
    (h : Ends x P (· = .registerCell)) : Ends x P NoNull :=
  h.mono (fun _ hp => hp) (fun e he => by subst he; decide)

theorem noNull_memoryByte {α : Type} {x : Except Crash α} {P : α → Prop}
    (h : Ends x P (· = .memoryByte)) : Ends x P NoNull :=
  h.mono (fun _ hp => hp) (fun e he => by subst he; decide)

/-- Without the `NULL` pointer, what it would tell may be assumed. -/
theorem noNull_imp {α : Type} {x : Except Crash α} {P : α → Prop} (h : Ends x P NoNull)
    (R : Prop) : Ends x P (fun e => e = .nullPointer → R) :=
  h.mono (fun _ hp => hp) (fun _ he hnull => absurd hnull he)

section flags

theorem mod_eq_of_getLsbD {x y : Word} (k : ℕ) (h : ∀ i < k, x.getLsbD i = y.getLsbD i) :
    x.toNat % 2^k = y.toNat % 2^k := by
  apply Nat.eq_of_testBit_eq
  intro i
  rw [Nat.testBit_mod_two_pow, Nat.testBit_mod_two_pow]
  by_cases hi : i < k
  · have hh := h i hi
    simp only [BitVec.getLsbD] at hh
    rw [hh]
  · simp [hi]

theorem setBit_low (x : Word) {i : ℕ} (hi : 28 ≤ i) :
    (setBit x i).toNat % 2^28 = x.toNat % 2^28 := by
  apply mod_eq_of_getLsbD
  intro j hj
  have hne : j ≠ i := by omega
  simp [getLsbD_setBit, hne]

theorem clrBit_low (x : Word) {i : ℕ} (hi : 28 ≤ i) :
    (clrBit x i).toNat % 2^28 = x.toNat % 2^28 := by
  apply mod_eq_of_getLsbD
  intro j hj
  have hne : j ≠ i := by omega
  simp [getLsbD_clrBit, hne]

theorem putBit_low (c : Prop) [Decidable c] (x : Word) {i : ℕ} (hi : 28 ≤ i) :
    (if c then setBit x i else clrBit x i).toNat % 2^28 = x.toNat % 2^28 := by
  split
  · exact setBit_low x hi
  · exact clrBit_low x hi

theorem setZn_low (v cpsr : Word) : (setZn v cpsr).toNat % 2^28 = cpsr.toNat % 2^28 := by
  unfold setZn
  dsimp only
  have hN : (if getBit v Flag.N ≠ 0 then setBit cpsr Flag.N else clrBit cpsr Flag.N).toNat % 2^28
      = cpsr.toNat % 2^28 := putBit_low _ _ (by decide)
  rw [← hN]
  exact putBit_low _ _ (by decide)

theorem carryFrom_low (t : BitVec 64) (cpsr : Word) :
    (carryFrom t cpsr).toNat % 2^28 = cpsr.toNat % 2^28 :=
  putBit_low _ _ (by decide)

theorem borrowFrom_low (t : BitVec 64) (cpsr : Word) :
    (borrowFrom t cpsr).toNat % 2^28 = cpsr.toNat % 2^28 :=
  putBit_low _ _ (by decide)

theorem overflowFrom_low (a b : Word) (opcode : ℕ) (cpsr : Word) :
    (overflowFrom a b opcode cpsr).toNat % 2^28 = cpsr.toNat % 2^28 := by
  unfold overflowFrom
  dsimp only
  split
  all_goals first | rfl | exact putBit_low _ _ (by decide)

/-- The flag update changes the flags only. -/
theorem updateFlags_low (op : Operation) (opcode : ℕ) (a b : Word) (sc : ℕ) (cpsr : Word) :
    (updateFlags op opcode a b sc cpsr).toNat % 2^28 = cpsr.toNat % 2^28 := by
  unfold updateFlags
  dsimp only
  split
  · rw [overflowFrom_low, carryFrom_low, setZn_low]
  · rw [putBit_low _ _ (by decide), setZn_low]
  · rw [overflowFrom_low, borrowFrom_low, setZn_low]
  · exact setZn_low _ _

end flags

/-- A computation's value, with the equation that says it is. -/
theorem ends_eq {α : Type} {x : Except Crash α} {P : α → Prop} {E : Crash → Prop}
    (h : Ends x P E) : Ends x (fun a => x = .ok a) E :=
  ends_of_value (fun _ ha => ha) (fun _ he => h.fault he)

/-- A CPSR that agrees with the one before the step below the flags. -/
theorem Stays.writeCpsr {p q : ArmCore} (h : Stays p q) {v : Word}
    (hv : p.bank < 2 → v.toNat % 2^28 = p.cpsr.toNat % 2^28) : Stays p (armWriteCpsr q v) := by
  intro hb
  refine ⟨?_, ?_⟩
  · rw [armWriteCpsr_cpsr, hv hb]
  · -- The CPSR's own cell is visible to the user bank.
    intro c hc
    rw [← (h hb).cells c hc]
    apply Function.update_of_ne
    rintro rfl
    exact hc ⟨Nat.le_refl _, rfl⟩

/-- What a store at `a` does beside writing memory. -/
structure Stored (p : ArmCore) (a : Word) (r : ℤ × ArmCore) : Prop where
  code : r.1 = p.mem.answer a
  reg : r.2.reg = p.reg
  size : r.2.mem.size = p.mem.size

theorem Stored.stays {p : ArmCore} {a : Word} {r : ℤ × ArmCore} (h : Stored p a r) :
    Stays p r.2 := Stays.of_reg_eq h.reg

theorem armReadByte_ends (p : ArmCore) (a : Word) (v : Byte) :
    Ends (armReadByte p a v) (fun r => r.1 = p.mem.answer a) NoNull :=
  noNull_memoryByte (memoryReadByte_ends _ _ _)

theorem armWriteByte_ends (p : ArmCore) (a : Word) (v : Byte) :
    Ends (armWriteByte p a v) (Stored p a) NoNull :=
  noNull_memoryByte ((memoryWriteByte_ends _ _ _).bind
    (fun _ h => ⟨h.1, rfl, h.2⟩))

section primitives
variable [Platform] (p : ArmCore)

theorem armReadRegister_ends {reg : ℕ} (hr : reg < 16) :
    Ends (armReadRegister p reg) (fun v => armReadRegister p reg = .ok v) NoNull := by
  apply ends_eq (P := fun _ => True)
  apply noNull_registerCell
  unfold armReadRegister armReadRegisterInternal
  rw [registersRead_eq]
  refine Ends.bind (P := fun _ => True) ?_ (fun v _ => ?_)
  · exact (bankPointer_ends hr (getReadWriteMode_lt _)).bind (fun _ _ => trivial)
  · split <;> trivial

theorem setCell_stays {c : Cell} (h : p.bank < 2 → c.user ∧ c ≠ cpsrCell) (v : Word) :
    Stays p (p.setCell c v) := by
  intro hb
  obtain ⟨hu, hne⟩ := h hb
  refine ⟨?_, ?_⟩
  · have hc : (p.setCell c v).cpsr = p.cpsr := Registers.set_of_ne p.reg v (Ne.symm hne)
    rw [hc]
  · intro c' hc'
    have hcc : c' ≠ c := by
      intro he
      exact hc' (he ▸ hu)
    exact Registers.set_of_ne p.reg v hcc

theorem armWriteRegister_ends {reg : ℕ} (hr : reg < 16) (v : Word) :
    Ends (armWriteRegister p reg v)
      (fun q => Stays p q ∧ q.mem = p.mem ∧ q.cpsr = p.cpsr) NoNull := by
  apply noNull_registerCell
  unfold armWriteRegister armWriteRegisterInternal
  rw [registersWrite_eq]
  change Ends ((bankPointer reg p.bank >>= _) >>= _) _ _
  -- The cell written is the one of the current bank, never the CPSR's.
  cases hc : bankPointer reg p.bank with
  | error e => exact (bankPointer_ends hr (Registers.bank_lt _)).fault hc
  | ok c =>
    have hcell : c = bankCell reg p.bank := (bankPointer_ends hr (Registers.bank_lt _)).value hc
    have hne : cpsrCell ≠ c := by
      rintro rfl
      have hreg : 16 = reg := bankPointer_reg hc
      omega
    refine ⟨setCell_stays p ?_ v, rfl, Registers.set_of_ne _ _ hne⟩
    intro hb
    exact hcell ▸ bankCell_user hr hb

/-! A call that returns has found a cell for its register. -/

theorem armReadRegister_cell {reg : ℕ} (hr : reg < 16) :
    Ends (armReadRegister p reg) (fun _ => p.HasCell reg) NoNull := by
  apply (armReadRegister_ends p hr).imp
  intro v hv
  by_contra h
  rw [armReadRegister_noCell hr h] at hv
  cases hv

theorem armWriteRegister_cell {reg : ℕ} (hr : reg < 16) (v : Word) :
    Ends (armWriteRegister p reg v) (fun q => p.HasCell reg ∧ q = p.setGp reg v) NoNull := by
  have hends := armWriteRegister_ends p hr v
  by_cases h : p.HasCell reg
  · rw [armWriteRegister_hasCell hr h]
    exact ⟨h, rfl⟩
  · rw [armWriteRegister_noCell hr h] at hends ⊢
    exact hends

theorem armReadSpsr_ends {p : ArmCore} (h : 2 ≤ p.bank) :
    Ends (armReadSpsr p) (fun _ => True) NoNull := by
  rw [armReadSpsr_eq h]
  trivial

theorem armReadHalf_ends (a : Word) (v : Half) :
    Ends (armReadHalf p a v) (fun r => r.1 = p.mem.answer a) NoNull :=
  noNull_memoryByte (memoryReadHalf_ends _ _ _ _)

theorem armReadWord_ends (a v : Word) :
    Ends (armReadWord p a v)
      (fun r => r.1 = p.mem.answer a ∧ (r.1 = 0 → p.mem.InRange a 4)) NoNull :=
  noNull_memoryByte (memoryReadWord_ends _ _ _ _)

theorem armWriteHalf_ends (a : Word) (v : Half) :
    Ends (armWriteHalf p a v) (Stored p a) NoNull :=
  noNull_memoryByte ((memoryWriteHalf_ends _ _ _ _).bind
    (fun _ h => ⟨h.1, rfl, h.2⟩))

theorem armWriteWord_ends (a v : Word) :
    Ends (armWriteWord p a v) (fun r => Stored p a r ∧ (r.1 = 0 → p.mem.InRange a 4)) NoNull :=
  noNull_memoryByte ((memoryWriteWord_ends _ _ _ _).bind
    (fun _ h => ⟨⟨h.1, rfl, h.2.1⟩, h.2.2⟩))

end primitives

/-- How a handler leaves the state `p` it starts in. -/
def Handled (p : ArmCore) (code : ℤ → Prop) (r : ℤ × ArmCore) : Prop :=
  code r.1 ∧ Stays p r.2

theorem armCoprocessorOthersSwi_ends (p : ArmCore) (ins : Word) :
    Ends (armCoprocessorOthersSwi p ins) (Handled p (fun c => c = 8 ∨ c = 7)) NoNull :=
  ends_ite (fun _ => ⟨Or.inl rfl, Stays.refl p⟩) (fun _ => ⟨Or.inr rfl, Stays.refl p⟩)

theorem printStringLoop_ends (p : ArmCore) (room : ℕ) (a : Word) (v : Byte) (c : List Byte) :
    Ends (printStringLoop p room a v c) (fun _ => True) NoNull := by
  -- On the room left in the buffer; running out of it is a crash, but not a `NULL` one.
  induction room generalizing a v c with
  | zero => exact (by decide : NoNull .localBuffer)
  | succ room ih =>
    unfold printStringLoop
    apply (armReadByte_ends p a v).bind
    intro r _
    exact ends_ite (fun _ => ih _ _ _) (fun _ => trivial)

section handlers
variable [Platform] (p : ArmCore)

theorem applyOperator_ends (ins a : Word) (sc S : ℕ) {cpsr : Word}
    (hc : cpsr.toNat % 2^28 = p.cpsr.toNat % 2^28) :
    Ends (applyOperator p ins a sc S cpsr) (Handled p (fun c => c = 0 ∨ c = 7)) NoNull := by
  unfold applyOperator
  apply (armReadRegister_ends p (getBits_lt_sixteen ins rfl)).bind
  intro RnValue _
  split
  · exact ⟨Or.inr rfl, Stays.refl p⟩
  · rename_i op _
    refine Ends.bind (P := fun v : Word => p.bank < 2 → v.toNat % 2^28 = p.cpsr.toNat % 2^28) ?_
      (fun v hv => Ends.bind (P := Stays p) ?_ (fun q hq => ?_))
    · -- Only a mode with an SPSR restores the CPSR from it.
      refine ends_ite ?_ (fun _ => fun _ => hc)
      intro hs
      have hb : 2 ≤ p.bank := (registersCurrentModeHasSpsr_iff _).mp hs.2.2.2
      exact (armReadSpsr_ends hb).imp (fun _ _ h => absurd h (by omega))
    · refine ends_ite ?_ (fun _ => Stays.refl p)
      intro _
      exact (armWriteRegister_ends p (getBits_lt_sixteen ins rfl) _).imp (fun _ h => h.1)
    · refine ends_ite (fun _ => ⟨Or.inl rfl, ?_⟩) (fun _ => ⟨Or.inl rfl, hq⟩)
      exact hq.writeCpsr (fun hb => (updateFlags_low ..).trans (hv hb))

theorem armDataProcessingImmediateShift_ends (ins : Word) {cpsr : Word}
    (hc : cpsr.toNat % 2^28 = p.cpsr.toNat % 2^28) :
    Ends (armDataProcessingImmediateShift p ins cpsr) (Handled p (fun c => c = 0 ∨ c = 7))
      NoNull :=
  (armReadRegister_ends p (getBits_lt_sixteen ins rfl)).bind
    (fun _ _ => applyOperator_ends p ins _ _ _ hc)

theorem armDataProcessingRegisterShift_ends (ins : Word) {cpsr : Word}
    (hc : cpsr.toNat % 2^28 = p.cpsr.toNat % 2^28) :
    Ends (armDataProcessingRegisterShift p ins cpsr) (Handled p (fun c => c = 0 ∨ c = 7))
      NoNull :=
  (armReadRegister_ends p (getBits_lt_sixteen ins rfl)).bind (fun _ _ =>
    (armReadRegister_ends p (getBits_lt_sixteen ins rfl)).bind
      (fun _ _ => applyOperator_ends p ins _ _ _ hc))

theorem armDataProcessingImmediate_ends (ins : Word) {cpsr : Word}
    (hc : cpsr.toNat % 2^28 = p.cpsr.toNat % 2^28) :
    Ends (armDataProcessingImmediate p ins cpsr) (Handled p (fun c => c = 0 ∨ c = 7)) NoNull :=
  applyOperator_ends p ins _ _ _ hc

theorem armBranch_ends (ins : Word) :
    Ends (armBranch p ins) (Handled p (· = 0)) NoNull := by
  unfold armBranch
  apply (armReadRegister_ends p (by decide)).bind
  intro PCvalue _
  refine Ends.bind (P := Stays p) ?_ (fun q hq => ?_)
  · exact ends_ite (fun _ => (armWriteRegister_ends p (by decide) _).imp (fun _ h => h.1))
      (fun _ => Stays.refl p)
  · exact (armWriteRegister_ends q (by decide) _).bind (fun _ h => ⟨rfl, hq.trans h.1⟩)

theorem armMiscellaneous_ends (ins : Word) :
    Ends (armMiscellaneous p ins) (Handled p (fun c => c = 0 ∨ c = 2)) NoNull := by
  unfold armMiscellaneous
  -- The line is printed first, on every path.
  have hprint : Stays p (p.print .bxReached) := Stays.of_reg_eq rfl
  have hwrite (v : Word) := armWriteRegister_ends (p.print .bxReached)
    (getBits_lt_sixteen ins (show 15 - 12 = 3 from rfl)) v
  refine ends_ite (fun _ => ends_ite (fun _ => ⟨Or.inr rfl, hprint⟩) (fun hs => ?_)) (fun _ => ?_)
  · have hb : 2 ≤ (p.print .bxReached).bank :=
      (registersCurrentModeHasSpsr_iff _).mp (by rwa [Bool.not_eq_false] at hs)
    exact (armReadSpsr_ends hb).bind (fun v _ =>
      (hwrite v).bind (fun _ h => ⟨Or.inl rfl, hprint.trans h.1⟩))
  · exact (hwrite _).bind (fun _ h => ⟨Or.inl rfl, hprint.trans h.1⟩)

theorem armMiscellaneous2_ends (ins : Word) :
    Ends (armMiscellaneous2 p ins) (Handled p (· = 0)) NoNull :=
  (armReadRegister_ends p (getBits_lt_sixteen ins rfl)).bind (fun _ _ =>
    (armWriteRegister_ends p (by decide) _).bind (fun _ h => ⟨rfl, h.1⟩))

theorem armMultiply_ends (ins : Word) {cpsr : Word}
    (hc : cpsr.toNat % 2^28 = p.cpsr.toNat % 2^28) :
    Ends (armMultiply p ins cpsr) (Handled p (· = 0)) NoNull := by
  unfold armMultiply
  apply (armReadRegister_ends p (getBits_lt_sixteen ins rfl)).bind
  intro RsV _
  apply (armReadRegister_ends p (getBits_lt_sixteen ins rfl)).bind
  intro RmV _
  apply (armWriteRegister_ends p (getBits_lt_sixteen ins rfl) _).bind
  intro q hq
  refine ends_ite (fun _ => ⟨rfl, hq.1.writeCpsr (fun _ => ?_)⟩) (fun _ => ⟨rfl, hq.1⟩)
  rw [putBit_low _ _ (by decide), ← hc]
  split
  · exact clrBit_low _ (by decide)
  · exact setBit_low _ (by decide)

theorem armException_software_ends (env : Env) :
    Ends (armException env p Exc.SOFTWARE_INTERRUPT)
      (Handled p (fun c => c = 0 ∨ c = 8 ∨ c = 9)) NoNull := by
  unfold armException
  have hread := armReadRegister_ends p (show 0 < 16 by decide)
  have hprint (x : Printed) : Stays p (p.print x) := Stays.of_reg_eq rfl
  refine ends_ite ?_ (fun h => absurd rfl h)
  intro _
  apply (armReadRegister_ends p (show 15 < 16 by decide)).bind
  intro address _
  apply (armReadWord_ends p _ _).bind
  intro r _
  refine ends_ite (fun _ => ⟨by simp, Stays.refl p⟩) ?_
  intro _
  refine ends_ite (fun _ => hread.bind (fun v _ => ⟨Or.inl rfl, hprint _⟩)) ?_
  intro _
  refine ends_ite (fun _ => hread.bind (fun v _ => ⟨Or.inl rfl, hprint _⟩)) ?_
  intro _
  apply ends_ite
  · intro _
    refine Ends.bind (P := Stays p) ?_ (fun q hq => ⟨Or.inl rfl, hq⟩)
    exact hread.bind (fun v _ => (printStringLoop_ends p _ _ _ _).bind (fun c _ => hprint _))
  · intro _
    refine ends_ite ?_ (fun _ => ⟨by simp, hprint _⟩)
    intro _
    exact (armWriteRegister_ends p (by decide) _).bind (fun q hq => ⟨Or.inl rfl, hq.1⟩)

end handlers

/-- The exceptions `arm_exception` passes through. -/
theorem armException_other [Platform] (env : Env) (p : ArmCore) {e : ℕ} (h8 : e ≠ 8)
    (h4 : e ≠ 4) (h1 : e ≠ 1) : armException env p e = .ok (e, p) := by
  simp only [armException, h8, h4, h1, ↓reduceIte, pure_eq_ok]

end ArmSim
