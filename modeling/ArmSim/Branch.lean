import ArmSim.Conditions
import ArmSim.TransferEffects

/-! Branches and the way back: where `B` and `BL` lead from an address, what `BL` leaves in
`r14`, and where `BX R14` and `MOV PC, R14` resume. -/
namespace ArmSim
open Lib

/-- The offset field of a branch, as the signed number of words it is. -/
def branchWords (inst : Word) : Word := (BitVec.ofNat 24 (getBits inst 23 0)).signExtend 32

/-- The address that a branch at address `a` leads to. -/
def branchTarget (inst a : Word) : Word := a + 8 + 4 * branchWords inst

/-- The source extends the sign by hand. -/
theorem signExtend_by_hand (x : BitVec 24) :
    (if getBit (x.setWidth 32) 23 ≠ 0 then x.setWidth 32 ||| 0xFF000000 else x.setWidth 32) =
      x.signExtend 32 := by
  have hhigh : ∀ i < 32, (0xFF000000#32).getLsbD i = decide (24 ≤ i) := by decide
  have hsign : getBit (x.setWidth 32) 23 = x.msb.toNat := by
    rw [getBit_eq, BitVec.getLsbD_setWidth, BitVec.msb_eq_getLsbD_last]
    rfl
  rw [hsign]
  apply BitVec.eq_of_getLsbD_eq
  intro i hi
  have hmask : (0xFF000000 : Word).getLsbD i = decide (24 ≤ i) := hhigh i hi
  rw [BitVec.getLsbD_signExtend]
  -- The source ORs eight ones in front of a negative offset.
  cases x.msb with
  | false =>
    rw [if_neg (by decide), BitVec.getLsbD_setWidth]
    by_cases h : i < 24
    · rw [if_pos h]
    · rw [if_neg h, BitVec.getLsbD_of_ge x i (by omega)]
  | true =>
    rw [if_pos (by decide), BitVec.getLsbD_or, hmask, BitVec.getLsbD_setWidth]
    by_cases h : i < 24
    · simp [h, Nat.not_le.mpr h]
    · simp [h, hi, Nat.not_lt.mp h]

theorem branchWords_eq (inst : Word) :
    (if getBit (BitVec.ofNat 32 (getBits inst 23 0)) 23 ≠ 0
      then BitVec.ofNat 32 (getBits inst 23 0) ||| 0xFF000000
      else BitVec.ofNat 32 (getBits inst 23 0)) = branchWords inst := by
  have hlt : getBits inst 23 0 < 2^24 := getBits_lt inst 23 0
  have hwide : BitVec.ofNat 32 (getBits inst 23 0) =
      (BitVec.ofNat 24 (getBits inst 23 0)).setWidth 32 := by
    apply BitVec.eq_of_toNat_eq
    rw [BitVec.toNat_setWidth, BitVec.toNat_ofNat, BitVec.toNat_ofNat]
    omega
  rw [hwide]
  exact signExtend_by_hand _

/-- Only the branch back by one word leads to the next instruction. -/
theorem branchTarget_eq_next_iff (inst a : Word) :
    branchTarget inst a = a + 4 ↔ getBits inst 23 0 = 0xFFFFFF := by
  have hlt : getBits inst 23 0 < 2^24 := getBits_lt inst 23 0
  have hback : branchTarget inst a = a + 4 ↔ (4 * branchWords inst).toNat = 2^32 - 4 := by
    unfold branchTarget
    bv_omega
  have hvalue : (branchWords inst).toNat =
      getBits inst 23 0 + if 2^23 ≤ getBits inst 23 0 then 2^32 - 2^24 else 0 := by
    unfold branchWords
    rw [BitVec.toNat_signExtend, BitVec.msb_eq_decide, BitVec.toNat_setWidth, BitVec.toNat_ofNat,
      Nat.mod_eq_of_lt hlt, Nat.mod_eq_of_lt (by omega)]
    simp
  rw [hback, BitVec.toNat_mul, hvalue]
  change 4 * _ % 4294967296 = 4294967292 ↔ _ = 16777215
  split <;> omega

/-- The condition 1111 never holds. -/
theorem conditionHolds_lt {inst cpsr : Word} (h : ConditionHolds (getBits inst 31 28) cpsr) :
    getBits inst 31 28 < 15 := by
  have hlt : getBits inst 31 28 < 16 := getBits_lt_sixteen inst rfl
  have hne : getBits inst 31 28 ≠ 15 := by
    intro he
    rw [he] at h
    exact absurd h (by simp [ConditionHolds, armCondition])
  omega

section step
variable [Platform]

/-- What a taken branch does: the target, the link of a `BL`, and nothing else but the cycle
counter. -/
structure BranchEffect (p q : ArmCore) (inst : Word) : Prop where
  target : q.pc = branchTarget inst p.pc
  link : getBit inst 24 = 1 → q.gp LR = p.pc + 4
  cells : ∀ c, c ≠ bankCell PC 0 → (getBit inst 24 = 1 → c ≠ bankCell LR p.bank) →
    q.reg c = p.reg c
  memory : q.mem = p.mem
  output : q.output = p.output

/-- The state after a branch that is taken. -/
def branched (p : ArmCore) (inst : Word) : ArmCore :=
  (p.advance.setGpIf (getBit inst 24 = 1) LR (p.pc + 4)).setCell (bankCell PC 0)
    (branchTarget inst p.pc)

variable {p : ArmCore} {inst : Word}

theorem armBranch_advance (hb : p.bank < 6) (hpc : p.pc.toNat % 4 = 0) :
    armBranch p.advance inst = .ok (0, branched p inst) := by
  -- The fetch has added 4 to the pc, and the read adds another 4.
  have hpc' : p.advance.pc = p.pc + 4 := Registers.get_set_self _ _ _
  have hread : armReadRegister p.advance PC = .ok (p.pc + 8) := by
    have height : p.pc + 4 + 4 = p.pc + 8 := by bv_omega
    rw [armReadRegister_pc, hpc', and_mask_aligned (aligned_add_four (aligned_add_four hpc)),
      height]
  have hlink : p.pc + 8 - 4 = p.pc + 4 := by bv_omega
  have hbank : p.advance.bank < 6 := by rwa [advance_bank]
  have hwrite := armWriteRegister_eq (show LR < 16 by decide) hbank (p.pc + 4)
  have hfour : branchWords inst <<< 2 = 4 * branchWords inst := by
    rw [BitVec.shiftLeft_eq_mul_twoPow, BitVec.mul_comm]
    rfl
  unfold armBranch branched ArmCore.setGpIf
  rw [hread]
  simp only [ok_bind, hlink, branchWords_eq, hfour, armWriteRegister_pc]
  -- With and without the link.
  rcases getBit_zero_or_one inst 24 with hL | hL
  · simp only [hL, ne_eq, not_true_eq_false, ↓reduceIte, pure_eq_ok, ok_bind, Nat.zero_ne_one]
    rfl
  · simp only [hL, ne_eq, Nat.one_ne_zero, not_false_eq_true, ↓reduceIte, hwrite, ok_bind,
      pure_eq_ok]
    rfl

theorem branched_effect (hb : p.bank < 6) : BranchEffect p (branched p inst) inst := by
  have hback := setGpIf_changes p.advance (getBit inst 24 = 1)
    (show LR < 16 by decide) (p.pc + 4)
  have hbank : p.advance.bank < 6 := by rwa [advance_bank]
  refine ⟨Registers.get_set_self _ _ _, ?_, ?_, setGpIf_mem _ _ _ _, hback.output⟩
  · -- The pc, written last, is in no mode the cell of `r14`.
    intro hL
    have hgp := gp_setGpIf_self hbank hL (show LR < 16 by decide) (p.pc + 4)
    have hkeeps : (branched p inst).bank =
        (p.advance.setGpIf (getBit inst 24 = 1) LR (p.pc + 4)).bank :=
      setCell_bank _ _ cpsrCell_ne_pc
    rw [← hgp]
    unfold ArmCore.gp
    rw [hkeeps]
    apply Registers.get_set_of_ne
    apply bankCell_ne_pc (by decide)
    rw [hback.bank hbank]
    exact hbank
  · intro c hc hlr
    unfold branched
    rw [setCell_cell _ _ hc, ← advance_cell p hc]
    apply hback.cells
    rintro i - ⟨hL, rfl⟩
    rw [advance_bank]
    exact hlr hL

theorem decode_branch (env : Env) (q : ArmCore) (cpsr : Word) (h : getBits inst 27 25 = 5) :
    armFetchCodeInst env q inst cpsr = armBranch q inst := by
  simp only [armFetchCodeInst, h]

/-- A branch whose condition the simulator finds to hold. -/
theorem armStep_branch (env : Env) (hb : p.bank < 6) (hpc : p.pc.toNat % 4 = 0)
    (hf : Fetches p inst) (h : getBits inst 27 25 = 5)
    (hc : flagCond (getBits inst 31 28) p.cpsr = true) :
    armStep env p = .ok (0, branched p inst) := by
  rw [armStep_run hf env hc]
  unfold runBody
  rw [decode_branch env _ _ h, armBranch_advance hb hpc]
  rfl

/-- `BX R14`, or `MOV PC, R14` without the S bit. -/
inductive IsReturn (inst : Word) : Prop
  | exchange (h : getBits inst 27 4 = 0x12FFF1) (rm : getBits inst 3 0 = LR)
  | move (h : getBits inst 27 20 = 0x1A) (rd : getBits inst 15 12 = PC)
      (operand : getBits inst 11 0 = LR)

/-- A return goes to the word in `r14`, in whatever mode it is executed. -/
theorem armStep_return (env : Env) {q : ArmCore} (hb : q.bank < 6)
    (hlr : (q.gp LR).toNat % 4 = 0) (hf : Fetches q inst)
    (hc : flagCond (getBits inst 31 28) q.cpsr = true) (h : IsReturn inst) :
    ∃ q', armStep env q = .ok (0, q') ∧ q'.pc = q.gp LR := by
  have hread : armReadRegister q.advance LR = .ok (q.gp LR) :=
    armReadRegister_advance q (by decide) hb
  rw [armStep_run hf env hc]
  unfold runBody
  cases h with
  | exchange h rm =>
    have hfields : getBits inst 27 25 = 0 ∧ getBit inst 4 = 1 ∧ getBit inst 7 = 0 ∧
        getBits inst 24 23 = 2 ∧ getBit inst 20 = 0 := by
      simp only [getBits_eq, getBit_eq_div] at *
      omega
    obtain ⟨hcode, h4, h7, hop, hS⟩ := hfields
    -- `BX` clears bit 0, which a link does not have.
    have heven : q.gp LR &&& 0xFFFFFFFE = q.gp LR := by
      have hbit : getBit (q.gp LR) 0 = 0 := by
        rw [getBit_eq_div]
        omega
      exact clrBit_eq_self hbit
    rw [decode_miscellaneous2 env _ _ hcode h4 h7 hop hS]
    unfold armMiscellaneous2
    simp only [rm, hread, ok_bind, heven, armWriteRegister_pc]
    exact ⟨_, rfl, Registers.get_set_self _ _ _⟩
  | move h rd operand =>
    have hfields : getBits inst 27 25 = 0 ∧ getBit inst 4 = 0 ∧ getBits inst 24 23 ≠ 2 ∧
        getBit inst 20 = 0 ∧ getBits inst 24 21 = 13 ∧ getBits inst 11 7 = 0 ∧
        getBits inst 6 5 = 0 ∧ getBits inst 3 0 = 14 := by
      change getBits inst 11 0 = 14 at operand
      simp only [getBits_eq, getBit_eq_div] at *
      omega
    obtain ⟨hcode, h4, hop, hS, hmov, hshift, hkind, hm⟩ := hfields
    have hn := armReadRegister_eq (p := q.advance)
      (getBits_lt_sixteen inst (rfl : 19 - 16 = 3)) (by rwa [advance_bank])
    have hwidth : ((q.gp LR).setWidth 64).setWidth 32 = q.gp LR := by
      rw [BitVec.setWidth_setWidth_of_le _ (by decide), BitVec.setWidth_eq]
    -- A shift by 0 leaves the operand, and the 64-bit result of `MOV` is cut to the word.
    rw [decode_immediateShift env _ _ hcode h4 (fun ho => hop ho.1)]
    unfold armDataProcessingImmediateShift applyOperator
    simp only [hS, hshift, hkind, hm, hread, hn, ok_bind, getShifterOperandImmediateShift,
      ↓reduceIte, hmov, rd, selectOperator, ne_eq, not_true_eq_false, false_and, and_false,
      pure_eq_ok, hwidth, armWriteRegister_pc]
    exact ⟨_, rfl, Registers.get_set_self _ _ _⟩

/-- The branch as it should be, and with a `BL` the way back: wherever a return is executed
with `r14` as the branch left it, it resumes after the branch. -/
def BranchesAndReturns (env : Env) (p : ArmCore) (inst : Word) : Prop :=
  ∃ p', armStep env p = .ok (0, p') ∧ BranchEffect p p' inst ∧
    (getBit inst 24 = 1 → ∀ env' q inst', q.bank < 6 → q.gp LR = p'.gp LR → Fetches q inst' →
      flagCond (getBits inst' 31 28) q.cpsr = true → IsReturn inst' →
        ∃ q', armStep env' q = .ok (0, q') ∧ q'.pc = p.pc + 4)

/-- The effect decides the way back. -/
theorem branchesAndReturns_of_effect {env : Env} {p' : ArmCore} (hpc : p.pc.toNat % 4 = 0)
    (hstep : armStep env p = .ok (0, p')) (heffect : BranchEffect p p' inst) :
    BranchesAndReturns env p inst := by
  refine ⟨p', hstep, heffect, ?_⟩
  intro hL env' q inst' hq hlr hf hc hreturn
  have hlink : q.gp LR = p.pc + 4 := calc
    q.gp LR = p'.gp LR := hlr
    _ = p.pc + 4 := heffect.link hL
  have haligned : (q.gp LR).toNat % 4 = 0 := by
    rw [hlink]
    exact aligned_add_four hpc
  obtain ⟨q', hstep', hpc'⟩ := armStep_return env' hq haligned hf hc hreturn
  exact ⟨q', hstep', hpc'.trans hlink⟩

/-- The state after a skipped branch is right where the next instruction is the target and
the link is in place already. -/
theorem skipped_effect_iff (hb : p.bank < 6) : BranchEffect p p.advance inst ↔
    getBits inst 23 0 = 0xFFFFFF ∧ (getBit inst 24 = 1 → p.gp LR = p.pc + 4) := by
  have hpc : p.advance.pc = p.pc + 4 := Registers.get_set_self _ _ _
  have hlr : p.advance.gp LR = p.gp LR := advance_gp p (by decide) hb
  constructor
  · intro h
    exact ⟨(branchTarget_eq_next_iff inst _).mp (h.target.symm.trans hpc),
      fun hL => hlr.symm.trans (h.link hL)⟩
  · rintro ⟨hback, hlink⟩
    have htarget : p.advance.pc = branchTarget inst p.pc := calc
      p.advance.pc = p.pc + 4 := hpc
      _ = branchTarget inst p.pc := ((branchTarget_eq_next_iff inst _).mpr hback).symm
    exact ⟨htarget, fun hL => hlr.trans (hlink hL), fun c hc _ => advance_cell p hc, rfl, rfl⟩

/-- A branch whose condition holds goes where it should, and its link leads back, unless it
is a `LS` with the C flag clear, which is skipped. -/
theorem branch_and_return_iff (env : Env) (p : ArmCore) (hb : p.bank < 6)
    (hpc : p.pc.toNat % 4 = 0) (inst : Word) (hf : Fetches p inst)
    (h : getBits inst 27 25 = 5) (hholds : ConditionHolds (getBits inst 31 28) p.cpsr) :
    BranchesAndReturns env p inst ↔
      (getBits inst 31 28 = Cond.LS → getBit p.cpsr Flag.C = 0 →
        getBits inst 23 0 = 0xFFFFFF ∧ (getBit inst 24 = 1 → p.gp LR = p.pc + 4)) := by
  by_cases hls : getBits inst 31 28 = Cond.LS ∧ getBit p.cpsr Flag.C = 0
  · -- `LS` holds, but the source also asks for the C flag.
    obtain ⟨hcond, hC⟩ := hls
    have hskip : armStep env p = .ok (0, p.advance) := by
      apply armStep_skip hf env
      rw [hcond]
      exact (flagCond_ls_clear hC).1
    constructor
    · rintro ⟨p', hstep, heffect, -⟩ - -
      obtain rfl : p.advance = p' := ok_unique_snd hskip hstep
      exact (skipped_effect_iff hb).mp heffect
    · intro hback
      exact branchesAndReturns_of_effect hpc hskip
        ((skipped_effect_iff hb).mpr (hback hcond hC))
  · -- Every other condition is tested as it is meant.
    have hflag : flagCond (getBits inst 31 28) p.cpsr = true := by
      by_cases hcond : getBits inst 31 28 = Cond.LS
      · have hC : getBit p.cpsr Flag.C = 1 :=
          (getBit_zero_or_one _ _).resolve_left (fun hC => hls ⟨hcond, hC⟩)
        rw [hcond] at hholds ⊢
        exact (flagCond_ls_iff hC).mpr hholds
      · exact (flagCond_iff (conditionHolds_lt hholds) hcond _).mpr hholds
    have hright := branchesAndReturns_of_effect hpc (armStep_branch env hb hpc hf h hflag)
      (branched_effect hb)
    exact iff_of_true hright (fun hcond hC => absurd ⟨hcond, hC⟩ hls)

end step

/-- `BL` from address 0 to address 8. -/
theorem branch_and_return_bl :
    @BranchesAndReturns makefile ⟨0, 0, 0, 0⟩ (ArmCore.boot 0x10 [0xEB, 0, 0, 0]) 0xEB000000 :=
  (@branch_and_return_iff makefile _ _ (by decide) (by decide) _ (by decide) (by decide)
    (by decide)).mpr (fun hls => absurd hls (by decide))

/-- `BLS` from address 0 to address 8 with C and Z clear is skipped. -/
theorem branch_and_return_bls :
    @Fetches makefile (ArmCore.boot 0x10 [0x9A, 0, 0, 0]) 0x9A000000 ∧
      ConditionHolds (getBits 0x9A000000 31 28) (ArmCore.boot 0x10 [0x9A, 0, 0, 0]).cpsr ∧
      ¬@BranchesAndReturns makefile ⟨0, 0, 0, 0⟩ (ArmCore.boot 0x10 [0x9A, 0, 0, 0])
        0x9A000000 := by
  refine ⟨by decide, by decide, ?_⟩
  rintro ⟨p', hstep, heffect, -⟩
  have hpc : (@armStep makefile ⟨0, 0, 0, 0⟩ (ArmCore.boot 0x10 [0x9A, 0, 0, 0])).map
      (fun r => @ArmCore.pc makefile r.2) = .ok 4 := by decide
  rw [hstep] at hpc
  have hfour := Except.ok.inj hpc
  exact absurd (hfour.symm.trans (@BranchEffect.target makefile _ _ _ heffect)) (by decide)

end ArmSim
