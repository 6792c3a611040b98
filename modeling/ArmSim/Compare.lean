import ArmSim.Conditions
import ArmSim.Flags
import ArmSim.Handlers

/-! A comparison and the conditional instruction after it: the six signed and equality
conditions read the flags of `a - b` as the relation between the signed operands. -/
namespace ArmSim
open Lib

/-- `CMP Rn, Rm` on two registers other than r15. -/
structure IsCmp (inst : Word) : Prop where
  opcode : getBits inst 27 20 = 0b00010101
  unshifted : getBits inst 11 4 = 0
  rn : getBits inst 19 16 ≠ 15
  rm : getBits inst 3 0 ≠ 15

/-- The relation that a condition asserts of the operands compared. -/
def signedRelation (c : ℕ) (a b : Word) : Prop :=
  if c = Cond.EQ then a = b
  else if c = Cond.NE then a ≠ b
  else if c = Cond.GE then b.toInt ≤ a.toInt
  else if c = Cond.LT then a.toInt < b.toInt
  else if c = Cond.GT then b.toInt < a.toInt
  else a.toInt ≤ b.toInt

/-- The conditions for equality and signed order. -/
abbrev SignedCondition (c : ℕ) : Prop :=
  c ∈ [Cond.EQ, Cond.NE, Cond.GE, Cond.LT, Cond.GT, Cond.LE]

theorem IsCmp.fields {inst : Word} (h : IsCmp inst) :
    getBits inst 27 25 = 0 ∧ getBit inst 4 = 0 ∧ getBit inst 20 = 1 ∧
      getBits inst 24 21 = Op.CMP ∧ getBits inst 11 7 = 0 ∧ getBits inst 6 5 = Shift.LSL := by
  have h1 := h.opcode
  have h2 := h.unshifted
  change _ ∧ _ ∧ _ ∧ getBits inst 24 21 = 10 ∧ _ ∧ getBits inst 6 5 = 0
  simp only [getBits_eq, getBit_eq_div] at *
  omega

/-- The flags decide the signed relation. -/
theorem armCondition_signed {c : ℕ} (hc : SignedCondition c) (a b : Word) {n z cf v : Bool}
    (hn : n.toNat = getBit (a - b) 31) (hz : z = decide (a = b))
    (hv : v.toNat = if subtractionOverflow a b then 1 else 0) :
    armCondition c n z cf v = true ↔ signedRelation c a b := by
  -- The four orders are all read off N = V and Z.
  have hge : n = v ↔ b.toInt ≤ a.toInt := by
    rw [← sign_eq_overflow_iff, ← hn, ← hv]
    cases n <;> cases v <;> decide
  have heq : a = b ↔ a.toInt = b.toInt := BitVec.toInt_inj.symm
  have hnv : (n == v) = decide (b.toInt ≤ a.toInt) := by
    rw [Bool.eq_iff_iff, beq_iff_eq, decide_eq_true_iff, hge]
  have hne : (n != v) = !decide (b.toInt ≤ a.toInt) := by
    rw [bne, hnv]
  simp only [List.mem_cons, List.not_mem_nil, or_false] at hc
  rcases hc with rfl | rfl | rfl | rfl | rfl | rfl
  · simp [armCondition, signedRelation, hz]
  · simp [armCondition, signedRelation, hz]
  · simp [armCondition, signedRelation, hnv]
  · simp [armCondition, signedRelation, hne]
  · simp only [armCondition, signedRelation, hnv, hz, heq]
    simp
    omega
  · simp only [armCondition, signedRelation, hne, hz, heq]
    simp
    omega

theorem sub_eq_zero_word (a b : Word) : a - b = 0 ↔ a = b := by
  constructor
  · intro h
    rw [← BitVec.sub_add_cancel a b, h, BitVec.ofNat_eq_ofNat, BitVec.zero_add]
  · rintro rfl
    exact BitVec.sub_self a

/-- The CPSR a comparison of `a` with `b` leaves. -/
def comparedCpsr (a b cpsr : Word) : Word :=
  updateFlags ⟨(a - b).setWidth 64, false, 1, 2⟩ Op.CMP a b (getBit cpsr Flag.C) cpsr

/-- After a comparison, a signed condition is the relation. -/
theorem flagCond_compared {c : ℕ} (hc : SignedCondition c) (a b cpsr : Word) :
    flagCond c (comparedCpsr a b cpsr) = true ↔ signedRelation c a b := by
  have hv : (⟨(a - b).setWidth 64, false, 1, 2⟩ : Operation).RdValue = (a - b).setWidth 64 := rfl
  have hbit := getBit_updateFlags_sub hv rfl (Or.inr rfl) (getBit cpsr Flag.C) cpsr
  have hc15 : c < 15 ∧ c ≠ Cond.LS := by
    simp only [List.mem_cons, List.not_mem_nil, or_false] at hc
    rcases hc with rfl | rfl | rfl | rfl | rfl | rfl <;> decide
  rw [flagCond_iff hc15.1 hc15.2]
  unfold ConditionHolds comparedCpsr
  refine armCondition_signed hc a b ?_ ?_ ?_
  · rw [← getBit_eq, hbit Flag.N]
    rfl
  · have hz := hbit Flag.Z
    rw [getBit_eq] at hz
    simp only [sub_eq_zero_word] at hz
    by_cases hab : a = b <;> simpa [hab] using hz
  · rw [← getBit_eq, hbit Flag.V]
    rfl

section compare
variable [Platform]

/-- The next step runs the body of `inst` exactly when `r` holds. -/
structure ExecutedWhen (env : Env) (q : ArmCore) (inst : Word) (r : Prop) : Prop where
  passes : flagCond (getBits inst 31 28) q.cpsr = true ↔ r
  run : r → armStep env q = runBody env q.advance inst
  skip : ¬r → armStep env q = .ok (0, q.advance)

theorem applyOperator_cmp {p : ArmCore} {ins a : Word} (b cpsr : Word) (S : ℕ)
    (ho : getBits ins 24 21 = Op.CMP) (ha : armReadRegister p (getBits ins 19 16) = .ok a) :
    applyOperator p ins b (getBit cpsr Flag.C) S cpsr =
      .ok (0, armWriteCpsr p (comparedCpsr a b cpsr)) := by
  unfold applyOperator comparedCpsr
  simp only [ho, ha, selectOperator, ok_bind, pure_eq_ok, Bool.false_eq_true, false_and,
    ↓reduceIte, Nat.one_ne_zero, ne_eq, not_false_eq_true]

/-- The step of a comparison changes the flags only. -/
theorem armStep_cmp (env : Env) {p : ArmCore} {inst : Word} (hb : p.bank < 6)
    (hf : Fetches p inst) (hc : flagCond (getBits inst 31 28) p.cpsr = true) (h : IsCmp inst) :
    armStep env p = .ok (0, armWriteCpsr p.advance
      (comparedCpsr (p.gp (getBits inst 19 16)) (p.gp (getBits inst 3 0)) p.cpsr)) := by
  obtain ⟨hcode, h4, hS, hop, h11, h6⟩ := h.fields
  have hread {reg : ℕ} (hr : reg < 16) (h15 : reg ≠ 15) :
      armReadRegister p.advance reg = .ok (p.gp reg) :=
    armReadRegister_advance p (by omega) hb
  have hrn := hread (getBits_lt_sixteen inst rfl) h.rn
  have hrm := hread (getBits_lt_sixteen inst rfl) h.rm
  have hbody : armFetchCodeInst env p.advance inst p.advance.cpsr =
      .ok (0, armWriteCpsr p.advance
        (comparedCpsr (p.gp (getBits inst 19 16)) (p.gp (getBits inst 3 0)) p.cpsr)) := by
    rw [decode_immediateShift env _ _ hcode h4 (by omega), advance_cpsr]
    unfold armDataProcessingImmediateShift
    dsimp only
    rw [hrm]
    simp only [ok_bind, h11, h6, getShifterOperandImmediateShift, ↓reduceIte]
    exact applyOperator_cmp _ _ _ hop hrn
  rw [armStep_run hf env hc]
  unfold runBody
  rw [hbody]
  rfl

/-- A comparison decides the conditions of the instruction after it. -/
theorem compare_then_condition (env : Env) (p : ArmCore) (inst : Word) (hb : p.bank < 6)
    (hf : Fetches p inst) (hc : flagCond (getBits inst 31 28) p.cpsr = true) (h : IsCmp inst) :
    ∃ q, armStep env p = .ok (0, q) ∧ ∀ env' inst', Fetches q inst' →
      SignedCondition (getBits inst' 31 28) →
      ExecutedWhen env' q inst' (signedRelation (getBits inst' 31 28)
        (p.gp (getBits inst 19 16)) (p.gp (getBits inst 3 0))) := by
  refine ⟨_, armStep_cmp env hb hf hc h, ?_⟩
  intro env' inst' hf' hsigned
  have hiff := flagCond_compared hsigned (p.gp (getBits inst 19 16)) (p.gp (getBits inst 3 0))
    p.cpsr
  rw [← armWriteCpsr_cpsr p.advance (comparedCpsr ..)] at hiff
  refine ⟨hiff, fun hr => armStep_run hf' env' (hiff.mpr hr), ?_⟩
  intro hr
  exact armStep_skip hf' env' (Bool.eq_false_iff.mpr (fun ht => hr (hiff.mp ht)))

end compare

/-- `CMP r0, r1` followed by `MOVGE r0, #1`. -/
theorem compare_then_condition_movge :
    ∃ q, @armStep makefile ⟨0, 0, 0, 0⟩ (ArmCore.boot 0x10
        [0xE1, 0x50, 0x00, 0x01, 0xA3, 0xA0, 0x00, 0x01]) = .ok (0, q) ∧
      ∀ env' inst', @Fetches makefile q inst' → SignedCondition (getBits inst' 31 28) →
        @ExecutedWhen makefile env' q inst' (signedRelation (getBits inst' 31 28)
          (@ArmCore.gp makefile (ArmCore.boot 0x10
            [0xE1, 0x50, 0x00, 0x01, 0xA3, 0xA0, 0x00, 0x01]) 0)
          (@ArmCore.gp makefile (ArmCore.boot 0x10
            [0xE1, 0x50, 0x00, 0x01, 0xA3, 0xA0, 0x00, 0x01]) 1)) :=
  @compare_then_condition makefile _ _ 0xE1500001 (by decide) (by decide) (by decide)
    ⟨by decide, by decide, by decide, by decide⟩

end ArmSim
