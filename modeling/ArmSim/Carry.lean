import ArmSim.Flags

/-! The C flag of the additions and subtractions of `apply_operator`: an addition always
clears it, and a subtraction copies the sign of its result into it. -/
namespace ArmSim
open Lib

theorem getBit_overflowFrom_of_ne (a b : Word) (opcode : ℕ) (cpsr : Word) {j : ℕ}
    (hj : j ≠ Flag.V) : getBit (overflowFrom a b opcode cpsr) j = getBit cpsr j := by
  unfold overflowFrom
  split <;> dsimp only
  all_goals rw [getBit_putBit _ _ (by decide), if_neg hj]

theorem getBit_carryFrom (t : BitVec 64) (cpsr : Word) (j : ℕ) :
    getBit (carryFrom t cpsr) j =
      if j = Flag.C then (if 4294967296 ≤ t.toNat then 1 else 0) else getBit cpsr j := by
  unfold carryFrom
  rw [getBit_putBit _ _ (by decide)]

/-- A result that was cut to 32 bits never reaches the carry's threshold. -/
theorem getBit_carryFrom_setWidth (x cpsr : Word) :
    getBit (carryFrom (x.setWidth 64) cpsr) Flag.C = 0 := by
  have hx := x.isLt
  have hlt : (x.setWidth 64).toNat < 4294967296 := by
    rw [BitVec.toNat_setWidth]
    omega
  rw [getBit_carryFrom, if_pos rfl, if_neg (Nat.not_le.mpr hlt)]

section operator
variable [Platform]

/-- The register numbers of a data-processing instruction. -/
abbrev fieldRn (ins : Word) : ℕ := getBits ins 19 16

abbrev fieldRd (ins : Word) : ℕ := getBits ins 15 12

/-- The CPSR that the flag update starts from: a write of r15 restores it first. -/
def flagsBase (p : ArmCore) (ins : Word) (updateRd : Bool) (cpsr : Word) : Word :=
  if updateRd ∧ fieldRd ins = 15 ∧ armCurrentModeHasSpsr p then
    p.reg.get (bankCell SPSR p.bank)
  else cpsr

/-- The registers that an operation reads and writes have cells. -/
def OperandCells (p : ArmCore) (ins : Word) (updateRd : Bool) : Prop :=
  p.HasCell (fieldRn ins) ∧ (updateRd = true → p.HasCell (fieldRd ins))

instance (p : ArmCore) (ins : Word) (updateRd : Bool) : Decidable (OperandCells p ins updateRd) :=
  inferInstanceAs (Decidable (_ ∧ _))

/-- `apply_operator` returns 0 and leaves flag `i` set exactly when `r` holds. -/
def FlagAfter (p : ArmCore) (ins b : Word) (sc S : ℕ) (cpsr : Word) (i : ℕ) (r : Prop) : Prop :=
  ∃ q, applyOperator p ins b sc S cpsr = .ok (0, q) ∧ (getBit q.cpsr i = 1 ↔ r)

section
variable {p : ArmCore} {ins b cpsr : Word} {sc S : ℕ} {op : Operation}

theorem applyOperator_flags (sc : ℕ)
    (hsel : selectOperator (getBits ins 24 21) (p.operand (fieldRn ins)) b cpsr S = some op)
    (hS : op.S ≠ 0) (h : OperandCells p ins op.updateRd) :
    ∃ q, applyOperator p ins b sc S cpsr = .ok (0, q) ∧
      q.cpsr = updateFlags op (getBits ins 24 21) (p.operand (fieldRn ins)) b sc
        (flagsBase p ins op.updateRd cpsr) := by
  -- A write of r15 that sets the flags starts from the SPSR, where the mode has one.
  have hbase : (if op.updateRd ∧ op.S ≠ 0 ∧ fieldRd ins = 15 ∧ armCurrentModeHasSpsr p
      then armReadSpsr p else pure cpsr) = .ok (flagsBase p ins op.updateRd cpsr) := by
    unfold flagsBase
    by_cases hc : op.updateRd ∧ fieldRd ins = 15 ∧ armCurrentModeHasSpsr p
    · have h2 : 2 ≤ p.bank := (registersCurrentModeHasSpsr_iff p.reg).mp hc.2.2
      rw [if_pos ⟨hc.1, hS, hc.2⟩, if_pos hc, armReadSpsr_eq h2]
    · rw [if_neg (fun ha => hc ⟨ha.1, ha.2.2⟩), if_neg hc]
      rfl
  obtain ⟨p', hp'⟩ : ∃ p', (if op.updateRd then
      armWriteRegister p (fieldRd ins) (op.RdValue.setWidth 32) else pure p) = .ok p' := by
    by_cases hu : op.updateRd = true
    · rw [if_pos hu, armWriteRegister_hasCell (getBits_lt_sixteen ins rfl) (h.2 hu)]
      exact ⟨_, rfl⟩
    · rw [if_neg hu]
      exact ⟨_, rfl⟩
  refine ⟨armWriteCpsr p' (updateFlags op (getBits ins 24 21) (p.operand (fieldRn ins)) b sc
    (flagsBase p ins op.updateRd cpsr)), ?_, armWriteCpsr_cpsr _ _⟩
  unfold applyOperator
  dsimp only
  rw [armReadRegister_hasCell (getBits_lt_sixteen ins rfl) h.1, ok_bind, hsel]
  dsimp only
  rw [hbase, ok_bind, hp', ok_bind, if_pos hS]
  rfl

theorem applyOperator_noCell (sc : ℕ)
    (hsel : selectOperator (getBits ins 24 21) (p.operand (fieldRn ins)) b cpsr S = some op)
    (h : ¬OperandCells p ins op.updateRd) :
    ∃ e, applyOperator p ins b sc S cpsr = .error e := by
  unfold applyOperator
  dsimp only
  by_cases hn : p.HasCell (fieldRn ins)
  · -- The source register is read, so it is the write that fails.
    obtain ⟨hu, hd⟩ : op.updateRd = true ∧ ¬p.HasCell (fieldRd ins) := by
      by_contra hc
      exact h ⟨hn, fun hu => by_contra (fun hd => hc ⟨hu, hd⟩)⟩
    rw [armReadRegister_hasCell (getBits_lt_sixteen ins rfl) hn, ok_bind, hsel]
    dsimp only
    cases hbase : (if op.updateRd ∧ op.S ≠ 0 ∧ fieldRd ins = 15 ∧ armCurrentModeHasSpsr p
      then armReadSpsr p else pure cpsr) with
    | error e => exact ⟨e, rfl⟩
    | ok c =>
      rw [ok_bind, if_pos hu, armWriteRegister_noCell (getBits_lt_sixteen ins rfl) hd]
      exact ⟨_, rfl⟩
  · rw [armReadRegister_noCell (getBits_lt_sixteen ins rfl) hn]
    exact ⟨_, rfl⟩

/-- The flag after an operation, and whether the operation returns at all. -/
theorem flagAfter_iff
    (hsel : selectOperator (getBits ins 24 21) (p.operand (fieldRn ins)) b cpsr S = some op)
    (hS : op.S ≠ 0) (i : ℕ) (r : Prop) :
    FlagAfter p ins b sc S cpsr i r ↔ OperandCells p ins op.updateRd ∧
      (getBit (updateFlags op (getBits ins 24 21) (p.operand (fieldRn ins)) b sc
        (flagsBase p ins op.updateRd cpsr)) i = 1 ↔ r) := by
  constructor
  · rintro ⟨q, hq, hr⟩
    -- A call that returns has found its registers.
    have hcells : OperandCells p ins op.updateRd := by
      by_contra hn
      obtain ⟨e, he⟩ := applyOperator_noCell sc hsel hn
      rw [he] at hq
      cases hq
    obtain ⟨q', hq', hc⟩ := applyOperator_flags sc hsel hS hcells
    obtain rfl : q' = q := ok_unique_snd hq' hq
    exact ⟨hcells, by rwa [← hc]⟩
  · rintro ⟨hcells, hr⟩
    obtain ⟨q, hq, hc⟩ := applyOperator_flags sc hsel hS hcells
    exact ⟨q, hq, by rwa [hc]⟩

end

/-- Of the arithmetic instructions, all but the two comparisons write their result. -/
def writesRd (opcode : ℕ) : Bool := opcode ≠ Op.CMP ∧ opcode ≠ Op.CMN

/-- `ADDS`, `ADCS` or `CMN`, which sets the flags by itself. -/
def IsAddition (ins : Word) (S : ℕ) : Prop :=
  (getBits ins 24 21 = Op.ADD ∨ getBits ins 24 21 = Op.ADC) ∧ S ≠ 0 ∨ getBits ins 24 21 = Op.CMN

/-- `SUBS`, `RSBS`, `SBCS`, `RSCS` or `CMP`, which sets the flags by itself. -/
def IsSubtraction (ins : Word) (S : ℕ) : Prop :=
  (getBits ins 24 21 = Op.SUB ∨ getBits ins 24 21 = Op.RSB ∨ getBits ins 24 21 = Op.SBC ∨
    getBits ins 24 21 = Op.RSC) ∧ S ≠ 0 ∨ getBits ins 24 21 = Op.CMP

/-- The carry that the operation adds. -/
def carryIn (opcode : ℕ) (cpsr : Word) : ℕ := if opcode = Op.ADC then getBit cpsr Flag.C else 0

/-- The borrow that the operation subtracts. -/
def borrowIn (opcode : ℕ) (cpsr : Word) : ℕ :=
  if opcode = Op.SBC ∨ opcode = Op.RSC then notCarry cpsr else 0

def minuend (opcode : ℕ) (a b : Word) : Word := if opcode = Op.RSB ∨ opcode = Op.RSC then b else a

def subtrahend (opcode : ℕ) (a b : Word) : Word :=
  if opcode = Op.RSB ∨ opcode = Op.RSC then a else b

omit [Platform] in
/-- An addition's result has 32 bits, and its flags are updated with the carry. -/
theorem IsAddition.selects {ins : Word} {S : ℕ} (h : IsAddition ins S) (a b cpsr : Word) :
    ∃ (x : Word) (S' : ℕ), S' ≠ 0 ∧ selectOperator (getBits ins 24 21) a b cpsr S =
      some ⟨x.setWidth 64, writesRd (getBits ins 24 21), S', 0⟩ := by
  unfold IsAddition at h
  -- ADD and ADC keep the S bit, and CMN sets it.
  rcases h with ⟨ho | ho, hS⟩ | ho <;> rw [ho]
  · exact ⟨_, S, hS, rfl⟩
  · exact ⟨_, S, hS, rfl⟩
  · exact ⟨_, 1, Nat.one_ne_zero, rfl⟩

omit [Platform] in
/-- A subtraction's result is the difference less the borrow, in 32 bits. -/
theorem IsSubtraction.selects {ins : Word} {S : ℕ} (h : IsSubtraction ins S) (a b cpsr : Word) :
    ∃ S', S' ≠ 0 ∧ selectOperator (getBits ins 24 21) a b cpsr S =
      some ⟨(minuend (getBits ins 24 21) a b - subtrahend (getBits ins 24 21) a b -
        BitVec.ofNat 32 (borrowIn (getBits ins 24 21) cpsr)).setWidth 64,
        writesRd (getBits ins 24 21), S', 2⟩ := by
  have hzero (x : Word) : x = x - BitVec.ofNat 32 0 := (BitVec.sub_zero x).symm
  unfold IsSubtraction at h
  rcases h with ⟨ho | ho | ho | ho, hS⟩ | ho <;> rw [ho]
  · refine ⟨S, hS, ?_⟩
    exact congrArg (fun v : Word => some (Operation.mk (v.setWidth 64) true S 2)) (hzero (a - b))
  · refine ⟨S, hS, ?_⟩
    exact congrArg (fun v : Word => some (Operation.mk (v.setWidth 64) true S 2)) (hzero (b - a))
  · exact ⟨S, hS, rfl⟩
  · exact ⟨S, hS, rfl⟩
  · refine ⟨1, Nat.one_ne_zero, ?_⟩
    exact congrArg (fun v : Word => some (Operation.mk (v.setWidth 64) false 1 2)) (hzero (a - b))

section carry
variable (p : ArmCore) (ins b : Word) (sc S : ℕ) (cpsr : Word)

/-- The carry of an addition is right exactly when there is none. -/
theorem carry_after_addition_iff (h : IsAddition ins S) :
    FlagAfter p ins b sc S cpsr Flag.C (2^32 ≤ (p.operand (fieldRn ins)).toNat + b.toNat +
        carryIn (getBits ins 24 21) cpsr) ↔
      OperandCells p ins (writesRd (getBits ins 24 21)) ∧ (p.operand (fieldRn ins)).toNat + b.toNat +
        carryIn (getBits ins 24 21) cpsr < 2^32 := by
  obtain ⟨x, S', hS, hsel⟩ := h.selects (p.operand (fieldRn ins)) b cpsr
  -- The sum was cut to 32 bits, so the test against 2^32 never holds.
  have hclear (op : Operation) (hvalue : op.RdValue = x.setWidth 64)
      (hcase : op.ZNCVupdatecase = 0) (base : Word) :
      getBit (updateFlags op (getBits ins 24 21) (p.operand (fieldRn ins)) b sc base) Flag.C = 0 := by
    unfold updateFlags
    simp only [hcase]
    rw [getBit_overflowFrom_of_ne _ _ _ _ (by decide), hvalue, getBit_carryFrom_setWidth]
  rw [flagAfter_iff hsel hS, hclear _ rfl rfl]
  apply and_congr_right
  intro _
  omega

/-- The carry of a subtraction is right exactly where the sign of the result is not the
borrow: a difference of at least `2^31`, or below `-2^31`. -/
theorem carry_after_subtraction_iff (h : IsSubtraction ins S) :
    FlagAfter p ins b sc S cpsr Flag.C
        ((subtrahend (getBits ins 24 21) (p.operand (fieldRn ins)) b).toNat +
          borrowIn (getBits ins 24 21) cpsr ≤
        (minuend (getBits ins 24 21) (p.operand (fieldRn ins)) b).toNat) ↔
      OperandCells p ins (writesRd (getBits ins 24 21)) ∧
        ((subtrahend (getBits ins 24 21) (p.operand (fieldRn ins)) b).toNat +
          borrowIn (getBits ins 24 21) cpsr + 2^31 ≤
            (minuend (getBits ins 24 21) (p.operand (fieldRn ins)) b).toNat ∨
        (minuend (getBits ins 24 21) (p.operand (fieldRn ins)) b).toNat + 2^31 <
          (subtrahend (getBits ins 24 21) (p.operand (fieldRn ins)) b).toNat +
            borrowIn (getBits ins 24 21) cpsr) := by
  obtain ⟨S', hS, hsel⟩ := h.selects (p.operand (fieldRn ins)) b cpsr
  generalize hx : minuend (getBits ins 24 21) (p.operand (fieldRn ins)) b = x at *
  generalize hy : subtrahend (getBits ins 24 21) (p.operand (fieldRn ins)) b = y at *
  generalize hw : borrowIn (getBits ins 24 21) cpsr = w at *
  -- The flag is bit 31 of the difference, which stands for the borrow below 2^31 only.
  have hsign (op : Operation) (hvalue : op.RdValue = (x - y - BitVec.ofNat 32 w).setWidth 64)
      (hcase : op.ZNCVupdatecase = 2) (base : Word) :
      getBit (updateFlags op (getBits ins 24 21) (p.operand (fieldRn ins)) b sc base) Flag.C =
        getBit (x - y - BitVec.ofNat 32 w) 31 := by
    unfold updateFlags
    simp only [hcase]
    rw [getBit_overflowFrom_of_ne _ _ _ _ (by decide), getBit_borrowFrom, if_pos rfl, hvalue,
      getBit_setWidth _ (by decide)]
  have hbit : w ≤ 1 := by
    rw [← hw]
    unfold borrowIn notCarry
    split <;> (try split) <;> omega
  rw [flagAfter_iff hsel hS, hsign _ rfl rfl]
  apply and_congr_right
  intro _
  have hdiff : (x - y - BitVec.ofNat 32 w).toNat =
      (4294967296 - w + (4294967296 - y.toNat + x.toNat) % 4294967296) % 4294967296 := by
    rw [BitVec.toNat_sub, BitVec.toNat_sub, BitVec.toNat_ofNat]
    omega
  have hxlt := x.isLt
  have hylt := y.isLt
  rw [getBit_sign, hdiff]
  split <;> omega

end carry

end operator

/-- `ADDS r0, r1, #1` with `r1 = 0`: there is no carry. -/
theorem carry_after_addition_adds :
    @FlagAfter makefile (ArmCore.boot 0x10 []) 0xE2910001 1 0 1 0x10 Flag.C (2^32 ≤ 0 + 1 + 0) :=
  (@carry_after_addition_iff makefile (ArmCore.boot 0x10 []) 0xE2910001 1 0 1 0x10
    (Or.inl ⟨Or.inl (by decide), by decide⟩)).mpr ⟨by decide, by decide⟩

/-- `ADDS r0, r1, #1` with `r1 = 0xFFFFFFFF`: the carry is lost. -/
theorem carry_after_addition_lost :
    ¬@FlagAfter makefile (@ArmCore.setGp makefile (ArmCore.boot 0x10 []) 1 0xFFFFFFFF) 0xE2910001 1
      0 1 0x10 Flag.C (2^32 ≤ 0xFFFFFFFF + 1 + 0) := by
  rintro ⟨q, hq, hr⟩
  have hbit : (@applyOperator makefile (@ArmCore.setGp makefile (ArmCore.boot 0x10 []) 1 0xFFFFFFFF)
      0xE2910001 1 0 1 0x10).map (fun r => getBit r.2.cpsr Flag.C) = .ok 0 := rfl
  rw [hq] at hbit
  have hset : getBit q.cpsr Flag.C = 1 := hr.mpr (by decide)
  have hclear : getBit q.cpsr Flag.C = 0 := Except.ok.inj hbit
  omega

/-- `CMP r1, #1` with `r1 = 0x80000001`: the difference has its sign bit set. -/
theorem carry_after_subtraction_cmp :
    @FlagAfter makefile (@ArmCore.setGp makefile (ArmCore.boot 0x10 []) 1 0x80000001) 0xE3510001 1
      0 1 0x10 Flag.C (1 + 0 ≤ 0x80000001) :=
  (@carry_after_subtraction_iff makefile
    (@ArmCore.setGp makefile (ArmCore.boot 0x10 []) 1 0x80000001) 0xE3510001 1 0 1 0x10
    (Or.inr (by decide))).mpr ⟨by decide, by decide⟩

/-- `CMP r1, #1` with `r1 = 2`: no borrow, and the carry is cleared. -/
theorem carry_after_subtraction_small :
    ¬@FlagAfter makefile (@ArmCore.setGp makefile (ArmCore.boot 0x10 []) 1 2) 0xE3510001 1
      0 1 0x10 Flag.C (1 + 0 ≤ 2) := by
  rintro ⟨q, hq, hr⟩
  have hbit : (@applyOperator makefile (@ArmCore.setGp makefile (ArmCore.boot 0x10 []) 1 2)
      0xE3510001 1 0 1 0x10).map (fun r => getBit r.2.cpsr Flag.C) = .ok 0 := rfl
  rw [hq] at hbit
  have hset : getBit q.cpsr Flag.C = 1 := hr.mpr (by decide)
  have hclear : getBit q.cpsr Flag.C = 0 := Except.ok.inj hbit
  omega

end ArmSim
