import ArmSim.Carry
import Mathlib.Algebra.Group.Int.Defs

/-! The V flag of the eight arithmetic operators, and where `overflowFrom` misses: the
carry and the borrow do not reach its sum, and `RSB` has no case. -/
namespace ArmSim
open Lib

/-- The exact result of an operation on signed operands. -/
def signedResult (opcode : ℕ) (a b cpsr : Word) : ℤ :=
  if opcode = Op.ADD ∨ opcode = Op.ADC ∨ opcode = Op.CMN then
    a.toInt + b.toInt + carryIn opcode cpsr
  else
    (minuend opcode a b).toInt - (subtrahend opcode a b).toInt - borrowIn opcode cpsr

def OutsideSigned (v : ℤ) : Prop := v < -2^31 ∨ 2^31 - 1 < v

/-- The inputs for which the V flag is right.  `base` is the CPSR that the flag update
starts from, whose V flag `RSB` keeps. -/
def OverflowExact (opcode : ℕ) (a b cpsr base : Word) : Prop :=
  match opcode with
  | Op.ADC =>
    getBit cpsr Flag.C = 1 → a.toInt + b.toInt ≠ 2^31 - 1 ∧ a.toInt + b.toInt ≠ -2^31 - 1
  | Op.SBC =>
    (a.toInt < 0 ↔ b.toInt < 0) ∨
      (a.toInt - b.toInt ≠ 2^31 - 1 ∧ a.toInt - b.toInt ≠ -2^31 - 1 ∧
        (getBit cpsr Flag.C = 0 → a.toInt - b.toInt ≠ 2^31 ∧ a.toInt - b.toInt ≠ -2^31))
  | Op.RSC =>
    (a.toInt < 0 ↔ b.toInt < 0) ∨
      (b.toInt - a.toInt ≠ 1 ∧ b.toInt - a.toInt ≠ 1 - 2^32 ∧
        (getBit cpsr Flag.C = 1 → b.toInt - a.toInt ≠ 2^31 ∧ b.toInt - a.toInt ≠ -2^31))
  | Op.RSB => getBit base Flag.V = 1 ↔ OutsideSigned (b.toInt - a.toInt)
  | _ => True

theorem getBit_overflowFrom_add {opcode : ℕ}
    (ho : opcode = Op.ADD ∨ opcode = Op.ADC ∨ opcode = Op.CMN) (a b cpsr : Word) :
    getBit (overflowFrom a b opcode cpsr) Flag.V =
      if getBit a 31 = getBit b 31 ∧ getBit (a + b) 31 ≠ getBit a 31 then 1 else 0 := by
  have hput := getBit_putBit (getBit a 31 = getBit b 31 ∧ getBit (a + b) 31 ≠ getBit a 31) cpsr
    (i := Flag.V) (by decide) Flag.V
  rw [if_pos rfl] at hput
  rcases ho with rfl | rfl | rfl
  · exact hput
  · exact hput
  · exact hput

/-- A signed addition of two words leaves the range exactly when the operands' signs agree
and the sign of the sum differs. -/
theorem signed_add_outside_iff (a b : Word) :
    getBit a 31 = getBit b 31 ∧ getBit (a + b) 31 ≠ getBit a 31 ↔
      OutsideSigned (a.toInt + b.toInt) := by
  have ha := a.isLt
  have hb := b.isLt
  have hsum := BitVec.toNat_add a b
  unfold OutsideSigned
  rw [toInt_sign, toInt_sign]
  simp only [getBit_sign]
  generalize (a + b).toNat = d at hsum ⊢
  -- Each sign says whether a number is taken as it is or less 2^32.
  by_cases hA : 2147483648 ≤ a.toNat <;> by_cases hB : 2147483648 ≤ b.toNat <;>
    by_cases hd : 2147483648 ≤ d <;> simp [hA, hB, hd] <;> omega

/-- The 64-bit sum of a carry and a difference has the sign of the 32-bit one. -/
theorem getBit_wide_sum (n : ℕ) (hn : n ≤ 1) (x : Word) :
    getBit (BitVec.ofNat 64 n + x.setWidth 64) 31 = (n + x.toNat) / 2147483648 % 2 := by
  have hx := x.isLt
  rw [getBit_eq_div, BitVec.toNat_add, BitVec.toNat_ofNat, BitVec.toNat_setWidth]
  omega

theorem getBit_overflowFrom_sub {opcode : ℕ}
    (ho : opcode = Op.SUB ∨ opcode = Op.SBC ∨ opcode = Op.RSC ∨ opcode = Op.CMP)
    (a b cpsr : Word) :
    getBit (overflowFrom a b opcode cpsr) Flag.V =
      if getBit a 31 ≠ getBit b 31 ∧
        (borrowIn opcode cpsr + (a - b).toNat) / 2147483648 % 2 ≠ getBit a 31 then 1 else 0 := by
  -- The 64-bit sum starts from the borrow for `SBC` and `RSC`, and from 0 for the others.
  have hput (n : ℕ) (hn : n ≤ 1) : getBit (if getBit a 31 ≠ getBit b 31 ∧
      getBit (BitVec.ofNat 64 n + (a - b).setWidth 64) 31 ≠ getBit a 31 then setBit cpsr Flag.V
      else clrBit cpsr Flag.V) Flag.V = if getBit a 31 ≠ getBit b 31 ∧
        (n + (a - b).toNat) / 2147483648 % 2 ≠ getBit a 31 then 1 else 0 := by
    rw [getBit_putBit _ _ (by decide), if_pos rfl]
    simp only [getBit_wide_sum n hn]
  rcases ho with rfl | rfl | rfl | rfl
  · exact hput 0 (by decide)
  · exact hput _ (notCarry_le_one cpsr)
  · exact hput _ (notCarry_le_one cpsr)
  · exact hput 0 (by decide)

/-- `overflowFrom` sees the C flag that `borrowFrom` has left, the sign of the result. -/
theorem borrowIn_borrowFrom (opcode : ℕ) (r cpsr : Word) :
    borrowIn opcode (borrowFrom (r.setWidth 64) cpsr) =
      if opcode = Op.SBC ∨ opcode = Op.RSC then 1 - getBit r 31 else 0 := by
  unfold borrowIn
  rw [notCarry_eq, getBit_borrowFrom, if_pos rfl, getBit_setWidth _ (by decide)]

/-- What the V flag of a subtraction is computed from. -/
def subtractionV (opcode : ℕ) (a b r : Word) : Prop :=
  getBit a 31 ≠ getBit b 31 ∧
    ((if opcode = Op.SBC ∨ opcode = Op.RSC then 1 - getBit r 31 else 0) + (a - b).toNat) /
      2147483648 % 2 ≠ getBit a 31

theorem sub_overflow_exact (a b : Word) {opcode : ℕ} (ho : opcode = Op.SUB ∨ opcode = Op.CMP)
    (r : Word) : subtractionV opcode a b r ↔ OutsideSigned (a.toInt - b.toInt) := by
  have ha := a.isLt
  have hb := b.isLt
  have hdiff : (a - b).toNat = (4294967296 - b.toNat + a.toNat) % 4294967296 :=
    BitVec.toNat_sub a b
  have hn : ¬(opcode = Op.SBC ∨ opcode = Op.RSC) := by
    rcases ho with rfl | rfl <;> decide
  unfold subtractionV OutsideSigned
  rw [if_neg hn, toInt_sign, toInt_sign]
  simp only [getBit_sign]
  generalize (a - b).toNat = d at hdiff ⊢
  by_cases hA : 2147483648 ≤ a.toNat <;> by_cases hB : 2147483648 ≤ b.toNat <;>
    simp [hA, hB] <;> omega

theorem toInt_neg_iff (x : Word) : x.toInt < 0 ↔ 2147483648 ≤ x.toNat := by
  have hneg := BitVec.toInt_neg_iff (x := x)
  omega

/-- The flag is clear for operands of one sign. -/
theorem not_subtractionV_of_sameSign {a b : Word} (h : a.toInt < 0 ↔ b.toInt < 0) (opcode : ℕ)
    (r : Word) : ¬subtractionV opcode a b r := by
  rw [toInt_neg_iff, toInt_neg_iff] at h
  have hsign : getBit a 31 = getBit b 31 := by
    rw [getBit_sign, getBit_sign]
    exact if_congr h rfl rfl
  exact fun hv => hv.1 hsign

/-- The difference of two words of one sign is in range, with a borrow too. -/
theorem not_outsideSigned_of_sameSign {a b : Word} (h : a.toInt < 0 ↔ b.toInt < 0) {n : ℕ}
    (hn : n ≤ 1) : ¬OutsideSigned (a.toInt - b.toInt - n) := by
  have hlowA := BitVec.le_toInt a
  have hlowB := BitVec.le_toInt b
  have hhighA := BitVec.toInt_lt (x := a)
  have hhighB := BitVec.toInt_lt (x := b)
  unfold OutsideSigned
  omega

theorem sbc_overflow_exact (a b cpsr base : Word) :
    (subtractionV Op.SBC a b (a - b - BitVec.ofNat 32 (notCarry cpsr)) ↔
      OutsideSigned (a.toInt - b.toInt - notCarry cpsr)) ↔ OverflowExact Op.SBC a b cpsr base := by
  have hw := notCarry_le_one cpsr
  by_cases hsame : a.toInt < 0 ↔ b.toInt < 0
  · have hclear := not_subtractionV_of_sameSign hsame Op.SBC
      (a - b - BitVec.ofNat 32 (notCarry cpsr))
    have hinside := not_outsideSigned_of_sameSign hsame hw
    exact iff_of_true (iff_of_false hclear hinside) (Or.inl hsame)
  have ha := a.isLt
  have hb := b.isLt
  have hc := getBit_zero_or_one cpsr Flag.C
  have hdiff : (a - b).toNat = (4294967296 - b.toNat + a.toNat) % 4294967296 :=
    BitVec.toNat_sub a b
  have hr : (a - b - BitVec.ofNat 32 (notCarry cpsr)).toNat =
      (4294967296 - notCarry cpsr + (a - b).toNat) % 4294967296 := by
    rw [BitVec.toNat_sub, BitVec.toNat_ofNat]
    omega
  unfold subtractionV OutsideSigned OverflowExact
  rw [if_pos (Or.inl rfl), or_iff_right hsame]
  rw [toInt_neg_iff, toInt_neg_iff] at hsame
  rw [toInt_sign, toInt_sign]
  -- Only the borrow, the two words and their differences are left.
  rw [notCarry_eq] at hr ⊢
  generalize getBit cpsr Flag.C = c at *
  simp only [getBit_sign]
  generalize (a - b - BitVec.ofNat 32 (1 - c)).toNat = e at *
  generalize (a - b).toNat = d at *
  by_cases hA : 2147483648 ≤ a.toNat
  · have hB : ¬2147483648 ≤ b.toNat := fun hB => hsame (iff_of_true hA hB)
    rcases hc with rfl | rfl <;> by_cases hE : 2147483648 ≤ e <;> simp [hA, hB, hE] <;> omega
  · have hB : 2147483648 ≤ b.toNat := not_not.mp fun hB => hsame (iff_of_false hA hB)
    rcases hc with rfl | rfl <;> by_cases hE : 2147483648 ≤ e <;> simp [hA, hB, hE] <;> omega

theorem rsc_overflow_exact (a b cpsr base : Word) :
    (subtractionV Op.RSC a b (b - a - BitVec.ofNat 32 (notCarry cpsr)) ↔
      OutsideSigned (b.toInt - a.toInt - notCarry cpsr)) ↔ OverflowExact Op.RSC a b cpsr base := by
  have hw := notCarry_le_one cpsr
  by_cases hsame : a.toInt < 0 ↔ b.toInt < 0
  · have hclear := not_subtractionV_of_sameSign hsame Op.RSC
      (b - a - BitVec.ofNat 32 (notCarry cpsr))
    have hinside := not_outsideSigned_of_sameSign hsame.symm hw
    exact iff_of_true (iff_of_false hclear hinside) (Or.inl hsame)
  have ha := a.isLt
  have hb := b.isLt
  have hc := getBit_zero_or_one cpsr Flag.C
  have hdiff : (a - b).toNat = (4294967296 - b.toNat + a.toNat) % 4294967296 :=
    BitVec.toNat_sub a b
  have hr : (b - a - BitVec.ofNat 32 (notCarry cpsr)).toNat =
      (4294967296 - notCarry cpsr + (4294967296 - a.toNat + b.toNat) % 4294967296) %
        4294967296 := by
    rw [BitVec.toNat_sub, BitVec.toNat_sub, BitVec.toNat_ofNat]
    omega
  unfold subtractionV OutsideSigned OverflowExact
  rw [if_pos (Or.inr rfl), or_iff_right hsame]
  rw [toInt_neg_iff, toInt_neg_iff] at hsame
  rw [toInt_sign, toInt_sign]
  rw [notCarry_eq] at hr ⊢
  generalize getBit cpsr Flag.C = c at *
  simp only [getBit_sign]
  -- The flag looks at a - b, and the result is b - a.
  generalize (b - a - BitVec.ofNat 32 (1 - c)).toNat = e at *
  generalize (a - b).toNat = d at *
  by_cases hA : 2147483648 ≤ a.toNat
  · have hB : ¬2147483648 ≤ b.toNat := fun hB => hsame (iff_of_true hA hB)
    rcases hc with rfl | rfl <;> by_cases hE : 2147483648 ≤ e <;> simp [hA, hB, hE] <;> omega
  · have hB : 2147483648 ≤ b.toNat := not_not.mp fun hB => hsame (iff_of_false hA hB)
    rcases hc with rfl | rfl <;> by_cases hE : 2147483648 ≤ e <;> simp [hA, hB, hE] <;> omega

theorem adc_overflow_exact (a b cpsr base : Word) :
    (OutsideSigned (a.toInt + b.toInt) ↔ OutsideSigned (a.toInt + b.toInt + getBit cpsr Flag.C)) ↔
      OverflowExact Op.ADC a b cpsr base := by
  unfold OutsideSigned OverflowExact
  rcases getBit_zero_or_one cpsr Flag.C with h | h <;> rw [h]
  · simp
  · simp only [true_implies]
    omega

theorem ite_eq_one_iff (c : Prop) [Decidable c] : (if c then 1 else 0) = 1 ↔ c := by
  by_cases h : c <;> simp [h]

section overflow
variable (ins b : Word) (sc S : ℕ)

/-- The V flag that an addition leaves. -/
theorem overflow_after_addition {op : Operation} (hcase : op.ZNCVupdatecase = 0)
    (h : IsAddition ins S) (a base : Word) :
    getBit (updateFlags op (getBits ins 24 21) a b sc base) Flag.V = 1 ↔
      OutsideSigned (a.toInt + b.toInt) := by
  have ho : getBits ins 24 21 = Op.ADD ∨ getBits ins 24 21 = Op.ADC ∨
      getBits ins 24 21 = Op.CMN := by
    rcases h with ⟨h | h, -⟩ | h
    · exact Or.inl h
    · exact Or.inr (Or.inl h)
    · exact Or.inr (Or.inr h)
  unfold updateFlags
  simp only [hcase]
  rw [getBit_overflowFrom_add ho, ite_eq_one_iff]
  exact signed_add_outside_iff a b

/-- The V flag that a subtraction other than `RSB` leaves. -/
theorem overflow_after_subtraction {op : Operation} {r : Word}
    (hvalue : op.RdValue = r.setWidth 64) (hcase : op.ZNCVupdatecase = 2) {opcode : ℕ}
    (ho : opcode = Op.SUB ∨ opcode = Op.SBC ∨ opcode = Op.RSC ∨ opcode = Op.CMP) (a base : Word) :
    getBit (updateFlags op opcode a b sc base) Flag.V = 1 ↔ subtractionV opcode a b r := by
  unfold updateFlags
  simp only [hcase]
  rw [getBit_overflowFrom_sub ho, ite_eq_one_iff, hvalue, borrowIn_borrowFrom]
  rfl

/-- `RSB` leaves the V flag as it finds it. -/
theorem overflow_after_rsb {op : Operation} (hcase : op.ZNCVupdatecase = 2) (a base : Word) :
    getBit (updateFlags op Op.RSB a b sc base) Flag.V = getBit base Flag.V := by
  unfold updateFlags
  simp only [hcase]
  change getBit (borrowFrom op.RdValue (setZn (op.RdValue.setWidth 32) base)) Flag.V = _
  rw [getBit_borrowFrom, if_neg (by decide), getBit_setZn, if_neg (by decide), if_neg (by decide)]

variable [Platform] (p : ArmCore) (cpsr : Word)

/-- The V flag of the eight arithmetic operators is right exactly on `OverflowExact`. -/
theorem overflow_flag_iff (h : IsAddition ins S ∨ IsSubtraction ins S) :
    FlagAfter p ins b sc S cpsr Flag.V
        (OutsideSigned (signedResult (getBits ins 24 21) (p.operand (fieldRn ins)) b cpsr)) ↔
      OperandCells p ins (writesRd (getBits ins 24 21)) ∧
        OverflowExact (getBits ins 24 21) (p.operand (fieldRn ins)) b cpsr
          (flagsBase p ins (writesRd (getBits ins 24 21)) cpsr) := by
  generalize ha : p.operand (fieldRn ins) = a
  rcases h with h | h
  · obtain ⟨x, S', hS, hsel⟩ := h.selects (p.operand (fieldRn ins)) b cpsr
    rw [flagAfter_iff hsel hS, overflow_after_addition ins b sc S rfl h, ha]
    apply and_congr_right
    intro _
    have hadd : a.toInt + b.toInt + (0 : ℕ) = a.toInt + b.toInt := Int.add_zero _
    unfold IsAddition at h
    -- The carry of ADC is the only one that the sum leaves out.
    rcases h with ⟨ho | ho, -⟩ | ho <;> rw [ho]
    · exact iff_of_true (iff_of_eq (congrArg OutsideSigned hadd.symm)) trivial
    · exact adc_overflow_exact a b cpsr _
    · exact iff_of_true (iff_of_eq (congrArg OutsideSigned hadd.symm)) trivial
  · obtain ⟨S', hS, hsel⟩ := h.selects (p.operand (fieldRn ins)) b cpsr
    rw [flagAfter_iff hsel hS]
    apply and_congr_right
    intro _
    have hsub : a.toInt - b.toInt - (0 : ℕ) = a.toInt - b.toInt := Int.sub_zero _
    have hrsb : b.toInt - a.toInt - (0 : ℕ) = b.toInt - a.toInt := Int.sub_zero _
    unfold IsSubtraction at h
    rcases h with ⟨ho | ho | ho | ho, -⟩ | ho <;> rw [ho, ha]
    · rw [overflow_after_subtraction b sc rfl rfl (Or.inl rfl), sub_overflow_exact a b (Or.inl rfl)]
      exact iff_of_true (iff_of_eq (congrArg OutsideSigned hsub.symm)) trivial
    · rw [overflow_after_rsb b sc rfl]
      exact iff_congr Iff.rfl (iff_of_eq (congrArg OutsideSigned hrsb))
    · rw [overflow_after_subtraction b sc rfl rfl (Or.inr (Or.inl rfl))]
      exact sbc_overflow_exact a b cpsr _
    · rw [overflow_after_subtraction b sc rfl rfl (Or.inr (Or.inr (Or.inl rfl)))]
      exact rsc_overflow_exact a b cpsr _
    · rw [overflow_after_subtraction b sc rfl rfl (Or.inr (Or.inr (Or.inr rfl))),
        sub_overflow_exact a b (Or.inr rfl)]
      exact iff_of_true (iff_of_eq (congrArg OutsideSigned hsub.symm)) trivial

end overflow

/-- `ADCS r0, r1, #1` with `r1 = 0x7FFFFFFF` and the C flag set: the sum overflows without the
carry already. -/
theorem overflow_flag_adcs :
    @FlagAfter makefile (@ArmCore.setGp makefile (ArmCore.boot 0x20000010 []) 1 0x7FFFFFFF)
      0xE2B10001 1 0 1 0x20000010 Flag.V
      (OutsideSigned (signedResult Op.ADC 0x7FFFFFFF 1 0x20000010)) :=
  (@overflow_flag_iff 0xE2B10001 1 0 1 makefile
    (@ArmCore.setGp makefile (ArmCore.boot 0x20000010 []) 1 0x7FFFFFFF) 0x20000010
    (Or.inl (Or.inl ⟨Or.inr (by decide), by decide⟩))).mpr ⟨by decide, fun _ => by decide⟩

/-- `ADCS r0, r1, #0` with `r1 = 0x7FFFFFFF` and the C flag set, and `RSBS r0, r1, #0x80000000`
with `r1 = 1`: both overflow, and the V flag stays clear. -/
theorem overflow_flag_missed :
    ¬@FlagAfter makefile (@ArmCore.setGp makefile (ArmCore.boot 0x20000010 []) 1 0x7FFFFFFF)
      0xE2B10000 0 0 1 0x20000010 Flag.V
      (OutsideSigned (signedResult Op.ADC 0x7FFFFFFF 0 0x20000010)) ∧
    ¬@FlagAfter makefile (@ArmCore.setGp makefile (ArmCore.boot 0x10 []) 1 1)
      0xE2710102 0x80000000 1 1 0x10 Flag.V
      (OutsideSigned (signedResult Op.RSB 1 0x80000000 0x10)) := by
  constructor
  · rintro ⟨q, hq, hr⟩
    have hbit : (@applyOperator makefile
        (@ArmCore.setGp makefile (ArmCore.boot 0x20000010 []) 1 0x7FFFFFFF)
        0xE2B10000 0 0 1 0x20000010).map (fun r => getBit r.2.cpsr Flag.V) = .ok 0 := rfl
    rw [hq] at hbit
    have hset : getBit q.cpsr Flag.V = 1 := hr.mpr (Or.inr (by decide))
    have hclear : getBit q.cpsr Flag.V = 0 := Except.ok.inj hbit
    omega
  · rintro ⟨q, hq, hr⟩
    have hbit : (@applyOperator makefile (@ArmCore.setGp makefile (ArmCore.boot 0x10 []) 1 1)
        0xE2710102 0x80000000 1 1 0x10).map (fun r => getBit r.2.cpsr Flag.V) = .ok 0 := rfl
    rw [hq] at hbit
    have hset : getBit q.cpsr Flag.V = 1 := hr.mpr (Or.inl (by decide))
    have hclear : getBit q.cpsr Flag.V = 0 := Except.ok.inj hbit
    omega

end ArmSim
