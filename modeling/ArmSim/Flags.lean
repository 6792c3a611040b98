import ArmSim.Step

/-! The flags a subtraction leaves, bit by bit. -/
namespace ArmSim
open Lib

theorem getBit_putBit (c : Prop) [Decidable c] (x : Word) {i : ℕ} (hi : i < 32) (j : ℕ) :
    getBit (if c then setBit x i else clrBit x i) j =
      if j = i then (if c then 1 else 0) else getBit x j := by
  by_cases hj : j = i
  · subst hj
    by_cases hc : c
    · rw [if_pos hc, if_pos rfl, if_pos hc, getBit_setBit_self x j hi]
    · rw [if_neg hc, if_pos rfl, if_neg hc, getBit_clrBit_self]
  · by_cases hc : c
    · rw [if_pos hc, if_neg hj, getBit_setBit_of_ne x hj]
    · rw [if_neg hc, if_neg hj, getBit_clrBit_of_ne x hj]

theorem getBit_ite_ne_zero {w : ℕ} (x : BitVec w) (i : ℕ) :
    (if getBit x i ≠ 0 then 1 else 0) = getBit x i := by
  rcases getBit_zero_or_one x i with h | h <;> simp [h]

/-- The sign bit of a widened word is the word's. -/
theorem getBit_setWidth (x : Word) {i : ℕ} (hi : i < 32) :
    getBit (x.setWidth 64) i = getBit x i := by
  simp [getBit_eq, show i < 64 by omega]

theorem getBit_setZn (v cpsr : Word) (j : ℕ) :
    getBit (setZn v cpsr) j =
      if j = Flag.Z then (if v = 0 then 1 else 0)
      else if j = Flag.N then getBit v 31 else getBit cpsr j := by
  unfold setZn
  dsimp only
  rw [getBit_putBit _ _ (by decide), getBit_putBit _ _ (by decide), getBit_ite_ne_zero]

theorem getBit_borrowFrom (t : BitVec 64) (cpsr : Word) (j : ℕ) :
    getBit (borrowFrom t cpsr) j = if j = Flag.C then getBit t 31 else getBit cpsr j := by
  unfold borrowFrom
  rw [getBit_putBit _ _ (by decide), getBit_ite_ne_zero]

/-- The V flag of `a - b`: the operands' signs differ, and the result's is not that of `a`. -/
def subtractionOverflow (a b : Word) : Prop :=
  getBit a 31 ≠ getBit b 31 ∧ getBit (a - b) 31 ≠ getBit a 31

instance (a b : Word) : Decidable (subtractionOverflow a b) :=
  inferInstanceAs (Decidable (_ ∧ _))

theorem overflowFrom_sub {opcode : ℕ} (ho : opcode = Op.SUB ∨ opcode = Op.CMP) (a b cpsr : Word) :
    overflowFrom a b opcode cpsr =
      if subtractionOverflow a b then setBit cpsr Flag.V else clrBit cpsr Flag.V := by
  -- The 64-bit sum starts from 0 for both, so its bit 31 is the word's.
  have hsign : getBit (0#64 + (a - b).setWidth 64) 31 = getBit (a - b) 31 := by
    rw [BitVec.zero_add, getBit_setWidth _ (by decide)]
  rcases ho with rfl | rfl <;>
    simp only [overflowFrom, subtractionOverflow]
  · rw [if_neg (show ¬(Op.SUB = Op.SBC ∨ Op.SUB = Op.RSC) by decide)]
    simp only [BitVec.ofNat_eq_ofNat, hsign]
    congr
  · rw [if_neg (show ¬(Op.CMP = Op.SBC ∨ Op.CMP = Op.RSC) by decide)]
    simp only [BitVec.ofNat_eq_ofNat, hsign]
    congr

/-- The CPSR after the flag update of `SUBS` and of `CMP`.  The C flag is the sign of
the result. -/
theorem getBit_updateFlags_sub {op : Operation} {opcode : ℕ} {a b : Word}
    (hv : op.RdValue = (a - b).setWidth 64) (hcase : op.ZNCVupdatecase = 2)
    (ho : opcode = Op.SUB ∨ opcode = Op.CMP) (sc : ℕ) (cpsr : Word) (j : ℕ) :
    getBit (updateFlags op opcode a b sc cpsr) j =
      if j = Flag.V then (if subtractionOverflow a b then 1 else 0)
      else if j = Flag.C then getBit (a - b) 31
      else if j = Flag.Z then (if a - b = 0 then 1 else 0)
      else if j = Flag.N then getBit (a - b) 31
      else getBit cpsr j := by
  have hw : op.RdValue.setWidth 32 = a - b := by
    rw [hv, BitVec.setWidth_setWidth_of_le _ (by decide), BitVec.setWidth_eq]
  unfold updateFlags
  simp only [hcase]
  rw [overflowFrom_sub ho, getBit_putBit _ _ (by decide), getBit_borrowFrom, getBit_setZn, hw, hv,
    getBit_setWidth _ (by decide)]

theorem getBit_sign (x : Word) : getBit x 31 = if 2147483648 ≤ x.toNat then 1 else 0 := by
  have hx := x.isLt
  rw [getBit_eq_div]
  split <;> omega

theorem toInt_sign (x : Word) :
    x.toInt = if getBit x 31 = 0 then (x.toNat : ℤ) else (x.toNat : ℤ) - 4294967296 := by
  have hx := x.isLt
  rw [getBit_sign, BitVec.toInt_eq_toNat_cond]
  split <;> split <;> omega

/-- N and V agree after a subtraction exactly when it compares greater or equal. -/
theorem sign_eq_overflow_iff (a b : Word) :
    (getBit (a - b) 31 = if subtractionOverflow a b then 1 else 0) ↔ b.toInt ≤ a.toInt := by
  have ha := a.isLt
  have hb := b.isLt
  have hsub : (a - b).toNat = (4294967296 - b.toNat + a.toNat) % 4294967296 :=
    BitVec.toNat_sub a b
  unfold subtractionOverflow
  rw [toInt_sign, toInt_sign]
  simp only [getBit_sign]
  -- The two signs and the sign of the difference decide both sides.
  generalize (a - b).toNat = d at hsub ⊢
  by_cases hA : 2147483648 ≤ a.toNat <;> by_cases hB : 2147483648 ≤ b.toNat <;>
    by_cases hd : 2147483648 ≤ d <;> simp [hA, hB, hd] <;> omega

end ArmSim
