import Mathlib.Data.BitVec
import Mathlib.Logic.Function.Iterate

/-! A shifter that moves a word one bit at a time and keeps the bit that leaves it.
Every amount, also one past the width, means as many single moves. -/
namespace ArmSim.Lib

inductive ShiftKind where
  | logicalLeft
  | logicalRight
  | arithmeticRight
  | rotateRight
deriving DecidableEq, Repr

variable {w : ℕ}

/-- One move: the word moved by one bit, and the bit that has left it. -/
def ShiftKind.step (k : ShiftKind) (s : BitVec w × Bool) : BitVec w × Bool :=
  match k with
  | .logicalLeft => (s.1 <<< 1, s.1.msb)
  | .logicalRight => (s.1 >>> 1, s.1.getLsbD 0)
  | .arithmeticRight => (s.1.sshiftRight 1, s.1.getLsbD 0)
  | .rotateRight => (s.1.rotateRight 1, s.1.getLsbD 0)

/-- `n` moves from a word and a carry.  No move leaves the carry as it is. -/
def ShiftKind.shift (k : ShiftKind) (n : ℕ) (x : BitVec w) (carry : Bool) : BitVec w × Bool :=
  k.step^[n] (x, carry)

/-- The carry and the word, rotated together by one bit. -/
def rotateExtended (x : BitVec w) (carry : Bool) : BitVec w × Bool :=
  let y := (BitVec.cons carry x).rotateRight 1
  (y.setWidth w, y.msb)

variable (k : ShiftKind) (n : ℕ) (x : BitVec w) (carry : Bool)

theorem ShiftKind.shift_zero : k.shift 0 x carry = (x, carry) := rfl

theorem ShiftKind.shift_succ : k.shift (n + 1) x carry = k.step (k.shift n x carry) :=
  Function.iterate_succ_apply' k.step n (x, carry)

/-- Bit `i` of a rotated word, with the place it comes from taken modulo the width. -/
theorem getLsbD_rotateRight_mod {i : ℕ} (hi : i < w) :
    (x.rotateRight n).getLsbD i = x.getLsbD ((i + n) % w) := by
  have hn : n % w < w := Nat.mod_lt n (by omega)
  rw [BitVec.getLsbD_rotateRight]
  by_cases hlow : i < w - n % w
  · -- The bit does not come around the end.
    have hplace : (i + n) % w = n % w + i := by
      rw [Nat.add_mod, Nat.mod_eq_of_lt hi, Nat.add_comm, Nat.mod_eq_of_lt (by omega)]
    rw [hplace]
    simp [hlow]
  · have hplace : (i + n) % w = i - (w - n % w) := by
      rw [Nat.add_mod, Nat.mod_eq_of_lt hi, Nat.mod_eq_sub_mod (by omega),
        Nat.mod_eq_of_lt (by omega)]
      omega
    rw [hplace]
    simp [hlow, hi]

theorem rotateRight_succ : (x.rotateRight n).rotateRight 1 = x.rotateRight (n + 1) := by
  apply BitVec.eq_of_getLsbD_eq
  intro i hi
  have hplace : (i + 1) % w < w := Nat.mod_lt _ (by omega)
  rw [getLsbD_rotateRight_mod 1 _ hi, getLsbD_rotateRight_mod n x hplace,
    getLsbD_rotateRight_mod (n + 1) x hi, Nat.mod_add_mod, Nat.add_right_comm, Nat.add_assoc]

section closed
variable {k n x}

theorem ShiftKind.shift_fst : (k.shift n x carry).1 =
    match k with
    | .logicalLeft => x <<< n
    | .logicalRight => x >>> n
    | .arithmeticRight => x.sshiftRight n
    | .rotateRight => x.rotateRight n := by
  induction n with
  | zero =>
    rw [shift_zero]
    cases k with
    | rotateRight => simp [BitVec.rotateRight_def]
    | _ => simp
  | succ n ih =>
    rw [shift_succ]
    cases k with
    | logicalLeft =>
      calc (ShiftKind.logicalLeft.shift n x carry).1 <<< 1 = x <<< n <<< 1 := by rw [ih]
        _ = x <<< (n + 1) := (BitVec.shiftLeft_add x n 1).symm
    | logicalRight =>
      calc (ShiftKind.logicalRight.shift n x carry).1 >>> 1 = x >>> n >>> 1 := by rw [ih]
        _ = x >>> (n + 1) := (BitVec.shiftRight_add x n 1).symm
    | arithmeticRight =>
      calc (ShiftKind.arithmeticRight.shift n x carry).1.sshiftRight 1
          = (x.sshiftRight n).sshiftRight 1 := by rw [ih]
        _ = x.sshiftRight (n + 1) := BitVec.sshiftRight_add.symm
    | rotateRight =>
      calc (ShiftKind.rotateRight.shift n x carry).1.rotateRight 1
          = (x.rotateRight n).rotateRight 1 := by rw [ih]
        _ = x.rotateRight (n + 1) := rotateRight_succ n x

/-- The last bit that leaves a word on the left is its `n`-th from the top. -/
theorem logicalLeft_shift_succ :
    ShiftKind.logicalLeft.shift (n + 1) x carry = (x <<< (n + 1), x.getMsbD n) := by
  apply Prod.ext
  · exact ShiftKind.shift_fst carry
  · have hleft : (ShiftKind.logicalLeft.shift n x carry).1 = x <<< n := ShiftKind.shift_fst carry
    rw [ShiftKind.shift_succ]
    change (ShiftKind.logicalLeft.shift n x carry).1.msb = _
    rw [hleft, BitVec.msb_shiftLeft]

theorem logicalRight_shift_succ :
    ShiftKind.logicalRight.shift (n + 1) x carry = (x >>> (n + 1), x.getLsbD n) := by
  apply Prod.ext
  · exact ShiftKind.shift_fst carry
  · have hright : (ShiftKind.logicalRight.shift n x carry).1 = x >>> n :=
      ShiftKind.shift_fst carry
    rw [ShiftKind.shift_succ]
    change (ShiftKind.logicalRight.shift n x carry).1.getLsbD 0 = _
    rw [hright, BitVec.getLsbD_ushiftRight, Nat.add_zero]

theorem arithmeticRight_shift_succ : ShiftKind.arithmeticRight.shift (n + 1) x carry =
    (x.sshiftRight (n + 1), (x.sshiftRight n).getLsbD 0) := by
  apply Prod.ext
  · exact ShiftKind.shift_fst carry
  · have hright : (ShiftKind.arithmeticRight.shift n x carry).1 = x.sshiftRight n :=
      ShiftKind.shift_fst carry
    rw [ShiftKind.shift_succ]
    change (ShiftKind.arithmeticRight.shift n x carry).1.getLsbD 0 = _
    rw [hright]

/-- The last bit that a rotation moves becomes the top bit, and comes from `n` modulo
the width. -/
theorem rotateRight_shift_succ (hw : 0 < w) : ShiftKind.rotateRight.shift (n + 1) x carry =
    (x.rotateRight (n + 1), x.getLsbD (n % w)) := by
  apply Prod.ext
  · exact ShiftKind.shift_fst carry
  · have hright : (ShiftKind.rotateRight.shift n x carry).1 = x.rotateRight n :=
      ShiftKind.shift_fst carry
    rw [ShiftKind.shift_succ]
    change (ShiftKind.rotateRight.shift n x carry).1.getLsbD 0 = _
    rw [hright, getLsbD_rotateRight_mod n x hw, Nat.zero_add]

end closed

/-- The word that is left does not depend on the carry before the moves. -/
theorem ShiftKind.shift_fst_congr (carry' : Bool) :
    (k.shift n x carry).1 = (k.shift n x carry').1 := by
  rw [shift_fst, shift_fst]

/-- Nor does the carry after the last move, if there is one. -/
theorem ShiftKind.shift_congr (carry' : Bool) (hn : n ≠ 0) :
    k.shift n x carry = k.shift n x carry' := by
  obtain ⟨m, rfl⟩ := Nat.exists_eq_succ_of_ne_zero hn
  have hbefore := ShiftKind.shift_fst_congr k m x carry carry'
  rw [shift_succ, shift_succ]
  unfold ShiftKind.step
  rw [hbefore]

/-- Past its width, a word has been replaced by copies of its sign. -/
theorem sshiftRight_past {n : ℕ} (hn : w ≤ n) :
    x.sshiftRight n = if x.msb then BitVec.allOnes w else 0#w := by
  apply BitVec.eq_of_getLsbD_eq
  intro i hi
  rw [BitVec.getLsbD_sshiftRight]
  cases x.msb <;> simp [hi, show ¬n + i < w by omega]

/-- Bit `i` of the extended rotation: the next higher one, or the carry at the top. -/
theorem getLsbD_rotateExtended {i : ℕ} (hi : i < w) :
    (rotateExtended x carry).1.getLsbD i = if i + 1 < w then x.getLsbD (i + 1) else carry := by
  have hplace : (i + 1) % (w + 1) = i + 1 := Nat.mod_eq_of_lt (by omega)
  unfold rotateExtended
  rw [BitVec.getLsbD_setWidth, getLsbD_rotateRight_mod 1 _ (by omega), hplace,
    BitVec.getLsbD_cons]
  by_cases htop : i + 1 < w
  · simp [hi, htop, show i + 1 ≠ w by omega]
  · simp [hi, show i + 1 = w by omega]

/-- The bit that leaves in an extended rotation. -/
theorem rotateExtended_snd (hw : 0 < w) : (rotateExtended x carry).2 = x.getLsbD 0 := by
  unfold rotateExtended
  dsimp only
  rw [BitVec.msb_eq_getLsbD_last, getLsbD_rotateRight_mod 1 _ (by omega),
    show (w + 1 - 1 + 1) % (w + 1) = 0 by simp, BitVec.getLsbD_cons]
  simp [show 0 ≠ w by omega]

end ArmSim.Lib
