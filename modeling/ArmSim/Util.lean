import ArmSim.Lib.Ends
import Mathlib.Algebra.Group.Nat.Defs
import Mathlib.Data.Int.Notation
import Mathlib.Data.Nat.Notation

/-! The macros of `util.h`, the shifts of `util.c`, and what the build fixes. -/
namespace ArmSim

abbrev Word := BitVec 32
abbrev Half := BitVec 16
abbrev Byte := BitVec 8

/-- What the host and the compile-time symbols decide: the host's byte order, as
`is_big_endian` finds it, and whether `BIG_ENDIAN_SIMULATOR` is defined. -/
class Platform where
  isBigEndian : Bool
  bigEndianSimulator : Bool

/-- The symbols `Makefile.am` passes, on a little-endian host. -/
@[reducible] def makefile : Platform := ⟨false, true⟩

/-- The ways in which the simulator itself stops: it follows a `NULL` bank
pointer, or it leaves a register's cells, the memory array or a local buffer. -/
inductive Crash where
  | nullPointer
  | registerCell
  | memoryByte
  | localBuffer
deriving DecidableEq, Repr

def getBit {w : ℕ} (x : BitVec w) (i : ℕ) : ℕ := ((x >>> i) &&& 1#w).toNat

def setBit (x : Word) (i : ℕ) : Word := x ||| (1#32 <<< i)

def clrBit (x : Word) (i : ℕ) : Word := x &&& ~~~(1#32 <<< i)

def getBits (x : Word) (h l : ℕ) : ℕ :=
  ((x >>> l) &&& ~~~((BitVec.allOnes 32 >>> (h - l + 1)) <<< (h - l + 1))).toNat

-- `~0` is a signed `int` in the first mask, so its right shift keeps the sign.
def setBits (x : Word) (h l : ℕ) (bits : Word) : Word :=
  (x &&& ~~~(((BitVec.allOnes 32).sshiftRight l) <<< l)) |||
    (x &&& ((BitVec.allOnes 32 >>> (h + 1)) <<< (h + 1))) ||| (bits <<< l)

-- The sign is put back by hand, since shifting a signed value is not portable.
def asr (value : Word) (shift : ℕ) : Word :=
  (value >>> shift) ||| (if getBit value 31 ≠ 0 then BitVec.allOnes 32 <<< (32 - shift) else 0)

def ror (value : Word) (rotation : ℕ) : Word :=
  (value >>> rotation) ||| (value <<< (32 - rotation))

def switchEndian (x : Word) : Word :=
  x.extractLsb' 0 8 ++ x.extractLsb' 8 8 ++ x.extractLsb' 16 8 ++ x.extractLsb' 24 8

theorem getBit_eq {w : ℕ} (x : BitVec w) (i : ℕ) : getBit x i = (x.getLsbD i).toNat := by
  rw [getBit, BitVec.toNat_and, BitVec.toNat_ushiftRight, BitVec.getLsbD,
    Nat.testBit_eq_decide_div_mod_eq, Nat.shiftRight_eq_div_pow]
  cases w with
  | zero => simp [BitVec.eq_nil x]
  | succ w =>
    have h1 : (1#(w+1)).toNat = 1 := by simp
    rw [h1, Nat.and_one_is_mod]
    rcases Nat.mod_two_eq_zero_or_one (x.toNat / 2^i) with h | h <;> simp [h]

theorem getBit_lt_two {w : ℕ} (x : BitVec w) (i : ℕ) : getBit x i < 2 := by
  rw [getBit_eq]
  exact Bool.toNat_lt _

theorem getBit_zero_or_one {w : ℕ} (x : BitVec w) (i : ℕ) : getBit x i = 0 ∨ getBit x i = 1 := by
  have h := getBit_lt_two x i
  omega

theorem getBit_eq_div {w : ℕ} (x : BitVec w) (i : ℕ) : getBit x i = x.toNat / 2^i % 2 := by
  rw [getBit_eq, BitVec.getLsbD, Nat.testBit_eq_decide_div_mod_eq]
  rcases Nat.mod_two_eq_zero_or_one (x.toNat / 2^i) with h | h <;> simp [h]

theorem eq_iff_getBit (x y : Word) : x = y ↔ ∀ j, getBit x j = getBit y j := by
  constructor
  · rintro rfl j
    rfl
  · intro h
    apply BitVec.eq_of_getLsbD_eq
    intro j _
    have hj := h j
    rw [getBit_eq, getBit_eq] at hj
    cases hx : x.getLsbD j <;> cases hy : y.getLsbD j <;> simp [hx, hy] at hj ⊢

/-- `get_bits` selects a field, whatever the field's place. -/
theorem getBits_eq (x : Word) (h l : ℕ) : getBits x h l = x.toNat / 2^l % 2^(h - l + 1) := by
  -- The complement of the shifted ones is the mask of the low `h - l + 1` bits.
  have hm : (x >>> l) &&& ~~~((BitVec.allOnes 32 >>> (h - l + 1)) <<< (h - l + 1)) =
      ((x >>> l).setWidth (h - l + 1)).setWidth 32 := by
    apply BitVec.eq_of_getLsbD_eq
    intro j hj
    generalize h - l + 1 = k
    simp only [BitVec.getLsbD_and, BitVec.getLsbD_not, BitVec.getLsbD_shiftLeft,
      BitVec.getLsbD_ushiftRight, BitVec.getLsbD_allOnes, BitVec.getLsbD_setWidth]
    have hjk : j < k ∨ k + (j - k) < 32 := by omega
    rcases hjk with hjk | hjk
    · simp [hj, hjk]
    · by_cases hk : j < k <;> simp [hj, hjk, hk]
  have hx := x.isLt
  rw [getBits, hm]
  simp only [BitVec.toNat_setWidth, BitVec.toNat_ushiftRight, Nat.shiftRight_eq_div_pow]
  apply Nat.mod_eq_of_lt
  exact Nat.lt_of_le_of_lt (Nat.le_trans (Nat.mod_le _ _) (Nat.div_le_self _ _)) hx

theorem getBits_lt (x : Word) (h l : ℕ) : getBits x h l < 2^(h - l + 1) := by
  rw [getBits_eq]
  exact Nat.mod_lt _ (Nat.two_pow_pos _)

/-- A four-bit field names one of the sixteen registers. -/
theorem getBits_lt_sixteen (x : Word) {h l : ℕ} (hl : h - l = 3) : getBits x h l < 16 := by
  have hlt := getBits_lt x h l
  rwa [hl] at hlt

theorem getLsbD_setBit (x : Word) (i j : ℕ) :
    (setBit x i).getLsbD j = (x.getLsbD j || (decide (j < 32) && decide (j = i))) := by
  simp [setBit]
  grind

theorem getLsbD_clrBit (x : Word) (i j : ℕ) :
    (clrBit x i).getLsbD j = (x.getLsbD j && !decide (j = i)) := by
  simp [clrBit]
  grind

theorem getBit_setBit_self (x : Word) (i : ℕ) (hi : i < 32) : getBit (setBit x i) i = 1 := by
  simp [getBit_eq, getLsbD_setBit, hi]

theorem getBit_clrBit_self (x : Word) (i : ℕ) : getBit (clrBit x i) i = 0 := by
  simp [getBit_eq, getLsbD_clrBit]

theorem getBit_setBit_of_ne (x : Word) {i j : ℕ} (h : j ≠ i) :
    getBit (setBit x i) j = getBit x j := by
  simp [getBit_eq, getLsbD_setBit, h]

theorem getBit_clrBit_of_ne (x : Word) {i j : ℕ} (h : j ≠ i) :
    getBit (clrBit x i) j = getBit x j := by
  simp [getBit_eq, getLsbD_clrBit, h]

theorem clrBit_eq_self {x : Word} {i : ℕ} (h : getBit x i = 0) : clrBit x i = x := by
  have hbit : x.getLsbD i = false := by
    rw [getBit_eq] at h
    simpa using h
  apply BitVec.eq_of_getLsbD_eq
  intro j _
  rw [getLsbD_clrBit]
  by_cases hj : j = i
  · rw [hj, hbit]
    rfl
  · simp [hj]

theorem getLsbD_setBits (x bits : Word) (h l j : ℕ) (hj : j < 32) :
    (setBits x h l bits).getLsbD j =
      ((decide (j < l) || decide (h < j)) && x.getLsbD j ||
        (decide (l ≤ j) && bits.getLsbD (j - l))) := by
  -- The signed shift of all ones is all ones, so the first mask clears nothing it should keep.
  have hs : (BitVec.allOnes 32).sshiftRight l = BitVec.allOnes 32 := by
    apply BitVec.eq_of_getLsbD_eq
    intro i hi
    rw [BitVec.getLsbD_sshiftRight, BitVec.msb_allOnes (by decide), BitVec.getLsbD_allOnes,
      BitVec.getLsbD_allOnes]
    split
    · simp [hi]
      omega
    · simp [hi]
  simp [setBits, hs, hj, -BitVec.reduceAllOnes]
  grind

/-- A signed value put into ones or zeros, as its sign bit tells, is extended by its sign. -/
theorem setBits_sign {w : ℕ} (hw : 0 < w) (hw' : w ≤ 32) (v : BitVec w) :
    setBits (if getBit v (w - 1) ≠ 0 then BitVec.allOnes 32 else 0) (w - 1) 0 (v.setWidth 32) =
      v.signExtend 32 := by
  have hmask (i : ℕ) (hi : i < 32) :
      (if getBit v (w - 1) ≠ 0 then BitVec.allOnes 32 else 0).getLsbD i = v.msb := by
    rw [getBit_eq, BitVec.msb_eq_getLsbD_last]
    cases v.getLsbD (w - 1) with
    | false => simp
    | true => simp [hi, -BitVec.reduceAllOnes]
  apply BitVec.eq_of_getLsbD_eq
  intro i hi
  rw [getLsbD_setBits _ _ _ _ _ hi, BitVec.getLsbD_signExtend, hmask i hi]
  by_cases hiw : i < w
  · have hkeep : ¬w - 1 < i := by omega
    simp [hi, hiw, hkeep]
  · have hkeep : w - 1 < i := by omega
    have hzero : v.getLsbD i = false := BitVec.getLsbD_of_ge v i (Nat.le_of_not_lt hiw)
    simp [hi, hiw, hkeep, hzero]

theorem switchEndian_switchEndian (x : Word) : switchEndian (switchEndian x) = x := by
  apply BitVec.eq_of_getLsbD_eq
  intro i hi
  -- Bit `i` lies in one of the four bytes, which two exchanges bring back.
  have h : i < 8 ∨ (8 ≤ i ∧ i < 16) ∨ (16 ≤ i ∧ i < 24) ∨ 24 ≤ i := by omega
  unfold switchEndian
  simp only [BitVec.getLsbD_append, BitVec.getLsbD_extractLsb']
  rcases h with h | h | h | h <;> simp <;> grind

end ArmSim
