import ArmSim.DataProcessing
import ArmSim.Lib.Shifter

/-! The barrel shifter of the data-processing instructions, compared with one that moves
a bit at a time: the encodings with amount zero, and the amounts past the width. -/
namespace ArmSim
open Lib

/-- The two bits of an instruction that select a kind of shift. -/
def shiftCodeOf : ShiftKind → ℕ
  | .logicalLeft => Shift.LSL
  | .logicalRight => Shift.LSR
  | .arithmeticRight => Shift.ASR
  | .rotateRight => Shift.ROR

def carryFlag (cpsr : Word) : Bool := cpsr.getLsbD Flag.C

/-- What an immediate amount stands for: zero is 32 for the right shifts, and the rotation
through the carry for the rotation. -/
def immediateShift (k : ShiftKind) (amount : ℕ) (x : Word) (carry : Bool) : Word × Bool :=
  match k with
  | .logicalLeft => k.shift amount x carry
  | .logicalRight | .arithmeticRight => k.shift (if amount = 0 then 32 else amount) x carry
  | .rotateRight => if amount = 0 then rotateExtended x carry else k.shift amount x carry

/-- The operand and the carry in the form the source stores them. -/
def operandAndCarry (s : Word × Bool) : Word × ℕ := (s.1, s.2.toNat)

theorem getBit_carryFlag (cpsr : Word) : getBit cpsr Flag.C = (carryFlag cpsr).toNat :=
  getBit_eq cpsr Flag.C

theorem asr_eq (x : Word) {n : ℕ} (hn : n < 32) : asr x n = x.sshiftRight n := by
  have hsign : getBit x 31 = x.msb.toNat := getBit_eq x 31
  apply BitVec.eq_of_getLsbD_eq
  intro i hi
  unfold asr
  rw [hsign, BitVec.getLsbD_or, BitVec.getLsbD_ushiftRight, BitVec.getLsbD_sshiftRight]
  -- The copies of the sign fill exactly the places that the logical shift clears.
  by_cases hin : n + i < 32
  · cases x.msb <;> simp [hin, hi, show i < 32 - n by omega, -BitVec.reduceAllOnes]
  · have hgone : x.getLsbD (n + i) = false := BitVec.getLsbD_of_ge x (n + i) (by omega)
    rw [hgone]
    cases x.msb <;> simp [hin, hi, show ¬i < 32 - n by omega, -BitVec.reduceAllOnes]

theorem ror_eq (x : Word) {n : ℕ} (hn : n < 32) : ror x n = x.rotateRight n := by
  apply BitVec.eq_of_getLsbD_eq
  intro i hi
  unfold ror
  rw [getLsbD_rotateRight_mod n x hi, BitVec.getLsbD_or, BitVec.getLsbD_ushiftRight,
    BitVec.getLsbD_shiftLeft]
  by_cases hin : n + i < 32
  · rw [Nat.mod_eq_of_lt (by omega), Nat.add_comm i n]
    simp [show i < 32 - n by omega]
  · have hplace : (i + n) % 32 = i - (32 - n) := by omega
    have hgone : x.getLsbD (n + i) = false := BitVec.getLsbD_of_ge x (n + i) (by omega)
    rw [hplace, hgone]
    simp [hi, show ¬i < 32 - n by omega]

section amounts
variable (x : Word) (carry : Bool)

/-! Amounts inside the width, which the source leaves to the host's shifts. -/

theorem logicalLeft_inside {n : ℕ} (h0 : 0 < n) (hn : n < 32) :
    operandAndCarry (ShiftKind.logicalLeft.shift n x carry) =
      (x <<< n, getBit x (32 - n)) := by
  obtain ⟨m, rfl⟩ : ∃ m, n = m + 1 := ⟨n - 1, by omega⟩
  have hplace : 32 - (m + 1) = 31 - m := by omega
  rw [logicalLeft_shift_succ, getBit_eq, hplace, operandAndCarry, BitVec.getMsbD]
  simp [show m < 32 by omega]

theorem logicalRight_inside {n : ℕ} (h0 : 0 < n) :
    operandAndCarry (ShiftKind.logicalRight.shift n x carry) =
      (x >>> n, getBit x (n - 1)) := by
  obtain ⟨m, rfl⟩ : ∃ m, n = m + 1 := ⟨n - 1, by omega⟩
  rw [logicalRight_shift_succ, getBit_eq]
  rfl

theorem arithmeticRight_inside {n : ℕ} (h0 : 0 < n) (hn : n < 32) :
    operandAndCarry (ShiftKind.arithmeticRight.shift n x carry) =
      (asr x n, getBit x (n - 1)) := by
  obtain ⟨m, rfl⟩ : ∃ m, n = m + 1 := ⟨n - 1, by omega⟩
  have hbit : (x.sshiftRight m).getLsbD 0 = x.getLsbD m := by
    rw [BitVec.getLsbD_sshiftRight]
    simp [show m < 32 by omega]
  rw [arithmeticRight_shift_succ, getBit_eq, hbit, asr_eq x hn]
  rfl

theorem rotateRight_inside {n : ℕ} (h0 : 0 < n) (hn : n < 32) :
    operandAndCarry (ShiftKind.rotateRight.shift n x carry) =
      (ror x n, getBit x (n - 1)) := by
  obtain ⟨m, rfl⟩ : ∃ m, n = m + 1 := ⟨n - 1, by omega⟩
  have hplace : m % 32 = m := Nat.mod_eq_of_lt (by omega)
  rw [rotateRight_shift_succ carry (by decide), getBit_eq, hplace, ror_eq x hn]
  rfl

/-! Amounts at the width and past it, which the source decides by cases. -/

theorem logicalLeft_width : operandAndCarry (ShiftKind.logicalLeft.shift 32 x carry) =
    (0, getBit x 0) := by
  rw [logicalLeft_shift_succ, getBit_eq, operandAndCarry, BitVec.getMsbD]
  simp

theorem logicalLeft_past {n : ℕ} (hn : 32 < n) :
    operandAndCarry (ShiftKind.logicalLeft.shift n x carry) = (0, 0) := by
  obtain ⟨m, rfl⟩ : ∃ m, n = m + 1 := ⟨n - 1, by omega⟩
  have hzero : x <<< (m + 1) = 0#32 := BitVec.shiftLeft_eq_zero (by omega)
  rw [logicalLeft_shift_succ, hzero, operandAndCarry, BitVec.getMsbD]
  simp [show ¬m < 32 by omega]

theorem logicalRight_width : operandAndCarry (ShiftKind.logicalRight.shift 32 x carry) =
    (0, getBit x 31) := by
  have hzero : x >>> 32 = 0#32 := BitVec.ushiftRight_eq_zero (Nat.le_refl 32)
  rw [logicalRight_inside x carry (by decide), hzero]
  rfl

theorem logicalRight_past {n : ℕ} (hn : 32 < n) :
    operandAndCarry (ShiftKind.logicalRight.shift n x carry) = (0, 0) := by
  have hzero : x >>> n = 0#32 := BitVec.ushiftRight_eq_zero (by omega)
  have hbit : getBit x (n - 1) = 0 := by
    rw [getBit_eq, BitVec.getLsbD_of_ge x (n - 1) (by omega)]
    rfl
  rw [logicalRight_inside x carry (by omega), hzero, hbit]
  rfl

theorem arithmeticRight_past {n : ℕ} (hn : 32 ≤ n) :
    operandAndCarry (ShiftKind.arithmeticRight.shift n x carry) =
      (if getBit x 31 = 0 then 0 else 0xFFFFFFFF, getBit x 31) := by
  obtain ⟨m, rfl⟩ : ∃ m, n = m + 1 := ⟨n - 1, by omega⟩
  have hsign : getBit x 31 = x.msb.toNat := getBit_eq x 31
  have hbit : (x.sshiftRight m).getLsbD 0 = x.msb := by
    rw [BitVec.getLsbD_sshiftRight]
    by_cases hm : m < 32
    · -- The amount is 32, so the last bit to leave is the sign itself.
      obtain rfl : m = 31 := by omega
      simp [BitVec.msb_eq_getLsbD_last]
    · simp [hm]
  rw [arithmeticRight_shift_succ, hbit, sshiftRight_past x hn, hsign]
  cases x.msb <;> rfl

theorem rotateRight_multiple {n : ℕ} (h0 : 0 < n) (hn : n % 32 = 0) :
    operandAndCarry (ShiftKind.rotateRight.shift n x carry) = (x, getBit x 31) := by
  obtain ⟨m, rfl⟩ : ∃ m, n = m + 1 := ⟨n - 1, by omega⟩
  have hplace : m % 32 = 31 := by omega
  have hsame : x.rotateRight (m + 1) = x := by
    rw [← BitVec.rotateRight_mod_eq_rotateRight, hn]
    simp [BitVec.rotateRight_def]
  rw [rotateRight_shift_succ carry (by decide), hplace, hsame, getBit_eq]
  rfl

theorem rotateRight_mod {n : ℕ} (hn : n % 32 ≠ 0) :
    operandAndCarry (ShiftKind.rotateRight.shift n x carry) =
      (ror x (n % 32), getBit x (n % 32 - 1)) := by
  obtain ⟨m, rfl⟩ : ∃ m, n = m + 1 := ⟨n - 1, by omega⟩
  have hplace : m % 32 = (m + 1) % 32 - 1 := by omega
  rw [rotateRight_shift_succ carry (by decide), hplace, getBit_eq,
    ror_eq x (Nat.mod_lt _ (by decide)), BitVec.rotateRight_mod_eq_rotateRight]
  rfl

theorem rotateExtended_eq : operandAndCarry (rotateExtended x carry) =
    ((BitVec.ofNat 32 carry.toNat <<< 31) ||| (x >>> 1), getBit x 0) := by
  apply Prod.ext
  · apply BitVec.eq_of_getLsbD_eq
    intro i hi
    change (rotateExtended x carry).1.getLsbD i = _
    rw [getLsbD_rotateExtended x carry hi, BitVec.getLsbD_or, BitVec.getLsbD_ushiftRight,
      BitVec.getLsbD_shiftLeft]
    by_cases htop : i + 1 < 32
    · simp [htop, show i < 31 by omega, Nat.add_comm]
    · obtain rfl : i = 31 := by omega
      cases carry <;> simp
  · change (rotateExtended x carry).2.toNat = _
    rw [rotateExtended_snd x carry (by decide), getBit_eq]

/-- A bit put above the upper bits of a word, and the two parts of the result. -/
theorem shiftedIn_eq_iff (a b x y : Word) :
    (a <<< 31) ||| (x >>> 1) = (b <<< 31) ||| (y >>> 1) ↔
      getBit a 0 = getBit b 0 ∧ x >>> 1 = y >>> 1 := by
  have hbit (a x : Word) {i : ℕ} (hi : i < 32) : ((a <<< 31) ||| (x >>> 1)).getLsbD i =
      if i = 31 then a.getLsbD 0 else x.getLsbD (1 + i) := by
    rw [BitVec.getLsbD_or, BitVec.getLsbD_ushiftRight, BitVec.getLsbD_shiftLeft]
    by_cases htop : i = 31
    · subst htop
      simp
    · simp [htop, show i < 31 by omega]
  rw [getBit_eq, getBit_eq]
  constructor
  · intro h
    have hpart {i : ℕ} (hi : i < 32) : (if i = 31 then a.getLsbD 0 else x.getLsbD (1 + i)) =
        if i = 31 then b.getLsbD 0 else y.getLsbD (1 + i) := by
      rw [← hbit a x hi, ← hbit b y hi, h]
    refine ⟨congrArg Bool.toNat (hpart (i := 31) (by decide)), ?_⟩
    apply BitVec.eq_of_getLsbD_eq
    intro i hi
    rw [BitVec.getLsbD_ushiftRight, BitVec.getLsbD_ushiftRight]
    by_cases htop : i = 31
    · -- The logical shift leaves the top place empty.
      rw [htop, BitVec.getLsbD_of_ge x 32 (Nat.le_refl 32),
        BitVec.getLsbD_of_ge y 32 (Nat.le_refl 32)]
    · have hlow := hpart hi
      rwa [if_neg htop, if_neg htop] at hlow
  · rintro ⟨htop, hlow⟩
    have hinj : ∀ u v : Bool, u.toNat = v.toNat → u = v := by decide
    rw [hlow]
    apply BitVec.eq_of_getLsbD_eq
    intro i hi
    rw [hbit a y hi, hbit b y hi, hinj _ _ htop]

end amounts

section immediate
variable (k : ShiftKind) {n : ℕ} (x o : Word) (sc : ℕ) (cpsr : Word)

/-- Where the source takes an immediate amount of zero for no shift, and the lowest bit of
the CPSR for the carry. -/
theorem shifter_operand_immediate_iff (hn : n < 32) :
    getShifterOperandImmediateShift n (shiftCodeOf k) x o sc cpsr =
        operandAndCarry (immediateShift k n x (carryFlag cpsr)) ↔
      (n = 0 → (k = .logicalRight → x = 0 ∧ getBit cpsr Flag.N = 0) ∧
        (k = .rotateRight → getBit cpsr 0 = getBit cpsr Flag.C)) := by
  by_cases h0 : n = 0
  · subst h0
    simp only [true_implies]
    cases k with
    | logicalLeft =>
      have hsame : getShifterOperandImmediateShift 0 (shiftCodeOf .logicalLeft) x o sc cpsr =
          operandAndCarry (immediateShift .logicalLeft 0 x (carryFlag cpsr)) :=
        congrArg (Prod.mk x) (getBit_carryFlag cpsr)
      simp [hsame]
    | logicalRight =>
      -- The source answers `Rm` and N where the encoding means 0 and the sign of `Rm`.
      change (x, getBit cpsr 31) = operandAndCarry (ShiftKind.logicalRight.shift 32 x _) ↔ _
      rw [logicalRight_width, Prod.mk.injEq]
      constructor
      · rintro ⟨rfl, hN⟩
        exact ⟨fun _ => ⟨rfl, hN⟩, fun h => nomatch h⟩
      · intro h
        obtain ⟨rfl, hN⟩ := h.1 rfl
        exact ⟨rfl, hN⟩
    | arithmeticRight =>
      have hsame : getShifterOperandImmediateShift 0 (shiftCodeOf .arithmeticRight) x o sc cpsr =
          operandAndCarry (immediateShift .arithmeticRight 0 x (carryFlag cpsr)) :=
        (arithmeticRight_past x _ (Nat.le_refl 32)).symm
      simp [hsame]
    | rotateRight =>
      change ((cpsr <<< 31) ||| (x >>> 1), getBit x 0) =
        operandAndCarry (rotateExtended x (carryFlag cpsr)) ↔ _
      rw [rotateExtended_eq, Prod.mk.injEq, shiftedIn_eq_iff, ← getBit_carryFlag]
      have hcarry : getBit (BitVec.ofNat 32 (getBit cpsr Flag.C)) 0 = getBit cpsr Flag.C := by
        rcases getBit_zero_or_one cpsr Flag.C with h | h <;> rw [h] <;> rfl
      simp [hcarry]
  · -- The amounts inside the width are right for all four kinds.
    have hpos : 0 < n := by omega
    have hsame : getShifterOperandImmediateShift n (shiftCodeOf k) x o sc cpsr =
        operandAndCarry (immediateShift k n x (carryFlag cpsr)) := by
      cases k with
      | logicalLeft =>
        exact (if_neg h0).trans (logicalLeft_inside x _ hpos hn).symm
      | logicalRight =>
        rw [immediateShift, if_neg h0, logicalRight_inside x _ hpos]
        exact if_neg h0
      | arithmeticRight =>
        rw [immediateShift, if_neg h0, arithmeticRight_inside x _ hpos hn]
        exact if_neg h0
      | rotateRight =>
        rw [immediateShift, if_neg h0, rotateRight_inside x _ hpos hn]
        exact if_neg h0
    simp [hsame, h0]

end immediate

/-- A rotation through the carry in user mode, with a clear C flag: the two bits agree. -/
theorem shifter_operand_immediate_extended :
    getShifterOperandImmediateShift 0 (shiftCodeOf .rotateRight) 5 0 0 0x10 =
      operandAndCarry (immediateShift .rotateRight 0 5 (carryFlag 0x10)) :=
  (shifter_operand_immediate_iff .rotateRight 5 0 0 0x10 (by decide)).mpr
    (fun _ => ⟨fun h => absurd h (by decide), fun _ => by decide⟩)

/-- `LSR #0` of 1 is not 0, and `ROR #0` of 2 in user mode with the C flag set is not
`0x80000001`. -/
theorem shifter_operand_immediate_zero :
    getShifterOperandImmediateShift 0 (shiftCodeOf .logicalRight) 1 0 0 0x10 ≠
        operandAndCarry (immediateShift .logicalRight 0 1 (carryFlag 0x10)) ∧
      getShifterOperandImmediateShift 0 (shiftCodeOf .rotateRight) 2 0 0 0x20000010 ≠
        operandAndCarry (immediateShift .rotateRight 0 2 (carryFlag 0x20000010)) := by
  constructor <;> decide

/-! The register shifts again, with every count looked at: a C shift of a word by 32 or
more has no defined result. -/
namespace Counted

def shl (x : Word) (n : ℕ) : Option Word := if n < 32 then some (x <<< n) else none

def shr (x : Word) (n : ℕ) : Option Word := if n < 32 then some (x >>> n) else none

def getBit (x : Word) (i : ℕ) : Option ℕ := do
  return ((← shr x i) &&& 1#32).toNat

def getBits (x : Word) (h l : ℕ) : Option ℕ := do
  let mask ← shl (← shr (BitVec.allOnes 32) (h - l + 1)) (h - l + 1)
  return ((← shr x l) &&& ~~~mask).toNat

def asr (value : Word) (shift : ℕ) : Option Word := do
  let sign ← getBit value 31
  let copies ← (if sign ≠ 0 then shl (BitVec.allOnes 32) (32 - shift) else some 0)
  return (← shr value shift) ||| copies

def ror (value : Word) (rotation : ℕ) : Option Word := do
  return (← shr value rotation) ||| (← shl value (32 - rotation))

def getShifterOperandRegisterShift (shiftCode : ℕ) (RmValue RsValue shifterOperand : Word)
    (shiftCarryOut : ℕ) (cpsr : Word) : Option (Word × ℕ) := do
  let RsSignificantBits ← getBits RsValue 7 0
  match shiftCode with
  | Shift.LSL =>
    if RsSignificantBits = 0 then return (RmValue, ← getBit cpsr Flag.C)
    else if RsSignificantBits < 32 then
      return (← shl RmValue RsSignificantBits, ← getBit RmValue (32 - RsSignificantBits))
    else if RsSignificantBits = 32 then return (0, ← getBit RmValue 0)
    else return (0, 0)
  | Shift.LSR =>
    if RsSignificantBits = 0 then return (RmValue, ← getBit cpsr Flag.C)
    else if RsSignificantBits < 32 then
      return (← shr RmValue RsSignificantBits, ← getBit RmValue (RsSignificantBits - 1))
    else if RsSignificantBits = 32 then return (0, ← getBit RmValue 31)
    else return (0, 0)
  | Shift.ASR =>
    if RsSignificantBits = 0 then return (RmValue, ← getBit cpsr Flag.C)
    else if RsSignificantBits < 32 then
      return (← asr RmValue RsSignificantBits, ← getBit RmValue (RsSignificantBits - 1))
    else return (if (← getBit RmValue 31) = 0 then 0 else 0xFFFFFFFF, ← getBit RmValue 31)
  | Shift.ROR =>
    if RsSignificantBits = 0 then return (RmValue, ← getBit cpsr Flag.C)
    else if (← getBits RsValue 4 0) = 0 then return (RmValue, ← getBit RmValue 31)
    else
      return (← ror RmValue (← getBits RsValue 4 0),
        ← getBit RmValue ((← getBits RsValue 4 0) - 1))
  | _ => return (shifterOperand, shiftCarryOut)

theorem shl_eq (x : Word) {n : ℕ} (hn : n < 32) : shl x n = some (x <<< n) := if_pos hn

theorem shr_eq (x : Word) {n : ℕ} (hn : n < 32) : shr x n = some (x >>> n) := if_pos hn

theorem getBit_some (x : Word) {i : ℕ} (hi : i < 32) : getBit x i = some (ArmSim.getBit x i) := by
  unfold getBit
  rw [shr_eq x hi]
  rfl

theorem getBits_some (x : Word) {h l : ℕ} (hl : l < 32) (hh : h - l + 1 < 32) :
    getBits x h l = some (ArmSim.getBits x h l) := by
  unfold getBits
  rw [shr_eq _ hh, shr_eq x hl]
  change (shl _ _ >>= _) = _
  rw [shl_eq _ hh]
  rfl

theorem asr_some (x : Word) {n : ℕ} (h0 : 0 < n) (hn : n < 32) :
    asr x n = some (ArmSim.asr x n) := by
  unfold asr ArmSim.asr
  rw [getBit_some x (by decide), shr_eq x hn, shl_eq _ (show 32 - n < 32 by omega)]
  by_cases hs : ArmSim.getBit x 31 = 0 <;> simp [hs]

theorem ror_some (x : Word) {n : ℕ} (h0 : 0 < n) (hn : n < 32) :
    ror x n = some (ArmSim.ror x n) := by
  unfold ror
  rw [shr_eq x hn, shl_eq x (show 32 - n < 32 by omega)]
  rfl

end Counted

section register
variable (k : ShiftKind) (x y o : Word) (sc : ℕ) (cpsr : Word)

theorem getShifterOperandRegisterShift_eq :
    getShifterOperandRegisterShift (shiftCodeOf k) x y o sc cpsr =
      operandAndCarry (k.shift (y.toNat % 256) x (carryFlag cpsr)) := by
  have hamount : getBits y 7 0 = y.toNat % 256 := by
    rw [getBits_eq, Nat.pow_zero, Nat.div_one]
    rfl
  have hrotation : getBits y 4 0 = y.toNat % 256 % 32 := by
    rw [getBits_eq, Nat.pow_zero, Nat.div_one]
    omega
  unfold getShifterOperandRegisterShift
  rw [hamount, hrotation]
  generalize y.toNat % 256 = n
  dsimp only
  by_cases h0 : n = 0
  · subst h0
    cases k <;> exact congrArg (Prod.mk x) (getBit_carryFlag cpsr)
  have hpos : 0 < n := by omega
  cases k with
  | logicalLeft =>
    rcases Nat.lt_trichotomy n 32 with hn | rfl | hn
    · rw [logicalLeft_inside x _ hpos hn]
      simp [shiftCodeOf, h0, hn]
    · exact (logicalLeft_width x _).symm
    · rw [logicalLeft_past x _ hn]
      simp [shiftCodeOf, h0, show ¬n < 32 by omega, show n ≠ 32 by omega]
  | logicalRight =>
    rcases Nat.lt_trichotomy n 32 with hn | rfl | hn
    · rw [logicalRight_inside x _ hpos]
      simp [shiftCodeOf, h0, hn]
    · exact (logicalRight_width x _).symm
    · rw [logicalRight_past x _ hn]
      simp [shiftCodeOf, h0, show ¬n < 32 by omega, show n ≠ 32 by omega]
  | arithmeticRight =>
    rcases Nat.lt_or_ge n 32 with hn | hn
    · rw [arithmeticRight_inside x _ hpos hn]
      simp [shiftCodeOf, h0, hn]
    · rw [arithmeticRight_past x _ hn]
      simp [shiftCodeOf, h0, show ¬n < 32 by omega]
  | rotateRight =>
    by_cases hmod : n % 32 = 0
    · rw [rotateRight_multiple x _ hpos hmod]
      simp [shiftCodeOf, h0, hmod]
    · rw [rotateRight_mod x _ hmod]
      simp [shiftCodeOf, h0, hmod]

/-- No count of a register shift reaches 32. -/
theorem counted_register_shift :
    Counted.getShifterOperandRegisterShift (shiftCodeOf k) x y o sc cpsr =
      some (getShifterOperandRegisterShift (shiftCodeOf k) x y o sc cpsr) := by
  unfold Counted.getShifterOperandRegisterShift getShifterOperandRegisterShift
  have hrotation : getBits y 4 0 < 32 := getBits_lt y 4 0
  have hamount := Counted.getBits_some y (h := 7) (l := 0) (by decide) (by decide)
  have hlow := Counted.getBits_some y (h := 4) (l := 0) (by decide) (by decide)
  have hcarry := Counted.getBit_some cpsr (i := Flag.C) (by decide)
  have hsign := Counted.getBit_some x (i := 31) (by decide)
  rw [hamount, hlow, hcarry, hsign, Counted.getBit_some x (show 0 < 32 by decide)]
  generalize getBits y 7 0 = n
  generalize getBits y 4 0 = m at hrotation
  -- Where an amount is used as a count, the tests before it have bounded it.
  by_cases h0 : n = 0
  · cases k <;> simp [shiftCodeOf, h0]
  cases k with
  | rotateRight =>
    by_cases hm : m = 0
    · simp [shiftCodeOf, h0, hm]
    · simp [shiftCodeOf, h0, hm, Counted.ror_some x (Nat.pos_of_ne_zero hm) hrotation,
        Counted.getBit_some x (show m - 1 < 32 by omega)]
  | _ =>
    by_cases hn : n < 32
    · simp [shiftCodeOf, h0, hn, Counted.shl_eq x hn, Counted.shr_eq x hn,
        Counted.asr_some x (Nat.pos_of_ne_zero h0) hn,
        Counted.getBit_some x (show n - 1 < 32 by omega),
        Counted.getBit_some x (show 32 - n < 32 by omega)]
    · by_cases h32 : n = 32 <;> simp [shiftCodeOf, h0, hn, h32]

/-- A register shift moves the word by as many single bits as the low byte of `Rs` says,
past the width too, and every shift the source makes for it is one by less than 32. -/
theorem shifter_operand_register :
    getShifterOperandRegisterShift (shiftCodeOf k) x y o sc cpsr =
        operandAndCarry (k.shift (y.toNat % 256) x (carryFlag cpsr)) ∧
      Counted.getShifterOperandRegisterShift (shiftCodeOf k) x y o sc cpsr =
        some (operandAndCarry (k.shift (y.toNat % 256) x (carryFlag cpsr))) := by
  have hshift := getShifterOperandRegisterShift_eq k x y o sc cpsr
  refine ⟨hshift, ?_⟩
  rw [counted_register_shift, hshift]

end register

end ArmSim
