import ArmSim.Core

/-! `arm_data_processing.c`: the barrel shifter, the sixteen operators and the flags. -/
namespace ArmSim
open Lib

-- ARM data processing operators.
namespace Op
@[match_pattern] abbrev AND : ℕ := 0b0000
@[match_pattern] abbrev EOR : ℕ := 0b0001
@[match_pattern] abbrev SUB : ℕ := 0b0010
@[match_pattern] abbrev RSB : ℕ := 0b0011
@[match_pattern] abbrev ADD : ℕ := 0b0100
@[match_pattern] abbrev ADC : ℕ := 0b0101
@[match_pattern] abbrev SBC : ℕ := 0b0110
@[match_pattern] abbrev RSC : ℕ := 0b0111
@[match_pattern] abbrev TST : ℕ := 0b1000
@[match_pattern] abbrev TEQ : ℕ := 0b1001
@[match_pattern] abbrev CMP : ℕ := 0b1010
@[match_pattern] abbrev CMN : ℕ := 0b1011
@[match_pattern] abbrev ORR : ℕ := 0b1100
@[match_pattern] abbrev MOV : ℕ := 0b1101
@[match_pattern] abbrev BIC : ℕ := 0b1110
@[match_pattern] abbrev MVN : ℕ := 0b1111
end Op

def setZn (rdValue cpsr : Word) : Word :=
  let cpsr := if getBit rdValue Flag.N ≠ 0 then setBit cpsr Flag.N else clrBit cpsr Flag.N
  if rdValue = 0 then setBit cpsr Flag.Z else clrBit cpsr Flag.Z

-- The result has been cut to 32 bits before, so the flag is always cleared.
def carryFrom (trueResult : BitVec 64) (cpsr : Word) : Word :=
  if 0x100000000 ≤ trueResult.toNat then setBit cpsr Flag.C else clrBit cpsr Flag.C

/-- `!get_bit(cpsr, C)`. -/
def notCarry (cpsr : Word) : ℕ := if getBit cpsr Flag.C = 0 then 1 else 0

theorem notCarry_eq (cpsr : Word) : notCarry cpsr = 1 - getBit cpsr Flag.C := by
  unfold notCarry
  rcases getBit_zero_or_one cpsr Flag.C with h | h <;> rw [h] <;> rfl

theorem notCarry_le_one (cpsr : Word) : notCarry cpsr ≤ 1 := by
  rw [notCarry_eq]
  exact Nat.sub_le 1 _

-- `RSB` has no case, so the V flag keeps its value there.
def overflowFrom (rnVal shifterOpVal : Word) (opcode : ℕ) (cpsr : Word) : Word :=
  let rnSign := getBit rnVal 31
  let shifterOpSign := getBit shifterOpVal 31
  match opcode with
  | Op.ADC | Op.ADD | Op.CMN =>
    let resultSign := getBit (rnVal + shifterOpVal) 31
    if rnSign = shifterOpSign ∧ resultSign ≠ rnSign then setBit cpsr Flag.V
    else clrBit cpsr Flag.V
  | Op.SBC | Op.RSC | Op.SUB | Op.CMP =>
    -- `SBC` and `RSC` fall through with `!C` in the 64-bit result.
    let trueResult : BitVec 64 :=
      if opcode = Op.SBC ∨ opcode = Op.RSC then BitVec.ofNat 64 (notCarry cpsr) else 0
    let trueResult := trueResult + (rnVal - shifterOpVal).setWidth 64
    let resultSign := getBit trueResult 31
    if rnSign ≠ shifterOpSign ∧ resultSign ≠ rnSign then setBit cpsr Flag.V
    else clrBit cpsr Flag.V
  | _ => cpsr

-- The sign of the result stands in for the borrow.
def borrowFrom (trueResult : BitVec 64) (cpsr : Word) : Word :=
  if getBit trueResult 31 ≠ 0 then setBit cpsr Flag.C else clrBit cpsr Flag.C

/-- What the operator switch of `apply_operator` sets.  Every result is computed
in 32 bits before it is widened. -/
structure Operation where
  RdValue : BitVec 64
  updateRd : Bool
  S : ℕ
  ZNCVupdatecase : ℕ

def selectOperator (opcode : ℕ) (RnValue shifterOperand cpsr : Word) (S : ℕ) :
    Option Operation :=
  let wide (x : Word) : BitVec 64 := x.setWidth 64
  let carry := BitVec.ofNat 32 (getBit cpsr Flag.C)
  let borrow := BitVec.ofNat 32 (notCarry cpsr)
  match opcode with
  | Op.AND => some ⟨wide (RnValue &&& shifterOperand), true, S, 1⟩
  | Op.EOR => some ⟨wide (RnValue ^^^ shifterOperand), true, S, 1⟩
  | Op.SUB => some ⟨wide (RnValue - shifterOperand), true, S, 2⟩
  | Op.RSB => some ⟨wide (shifterOperand - RnValue), true, S, 2⟩
  | Op.ADD => some ⟨wide (RnValue + shifterOperand), true, S, 0⟩
  | Op.ADC => some ⟨wide (RnValue + shifterOperand + carry), true, S, 0⟩
  | Op.SBC => some ⟨wide (RnValue - shifterOperand - borrow), true, S, 2⟩
  | Op.RSC => some ⟨wide (shifterOperand - RnValue - borrow), true, S, 2⟩
  | Op.TST => some ⟨wide (RnValue &&& shifterOperand), false, 1, 1⟩
  | Op.TEQ => some ⟨wide (RnValue ^^^ shifterOperand), false, 1, 1⟩
  | Op.CMP => some ⟨wide (RnValue - shifterOperand), false, 1, 2⟩
  | Op.CMN => some ⟨wide (RnValue + shifterOperand), false, 1, 0⟩
  | Op.ORR => some ⟨wide (RnValue ||| shifterOperand), true, S, 1⟩
  | Op.MOV => some ⟨wide shifterOperand, true, S, 1⟩
  | Op.BIC => some ⟨wide (RnValue &&& ~~~shifterOperand), true, S, 1⟩
  | Op.MVN => some ⟨wide (~~~shifterOperand), true, S, 1⟩
  | _ => none

/-- The flag update at the end of `apply_operator`. -/
def updateFlags (op : Operation) (opcode : ℕ) (RnValue shifterOperand : Word)
    (shifterCarryOut : ℕ) (cpsr : Word) : Word :=
  let cpsr := setZn (op.RdValue.setWidth 32) cpsr
  match op.ZNCVupdatecase with
  | 0 => overflowFrom RnValue shifterOperand opcode (carryFrom op.RdValue cpsr)
  | 1 =>
    if getBit (BitVec.ofNat 8 shifterCarryOut) 0 ≠ 0 then setBit cpsr Flag.C
    else clrBit cpsr Flag.C
  | 2 => overflowFrom RnValue shifterOperand opcode (borrowFrom op.RdValue cpsr)
  | _ => cpsr

section handlers
variable [Platform]

def applyOperator (p : ArmCore) (ins shifterOperand : Word) (shifterCarryOut S : ℕ)
    (cpsr : Word) : Except Crash (ℤ × ArmCore) := do
  let opcode := getBits ins 24 21
  let Rd := getBits ins 15 12
  let Rn := getBits ins 19 16
  let RnValue ← armReadRegister p Rn
  match selectOperator opcode RnValue shifterOperand cpsr S with
  | none => return (Exc.UNDEFINED_INSTRUCTION, p)
  | some op =>
    let cpsr ←
      (if op.updateRd ∧ op.S ≠ 0 ∧ Rd = 15 ∧ armCurrentModeHasSpsr p then armReadSpsr p
      else pure cpsr)
    let p ← (if op.updateRd then armWriteRegister p Rd (op.RdValue.setWidth 32) else pure p)
    -- A restored CPSR goes through the flag update like any other.
    if op.S ≠ 0 then
      return (0, armWriteCpsr p
        (updateFlags op opcode RnValue shifterOperand shifterCarryOut cpsr))
    else
      return (0, p)

def getShifterOperandImmediateShift (shiftImm shiftCode : ℕ) (RmValue shifterOperand : Word)
    (shiftCarryOut : ℕ) (cpsr : Word) : Word × ℕ :=
  match shiftCode with
  | Shift.LSL =>
    if shiftImm = 0 then (RmValue, getBit cpsr Flag.C)
    else (RmValue <<< shiftImm, getBit RmValue (32 - shiftImm))
  | Shift.LSR =>
    -- A shift by 32 is taken for none, and N for the carry.
    if shiftImm = 0 then (RmValue, getBit cpsr 31)
    else (RmValue >>> shiftImm, getBit RmValue (shiftImm - 1))
  | Shift.ASR =>
    if shiftImm = 0 then
      (if getBit RmValue 31 = 0 then 0 else 0xFFFFFFFF, getBit RmValue 31)
    else (asr RmValue shiftImm, getBit RmValue (shiftImm - 1))
  | Shift.ROR =>
    if shiftImm = 0 then ((cpsr <<< 31) ||| (RmValue >>> 1), getBit RmValue 0)
    else (ror RmValue shiftImm, getBit RmValue (shiftImm - 1))
  | _ => (shifterOperand, shiftCarryOut)

def getShifterOperandRegisterShift (shiftCode : ℕ) (RmValue RsValue shifterOperand : Word)
    (shiftCarryOut : ℕ) (cpsr : Word) : Word × ℕ :=
  let RsSignificantBits := getBits RsValue 7 0
  match shiftCode with
  | Shift.LSL =>
    if RsSignificantBits = 0 then (RmValue, getBit cpsr Flag.C)
    else if RsSignificantBits < 32 then
      (RmValue <<< RsSignificantBits, getBit RmValue (32 - RsSignificantBits))
    else if RsSignificantBits = 32 then (0, getBit RmValue 0)
    else (0, 0)
  | Shift.LSR =>
    if RsSignificantBits = 0 then (RmValue, getBit cpsr Flag.C)
    else if RsSignificantBits < 32 then
      (RmValue >>> RsSignificantBits, getBit RmValue (RsSignificantBits - 1))
    else if RsSignificantBits = 32 then (0, getBit RmValue 31)
    else (0, 0)
  | Shift.ASR =>
    if RsSignificantBits = 0 then (RmValue, getBit cpsr Flag.C)
    else if RsSignificantBits < 32 then
      (asr RmValue RsSignificantBits, getBit RmValue (RsSignificantBits - 1))
    else (if getBit RmValue 31 = 0 then 0 else 0xFFFFFFFF, getBit RmValue 31)
  | Shift.ROR =>
    if RsSignificantBits = 0 then (RmValue, getBit cpsr Flag.C)
    else if getBits RsValue 4 0 = 0 then (RmValue, getBit RmValue 31)
    else (ror RmValue (getBits RsValue 4 0), getBit RmValue (getBits RsValue 4 0 - 1))
  | _ => (shifterOperand, shiftCarryOut)

def armDataProcessingImmediateShift (p : ArmCore) (ins cpsr : Word) :
    Except Crash (ℤ × ArmCore) := do
  let S := getBit ins 20
  let shiftImm := getBits ins 11 7
  let shiftCode := getBits ins 6 5
  let Rm := getBits ins 3 0
  let RmValue ← armReadRegister p Rm
  let (shifterOperand, shifterCarryOut) :=
    getShifterOperandImmediateShift shiftImm shiftCode RmValue 0 0 cpsr
  applyOperator p ins shifterOperand shifterCarryOut S cpsr

def armDataProcessingRegisterShift (p : ArmCore) (ins cpsr : Word) :
    Except Crash (ℤ × ArmCore) := do
  let S := getBit ins 20
  let shiftCode := getBits ins 6 5
  let Rm := getBits ins 3 0
  let RmValue ← armReadRegister p Rm
  let Rs := getBits ins 11 8
  let RsValue ← armReadRegister p Rs
  let (shifterOperand, shifterCarryOut) :=
    getShifterOperandRegisterShift shiftCode RmValue RsValue 0 0 cpsr
  applyOperator p ins shifterOperand shifterCarryOut S cpsr

def armDataProcessingImmediate (p : ArmCore) (ins cpsr : Word) :
    Except Crash (ℤ × ArmCore) := do
  let S := getBit ins 20
  let immed8 := BitVec.ofNat 32 (getBits ins 7 0)
  let rotateImm := getBits ins 11 8
  let shifterOperand := ror immed8 (rotateImm * 2)
  let shifterCarryOut :=
    if rotateImm = 0 then getBit cpsr Flag.C else getBit shifterOperand 31
  applyOperator p ins shifterOperand shifterCarryOut S cpsr

end handlers

end ArmSim
