import ArmSim.BranchOther
import ArmSim.DataProcessing
import ArmSim.Exception
import ArmSim.LoadStore

/-! `arm_instruction.c`: decoding, the condition field and the step. -/
namespace ArmSim
open Lib

-- ARM conditions.
namespace Cond
abbrev EQ : ℕ := 0x0
abbrev NE : ℕ := 0x1
abbrev CS : ℕ := 0x2
abbrev CC : ℕ := 0x3
abbrev MI : ℕ := 0x4
abbrev PL : ℕ := 0x5
abbrev VS : ℕ := 0x6
abbrev VC : ℕ := 0x7
abbrev HI : ℕ := 0x8
abbrev LS : ℕ := 0x9
abbrev GE : ℕ := 0xA
abbrev LT : ℕ := 0xB
abbrev GT : ℕ := 0xC
abbrev LE : ℕ := 0xD
abbrev AL : ℕ := 0xE
end Cond

/-- The condition test of `arm_execute_instruction`. -/
def flagCond (condInst : ℕ) (cpsr : Word) : Bool :=
  let cpsrZ := getBit cpsr Flag.Z
  let cpsrN := getBit cpsr Flag.N
  let cpsrC := getBit cpsr Flag.C
  let cpsrV := getBit cpsr Flag.V
  if condInst = Cond.EQ ∧ cpsrZ = 1 then true
  else if condInst = Cond.NE ∧ cpsrZ = 0 then true
  else if condInst = Cond.CS ∧ cpsrC = 1 then true
  else if condInst = Cond.CC ∧ cpsrC = 0 then true
  else if condInst = Cond.MI ∧ cpsrN = 1 then true
  else if condInst = Cond.PL ∧ cpsrN = 0 then true
  else if condInst = Cond.VS ∧ cpsrV = 1 then true
  else if condInst = Cond.VC ∧ cpsrV = 0 then true
  else if condInst = Cond.HI ∧ cpsrC = 1 ∧ cpsrZ = 0 then true
  else if condInst = Cond.LS ∧ cpsrC = 1 ∧ cpsrZ = 1 then true
  else if condInst = Cond.GE ∧ cpsrN = cpsrV then true
  else if condInst = Cond.LT ∧ cpsrN ≠ cpsrV then true
  else if condInst = Cond.GT ∧ cpsrZ = 0 ∧ cpsrN = cpsrV then true
  else if condInst = Cond.LE ∧ (cpsrZ = 1 ∨ cpsrN ≠ cpsrV) then true
  else if condInst = Cond.AL then true
  else false

variable [Platform]

def armFetchCodeInst (env : Env) (p : ArmCore) (inst cpsr : Word) :
    Except Crash (ℤ × ArmCore) := do
  let instcode := getBits inst 27 25
  let b4 := getBit inst 4
  let b7 := getBit inst 7
  let opcode2b := getBits inst 24 23
  let S := getBit inst 20
  let b5 := getBit inst 5
  let b6 := getBit inst 6
  let b24 := getBit inst 24
  match instcode with
  | 0x0 =>
    if b4 = 0 then
      if opcode2b = 2 ∧ S = 0 then
        armMiscellaneous p inst
      else
        armDataProcessingImmediateShift p inst cpsr
    else
      if b7 = 0 then
        if opcode2b = 2 ∧ S = 0 then
          armMiscellaneous2 p inst
        else
          armDataProcessingRegisterShift p inst cpsr
      else
        if b5 = 0 ∧ b6 = 0 then
          armMultiply p inst cpsr
        else
          armLoadStoreMiscellaneous p inst
  | 0x1 =>
    if opcode2b = 2 ∧ S = 0 then
      -- Reserved, or a move of an immediate to a status register: no handler.
      return (Exc.UNDEFINED_INSTRUCTION, p)
    else
      armDataProcessingImmediate p inst cpsr
  | 0x2 => armLoadStoreImmediateOffset p inst
  | 0x3 =>
    if b4 = 0 then
      armLoadStoreRegisterOffset p inst
    else
      -- Architecturally undefined, or a media instruction: no handler.
      return (Exc.UNDEFINED_INSTRUCTION, p)
  | 0x4 => armLoadStoreMultiple env p inst
  | 0x5 => armBranch p inst
  | 0x6 => armCoprocessorLoadStore p inst
  | 0x7 =>
    if b24 = 0 then
      -- Coprocessor data processing and register transfers: no handler.
      return (Exc.UNDEFINED_INSTRUCTION, p)
    else
      armCoprocessorOthersSwi p inst
  | _ => return (Exc.UNDEFINED_INSTRUCTION, p)

-- `inst` is uninitialised before the fetch, and used only when the fetch succeeds.
def armExecuteInstruction (env : Env) (p : ArmCore) : Except Crash (ℤ × ArmCore) := do
  let (result, inst, p) ← armFetch p 0
  if result = 0 then
    let condInst := getBits inst 31 28
    let cpsr := armReadCpsr p
    if flagCond condInst cpsr then
      armFetchCodeInst env p inst cpsr
    else
      return (0, p)
  else
    -- A failed fetch: the code is the one of a reset.
    return (1, p)

/-- An `int` passed as a `uint8_t`. -/
def toUint8 (result : ℤ) : ℕ := (result % 256).toNat

def armStep (env : Env) (p : ArmCore) : Except Crash (ℤ × ArmCore) := do
  let (result, p) ← armExecuteInstruction env p
  if result ≠ 0 then
    armException env p (toUint8 result)
  else
    return (result, p)

end ArmSim
