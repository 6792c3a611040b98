import ArmSim.Core

/-! `arm_branch_other.c`: branches, software interrupts, status register
accesses and multiplications. -/
namespace ArmSim
open Lib
variable [Platform]

def armBranch (p : ArmCore) (ins : Word) : Except Crash (ℤ × ArmCore) := do
  let PCvalue ← armReadRegister p PC
  let p ← (if getBit ins 24 ≠ 0 then armWriteRegister p LR (PCvalue - 4) else pure p)
  let bits23_0 := BitVec.ofNat 32 (getBits ins 23 0)
  let extended := if getBit bits23_0 23 ≠ 0 then bits23_0 ||| 0xFF000000 else bits23_0
  let extended := extended <<< 2
  let p ← armWriteRegister p PC (PCvalue + extended)
  return (0, p)

def armCoprocessorOthersSwi (p : ArmCore) (ins : Word) : Except Crash (ℤ × ArmCore) :=
  if getBit ins 24 ≠ 0 then return (Exc.SOFTWARE_INTERRUPT, p)
  else return (Exc.UNDEFINED_INSTRUCTION, p)

def armMiscellaneous (p : ArmCore) (ins : Word) : Except Crash (ℤ × ArmCore) := do
  let p := p.print .bxReached
  let Rd := getBits ins 15 12
  if getBit ins 22 ≠ 0 then
    if armCurrentModeHasSpsr p = false then
      return (Exc.DATA_ABORT, p)
    let SPSRvalue ← armReadSpsr p
    return (0, ← armWriteRegister p Rd SPSRvalue)
  else
    let CPSRvalue := armReadCpsr p
    return (0, ← armWriteRegister p Rd CPSRvalue)

-- BX
def armMiscellaneous2 (p : ArmCore) (ins : Word) : Except Crash (ℤ × ArmCore) := do
  let Rm := getBits ins 3 0
  let RmV ← armReadRegister p Rm
  let PCV := RmV &&& 0xFFFFFFFE
  return (0, ← armWriteRegister p PC PCV)

-- `S` is bit 4 of the word, which is set in every multiplication.
def armMultiply (p : ArmCore) (ins cpsr : Word) : Except Crash (ℤ × ArmCore) := do
  let Rd := getBits ins 19 16
  let Rs := getBits ins 11 8
  let Rm := getBits ins 3 0
  let S := getBit ins 4
  let RsV ← armReadRegister p Rs
  let RmV ← armReadRegister p Rm
  let RdV := RsV * RmV
  let p ← armWriteRegister p Rd RdV
  if S = 1 then
    let cpsr := if getBit RdV 31 = 0 then clrBit cpsr Flag.C else setBit cpsr Flag.C
    let cpsr := if RdV = 0 then setBit cpsr Flag.Z else clrBit cpsr Flag.Z
    return (0, armWriteCpsr p cpsr)
  else
    return (0, p)

end ArmSim
