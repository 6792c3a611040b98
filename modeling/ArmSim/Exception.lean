import ArmSim.Core

/-! `arm_exception.c`: exception entry and the software interrupts the simulator
serves itself. -/
namespace ArmSim
open Lib
variable [Platform]

abbrev IRQ_vector_ADR : ℕ := 0x18

/-- The loop of `print_string`, with room for so many more bytes in `c`. -/
def printStringLoop (p : ArmCore) : ℕ → Word → Byte → List Byte → Except Crash (List Byte)
  | 0, _, _, _ => throw .localBuffer
  | room + 1, address, value, c => do
    let (_, value) ← armReadByte p address value
    let c := c ++ [value]
    if value ≠ 0 then printStringLoop p room (address + 1) value c else return c

-- `%s` prints the bytes before the final NUL.
def printString (env : Env) (p : ArmCore) : Except Crash ArmCore := do
  let address ← armReadRegister p 0
  let c ← printStringLoop p 100 address env.value []
  return p.print (.str c.dropLast)

def armException (env : Env) (p : ArmCore) (exception : ℕ) : Except Crash (ℤ × ArmCore) := do
  let resetCpsr : Word := 0x153
  if exception = Exc.SOFTWARE_INTERRUPT then
    let address ← armReadRegister p 15
    let address := address - 8
    -- The word is read again, and a failed read leaves the local variable as it is.
    let (_, instruction) ← armReadWord p address env.instruction
    let instruction := instruction &&& 0xFFFFFF
    if instruction = 0x123456 then
      return (Exc.END_SIMULATION, p)
    else if instruction = 0x000001 then
      let value ← armReadRegister p 0
      return (0, p.print (.char (value.setWidth 8)))
    else if instruction = 0x000002 then
      let value ← armReadRegister p 0
      return (0, p.print (.int value))
    else if instruction = 0x000003 then
      return (0, ← printString env p)
    else if instruction = 0x000004 then
      return (0, ← armWriteRegister p 0 env.scanned)
    else
      return (exception, p.print (.unknownInterrupt instruction))
  else if exception = Exc.INTERRUPT then
    let cpsr := armReadCpsr p
    if getBit cpsr 7 = 0 then
      let spAdr ← armReadRegister p SP
      let R14irq ← armReadRegister p PC
      let SPSRirq := cpsr
      let cpsr := setBits cpsr 4 0 (BitVec.ofNat 32 Mode.IRQ)
      let cpsr := clrBit cpsr 5
      let cpsr := setBit cpsr 7
      -- From here on the writes go to the bank of the interrupt mode.
      let p := armWriteCpsr p cpsr
      let p ← armWriteSpsr p SPSRirq
      let p ← armWriteRegister p PC (BitVec.ofNat 32 (IRQ_vector_ADR - 4))
      let p ← armWriteRegister p LR R14irq
      let p ← armWriteRegister p SP spAdr
      return (Exc.INTERRUPT, p)
    else
      return (1, p)
  else if exception = Exc.RESET then
    let p := armWriteCpsr p resetCpsr
    let p ← armWriteRegister p 15 0
    return (exception, p)
  else
    -- Any other exception is passed through.
    return (exception, p)

end ArmSim
