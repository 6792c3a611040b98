import ArmSim.Architecture
import ArmSim.DataResults

/-! What a program may rely on in the simulator: the flags that it leaves as the architecture
has them, and the instructions that it executes so when they read no other flag. -/
namespace ArmSim
open Lib
namespace Arch

def StatusFlag.position : StatusFlag → ℕ
  | n => Flag.N
  | z => Flag.Z
  | c => Flag.C
  | v => Flag.V

/-- A set of flags, on which the simulator is known to be right. -/
abbrev Known := StatusFlag → Bool

/-- The flags that a condition looks at. -/
def conditionReads (c : ℕ) : List StatusFlag :=
  match c with
  | 0x0 | 0x1 => [.z]
  | 0x2 | 0x3 => [.c]
  | 0x4 | 0x5 => [.n]
  | 0x6 | 0x7 => [.v]
  | 0x8 | 0x9 => [.c, .z]
  | 0xA | 0xB => [.n, .v]
  | 0xC | 0xD => [.z, .n, .v]
  | _ => []

def Operator.readsCarry (op : Operator) : Bool := op = adc ∨ op = sbc ∨ op = rsc

def Operator.isBitwise (op : Operator) : Bool := isLogical op.code

/-- The operators whose V flag does not miss a carry. -/
def Operator.overflowsRight (op : Operator) : Bool := op = add ∨ op = cmn ∨ op = sub ∨ op = cmp

/-- The amounts of zero that the simulator does not take for 32, and the rotation through the
carry, for which it takes another bit. -/
def ShifterOperand.misread : ShifterOperand → Bool
  | shifted kind amount _ => amount = 0 ∧ (kind = .logicalRight ∨ kind = .rotateRight)
  | _ => false

/-- A rotation through the carry is made of the register's number. -/
def Offset.misread : Offset → Bool
  | shifted kind amount _ => amount = 0 ∧ kind = .rotateRight
  | _ => false

def Instruction.supported (K : Known) : Instruction → Bool
  | data op _ _ _ operand => !operand.misread && (!op.readsCarry || K .c)
  | transfer _ _ _ _ _ offset => !offset.misread
  | _ => true

/-- The known flags after an operator: N and Z always, C and V after a bitwise one as they were
before or as the shifter leaves them, and V after some of the arithmetic ones. -/
def Operator.settles (op : Operator) (carryKnown : Bool) (K : Known) : Known
  | .n | .z => true
  | .c => op.isBitwise && carryKnown
  | .v => if op.isBitwise then K .v else op.overflowsRight

/-- The known flags after a multiplication: C is lost in any case, Z without the S bit, and N
with it. -/
def multiplySettles (s : Bool) (K : Known) : Known
  | .n => !s && K .n
  | .z => s
  | .c => false
  | .v => K .v

/-- The known flags after an instruction. -/
def Instruction.settles (A : Machine) (K : Known) : Instruction → Known
  | data op s _ _ operand => if s then op.settles (!operand.keepsCarry A || K .c) K else K
  | multiply s _ _ _ => multiplySettles s K
  | _ => K

section
variable [Platform] (K : Known) (A : Machine)

/-- The word at r15 reads known flags only, and is none that the simulator takes for another.
`LS` holds in the simulator with C and Z both set only. -/
structure Supported : Prop where
  condition : ∀ f ∈ conditionReads (getBits A.instruction 31 28), K f = true
  lowerOrSame : getBits A.instruction 31 28 = Cond.LS → A.flags .c = true
  body : holds A.flags A.instruction = true →
    ∀ i, decode A.instruction = some i → i.supported K = true

/-- The known flags after the word at r15. -/
def knownAfter : Known :=
  if holds A.flags A.instruction then
    match decode A.instruction with
    | some i => i.settles A K
    | none => K
  else K

/-- A step of the architecture with a supported instruction, and what is known of the flags. -/
def SupportedStep (input : Word) (s t : Machine × Known) : Prop :=
  Supported s.2 s.1 ∧ step s.1 input = some t.1 ∧ t.2 = knownAfter s.2 s.1

end

end Arch
end ArmSim
