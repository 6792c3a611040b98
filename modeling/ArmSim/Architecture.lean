import ArmSim.BarrelShifter
import ArmSim.Conditions
import ArmSim.Lib.Simulation
import ArmSim.Miscellaneous
import ArmSim.Overflow

/-! The machine that the simulator is meant to be, as the architecture manual has it: the
sixteen registers and the four flags that a program sees in one mode, its memory and what it
has printed.  A result that the manual leaves open is none here, or one that it allows. -/
namespace ArmSim
open Lib
namespace Arch

abbrev Reg := Fin 16

/-- There is a register 0, so every number names one. -/
scoped instance sixteen_neZero : NeZero 16 := ⟨by decide⟩

inductive StatusFlag where
  | n
  | z
  | c
  | v
deriving DecidableEq, Repr

abbrev Flags := StatusFlag → Bool

/-- The machine between two instructions: r15 holds the address of the next one, and is aligned. -/
structure Machine where
  reg : Reg → Word
  aligned : (reg 15).toNat % 4 = 0
  flags : Flags
  mem : Memory
  output : List Printed

/-- What an instruction reads: r15 is its own address plus 8. -/
def Machine.value (A : Machine) (r : Reg) : Word := if r = 15 then A.reg 15 + 8 else A.reg r

theorem update_aligned {reg : Reg → Word} (h : (reg 15).toNat % 4 = 0) {r : Reg} {v : Word}
    (hv : r = 15 → v.toNat % 4 = 0) : (Function.update reg r v 15).toNat % 4 = 0 := by
  by_cases hr : r = 15
  · subst hr
    rw [Function.update_self]
    exact hv rfl
  · rw [Function.update_of_ne (fun h15 => hr h15.symm)]
    exact h

/-- A register written.  Only an aligned word goes to r15. -/
def Machine.write (A : Machine) (r : Reg) (v : Word) : Option Machine :=
  if hv : r = 15 → v.toNat % 4 = 0 then
    some { A with reg := Function.update A.reg r v, aligned := update_aligned A.aligned hv }
  else none

theorem Machine.write_frame {A B : Machine} {r : Reg} {v : Word} (h : A.write r v = some B) :
    B.flags = A.flags ∧ B.mem = A.mem ∧ B.output = A.output := by
  unfold Machine.write at h
  split at h
  · cases h
    exact ⟨rfl, rfl, rfl⟩
  · cases h

/-- The machine that goes on behind the instruction. -/
def Machine.next (A : Machine) : Machine :=
  { A with
    reg := Function.update A.reg 15 (A.reg 15 + 4)
    aligned := update_aligned A.aligned (fun _ => aligned_add_four A.aligned) }

def Machine.store (A : Machine) (mem : Memory) : Machine := { A with mem := mem }

def Machine.setFlags (A : Machine) (flags : Flags) : Machine := { A with flags := flags }

def Machine.print (A : Machine) (x : Printed) : Machine := { A with output := x :: A.output }

/-! Data processing. -/

inductive Operator where
  | and | eor | sub | rsb | add | adc | sbc | rsc
  | tst | teq | cmp | cmn | orr | mov | bic | mvn
deriving DecidableEq, Repr

/-- The operator's field in an instruction. -/
def Operator.code : Operator → ℕ
  | and => Op.AND | eor => Op.EOR | sub => Op.SUB | rsb => Op.RSB
  | add => Op.ADD | adc => Op.ADC | sbc => Op.SBC | rsc => Op.RSC
  | tst => Op.TST | teq => Op.TEQ | cmp => Op.CMP | cmn => Op.CMN
  | orr => Op.ORR | mov => Op.MOV | bic => Op.BIC | mvn => Op.MVN

def operatorOf (code : ℕ) : Operator :=
  match code with
  | Op.AND => .and | Op.EOR => .eor | Op.SUB => .sub | Op.RSB => .rsb
  | Op.ADD => .add | Op.ADC => .adc | Op.SBC => .sbc | Op.RSC => .rsc
  | Op.TST => .tst | Op.TEQ => .teq | Op.CMP => .cmp | Op.CMN => .cmn
  | Op.ORR => .orr | Op.MOV => .mov | Op.BIC => .bic | _ => .mvn

/-- The comparisons have no destination. -/
def Operator.compares (op : Operator) : Bool := op = tst ∨ op = teq ∨ op = cmp ∨ op = cmn

/-- What an operator computes: a bitwise result, or the sum or the difference of two words with
a carry, which a difference takes for the absence of a borrow. -/
inductive Computation where
  | bitwise (result : Word)
  | sum (a b : Word) (carry : Bool)
  | difference (a b : Word) (carry : Bool)

def Operator.compute (op : Operator) (a b : Word) (carry : Bool) : Computation :=
  match op with
  | and | tst => .bitwise (a &&& b)
  | eor | teq => .bitwise (a ^^^ b)
  | sub | cmp => .difference a b true
  | rsb => .difference b a true
  | add | cmn => .sum a b false
  | adc => .sum a b carry
  | sbc => .difference a b carry
  | rsc => .difference b a carry
  | orr => .bitwise (a ||| b)
  | mov => .bitwise b
  | bic => .bitwise (a &&& ~~~b)
  | mvn => .bitwise (~~~b)

/-- The value of an arithmetic computation on words that stand for the integers `read` makes of
them. -/
def Computation.exact (read : Word → ℤ) : Computation → ℤ
  | bitwise _ => 0
  | sum a b carry => read a + read b + carry.toNat
  | difference a b carry => read a - read b - (1 - carry.toNat)

def unsigned (x : Word) : ℤ := x.toNat

def Computation.result : Computation → Word
  | bitwise result => result
  | x => BitVec.ofInt 32 (x.exact unsigned)

instance (v : ℤ) : Decidable (OutsideSigned v) := inferInstanceAs (Decidable (_ ∨ _))

/-- The flags: a carry out of 32 bits or the absence of a borrow, and a signed value that 32 bits
do not hold.  A bitwise operation takes the shifter's carry and keeps V. -/
def Computation.flags (x : Computation) (shifterCarry : Bool) (flags : Flags) : Flags
  | .n => x.result.msb
  | .z => x.result = 0
  | .c =>
    match x with
    | bitwise _ => shifterCarry
    | sum _ _ _ => 2^32 ≤ x.exact unsigned
    | difference _ _ _ => 0 ≤ x.exact unsigned
  | .v =>
    match x with
    | bitwise _ => flags .v
    | _ => OutsideSigned (x.exact BitVec.toInt)

/-- The second operand of a data-processing instruction. -/
inductive ShifterOperand where
  | immediate (value : BitVec 8) (rotate : ℕ)
  | shifted (kind : ShiftKind) (amount : ℕ) (rm : Reg)
  | registerShifted (kind : ShiftKind) (rs rm : Reg)

/-- The operand and the carry of the shifter. -/
def ShifterOperand.eval (A : Machine) : ShifterOperand → Word × Bool
  | immediate value rotate =>
    let x := (value.setWidth 32).rotateRight (2 * rotate)
    (x, if rotate = 0 then A.flags .c else x.msb)
  | shifted kind amount rm => immediateShift kind amount (A.value rm) (A.flags .c)
  | registerShifted kind rs rm => kind.shift ((A.value rs).toNat % 256) (A.value rm) (A.flags .c)

/-- Nothing is shifted, and the carry is the C flag. -/
def ShifterOperand.keepsCarry (A : Machine) : ShifterOperand → Bool
  | immediate _ rotate => rotate = 0
  | shifted kind amount _ => kind = .logicalLeft ∧ amount = 0
  | registerShifted _ rs _ => (A.value rs).toNat % 256 = 0

/-! Addresses. -/

inductive Indexing where
  | offset
  | preIndexed
  | postIndexed
deriving DecidableEq, Repr

structure Addressing where
  up : Bool
  indexing : Indexing
deriving DecidableEq, Repr

def Addressing.moved (m : Addressing) (base offset : Word) : Word :=
  if m.up then base + offset else base - offset

def Addressing.address (m : Addressing) (base offset : Word) : Word :=
  if m.indexing = .postIndexed then base else m.moved base offset

def Addressing.writesBack (m : Addressing) : Bool := m.indexing ≠ .offset

/-- The offset of a word or byte transfer. -/
inductive Offset where
  | immediate (value : BitVec 12)
  | shifted (kind : ShiftKind) (amount : ℕ) (rm : Reg)

def Offset.eval (A : Machine) : Offset → Option Word
  | immediate value => some (value.setWidth 32)
  | shifted kind amount rm =>
    if rm = 15 then none else some (immediateShift kind amount (A.value rm) (A.flags .c)).1

/-- The offset of a halfword, signed or doubleword transfer. -/
inductive HalfOffset where
  | immediate (value : BitVec 8)
  | register (rm : Reg)

def HalfOffset.eval (A : Machine) : HalfOffset → Option Word
  | immediate value => some (value.setWidth 32)
  | register rm => if rm = 15 then none else some (A.value rm)

/-- The registers of a list, from the lowest one up. -/
def registersIn (list : BitVec 16) : List Reg := (List.finRange 16).filter (fun r => list.getLsbD r)

/-- Where a block starts. -/
def blockFirst (up before : Bool) (base size : Word) : Word :=
  if up then (if before then base + 4 else base)
  else (if before then base - size else base - size + 4)

/-! Instructions. -/

inductive Instruction where
  | data (op : Operator) (s : Bool) (rd rn : Reg) (operand : ShifterOperand)
  | multiply (s : Bool) (rd rm rs : Reg)
  | transfer (load byte : Bool) (mode : Addressing) (rd rn : Reg) (offset : Offset)
  | half (kind : MiscellaneousKind) (mode : Addressing) (rd rn : Reg) (offset : HalfOffset)
  | block (load up before writeBack : Bool) (rn : Reg) (list : BitVec 16)
  | branch (link : Bool) (offset : BitVec 24)
  | exchange (rm : Reg)
  | software (number : BitVec 24)

/-- The four bits from `l` on, as a register. -/
def regField (inst : Word) (l : ℕ) : Reg := ⟨getBits inst (l + 3) l, getBits_lt_sixteen inst (by omega)⟩

def bit (inst : Word) (i : ℕ) : Bool := inst.getLsbD i

/-- The bits P, U and W of a transfer.  The fourth of their modes belongs to no transfer. -/
def addressingOf (inst : Word) : Option Addressing :=
  match bit inst P_SHIFT, bit inst W_SHIFT with
  | true, false => some ⟨bit inst U_SHIFT, .offset⟩
  | true, true => some ⟨bit inst U_SHIFT, .preIndexed⟩
  | false, false => some ⟨bit inst U_SHIFT, .postIndexed⟩
  | false, true => none

def kindOf (inst : Word) : Option MiscellaneousKind :=
  match bit inst L_SHIFT, bit inst 6, bit inst 5 with
  | false, false, true => some .strh
  | false, true, false => some .ldrd
  | false, true, true => some .strd
  | true, false, true => some .ldrh
  | true, true, false => some .ldrsb
  | true, true, true => some .ldrsh
  | _, false, false => none

/-- An opcode with the operator and the S bit of a data-processing instruction: the comparisons
without the S bit are other instructions. -/
def dataOf (inst : Word) (operand : ShifterOperand) : Option Instruction :=
  if getBits inst 24 23 = 2 ∧ bit inst 20 = false then none
  else some (.data (operatorOf (getBits inst 24 21)) (bit inst 20) (regField inst 12)
    (regField inst 16) operand)

def multiplyOf (inst : Word) : Option Instruction :=
  if getBits inst 27 21 = 0 then
    some (.multiply (bit inst 20) (regField inst 16) (regField inst 0) (regField inst 8))
  else none

def halfOf (inst : Word) : Option Instruction := do
  return .half (← kindOf inst) (← addressingOf inst) (regField inst 12) (regField inst 16)
    (if bit inst B_SHIFT then
      .immediate (BitVec.ofNat 8 (16 * getBits inst 11 8 + getBits inst 3 0))
    else .register (regField inst 0))

def transferOf (inst : Word) (offset : Offset) : Option Instruction := do
  return .transfer (bit inst L_SHIFT) (bit inst B_SHIFT) (← addressingOf inst) (regField inst 12)
    (regField inst 16) offset

/-- The instruction sets of the status register accesses, the coprocessors and the S bit of a
block transfer are left out. -/
def decode (inst : Word) : Option Instruction :=
  match getBits inst 27 25 with
  | 0 =>
    if bit inst 4 = false then
      dataOf inst (.shifted (shiftKindOf (getBits inst 6 5)) (getBits inst 11 7) (regField inst 0))
    else if bit inst 7 = false then
      if getBits inst 27 4 = 0x12FFF1 then some (.exchange (regField inst 0))
      -- A shift by a register leaves no time to read r15.
      else if 15 ∈ [regField inst 0, regField inst 8, regField inst 12, regField inst 16] then none
      else dataOf inst
        (.registerShifted (shiftKindOf (getBits inst 6 5)) (regField inst 8) (regField inst 0))
    else if bit inst 5 = false ∧ bit inst 6 = false then multiplyOf inst
    else halfOf inst
  | 1 => dataOf inst (.immediate (BitVec.ofNat 8 (getBits inst 7 0)) (getBits inst 11 8))
  | 2 => transferOf inst (.immediate (BitVec.ofNat 12 (getBits inst 11 0)))
  | 3 =>
    if bit inst 4 = false then transferOf inst
      (.shifted (shiftKindOf (getBits inst 6 5)) (getBits inst 11 7) (regField inst 0))
    else none
  | 4 =>
    if bit inst 22 = false then
      some (.block (bit inst 20) (bit inst 23) (bit inst 24) (bit inst 21) (regField inst 16)
        (BitVec.ofNat 16 (getBits inst 15 0)))
    else none
  | 5 => some (.branch (bit inst 24) (BitVec.ofNat 24 (getBits inst 23 0)))
  | 7 => if bit inst 24 then some (.software (BitVec.ofNat 24 (getBits inst 23 0))) else none
  | _ => none

/-! Execution. -/

section execution
variable [Platform] (A : Machine)

/-- An operator applied to `a` and `b`, with the carry that the shifter has left. -/
def applied (op : Operator) (s : Bool) (rd : Reg) (a b : Word) (carry : Bool) : Option Machine :=
  let x := op.compute a b (A.flags .c)
  let finish (B : Machine) := if s then B.setFlags (x.flags carry A.flags) else B
  if op.compares then some (finish A.next)
  -- The S bit with r15 restores a status register that this machine has not.
  else if s ∧ rd = 15 then none
  else (A.next.write rd x.result).map finish

def execData (op : Operator) (s : Bool) (rd rn : Reg) (operand : ShifterOperand) :
    Option Machine :=
  applied A op s rd (A.value rn) (operand.eval A).1 (operand.eval A).2

def execMultiply (s : Bool) (rd rm rs : Reg) : Option Machine :=
  if rd = 15 ∨ rm = 15 ∨ rs = 15 then none
  else
    let v := A.value rm * A.value rs
    let flags : Flags := fun
      | .n => v.msb
      | .z => v = 0
      | f => A.flags f
    (A.next.write rd v).map fun B => if s then B.setFlags flags else B

/-- A base is moved unless it is r15 or one of the registers transferred. -/
def writeBase (B : Machine) (mode : Addressing) (rn : Reg) (moved : Word) (transferred : List Reg) :
    Option Machine :=
  if mode.writesBack then
    if rn = 15 ∨ rn ∈ transferred then none else B.write rn moved
  else some B

def execTransfer (load byte : Bool) (mode : Addressing) (rd rn : Reg) (offset : Offset) :
    Option Machine := do
  let offset ← offset.eval A
  let a := mode.address (A.value rn) offset
  if A.mem.InRange a (if byte then 1 else 4) ∧ (if byte then rd ≠ 15 else a.toNat % 4 = 0) then
    let B ← (
      if load then
        A.next.write rd
          (if byte then (A.mem.byteAt a.toNat).setWidth 32 else A.mem.wordAt a ENDIANESS)
      else
        some (A.next.store (
          if byte then A.mem.setByte a.toNat ((A.value rd).setWidth 8)
          else A.mem.setWord a (A.value rd) ENDIANESS)))
    writeBase B mode rn (mode.moved (A.value rn) offset) [rd]
  else none

/-- The access of a halfword, signed or doubleword transfer, made in the machine `B` with the
values of `A`. -/
def accessHalf (B : Machine) (kind : MiscellaneousKind) (rd : Reg) (a : Word) : Option Machine :=
  match kind with
  | .strh => some (B.store (A.mem.setHalf a ((A.value rd).setWidth 16) ENDIANESS))
  | .ldrh => B.write rd ((A.mem.halfAt a ENDIANESS).setWidth 32)
  | .ldrsb => B.write rd ((A.mem.byteAt a.toNat).signExtend 32)
  | .ldrsh => B.write rd ((A.mem.halfAt a ENDIANESS).signExtend 32)
  | .ldrd => do
    let B ← B.write rd (A.mem.wordAt a ENDIANESS)
    B.write (rd + 1) (A.mem.wordAt (a + 4) ENDIANESS)
  | .strd => some (B.store ((A.mem.setWord a (A.value rd) ENDIANESS).setWord (a + 4)
      (A.value (rd + 1)) ENDIANESS))

def execHalf (kind : MiscellaneousKind) (mode : Addressing) (rd rn : Reg) (offset : HalfOffset) :
    Option Machine := do
  let offset ← offset.eval A
  let a := mode.address (A.value rn) offset
  if A.mem.InRange a kind.count ∧ a.toNat % kind.count = 0 ∧ rd ≠ 15 ∧
      (kind.double → rd.val % 2 = 0 ∧ rd ≠ 14) then
    let B ← writeBase A.next mode rn (mode.moved (A.value rn) offset)
      (if kind.double then [rd, rd + 1] else [rd])
    accessHalf A B kind rd a
  else none

/-- The registers of a list loaded from consecutive words. -/
def loadBlock : List Reg → Word → Machine → Option Machine
  | [], _, B => some B
  | r :: rs, a, B => do
    let B ← B.write r (B.mem.wordAt a ENDIANESS)
    loadBlock rs (a + 4) B

/-- The values of the registers of a list stored to consecutive words. -/
def storeBlock : List Reg → Word → Machine → Machine
  | [], _, B => B
  | r :: rs, a, B => storeBlock rs (a + 4) (B.store (B.mem.setWord a (A.value r) ENDIANESS))

def execBlock (load up before writeBack : Bool) (rn : Reg) (list : BitVec 16) : Option Machine :=
  let rs := registersIn list
  let base := A.value rn
  let size := BitVec.ofNat 32 (4 * rs.length)
  let first := blockFirst up before base size
  if rn ≠ 15 ∧ first.toNat % 4 = 0 ∧ (writeBack → rn ∉ rs) ∧
      ∀ k < rs.length, A.mem.InRange (first + BitVec.ofNat 32 (4 * k)) 4 then do
    let B ← (if load then loadBlock rs first A.next else some (storeBlock A rs first A.next))
    if writeBack then B.write rn (if up then base + size else base - size) else some B
  else none

def execBranch (link : Bool) (offset : BitVec 24) : Option Machine := do
  let B ← (if link then A.next.write 14 (A.reg 15 + 4) else some A.next)
  B.write 15 (A.reg 15 + 8 + 4 * offset.signExtend 32)

/-- The bytes of a string before its NUL, when they and the NUL fit into so many bytes. -/
def readString (mem : Memory) : ℕ → Word → Option (List Byte)
  | 0, _ => none
  | room + 1, a =>
    if a.toNat < mem.size then
      if mem.byteAt a.toNat = 0 then some []
      else (readString mem room (a + 1)).map (mem.byteAt a.toNat :: ·)
    else none

/-- The services of the simulator: a character, a number and a string of at most 99 bytes
printed, and a number read. -/
def execSoftware (input : Word) (number : BitVec 24) : Option Machine :=
  if number = 1 then some (A.next.print (.char ((A.reg 0).setWidth 8)))
  else if number = 2 then some (A.next.print (.int (A.reg 0)))
  else if number = 3 then (readString A.mem 100 (A.reg 0)).map fun s => A.next.print (.str s)
  else if number = 4 then A.next.write 0 input
  else none

def exec (input : Word) : Instruction → Option Machine
  | .data op s rd rn operand => execData A op s rd rn operand
  | .multiply s rd rm rs => execMultiply A s rd rm rs
  | .transfer load byte mode rd rn offset => execTransfer A load byte mode rd rn offset
  | .half kind mode rd rn offset => execHalf A kind mode rd rn offset
  | .block load up before writeBack rn list => execBlock A load up before writeBack rn list
  | .branch link offset => execBranch A link offset
  | .exchange rm => A.next.write 15 (A.value rm)
  | .software number => execSoftware A input number

/-- The word at r15. -/
def Machine.instruction : Word := A.mem.wordAt (A.reg 15) ENDIANESS

/-- The condition of a word, tested on the flags. -/
def holds (flags : Flags) (inst : Word) : Bool :=
  armCondition (getBits inst 31 28) (flags .n) (flags .z) (flags .c) (flags .v)

/-- One instruction, with the number that the program reads if it reads one. -/
def step (input : Word) : Option Machine :=
  if A.mem.InRange (A.reg 15) 4 ∧ getBits A.instruction 31 28 ≠ 15 then
    if holds A.flags A.instruction then (decode A.instruction).bind (exec A input)
    else some A.next
  else none

/-- The machine is about to end the simulation. -/
def Exits : Prop :=
  A.mem.InRange (A.reg 15) 4 ∧ getBits A.instruction 31 28 ≠ 15 ∧
    holds A.flags A.instruction = true ∧ decode A.instruction = some (.software 0x123456)

end execution

end Arch
end ArmSim
