import ArmSim.Core

/-! `arm_load_store.c`: single, miscellaneous and multiple transfers. -/
namespace ArmSim
open Lib

-- The P, U, B, W and L bits of a transfer.
abbrev P_SHIFT : ℕ := 24
abbrev U_SHIFT : ℕ := 23
abbrev B_SHIFT : ℕ := 22
abbrev W_SHIFT : ℕ := 21
abbrev L_SHIFT : ℕ := 20

def uBitHandle (u : ℕ) (addr offset : Word) : Word :=
  if u ≠ 0 then addr + offset else addr - offset

variable [Platform]

def bBitHandle (p : ArmCore) (l b : ℕ) (addr : Word) (rd : ℕ) : Except Crash (ℤ × ArmCore) := do
  if l ≠ 0 then
    if b ≠ 0 then
      let (err, valueByte) ← armReadByte p addr 0
      if err ≠ 0 then
        return (err, p)
      return (err, ← armWriteRegister p rd (valueByte.setWidth 32))
    else
      let (err, valueWord) ← armReadWord p addr 0
      if err ≠ 0 then
        return (err, p)
      return (err, ← armWriteRegister p rd valueWord)
  else
    if b = 1 then
      let valueByte := (← armReadRegister p rd).setWidth 8
      armWriteByte p addr valueByte
    else
      let valueWord ← armReadRegister p rd
      armWriteWord p addr valueWord

-- The load and the store helpers have the same bodies.  Each returns the error,
-- the state and what it leaves in `*addr`.

def immediateOffset (p : ArmCore) (l u b rd : ℕ) (addr offset : Word) :
    Except Crash (ℤ × ArmCore × Word) := do
  let addr := uBitHandle u addr offset
  let (err, p) ← bBitHandle p l b addr rd
  return (err, p, addr)

def immediatePreindexing (p : ArmCore) (l u b rn rd : ℕ) (addr offset : Word) :
    Except Crash (ℤ × ArmCore × Word) := do
  let (err, p, addr) ← immediateOffset p l u b rd addr offset
  if err ≠ 0 then
    return (err, p, addr)
  return (err, ← armWriteRegister p rn addr, addr)

def immediatePostindexing (p : ArmCore) (l u b rn rd : ℕ) (addr offset : Word) :
    Except Crash (ℤ × ArmCore × Word) := do
  let (err, p) ← bBitHandle p l b addr rd
  if err ≠ 0 then
    return (err, p, addr)
  let addr := uBitHandle u addr offset
  return (err, ← armWriteRegister p rn addr, addr)

abbrev armLoadImmediateOffset := @immediateOffset
abbrev armLoadImmediatePreindexing := @immediatePreindexing
abbrev armLoadImmediatePostindexing := @immediatePostindexing
abbrev armStoreImmediateOffset := @immediateOffset
abbrev armStoreImmediatePreindexing := @immediatePreindexing
abbrev armStoreImmediatePostindexing := @immediatePostindexing

def armLoadStoreImmediateOffset (p : ArmCore) (ins : Word) : Except Crash (ℤ × ArmCore) := do
  let pBit := getBit ins P_SHIFT
  let uBit := getBit ins U_SHIFT
  let bBit := getBit ins B_SHIFT
  let wBit := getBit ins W_SHIFT
  let lBit := getBit ins L_SHIFT
  let registerN := getBits ins 19 16
  let registerD := getBits ins 15 12
  let offset := BitVec.ofNat 32 (getBits ins 11 0)
  let addressBase ← armReadRegister p registerN
  if lBit = 1 then
    if pBit = 1 then
      if wBit = 1 then
        let (err, p, _) ← armLoadImmediatePreindexing p lBit uBit bBit registerN registerD
          addressBase offset
        return (err, p)
      else
        let (err, p, _) ← armLoadImmediateOffset p lBit uBit bBit registerD addressBase offset
        return (err, p)
    else
      if wBit = 1 then
        return (Exc.UNDEFINED_INSTRUCTION, p)
      else
        let (err, p, _) ← armLoadImmediatePostindexing p lBit uBit bBit registerN registerD
          addressBase offset
        return (err, p)
  else
    if pBit = 1 then
      if wBit = 1 then
        let (err, p, _) ← armStoreImmediatePreindexing p lBit uBit bBit registerN registerD
          addressBase offset
        return (err, p)
      else
        let (err, p, _) ← armStoreImmediateOffset p lBit uBit bBit registerD addressBase offset
        return (err, p)
    else
      if wBit = 1 then
        return (Exc.UNDEFINED_INSTRUCTION, p)
      else
        let (err, p, _) ← armStoreImmediatePostindexing p lBit uBit bBit registerN registerD
          addressBase offset
        return (err, p)

/-- The shift of the register offset; `offset` is the value of `register_m`. -/
def scaledOffset (shift shiftImm registerM : ℕ) (offset cpsr : Word) : Word :=
  let scaled := shiftImm ||| shift
  if scaled ≠ 0 then
    match shift with
    | Shift.LSL => offset <<< shiftImm
    | Shift.LSR => if shiftImm = 0 then 0 else offset >>> shiftImm
    | Shift.ASR =>
      if shiftImm = 0 then (if getBit offset 31 = 1 then 0xFFFFFFFF else 0)
      else offset.sshiftRight shiftImm
    | Shift.ROR =>
      -- The number of the register is shifted here, not its value.
      if shiftImm = 0 then
        (BitVec.ofNat 32 (getBit cpsr Flag.C) <<< 31) ||| BitVec.ofNat 32 (registerM >>> 1)
      else ror offset shiftImm
    | _ => offset
  else offset

def armLoadStoreRegisterOffset (p : ArmCore) (ins : Word) : Except Crash (ℤ × ArmCore) := do
  let pBit := getBit ins P_SHIFT
  let uBit := getBit ins U_SHIFT
  let bBit := getBit ins B_SHIFT
  let wBit := getBit ins W_SHIFT
  let lBit := getBit ins L_SHIFT
  let lpwBits := (lBit <<< 2) ||| (pBit <<< 1) ||| wBit
  let registerN := getBits ins 19 16
  let registerD := getBits ins 15 12
  let shiftImm := getBits ins 11 7
  let shift := getBits ins 6 5
  let registerM := getBits ins 3 0
  let offset ← armReadRegister p registerM
  let addressBase ← armReadRegister p registerN
  let offset := scaledOffset shift shiftImm registerM offset (armReadCpsr p)
  match lpwBits with
  | 0b000 =>
    let (err, p, _) ← armStoreImmediatePostindexing p lBit uBit bBit registerN registerD
      addressBase offset
    return (err, p)
  | 0b001 => return (Exc.UNDEFINED_INSTRUCTION, p)
  | 0b010 =>
    let (err, p, _) ← armStoreImmediateOffset p lBit uBit bBit registerD addressBase offset
    return (err, p)
  | 0b011 =>
    let (err, p, _) ← armStoreImmediatePreindexing p lBit uBit bBit registerN registerD
      addressBase offset
    return (err, p)
  | 0b100 =>
    let (err, p, _) ← armLoadImmediatePostindexing p lBit uBit bBit registerN registerD
      addressBase offset
    return (err, p)
  | 0b101 => return (Exc.UNDEFINED_INSTRUCTION, p)
  | 0b110 =>
    let (err, p, _) ← armLoadImmediateOffset p lBit uBit bBit registerD addressBase offset
    return (err, p)
  | 0b111 =>
    let (err, p, _) ← armLoadImmediatePreindexing p lBit uBit bBit registerN registerD
      addressBase offset
    return (err, p)
  | _ => return (Exc.UNDEFINED_INSTRUCTION, p)

/-- The addressing half of `arm_load_store_miscellaneous`: the address of the
access and the state with the base written back, or `none` when the source
returns `UNDEFINED_INSTRUCTION` at once. -/
def miscellaneousAddress (p : ArmCore) (ins : Word) :
    Except Crash (Option (Word × ArmCore)) := do
  let pBit := getBit ins P_SHIFT
  let uBit := getBit ins U_SHIFT
  let wBit := getBit ins W_SHIFT
  let bBits := getBit ins B_SHIFT
  let rn := getBits ins 19 16
  let op1 := getBits ins (8 + 3) 8
  let op0 := getBits ins (0 + 3) 0
  let offset := BitVec.ofNat 32 ((op1 <<< 4) ||| op0)
  if pBit ≠ 0 ∧ bBits ≠ 0 ∧ wBit = 0 then
    return some (uBitHandle uBit (← armReadRegister p rn) offset, p)
  else if pBit ≠ 0 ∧ bBits = 0 ∧ wBit = 0 then
    return some (uBitHandle uBit (← armReadRegister p rn) (← armReadRegister p op0), p)
  else if pBit ≠ 0 ∧ bBits ≠ 0 ∧ wBit ≠ 0 then
    let address := uBitHandle uBit (← armReadRegister p rn) offset
    return some (address, ← armWriteRegister p rn address)
  else if pBit ≠ 0 ∧ bBits = 0 ∧ wBit ≠ 0 then
    let address := uBitHandle uBit (← armReadRegister p rn) (← armReadRegister p op0)
    return some (address, ← armWriteRegister p rn address)
  else if pBit = 0 ∧ bBits ≠ 0 ∧ wBit = 0 then
    let address ← armReadRegister p rn
    return some (address, ← armWriteRegister p rn (uBitHandle uBit address offset))
  else if pBit = 0 ∧ bBits = 0 ∧ wBit = 0 then
    let address ← armReadRegister p rn
    return some (address,
      ← armWriteRegister p rn (uBitHandle uBit address (← armReadRegister p op0)))
  else
    return none

/-- The condition under which a doubleword is transferred. -/
def doubleAligned (rd : ℕ) (address : Word) : Prop :=
  rd % 2 = 0 ∧ rd ≠ 14 ∧ getBits address 1 0 = 0b00 ∧ getBit address 2 = 0

instance (rd : ℕ) (address : Word) : Decidable (doubleAligned rd address) :=
  inferInstanceAs (Decidable (_ ∧ _ ∧ _ ∧ _))

omit [Platform] in
theorem doubleAligned.next {rd : ℕ} {address : Word} (h : doubleAligned rd address)
    (hd : rd < 16) : rd + 1 < 16 := by
  obtain ⟨h2, h14, -⟩ := h
  omega

/-- The transfer half of `arm_load_store_miscellaneous`.  A failed read leaves 0 in
the local variable, which the register then receives. -/
def miscellaneousTransfer (p : ArmCore) (lshBits rd : ℕ) (address : Word) :
    Except Crash (ℤ × ArmCore) := do
  match lshBits with
  | 1 =>
    let valueHalf := (← armReadRegister p rd).setWidth 16
    armWriteHalf p address valueHalf
  | 2 =>
    if doubleAligned rd address then
      let (err, valueWord) ← armReadWord p address 0
      -- The register is written before the error is looked at.
      let p ← armWriteRegister p rd valueWord
      if err ≠ 0 then
        return (err, p)
      let (err, valueWord) ← armReadWord p (address + 4) valueWord
      return (err, ← armWriteRegister p (rd + 1) valueWord)
    else
      return (Exc.UNDEFINED_INSTRUCTION, p)
  | 3 =>
    if doubleAligned rd address then
      let valueWord ← armReadRegister p rd
      let (err, p) ← armWriteWord p address valueWord
      if err ≠ 0 then
        return (err, p)
      let valueWord ← armReadRegister p (rd + 1)
      armWriteWord p (address + 4) valueWord
    else
      return (Exc.UNDEFINED_INSTRUCTION, p)
  | 5 =>
    let (err, valueHalf) ← armReadHalf p address 0
    return (err, ← armWriteRegister p rd (valueHalf.setWidth 32))
  | 6 =>
    let (err, valueByte) ← armReadByte p address 0
    let signedMask := if getBit valueByte 7 ≠ 0 then BitVec.allOnes 32 else 0
    let signedMask := setBits signedMask 7 0 (valueByte.setWidth 32)
    return (err, ← armWriteRegister p rd signedMask)
  | 7 =>
    let (err, valueHalf) ← armReadHalf p address 0
    let signedMask := if getBit valueHalf 15 ≠ 0 then BitVec.allOnes 32 else 0
    let signedMask := setBits signedMask 15 0 (valueHalf.setWidth 32)
    return (err, ← armWriteRegister p rd signedMask)
  | _ => return (0, p)

def armLoadStoreMiscellaneous (p : ArmCore) (ins : Word) : Except Crash (ℤ × ArmCore) := do
  let lshBits := (getBit ins L_SHIFT <<< 2) ||| (getBit ins 6 <<< 1) ||| getBit ins 5
  let rd := getBits ins 15 12
  match ← miscellaneousAddress p ins with
  | none => return (Exc.UNDEFINED_INSTRUCTION, p)
  | some (address, p) => miscellaneousTransfer p lshBits rd address

/-- The first address of a multiple transfer and the written-back base. -/
def multipleAddresses (P U : ℕ) (RnV numberOfSetBits : Word) : Word × Word :=
  if P = 0 ∧ U ≠ 0 then (RnV, RnV + numberOfSetBits * 4)
  else if P ≠ 0 ∧ U ≠ 0 then (RnV + 4, RnV + numberOfSetBits * 4)
  else if P = 0 ∧ U = 0 then (RnV - numberOfSetBits * 4 + 4, RnV - numberOfSetBits * 4)
  else (RnV - numberOfSetBits * 4, RnV - numberOfSetBits * 4)

/-- The local variables of the transfer loop. -/
structure MultipleLoop where
  address : Word
  data : Word
  p : ArmCore

/-- One round of the transfer loop.  The result codes of the accesses are ignored,
so a load that fails uses what `data` held before. -/
def multipleStep (L : ℕ) (registerList : BitVec 16) (s : MultipleLoop) (i : ℕ) :
    Except Crash MultipleLoop := do
  if getBit registerList i ≠ 0 then
    if L ≠ 0 then
      let (_, data) ← armReadWord s.p s.address s.data
      let data := if i = 15 then data &&& 0xFFFFFFFC else data
      let p ← armWriteRegister s.p i data
      return ⟨s.address + 4, data, p⟩
    else
      let data ← armReadRegister s.p i
      let (_, p) ← armWriteWord s.p s.address data
      return ⟨s.address + 4, s.data, p⟩
  else
    return s

def armLoadStoreMultiple (env : Env) (p : ArmCore) (ins : Word) :
    Except Crash (ℤ × ArmCore) := do
  let P := getBit ins 24
  let U := getBit ins 23
  let S := getBit ins 22
  let W := getBit ins 21
  let L := getBit ins 20
  let Rn := getBits ins 19 16
  let registerList := BitVec.ofNat 16 (getBits ins 15 0)
  let RnV ← armReadRegister p Rn
  let numberOfSetBits := (List.range 16).foldl
    (fun (n : Word) i => n + BitVec.ofNat 32 (getBit registerList i)) 0
  let (address, Wadress) := multipleAddresses P U RnV numberOfSetBits
  let ⟨_, _, p⟩ ← (List.range 16).foldlM (multipleStep L registerList) ⟨address, env.data, p⟩
  let p ←
    (if L ≠ 0 ∧ S ≠ 0 ∧ getBit ins 15 ≠ 0 then do
      let spsr ← armReadSpsr p
      pure (armWriteCpsr p spsr)
    else pure p)
  -- The write-back goes to the bank of the mode the CPSR names by now.
  let p ← (if W = 1 then armWriteRegister p Rn Wadress else pure p)
  return (0, p)

def armCoprocessorLoadStore (p : ArmCore) (_ins : Word) : Except Crash (ℤ × ArmCore) :=
  return (Exc.UNDEFINED_INSTRUCTION, p)

end ArmSim
