import ArmSim.Memory
import ArmSim.Registers

/-! `arm_core.c`: the processor as the instruction handlers see it. -/
namespace ArmSim
open Lib

-- ARM exceptions by priority, and the end of the simulation.
namespace Exc
@[match_pattern] abbrev RESET : ℕ := 1
@[match_pattern] abbrev DATA_ABORT : ℕ := 2
@[match_pattern] abbrev FAST_INTERRUPT : ℕ := 3
@[match_pattern] abbrev INTERRUPT : ℕ := 4
@[match_pattern] abbrev IMPRECISE_ABORT : ℕ := 5
@[match_pattern] abbrev PREFETCH_ABORT : ℕ := 6
@[match_pattern] abbrev UNDEFINED_INSTRUCTION : ℕ := 7
@[match_pattern] abbrev SOFTWARE_INTERRUPT : ℕ := 8
@[match_pattern] abbrev END_SIMULATION : ℕ := 9
end Exc

-- The bit positions of the flags in the CPSR.
namespace Flag
abbrev N : ℕ := 31
abbrev Z : ℕ := 30
abbrev C : ℕ := 29
abbrev V : ℕ := 28
end Flag

namespace Shift
@[match_pattern] abbrev LSL : ℕ := 0
@[match_pattern] abbrev LSR : ℕ := 1
@[match_pattern] abbrev ASR : ℕ := 2
@[match_pattern] abbrev ROR : ℕ := 3
end Shift

/-- What the simulator prints on its standard output. -/
inductive Printed where
  | char (c : Byte)
  | int (value : Word)
  | str (s : List Byte)
  | unknownInterrupt (instruction : Word)
  | bxReached
deriving DecidableEq, Repr

/-- `struct arm_core_data`, with the output printed so far (latest first). -/
structure ArmCore where
  cycleCount : Word
  reg : Registers
  mem : Memory
  output : List Printed

/-- What a step finds outside the processor: the contents of the local variables
the source leaves uninitialised, and the integer `scanf` stores. -/
structure Env where
  data : Word
  instruction : Word
  value : Byte
  scanned : Word

variable [Platform]

/-- `ENDIANESS`, as `BIG_ENDIAN_SIMULATOR` sets it. -/
def ENDIANESS : Bool := Platform.bigEndianSimulator

def ArmCore.print (p : ArmCore) (x : Printed) : ArmCore := { p with output := x :: p.output }

def armCurrentModeHasSpsr (p : ArmCore) : Bool := registersCurrentModeHasSpsr p.reg

def armInAPrivilegedMode (p : ArmCore) : Bool := registersInAPrivilegedMode p.reg

-- `trace_register`, which each access of a register calls, acts under `--trace-registers` only.
-- The simulator is modelled without that option.

-- The fetch has already added 4 to the pc, so an instruction reads its address + 8.
def armReadRegisterInternal (p : ArmCore) (reg mode : ℕ) : Except Crash Word := do
  let value ← registersRead p.reg reg mode
  if reg = 15 then
    return (value + 4) &&& 0xFFFFFFFD
  else
    return value

def armReadRegister (p : ArmCore) (reg : ℕ) : Except Crash Word :=
  armReadRegisterInternal p reg (registersGetMode p.reg)

def armReadUsrRegister (p : ArmCore) (reg : ℕ) : Except Crash Word :=
  armReadRegisterInternal p reg Mode.USR

def armReadCpsr (p : ArmCore) : Word := registersReadCpsr p.reg

def armReadSpsr (p : ArmCore) : Except Crash Word :=
  registersReadSpsr p.reg (registersGetMode p.reg)

def armWriteRegisterInternal (p : ArmCore) (reg mode : ℕ) (value : Word) :
    Except Crash ArmCore := do
  return { p with reg := ← registersWrite p.reg reg mode value }

def armWriteRegister (p : ArmCore) (reg : ℕ) (value : Word) : Except Crash ArmCore :=
  armWriteRegisterInternal p reg (registersGetMode p.reg) value

def armWriteCpsr (p : ArmCore) (value : Word) : ArmCore :=
  { p with reg := registersWriteCpsr p.reg value }

def armWriteSpsr (p : ArmCore) (value : Word) : Except Crash ArmCore := do
  return { p with reg := ← registersWriteSpsr p.reg (registersGetMode p.reg) value }

def armReadByte (p : ArmCore) (address : Word) (value : Byte) : Except Crash (ℤ × Byte) :=
  memoryReadByte p.mem address value

def armReadHalf (p : ArmCore) (address : Word) (value : Half) : Except Crash (ℤ × Half) :=
  memoryReadHalf p.mem address value ENDIANESS

def armReadWord (p : ArmCore) (address : Word) (value : Word) : Except Crash (ℤ × Word) :=
  memoryReadWord p.mem address value ENDIANESS

def armFetch (p : ArmCore) (value : Word) : Except Crash (ℤ × Word × ArmCore) := do
  let mode := registersGetMode p.reg
  let address ← registersRead p.reg 15 mode
  -- The pc has moved even when the read fails.
  let reg ← registersWrite p.reg 15 mode (address + 4)
  let (result, value) ← memoryReadWord p.mem address value ENDIANESS
  return (result, value, { p with reg := reg, cycleCount := p.cycleCount + 1 })

def armWriteByte (p : ArmCore) (address : Word) (value : Byte) :
    Except Crash (ℤ × ArmCore) := do
  let (result, mem) ← memoryWriteByte p.mem address value
  return (result, { p with mem := mem })

def armWriteHalf (p : ArmCore) (address : Word) (value : Half) :
    Except Crash (ℤ × ArmCore) := do
  let (result, mem) ← memoryWriteHalf p.mem address value ENDIANESS
  return (result, { p with mem := mem })

def armWriteWord (p : ArmCore) (address : Word) (value : Word) :
    Except Crash (ℤ × ArmCore) := do
  let (result, mem) ← memoryWriteWord p.mem address value ENDIANESS
  return (result, { p with mem := mem })

/-- The bank of the current mode: 0 and 1 have no SPSR, 6 is the fast interrupt's. -/
def ArmCore.bank (p : ArmCore) : ℕ := p.reg.bank

def ArmCore.cpsr (p : ArmCore) : Word := registersReadCpsr p.reg

/-- Register `reg` of the current mode, as the cell holds it. -/
def ArmCore.gp (p : ArmCore) (reg : ℕ) : Word := p.reg.get (bankCell reg p.bank)

/-- The program counter as the cell holds it: 4 behind what an instruction reads
after its fetch, and the address of the next instruction between steps. -/
def ArmCore.pc (p : ArmCore) : Word := p.reg.get (bankCell PC 0)

/-- What an instruction reads from register `reg`. -/
def ArmCore.operand (p : ArmCore) (reg : ℕ) : Word :=
  if reg = 15 then (p.gp reg + 4) &&& 0xFFFFFFFD else p.gp reg

def ArmCore.setCell (p : ArmCore) (c : Cell) (v : Word) : ArmCore :=
  { p with reg := p.reg.set c v }

def ArmCore.setGp (p : ArmCore) (reg : ℕ) (v : Word) : ArmCore :=
  p.setCell (bankCell reg p.bank) v

theorem armReadRegister_eq {p : ArmCore} {reg : ℕ} (hr : reg < 16) (hb : p.bank < 6) :
    armReadRegister p reg = .ok (p.operand reg) := by
  unfold armReadRegister armReadRegisterInternal ArmCore.operand ArmCore.gp
  rw [registersRead_eq]
  change bankPointer reg p.bank >>= _ >>= _ = _
  rw [bankPointer_general hr hb]
  simp only [ok_bind]
  split <;> rfl

omit [Platform] in
/-- The mask that the pc is read through keeps an aligned word. -/
theorem and_mask_aligned {x : Word} (h : x.toNat % 4 = 0) : x &&& 0xFFFFFFFD = x := by
  -- The mask clears bit 1 only.
  have hbit : getBit x 1 = 0 := by
    rw [getBit_eq_div]
    omega
  exact clrBit_eq_self hbit

omit [Platform] in
theorem aligned_add_four {x : Word} (h : x.toNat % 4 = 0) : (x + 4).toNat % 4 = 0 := by
  rw [BitVec.toNat_add]
  change (x.toNat + 4) % 4294967296 % 4 = 0
  omega

theorem armReadRegister_pc (p : ArmCore) :
    armReadRegister p PC = .ok ((p.pc + 4) &&& 0xFFFFFFFD) := by
  unfold armReadRegister armReadRegisterInternal
  rw [registersRead_eq, bankPointer_pc (getReadWriteMode_lt _)]
  rfl

theorem armWriteRegister_eq {p : ArmCore} {reg : ℕ} (hr : reg < 16) (hb : p.bank < 6)
    (v : Word) : armWriteRegister p reg v = .ok (p.setGp reg v) := by
  unfold armWriteRegister armWriteRegisterInternal
  rw [registersWrite_eq]
  change (bankPointer reg p.bank >>= _) >>= _ = _
  rw [bankPointer_general hr hb]
  rfl

theorem armWriteRegister_pc (p : ArmCore) (v : Word) :
    armWriteRegister p PC v = .ok (p.setCell (bankCell PC 0) v) := by
  unfold armWriteRegister armWriteRegisterInternal
  rw [registersWrite_eq, bankPointer_pc (getReadWriteMode_lt _)]
  rfl

theorem armReadSpsr_eq {p : ArmCore} (h : 2 ≤ p.bank) :
    armReadSpsr p = .ok (p.reg.get (bankCell SPSR p.bank)) := by
  unfold armReadSpsr registersReadSpsr
  rw [registersRead_eq]
  change bankPointer SPSR p.bank >>= _ = _
  rw [bankPointer_spsr h (Registers.bank_lt _)]
  rfl

theorem armReadSpsr_null {p : ArmCore} (h : p.bank < 2) :
    armReadSpsr p = .error .nullPointer := by
  unfold armReadSpsr registersReadSpsr
  rw [registersRead_eq]
  change bankPointer SPSR p.bank >>= _ = _
  rw [bankPointer_spsr_null h]
  rfl

theorem armWriteSpsr_eq {p : ArmCore} (h : 2 ≤ p.bank) (v : Word) :
    armWriteSpsr p v = .ok (p.setCell (bankCell SPSR p.bank) v) := by
  have hs : registersModeHasSpsr (registersGetMode p.reg) = true :=
    (registersCurrentModeHasSpsr_iff p.reg).mpr h
  unfold armWriteSpsr registersWriteSpsr
  rw [if_pos hs, registersWrite_eq]
  change (bankPointer SPSR p.bank >>= _) >>= _ = _
  rw [bankPointer_spsr h (Registers.bank_lt _)]
  rfl

omit [Platform] in
@[simp] theorem armWriteCpsr_cpsr (p : ArmCore) (v : Word) : (armWriteCpsr p v).cpsr = v := by
  simp [armWriteCpsr, ArmCore.cpsr, registersReadCpsr, registersWriteCpsr]

omit [Platform] in
/-- The bank is the CPSR cell's. -/
theorem bank_congr {p q : ArmCore} (h : q.reg cpsrCell = p.reg cpsrCell) : q.bank = p.bank :=
  Registers.bank_congr (congrArg (fun x : Word => x.toNat % 2^6) h)

section setCell
variable (p : ArmCore) {c c' : Cell} (v : Word)

theorem setCell_cpsr (h : cpsrCell ≠ c) : (p.setCell c v).cpsr = p.cpsr :=
  Registers.set_of_ne p.reg v h

theorem setCell_bank (h : cpsrCell ≠ c) : (p.setCell c v).bank = p.bank :=
  bank_congr (setCell_cpsr p v h)

theorem setCell_cell (h : c' ≠ c) : (p.setCell c v).reg c' = p.reg c' :=
  Registers.set_of_ne p.reg v h

end setCell

theorem setGp_bank {p : ArmCore} {reg : ℕ} (hr : reg < 16) (hb : p.bank < 6) (v : Word) :
    (p.setGp reg v).bank = p.bank :=
  setCell_bank p v (bankCell_ne_cpsr hr hb).symm

theorem operand_of_ne {p : ArmCore} {reg : ℕ} (h : reg ≠ 15) : p.operand reg = p.gp reg :=
  if_neg h

theorem operand_congr {p q : ArmCore} (h : q.reg = p.reg) (reg : ℕ) :
    q.operand reg = p.operand reg := by
  simp only [ArmCore.operand, ArmCore.gp, ArmCore.bank, h]

theorem gp_setGp_self (p : ArmCore) {reg : ℕ} (hr : reg < 16) (hb : p.bank < 6) (v : Word) :
    (p.setGp reg v).gp reg = v := by
  have hbank : (p.setGp reg v).bank = p.bank := setCell_bank p v (bankCell_ne_cpsr hr hb).symm
  rw [ArmCore.gp, hbank]
  exact Registers.get_set_self _ _ _

theorem gp_setGp_of_ne (p : ArmCore) {reg reg' : ℕ} (hr : reg < 16) (hr' : reg' < 16)
    (hb : p.bank < 6) (h : reg' ≠ reg) (v : Word) : (p.setGp reg v).gp reg' = p.gp reg' := by
  have hbank : (p.setGp reg v).bank = p.bank := setCell_bank p v (bankCell_ne_cpsr hr hb).symm
  rw [ArmCore.gp, hbank]
  exact Registers.get_set_of_ne _ _ (bankCell_ne hr' hr hb hb h)

omit [Platform] in
theorem armWriteCpsr_cell (p : ArmCore) (v : Word) {c : Cell} (h : c ≠ cpsrCell) :
    (armWriteCpsr p v).reg c = p.reg c := Function.update_of_ne h _ _

/-- Register `reg` has a cell in the current mode: the fast interrupt's `r13` and `r14`
have none. -/
def ArmCore.HasCell (p : ArmCore) (reg : ℕ) : Prop := p.bank = 6 → reg ≠ SP ∧ reg ≠ LR

instance (p : ArmCore) (reg : ℕ) : Decidable (p.HasCell reg) :=
  inferInstanceAs (Decidable (p.bank = 6 → _))

omit [Platform] in
theorem bankPointer_hasCell {p : ArmCore} {reg : ℕ} (hr : reg < 16) (h : p.HasCell reg) :
    bankPointer reg p.bank = .ok (bankCell reg p.bank) := by
  have hlt : p.bank < 7 := p.reg.bank_lt
  by_cases h6 : p.bank = 6
  · rw [h6, bankPointer_fiq hr, if_neg (fun ho => ho.elim (h h6).1 (h h6).2)]
  · exact bankPointer_general hr (by omega)

omit [Platform] in
theorem bankPointer_noCell {p : ArmCore} {reg : ℕ} (hr : reg < 16) (h : ¬p.HasCell reg) :
    bankPointer reg p.bank = .error .registerCell := by
  unfold ArmCore.HasCell at h
  have h6 : p.bank = 6 := by
    by_contra h6
    exact h (fun he => absurd he h6)
  have hreg : reg = SP ∨ reg = LR := by
    by_contra hn
    exact h (fun _ => not_or.mp hn)
  rw [h6, bankPointer_fiq hr, if_pos hreg]

omit [Platform] in
theorem hasCell_of_bank {p : ArmCore} (hb : p.bank < 6) (reg : ℕ) : p.HasCell reg := by
  intro h6
  omega

omit [Platform] in
/-- The cells of different registers are different, in the fast interrupt's mode too. -/
theorem bankCell_reg_hasCell {p : ArmCore} {reg : ℕ} (hr : reg < 16) (h : p.HasCell reg) :
    (bankCell reg p.bank).reg = reg :=
  bankPointer_reg (bankPointer_hasCell hr h)

omit [Platform] in
theorem bankCell_ne_cpsr_hasCell {p : ArmCore} {reg : ℕ} (hr : reg < 16) (h : p.HasCell reg) :
    bankCell reg p.bank ≠ cpsrCell := by
  intro he
  have hreg := bankCell_reg_hasCell hr h
  rw [he] at hreg
  exact absurd hreg (Nat.ne_of_gt hr)

theorem armReadRegister_hasCell {p : ArmCore} {reg : ℕ} (hr : reg < 16) (h : p.HasCell reg) :
    armReadRegister p reg = .ok (p.operand reg) := by
  unfold armReadRegister armReadRegisterInternal ArmCore.operand ArmCore.gp
  rw [registersRead_eq]
  change bankPointer reg p.bank >>= _ >>= _ = _
  rw [bankPointer_hasCell hr h]
  simp only [ok_bind]
  split <;> rfl

theorem armReadRegister_noCell {p : ArmCore} {reg : ℕ} (hr : reg < 16) (h : ¬p.HasCell reg) :
    armReadRegister p reg = .error .registerCell := by
  unfold armReadRegister armReadRegisterInternal
  rw [registersRead_eq]
  change bankPointer reg p.bank >>= _ >>= _ = _
  rw [bankPointer_noCell hr h]
  rfl

theorem armWriteRegister_hasCell {p : ArmCore} {reg : ℕ} (hr : reg < 16) (h : p.HasCell reg)
    (v : Word) : armWriteRegister p reg v = .ok (p.setGp reg v) := by
  unfold armWriteRegister armWriteRegisterInternal
  rw [registersWrite_eq]
  change (bankPointer reg p.bank >>= _) >>= _ = _
  rw [bankPointer_hasCell hr h]
  rfl

theorem armWriteRegister_noCell {p : ArmCore} {reg : ℕ} (hr : reg < 16) (h : ¬p.HasCell reg)
    (v : Word) : armWriteRegister p reg v = .error .registerCell := by
  unfold armWriteRegister armWriteRegisterInternal
  rw [registersWrite_eq]
  change (bankPointer reg p.bank >>= _) >>= _ = _
  rw [bankPointer_noCell hr h]
  rfl

theorem setGp_bank_hasCell {p : ArmCore} {reg : ℕ} (hr : reg < 16) (h : p.HasCell reg)
    (v : Word) : (p.setGp reg v).bank = p.bank :=
  setCell_bank p v (bankCell_ne_cpsr_hasCell hr h).symm

omit [Platform] in
/-- Which registers have cells depends on the bank only. -/
theorem hasCell_congr {p q : ArmCore} (h : q.bank = p.bank) (reg : ℕ) :
    q.HasCell reg ↔ p.HasCell reg := by
  unfold ArmCore.HasCell
  rw [h]

omit [Platform] in
theorem bankCell_ne_hasCell {p : ArmCore} {reg reg' : ℕ} (hr : reg < 16) (hr' : reg' < 16)
    (h : p.HasCell reg) (h' : p.HasCell reg') (hne : reg ≠ reg') :
    bankCell reg p.bank ≠ bankCell reg' p.bank := by
  intro he
  apply hne
  rw [← bankCell_reg_hasCell hr h, he, bankCell_reg_hasCell hr' h']

theorem gp_setGp_self_hasCell (p : ArmCore) {reg : ℕ} (hr : reg < 16) (h : p.HasCell reg)
    (v : Word) : (p.setGp reg v).gp reg = v := by
  rw [ArmCore.gp, setGp_bank_hasCell hr h]
  exact Registers.get_set_self _ _ _

theorem gp_setGp_of_ne_hasCell (p : ArmCore) {reg reg' : ℕ} (hr : reg < 16) (hr' : reg' < 16)
    (h : p.HasCell reg) (h' : p.HasCell reg') (hne : reg' ≠ reg) (v : Word) :
    (p.setGp reg v).gp reg' = p.gp reg' := by
  rw [ArmCore.gp, setGp_bank_hasCell hr h]
  exact Registers.get_set_of_ne _ _ (bankCell_ne_hasCell hr' hr h' h hne)

theorem setGp_gp (p : ArmCore) (reg : ℕ) : p.setGp reg (p.gp reg) = p :=
  congrArg (fun r => { p with reg := r }) (Registers.set_get _ _)

/-- The state after a fetch, whatever the fetch returns. -/
def ArmCore.advance (p : ArmCore) : ArmCore :=
  { p with reg := p.reg.set (bankCell PC 0) (p.pc + 4), cycleCount := p.cycleCount + 1 }

theorem armFetch_eq (p : ArmCore) (value : Word) :
    armFetch p value = (memoryReadWord p.mem p.pc value ENDIANESS >>= fun r =>
      .ok (r.1, r.2, p.advance)) := by
  -- r15 is shared by all modes, so the fetch cannot leave the cells.
  unfold armFetch
  simp only [registersRead_eq, registersWrite_eq, bankPointer_pc (getReadWriteMode_lt _), ok_bind]
  rfl

end ArmSim
