import ArmSim.Util
import Mathlib.Logic.Function.Basic

/-! `registers.c`: eighteen registers, each a few cells and a table of pointers
into them, one pointer for each of the seven modes. -/
namespace ArmSim
open Lib

namespace Mode
@[match_pattern] abbrev USR : ℕ := 0x10
@[match_pattern] abbrev FIQ : ℕ := 0x11
@[match_pattern] abbrev IRQ : ℕ := 0x12
@[match_pattern] abbrev SVC : ℕ := 0x13
@[match_pattern] abbrev ABT : ℕ := 0x17
@[match_pattern] abbrev UND : ℕ := 0x1b
@[match_pattern] abbrev SYS : ℕ := 0x1f
end Mode

abbrev N_REGISTRES : ℕ := 18
abbrev N_MODES : ℕ := 7
abbrev SP : ℕ := 13
abbrev LR : ℕ := 14
abbrev PC : ℕ := 15
abbrev CPSR : ℕ := 16
abbrev SPSR : ℕ := 17

/-- The cells `registers_create` allocates for register `i`. -/
def callocSize (i : ℕ) : ℕ :=
  if i < N_REGISTRES then
    match i with
    | 8 | 9 | 10 | 11 | 12 => 2
    -- One cell for each of the modes 0 to 5, of which the second stays unused.
    | 13 | 14 => 6
    | 17 => 5
    | _ => 1
  else 0

/-- The pointers `registers_create` stores for register `i`: `some j` points to
`data[j]`, and `none` is `NULL`. -/
def registersCreatePtrs (i : ℕ) : List (Option ℕ) :=
  let ptrs : List (Option ℕ) := List.replicate N_MODES none
  match i with
  | 8 | 9 | 10 | 11 | 12 =>
    let ptrs := (List.range (N_MODES - 1)).foldl (fun ptrs j => ptrs.set j (some 0)) ptrs
    ptrs.set 6 (some 1)
  | 13 | 14 =>
    -- The last pointer, of mode 6, leads one past the six cells.
    let ptrs := (List.range' 2 (N_MODES - 2)).foldl (fun ptrs j => ptrs.set j (some j)) ptrs
    (ptrs.set 0 (some 0)).set 1 (some 0)
  | 17 =>
    -- The modes 0 and 1 have no SPSR.
    let ptrs := (ptrs.set 0 none).set 1 none
    (List.range' 2 (N_MODES - 2)).foldl (fun ptrs j => ptrs.set j (some (j - 2))) ptrs
  | _ => (List.range N_MODES).foldl (fun ptrs j => ptrs.set j (some 0)) ptrs

/-- An allocated cell: register `reg`'s `data[index]`. -/
structure Cell where
  reg : ℕ
  index : ℕ
  allocated : index < callocSize reg
deriving DecidableEq

/-- The contents of every allocated cell; the pointers never change. -/
abbrev Registers := Cell → Word

/-- `registers_create` clears the cells. -/
def registersCreate : Registers := fun _ => 0

/-- Follow `r->reg[reg].ptrs[m]`. -/
def bankPointer (reg m : ℕ) : Except Crash Cell :=
  match (registersCreatePtrs reg)[m]? with
  | some (some j) =>
    if h : j < callocSize reg then .ok ⟨reg, j, h⟩ else .error .registerCell
  | some none => .error .nullPointer
  | none => .error .registerCell

def getReadWriteMode (mode : ℕ) : ℕ :=
  match mode with
  | Mode.USR => 0
  | Mode.SYS => 1
  | Mode.SVC => 2
  | Mode.ABT => 3
  | Mode.UND => 4
  | Mode.IRQ => 5
  | Mode.FIQ => 6
  -- A value that names no mode selects the user bank.
  | _ => 0

def cpsrCell : Cell := ⟨CPSR, 0, by decide⟩

def registersReadCpsr (r : Registers) : Word := r cpsrCell

def registersWriteCpsr (r : Registers) (value : Word) : Registers :=
  Function.update r cpsrCell value

-- Six bits, so that a set T bit makes the mode unknown.
def registersGetMode (r : Registers) : ℕ := getBits (registersReadCpsr r) 5 0

def registersModeHasSpsr (mode : ℕ) : Bool := 2 ≤ getReadWriteMode mode

def registersCurrentModeHasSpsr (r : Registers) : Bool :=
  registersModeHasSpsr (registersGetMode r)

def registersInAPrivilegedMode (r : Registers) : Bool := registersGetMode r ≠ Mode.USR

section access
variable [Platform]

def registersRead (r : Registers) (reg mode : ℕ) : Except Crash Word := do
  let m := getReadWriteMode mode
  let cell ← bankPointer reg m
  return if Platform.isBigEndian then r cell else switchEndian (r cell)

def registersReadSpsr (r : Registers) (mode : ℕ) : Except Crash Word :=
  registersRead r SPSR mode

def registersWrite (r : Registers) (reg mode : ℕ) (value : Word) : Except Crash Registers := do
  let m := getReadWriteMode mode
  let cell ← bankPointer reg m
  return Function.update r cell (if Platform.isBigEndian then value else switchEndian value)

def registersWriteSpsr (r : Registers) (mode : ℕ) (value : Word) : Except Crash Registers :=
  if registersModeHasSpsr mode then registersWrite r SPSR mode value else .ok r

end access

/-- The table `registers_create` builds, in closed form. -/
def bankIndex (reg m : ℕ) : ℕ :=
  if 8 ≤ reg ∧ reg ≤ 12 then (if m = 6 then 1 else 0)
  else if reg = 13 ∨ reg = 14 then (if m < 2 then 0 else m)
  else if reg = 17 then m - 2
  else 0

def bankCell (reg m : ℕ) : Cell :=
  if h : bankIndex reg m < callocSize reg then ⟨reg, bankIndex reg m, h⟩ else cpsrCell

theorem getReadWriteMode_lt (mode : ℕ) : getReadWriteMode mode < N_MODES := by
  unfold getReadWriteMode
  split <;> decide

theorem bankPointer_general {reg m : ℕ} (hr : reg < 16) (hm : m < 6) :
    bankPointer reg m = .ok (bankCell reg m) := by
  have h : ∀ reg < 16, ∀ m < 6, bankPointer reg m = .ok (bankCell reg m) := by decide
  exact h reg hr m hm

theorem bankPointer_pc {m : ℕ} (hm : m < 7) : bankPointer PC m = .ok (bankCell PC m) := by
  have h : ∀ m < 7, bankPointer PC m = .ok (bankCell PC m) := by decide
  exact h m hm

/-- The fast-interrupt bank: the pointers of its `r13` and `r14` lie past the
six cells allocated for each. -/
theorem bankPointer_fiq {reg : ℕ} (hr : reg < 16) :
    bankPointer reg 6 =
      if reg = SP ∨ reg = LR then .error .registerCell else .ok (bankCell reg 6) := by
  have h : ∀ reg < 16, bankPointer reg 6 =
      if reg = SP ∨ reg = LR then .error .registerCell else .ok (bankCell reg 6) := by decide
  exact h reg hr

theorem bankPointer_spsr {m : ℕ} (h2 : 2 ≤ m) (hm : m < 7) :
    bankPointer SPSR m = .ok (bankCell SPSR m) := by
  have h : ∀ m < 7, 2 ≤ m → bankPointer SPSR m = .ok (bankCell SPSR m) := by decide
  exact h m hm h2

theorem bankPointer_spsr_null {m : ℕ} (hm : m < 2) :
    bankPointer SPSR m = .error .nullPointer := by
  have h : ∀ m < 2, bankPointer SPSR m = .error .nullPointer := by decide
  exact h m hm

/-- A pointer of register `reg` points to a cell of register `reg`. -/
theorem bankPointer_reg {reg m : ℕ} {c : Cell} (h : bankPointer reg m = .ok c) :
    c.reg = reg := by
  unfold bankPointer at h
  split at h
  · split at h
    · cases h
      rfl
    · cases h
  · cases h
  · cases h

/-- No general register has a `NULL` pointer. -/
theorem bankPointer_ends {reg m : ℕ} (hr : reg < 16) (hm : m < 7) :
    Ends (bankPointer reg m) (· = bankCell reg m) (· = .registerCell) := by
  by_cases h6 : m < 6
  · rw [bankPointer_general hr h6]
    rfl
  · have hm6 : m = 6 := by omega
    subst hm6
    rw [bankPointer_fiq hr]
    split <;> rfl

theorem bankCell_reg {reg m : ℕ} (hr : reg < 16) (hm : m < 6) : (bankCell reg m).reg = reg := by
  have h : ∀ reg < 16, ∀ m < 6, (bankCell reg m).reg = reg := by decide
  exact h reg hr m hm

/-- The cells the user bank is made of. -/
theorem bankCell_user_index {reg m : ℕ} (hr : reg < 16) (hm : m < 2) :
    (bankCell reg m).index = 0 := by
  have h : ∀ reg < 16, ∀ m < 2, (bankCell reg m).index = 0 := by decide
  exact h reg hr m hm

theorem bankCell_ne {reg reg' m m' : ℕ} (hr : reg < 16) (hr' : reg' < 16) (hm : m < 6)
    (hm' : m' < 6) (h : reg ≠ reg') : bankCell reg m ≠ bankCell reg' m' := by
  intro he
  apply h
  rw [← bankCell_reg hr hm, ← bankCell_reg hr' hm', he]

theorem bankCell_ne_cpsr {reg m : ℕ} (hr : reg < 16) (hm : m < 6) :
    bankCell reg m ≠ cpsrCell := by
  intro he
  have h := bankCell_reg hr hm
  rw [he] at h
  have hc : cpsrCell.reg = 16 := rfl
  omega

theorem bankCell_ne_pc {reg m : ℕ} (hr : reg < 15) (hm : m < 6) :
    bankCell reg m ≠ bankCell PC 0 :=
  bankCell_ne (by omega) (by decide) hm (by decide) (show reg ≠ 15 by omega)

theorem cpsrCell_ne_pc : cpsrCell ≠ bankCell PC 0 := by decide

section values
variable [Platform] (r : Registers) (c : Cell) (v : Word)

/-- A cell's content in the byte order registers are read and written in. -/
def Registers.get : Word := if Platform.isBigEndian then r c else switchEndian (r c)

def Registers.set : Registers :=
  Function.update r c (if Platform.isBigEndian then v else switchEndian v)

@[simp] theorem Registers.get_set_self : (Registers.set r c v).get c = v := by
  unfold get set
  split <;> simp [*, switchEndian_switchEndian]

theorem Registers.get_set_of_ne {c c' : Cell} (h : c' ≠ c) :
    (Registers.set r c v).get c' = Registers.get r c' := by
  unfold get set
  simp [h]

/-- Writing back what was read changes nothing. -/
theorem Registers.set_get : Registers.set r c (Registers.get r c) = r := by
  unfold get set
  split <;> simp [*, switchEndian_switchEndian]

theorem Registers.set_of_ne {c c' : Cell} (h : c' ≠ c) : (Registers.set r c v) c' = r c' := by
  unfold set
  simp [h]

theorem Registers.get_congr {r r' : Registers} {c : Cell} (h : r' c = r c) :
    Registers.get r' c = Registers.get r c := by
  unfold get
  rw [h]

/-- Reading turns the bytes of a cell round or leaves them, and so loses nothing. -/
theorem Registers.get_injective {r r' : Registers} {c : Cell}
    (h : Registers.get r c = Registers.get r' c) : r c = r' c := by
  unfold Registers.get at h
  split at h
  · exact h
  · rw [← switchEndian_switchEndian (r c), h, switchEndian_switchEndian]

theorem registersRead_eq (r : Registers) (reg mode : ℕ) :
    registersRead r reg mode =
      (bankPointer reg (getReadWriteMode mode) >>= fun c => .ok (Registers.get r c)) := rfl

theorem registersWrite_eq (r : Registers) (reg mode : ℕ) (value : Word) :
    registersWrite r reg mode value =
      (bankPointer reg (getReadWriteMode mode) >>= fun c => .ok (Registers.set r c value)) := rfl

end values

/-- The bank the current mode selects. -/
def Registers.bank (r : Registers) : ℕ := getReadWriteMode (registersGetMode r)

theorem Registers.bank_lt (r : Registers) : r.bank < 7 := getReadWriteMode_lt _

theorem registersCurrentModeHasSpsr_iff (r : Registers) :
    registersCurrentModeHasSpsr r = true ↔ 2 ≤ r.bank := by
  simp [registersCurrentModeHasSpsr, registersModeHasSpsr, Registers.bank]

/-- The bank that a CPSR selects. -/
def bankOf (cpsr : Word) : ℕ := getReadWriteMode (getBits cpsr 5 0)

/-- Two banks have the same `r13` and `r14`. -/
def SameStack (m m' : ℕ) : Prop := m = m' ∨ m < 2 ∧ m' < 2

instance (m m' : ℕ) : Decidable (SameStack m m') := inferInstanceAs (Decidable (_ ∨ _))

theorem bankCell_banked {reg m m' : ℕ} (hreg : reg = SP ∨ reg = LR) (hm : m < 6) (hm' : m' < 6) :
    bankCell reg m = bankCell reg m' ↔ SameStack m m' := by
  have hall : ∀ m < 6, ∀ m' < 6, (bankCell SP m = bankCell SP m' ↔ m = m' ∨ m < 2 ∧ m' < 2) ∧
      (bankCell LR m = bankCell LR m' ↔ m = m' ∨ m < 2 ∧ m' < 2) := by decide
  rcases hreg with rfl | rfl
  · exact (hall m hm m' hm').1
  · exact (hall m hm m' hm').2

theorem bankCell_shared {reg m m' : ℕ} (hreg : reg < 16) (hsp : reg ≠ SP) (hlr : reg ≠ LR)
    (hm : m < 6) (hm' : m' < 6) : bankCell reg m = bankCell reg m' := by
  have hall : ∀ reg < 16, reg ≠ SP → reg ≠ LR → ∀ m < 6, ∀ m' < 6,
      bankCell reg m = bankCell reg m' := by decide
  exact hall reg hreg hsp hlr m hm m' hm'

/-- The bank depends on the low bits of the CPSR only. -/
theorem Registers.bank_congr {r r' : Registers}
    (h : (registersReadCpsr r').toNat % 2^6 = (registersReadCpsr r).toNat % 2^6) :
    r'.bank = r.bank := by
  unfold bank registersGetMode
  simpa only [getBits_eq, Nat.pow_zero, Nat.div_one] using congrArg getReadWriteMode h

end ArmSim
