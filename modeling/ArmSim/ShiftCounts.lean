import ArmSim.Step
import ArmSim.Lib.Recorded

/-! The counts of the shifts behind a shifter operand.  The handlers are written once more with
every shift recorded, and with a host that decides what a shift past the width gives. -/
namespace ArmSim
open Lib Recorded

/-- What the host makes of shifts by counts that the language leaves undefined. -/
structure Host where
  left : Word → ℤ → Word
  right : Word → ℤ → Word

/-- A count for which the shift of a word is defined. -/
def InWidth (n : ℤ) : Prop := 0 ≤ n ∧ n ≤ 31

instance (n : ℤ) : Decidable (InWidth n) := inferInstanceAs (Decidable (_ ∧ _))

/-- A computation that records the counts of its shifts. -/
abbrev Shifting (α : Type) : Type := Recorded ℤ Crash α

namespace Watched
variable (host : Host)

def shiftLeft (x : Word) (n : ℤ) : Shifting Word := do
  record n
  return if InWidth n then x <<< n.toNat else host.left x n

def shiftRight (x : Word) (n : ℤ) : Shifting Word := do
  record n
  return if InWidth n then x >>> n.toNat else host.right x n

def getBit (x : Word) (i : ℤ) : Shifting ℕ := do
  let x ← shiftRight host x i
  return (x &&& 1#32).toNat

def getBits (x : Word) (h l : ℤ) : Shifting ℕ := do
  let ones ← shiftRight host (BitVec.allOnes 32) (h - l + 1)
  let ones ← shiftLeft host ones (h - l + 1)
  let x ← shiftRight host x l
  return (x &&& ~~~ones).toNat

-- The copies of the sign are moved only where the sign is set.
def asr (value : Word) (shift : ℕ) : Shifting Word := do
  let low ← shiftRight host value shift
  let sign ← getBit host value 31
  let high ← (if sign ≠ 0 then shiftLeft host (BitVec.allOnes 32) (32 - shift) else return 0)
  return low ||| high

def ror (value : Word) (rotation : ℕ) : Shifting Word := do
  let low ← shiftRight host value rotation
  let high ← shiftLeft host value (32 - rotation)
  return low ||| high

/-! A count that is known to lie inside the width is no matter of the host. -/

theorem shiftLeft_erases (x : Word) {c : ℤ} {n : ℕ} (hc : c = n) (hn : n < 32) :
    Erases InWidth (shiftLeft host x c) (.ok (x <<< n)) := by
  have hin : InWidth c := ⟨by omega, by omega⟩
  have hvalue : (if InWidth c then x <<< c.toNat else host.left x c) = x <<< n := by
    rw [if_pos hin, hc, Int.toNat_natCast]
  rw [← hvalue]
  exact (erases_record hin).then (erases_pure _)

theorem shiftRight_erases (x : Word) {c : ℤ} {n : ℕ} (hc : c = n) (hn : n < 32) :
    Erases InWidth (shiftRight host x c) (.ok (x >>> n)) := by
  have hin : InWidth c := ⟨by omega, by omega⟩
  have hvalue : (if InWidth c then x >>> c.toNat else host.right x c) = x >>> n := by
    rw [if_pos hin, hc, Int.toNat_natCast]
  rw [← hvalue]
  exact (erases_record hin).then (erases_pure _)

theorem getBit_erases (x : Word) {c : ℤ} {i : ℕ} (hc : c = i) (hi : i < 32) :
    Erases InWidth (getBit host x c) (.ok (ArmSim.getBit x i)) :=
  (shiftRight_erases host x hc hi).then (erases_pure _)

theorem getBits_erases (x : Word) {h l : ℕ} (hl : l ≤ h) (hh : h < 31) :
    Erases InWidth (getBits host x h l) (.ok (ArmSim.getBits x h l)) := by
  have hcount : (h - l + 1 : ℤ) = (h - l + 1 : ℕ) := by omega
  have hwidth : h - l + 1 < 32 := by omega
  apply (shiftRight_erases host _ hcount hwidth).then
  apply (shiftLeft_erases host _ hcount hwidth).then
  apply (shiftRight_erases host x rfl (by omega)).then
  exact erases_pure _

-- The count 32 - n stays inside the width only for n above zero.
theorem asr_erases (value : Word) {n : ℕ} (h0 : 0 < n) (hn : n < 32) :
    Erases InWidth (asr host value n) (.ok (ArmSim.asr value n)) := by
  have hcopies : (32 - n : ℤ) = (32 - n : ℕ) := by omega
  apply (shiftRight_erases host value rfl hn).then
  apply (getBit_erases host value rfl (by decide)).then
  apply Erases.then (erases_ite _ _)
  · exact erases_pure _
  · intro _
    exact shiftLeft_erases host _ hcopies (by omega)
  · intro _
    exact erases_pure 0

theorem ror_erases (value : Word) {n : ℕ} (h0 : 0 < n) (hn : n < 32) :
    Erases InWidth (ror host value n) (.ok (ArmSim.ror value n)) := by
  have hback : (32 - n : ℤ) = (32 - n : ℕ) := by omega
  apply (shiftRight_erases host value rfl hn).then
  apply (shiftLeft_erases host value hback (by omega)).then
  exact erases_pure _

def registersGetMode (r : Registers) : Shifting ℕ := getBits host (registersReadCpsr r) 5 0

def getShifterOperandImmediateShift (shiftImm shiftCode : ℕ) (RmValue shifterOperand : Word)
    (shiftCarryOut : ℕ) (cpsr : Word) : Shifting (Word × ℕ) :=
  match shiftCode with
  | Shift.LSL =>
    if shiftImm = 0 then return (RmValue, ← getBit host cpsr Flag.C)
    else return (← shiftLeft host RmValue shiftImm, ← getBit host RmValue (32 - shiftImm))
  | Shift.LSR =>
    if shiftImm = 0 then return (RmValue, ← getBit host cpsr 31)
    else return (← shiftRight host RmValue shiftImm, ← getBit host RmValue (shiftImm - 1))
  | Shift.ASR =>
    if shiftImm = 0 then
      return (if (← getBit host RmValue 31) = 0 then 0 else 0xFFFFFFFF, ← getBit host RmValue 31)
    else return (← asr host RmValue shiftImm, ← getBit host RmValue (shiftImm - 1))
  | Shift.ROR =>
    -- The rotation by zero does not reach `ror`.
    if shiftImm = 0 then
      return ((← shiftLeft host cpsr 31) ||| (← shiftRight host RmValue 1),
        ← getBit host RmValue 0)
    else return (← ror host RmValue shiftImm, ← getBit host RmValue (shiftImm - 1))
  | _ => return (shifterOperand, shiftCarryOut)

def getShifterOperandRegisterShift (shiftCode : ℕ) (RmValue RsValue shifterOperand : Word)
    (shiftCarryOut : ℕ) (cpsr : Word) : Shifting (Word × ℕ) := do
  let RsSignificantBits ← getBits host RsValue 7 0
  match shiftCode with
  | Shift.LSL =>
    if RsSignificantBits = 0 then return (RmValue, ← getBit host cpsr Flag.C)
    else if RsSignificantBits < 32 then
      return (← shiftLeft host RmValue RsSignificantBits,
        ← getBit host RmValue (32 - RsSignificantBits))
    else if RsSignificantBits = 32 then return (0, ← getBit host RmValue 0)
    else return (0, 0)
  | Shift.LSR =>
    if RsSignificantBits = 0 then return (RmValue, ← getBit host cpsr Flag.C)
    else if RsSignificantBits < 32 then
      return (← shiftRight host RmValue RsSignificantBits,
        ← getBit host RmValue (RsSignificantBits - 1))
    else if RsSignificantBits = 32 then return (0, ← getBit host RmValue 31)
    else return (0, 0)
  | Shift.ASR =>
    if RsSignificantBits = 0 then return (RmValue, ← getBit host cpsr Flag.C)
    else if RsSignificantBits < 32 then
      return (← asr host RmValue RsSignificantBits, ← getBit host RmValue (RsSignificantBits - 1))
    else
      return (if (← getBit host RmValue 31) = 0 then 0 else 0xFFFFFFFF, ← getBit host RmValue 31)
  | Shift.ROR =>
    if RsSignificantBits = 0 then return (RmValue, ← getBit host cpsr Flag.C)
    else if (← getBits host RsValue 4 0) = 0 then return (RmValue, ← getBit host RmValue 31)
    else
      return (← ror host RmValue (← getBits host RsValue 4 0),
        ← getBit host RmValue ((← getBits host RsValue 4 0) - 1))
  | _ => return (shifterOperand, shiftCarryOut)

/-- A word rotated by zero places is shifted back by the whole width. -/
theorem ror_zero (value : Word) : ¬Always InWidth (ror host value 0) := by
  intro h
  have hback : Always InWidth (shiftLeft host value (32 - (0 : ℕ))) :=
    (h.rest (shiftRight_erases host value (n := 0) rfl (by decide)).result).first
  exact absurd (hback.first _ (List.mem_singleton_self _)) (by decide)

theorem registersGetMode_erases (r : Registers) :
    Erases InWidth (registersGetMode host r) (.ok (ArmSim.registersGetMode r)) :=
  getBits_erases host (registersReadCpsr r) (h := 5) (l := 0) (by omega) (by omega)

theorem getShifterOperandImmediateShift_erases {shiftImm : ℕ} (hs : shiftImm < 32)
    (shiftCode : ℕ) (x o : Word) (sc : ℕ) (cpsr : Word) :
    Erases InWidth (getShifterOperandImmediateShift host shiftImm shiftCode x o sc cpsr)
      (.ok (ArmSim.getShifterOperandImmediateShift shiftImm shiftCode x o sc cpsr)) := by
  have hbit {i : ℕ} (hi : i < 32) := getBit_erases host x (c := i) rfl hi
  have hflag {i : ℕ} (hi : i < 32) := getBit_erases host cpsr (c := i) rfl hi
  have hleft (h0 : shiftImm ≠ 0) := getBit_erases host x (c := 32 - shiftImm)
    (i := 32 - shiftImm) (by omega) (by omega)
  have hright (h0 : shiftImm ≠ 0) := getBit_erases host x (c := shiftImm - 1)
    (i := shiftImm - 1) (by omega) (by omega)
  match shiftCode with
  | Shift.LSL =>
    apply erases_ite
    · intro _
      exact (hflag (by decide)).then (erases_pure _)
    · intro h0
      apply (shiftLeft_erases host x rfl hs).then
      exact (hleft h0).then (erases_pure _)
  | Shift.LSR =>
    apply erases_ite
    · intro _
      exact (hflag (by decide)).then (erases_pure _)
    · intro h0
      apply (shiftRight_erases host x rfl hs).then
      exact (hright h0).then (erases_pure _)
  | Shift.ASR =>
    apply erases_ite
    · intro _
      exact (hbit (by decide)).then ((hbit (by decide)).then (erases_pure _))
    · intro h0
      apply (asr_erases host x (Nat.pos_of_ne_zero h0) hs).then
      exact (hright h0).then (erases_pure _)
  | Shift.ROR =>
    apply erases_ite
    · intro _
      apply (shiftLeft_erases host cpsr (n := 31) rfl (by decide)).then
      apply (shiftRight_erases host x (n := 1) rfl (by decide)).then
      exact (hbit (by decide)).then (erases_pure _)
    · intro h0
      apply (ror_erases host x (Nat.pos_of_ne_zero h0) hs).then
      exact (hright h0).then (erases_pure _)
  | _ + 4 => exact erases_pure _

theorem getShifterOperandRegisterShift_erases (shiftCode : ℕ) (x y o : Word) (sc : ℕ)
    (cpsr : Word) :
    Erases InWidth (getShifterOperandRegisterShift host shiftCode x y o sc cpsr)
      (.ok (ArmSim.getShifterOperandRegisterShift shiftCode x y o sc cpsr)) := by
  have hrotation : ArmSim.getBits y 4 0 < 32 := getBits_lt y 4 0
  have hamount := getBits_erases host y (h := 7) (l := 0) (by omega) (by omega)
  have hlow := getBits_erases host y (h := 4) (l := 0) (by omega) (by omega)
  have hbit {i : ℕ} (hi : i < 32) := getBit_erases host x (c := i) rfl hi
  have hcarry := getBit_erases host cpsr (c := Flag.C) rfl (by decide)
  have hleft {n : ℕ} (h0 : n ≠ 0) (hn : n < 32) := getBit_erases host x (c := 32 - n)
    (i := 32 - n) (by omega) (by omega)
  have hright {n : ℕ} (h0 : n ≠ 0) (hn : n < 32) := getBit_erases host x (c := n - 1)
    (i := n - 1) (by omega) (by omega)
  apply hamount.then
  unfold ArmSim.getShifterOperandRegisterShift
  generalize ArmSim.getBits y 7 0 = n
  -- Where an amount is used as a count, the tests before it have bounded it.
  match shiftCode with
  | Shift.LSL =>
    apply erases_ite
    · intro _
      exact hcarry.then (erases_pure _)
    intro h0
    apply erases_ite
    · intro hn
      apply (shiftLeft_erases host x rfl hn).then
      exact (hleft h0 hn).then (erases_pure _)
    intro _
    apply erases_ite
    · intro _
      exact (hbit (by decide)).then (erases_pure _)
    · intro _
      exact erases_pure _
  | Shift.LSR =>
    apply erases_ite
    · intro _
      exact hcarry.then (erases_pure _)
    intro h0
    apply erases_ite
    · intro hn
      apply (shiftRight_erases host x rfl hn).then
      exact (hright h0 hn).then (erases_pure _)
    intro _
    apply erases_ite
    · intro _
      exact (hbit (by decide)).then (erases_pure _)
    · intro _
      exact erases_pure _
  | Shift.ASR =>
    apply erases_ite
    · intro _
      exact hcarry.then (erases_pure _)
    intro h0
    apply erases_ite
    · intro hn
      apply (asr_erases host x (Nat.pos_of_ne_zero h0) hn).then
      exact (hright h0 hn).then (erases_pure _)
    · intro _
      exact (hbit (by decide)).then ((hbit (by decide)).then (erases_pure _))
  | Shift.ROR =>
    apply erases_ite
    · intro _
      exact hcarry.then (erases_pure _)
    intro _
    apply hlow.then
    apply erases_ite
    · intro _
      exact (hbit (by decide)).then (erases_pure _)
    · intro hm
      apply hlow.then
      apply (ror_erases host x (Nat.pos_of_ne_zero hm) hrotation).then
      apply hlow.then
      exact (hright hm hrotation).then (erases_pure _)
  | _ + 4 => exact erases_pure _

variable [Platform]

def armReadRegister (p : ArmCore) (reg : ℕ) : Shifting Word := do
  let mode ← registersGetMode host p.reg
  silent (armReadRegisterInternal p reg mode)

def armDataProcessingImmediateShift (p : ArmCore) (ins cpsr : Word) :
    Shifting (ℤ × ArmCore) := do
  let S ← getBit host ins 20
  let shiftImm ← getBits host ins 11 7
  let shiftCode ← getBits host ins 6 5
  let Rm ← getBits host ins 3 0
  let RmValue ← armReadRegister host p Rm
  let (shifterOperand, shifterCarryOut) ←
    getShifterOperandImmediateShift host shiftImm shiftCode RmValue 0 0 cpsr
  silent (applyOperator p ins shifterOperand shifterCarryOut S cpsr)

def armDataProcessingRegisterShift (p : ArmCore) (ins cpsr : Word) :
    Shifting (ℤ × ArmCore) := do
  let S ← getBit host ins 20
  let shiftCode ← getBits host ins 6 5
  let Rm ← getBits host ins 3 0
  let RmValue ← armReadRegister host p Rm
  let Rs ← getBits host ins 11 8
  let RsValue ← armReadRegister host p Rs
  let (shifterOperand, shifterCarryOut) ←
    getShifterOperandRegisterShift host shiftCode RmValue RsValue 0 0 cpsr
  silent (applyOperator p ins shifterOperand shifterCarryOut S cpsr)

def armDataProcessingImmediate (p : ArmCore) (ins cpsr : Word) : Shifting (ℤ × ArmCore) := do
  let S ← getBit host ins 20
  let immed8 ← getBits host ins 7 0
  let rotateImm ← getBits host ins 11 8
  -- The field is compared with zero only for the carry.
  let shifterOperand ← ror host (BitVec.ofNat 32 immed8) (rotateImm * 2)
  let shifterCarryOut ←
    (if rotateImm = 0 then getBit host cpsr Flag.C else getBit host shifterOperand 31)
  silent (applyOperator p ins shifterOperand shifterCarryOut S cpsr)

theorem armReadRegister_erases (p : ArmCore) (reg : ℕ) :
    Erases InWidth (armReadRegister host p reg) (ArmSim.armReadRegister p reg) :=
  (registersGetMode_erases host p.reg).then (erases_silent _)

section handlers
variable (p : ArmCore) (ins cpsr : Word)

theorem armDataProcessingImmediateShift_erases :
    Erases InWidth (armDataProcessingImmediateShift host p ins cpsr)
      (ArmSim.armDataProcessingImmediateShift p ins cpsr) := by
  have hamount : ArmSim.getBits ins 11 7 < 32 := getBits_lt ins 11 7
  apply (getBit_erases host ins (i := 20) rfl (by decide)).then
  apply (getBits_erases host ins (h := 11) (l := 7) (by omega) (by omega)).then
  apply (getBits_erases host ins (h := 6) (l := 5) (by omega) (by omega)).then
  apply (getBits_erases host ins (h := 3) (l := 0) (by omega) (by omega)).then
  apply (armReadRegister_erases host p _).bind
  intro x _
  apply (getShifterOperandImmediateShift_erases host hamount _ x 0 0 cpsr).then
  exact erases_silent _

theorem armDataProcessingRegisterShift_erases :
    Erases InWidth (armDataProcessingRegisterShift host p ins cpsr)
      (ArmSim.armDataProcessingRegisterShift p ins cpsr) := by
  apply (getBit_erases host ins (i := 20) rfl (by decide)).then
  apply (getBits_erases host ins (h := 6) (l := 5) (by omega) (by omega)).then
  apply (getBits_erases host ins (h := 3) (l := 0) (by omega) (by omega)).then
  apply (armReadRegister_erases host p _).bind
  intro x _
  apply (getBits_erases host ins (h := 11) (l := 8) (by omega) (by omega)).then
  apply (armReadRegister_erases host p _).bind
  intro y _
  apply (getShifterOperandRegisterShift_erases host _ x y 0 0 cpsr).then
  exact erases_silent _

theorem armDataProcessingImmediate_erases (h0 : ArmSim.getBits ins 11 8 ≠ 0) :
    Erases InWidth (armDataProcessingImmediate host p ins cpsr)
      (ArmSim.armDataProcessingImmediate p ins cpsr) := by
  have hfield : ArmSim.getBits ins 11 8 < 16 := getBits_lt ins 11 8
  apply (getBit_erases host ins (i := 20) rfl (by decide)).then
  apply (getBits_erases host ins (h := 7) (l := 0) (by omega) (by omega)).then
  apply (getBits_erases host ins (h := 11) (l := 8) (by omega) (by omega)).then
  apply (ror_erases host _ (n := ArmSim.getBits ins 11 8 * 2) (by omega) (by omega)).then
  apply Erases.then (erases_ite _ _)
  · exact erases_silent _
  · intro _
    exact getBit_erases host cpsr (c := Flag.C) rfl (by decide)
  · intro _
    exact getBit_erases host _ (i := 31) rfl (by decide)

end handlers

end Watched

/-- The forms in which a data-processing instruction gives its second operand. -/
inductive OperandForm
  | immediate
  | immediateShift
  | registerShift
  deriving DecidableEq

section forms
variable [Platform]

def OperandForm.handler : OperandForm → ArmCore → Word → Word → Except Crash (ℤ × ArmCore)
  | .immediate => armDataProcessingImmediate
  | .immediateShift => armDataProcessingImmediateShift
  | .registerShift => armDataProcessingRegisterShift

def OperandForm.watched (host : Host) :
    OperandForm → ArmCore → Word → Word → Shifting (ℤ × ArmCore)
  | .immediate => Watched.armDataProcessingImmediate host
  | .immediateShift => Watched.armDataProcessingImmediateShift host
  | .registerShift => Watched.armDataProcessingRegisterShift host

/-- Every shift behind the operand has a defined count, and the host has no part in the result. -/
structure ShiftsDefined (form : OperandForm) (p : ArmCore) (ins cpsr : Word) : Prop where
  counts : ∀ host, Always InWidth (form.watched host p ins cpsr)
  independent : ∀ host, (form.watched host p ins cpsr).result = form.handler p ins cpsr

variable {p : ArmCore} {ins cpsr : Word}

theorem shiftsDefined_of_erases {form : OperandForm}
    (h : ∀ host, Erases InWidth (form.watched host p ins cpsr) (form.handler p ins cpsr)) :
    ShiftsDefined form p ins cpsr :=
  ⟨fun host => (h host).always, fun host => (h host).result⟩

/-- An immediate that is not rotated goes through a rotation all the same. -/
theorem unrotated_not_always (host : Host) (h0 : getBits ins 11 8 = 0) :
    ¬Always InWidth (Watched.armDataProcessingImmediate host p ins cpsr) := by
  intro h
  have hS := Watched.getBit_erases host ins (i := 20) rfl (by decide)
  have himmed := Watched.getBits_erases host ins (h := 7) (l := 0) (by omega) (by omega)
  have hrotate := Watched.getBits_erases host ins (h := 11) (l := 8) (by omega) (by omega)
  have hror := (((h.rest hS.result).rest himmed.result).rest hrotate.result).first
  rw [h0] at hror
  exact Watched.ror_zero host _ hror

/-- Every count is defined if and only if the operand is no immediate or one that is rotated. -/
theorem defined_shifts_iff (form : OperandForm) (p : ArmCore) (ins cpsr : Word) :
    ShiftsDefined form p ins cpsr ↔ (form = .immediate → getBits ins 11 8 ≠ 0) := by
  constructor
  · intro h hform h0
    subst hform
    exact unrotated_not_always ⟨fun x _ => x, fun x _ => x⟩ h0 (h.counts _)
  · intro h
    apply shiftsDefined_of_erases
    intro host
    cases form with
    | immediate => exact Watched.armDataProcessingImmediate_erases host p ins cpsr (h rfl)
    | immediateShift => exact Watched.armDataProcessingImmediateShift_erases host p ins cpsr
    | registerShift => exact Watched.armDataProcessingRegisterShift_erases host p ins cpsr

end forms

/-- `r0` after `MOV r0, #1` on a booted core, where the host shifts left its own way. -/
def movedOne (left : Word → ℤ → Word) : Except Crash Word :=
  (@Watched.armDataProcessingImmediate ⟨left, fun x _ => x⟩ makefile (ArmCore.boot 0x10 [])
    0xE3A00001 0x10).result.map fun r => @ArmCore.gp makefile r.2 0

/-- `MOV r0, #1` shifts its operand left by 32.  It moves 1 where the host shifts by the count
modulo 32, and another word where the host makes something else of it. -/
theorem defined_shifts_mov :
    (∀ env cpsr, @armFetchCodeInst makefile env (ArmCore.boot 0x10 []) 0xE3A00001 cpsr =
      @OperandForm.handler makefile .immediate (ArmCore.boot 0x10 []) 0xE3A00001 cpsr) ∧
    ¬@ShiftsDefined makefile .immediate (ArmCore.boot 0x10 []) 0xE3A00001 0x10 ∧
    movedOne (fun x n => x <<< (n % 32).toNat) = .ok 1 ∧
    movedOne (fun _ _ => 0xFFFFFFFF) = .ok 0xFFFFFFFF := by
  refine ⟨?_, ?_, ?_, ?_⟩
  · intro env cpsr
    exact @decode_immediate makefile env _ _ cpsr (by decide) (by decide)
  · intro h
    have hcounts := @ShiftsDefined.counts makefile _ _ _ _ h ⟨fun x _ => x, fun x _ => x⟩
    exact @unrotated_not_always makefile _ _ _ _ (by decide) hcounts
  · decide +kernel
  · decide +kernel

end ArmSim
