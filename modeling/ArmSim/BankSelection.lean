import ArmSim.Step

/-! Two register files that differ in the CPSR above its mode field: whether the same mode is
found, and the same cells are reached. -/
namespace ArmSim
open Lib

/-- The register files have the same cells but for the CPSR, and the same mode field in it. -/
structure SameModeField (p p' : ArmCore) : Prop where
  cells : ∀ c, c ≠ cpsrCell → p'.reg c = p.reg c
  field : getBits p'.cpsr 4 0 = getBits p.cpsr 4 0

/-- The cells other than the CPSR's. -/
def ArmCore.otherCells (p : ArmCore) (c : {c : Cell // c ≠ cpsrCell}) : Word := p.reg c

section selection
variable [Platform]

/-- The two machines find the same mode, ask the same of it and reach the same cells: a read
returns the same, and a write leaves the same. -/
structure SelectsAlike (p p' : ArmCore) : Prop where
  mode : registersGetMode p'.reg = registersGetMode p.reg
  hasSpsr : armCurrentModeHasSpsr p' = armCurrentModeHasSpsr p
  privileged : armInAPrivilegedMode p' = armInAPrivilegedMode p
  pointers : ∀ reg, bankPointer reg p'.bank = bankPointer reg p.bank
  read : ∀ reg < 16, armReadRegister p' reg = armReadRegister p reg
  write : ∀ reg < 16, ∀ v, (armWriteRegister p' reg v).map ArmCore.otherCells =
    (armWriteRegister p reg v).map ArmCore.otherCells
  readSpsr : armReadSpsr p' = armReadSpsr p
  writeSpsr : ∀ v, (armWriteSpsr p' v).map ArmCore.otherCells =
    (armWriteSpsr p v).map ArmCore.otherCells

variable {p p' : ArmCore}

omit [Platform] in
theorem otherCells_eq (h : ∀ c, c ≠ cpsrCell → p'.reg c = p.reg c) :
    p'.otherCells = p.otherCells := by
  funext c
  exact h c c.property

/-- A read through one pointer of two files that agree outside the CPSR. -/
theorem registersRead_congr {r r' : Registers} (h : ∀ c, c ≠ cpsrCell → r' c = r c) {reg : ℕ}
    (hreg : reg ≠ CPSR) (mode : ℕ) : registersRead r' reg mode = registersRead r reg mode := by
  rw [registersRead_eq, registersRead_eq]
  cases hp : bankPointer reg (getReadWriteMode mode) with
  | error e => rfl
  | ok c =>
    have hc : c ≠ cpsrCell := by
      rintro rfl
      exact hreg (bankPointer_reg hp).symm
    exact congrArg Except.ok (Registers.get_congr (h c hc))

theorem registersWrite_congr {q q' : ArmCore} (h : ∀ c, c ≠ cpsrCell → q'.reg c = q.reg c)
    (reg mode : ℕ) (v : Word) :
    ((registersWrite q'.reg reg mode v).map (fun r => { q' with reg := r })).map
        ArmCore.otherCells =
      ((registersWrite q.reg reg mode v).map (fun r => { q with reg := r })).map
        ArmCore.otherCells := by
  rw [registersWrite_eq, registersWrite_eq]
  cases bankPointer reg (getReadWriteMode mode) with
  | error e => rfl
  | ok c =>
    refine congrArg Except.ok (otherCells_eq ?_)
    intro c' hc'
    by_cases hcc : c' = c
    · -- Both files hold the word written.
      subst hcc
      exact Registers.get_injective
        ((Registers.get_set_self _ _ _).trans (Registers.get_set_self _ _ _).symm)
    · calc
        (q'.setCell c v).reg c' = q'.reg c' := setCell_cell q' v hcc
        _ = q.reg c' := h c' hc'
        _ = (q.setCell c v).reg c' := (setCell_cell q v hcc).symm

/-- With the same mode everything is selected alike. -/
theorem selectsAlike_of_mode (h : ∀ c, c ≠ cpsrCell → p'.reg c = p.reg c)
    (hmode : registersGetMode p'.reg = registersGetMode p.reg) : SelectsAlike p p' := by
  have hbank : p'.bank = p.bank := congrArg getReadWriteMode hmode
  refine ⟨hmode, ?_, ?_, ?_, ?_, ?_, ?_, ?_⟩
  · exact congrArg registersModeHasSpsr hmode
  · -- Any mode that is not the user's counts as privileged, an unknown one too.
    exact congrArg (fun mode => decide (mode ≠ Mode.USR)) hmode
  · intro reg
    rw [hbank]
  · intro reg hreg
    unfold armReadRegister armReadRegisterInternal
    rw [hmode, registersRead_congr h (Nat.ne_of_lt hreg)]
  · intro reg _ v
    have hwrite := registersWrite_congr h reg (registersGetMode p.reg) v
    unfold armWriteRegister armWriteRegisterInternal
    rw [hmode]
    exact hwrite
  · unfold armReadSpsr registersReadSpsr
    rw [hmode, registersRead_congr h (by decide)]
  · intro v
    unfold armWriteSpsr registersWriteSpsr
    rw [hmode]
    by_cases hs : registersModeHasSpsr (registersGetMode p.reg) = true
    · rw [if_pos hs, if_pos hs]
      exact registersWrite_congr h SPSR (registersGetMode p.reg) v
    · rw [if_neg hs, if_neg hs]
      exact congrArg Except.ok (otherCells_eq h)

/-- The mode is taken from six bits, of which the sixth is the T bit: the machines select
alike exactly where that bit agrees too. -/
theorem selects_alike_iff (p p' : ArmCore) (h : SameModeField p p') :
    SelectsAlike p p' ↔ getBit p'.cpsr 5 = getBit p.cpsr 5 := by
  have hfield := h.field
  -- The field is bits 4 to 0; the source takes bits 5 to 0.
  have hsix : registersGetMode p'.reg = registersGetMode p.reg ↔
      getBit p'.cpsr 5 = getBit p.cpsr 5 := by
    change getBits p'.cpsr 5 0 = getBits p.cpsr 5 0 ↔ _
    simp only [getBits_eq, getBit_eq_div] at *
    omega
  rw [← hsix]
  exact ⟨fun halike => halike.mode, selectsAlike_of_mode h.cells⟩

end selection

/-- Supervisor mode with the interrupt masked and not. -/
theorem selects_alike_masked :
    @SelectsAlike makefile (ArmCore.boot 0x13 []) (ArmCore.boot 0x93 []) :=
  (@selects_alike_iff makefile _ _ ⟨fun _ hc => (Function.update_of_ne hc _ _).trans
    (Function.update_of_ne hc _ _).symm, by decide⟩).mpr (by decide)

/-- The T bit turns supervisor mode into no mode at all, which has no SPSR. -/
theorem selects_alike_thumb :
    SameModeField (ArmCore.boot 0x13 []) (ArmCore.boot 0x33 []) ∧
      getBits (ArmCore.boot 0x13 []).cpsr 4 0 = Mode.SVC ∧
      armCurrentModeHasSpsr (ArmCore.boot 0x13 []) = true ∧
      armCurrentModeHasSpsr (ArmCore.boot 0x33 []) = false ∧
      ¬@SelectsAlike makefile (ArmCore.boot 0x13 []) (ArmCore.boot 0x33 []) := by
  refine ⟨⟨?_, by decide⟩, by decide, by decide, by decide, ?_⟩
  · intro c hc
    exact (Function.update_of_ne hc _ _).trans (Function.update_of_ne hc _ _).symm
  · intro halike
    exact absurd (@SelectsAlike.mode makefile _ _ halike) (by decide)

end ArmSim
