import ArmSim.Body
import ArmSim.Trace

/-! Accesses to the SPSR of a mode that has none: the one instruction that makes one,
and the sets of traced modes that do. -/
namespace ArmSim
open Lib

/-- The state trace prints the registers of a mode without an SPSR. -/
def TracesMissingSpsr (t : Trace) : Prop :=
  t.enabled = true ∧ t.state = true ∧ (t.states Mode.USR = true ∨ t.states Mode.SYS = true)

/-- A traced mode is one of the seven, and its bit is set. -/
theorem mem_tracedModes {t : Trace} {mode : ℕ} : mode ∈ tracedModes t ↔
    t.enabled = true ∧ t.state = true ∧ t.states mode = true ∧
      mode ∈ [Mode.USR, Mode.FIQ, Mode.IRQ, Mode.SVC, Mode.ABT, Mode.UND, Mode.SYS] := by
  have hnamed : ∀ mode < 32, (armGetModeName mode).isSome = true ↔
      mode ∈ [Mode.USR, Mode.FIQ, Mode.IRQ, Mode.SVC, Mode.ABT, Mode.UND, Mode.SYS] := by decide
  have hlt : ∀ mode ∈ [Mode.USR, Mode.FIQ, Mode.IRQ, Mode.SVC, Mode.ABT, Mode.UND, Mode.SYS],
      mode < 32 := by decide
  unfold tracedModes
  split
  · rename_i ht
    rw [List.mem_filter, List.mem_range, Bool.and_eq_true]
    constructor
    · rintro ⟨h32, hname, hstate⟩
      exact ⟨ht.1, ht.2, hstate, (hnamed mode h32).mp hname⟩
    · rintro ⟨-, -, hstate, hmode⟩
      exact ⟨hlt mode hmode, (hnamed mode (hlt mode hmode)).mpr hmode, hstate⟩
  · rename_i ht
    constructor
    · exact fun h => absurd h List.not_mem_nil
    · exact fun h => absurd ⟨h.1, h.2.1⟩ ht

section spsr
variable [Platform]

/-- The step runs `LDM` with the S bit and r15 in a mode without an SPSR. -/
def ReadsMissingSpsr (p : ArmCore) : Prop :=
  ∃ inst, Fetches p inst ∧ flagCond (getBits inst 31 28) p.cpsr = true ∧
    BodyReadsMissingSpsr p.advance inst

theorem armStep_null_iff (env : Env) (p : ArmCore) :
    armStep env p = .error .nullPointer ↔ ReadsMissingSpsr p := by
  constructor
  · intro h
    rcases armStep_cases env p with ⟨-, hs⟩ | hs | ⟨inst, hf, ⟨-, hs⟩ | ⟨hc, hs⟩⟩
    · rw [h] at hs
      cases hs
    · rw [h] at hs
      cases hs
    · rw [h] at hs
      cases hs
    · exact ⟨inst, hf, hc, (runBody_ends env p.advance inst).fault (hs.symm.trans h) rfl⟩
  · -- Bits 27 to 25 send the word to the multiple transfers.
    rintro ⟨inst, hf, hc, hcode, hmissing⟩
    rw [armStep_run hf env hc]
    unfold runBody
    rw [decode_multiple env p.advance _ hcode, hmissing.crashes env]
    rfl

/-- The line of a mode with an SPSR follows no `NULL` pointer. -/
theorem traceArmMode_ends (r : Registers) {mode : ℕ} (h2 : 2 ≤ getReadWriteMode mode) :
    Ends (traceArmMode r mode) (fun _ => True) NoNull := by
  have hread {reg : ℕ} (hr : reg < 16) :
      Ends (registersRead r reg mode) (fun _ => True) NoNull := by
    rw [registersRead_eq]
    exact (noNull_registerCell (bankPointer_ends hr (getReadWriteMode_lt _))).bind
      (fun _ _ => trivial)
  unfold traceArmMode
  apply (ends_mapM (fun reg hreg => hread (List.mem_range.mp hreg))).bind
  intro general _
  rw [registersReadSpsr, registersRead_eq, bankPointer_spsr h2 (getReadWriteMode_lt _)]
  trivial

theorem traceArmMode_null (r : Registers) {mode : ℕ} (hm : getReadWriteMode mode < 2) :
    traceArmMode r mode = .error .nullPointer := by
  have hread : Ends ((List.range 16).mapM (fun reg => registersRead r reg mode))
      (fun _ => True) (fun _ => False) := by
    refine ends_mapM ?_
    intro reg hreg
    rw [registersRead_eq, bankPointer_general (List.mem_range.mp hreg) (by omega)]
    trivial
  obtain ⟨general, hl, -⟩ := hread.exists_ok
  unfold traceArmMode
  rw [hl, ok_bind, registersReadSpsr, registersRead_eq, bankPointer_spsr_null hm]
  rfl

/-- Neither the step, nor the trace of any traced mode, nor the state trace as a whole
follows the `NULL` pointer of a missing SPSR. -/
structure NoMissingSpsr (env : Env) (t : Trace) (p : ArmCore) : Prop where
  step : armStep env p ≠ .error .nullPointer
  line : ∀ r, ∀ mode ∈ tracedModes t, traceArmMode r mode ≠ .error .nullPointer
  trace : ∀ r, traceArmState t r ≠ .error .nullPointer

theorem traceArmMode_of_traced {t : Trace} (h : ¬TracesMissingSpsr t) (r : Registers) {mode : ℕ}
    (hm : mode ∈ tracedModes t) : Ends (traceArmMode r mode) (fun _ => True) NoNull := by
  obtain ⟨he, hs, hstate, hmode⟩ := mem_tracedModes.mp hm
  refine traceArmMode_ends r ?_
  have husr : mode ≠ Mode.USR := fun h' => h ⟨he, hs, Or.inl (h' ▸ hstate)⟩
  have hsys : mode ≠ Mode.SYS := fun h' => h ⟨he, hs, Or.inr (h' ▸ hstate)⟩
  have hbank : ∀ mode ∈ [Mode.USR, Mode.FIQ, Mode.IRQ, Mode.SVC, Mode.ABT, Mode.UND, Mode.SYS],
      mode ≠ Mode.USR → mode ≠ Mode.SYS → 2 ≤ getReadWriteMode mode := by decide
  exact hbank mode hmode husr hsys

/-- Exactly the exception return and the trace of a mode without an SPSR do. -/
theorem no_missing_spsr_iff (env : Env) (t : Trace) (p : ArmCore) :
    NoMissingSpsr env t p ↔ ¬ReadsMissingSpsr p ∧ ¬TracesMissingSpsr t := by
  constructor
  · rintro ⟨hstep, hline, -⟩
    refine ⟨fun h => hstep ((armStep_null_iff env p).mpr h), ?_⟩
    rintro ⟨he, hs, husr | hsys⟩
    · exact hline p.reg Mode.USR (mem_tracedModes.mpr ⟨he, hs, husr, by decide⟩)
        (traceArmMode_null p.reg (by decide))
    · exact hline p.reg Mode.SYS (mem_tracedModes.mpr ⟨he, hs, hsys, by decide⟩)
        (traceArmMode_null p.reg (by decide))
  · rintro ⟨hstep, htrace⟩
    refine ⟨fun h => hstep ((armStep_null_iff env p).mp h), ?_, ?_⟩
    · intro r mode hm h
      exact (traceArmMode_of_traced htrace r hm).fault h rfl
    · intro r h
      exact (ends_mapM (fun mode hm => traceArmMode_of_traced htrace r hm)).fault h rfl

end spsr

/-- `LDMIA r0, {r15}^` in user mode, and any step with user mode traced. -/
theorem no_missing_spsr_ldm :
    ¬@NoMissingSpsr makefile ⟨0, 0, 0, 0⟩ ⟨true, false, fun _ => false⟩
        (ArmCore.boot 0x10 [0xE8, 0xD0, 0x80, 0x00]) ∧
      ¬@NoMissingSpsr makefile ⟨0, 0, 0, 0⟩ ⟨true, true, fun mode => mode = Mode.USR⟩
        (ArmCore.boot 0x10 [0xE3, 0xA0, 0x00, 0x01]) := by
  constructor
  · intro h
    exact @NoMissingSpsr.step makefile _ _ _ h (eq_error_of_map_fst (by decide))
  · intro h
    exact @NoMissingSpsr.trace makefile _ _ _ h registersCreate (by decide)

end ArmSim
