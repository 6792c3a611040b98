import ArmSim.Debug
import ArmSim.SessionBreakpoints
import ArmSim.SpsrAccess

/-! The options of `main`, and what the state trace they choose does to a session. -/
namespace ArmSim
open Lib

/-- `arm_get_mode_number`. -/
def armGetModeNumber (name : List Byte) : ℤ :=
  match (List.range 32).find? (fun i =>
      (armGetModeName i).any fun known => strcmp name (text known) = .eq) with
  | some i => i
  | none => -1

namespace TraceFlag
abbrev MEMORY : ℤ := 32
abbrev STATE : ℤ := 128
abbrev POSITION : ℤ := 256
end TraceFlag

/-- `trace_add`; of `trace_flags` only the bit `STATE` is kept, which is the bit 7. -/
def traceAdd (t : Trace) (flags : ℤ) : Trace :=
  if flags < 32 then
    if 0 ≤ flags then
      { t with state := true, states := Function.update t.states flags.toNat true }
    else t
  else { t with state := t.state || flags.toNat.testBit 7 }

/-- What `getopt_long` recognises but for `--trace-registers`, whose trace looks at
`arm_mode_names[mode]` in each access to a register, for a mode of six bits.  `optarg` is given
where it is used; `-s` has none, `--trace-state` has one. -/
inductive CommandOption where
  | gdbPort
  | irqPort
  | help
  | traceFile (opens : Bool)
  | traceMemory
  | traceState (optarg : Option (List Byte))
  | tracePosition
  | debug (optarg : List Byte)
  | unrecognized
deriving DecidableEq

/-- What the options leave for the session and for the debug messages. -/
structure Settings where
  trace : Trace
  debugged : DebugFiles

/-- The simulator leaves `main`, a name is compared with `NULL`, or one overruns `debugged_files`. -/
inductive OptionFault where
  | exit (status : ℕ)
  | nullOptarg
  | debug (fault : DebugFault)
deriving DecidableEq, Repr

/-- One turn of the loop over the options. -/
def mainOption (s : Settings) : CommandOption → Except OptionFault Settings
  | .gdbPort => return s
  | .irqPort => return s
  | .help => throw (.exit 0)
  | .traceFile opens => if opens then return s else throw (.exit 1)
  | .traceMemory => return { s with trace := traceAdd s.trace TraceFlag.MEMORY }
  | .traceState (some optarg) =>
    return { s with trace := traceAdd s.trace (armGetModeNumber optarg) }
  | .traceState none => throw .nullOptarg
  | .tracePosition => return { s with trace := traceAdd s.trace TraceFlag.POSITION }
  | .debug optarg => do
    let debugged ← (addDebugTo s.debugged optarg).mapError .debug
    return { s with debugged := debugged }
  | .unrecognized => throw (.exit 1)

/-- The static variables of `trace.c`. -/
def traceInit : Trace := ⟨true, false, fun _ => false⟩

def mainOptions (options : List CommandOption) : Except OptionFault Settings :=
  options.foldlM mainOption ⟨traceInit, ⟨fun _ => [], 0⟩⟩

/-- One of the options asks for the state in `mode`, by its name. -/
def TracesState (options : List CommandOption) (mode : ℕ) : Prop :=
  ∃ known, armGetModeName mode = some known ∧ CommandOption.traceState (some (text known)) ∈ options

section modes

theorem armGetModeName_lt {mode : ℕ} {known : String} (h : armGetModeName mode = some known) :
    mode < 32 := by
  unfold armGetModeName at h
  split at h
  all_goals first | decide | cases h

/-- No two modes have one name. -/
theorem armGetModeName_unique {i j : ℕ} {a b : String} (hi : armGetModeName i = some a)
    (hj : armGetModeName j = some b) (h : text a = text b) : i = j := by
  have hall : ∀ i < 32, ∀ j < 32, (armGetModeName i).isSome →
      (armGetModeName i).map text = (armGetModeName j).map text → i = j := by decide +kernel
  refine hall i (armGetModeName_lt hi) j (armGetModeName_lt hj) (by rw [hi]; rfl) ?_
  rw [hi, hj, Option.map_some, Option.map_some, h]

/-- The number of a name is that of the one mode it names, and -1 for any other text. -/
theorem armGetModeNumber_eq_iff {name : List Byte} {mode : ℕ} :
    armGetModeNumber name = mode ↔ ∃ known, armGetModeName mode = some known ∧ name = text known := by
  have hnames (i : ℕ) : (armGetModeName i).any (fun known => strcmp name (text known) = .eq) = true ↔
      ∃ known, armGetModeName i = some known ∧ name = text known := by
    cases armGetModeName i with
    | none => simp
    | some known => simp [strcmp_eq_iff]
  unfold armGetModeNumber
  split
  · rename_i i hi
    have hfound := List.find?_some hi
    obtain ⟨known, hknown, hname⟩ := (hnames i).mp hfound
    constructor
    · intro h
      obtain rfl : i = mode := Int.ofNat.inj h
      exact ⟨known, hknown, hname⟩
    · intro h
      obtain ⟨known', hknown', hname'⟩ := h
      exact congrArg Int.ofNat (armGetModeName_unique hknown hknown' (hname.symm.trans hname'))
  · rename_i hnone
    refine iff_of_false (by omega) (fun h => ?_)
    obtain ⟨known, hknown, hname⟩ := h
    have hmem : mode ∈ List.range 32 := List.mem_range.mpr (armGetModeName_lt hknown)
    exact List.find?_eq_none.mp hnone mode hmem ((hnames mode).mpr ⟨known, hknown, hname⟩)

theorem armGetModeNumber_cases (name : List Byte) :
    armGetModeNumber name = -1 ∨ ∃ mode : ℕ, armGetModeNumber name = mode ∧ mode < 32 := by
  unfold armGetModeNumber
  split
  · rename_i i hi
    exact Or.inr ⟨i, rfl, List.mem_range.mp (List.mem_of_find?_eq_some hi)⟩
  · exact Or.inl rfl

end modes

section settings

/-- The trace prints the modes in `P`. -/
structure Trace.Prints (t : Trace) (P : ℕ → Prop) : Prop where
  enabled : t.enabled = true
  state : ∀ mode, P mode → t.state = true
  states : ∀ mode, t.states mode = true ↔ P mode

theorem Trace.Prints.add {t : Trace} {P : ℕ → Prop} (h : t.Prints P) (name : List Byte) :
    (traceAdd t (armGetModeNumber name)).Prints (fun mode => P mode ∨ armGetModeNumber name = mode) := by
  unfold traceAdd
  rcases armGetModeNumber_cases name with hnone | ⟨number, hnumber, hlt⟩
  · -- An unknown name is passed over.
    have hno (mode : ℕ) : ¬armGetModeNumber name = mode := by omega
    rw [hnone, if_pos (by decide), if_neg (by decide)]
    refine ⟨h.enabled, fun mode hmode => ?_, fun mode => ?_⟩
    · exact h.state mode (hmode.resolve_right (hnone ▸ hno mode))
    · rw [h.states mode]
      exact (or_iff_left (hnone ▸ hno mode)).symm
  · rw [hnumber, if_pos (by omega), if_pos (by omega)]
    refine ⟨h.enabled, fun _ _ => rfl, fun mode => ?_⟩
    dsimp only
    by_cases hmode : mode = number
    · subst hmode
      rw [Int.toNat_natCast, Function.update_self]
      exact iff_of_true rfl (Or.inr rfl)
    · rw [Int.toNat_natCast, Function.update_of_ne hmode, h.states mode]
      exact (or_iff_left (fun he => hmode (Int.ofNat.inj he).symm)).symm

theorem mainOption_trace {s s' : Settings} {o : CommandOption} (h : mainOption s o = .ok s') :
    (∃ name, o = .traceState (some name) ∧
        s'.trace = traceAdd s.trace (armGetModeNumber name)) ∨
      (∀ name, o ≠ .traceState (some name)) ∧ s'.trace = s.trace := by
  -- The flags of the other traces are not the bit of the state trace.
  have hother : ∀ flags ∈ [TraceFlag.MEMORY, TraceFlag.POSITION],
      traceAdd s.trace flags = s.trace := by
    intro flags hflags
    simp only [List.mem_cons, List.not_mem_nil, or_false] at hflags
    rcases hflags with rfl | rfl
    all_goals exact congrArg (fun b => { s.trace with state := b }) (Bool.or_false _)
  cases o with
  | gdbPort =>
    cases h
    exact Or.inr ⟨fun _ => CommandOption.noConfusion, rfl⟩
  | irqPort =>
    cases h
    exact Or.inr ⟨fun _ => CommandOption.noConfusion, rfl⟩
  | help => cases h
  | traceFile opens =>
    cases opens with
    | true =>
      cases h
      exact Or.inr ⟨fun _ => CommandOption.noConfusion, rfl⟩
    | false => cases h
  | traceMemory =>
    cases h
    exact Or.inr ⟨fun _ => CommandOption.noConfusion, hother TraceFlag.MEMORY (by decide)⟩
  | traceState optarg =>
    cases optarg with
    | some name =>
      cases h
      exact Or.inl ⟨name, rfl, rfl⟩
    | none => cases h
  | tracePosition =>
    cases h
    exact Or.inr ⟨fun _ => CommandOption.noConfusion, hother TraceFlag.POSITION (by decide)⟩
  | debug name =>
    obtain ⟨debugged, -, h⟩ := bind_eq_ok.mp h
    cases h
    exact Or.inr ⟨fun _ => CommandOption.noConfusion, rfl⟩
  | unrecognized => cases h

theorem mainOptions_prints {options : List CommandOption} {s₀ s : Settings} {P : ℕ → Prop}
    (h : options.foldlM mainOption s₀ = .ok s) (hP : s₀.trace.Prints P) :
    s.trace.Prints fun mode => P mode ∨
      ∃ name, CommandOption.traceState (some name) ∈ options ∧ armGetModeNumber name = mode := by
  induction options generalizing s₀ P with
  | nil =>
    cases h
    simpa using hP
  | cons o options ih =>
    rw [List.foldlM_cons] at h
    obtain ⟨s₁, hs₁, hlater⟩ := bind_eq_ok.mp h
    rcases mainOption_trace hs₁ with ⟨name, rfl, htrace⟩ | ⟨hno, htrace⟩
    · have hP₁ : s₁.trace.Prints fun mode => P mode ∨ armGetModeNumber name = mode := by
        rw [htrace]
        exact hP.add name
      have hrest := ih hlater hP₁
      refine ⟨hrest.enabled, fun mode hmode => hrest.state mode ?_, fun mode => ?_⟩
      · simpa [or_assoc] using hmode
      · rw [hrest.states mode]
        simp [or_assoc]
    · have hP₁ : s₁.trace.Prints P := by
        rw [htrace]
        exact hP
      have hrest := ih hlater hP₁
      have hcons (name : List Byte) : CommandOption.traceState (some name) ∈ o :: options ↔
          CommandOption.traceState (some name) ∈ options :=
        List.mem_cons.trans (or_iff_right (hno name).symm)
      simpa only [hcons] using hrest

/-- The modes whose state is traced are those that the options name. -/
theorem mem_tracedModes_options {options : List CommandOption} {s : Settings}
    (h : mainOptions options = .ok s) (mode : ℕ) :
    mode ∈ tracedModes s.trace ↔ TracesState options mode := by
  have hinit : traceInit.Prints fun _ => False :=
    ⟨rfl, fun _ h => h.elim, fun _ => by simp [traceInit]⟩
  have hprints := mainOptions_prints h hinit
  simp only [false_or, armGetModeNumber_eq_iff] at hprints
  have hasked : (∃ name, CommandOption.traceState (some name) ∈ options ∧
      ∃ known, armGetModeName mode = some known ∧ name = text known) ↔
        TracesState options mode := by
    constructor
    · intro h
      obtain ⟨name, hname, known, hknown, rfl⟩ := h
      exact ⟨known, hknown, hname⟩
    · intro h
      obtain ⟨known, hknown, hname⟩ := h
      exact ⟨_, hname, known, hknown, rfl⟩
  have hstates := hprints.states mode
  have hstate := hprints.state mode
  rw [hasked] at hstates hstate
  unfold tracedModes
  constructor
  · intro hmem
    split at hmem
    · have hmode := (List.mem_filter.mp hmem).2
      exact hstates.mp (Bool.and_eq_true_iff.mp hmode).2
    · exact absurd hmem List.not_mem_nil
  · intro hmode
    obtain ⟨known, hknown, -⟩ := id hmode
    rw [if_pos ⟨hprints.enabled, hstate hmode⟩, List.mem_filter, List.mem_range, hknown,
      hstates.mpr hmode]
    exact ⟨armGetModeName_lt hknown, rfl⟩

end settings

end ArmSim
