import ArmSim.Options
import ArmSim.SessionMachine

/-! The state trace in a session: it changes nothing of a run, except that a mode without an SPSR
and the fast-interrupt mode end the simulator with the first step. -/
namespace ArmSim
open Lib

/-- The modes whose line the trace cannot print. -/
def untraceable : List ℕ := [Mode.USR, Mode.SYS, Mode.FIQ]

/-- A traced mode is none of them. -/
def Trace.Harmless (t : Trace) : Prop := ∀ mode ∈ tracedModes t, mode ∉ untraceable

section lines
variable [Platform] (r : Registers) {t : Trace}

theorem traceArmMode_ok {mode : ℕ} (h2 : 2 ≤ getReadWriteMode mode)
    (h6 : getReadWriteMode mode < 6) : ∃ line, traceArmMode r mode = .ok line := by
  have hread : Ends ((List.range 16).mapM (fun reg => registersRead r reg mode))
      (fun _ => True) (fun _ => False) := by
    refine ends_mapM ?_
    intro reg hreg
    rw [registersRead_eq, bankPointer_general (List.mem_range.mp hreg) h6]
    trivial
  obtain ⟨general, hgeneral, -⟩ := hread.exists_ok
  unfold traceArmMode
  rw [hgeneral, ok_bind, registersReadSpsr, registersRead_eq, bankPointer_spsr h2 (by omega)]
  exact ⟨_, rfl⟩

/-- In the fast-interrupt mode the trace reads behind the cells of its r13. -/
theorem traceArmMode_fiq (line : List Word) : traceArmMode r Mode.FIQ ≠ .ok line := by
  intro h
  obtain ⟨general, hgeneral, -⟩ := bind_eq_ok.mp h
  obtain ⟨value, hvalue⟩ := exists_ok_of_mapM hgeneral (List.mem_range.mpr (by decide : SP < 16))
  rw [registersRead_eq] at hvalue
  cases hvalue

theorem traceArmMode_untraceable {mode : ℕ} (h : mode ∈ untraceable) (line : List Word) :
    traceArmMode r mode ≠ .ok line := by
  simp only [untraceable, List.mem_cons, List.not_mem_nil, or_false] at h
  rcases h with rfl | rfl | rfl
  · rw [traceArmMode_null r (by decide)]
    intro h
    cases h
  · rw [traceArmMode_null r (by decide)]
    intro h
    cases h
  · exact traceArmMode_fiq r line

theorem traceArmState_ok (h : t.Harmless) : ∃ lines, traceArmState t r = .ok lines := by
  have hlines : Ends (traceArmState t r) (fun _ => True) (fun _ => False) := by
    refine ends_mapM ?_
    intro mode hmode
    have hbank : ∀ mode ∈ [Mode.USR, Mode.FIQ, Mode.IRQ, Mode.SVC, Mode.ABT, Mode.UND, Mode.SYS],
        mode ∉ untraceable → 2 ≤ getReadWriteMode mode ∧ getReadWriteMode mode < 6 := by decide
    obtain ⟨h2, h6⟩ := hbank mode (mem_tracedModes.mp hmode).2.2.2 (h mode hmode)
    obtain ⟨line, hline⟩ := traceArmMode_ok r h2 h6
    rw [hline]
    trivial
  obtain ⟨lines, hlines, -⟩ := hlines.exists_ok
  exact ⟨lines, hlines⟩

/-- A trace that can be printed does not change the step. -/
theorem singleStep_harmless (h : t.Harmless) (env : Env) (p : ArmCore) :
    singleStep env t p = armStep env p := by
  unfold singleStep
  cases armStep env p with
  | error c => rfl
  | ok x =>
    obtain ⟨lines, hlines⟩ := traceArmState_ok x.2.reg h
    rw [ok_bind]
    dsimp only
    rw [hlines]
    rfl

/-- With another one no step returns. -/
theorem singleStep_harmful (h : ¬t.Harmless) (env : Env) (p : ArmCore) (x : ℤ × ArmCore) :
    singleStep env t p ≠ .ok x := by
  intro hx
  obtain ⟨y, -, hx⟩ := bind_eq_ok.mp hx
  obtain ⟨lines, hlines, -⟩ := bind_eq_ok.mp hx
  refine h (fun mode hmode huntraceable => ?_)
  obtain ⟨line, hline⟩ := exists_ok_of_mapM hlines hmode
  exact traceArmMode_untraceable y.2.reg huntraceable line hline

end lines

/-- What a command finds outside, with another trace. -/
def GdbEnv.traced (t : Trace) (env : GdbEnv) : GdbEnv := { env with trace := t }

def Activity.traced (t : Trace) : Activity → Activity
  | .token env fuel tok => .token (env.traced t) fuel tok
  | .irq env e => .irq env e

/-- What the two sides see of a session: the answers, and what it leaves. -/
def outcome (r : List (Activity × List Sent) × Session) : List (List Sent) × Session :=
  (r.1.map Prod.snd, r.2)

section session
variable [Platform] {t u : Trace} (ht : t.Harmless) (hu : u.Harmless)
include ht hu

theorem gdbSingleStep_traced (env : GdbEnv) (k : ℕ) (g : Gdb) :
    gdbSingleStep (env.traced t) k g = gdbSingleStep (env.traced u) k g := by
  unfold gdbSingleStep GdbEnv.traced
  dsimp only
  rw [singleStep_harmless ht, singleStep_harmless hu]

theorem contLoop_traced (env : GdbEnv) (fuel k : ℕ) (g : Gdb) :
    contLoop (env.traced t) fuel k g = contLoop (env.traced u) fuel k g := by
  induction fuel generalizing k g with
  | zero => rfl
  | succ fuel ih =>
    unfold contLoop
    simp only [gdbSingleStep_traced ht hu, ih]

theorem handler_traced (env : GdbEnv) (fuel : ℕ) (index : Byte) :
    handler (env.traced t) fuel index = handler (env.traced u) fuel index := by
  have hcont : cont (env.traced t) fuel = cont (env.traced u) fuel := by
    funext g data
    unfold cont
    rw [contLoop_traced ht hu]
  have hstep : step (env.traced t) = step (env.traced u) := by
    funext g data
    unfold step
    rw [gdbSingleStep_traced ht hu]
  -- The other commands do not look at the trace.
  unfold handler
  split
  · exact congrArg some hcont
  · exact congrArg some hcont
  all_goals first | rfl | exact congrArg some hstep

theorem serveToken_traced (env : GdbEnv) (fuel : ℕ) (parser : ParserData) (g : Gdb)
    (tok : Token Byte) :
    serveToken (env.traced t) fuel parser g tok = serveToken (env.traced u) fuel parser g tok := by
  have hanalysis (g : Gdb) (packet : List Byte) :
      gdbPacketAnalysis (env.traced t) fuel g packet =
        gdbPacketAnalysis (env.traced u) fuel g packet := by
    unfold gdbPacketAnalysis
    simp only [handler_traced ht hu]
    rfl
  have hevent : runEvent (env.traced t) fuel = runEvent (env.traced u) fuel := by
    funext g event
    cases event with
    | packetAnalysis yytext => exact hanalysis g yytext
    | requireRetransmission => rfl
    | transmitPacket => rfl
    | echo yytext => rfl
  unfold serveToken
  rw [hevent]

theorem perform_traced (s : Session) (a : Activity) :
    perform s (a.traced t) = perform s (a.traced u) := by
  cases a with
  | token env fuel tok =>
    unfold perform Activity.traced
    dsimp only
    rw [serveToken_traced ht hu]
  | irq env e => rfl

theorem performAll_traced (as : List Activity) (s : Session) :
    (performAll (as.map (Activity.traced t)) s).map outcome =
      (performAll (as.map (Activity.traced u)) s).map outcome := by
  induction as generalizing s with
  | nil => rfl
  | cons a as ih =>
    rw [List.map_cons, List.map_cons]
    unfold performAll
    rw [perform_traced ht hu]
    cases perform s (a.traced u) with
    | error e => rfl
    | ok s' =>
      have hrest := ih s'
      rw [ok_bind, ok_bind]
      revert hrest
      generalize performAll (as.map (Activity.traced t)) s' = x
      generalize performAll (as.map (Activity.traced u)) s' = y
      intro hrest
      cases x with
      | error e =>
        cases y with
        | error f => exact hrest
        | ok r => cases hrest
      | ok r =>
        cases y with
        | error f => cases hrest
        | ok r' =>
          obtain ⟨hanswers, hsession⟩ := Prod.mk.inj (Except.ok.inj hrest)
          refine congrArg Except.ok (Prod.ext ?_ hsession)
          exact congrArg (List.cons _) hanswers

end session

section steps
variable [Platform] {t : Trace} (ht : ¬t.Harmless)
include ht

theorem gdbSingleStep_harmful (env : GdbEnv) (k : ℕ) (g g' : Gdb) :
    gdbSingleStep (env.traced t) k g ≠ .ok g' := by
  intro h
  obtain ⟨x, hx, -⟩ := bind_eq_ok.mp h
  exact singleStep_harmful ht _ _ x (simulated_eq_ok.mp hx)

theorem contLoop_harmful (env : GdbEnv) (fuel k : ℕ) (g g' : Gdb) :
    contLoop (env.traced t) fuel k g ≠ .ok g' := by
  intro h
  cases fuel with
  | zero => cases h
  | succ fuel =>
    unfold contLoop at h
    obtain ⟨g₁, hg₁, -⟩ := bind_eq_ok.mp h
    exact gdbSingleStep_harmful ht env k g g₁ hg₁

/-- The commands that make the machine step. -/
def steppingCommands : List Byte := text "cCsS"

/-- None of them is served. -/
theorem performs_harmful {env : GdbEnv} {fuel : ℕ} {tok : Token Byte} {out : List Sent}
    {s s' : Session} (hroom : s.parser.InBuffer)
    (h : Performs (.token (env.traced t) fuel tok, out) s s') (h2 : tok.rule = some 2)
    (htest : ChecksumTest env tok.text) : commandOf env tok.text ∉ steppingCommands := by
  intro hcommand
  have hserve := perform_token h.1
  have hconnected := serveToken_packet_connected (env.traced t) fuel hroom h2 hserve
  obtain ⟨data, -, hpacket⟩ := serveToken_packet (env.traced t) fuel hroom hconnected h2
  have htest' : ChecksumTest (env.traced t) tok.text := htest
  rw [gdbPacketAnalysis_intact (env.traced t) fuel _ htest'] at hpacket
  obtain ⟨g', hg', -⟩ := map_eq_ok.mp (hpacket.symm.trans hserve)
  obtain ⟨g, -, hg⟩ := bind_eq_ok.mp hg'
  have hsame : commandOf (env.traced t) tok.text = commandOf env tok.text := rfl
  rw [hsame] at hg
  have hstep {g₀ g' : Gdb} {args : List Byte} : step (env.traced t) g₀ args ≠ .ok g' := by
    intro h
    obtain ⟨g₁, hg₁, -⟩ := bind_eq_ok.mp h
    exact gdbSingleStep_harmful ht env 0 g₀ g₁ hg₁
  have hcont {g₀ g' : Gdb} {args : List Byte} : cont (env.traced t) fuel g₀ args ≠ .ok g' := by
    intro h
    obtain ⟨g₁, hg₁, -⟩ := bind_eq_ok.mp h
    exact contLoop_harmful ht env fuel 0 g₀ g₁ hg₁
  have hcases : ∀ c ∈ steppingCommands, c = 0x63 ∨ c = 0x43 ∨ c = 0x73 ∨ c = 0x53 := by decide
  rcases hcases _ hcommand with hc | hc | hc | hc
  · rw [hc] at hg
    exact hcont hg
  · rw [hc] at hg
    exact hcont hg
  · rw [hc] at hg
    exact hstep hg
  · rw [hc] at hg
    exact hstep hg

end steps

/-- The options decide what the state trace does.  If they name no mode without an SPSR and not the
fast-interrupt mode, every sequence of activities is answered in the same way and leads to the same
session or the same fault as without a trace.  If they name one of these, a session that goes on has
served no command that makes the machine step. -/
theorem state_trace [Platform] {options : List CommandOption} {settings : Settings}
    (h : mainOptions options = .ok settings) :
    ((∀ mode ∈ untraceable, ¬TracesState options mode) →
      ∀ (as : List Activity) (s : Session),
      (performAll (as.map (Activity.traced settings.trace)) s).map outcome =
        (performAll (as.map (Activity.traced traceInit)) s).map outcome) ∧
    ((∃ mode ∈ untraceable, TracesState options mode) →
      ∀ arm breakpoints packet buffer ls s,
        Runs Performs ls (Session.start arm breakpoints packet buffer) s →
        ∀ l ∈ ls, ∀ env fuel tok, l.1 = (Activity.token env fuel tok).traced settings.trace →
          tok.rule = some 2 → ChecksumTest env tok.text →
            commandOf env tok.text ∉ steppingCommands) := by
  have hiff : settings.trace.Harmless ↔ ∀ mode ∈ untraceable, ¬TracesState options mode := by
    unfold Trace.Harmless
    simp only [mem_tracedModes_options h]
    exact ⟨fun h mode hmode htraces => h mode htraces hmode,
      fun h mode htraces hmode => h mode hmode htraces⟩
  refine ⟨fun hnone as s => ?_, fun hsome => ?_⟩
  · have hinit : traceInit.Harmless :=
      fun mode hmode => absurd hmode (by simp [tracedModes, traceInit])
    exact performAll_traced (hiff.mpr hnone) hinit as s
  · have hharmful : ¬settings.trace.Harmless := by
      intro hharmless
      obtain ⟨mode, hmode, htraces⟩ := hsome
      exact hiff.mp hharmless mode hmode htraces
    intro arm breakpoints packet buffer ls s hrun
    refine hrun.labels (I := fun s => s.parser.InBuffer) (fun l s s' hroom hstep => ?_)
      (Nat.zero_le _)
    refine ⟨performs_room hroom hstep, fun env fuel tok hl h2 htest => ?_⟩
    obtain ⟨a, out⟩ := l
    dsimp only at hl
    subst hl
    exact performs_harmful hharmful hroom hstep h2 htest

/-- With the supervisor mode traced a session is what it is without. -/
theorem state_trace_svc : ∃ settings,
    mainOptions [.traceState (some (text "SVC")), .tracePosition,
      .traceState (some (text "svc"))] = .ok settings ∧
    (@performAll makefile ((looksAndSteps.map Prod.fst).map (Activity.traced settings.trace))
      (Session.start oneMove (fun _ => 0) (fun _ => 0) (.replicate _ 0))).map outcome =
    (@performAll makefile ((looksAndSteps.map Prod.fst).map (Activity.traced traceInit))
      (Session.start oneMove (fun _ => 0) (fun _ => 0) (.replicate _ 0))).map outcome := by
  have hoptions : mainOptions [.traceState (some (text "SVC")), .tracePosition,
      .traceState (some (text "svc"))] = .ok ⟨traceAdd traceInit Mode.SVC, ⟨fun _ => [], 0⟩⟩ := rfl
  have hnone : ∀ mode ∈ untraceable, ¬TracesState [.traceState (some (text "SVC")), .tracePosition,
      .traceState (some (text "svc"))] mode := by
    intro mode hmode h
    obtain ⟨known, hknown, hmem⟩ := h
    simp only [untraceable, List.mem_cons, List.not_mem_nil, or_false] at hmode
    rcases hmode with rfl | rfl | rfl
    all_goals
      cases hknown
      exact absurd hmem (by decide)
  exact ⟨_, hoptions, (@state_trace makefile _ _ hoptions).1 hnone _ _⟩

end ArmSim
