import ArmSim.SessionBreakpoints

/-! `c` and `s`: a debugger that steps until the first stop sees and leaves what `cont` does. -/
namespace ArmSim
open Lib

/-- What the `k`-th of several steps finds outside. -/
def GdbEnv.from (env : GdbEnv) (k : ℕ) : GdbEnv := { env with steps := fun i => env.steps (k + i) }

/-- The packet `s`. -/
def stepPacket : Token Byte := ⟨some 2, text "$s#73"⟩

/-- The answer to a command that stops with the exception `e`. -/
def stopAnswer (e : ℤ) : List Sent := [.written (frame (text (gdbStopReason e)))]

/-- The `k`-th step of the debugger, answered as one that raises no exception. -/
def quietStep (env : GdbEnv) (k : ℕ) : Activity × List Sent :=
  (.token (env.from k) 0 stepPacket, stopAnswer 0)

/-- `n` steps that do not stop behind the first `k`, and one that stops with `e`. -/
def stepping (env : GdbEnv) (k n : ℕ) (e : ℤ) : List (Activity × List Sent) :=
  (List.range' k n).map (quietStep env) ++ [(.token (env.from (k + n)) 0 stepPacket, stopAnswer e)]

theorem stepping_succ (env : GdbEnv) (k n : ℕ) (e : ℤ) :
    stepping env k (n + 1) e = quietStep env k :: stepping env (k + 1) n e := by
  unfold stepping
  rw [List.range'_succ, List.map_cons, List.cons_append, Nat.add_right_comm k 1 n, Nat.add_assoc]

theorem stepPacket_intact (env : GdbEnv) :
    ChecksumTest env stepPacket.text ∧ commandOf env stepPacket.text = 0x73 := by
  have hcarries : ChecksumTest env (packetText (text "s") 0x37 0x33) :=
    (checksumTest_iff env (text "s") rfl rfl).mpr (by decide)
  exact ⟨hcarries, rfl⟩

section answers
variable {gdb g : Gdb}

/-- The reason for the stop is short enough to be sent. -/
theorem gdbSendStopReason_replies (gdb : Gdb) :
    Ends (gdbSendStopReason gdb) (Replies gdb (text (gdbStopReason gdb.targetException)))
      (Severed gdb) := by
  apply gdbSendData_short
  · exact fun c hc => (plain_stopReason _ c hc).1
  · unfold gdbStopReason
    split_ifs <;> decide

theorem gdbSendStopReason_connected {gdb : Gdb} (h : gdb.Connected) :
    ∃ g, gdbSendStopReason gdb = .ok g ∧
      Replies gdb (text (gdbStopReason gdb.targetException)) g :=
  ((gdbSendStopReason_replies gdb).mono (fun _ h => h) (fun _ he => not_severed h he)).exists_ok

/-- It is all that is answered, behind what is pending and the acknowledgement. -/
theorem answersSince_stop (sent : List Sent) (data : ParserData) (e : ℤ) :
    answersSince sent (sent ++ pending data ++ [.written [0x2B]] ++ stopAnswer e) =
      stopAnswer e := by
  rw [List.append_assoc, List.append_assoc, answersSince_append, List.filter_append,
    pending_answers]
  rfl

end answers

section steps
variable [Platform] {env : GdbEnv} {fuel : ℕ}

/-- What the handler of a packet is called with: what is pending and the acknowledgement are
sent. -/
abbrev Session.acked (s : Session) : Gdb :=
  Gdb.acked { s.gdb with sent := s.gdb.sent ++ pending s.parser }

omit [Platform] in
theorem Session.acked_target (s : Session) : s.acked.target = s.gdb.target :=
  (Gdb.wrote_target _ _).trans (pending_target s.gdb s.parser)

variable (fuel) in
/-- On a connection the token of an intact packet is the call of its handler. -/
theorem serveToken_handler {s : Session} (hroom : s.parser.InBuffer) (hconnected : s.gdb.Connected)
    {t : Token Byte} (h2 : t.rule = some 2) (htest : ChecksumTest env t.text)
    {c : Byte} (hcommand : commandOf env t.text = c)
    {handle : Gdb → List Byte → Except GdbFault Gdb} (hhandler : handler env fuel c = some handle) :
    ∃ data, serveToken env fuel s.parser s.gdb t =
      (handle s.acked (commandArgs env t.text)).map fun g => (data, g) := by
  obtain ⟨data, -, hpacket⟩ := serveToken_packet env fuel hroom hconnected h2
  rw [gdbPacketAnalysis_intact env fuel _ htest, hcommand, hhandler,
    gdbSendAck_connected ((pending_connected s.parser).mpr hconnected)] at hpacket
  exact ⟨data, hpacket⟩

/-- The token of `s` makes one step of the protocol, and reports it. -/
theorem serveStep {s : Session} (hroom : s.parser.InBuffer) {g g' : Gdb}
    (hconnected : g.Connected) (htarget : s.gdb.target = g.target) {k : ℕ}
    (hstep : gdbSingleStep env k g = .ok g') :
    ∃ t, Performs (.token (env.from k) 0 stepPacket, stopAnswer g'.targetException) s t ∧
      t.parser.InBuffer ∧ t.gdb.target = g'.target := by
  obtain ⟨htest, hcommand⟩ := stepPacket_intact (env.from k)
  have hconnected' : s.gdb.Connected := (connected_iff htarget).mpr hconnected
  obtain ⟨data, hpacket⟩ := serveToken_handler 0 hroom hconnected' (t := stepPacket) rfl htest
    hcommand rfl
  have hquiet : Quiet g s.acked g s.acked := ⟨s.acked_target.trans htarget, rfl, rfl⟩
  have hstep' : gdbSingleStep (env.from k) 0 g = .ok g' := hstep
  obtain ⟨b, hb, hquiet'⟩ := (gdbSingleStep_alike (env.from k) hquiet 0).exists_ok hstep'
  have hacked : s.acked.Connected := (connected_iff s.acked_target).mpr hconnected'
  have hstill : b.Connected := (connected_of_sent hquiet'.second).mpr hacked
  obtain ⟨u, hu, hreplies⟩ := gdbSendStopReason_connected hstill
  have hserve : serveToken (env.from k) 0 s.parser s.gdb stepPacket = .ok (data, u) := by
    rw [hpacket]
    change Except.map _ (gdbSingleStep (env.from k) 0 s.acked >>= gdbSendStopReason) = _
    rw [hb, ok_bind, hu]
    rfl
  have hexception : b.targetException = g'.targetException :=
    congrArg Target.targetException hquiet'.target
  refine ⟨⟨data, u⟩, ⟨perform_of_serve hserve, ?_⟩,
    (serveToken_room _ 0 hroom s.gdb stepPacket).value hserve, ?_⟩
  · dsimp only
    rw [hreplies.sent_eq, hquiet'.second, hexception]
    exact answersSince_stop s.gdb.sent s.parser g'.targetException
  · exact hreplies.target.trans hquiet'.target

/-- A step of the loop: it ends behind a step that stops, and goes on behind another. -/
theorem contLoop_step {S : Set Word} {k : ℕ} {g g₁ : Gdb}
    [Decidable (g₁.arm.pc ∈ S ∨ g₁.targetException ≠ 0)] (hS : g.toBreakpointTable.Holds S)
    (hstep : gdbSingleStep env k g = .ok g₁) :
    contLoop env (fuel + 1) k g =
      if g₁.arm.pc ∈ S ∨ g₁.targetException ≠ 0 then .ok g₁
      else contLoop env fuel (k + 1) g₁ := by
  obtain ⟨result, q, -, rfl⟩ := (gdbSingleStep_ends k g).value hstep
  obtain ⟨position, hposition, -, hmem⟩ := gdbFindBreakpoint_spec hS q.pc
  rw [contLoop, hstep, ok_bind]
  dsimp only
  rw [registersRead_pc]
  change gdbFindBreakpoint g.toBreakpointTable q.pc >>= _ = _
  rw [hposition, ok_bind]
  by_cases hfound : position ≠ -1
  · rw [if_pos hfound, if_pos (Or.inl (hmem.mp hfound))]
    rfl
  · rw [if_neg hfound]
    by_cases hexception : result ≠ 0
    · rw [if_pos hexception, if_pos (Or.inr hexception)]
      rfl
    · have hquiet : ¬(q.pc ∈ S ∨ result ≠ 0) := by
        intro hstop
        exact hstop.elim (fun hpc => hfound (hmem.mpr hpc)) hexception
      rw [if_neg hexception, if_neg hquiet]

/-- The steps of the loop, `k` steps after `p`, as tokens. -/
theorem contLoop_stepping {p : ArmCore} {S : Set Word} {k : ℕ} {g g' : Gdb} {r : ℤ}
    (hS : g.toBreakpointTable.Holds S) (hk : stepsFrom env.steps p k = .ok (r, g.arm))
    (hconnected : g.Connected) (hloop : contLoop env fuel k g = .ok g') {s : Session}
    (hroom : s.parser.InBuffer) (htarget : s.gdb.target = g.target) :
    ∃ n t, StopsAfter env.steps p S (k + n + 1) ∧
      (∀ j, k < j → j ≤ k + n → ¬StopsAfter env.steps p S j) ∧
      Runs Performs (stepping env k n g'.targetException) s t ∧ t.gdb.target = g'.target := by
  induction fuel generalizing k g s r with
  | zero => cases hloop
  | succ fuel ih =>
    classical
    have hsteps : ∃ g₁, gdbSingleStep env k g = .ok g₁ := by
      unfold contLoop at hloop
      obtain ⟨g₁, hstep, -⟩ := bind_eq_ok.mp hloop
      exact ⟨g₁, hstep⟩
    obtain ⟨g₁, hstep⟩ := hsteps
    rw [contLoop_step hS hstep] at hloop
    obtain ⟨result, q, harm, hg₁⟩ := (gdbSingleStep_ends k g).value hstep
    have htable : g₁.toBreakpointTable = g.toBreakpointTable := by rw [hg₁]
    have hnext : stepsFrom env.steps p (k + 1) = .ok (g₁.targetException, g₁.arm) := by
      rw [stepsFrom_succ hk, harm, hg₁]
    have hconnected' : g₁.Connected := (connected_of_sent (by rw [hg₁])).mpr hconnected
    obtain ⟨t, hperform, hroom', htarget'⟩ := serveStep hroom hconnected htarget hstep
    split_ifs at hloop with hstop
    · -- The first of the steps is the last one.
      obtain rfl := Except.ok.inj hloop
      exact ⟨0, t, ⟨_, _, hnext, hstop⟩, fun j hj hle => by omega, .single hperform, htarget'⟩
    · obtain ⟨n, u, hstops, hnone, hruns, hu⟩ := ih (htable.symm ▸ hS) hnext hconnected'
        hloop hroom' htarget'
      have hzero : g₁.targetException = 0 := Decidable.not_not.mp fun he => hstop (Or.inr he)
      refine ⟨n + 1, u, ?_, ?_, ?_, hu⟩
      · rw [show k + (n + 1) + 1 = k + 1 + n + 1 by omega]
        exact hstops
      · intro j hj hle hhere
        rcases Nat.eq_or_lt_of_le (Nat.succ_le_of_lt hj) with rfl | hlt
        · obtain ⟨result', q', hsteps, hstop'⟩ := hhere
          obtain ⟨rfl, rfl⟩ := Prod.mk.inj (ok_unique hnext hsteps)
          exact hstop hstop'
        · exact hnone j hlt (by omega) hhere
      · rw [hzero] at hperform
        rw [stepping_succ]
        exact .cons hperform hruns

end steps

/-- `MOV r0, #1` and `MOV r0, #2` in user mode. -/
abbrev twoMoves : ArmCore :=
  ArmCore.boot 0x10 [0xE3, 0xA0, 0x00, 0x01, 0xE3, 0xA0, 0x00, 0x02]

/-- A session in which a breakpoint is set behind both instructions. -/
abbrev setsBehind : List (Activity × List Sent) :=
  [(.token zeroEnv 0 ⟨some 2, text "$Z0,8,4#4e"⟩, [.written (text "$OK#9a")])]

section returns
variable [Platform] {env : GdbEnv}

/-- A token of `s` that is served has made a step, which every protocol on that target can make. -/
theorem serveStep_inv {s t : Session} {out : List Sent} (hroom : s.parser.InBuffer) {g : Gdb}
    (htarget : g.target = s.gdb.target) {k : ℕ}
    (h : Performs (.token (env.from k) 0 stepPacket, out) s t) :
    ∃ g', gdbSingleStep env k g = .ok g' ∧ t.parser.InBuffer ∧ g'.target = t.gdb.target := by
  obtain ⟨htest, hcommand⟩ := stepPacket_intact (env.from k)
  have hserve := perform_token h.1
  have hroom' := (serveToken_room _ 0 hroom s.gdb stepPacket).value hserve
  have hconnected := serveToken_packet_connected _ 0 hroom (t := stepPacket) rfl hserve
  obtain ⟨data, hpacket⟩ := serveToken_handler 0 hroom hconnected (t := stepPacket) rfl htest
    hcommand rfl
  rw [hpacket] at hserve
  obtain ⟨g₂, hg₂, heq⟩ := map_eq_ok.mp hserve
  obtain rfl : g₂ = t.gdb := congrArg Prod.snd heq
  obtain ⟨b, hb, hsend⟩ := bind_eq_ok.mp hg₂
  have hreplies := (gdbSendStopReason_replies b).value hsend
  have hquiet : Quiet s.acked g s.acked g := ⟨htarget.trans s.acked_target.symm, rfl, rfl⟩
  obtain ⟨g', hg', hquiet'⟩ := (gdbSingleStep_alike (env.from k) hquiet 0).exists_ok hb
  exact ⟨g', hg', hroom', hquiet'.target.trans hreplies.target.symm⟩

/-- The loop makes the steps of a debugger that comes to a stop, or stops before. -/
theorem contLoop_returns {S : Set Word} {k n : ℕ} {e : ℤ} {g : Gdb} {s v : Session}
    (hS : g.toBreakpointTable.Holds S) (hroom : s.parser.InBuffer)
    (htarget : g.target = s.gdb.target) (hruns : Runs Performs (stepping env k n e) s v)
    (hstop : v.gdb.arm.pc ∈ S ∨ v.gdb.targetException ≠ 0) :
    ∃ g', contLoop env (n + 1) k g = .ok g' := by
  classical
  induction n generalizing k g s with
  | zero =>
    obtain ⟨t, hperform, hnil⟩ : ∃ t,
        Performs (.token (env.from k) 0 stepPacket, stopAnswer e) s t ∧
          Runs Performs [] t v := by
      cases hruns with
      | cons head tail => exact ⟨_, head, tail⟩
    cases hnil
    obtain ⟨g₁, hstep, -, htarget'⟩ := serveStep_inv hroom htarget hperform
    have harm : g₁.arm = v.gdb.arm := congrArg Target.arm htarget'
    have hexception : g₁.targetException = v.gdb.targetException :=
      congrArg Target.targetException htarget'
    rw [contLoop_step hS hstep, harm, hexception, if_pos hstop]
    exact ⟨g₁, rfl⟩
  | succ n ih =>
    rw [stepping_succ] at hruns
    obtain ⟨t, hperform, hrest⟩ : ∃ t, Performs (quietStep env k) s t ∧
        Runs Performs (stepping env (k + 1) n e) t v := by
      cases hruns with
      | cons head tail => exact ⟨_, head, tail⟩
    obtain ⟨g₁, hstep, hroom', htarget'⟩ := serveStep_inv hroom htarget hperform
    obtain ⟨result, q, -, hg₁⟩ := (gdbSingleStep_ends k g).value hstep
    have htable : g₁.toBreakpointTable = g.toBreakpointTable := by rw [hg₁]
    rw [contLoop_step hS hstep]
    split
    · exact ⟨g₁, rfl⟩
    · exact ih (htable.symm ▸ hS) hroom' htarget' hrest

/-- The steps are answered, so there is a connection in front of them. -/
theorem stepping_connected {k n : ℕ} {e : ℤ} {s v : Session} (hroom : s.parser.InBuffer)
    (hruns : Runs Performs (stepping env k n e) s v) : s.gdb.Connected := by
  have hfirst : ∃ l rest, stepping env k n e = (.token (env.from k) 0 stepPacket, l) :: rest := by
    cases n with
    | zero => exact ⟨_, _, rfl⟩
    | succ n => exact ⟨_, _, stepping_succ env k n e⟩
  obtain ⟨l, rest, heq⟩ := hfirst
  rw [heq] at hruns
  cases hruns with
  | cons head tail => exact serveToken_packet_connected _ 0 hroom rfl (perform_token head.1)

end returns

end ArmSim
