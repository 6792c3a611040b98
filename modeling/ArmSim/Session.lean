import ArmSim.Discipline
import ArmSim.Handlers
import ArmSim.Lib.Simulation
import ArmSim.Target

/-! The two threads of `arm_simulator.c` on one machine: the debugger's tokens and the bytes of the
interrupt connection, in any order.  The lock makes each of them one step. -/
namespace ArmSim
open Lib

/-- What one of the threads does while it holds the lock, or without touching the machine. -/
inductive Activity where
  | token (env : GdbEnv) (fuel : ℕ) (token : Token Byte)
  | irq (env : Env) (irq : Byte)

/-- `struct parser_data` with the protocol data. -/
structure Session where
  parser : ParserData
  gdb : Gdb

section session
variable [Platform]

/-- The body of the loop of `irq_listener`; nobody looks at the result. -/
def irqListener (env : Env) (gdb : Gdb) (irq : Byte) : Except GdbFault Gdb := do
  let (_, arm) ← simulated (armException env gdb.arm irq.toNat)
  return { gdb with arm := arm }

def perform (s : Session) (a : Activity) : Except GdbFault Session :=
  match a with
  | .token env fuel token => do
    let (parser, gdb) ← serveToken env fuel s.parser s.gdb token
    return ⟨parser, gdb⟩
  | .irq env irq => do
    return ⟨s.parser, ← irqListener env s.gdb irq⟩

end session

/-! What the machine does not notice. -/

/-- What has been answered since `sent`. -/
def answersSince (sent now : List Sent) : List Sent := (now.drop sent.length).filter Sent.answers

/-- The commands that change the machine or the breakpoints, and the end of the connection. -/
def changing : List Byte := text "cCsSGXPZzk"

/-- A packet that is damaged, or asks for something, or has no handler. -/
def Asks (env : GdbEnv) (packet : List Byte) : Prop :=
  ¬ChecksumTest env packet ∨ commandOf env packet ∉ changing

/-- Characters outside the packets, acknowledgements, packets that ask, and bytes that
`arm_exception` passes through. -/
def Activity.Unnoticed : Activity → Prop
  | .token env _ t => t.rule = some 2 → Asks env t.text
  | .irq _ e => e.toNat ∉ [Exc.RESET, Exc.INTERRUPT, Exc.SOFTWARE_INTERRUPT]

/-- A request to send the last frame again. -/
def Activity.Retransmits : Activity → Prop
  | .token _ _ t => t.rule = some 1
  | .irq _ _ => False

section target
variable [Platform] (env : GdbEnv) (fuel : ℕ) {gdb g : Gdb}

/-- The computation, if it returns, has left the target. -/
abbrev Leaves (gdb : Gdb) (x : Except GdbFault Gdb) : Prop :=
  Ends x (fun g => g.target = gdb.target) (fun _ => True)

omit [Platform] in
theorem sendData_leaves (gdb : Gdb) {s : List Byte} (hs : Plain s) :
    Leaves gdb (gdbSendData gdb s) :=
  (gdbSendData_ends gdb (fun c hc => (hs c hc).1)).mono (fun _ h => h.target) (fun _ _ => trivial)

omit [Platform] in
theorem query_leaves (data : List Byte) : Leaves gdb (query gdb data) := by
  unfold query
  apply (ends_trivial _).bind
  intro s _
  split_ifs
  · exact sendData_leaves gdb (plain_text _ rfl)
  · exact sendData_leaves gdb (plain_text _ rfl)
  · exact sendData_leaves gdb (plain_text _ rfl)
  · exact sendData_leaves gdb plain_nil
  · exact sendData_leaves gdb plain_nil

omit [Platform] in
theorem setThread_leaves (data : List Byte) : Leaves gdb (setThread gdb data) := by
  unfold setThread
  split
  · trivial
  · apply (ends_trivial _).bind
    intro value _
    exact ends_ite (fun _ => sendData_leaves gdb (plain_text _ rfl))
      (fun _ => sendData_leaves gdb (plain_text _ rfl))

omit [Platform] in
theorem readMemory_leaves (data : List Byte) : Leaves gdb (readMemory env gdb data) := by
  unfold readMemory
  apply (ends_trivial _).bind
  rintro ⟨address, size⟩ _
  have hput (t : List Byte) : Ends (gdb.put 1 (t ++ [0])) (Built gdb t) (fun _ => True) :=
    ((building_nil gdb).put t).mono (fun _ h => h) (fun _ _ => trivial)
  have hsend {t : List Byte} {g : Gdb} (hg : Built gdb t g) (ht : Plain t) :
      Leaves gdb (gdbSendBuffer g) :=
    (hg.send (fun c hc => (ht c hc).1)).mono (fun _ h => h.target) (fun _ _ => trivial)
  apply ends_ite
  · intro _
    apply (hput []).bind
    intro g hg
    apply (readMemoryLoop_ends size.toNat hg plain_nil address).bind
    rintro g' ⟨t, ht, hbuilt⟩
    exact hsend hbuilt ht
  · intro _
    apply (hput (text "E0E")).bind
    intro g hg
    exact hsend hg (plain_text _ rfl)

theorem readSingleRegister_leaves (data : List Byte) :
    Leaves gdb (readSingleRegister gdb data) := by
  unfold readSingleRegister
  apply (ends_trivial _).bind
  intro reg _
  by_cases hreg : reg.toNat % 256 < 16
  · have hread := readRegister_ends (building_nil gdb) (by decide) hreg
    apply (hread.mono (fun _ h => h) (fun _ _ => trivial)).bind
    intro g hg
    exact (hg.send (fun c hc => (plain_hexText 8 _ c hc).1)).mono (fun _ h => h.target)
      (fun _ _ => trivial)
  · unfold readRegister
    rw [if_neg hreg]
    trivial

/-- The commands outside `changing` leave the target. -/
theorem handler_leaves {index : Byte} (hindex : index ∉ changing) (data : List Byte)
    {handle : Gdb → List Byte → Except GdbFault Gdb} (h : handler env fuel index = some handle) :
    Leaves gdb (handle gdb data) := by
  have hchange {c : Byte} {x : Except GdbFault Gdb} (hc : c ∈ changing) (hi : index = c) :
      Leaves gdb x := absurd (hi ▸ hc) hindex
  unfold handler at h
  split at h
  · exact hchange (c := 0x63) (by decide) rfl
  · exact hchange (c := 0x43) (by decide) rfl
  · exact hchange (c := 0x6B) (by decide) rfl
  · cases h
    exact query_leaves data
  · cases h
    exact (readGeneralRegisters_ends gdb data).mono (fun _ h => h.target) (fun _ _ => trivial)
  · cases h
    exact readMemory_leaves env data
  · cases h
    exact readSingleRegister_leaves data
  · cases h
    exact sendData_leaves gdb (plain_stopReason _)
  · cases h
    exact setThread_leaves data
  · exact hchange (c := 0x73) (by decide) rfl
  · exact hchange (c := 0x53) (by decide) rfl
  · exact hchange (c := 0x47) (by decide) rfl
  · exact hchange (c := 0x58) (by decide) rfl
  · exact hchange (c := 0x50) (by decide) rfl
  · exact hchange (c := 0x7A) (by decide) rfl
  · exact hchange (c := 0x5A) (by decide) rfl
  · cases h

omit [Platform] in
theorem rioWriten_leaves (gdb : Gdb) (bytes : List Byte) : Leaves gdb (rioWriten gdb bytes) :=
  ends_ite (fun _ => gdb.wrote_target bytes) (fun _ => trivial)

/-- A packet that asks leaves the target. -/
theorem gdbPacketAnalysis_leaves {packet : List Byte} (h : Asks env packet) :
    Leaves gdb (gdbPacketAnalysis env fuel gdb packet) := by
  by_cases htest : ChecksumTest env packet
  · -- The sum is right here, so the command is none of those that change something.
    have hcommand : commandOf env packet ∉ changing := h.resolve_left (not_not.mpr htest)
    rw [gdbPacketAnalysis_intact env fuel gdb htest]
    apply (rioWriten_leaves gdb [0x2B]).bind
    intro g hg
    split
    · rename_i handle hhandle
      exact (handler_leaves env fuel hcommand _ hhandle).imp (fun _ hleft => hleft.trans hg)
    · exact (sendData_leaves g plain_nil).imp (fun _ hleft => hleft.trans hg)
  · rw [gdbPacketAnalysis_damaged env fuel gdb htest]
    exact (ends_trivial _).bind (fun _ _ => rioWriten_leaves gdb [0x2D])

/-- Analysing a packet does the same from the same target. -/
theorem gdbPacketAnalysis_alike {gdb gdb' : Gdb} (htarget : gdb'.target = gdb.target)
    (packet : List Byte) :
    AlikeFrom gdb gdb' (gdbPacketAnalysis env fuel gdb packet)
      (gdbPacketAnalysis env fuel gdb' packet) := by
  have hack : gdb'.acked.target = gdb.acked.target := by
    rw [Gdb.wrote_target, Gdb.wrote_target, htarget]
  -- What follows the acknowledgement follows what was sent before it.
  have hbefore {x y : Except GdbFault Gdb}
      (h : AlikeFrom gdb.acked gdb'.acked x y) : AlikeFrom gdb gdb' x y := by
    apply h.imp
    rintro a b ⟨hab, out, ha, hb⟩
    refine ⟨hab, .written [0x2B] :: out, ?_, ?_⟩
    · rw [ha]
      exact List.append_assoc _ _ _
    · rw [hb]
      exact List.append_assoc _ _ _
  unfold gdbPacketAnalysis
  apply agree_bind
  intro given _
  refine agree_ite Iff.rfl (fun _ _ => ?_) (fun _ _ => ?_)
  case refine_2 =>
    apply (rioWriten_agree htarget (List.cons_ne_nil _ _)).imp
    rintro a b ⟨rfl, rfl⟩
    exact ⟨by rw [Gdb.wrote_target, Gdb.wrote_target, htarget], _, rfl, rfl⟩
  apply (rioWriten_agree htarget (List.cons_ne_nil _ _)).bind
  rintro a b - - ⟨rfl, rfl⟩
  dsimp only
  split
  · rename_i handle hhandle
    exact hbefore (handler_alike env fuel hack _ hhandle)
  · exact hbefore ((quiet_refl hack).send plain_nil (by decide))

end target

/-- The rule sends what is pending, where there is any; the last rule, where its character would
leave no room. -/
def Flushes (rule : Option ℕ) (len : ℕ) : Prop :=
  match rule with
  | some 0 | some 1 | some 2 => len ≠ 0
  | some 3 => MAX_ERROR_SIZE - 2 < len
  | _ => False

/-- The characters in the error buffer after the action of a rule. -/
def lenAfter (rule : Option ℕ) (len : ℕ) : ℕ :=
  match rule with
  | some 0 | some 1 | some 2 => 0
  | some 3 => if MAX_ERROR_SIZE - 2 < len then 1 else len + 1
  | _ => len

section pending
variable {rule : Option ℕ} {m n : ℕ}

/-- With fewer characters a rule sends nothing where it sends nothing with more. -/
theorem flushes_mono (hle : m ≤ n) (h : ¬Flushes rule n) :
    ¬Flushes rule m ∧ lenAfter rule m ≤ lenAfter rule n := by
  unfold Flushes lenAfter at *
  grind

/-- Without a flush the buffer does not shrink. -/
theorem le_lenAfter (h : ¬Flushes rule n) : n ≤ lenAfter rule n := by
  unfold Flushes at h
  unfold lenAfter
  grind

theorem handleError_len {data : ParserData} (h : data.InBuffer) :
    Ends (handleError data)
      (fun r => r.1.len = 0 ∧ (.requireRetransmission ∈ r.2 ↔ data.len ≠ 0)) (fun _ => False) := by
  obtain ⟨data', hlen, hflush⟩ := handleError_flush h
  rw [hflush]
  refine ⟨hlen, ?_⟩
  split <;> simp_all

/-- The action of a token on the characters that belong to no packet. -/
theorem tokenAction_len {data : ParserData} (h : data.InBuffer) (t : Token Byte) :
    Ends (tokenAction data t)
      (fun r => r.1.len = lenAfter t.rule data.len ∧
        (.requireRetransmission ∈ r.2 ↔ Flushes t.rule data.len)) (fun _ => False) := by
  obtain ⟨rule, text⟩ := t
  have hflush (event : Event) (hevent : event ≠ .requireRetransmission) :
      Ends (handleError data >>= fun r => pure (r.1, r.2 ++ [event]))
        (fun r => r.1.len = 0 ∧ (.requireRetransmission ∈ r.2 ↔ data.len ≠ 0))
        (fun _ => False) := by
    apply (handleError_len h).bind
    rintro r ⟨hlen, hmem⟩
    refine ⟨hlen, ?_⟩
    rw [List.mem_append, hmem, List.mem_singleton]
    exact or_iff_left hevent.symm
  have hecho : Ends (.ok (data, [.echo text]) : Except Crash (ParserData × List Event))
      (fun r => r.1.len = data.len ∧ (.requireRetransmission ∈ r.2 ↔ False)) (fun _ => False) :=
    ⟨rfl, by simp⟩
  match rule with
  | none => exact hecho
  | some 0 => exact handleError_len h
  | some 1 => exact hflush .transmitPacket (by simp)
  | some 2 => exact hflush (.packetAnalysis text) (by simp)
  | some 3 =>
    change Ends (addCharacterToError data (text.headD 0)) _ _
    unfold addCharacterToError Flushes lenAfter
    have hfirst : Ends (if MAX_ERROR_SIZE - 2 < data.len then handleError data
        else pure (data, []))
        (fun r => r.1.len = (if MAX_ERROR_SIZE - 2 < data.len then 0 else data.len) ∧
          (.requireRetransmission ∈ r.2 ↔ MAX_ERROR_SIZE - 2 < data.len)) (fun _ => False) := by
      refine ends_ite (fun hlt => ?_) (fun hle => ?_)
      · rw [if_pos hlt]
        apply (handleError_len h).imp
        exact fun r hr => ⟨hr.1, hr.2.trans (iff_of_true (by omega) hlt)⟩
      · rw [if_neg hle]
        exact ⟨rfl, iff_of_false List.not_mem_nil hle⟩
    apply hfirst.bind
    rintro r ⟨hlen, hmem⟩
    have hroom : r.1.InBuffer := by
      unfold ParserData.InBuffer at *
      split at hlen <;> omega
    apply (store_ends hroom _).bind
    intro data' hdata'
    refine ⟨?_, hmem⟩
    dsimp only
    rw [hdata', hlen]
    split <;> rfl
  | some (n + 4) => exact hecho

end pending

section steps
variable [Platform] (env : GdbEnv) (fuel : ℕ)

theorem serveToken_room {data : ParserData} (h : data.InBuffer) (gdb : Gdb) (t : Token Byte) :
    Ends (serveToken env fuel data gdb t) (fun r => r.1.InBuffer) (fun _ => True) := by
  unfold serveToken
  apply ((simulated_ends (tokenAction_acts h t)).mono (fun _ h => h) (fun _ _ => trivial)).bind
  rintro ⟨data', events⟩ ⟨hroom, -⟩
  exact (ends_trivial _).bind (fun g _ => hroom)

omit [Platform] in
theorem pending_target (gdb : Gdb) (data : ParserData) :
    Gdb.target { gdb with sent := gdb.sent ++ pending data } = gdb.target :=
  target_eq rfl rfl rfl (propext (pending_connected data))

omit [Platform] in
theorem Murmurs.target {gdb g : Gdb} (h : Murmurs gdb g) : g.target = gdb.target := by
  have hconnected := h.connected
  obtain ⟨out, rfl, -⟩ := h
  exact target_eq rfl rfl rfl (propext hconnected)

/-- A token that is no packet leaves the target. -/
theorem serveToken_leaves {data : ParserData} (h : data.InBuffer) (gdb : Gdb) {t : Token Byte}
    (h2 : t.rule ≠ some 2) :
    Ends (serveToken env fuel data gdb t) (fun r => r.2.target = gdb.target) (fun _ => True) := by
  by_cases h1 : t.rule = some 1
  case neg =>
    exact (serveToken_noise env fuel h gdb h1 h2).mono (fun _ hr => hr.target) (fun _ _ => trivial)
  obtain ⟨rule, text⟩ := t
  dsimp only at h1
  subst h1
  -- The last frame is sent again behind what is pending.
  obtain ⟨data', -, hserve⟩ := serveToken_flush env fuel h gdb ⟨some 1, text⟩ .transmitPacket rfl
  have hleaves : Leaves gdb (sendPending data gdb >>= gdbTransmitPacket) := by
    have hpending : Leaves gdb (sendPending data gdb) :=
      ends_ite (fun _ => rioWriten_leaves gdb _) (fun _ => rfl)
    apply hpending.bind
    exact fun g hg => (rioWriten_leaves g _).imp (fun _ h => h.trans hg)
  rw [hserve]
  exact hleaves.map

/-- Behind a shutdown no event that writes is survived. -/
theorem runEvents_severed {gdb : Gdb} (h : ¬gdb.Connected) {events : List Event}
    (hmem : .requireRetransmission ∈ events) (g : Gdb) :
    events.foldlM (runEvent env fuel) gdb ≠ .ok g := by
  intro hok
  induction events generalizing gdb with
  | nil => exact absurd hmem List.not_mem_nil
  | cons event events ih =>
    rw [List.foldlM_cons] at hok
    obtain ⟨g₁, hevent, hrest⟩ := bind_eq_ok.mp hok
    have hwrite {bytes : List Byte} (hw : rioWriten gdb bytes = .ok g₁) : ¬g₁.Connected :=
      fun hconnected => h ((connected_iff ((rioWriten_leaves gdb bytes).value hw)).mp hconnected)
    have hlater (hne : event ≠ .requireRetransmission) : .requireRetransmission ∈ events :=
      (List.mem_cons.mp hmem).resolve_left hne.symm
    cases event with
    | requireRetransmission =>
      have hbroken : runEvent env fuel gdb .requireRetransmission = .error .brokenPipe :=
        rioWriten_severed h (List.cons_ne_nil _ _)
      rw [hbroken] at hevent
      cases hevent
    | transmitPacket => exact ih (hwrite hevent) (hlater (by simp)) hrest
    | packetAnalysis yytext =>
      exact h ((gdbPacketAnalysis_connected env fuel gdb yytext).value hevent).1
    | echo yytext =>
      obtain rfl := Except.ok.inj hevent
      exact ih h (hlater (by simp)) hrest

/-- The error buffer behind a token; behind a shutdown nothing of it has been sent. -/
theorem serveToken_len {data : ParserData} (h : data.InBuffer) (gdb : Gdb) (t : Token Byte) :
    Ends (serveToken env fuel data gdb t)
      (fun r => r.1.len = lenAfter t.rule data.len ∧
        (¬gdb.Connected → ¬Flushes t.rule data.len)) (fun _ => True) := by
  unfold serveToken
  apply ((simulated_ends (tokenAction_len h t)).mono (fun _ h => h) (fun _ _ => trivial)).bind
  rintro ⟨data', events⟩ ⟨hlen, hmem⟩
  apply Ends.bind (ends_of_value (P := fun g => events.foldlM (runEvent env fuel) gdb = .ok g)
    (fun _ h => h) (fun _ _ => trivial))
  intro g hg
  exact ⟨hlen, fun hsevered hflushes =>
    runEvents_severed env fuel hsevered (hmem.mpr hflushes) g hg⟩

/-- Noise is served on a connection, or where there is nothing to send. -/
theorem serveToken_murmurs {data : ParserData} (h : data.InBuffer) (gdb : Gdb) {t : Token Byte}
    (h1 : t.rule ≠ some 1) (h2 : t.rule ≠ some 2)
    (hquiet : ¬gdb.Connected → ¬Flushes t.rule data.len) :
    ∃ r, serveToken env fuel data gdb t = .ok r ∧ Murmurs gdb r.2 := by
  have hnoise := serveToken_noise env fuel h gdb h1 h2
  by_cases hconnected : gdb.Connected
  · exact (hnoise.safe fun _ => not_severed hconnected).exists_ok
  · obtain ⟨⟨data', events⟩, haction, ⟨-, hmem⟩, hevents⟩ :=
      ((tokenAction_len h t).both ((tokenAction_noise h h1 h2).mono (F := fun _ => True)
        (fun _ h => h) (fun _ _ => trivial))).mono (F := fun _ => False) (fun _ h => h)
        (fun _ he => he.1) |>.exists_ok
    have hsilent : ∀ e ∈ events, ∃ yytext, e = .echo yytext := by
      intro e he
      have hne : e ≠ .requireRetransmission := fun heq =>
        hquiet hconnected (hmem.mp (heq ▸ he))
      cases e with
      | echo yytext => exact ⟨yytext, rfl⟩
      | requireRetransmission => exact absurd rfl hne
      | transmitPacket => exact (hevents _ he).elim
      | packetAnalysis yytext => exact (hevents _ he).elim
    have hfold (es : List Event) (hes : ∀ e ∈ es, ∃ yytext, e = .echo yytext) :
        es.foldlM (runEvent env fuel) gdb = .ok gdb := by
      induction es with
      | nil => rfl
      | cons e es ih =>
        obtain ⟨yytext, rfl⟩ := hes e List.mem_cons_self
        rw [List.foldlM_cons]
        exact ih (fun e he => hes e (List.mem_cons_of_mem _ he))
    refine ⟨(data', gdb), ?_, [], by rw [List.append_nil], rfl⟩
    unfold serveToken
    rw [haction]
    change List.foldlM (runEvent env fuel) gdb events >>= _ = _
    rw [hfold events hsilent]
    rfl

omit [Platform] in
theorem answersSince_append (sent out : List Sent) :
    answersSince sent (sent ++ out) = out.filter Sent.answers := by
  unfold answersSince
  rw [List.drop_left]

omit [Platform] in
theorem Murmurs.answers {gdb g : Gdb} (h : Murmurs gdb g) : answersSince gdb.sent g.sent = [] := by
  obtain ⟨out, rfl, hout⟩ := h
  rw [answersSince_append, hout]

omit [Platform] in
theorem pending_answers (data : ParserData) : (pending data).filter Sent.answers = [] := by
  unfold pending
  split <;> rfl

/-- An activity together with what is answered to it. -/
def Performs (l : Activity × List Sent) (s t : Session) : Prop :=
  perform s l.1 = .ok t ∧ answersSince s.gdb.sent t.gdb.sent = l.2

/-- Two sessions on the same target.  Where the connection has been shut down, the second has
nothing pending that the first has not. -/
structure Matches (s t : Session) : Prop where
  target : t.gdb.target = s.gdb.target
  room : s.parser.InBuffer
  room' : t.parser.InBuffer
  fewer : ¬s.gdb.Connected → t.parser.len ≤ s.parser.len

variable {env fuel}

theorem perform_token {s s' : Session} {t : Token Byte}
    (h : perform s (.token env fuel t) = .ok s') :
    serveToken env fuel s.parser s.gdb t = .ok (s'.parser, s'.gdb) := by
  obtain ⟨⟨parser, gdb⟩, hserve, hs'⟩ := bind_eq_ok.mp h
  rw [hserve, ← Except.ok.inj hs']

theorem perform_of_serve {s : Session} {t : Token Byte} {parser : ParserData} {gdb : Gdb}
    (h : serveToken env fuel s.parser s.gdb t = .ok (parser, gdb)) :
    perform s (.token env fuel t) = .ok ⟨parser, gdb⟩ := by
  unfold perform
  dsimp only
  rw [h]
  rfl

theorem perform_irq {env : Env} {s s' : Session} {e : Byte} (h : perform s (.irq env e) = .ok s') :
    ∃ r arm, armException env s.gdb.arm e.toNat = .ok (r, arm) ∧
      s' = ⟨s.parser, { s.gdb with arm := arm }⟩ := by
  obtain ⟨gdb, hirq, hs'⟩ := bind_eq_ok.mp h
  obtain ⟨⟨r, arm⟩, hexception, hgdb⟩ := bind_eq_ok.mp hirq
  refine ⟨r, arm, ?_, ?_⟩
  · cases hx : armException env s.gdb.arm e.toNat with
    | error c =>
      rw [hx] at hexception
      cases hexception
    | ok x =>
      rw [hx] at hexception
      have hx' : x = (r, arm) := Except.ok.inj hexception
      rw [hx']
  · rw [← Except.ok.inj hs', ← Except.ok.inj hgdb]

theorem performs_room {l : Activity × List Sent} {s s' : Session} (hroom : s.parser.InBuffer)
    (h : Performs l s s') : s'.parser.InBuffer := by
  obtain ⟨a, out⟩ := l
  cases a with
  | token env fuel t => exact (serveToken_room env fuel hroom s.gdb t).value (perform_token h.1)
  | irq env e =>
    obtain ⟨r, arm, -, rfl⟩ := perform_irq h.1
    exact hroom

/-- An activity other than a request to retransmit is answered alike from the same target. -/
theorem performs_matched {l : Activity × List Sent} (hl : ¬l.1.Retransmits) {s s' t : Session}
    (h : Matches s t) (hstep : Performs l s s') : ∃ t', Performs l t t' ∧ Matches s' t' := by
  obtain ⟨a, out⟩ := l
  obtain ⟨hperform, hout⟩ := hstep
  dsimp only at hl hperform hout
  cases a with
  | irq env e =>
    obtain ⟨r, arm, hexception, rfl⟩ := perform_irq hperform
    have harm : t.gdb.arm = s.gdb.arm := congrArg Target.arm h.target
    have hnone (sent : List Sent) : answersSince sent sent = [] := by
      rw [answersSince, List.drop_length, List.filter_nil]
    refine ⟨⟨t.parser, { t.gdb with arm := arm }⟩, ⟨?_, ?_⟩, ?_, h.room, h.room', h.fewer⟩
    · unfold perform irqListener
      dsimp only
      rw [harm, hexception]
      rfl
    · exact (hnone t.gdb.sent).trans ((hnone s.gdb.sent).symm.trans hout)
    · exact target_eq (congrArg Target.table h.target) rfl
        (congrArg Target.targetException h.target) (congrArg Target.connected h.target)
  | token env fuel tok =>
    have hserve := perform_token hperform
    have hroom : s'.parser.InBuffer := (serveToken_room env fuel h.room s.gdb tok).value hserve
    by_cases h2 : tok.rule = some 2
    · have hconnected := serveToken_packet_connected env fuel h.room h2 hserve
      have hconnected' := (connected_iff h.target).mpr hconnected
      obtain ⟨data, hlen, hs⟩ := serveToken_packet env fuel h.room hconnected h2
      obtain ⟨data', hlen', ht⟩ := serveToken_packet env fuel h.room' hconnected' h2
      rw [hs] at hserve
      obtain ⟨g, hg, heq⟩ := map_eq_ok.mp hserve
      obtain rfl : g = s'.gdb := congrArg Prod.snd heq
      obtain rfl : data = s'.parser := congrArg Prod.fst heq
      have hbefore : Gdb.target { t.gdb with sent := t.gdb.sent ++ pending t.parser } =
          Gdb.target { s.gdb with sent := s.gdb.sent ++ pending s.parser } := by
        rw [pending_target, pending_target, h.target]
      obtain ⟨g', hg', hsame⟩ :=
        (gdbPacketAnalysis_alike env fuel hbefore tok.text).exists_ok hg
      obtain ⟨htarget, sent, hfirst, hsecond⟩ := hsame
      have hserve' : serveToken env fuel t.parser t.gdb tok = .ok (data', g') := by
        rw [ht, hg']
        rfl
      -- What is pending is no answer, and differs between the two.
      have hanswers (before noise now : List Sent) (hnow : now = before ++ noise ++ sent)
          (hnoise : noise.filter Sent.answers = []) :
          answersSince before now = sent.filter Sent.answers := by
        rw [hnow, List.append_assoc, answersSince_append, List.filter_append, hnoise,
          List.nil_append]
      refine ⟨⟨data', g'⟩, ⟨perform_of_serve hserve', ?_⟩, htarget, hroom,
        (serveToken_room env fuel h.room' t.gdb tok).value hserve', fun _ => by rw [hlen', hlen]⟩
      rw [← hout, hanswers _ _ _ hfirst (pending_answers _),
        hanswers _ _ _ hsecond (pending_answers _)]
    · have hmurmurs : Murmurs s.gdb s'.gdb :=
        (serveToken_noise env fuel h.room s.gdb hl h2).value hserve
      obtain ⟨hlen, hquiet⟩ := (serveToken_len env fuel h.room s.gdb tok).value hserve
      have hfewer (hsevered : ¬s.gdb.Connected) := flushes_mono (h.fewer hsevered) (hquiet hsevered)
      obtain ⟨⟨data', g'⟩, hserve', hmurmurs'⟩ :=
        serveToken_murmurs env fuel h.room' t.gdb hl h2 (fun hsevered =>
          (hfewer (fun hconnected => hsevered ((connected_iff h.target).mpr hconnected))).1)
      have hlen' := ((serveToken_len env fuel h.room' t.gdb tok).value hserve').1
      refine ⟨⟨data', g'⟩, ⟨perform_of_serve hserve', ?_⟩, ?_, hroom,
        (serveToken_room env fuel h.room' t.gdb tok).value hserve', fun hsevered => ?_⟩
      · rw [← hout, hmurmurs.answers, hmurmurs'.answers]
      · rw [hmurmurs.target, hmurmurs'.target, h.target]
      · dsimp only at hlen hlen' ⊢
        rw [hlen, hlen']
        exact (hfewer (fun hconnected => hsevered (hmurmurs.connected.mpr hconnected))).2

/-- An activity that the machine does not notice leaves the target. -/
theorem performs_unnoticed {l : Activity × List Sent} (hl : l.1.Unnoticed) {s s' t : Session}
    (h : Matches s t) (hstep : Performs l s s') : Matches s' t := by
  obtain ⟨a, out⟩ := l
  have hperform := hstep.1
  dsimp only at hl hperform
  cases a with
  | irq env e =>
    obtain ⟨r, arm, hexception, rfl⟩ := perform_irq hperform
    change e.toNat ∉ [1, 4, 8] at hl
    simp only [List.mem_cons, List.not_mem_nil, or_false, not_or] at hl
    rw [armException_other env s.gdb.arm hl.2.2 hl.2.1 hl.1] at hexception
    cases hexception
    exact h
  | token env fuel tok =>
    have hserve := perform_token hperform
    have hleft : s'.gdb.target = s.gdb.target := by
      by_cases h2 : tok.rule = some 2
      · have hconnected := serveToken_packet_connected env fuel h.room h2 hserve
        obtain ⟨data, -, hs⟩ := serveToken_packet env fuel h.room hconnected h2
        rw [hs] at hserve
        obtain ⟨g, hg, heq⟩ := map_eq_ok.mp hserve
        obtain rfl : g = s'.gdb := congrArg Prod.snd heq
        rw [(gdbPacketAnalysis_leaves env fuel (hl h2)).value hg, pending_target]
      · exact (serveToken_leaves env fuel h.room s.gdb h2).value hserve
    obtain ⟨hlen, hquiet⟩ := (serveToken_len env fuel h.room s.gdb tok).value hserve
    refine ⟨?_, (serveToken_room env fuel h.room s.gdb tok).value hserve, h.room',
      fun hsevered => ?_⟩
    · rw [h.target, hleft]
    · have hsevered' : ¬s.gdb.Connected := fun hconnected =>
        hsevered ((connected_iff hleft).mpr hconnected)
      dsimp only at hlen
      rw [hlen]
      exact (h.fewer hsevered').trans (le_lenAfter (hquiet hsevered'))

end steps

section runs
variable [Platform]

/-- Activities one after the other, each with what is answered to it. -/
def performAll : List Activity → Session → Except GdbFault (List (Activity × List Sent) × Session)
  | [], s => return ([], s)
  | a :: as, s => do
    let t ← perform s a
    let (ls, u) ← performAll as t
    return ((a, answersSince s.gdb.sent t.gdb.sent) :: ls, u)

theorem runs_of_performAll {as : List Activity} {ls : List (Activity × List Sent)} {s u : Session}
    (h : performAll as s = .ok (ls, u)) : Runs Performs ls s u := by
  induction as generalizing ls s with
  | nil =>
    cases h
    exact .nil _
  | cons a as ih =>
    obtain ⟨t, ht, h⟩ := bind_eq_ok.mp h
    obtain ⟨⟨ks, u'⟩, hrest, h⟩ := bind_eq_ok.mp h
    cases h
    exact .cons ⟨ht, rfl⟩ (ih hrest)

end runs

/-- A session that begins: `malloc` leaves the breakpoints and both buffers as they are. -/
def Session.start (arm : ArmCore) (breakpoints : ℕ → Word) (packet : ℕ → Byte)
    (buffer : Vector Byte MAX_ERROR_SIZE) : Session :=
  ⟨⟨buffer, 0⟩, gdbInitData arm breakpoints packet⟩

theorem matches_start (arm : ArmCore) (breakpoints : ℕ → Word) (packet packet' : ℕ → Byte)
    (buffer buffer' : Vector Byte MAX_ERROR_SIZE) :
    Matches (Session.start arm breakpoints packet buffer)
      (Session.start arm breakpoints packet' buffer') where
  target := rfl
  room := Nat.zero_le _
  room' := Nat.zero_le _
  fewer := fun _ => Nat.le_refl _

/-- `MOV r0, #1` in user mode. -/
abbrev oneMove : ArmCore := ArmCore.boot 0x10 [0xE3, 0xA0, 0x00, 0x01]

/-- A session in which something is asked, damaged and sent again, and a breakpoint is set before
the step. -/
abbrev looksAndSteps : List (Activity × List Sent) :=
  [(.token zeroEnv 0 ⟨some 3, text "x"⟩, []),
    (.token zeroEnv 0 ⟨some 2, text "$?#3f"⟩, [.written (text "$S05#b8")]),
    (.irq ⟨0, 0, 0, 0⟩ 3, []),
    (.token zeroEnv 0 ⟨some 2, text "$g#00"⟩, []),
    (.token zeroEnv 0 ⟨some 1, text "-"⟩, [.written (text "$S05#b8")]),
    (.token zeroEnv 0 ⟨some 2, text "$Z0,4,4#4a"⟩, [.written (text "$OK#9a")]),
    (.token zeroEnv 0 ⟨some 2, text "$s#73"⟩, [.written (text "$S05#b8")])]

theorem looksAndSteps_runs : ∃ s, Runs (@Performs makefile) looksAndSteps
    (Session.start oneMove (fun _ => 0) (fun _ => 0) (.replicate _ 0)) s := by
  have hall : (@performAll makefile (looksAndSteps.map Prod.fst)
      (Session.start oneMove (fun _ => 0) (fun _ => 0) (.replicate _ 0))).map Prod.fst =
        .ok looksAndSteps := rfl
  obtain ⟨⟨ls, s⟩, hperform, hls⟩ := map_eq_ok.mp hall
  dsimp only at hls
  rw [hls] at hperform
  exact ⟨s, @runs_of_performAll makefile _ _ _ _ hperform⟩

end ArmSim
