import ArmSim.PacketAnalysis
import ArmSim.Step

/-! The discipline of the connection, over whole sequences of tokens: what a packet is answered
with, and that the buffer keeps the last frame for retransmission. -/
namespace ArmSim
open Lib

/-- The last frame among what was sent: acknowledgements do not start with `$`. -/
def lastFrame (sent : List Sent) : List Byte :=
  sent.foldl (fun last s => match s with
    | .written w => if w.head? = some 0x24 then w else last
    | .shutdown => last) []

/-- A frame or the end of the connection, no acknowledgement. -/
def Sent.answers : Sent → Bool
  | .written w => w.head? = some 0x24
  | .shutdown => true

/-- What a token sends for the characters before it that belong to no packet. -/
def pending (data : ParserData) : List Sent := if data.len ≠ 0 then [.written [0x2D]] else []

/-- The same, as it is sent. -/
def sendPending (data : ParserData) (gdb : Gdb) : Except GdbFault Gdb :=
  if data.len ≠ 0 then gdbRequireRetransmission gdb else return gdb

/-- The token is an intact packet with the command `k`. -/
def Kills (env : GdbEnv) (t : Token Byte) : Prop :=
  t.rule = some 2 ∧ ChecksumTest env t.text ∧ commandOf env t.text = 0x6B

/-- The tokens of a connection in their order, each with what serving it finds outside. -/
def serveTokens [Platform] (data : ParserData) (gdb : Gdb) (ts : List (GdbEnv × ℕ × Token Byte)) :
    Except GdbFault (ParserData × Gdb) :=
  ts.foldlM (fun s t => serveToken t.1 t.2.1 s.1 s.2 t.2.2) (data, gdb)

section lastFrame

theorem lastFrame_written (sent : List Sent) (w : List Byte) :
    lastFrame (sent ++ [.written w]) = if w.head? = some 0x24 then w else lastFrame sent := by
  simp [lastFrame]

theorem lastFrame_shutdown (sent : List Sent) :
    lastFrame (sent ++ [.shutdown]) = lastFrame sent := by
  simp [lastFrame]

theorem lastFrame_frame (sent : List Sent) (payload : List Byte) :
    lastFrame (sent ++ [.written (frame payload)]) = frame payload := by
  rw [lastFrame_written]
  rfl

/-- A retransmission is the same frame again, or nothing where none has been sent. -/
theorem lastFrame_again (sent : List Sent) :
    lastFrame (sent ++ [.written (lastFrame sent)]) = lastFrame sent := by
  rw [lastFrame_written, ite_self]

end lastFrame

section events
variable [Platform] (env : GdbEnv) (fuel : ℕ) {gdb : Gdb}

/-- The buffer holds the last frame that was sent. -/
def Gdb.Keeps (gdb : Gdb) : Prop := slice gdb.packet 0 gdb.len = lastFrame gdb.sent

omit [Platform] in
theorem Gdb.Keeps.wrote (h : gdb.Keeps) {w : List Byte}
    (hw : lastFrame (gdb.sent ++ [.written w]) = lastFrame gdb.sent) : (gdb.wrote w).Keeps :=
  h.trans hw.symm

omit [Platform] in
theorem Answered.keeps {g : Gdb} (h : Answered gdb g) : g.Keeps := by
  obtain ⟨s, -, hsent, hbuffer⟩ := h
  unfold Gdb.Keeps
  rw [hbuffer, hsent, lastFrame_frame]

/-- A command is answered with one frame, `k` with the end of the connection. -/
theorem command_ends (gdb : Gdb) (index : Byte) (data : List Byte) :
    Ends (match handler env fuel index with
      | some handle => handle gdb data
      | none => gdbSendData gdb [])
      (fun g => if index = 0x6B then g = { gdb with sent := gdb.sent ++ [.shutdown] }
        else Answered gdb g)
      (fun _ => True) := by
  by_cases hk : index = 0x6B
  · rw [hk]
    rfl
  · simp only [if_neg hk]
    split
    · rename_i handle hhandle
      exact handler_answers env fuel gdb data hhandle hk
    · exact gdbSendData_answers plain_nil rfl

/-- Any text is asked for again, or acknowledged and answered, where there is a connection. -/
theorem gdbPacketAnalysis_ends (gdb : Gdb) (packet : List Byte) :
    Ends (gdbPacketAnalysis env fuel gdb packet)
      (fun g => gdb.Connected ∧ (g = gdb.wrote [0x2D] ∨ Answered gdb.acked g ∨
        ChecksumTest env packet ∧ commandOf env packet = 0x6B ∧
          g = { gdb.acked with sent := gdb.acked.sent ++ [.shutdown] }))
      (fun _ => True) := by
  by_cases htest : ChecksumTest env packet
  · rw [gdbPacketAnalysis_intact env fuel gdb htest]
    apply ((gdbSendAck_ends gdb).mono (fun _ h => h) (fun _ _ => trivial)).bind
    rintro g ⟨hconnected, rfl⟩
    apply (command_ends env fuel gdb.acked _ _).imp
    intro g hg
    split at hg
    · rename_i hk
      exact ⟨hconnected, Or.inr (Or.inr ⟨htest, hk, hg⟩)⟩
    · exact ⟨hconnected, Or.inr (Or.inl hg)⟩
  · rw [gdbPacketAnalysis_damaged env fuel gdb htest]
    apply (ends_trivial _).bind
    intro _ _
    apply (rioWriten_ends gdb (List.cons_ne_nil _ _)).mono
    · exact fun g hg => ⟨hg.1, Or.inl hg.2⟩
    · exact fun _ _ => trivial

omit [Platform] in
theorem Answered.connected {g : Gdb} (h : Answered gdb g) (hconnected : gdb.Connected) :
    g.Connected := by
  obtain ⟨s, -, hsent, -⟩ := h
  unfold Gdb.Connected
  rw [hsent]
  simpa [Gdb.Connected] using hconnected

/-- Only `k` ends the connection. -/
theorem gdbPacketAnalysis_connected (gdb : Gdb) (packet : List Byte) :
    Ends (gdbPacketAnalysis env fuel gdb packet)
      (fun g => gdb.Connected ∧
        (g.Connected ↔ ¬(ChecksumTest env packet ∧ commandOf env packet = 0x6B)))
      (fun _ => True) := by
  by_cases hkills : ChecksumTest env packet ∧ commandOf env packet = 0x6B
  · obtain ⟨htest, hk⟩ := hkills
    rw [gdbPacketAnalysis_intact env fuel gdb htest, hk]
    apply ((gdbSendAck_ends gdb).mono (fun _ h => h) (fun _ _ => trivial)).bind
    rintro g ⟨hconnected, rfl⟩
    refine ⟨hconnected, ?_, fun hnot => absurd ⟨htest, rfl⟩ hnot⟩
    exact fun hstill => absurd (List.mem_append_right _ List.mem_cons_self) hstill
  · apply (gdbPacketAnalysis_ends env fuel gdb packet).imp
    rintro g ⟨hconnected, hends⟩
    refine ⟨hconnected, fun _ => hkills, fun _ => ?_⟩
    rcases hends with rfl | hanswered | ⟨htest, hk, -⟩
    · exact (gdb.wrote_connected _).mpr hconnected
    · exact hanswered.connected ((gdb.wrote_connected _).mpr hconnected)
    · exact absurd ⟨htest, hk⟩ hkills

theorem runEvent_keeps (h : gdb.Keeps) (event : Event) :
    Ends (runEvent env fuel gdb event) Gdb.Keeps (fun _ => True) := by
  have hwrite {w : List Byte}
      (hw : lastFrame (gdb.sent ++ [.written w]) = lastFrame gdb.sent) :
      Ends (rioWriten gdb w) Gdb.Keeps (fun _ => True) :=
    ends_ite (fun _ => h.wrote hw) (fun _ => trivial)
  cases event with
  | requireRetransmission => exact hwrite (lastFrame_written _ _)
  | transmitPacket =>
    -- The only place where the invariant is used: what is sent again is the last frame.
    apply hwrite
    rw [h]
    exact lastFrame_again gdb.sent
  | packetAnalysis yytext =>
    apply (gdbPacketAnalysis_ends env fuel gdb yytext).imp
    rintro g ⟨-, rfl | hg | ⟨-, -, rfl⟩⟩
    · exact h.wrote (lastFrame_written _ _)
    · exact hg.keeps
    · have hplus : gdb.acked.Keeps := h.wrote (lastFrame_written _ _)
      exact hplus.trans (lastFrame_shutdown _).symm
  | echo yytext => exact h

theorem runEvents_keeps (h : gdb.Keeps) (events : List Event) :
    Ends (events.foldlM (runEvent env fuel) gdb) Gdb.Keeps (fun _ => True) := by
  induction events generalizing gdb with
  | nil => exact h
  | cons event events ih =>
    rw [List.foldlM_cons]
    exact (runEvent_keeps env fuel h event).bind (fun g hg => ih hg)

end events

section tokens
variable [Platform]

/-- Between tokens the buffer holds the last frame, and the scanner's own buffer has room. -/
structure Served (data : ParserData) (gdb : Gdb) : Prop where
  room : data.InBuffer
  keeps : gdb.Keeps

theorem serveToken_served (env : GdbEnv) (fuel : ℕ) {data : ParserData} {gdb : Gdb}
    (h : Served data gdb) (token : Token Byte) :
    Ends (serveToken env fuel data gdb token) (fun r => Served r.1 r.2) (fun _ => True) := by
  unfold serveToken
  apply ((simulated_ends (tokenAction_acts h.room token)).mono (fun _ h => h)
    (fun _ _ => trivial)).bind
  rintro ⟨data', events⟩ ⟨hroom, -⟩
  apply (runEvents_keeps env fuel h.keeps events).bind
  intro g hg
  exact ⟨hroom, hg⟩

theorem serveTokens_served {data : ParserData} {gdb : Gdb} (h : Served data gdb)
    (ts : List (GdbEnv × ℕ × Token Byte)) :
    Ends (serveTokens data gdb ts) (fun r => Served r.1 r.2) (fun _ => True) := by
  induction ts generalizing data gdb with
  | nil => exact h
  | cons t ts ih =>
    unfold serveTokens
    rw [List.foldlM_cons]
    exact (serveToken_served t.1 t.2.1 h t.2.2).bind (fun r hr => ih hr)

omit [Platform] in
theorem served_init (arm : ArmCore) (breakpoints : ℕ → Word) (packet : ℕ → Byte)
    (buffer : Vector Byte MAX_ERROR_SIZE) :
    Served ⟨buffer, 0⟩ (gdbInitData arm breakpoints packet) :=
  ⟨Nat.zero_le _, rfl⟩

variable (env : GdbEnv) (fuel : ℕ) {data : ParserData}

omit [Platform] in
theorem handleError_flush (h : data.InBuffer) : ∃ data', data'.len = 0 ∧ handleError data =
    .ok (data', if data.len ≠ 0 then [.requireRetransmission] else []) := by
  unfold handleError
  by_cases hlen : data.len ≠ 0
  · obtain ⟨data', hstore, -⟩ := (store_ends h 0).exists_ok
    rw [if_pos hlen, if_pos hlen, hstore]
    exact ⟨_, rfl, rfl⟩
  · rw [if_neg hlen, if_neg hlen]
    exact ⟨data, Decidable.not_not.mp hlen, rfl⟩

omit [Platform] in
theorem sendPending_connected {gdb : Gdb} (h : gdb.Connected) (data : ParserData) :
    sendPending data gdb = .ok { gdb with sent := gdb.sent ++ pending data } := by
  unfold sendPending pending
  split
  · exact rioWriten_connected h _
  · rw [List.append_nil]
    rfl

omit [Platform] in
theorem sendPending_ends (gdb : Gdb) (data : ParserData) :
    Ends (sendPending data gdb) (· = { gdb with sent := gdb.sent ++ pending data })
      (Severed gdb) := by
  unfold sendPending pending
  split
  · exact (rioWriten_ends gdb (List.cons_ne_nil _ _)).imp (fun _ hg => hg.2)
  · rw [List.append_nil]
    rfl

omit [Platform] in
theorem pending_connected {gdb : Gdb} (data : ParserData) :
    Gdb.Connected { gdb with sent := gdb.sent ++ pending data } ↔ gdb.Connected := by
  unfold Gdb.Connected pending
  split <;> simp

/-- A token whose action starts with the flush: what is pending is sent first. -/
theorem serveToken_flush (h : data.InBuffer) (gdb : Gdb) (token : Token Byte) (event : Event)
    (haction : tokenAction data token = (do
      let (data, flushed) ← handleError data
      return (data, flushed ++ [event]))) :
    ∃ data', data'.len = 0 ∧ serveToken env fuel data gdb token =
      (sendPending data gdb >>= fun g => runEvent env fuel g event).map (fun g => (data', g)) := by
  obtain ⟨data', hlen, hflush⟩ := handleError_flush h
  have hpending : (if data.len ≠ 0 then [Event.requireRetransmission] else []).foldlM
      (runEvent env fuel) gdb = sendPending data gdb := by
    unfold sendPending
    split
    · rw [List.foldlM_cons]
      exact bind_pure _
    · rfl
  -- The flush's event and the token's own are run one after the other.
  have hevents : serveToken env fuel data gdb token =
      (List.foldlM (runEvent env fuel) gdb
        ((if data.len ≠ 0 then [Event.requireRetransmission] else []) ++ [event]) >>=
        fun g => pure (data', g)) := by
    unfold serveToken
    rw [haction, hflush]
    rfl
  refine ⟨data', hlen, ?_⟩
  rw [hevents, List.foldlM_append, hpending]
  cases sendPending data gdb with
  | error e => rfl
  | ok g =>
    simp only [ok_bind, List.foldlM_cons]
    cases runEvent env fuel g event <;> rfl

/-- A packet is served as its text is analysed, behind what is pending. -/
theorem serveToken_packet (h : data.InBuffer) {gdb : Gdb} (hconnected : gdb.Connected)
    {t : Token Byte} (h2 : t.rule = some 2) :
    ∃ data', data'.len = 0 ∧ serveToken env fuel data gdb t =
      (gdbPacketAnalysis env fuel { gdb with sent := gdb.sent ++ pending data } t.text).map
        (fun g => (data', g)) := by
  obtain ⟨rule, text⟩ := t
  dsimp only at h2
  subst h2
  obtain ⟨data', hlen, hserve⟩ :=
    serveToken_flush env fuel h gdb ⟨some 2, text⟩ (.packetAnalysis text) rfl
  rw [sendPending_connected hconnected, ok_bind] at hserve
  exact ⟨data', hlen, hserve⟩

/-- Every packet is answered with something, so there is a connection to serve it on. -/
theorem serveToken_packet_connected (h : data.InBuffer) {gdb : Gdb} {t : Token Byte}
    (h2 : t.rule = some 2) {r : ParserData × Gdb} (hok : serveToken env fuel data gdb t = .ok r) :
    gdb.Connected := by
  obtain ⟨rule, text⟩ := t
  dsimp only at h2
  subst h2
  obtain ⟨data', -, hserve⟩ :=
    serveToken_flush env fuel h gdb ⟨some 2, text⟩ (.packetAnalysis text) rfl
  obtain ⟨g, hg, -⟩ := map_eq_ok.mp (hserve.symm.trans hok)
  obtain ⟨g₀, hflush, hg⟩ := bind_eq_ok.mp hg
  have hconnected : g₀.Connected := ((gdbPacketAnalysis_connected env fuel g₀ text).value hg).1
  by_contra hsevered
  unfold sendPending at hflush
  split at hflush
  · rw [gdbRequireRetransmission, rioWriten_severed hsevered (List.cons_ne_nil _ _)] at hflush
    cases hflush
  · obtain rfl := Except.ok.inj hflush
    exact hsevered hconnected

theorem serveToken_bad (h : data.InBuffer) {gdb : Gdb} (hconnected : gdb.Connected)
    {payload : List Byte} {h1 h2 : Byte} (hh1 : isHex h1 = true) (hh2 : isHex h2 = true)
    (hsum : payload.sum.toNat ≠ hexValue [h1, h2]) :
    (serveToken env fuel data gdb ⟨some 2, packetText payload h1 h2⟩).map Prod.snd =
      .ok { gdb with sent := gdb.sent ++ pending data ++ [.written [0x2D]] } := by
  obtain ⟨data', -, hserve⟩ := serveToken_packet env fuel h hconnected
    (t := ⟨some 2, packetText payload h1 h2⟩) rfl
  rw [hserve, gdbPacketAnalysis_bad env fuel _ hh1 hh2 hsum, gdbRequireRetransmission,
    rioWriten_connected ((pending_connected data).mpr hconnected)]
  rfl

theorem serveToken_good (h : data.InBuffer) {gdb gdb' : Gdb} {data' : ParserData}
    {payload : List Byte} {h1 h2 : Byte} (hh1 : isHex h1 = true) (hh2 : isHex h2 = true)
    (hsum : payload.sum.toNat = hexValue [h1, h2])
    (hok : serveToken env fuel data gdb ⟨some 2, packetText payload h1 h2⟩ = .ok (data', gdb')) :
    ∃ replies, gdb'.sent = gdb.sent ++ pending data ++ .written [0x2B] :: replies ∧
      if payload.head? = some 0x6B then replies = [.shutdown]
      else ∃ s, replies = [.written (frame s)] ∧ Plain s := by
  have hconnected := serveToken_packet_connected env fuel h rfl hok
  obtain ⟨data'', -, hserve⟩ := serveToken_packet env fuel h hconnected
    (t := ⟨some 2, packetText payload h1 h2⟩) rfl
  obtain ⟨g, hanalysis, heq⟩ := map_eq_ok.mp (hserve.symm.trans hok)
  obtain rfl : g = gdb' := congrArg Prod.snd heq
  rw [gdbPacketAnalysis_good env fuel _ hh1 hh2 hsum,
    gdbSendAck_connected ((pending_connected data).mpr hconnected), ok_bind] at hanalysis
  -- The command is the first character of the payload, or a NUL where there is none.
  have hreplies := (command_ends env fuel _ _ _).value hanalysis
  have hsent : (Gdb.acked { gdb with sent := gdb.sent ++ pending data }).sent =
      gdb.sent ++ pending data ++ [.written [0x2B]] := rfl
  have hhead : payload.headD 0 = 0x6B ↔ payload.head? = some 0x6B := by
    cases payload with
    | nil => decide
    | cons c s => simp
  by_cases hk : payload.head? = some 0x6B
  · rw [if_pos (hhead.mpr hk)] at hreplies
    refine ⟨[.shutdown], ?_, by rw [if_pos hk]⟩
    rw [hreplies, hsent, List.append_assoc]
    rfl
  · rw [if_neg (fun h => hk (hhead.mp h))] at hreplies
    obtain ⟨s, hs, hframe, -⟩ := hreplies
    refine ⟨[.written (frame s)], ?_, ?_⟩
    · rw [hframe, hsent, List.append_assoc]
      rfl
    · rw [if_neg hk]
      exact ⟨s, rfl, hs⟩

theorem serveToken_minus {gdb : Gdb} (h : Served data gdb) (hconnected : gdb.Connected) :
    (serveToken env fuel data gdb ⟨some 1, [0x2D]⟩).map Prod.snd =
      .ok { gdb with sent := gdb.sent ++ pending data ++ [.written (lastFrame gdb.sent)] } := by
  obtain ⟨data', -, hserve⟩ := serveToken_flush env fuel h.room gdb ⟨some 1, [0x2D]⟩
    .transmitPacket rfl
  rw [hserve, sendPending_connected hconnected, ok_bind, ← h.keeps]
  unfold runEvent gdbTransmitPacket
  dsimp only
  rw [rioWriten_connected ((pending_connected data).mpr hconnected)]
  rfl

end tokens

section noise

/-- An event that does not reach the machine, and sends no answer. -/
def Event.Noise : Event → Prop
  | requireRetransmission => True
  | echo _ => True
  | _ => False

variable {data : ParserData} (h : data.InBuffer)
include h

theorem handleError_noise :
    Ends (handleError data) (fun r => ∀ e ∈ r.2, e.Noise) (fun _ => False) := by
  obtain ⟨data', -, hflush⟩ := handleError_flush h
  rw [hflush]
  intro e he
  dsimp only at he
  split at he
  · rw [List.mem_singleton.mp he]
    trivial
  · cases he

/-- Every token but a request to retransmit and a packet is noise. -/
theorem tokenAction_noise {t : Token Byte} (h1 : t.rule ≠ some 1) (h2 : t.rule ≠ some 2) :
    Ends (tokenAction data t) (fun r => ∀ e ∈ r.2, e.Noise) (fun _ => False) := by
  obtain ⟨rule, text⟩ := t
  have hecho : Ends (.ok (data, [.echo text]) : Except Crash (ParserData × List Event))
      (fun r => ∀ e ∈ r.2, e.Noise) (fun _ => False) := by
    intro e he
    rw [List.mem_singleton.mp he]
    trivial
  match rule with
  | none => exact hecho
  | some 0 => exact handleError_noise h
  | some 1 => exact absurd rfl h1
  | some 2 => exact absurd rfl h2
  | some 3 =>
    change Ends (addCharacterToError data (text.headD 0)) _ _
    unfold addCharacterToError
    have hflush : Ends (if MAX_ERROR_SIZE - 2 < data.len then handleError data
        else pure (data, [])) (fun r => r.1.InBuffer ∧ ∀ e ∈ r.2, e.Noise) (fun _ => False) := by
      refine ends_ite (fun _ => ?_) (fun _ => ⟨h, fun e he => absurd he List.not_mem_nil⟩)
      apply ((handleError_ends h).both (handleError_noise h)).mono
      · exact fun r hr => ⟨inBuffer_of_len_eq_zero hr.1.1, hr.2⟩
      · exact fun _ he => he.1
    apply hflush.bind
    intro r hr
    exact (store_ends hr.1 _).bind (fun _ _ => hr.2)
  | some (n + 4) => exact hecho

end noise

section connection
variable [Platform] (env : GdbEnv) (fuel : ℕ)

/-- `g` is `gdb` but for what the other side does not take for an answer. -/
def Murmurs (gdb g : Gdb) : Prop :=
  ∃ out, g = { gdb with sent := gdb.sent ++ out } ∧ out.filter Sent.answers = []

theorem runEvents_noise (gdb : Gdb) {events : List Event} (h : ∀ e ∈ events, e.Noise) :
    Ends (events.foldlM (runEvent env fuel) gdb) (Murmurs gdb) (Severed gdb) := by
  induction events generalizing gdb with
  | nil => exact ⟨[], by rw [List.append_nil], rfl⟩
  | cons event events ih =>
    have hrest := fun gdb => ih gdb (fun e he => h e (List.mem_cons_of_mem _ he))
    have hevent := h event List.mem_cons_self
    rw [List.foldlM_cons]
    cases event with
    | requireRetransmission =>
      apply (rioWriten_ends gdb (List.cons_ne_nil _ _)).bind
      rintro g ⟨-, rfl⟩
      apply (hrest (gdb.wrote [0x2D])).mono
      · rintro g ⟨out, rfl, hout⟩
        exact ⟨.written [0x2D] :: out, by simp [Gdb.wrote], hout⟩
      · exact fun e he => ⟨he.1, fun h => he.2 ((gdb.wrote_connected _).mpr h)⟩
    | echo yytext => exact hrest gdb
    | transmitPacket => exact hevent.elim
    | packetAnalysis yytext => exact hevent.elim

theorem serveToken_noise {data : ParserData} (h : data.InBuffer) (gdb : Gdb) {t : Token Byte}
    (h1 : t.rule ≠ some 1) (h2 : t.rule ≠ some 2) :
    Ends (serveToken env fuel data gdb t) (fun r => Murmurs gdb r.2) (Severed gdb) := by
  unfold serveToken
  apply ((simulated_ends (tokenAction_noise h h1 h2)).mono (fun _ h => h)
    (fun _ he => he.elim fun _ he => he.1.elim)).bind
  rintro ⟨data', events⟩ hnoise
  exact (runEvents_noise env fuel gdb hnoise).bind (fun g hg => hg)

omit [Platform] in
theorem Murmurs.connected {gdb g : Gdb} (h : Murmurs gdb g) : g.Connected ↔ gdb.Connected := by
  obtain ⟨out, rfl, hout⟩ := h
  have hnot : Sent.shutdown ∉ out := fun hmem =>
    List.filter_eq_nil_iff.mp hout _ hmem rfl
  unfold Gdb.Connected
  simp [hnot]

/-- A token ends the connection if and only if it is the packet that asks for it. -/
theorem serveToken_connected {data : ParserData} (h : data.InBuffer) {gdb : Gdb}
    (hconnected : gdb.Connected) (t : Token Byte) :
    Ends (serveToken env fuel data gdb t) (fun r => r.2.Connected ↔ ¬Kills env t)
      (fun _ => True) := by
  by_cases h2 : t.rule = some 2
  · obtain ⟨data', -, hserve⟩ := serveToken_packet env fuel h hconnected h2
    rw [hserve]
    apply Ends.map
    apply (gdbPacketAnalysis_connected env fuel _ t.text).imp
    rintro g ⟨-, hstill⟩
    exact hstill.trans (not_congr ⟨fun hk => ⟨h2, hk⟩, fun hk => hk.2⟩)
  have hkills : ¬Kills env t := fun hk => h2 hk.1
  by_cases h1 : t.rule = some 1
  · obtain ⟨rule, text⟩ := t
    dsimp only at h1
    subst h1
    obtain ⟨data', -, hserve⟩ :=
      serveToken_flush env fuel h gdb ⟨some 1, text⟩ .transmitPacket rfl
    rw [hserve, sendPending_connected hconnected, ok_bind]
    have hpending := (pending_connected data).mpr hconnected
    unfold runEvent gdbTransmitPacket
    dsimp only
    rw [rioWriten_connected hpending]
    exact iff_of_true ((Gdb.wrote_connected _ _).mpr hpending) hkills
  · apply (serveToken_noise env fuel h gdb h1 h2).mono
    · exact fun r hr => iff_of_true (hr.connected.mpr hconnected) hkills
    · exact fun _ _ => trivial

end connection

section discipline
variable [Platform]

/-- Without a `k` the connection lasts. -/
theorem serveTokens_connected {data : ParserData} {gdb : Gdb} (h : Served data gdb)
    (hconnected : gdb.Connected) {ts : List (GdbEnv × ℕ × Token Byte)}
    (hkills : ∀ t ∈ ts, ¬Kills t.1 t.2.2) :
    Ends (serveTokens data gdb ts) (fun r => r.2.Connected) (fun _ => True) := by
  induction ts generalizing data gdb with
  | nil => exact hconnected
  | cons t ts ih =>
    unfold serveTokens
    rw [List.foldlM_cons]
    have hnext := (serveToken_served t.1 t.2.1 h t.2.2).both
      (serveToken_connected t.1 t.2.1 h.room hconnected t.2.2)
    apply (hnext.mono (fun _ h => h) (fun _ _ => trivial)).bind
    rintro r ⟨hserved, hstill⟩
    exact ih hserved (hstill.mpr (hkills t List.mem_cons_self))
      (fun t' ht' => hkills t' (List.mem_cons_of_mem _ ht'))

/-- Until a `k` ends the connection: a packet with a wrong checksum is answered with `-` and has no
effect; a packet with a correct one with `+` and one frame, none for `k`, whose payload is free of
`$` and `#` and which passes the test itself; `-` sends the last frame again; and no frame passes
the test with one character of its payload changed. -/
theorem protocol_discipline (arm : ArmCore) (breakpoints : ℕ → Word) (packet : ℕ → Byte)
    (buffer : Vector Byte MAX_ERROR_SIZE) (ts : List (GdbEnv × ℕ × Token Byte))
    (hkills : ∀ t ∈ ts, ¬Kills t.1 t.2.2) {data : ParserData} {gdb : Gdb}
    (hrun : serveTokens ⟨buffer, 0⟩ (gdbInitData arm breakpoints packet) ts = .ok (data, gdb)) :
    (∀ env fuel payload h1 h2, isHex h1 = true → isHex h2 = true →
      payload.sum.toNat ≠ hexValue [h1, h2] →
      (serveToken env fuel data gdb ⟨some 2, packetText payload h1 h2⟩).map Prod.snd =
        .ok { gdb with sent := gdb.sent ++ pending data ++ [.written [0x2D]] }) ∧
    (∀ env fuel payload h1 h2 data' gdb', isHex h1 = true → isHex h2 = true →
      payload.sum.toNat = hexValue [h1, h2] →
      serveToken env fuel data gdb ⟨some 2, packetText payload h1 h2⟩ = .ok (data', gdb') →
      ∃ replies, gdb'.sent = gdb.sent ++ pending data ++ .written [0x2B] :: replies ∧
        if payload.head? = some 0x6B then replies = [.shutdown]
        else ∃ s, replies = [.written (frame s)] ∧ (∀ c ∈ s, c ≠ 0x24 ∧ c ≠ 0x23) ∧
          ∀ env', ChecksumTest env' (frame s)) ∧
    (∀ env fuel, (serveToken env fuel data gdb ⟨some 1, [0x2D]⟩).map Prod.snd =
      .ok { gdb with sent := gdb.sent ++ pending data ++ [.written (lastFrame gdb.sent)] }) ∧
    ∀ env a b x y h1 h2, y ≠ x → ChecksumTest env (packetText (a ++ x :: b) h1 h2) →
      ¬ChecksumTest env (packetText (a ++ y :: b) h1 h2) := by
  -- Nothing about the run is needed but what holds between tokens.
  have hinit := served_init arm breakpoints packet buffer
  have hnow : Served data gdb := (serveTokens_served hinit ts).value hrun
  have hconnected : gdb.Connected :=
    (serveTokens_connected hinit (gdbInitData_connected _ _ _) hkills).value hrun
  refine ⟨?_, ?_, ?_, ?_⟩
  · intro env fuel payload h1 h2 hh1 hh2 hsum
    exact serveToken_bad env fuel hnow.room hconnected hh1 hh2 hsum
  · intro env fuel payload h1 h2 data' gdb' hh1 hh2 hsum hok
    obtain ⟨replies, hsent, hreplies⟩ := serveToken_good env fuel hnow.room hh1 hh2 hsum hok
    refine ⟨replies, hsent, ?_⟩
    by_cases hk : payload.head? = some 0x6B
    · rw [if_pos hk] at hreplies ⊢
      exact hreplies
    · rw [if_neg hk] at hreplies ⊢
      obtain ⟨s, hs, hplain⟩ := hreplies
      exact ⟨s, hs, fun c hc => (hplain c hc).2, fun env' => checksumTest_frame env' s⟩
  · intro env fuel
    exact serveToken_minus env fuel hnow hconnected
  · intro env a b x y h1 h2 hxy htest
    exact checksumTest_replace env a b h1 h2 hxy htest

end discipline

/-- A debugger's answer to `?` is sent again on `-`, also after a damaged packet. -/
theorem protocol_discipline_reason : ∃ data gdb,
    @serveTokens makefile ⟨.replicate _ 0, 0⟩
      (gdbInitData (ArmCore.boot 0x10 []) (fun _ => 0) (fun _ => 0))
      [(zeroEnv, 0, ⟨some 2, text "$?#3f"⟩), (zeroEnv, 0, ⟨some 2, text "$g#00"⟩)] =
        .ok (data, gdb) ∧
    gdb.sent = [.written (text "+"), .written (text "$S05#b8"), .written (text "-")] ∧
    (@serveToken makefile zeroEnv 0 data gdb ⟨some 1, text "-"⟩).map Prod.snd =
      .ok { gdb with sent := gdb.sent ++ [.written (text "$S05#b8")] } ∧
    (@serveToken makefile zeroEnv 0 data gdb ⟨some 2, text "$s#70"⟩).map Prod.snd =
      .ok { gdb with sent := gdb.sent ++ [.written (text "-")] } := by
  have hresult : (@serveTokens makefile ⟨.replicate _ 0, 0⟩
      (gdbInitData (ArmCore.boot 0x10 []) (fun _ => 0) (fun _ => 0))
      [(zeroEnv, 0, ⟨some 2, text "$?#3f"⟩), (zeroEnv, 0, ⟨some 2, text "$g#00"⟩)]).map
        (fun r => (r.1.len, r.2.sent)) =
      .ok (0, [.written (text "+"), .written (text "$S05#b8"), .written (text "-")]) := rfl
  obtain ⟨⟨data, gdb⟩, hrun, heq⟩ := map_eq_ok.mp hresult
  obtain ⟨hlen, hsent⟩ := Prod.mk.inj heq
  have hpending : pending data = [] := if_neg (not_not.mpr hlen)
  have hkills : ∀ t ∈ [(zeroEnv, 0, (⟨some 2, text "$?#3f"⟩ : Token Byte)),
      (zeroEnv, 0, ⟨some 2, text "$g#00"⟩)], ¬Kills t.1 t.2.2 := by
    rintro t ht ⟨-, -, hk⟩
    simp only [List.mem_cons, List.not_mem_nil, or_false] at ht
    rcases ht with rfl | rfl <;> exact absurd hk (by decide)
  obtain ⟨hbad, -, hagain, -⟩ := @protocol_discipline makefile _ _ _ _ _ hkills _ _ hrun
  have hstep := hbad zeroEnv 0 (text "s") 0x37 0x30 rfl rfl (by decide)
  have hlast : lastFrame gdb.sent = text "$S05#b8" := by
    rw [hsent]
    rfl
  refine ⟨data, gdb, hrun, hsent, ?_, ?_⟩
  · have hminus := hagain zeroEnv 0
    rwa [hpending, List.append_nil, hlast] at hminus
  · rwa [hpending, List.append_nil] at hstep

/-- Behind a `k` neither a damaged packet nor an intact one is answered: the simulator ends. -/
theorem protocol_discipline_killed : ∃ data gdb,
    @serveTokens makefile ⟨.replicate _ 0, 0⟩
      (gdbInitData (ArmCore.boot 0x10 []) (fun _ => 0) (fun _ => 0))
      [(zeroEnv, 0, ⟨some 2, text "$k#6b"⟩)] = .ok (data, gdb) ∧
    gdb.sent = [.written (text "+"), .shutdown] ∧
    (@serveToken makefile zeroEnv 0 data gdb ⟨some 2, text "$g#00"⟩).map Prod.snd =
      .error .brokenPipe ∧
    (@serveToken makefile zeroEnv 0 data gdb ⟨some 2, text "$?#3f"⟩).map Prod.snd =
      .error .brokenPipe := by
  refine ⟨⟨.replicate _ 0, 0⟩, ?_, ?_, ?_, ?_, ?_⟩
  · exact { gdbInitData (ArmCore.boot 0x10 []) (fun _ => 0) (fun _ => 0) with
      sent := [.written (text "+"), .shutdown] }
  all_goals rfl

end ArmSim
