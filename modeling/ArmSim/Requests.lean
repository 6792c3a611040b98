import ArmSim.Session

/-! A client's requests in the bytes of the connection: each of them is served once, in its order,
whatever stray characters and damaged packets lie between them. -/
namespace ArmSim
open Lib

/-- A packet that passes the checksum test. -/
def Intact (packet : List Byte) : Prop := ∃ payload, Carries packet payload

/-- The token that an activity of the debugger's thread serves. -/
def Activity.served : Activity → Option (Token Byte)
  | .token _ _ t => some t
  | .irq _ _ => none

/-- The byte that an activity of the other thread reads. -/
def Activity.received : Activity → Option Byte
  | .token _ _ _ => none
  | .irq _ e => some e

/-- The tokens of the debugger's connection, in their order. -/
def connection (ls : List (Activity × List Sent)) : List (Token Byte) :=
  ls.filterMap (fun l => l.1.served)

/-- The bytes of the interrupt connection, in their order. -/
def interrupts (ls : List (Activity × List Sent)) : List Byte :=
  ls.filterMap (fun l => l.1.received)

section frames

theorem isFrame_of_mem_frames {w stream : List Byte} (h : w ∈ frames stream) : IsFrame w := by
  obtain ⟨s, -, hw⟩ := List.mem_flatMap.mp h
  exact of_decide_eq_true (List.mem_filter.mp hw).2

theorem isFrame_frame {payload : List Byte} (h : ∀ c ∈ payload, c ≠ 0x24 ∧ c ≠ 0x23) :
    IsFrame (frame payload) := by
  obtain ⟨h1, h2, heq, hh1, hh2, -⟩ := carries_frame payload
  exact ⟨payload, h1, h2, heq, h, hh1, hh2⟩

/-- The digits of a packet are where its length says. -/
theorem intact_iff {payload : List Byte} {h1 h2 : Byte} (hh1 : isHex h1 = true)
    (hh2 : isHex h2 = true) :
    Intact (packetText payload h1 h2) ↔ payload.sum.toNat = hexValue [h1, h2] := by
  constructor
  · intro h
    obtain ⟨payload', h1', h2', heq, -, -, hsum⟩ := h
    have htail := (List.cons.inj heq).2
    obtain ⟨rfl, hdigits⟩ := List.append_inj' htail rfl
    have h1eq : h1 = h1' := (List.cons.inj (List.cons.inj hdigits).2).1
    have h2eq : h2 = h2' :=
      (List.cons.inj (List.cons.inj (List.cons.inj hdigits).2).2).1
    rw [h1eq, h2eq]
    exact hsum
  · exact fun hsum => ⟨payload, h1, h2, rfl, hh1, hh2, hsum⟩

/-- What stands behind a packet in the buffer does not decide its test. -/
theorem IsFrame.checksumTest_iff {w : List Byte} (h : IsFrame w) (env : GdbEnv) :
    ChecksumTest env w ↔ Intact w := by
  obtain ⟨payload, h1, h2, rfl, -, hh1, hh2⟩ := h
  exact (ArmSim.checksumTest_iff env payload hh1 hh2).trans (intact_iff hh1 hh2).symm

theorem frames_nil : frames [] = [] := by decide

/-- No packet reaches over the start of another, so those between are found where they are. -/
theorem frames_between {w : List Byte} (hw : IsFrame w) (noise rest : List Byte) :
    frames (noise ++ (w ++ rest)) = frames noise ++ w :: frames rest := by
  induction noise with
  | nil =>
    rw [frames_nil]
    exact frames_append hw rest
  | cons c noise ih =>
    have hover : (((w ++ rest).inits.tail.map fun l => (c :: noise) ++ l).filter
        fun v => IsFrame v) = [] := by
      rw [List.filter_eq_nil_iff]
      intro v hv hframe
      obtain ⟨l, hl, rfl⟩ := List.mem_map.mp hv
      -- The second `$` would lie inside the packet.
      obtain ⟨u, hu, hdollar⟩ := (of_decide_eq_true hframe).dollar
      obtain ⟨u', rfl, -⟩ := hw.dollar
      rw [List.cons_append, List.inits_cons, List.tail_cons] at hl
      obtain ⟨l', -, rfl⟩ := List.mem_map.mp hl
      have htail : noise ++ 0x24 :: l' = u := (List.cons.inj hu).2
      exact hdollar 0x24 (htail ▸ List.mem_append_right _ List.mem_cons_self) rfl
    rw [List.cons_append, frames_cons, frames_cons, ih, ← List.cons_append, List.inits_append,
      List.filter_append, hover, List.append_nil, List.append_assoc]

variable [DecidablePred Intact]

/-- Of a stream of requests with noise between them the requests are what is intact. -/
theorem frames_requests {requests : List (List Byte × List Byte)} {rest : List Byte}
    (hplain : ∀ r ∈ requests, ∀ c ∈ r.2, c ≠ 0x24 ∧ c ≠ 0x23)
    (hnoise : ∀ r ∈ requests, ∀ w ∈ frames r.1, ¬Intact w) (hrest : ∀ w ∈ frames rest, ¬Intact w) :
    (frames (requests.flatMap (fun r => r.1 ++ frame r.2) ++ rest)).filter (fun w => Intact w) =
      requests.map (fun r => frame r.2) := by
  have hnone (noise : List Byte) (h : ∀ w ∈ frames noise, ¬Intact w) :
      (frames noise).filter (fun w => Intact w) = [] := by
    rw [List.filter_eq_nil_iff]
    exact fun w hw hintact => h w hw (of_decide_eq_true hintact)
  induction requests with
  | nil => exact hnone rest hrest
  | cons r requests ih =>
    have hframe := isFrame_frame (hplain r List.mem_cons_self)
    have hintact : Intact (frame r.2) := ⟨r.2, carries_frame r.2⟩
    rw [List.flatMap_cons, List.append_assoc, List.append_assoc, frames_between hframe,
      List.filter_append, hnone r.1 (hnoise r List.mem_cons_self), List.nil_append,
      List.filter_cons_of_pos (by simpa using hintact),
      ih (fun r hr => hplain r (List.mem_cons_of_mem _ hr))
        (fun r hr => hnoise r (List.mem_cons_of_mem _ hr)), List.map_cons]

end frames

section kept

/-- An activity that serves no packet, or one that is intact. -/
def Activity.Kept (a : Activity) : Prop := ∀ t ∈ a.served, t.rule = some 2 ∧ Intact t.text

theorem Activity.Kept.not_retransmits {a : Activity} (h : a.Kept) : ¬a.Retransmits := by
  cases a with
  | irq env e => exact id
  | token env fuel t =>
    intro h1
    have h2 := (h t rfl).1
    rw [show t.rule = some 1 from h1] at h2
    exact absurd h2 (by decide)

variable {ls : List (Activity × List Sent)}

theorem isFrame_of_connection {stream : List Byte}
    (hstream : connection ls = tokens scannerPatterns stream) {t : Token Byte}
    (ht : t ∈ connection ls) (h2 : t.rule = some 2) : IsFrame t.text := by
  have hpacket : t.text ∈ tokenPackets t := by
    unfold tokenPackets
    rw [if_pos h2]
    exact List.mem_cons_self
  rw [hstream] at ht
  have hframes := List.mem_flatMap.mpr ⟨t, ht, hpacket⟩
  rw [tokens_packets] at hframes
  exact isFrame_of_mem_frames hframes

variable [DecidablePred Activity.Kept]

/-- Of the activities on a stream the others are left out. -/
theorem erases_kept {stream : List Byte}
    (hstream : connection ls = tokens scannerPatterns stream) :
    Erases (fun l => l.1.Kept) (fun l => l.1.Unnoticed) ls (ls.filter fun l => l.1.Kept) := by
  refine erases_filter (fun l _ hkept => hkept) (fun l hl hkept => ?_)
  obtain ⟨a, out⟩ := l
  cases a with
  | irq env e => exact absurd (fun t ht => absurd ht (Option.not_mem_none t)) hkept
  | token env fuel t =>
    intro h2
    have hframe := isFrame_of_connection hstream (List.mem_filterMap.mpr ⟨_, hl, rfl⟩) h2
    refine Or.inl fun htest => hkept fun u hu => ?_
    obtain rfl := Option.some.inj hu
    exact ⟨h2, (hframe.checksumTest_iff env).mp htest⟩

theorem interrupts_kept :
    interrupts (ls.filter fun l => l.1.Kept) = interrupts ls := by
  induction ls with
  | nil => rfl
  | cons l ls ih =>
    unfold interrupts at ih ⊢
    obtain ⟨a, out⟩ := l
    cases a with
    | irq env e =>
      have hkept : (Activity.irq env e).Kept := fun t ht => absurd ht (Option.not_mem_none t)
      rw [List.filter_cons_of_pos (by simpa using hkept), List.filterMap_cons, List.filterMap_cons,
        ih]
    | token env fuel t =>
      have hnone : Activity.received (.token env fuel t) = none := rfl
      rw [List.filter_cons, List.filterMap_cons]
      split
      · rw [List.filterMap_cons, hnone, ih]
      · rw [hnone, ih]

variable [DecidablePred Intact]

theorem connection_kept : connection (ls.filter fun l => l.1.Kept) =
    (connection ls).filter fun t => t.rule = some 2 ∧ Intact t.text := by
  induction ls with
  | nil => rfl
  | cons l ls ih =>
    unfold connection at ih ⊢
    obtain ⟨a, out⟩ := l
    cases a with
    | irq env e =>
      have hkept : (Activity.irq env e).Kept := fun t ht => absurd ht (Option.not_mem_none t)
      have hnone : Activity.served (.irq env e) = none := rfl
      rw [List.filter_cons_of_pos (by simpa using hkept), List.filterMap_cons, List.filterMap_cons,
        hnone, ih]
    | token env fuel t =>
      have hsome : Activity.served (.token env fuel t) = some t := rfl
      have hiff : (Activity.token env fuel t).Kept ↔ t.rule = some 2 ∧ Intact t.text :=
        ⟨fun h => h t rfl, fun h u hu => Option.some.inj hu ▸ h⟩
      rw [List.filter_cons, List.filterMap_cons, hsome, List.filter_cons]
      by_cases hkept : (Activity.token env fuel t).Kept
      · rw [if_pos (by simpa using hkept), if_pos (by simpa using hiff.mp hkept),
          List.filterMap_cons, hsome, ih]
      · rw [if_neg (by simpa using hkept), if_neg (by simpa using fun h => hkept (hiff.mpr h)), ih]

omit [DecidablePred Activity.Kept] in
/-- The packets among tokens, each as the token it was. -/
theorem tokens_intact (ts : List (Token Byte)) :
    (ts.filter fun t => t.rule = some 2 ∧ Intact t.text) =
      ((ts.flatMap tokenPackets).filter fun w => Intact w).map (fun w => ⟨some 2, w⟩) := by
  induction ts with
  | nil => rfl
  | cons t ts ih =>
    obtain ⟨rule, text⟩ := t
    rw [List.filter_cons, List.flatMap_cons, List.filter_append, List.map_append, ← ih]
    unfold tokenPackets
    by_cases h2 : rule = some 2
    · subst h2
      by_cases hintact : Intact text
      · simp [hintact]
      · simp [hintact]
    · simp [h2]

theorem connection_requests {requests : List (List Byte × List Byte)} {rest : List Byte}
    (hplain : ∀ r ∈ requests, ∀ c ∈ r.2, c ≠ 0x24 ∧ c ≠ 0x23)
    (hnoise : ∀ r ∈ requests, ∀ w ∈ frames r.1, ¬Intact w) (hrest : ∀ w ∈ frames rest, ¬Intact w)
    (hstream : connection ls = tokens scannerPatterns
      (requests.flatMap (fun r => r.1 ++ frame r.2) ++ rest)) :
    connection (ls.filter fun l => l.1.Kept) = requests.map (fun r => ⟨some 2, frame r.2⟩) := by
  rw [connection_kept, hstream, tokens_intact, tokens_packets,
    frames_requests hplain hnoise hrest, List.map_map]
  rfl

end kept

section answers
variable [Platform]

/-- A packet that passes the test is answered once. -/
theorem performs_answered {env : GdbEnv} {fuel : ℕ} {t : Token Byte} {out : List Sent}
    {s s' : Session} (hroom : s.parser.InBuffer) (h2 : t.rule = some 2) (hintact : Intact t.text)
    (h : Performs (.token env fuel t, out) s s') : ∃ answer, out = [answer] := by
  obtain ⟨payload, h1, h2', htext, hh1, hh2, hsum⟩ := hintact
  obtain ⟨rule, text⟩ := t
  dsimp only at h2 htext
  subst h2 htext
  obtain ⟨hperform, hout⟩ := h
  obtain ⟨replies, hsent, hreplies⟩ :=
    serveToken_good env fuel hroom hh1 hh2 hsum (perform_token hperform)
  have hfilter : out = replies.filter Sent.answers := by
    rw [← show _ = out from hout, hsent, List.append_assoc, answersSince_append, List.filter_append,
      pending_answers, List.nil_append]
    rfl
  rw [hfilter]
  split at hreplies
  · rw [hreplies]
    exact ⟨_, rfl⟩
  · obtain ⟨text, htext, -⟩ := hreplies
    rw [htext]
    exact ⟨_, rfl⟩

theorem runs_answered {ls : List (Activity × List Sent)} {s s' : Session}
    (h : Runs Performs ls s s') (hroom : s.parser.InBuffer) :
    ∀ l ∈ ls, l.1.Kept → ∀ t ∈ l.1.served, ∃ answer, l.2 = [answer] := by
  refine h.labels (I := fun s => s.parser.InBuffer) (fun l s s' hroom hstep => ?_) hroom
  refine ⟨performs_room hroom hstep, fun hkept t ht => ?_⟩
  obtain ⟨a, out⟩ := l
  cases a with
  | irq env e => exact absurd ht (Option.not_mem_none t)
  | token env fuel u => exact performs_answered hroom (hkept u rfl).1 (hkept u rfl).2 hstep

/-- Behind a shutdown no packet is served any more. -/
theorem performs_severed {l : Activity × List Sent} {s s' : Session} (hroom : s.parser.InBuffer)
    (hsevered : ¬s.gdb.Connected) (h : Performs l s s') :
    ¬s'.gdb.Connected ∧ ∀ t ∈ l.1.served, t.rule ≠ some 2 := by
  obtain ⟨a, out⟩ := l
  cases a with
  | irq env e =>
    obtain ⟨r, arm, -, rfl⟩ := perform_irq h.1
    exact ⟨hsevered, fun t ht => absurd ht (Option.not_mem_none t)⟩
  | token env fuel t =>
    have hserve := perform_token h.1
    have h2 : t.rule ≠ some 2 := fun h2 =>
      hsevered (serveToken_packet_connected env fuel hroom h2 hserve)
    refine ⟨fun hconnected => hsevered ?_, fun u hu => Option.some.inj hu ▸ h2⟩
    exact (connected_iff ((serveToken_leaves env fuel hroom s.gdb h2).value hserve)).mp hconnected

theorem runs_severed {ls : List (Activity × List Sent)} {s s' : Session}
    (h : Runs Performs ls s s') (hroom : s.parser.InBuffer) (hsevered : ¬s.gdb.Connected) :
    ∀ l ∈ ls, ∀ t ∈ l.1.served, t.rule ≠ some 2 := by
  refine h.labels (I := fun s => s.parser.InBuffer ∧ ¬s.gdb.Connected)
    (fun l s s' hs hstep => ?_) ⟨hroom, hsevered⟩
  obtain ⟨hnext, hpackets⟩ := performs_severed hs.1 hs.2 hstep
  exact ⟨⟨performs_room hs.1 hstep, hnext⟩, hpackets⟩

omit [Platform] in
/-- The frame of a payload is the packet that ends the connection if the payload starts with `k`. -/
theorem kills_frame (env : GdbEnv) {payload : List Byte} (hk : payload.head? = some 0x6B) :
    Kills env ⟨some 2, frame payload⟩ := by
  refine ⟨rfl, checksumTest_frame env payload, ?_⟩
  rw [frame_eq_packetText, commandOf_packetText, List.headD_eq_head?_getD, hk]
  rfl

/-- Of the requests that have been served `k` can only be the last one. -/
theorem runs_kill_last {ks : List (Activity × List Sent)} {s s' : Session}
    (h : Runs Performs ks s s') (hroom : s.parser.InBuffer) {payloads : List (List Byte)}
    (hconnection : connection ks = payloads.map (fun p => ⟨some 2, frame p⟩)) :
    ∀ p ∈ payloads.dropLast, p.head? ≠ some 0x6B := by
  induction h generalizing payloads with
  | nil s =>
    have hnone : payloads = [] := List.map_eq_nil_iff.mp hconnection.symm
    rw [hnone]
    exact fun p hp => absurd hp List.not_mem_nil
  | @cons l ls s t u head tail ih =>
    obtain ⟨a, out⟩ := l
    have hnext := performs_room hroom head
    cases a with
    | irq env e => exact ih hnext hconnection
    | token env fuel tok =>
      cases payloads with
      | nil => cases hconnection
      | cons p payloads =>
        obtain ⟨rfl, hlater⟩ : tok = ⟨some 2, frame p⟩ ∧
            connection ls = payloads.map (fun p => ⟨some 2, frame p⟩) := List.cons.inj hconnection
        cases payloads with
        | nil => exact fun p' hp' => absurd hp' List.not_mem_nil
        | cons q payloads =>
          rw [List.dropLast_cons_of_ne_nil (List.cons_ne_nil q payloads)]
          intro p' hp'
          rcases List.mem_cons.mp hp' with rfl | hp'
          · -- Behind a `k` the next request would not be served.
            intro hk
            have hserve := perform_token head.1
            have hconnected := serveToken_packet_connected env fuel hroom rfl hserve
            have hsevered : ¬t.gdb.Connected := fun hstill =>
              ((serveToken_connected env fuel hroom hconnected _).value hserve).mp hstill
                (kills_frame env hk)
            have hmem : (⟨some 2, frame q⟩ : Token Byte) ∈ connection ls := by
              rw [hlater]
              exact List.mem_cons_self
            obtain ⟨l, hl, hserved⟩ := List.mem_filterMap.mp hmem
            exact runs_severed tail hnext hsevered l hl _ hserved rfl
          · exact ih hnext hlater p' hp'

end answers

/-- In a session that has been served to its end any bytes may lie between the requests in which no
packet passes the checksum test.  Whatever the interrupts do meanwhile, each request is served in
its order and answered once: the machine, the breakpoints, the last exception and the connection
are those of a session in which the client has sent nothing but the requests.  A `k` can only be
the last of them, since the simulator does not survive the answer to another. -/
theorem requests_served [Platform] (arm : ArmCore) (breakpoints : ℕ → Word)
    (packet packet' : ℕ → Byte) (buffer buffer' : Vector Byte MAX_ERROR_SIZE)
    {requests : List (List Byte × List Byte)} {rest : List Byte}
    (hplain : ∀ r ∈ requests, ∀ c ∈ r.2, c ≠ 0x24 ∧ c ≠ 0x23)
    (hnoise : ∀ r ∈ requests, ∀ w ∈ frames r.1, ¬Intact w) (hrest : ∀ w ∈ frames rest, ¬Intact w)
    {ls : List (Activity × List Sent)} {s : Session}
    (hstream : connection ls = tokens scannerPatterns
      (requests.flatMap (fun r => r.1 ++ frame r.2) ++ rest))
    (hrun : Runs Performs ls (Session.start arm breakpoints packet buffer) s) :
    ∃ ks t, ks.Sublist ls ∧ connection ks = requests.map (fun r => ⟨some 2, frame r.2⟩) ∧
      interrupts ks = interrupts ls ∧
      (∀ l ∈ ks, ∀ t ∈ l.1.served, ∃ answer, l.2 = [answer]) ∧
      (∀ r ∈ requests.dropLast, r.2.head? ≠ some 0x6B) ∧
      Runs Performs ks (Session.start arm breakpoints packet' buffer') t ∧
      t.gdb.target = s.gdb.target := by
  classical
  have hstart := matches_start arm breakpoints packet packet' buffer buffer'
  obtain ⟨t, ht, hmatch⟩ := (erases_kept hstream).runs (R := Matches)
    (fun _ hl _ _ _ => performs_matched hl.not_retransmits)
    (fun _ hl _ _ _ => performs_unnoticed hl) hrun hstart
  have hrequests := connection_requests hplain hnoise hrest hstream
  have hpayloads : connection (ls.filter fun l => l.1.Kept) =
      (requests.map Prod.snd).map (fun p => ⟨some 2, frame p⟩) := by
    rw [hrequests, List.map_map]
    rfl
  refine ⟨_, t, List.filter_sublist, hrequests, interrupts_kept, fun l hl => ?_, fun r hr => ?_, ht,
    hmatch.target⟩
  · have hkept : l.1.Kept := by simpa using (List.mem_filter.mp hl).2
    exact runs_answered ht (Nat.zero_le _) l hl hkept
  · apply runs_kill_last ht (Nat.zero_le _) hpayloads
    rw [← List.map_dropLast]
    exact List.mem_map_of_mem hr

/-- The session's bytes, with the request and the breakpoint that it makes. -/
theorem requests_served_step : ∃ s ks t,
    Runs (@Performs makefile) looksAndSteps
      (Session.start oneMove (fun _ => 0) (fun _ => 0) (.replicate _ 0)) s ∧
    ks.Sublist looksAndSteps ∧
    connection ks = [⟨some 2, text "$?#3f"⟩, ⟨some 2, text "$Z0,4,4#4a"⟩, ⟨some 2, text "$s#73"⟩] ∧
    interrupts ks = [3] ∧ (∀ l ∈ ks, ∀ t ∈ l.1.served, ∃ answer, l.2 = [answer]) ∧
    (∀ r ∈ [(text "x", text "?"), (text "$g#00-", text "Z0,4,4")], r.2.head? ≠ some 0x6B) ∧
    Runs (@Performs makefile) ks
      (Session.start oneMove (fun _ => 0) (fun _ => 1) (.replicate _ 1)) t ∧
    t.gdb.target = s.gdb.target := by
  obtain ⟨s, hrun⟩ := looksAndSteps_runs
  have hdamaged : ¬Intact (text "$g#00") :=
    fun h => absurd ((@intact_iff (text "g") 0x30 0x30 rfl rfl).mp h)
      (by decide)
  have hnone {noise : List Byte} (h : frames noise = []) : ∀ w ∈ frames noise, ¬Intact w := by
    intro w hw
    rw [h] at hw
    exact absurd hw List.not_mem_nil
  have hnoise : ∀ r ∈ [(text "x", text "?"), (text "$g#00-", text "Z0,4,4"), ([], text "s")],
      ∀ w ∈ frames r.1, ¬Intact w := by
    intro r hr
    simp only [List.mem_cons, List.not_mem_nil, or_false] at hr
    rcases hr with rfl | rfl | rfl
    · exact hnone (by decide)
    · intro w hw
      rw [show frames (text "$g#00-") = [text "$g#00"] from by decide] at hw
      rw [List.mem_singleton.mp hw]
      exact hdamaged
    · exact hnone frames_nil
  obtain ⟨ks, t, h⟩ := @requests_served makefile oneMove (fun _ => 0) (fun _ => 0) (fun _ => 1)
    (.replicate _ 0) (.replicate _ 1) _ [] (by decide) hnoise (hnone frames_nil) looksAndSteps s
    (by decide) hrun
  exact ⟨s, ks, t, hrun, h⟩

end ArmSim
