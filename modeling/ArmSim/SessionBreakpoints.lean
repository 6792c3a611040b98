import ArmSim.HandlerFaults
import ArmSim.Session

/-! The breakpoints of a session: the table stands for the set that the accepted requests make, no
activity leaves its array, and `cont` stops at the members of the set. -/
namespace ArmSim
open Lib

/-- The fault is none of an access to the array of breakpoints. -/
abbrev OutsideTable (e : GdbFault) : Prop := e ≠ .breakpointEntry

theorem permits_outsideTable : Permits OutsideTable where
  crash := fun _ => GdbFault.noConfusion
  packetBuffer := GdbFault.noConfusion
  assertion := GdbFault.noConfusion
  brokenPipe := GdbFault.noConfusion
  stillRunning := GdbFault.noConfusion

section text
variable (data : List Byte)

theorem cString_outsideTable : Raises OutsideTable (cString data) :=
  cString_raises GdbFault.noConfusion data

theorem indexNext_outsideTable (c : Byte) : Raises OutsideTable (indexNext data c) := by
  induction data with
  | nil => exact GdbFault.noConfusion
  | cons d data ih =>
    unfold indexNext
    exact ends_ite (fun _ => trivial) (fun _ => ends_ite (fun _ => trivial) (fun _ => ih))

theorem deref_outsideTable (content : TextPointer) : Raises OutsideTable content.deref := by
  cases content with
  | none => exact GdbFault.noConfusion
  | some data => trivial

theorem binaryByte_outsideTable : Raises OutsideTable (binaryByte data) := by
  cases data with
  | nil => exact GdbFault.noConfusion
  | cons c content =>
    unfold binaryByte
    refine ends_ite (fun _ => ?_) (fun _ => trivial)
    split
    · exact GdbFault.noConfusion
    · trivial

end text

section handlers
variable (env : GdbEnv) (gdb : Gdb) (data : List Byte)

/-- `X` goes wherever its text leads, but not to the table. -/
theorem keepsTable_writeMemoryBinary :
    KeepsTable OutsideTable gdb.toBreakpointTable (writeMemoryBinary env gdb data) := by
  have hloop (size : ℕ) (g : Gdb) (hg : g.toBreakpointTable = gdb.toBreakpointTable) (a : Word)
      (content : TextPointer) : Ends (writeMemoryLoop size g a content)
        (fun r => r.1.toBreakpointTable = gdb.toBreakpointTable) OutsideTable := by
    induction size generalizing g a content with
    | zero => exact hg
    | succ size ih =>
      unfold writeMemoryLoop
      apply (deref_outsideTable content).bind
      intro text _
      apply (binaryByte_outsideTable text).bind
      intro r _
      apply (raises_simulated permits_outsideTable _).bind
      intro r _
      refine ends_ite (fun _ => ih _ ?_ _ _) (fun _ => hg)
      exact hg
  unfold writeMemoryBinary
  apply (sscanfXX_raises (cString_outsideTable data) _ _).bind
  intro r _
  apply (indexNext_outsideTable data _).bind
  intro content _
  have hwrite : Ends (if r.1.toNat < gdb.arm.mem.size then
      writeMemoryLoop r.2.toNat gdb r.1 content else pure (gdb, false))
      (fun r => r.1.toBreakpointTable = gdb.toBreakpointTable) OutsideTable :=
    ends_ite (fun _ => hloop _ gdb rfl _ _) (fun _ => rfl)
  apply hwrite.bind
  intro r hr
  dsimp only
  split_ifs <;> exact keepsTable_sendData permits_outsideTable hr _

variable [Platform]

theorem keepsTable_writeGeneralRegisters :
    KeepsTable OutsideTable gdb.toBreakpointTable (writeGeneralRegisters env gdb data) := by
  have hfield (text : List Byte) (value : Word) : Raises OutsideTable (readUint32 text value) :=
    sscanfX_raises (cString_outsideTable text) _ _
  unfold writeGeneralRegisters
  apply Ends.bind (ends_foldlM_range
    (fun _ (s : Gdb × List Byte) => s.1.toBreakpointTable = gdb.toBreakpointTable) _ _ _ rfl ?_)
  · intro s hs
    dsimp only
    generalize (List.foldl _ s.2 _).drop 8 = status
    apply (hfield status _).bind
    intro value _
    refine keepsTable_sendData permits_outsideTable ?_ _
    exact hs
  · exact fun i _ s hs => (keepsTable_writeRegister permits_outsideTable gdb s.2 hs _
      (hfield _ _)).bind (fun _ hg => hg)

/-- Every command but the two for the breakpoints. -/
theorem keepsTable_handler (fuel : ℕ) {S : Set Word} (hS : gdb.toBreakpointTable.Holds S)
    {index : Byte} {handle : Gdb → List Byte → Except GdbFault Gdb}
    (h : handler env fuel index = some handle) (hset : index ≠ 0x5A) (hremove : index ≠ 0x7A) :
    KeepsTable OutsideTable gdb.toBreakpointTable (handle gdb data) := by
  have hE := permits_outsideTable
  -- The search stays inside the table.
  have hfind (pc : Word) : Raises OutsideTable (gdbFindBreakpoint gdb.toBreakpointTable pc) := by
    obtain ⟨position, hposition, -⟩ := gdbFindBreakpoint_spec hS pc
    rw [hposition]
    trivial
  have hcont := keepsTable_cont hE env gdb data fuel hfind
  have hstep := keepsTable_step hE env gdb data
  unfold handler at h
  split at h
  · cases h
    exact hcont
  · cases h
    exact hcont
  · cases h
    rfl
  · cases h
    exact keepsTable_query hE gdb data (cString_outsideTable data)
  · cases h
    exact keepsTable_readGeneralRegisters hE gdb data
  · cases h
    exact keepsTable_readMemory hE env gdb data (sscanfXX_raises (cString_outsideTable data) _ _)
  · cases h
    exact keepsTable_readSingleRegister hE gdb data (atoi_raises (cString_outsideTable data))
  · cases h
    exact keepsTable_sendData hE rfl _
  · cases h
    cases data with
    | nil => exact GdbFault.noConfusion
    | cons type data =>
      exact keepsTable_setThread hE gdb data type (atoi_raises (cString_outsideTable data))
  · cases h
    exact hstep
  · cases h
    exact hstep
  · cases h
    exact keepsTable_writeGeneralRegisters env gdb data
  · cases h
    exact keepsTable_writeMemoryBinary env gdb data
  · cases h
    apply keepsTable_writeSingleRegister hE env gdb data
      (sscanfX_raises (cString_outsideTable data) _ _)
    apply (indexNext_outsideTable data 0x3D).bind
    intro content _
    apply (deref_outsideTable content).imp
    exact fun text _ => sscanfX_raises (cString_outsideTable text) _ _
  · exact absurd rfl hremove
  · exact absurd rfl hset
  · cases h

end handlers

/-- The packet is an intact request for a breakpoint of type 0. -/
def RequestsBreakpoint (env : GdbEnv) (packet : List Byte) (c : TableCall) : Prop :=
  ChecksumTest env packet ∧ match c with
  | .add a => commandOf env packet = 0x5A ∧
      sscanfHhxX (commandArgs env packet) env.type env.address = .ok (0, a)
  | .remove a => commandOf env packet = 0x7A ∧
      sscanfHhxX (commandArgs env packet) env.type env.address = .ok (0, a)

/-- The answer to a request whose call has the result `r`. -/
def requestReply (c : TableCall) (r : ℤ) : List Byte :=
  if r ≠ 0 then text "OK" else
    match c with
    | .add _ => text "E04"
    | .remove _ => text "E05"

/-- What an activity means for the set of breakpoints, given how it is answered. -/
def BreakpointStep (l : Activity × List Sent) (S S' : Set Word) : Prop :=
  match l.1 with
  | .token env _ t =>
    (∃ c r, t.rule = some 2 ∧ RequestsBreakpoint env t.text c ∧ SetStep S c r S' ∧
      l.2 = [.written (frame (requestReply c r))]) ∨
    (¬∃ c, t.rule = some 2 ∧ RequestsBreakpoint env t.text c) ∧ S' = S
  | .irq _ _ => S' = S

section requests
variable {gdb g : Gdb} {S : Set Word}

/-- A call on the table and its answer. -/
theorem request_ends (hS : gdb.toBreakpointTable.Holds S) (c : TableCall) {refused : List Byte}
    (hplain : Plain refused) (hrefused : requestReply c 0 = refused) :
    Ends (c.run gdb.toBreakpointTable >>= fun r =>
        if r.1 ≠ 0 then gdbSendData { gdb with toBreakpointTable := r.2 } (text "OK")
        else gdbSendData { gdb with toBreakpointTable := r.2 } refused)
      (fun g => ∃ r S', SetStep S c r S' ∧ g.toBreakpointTable.Holds S' ∧
        g.sent = gdb.sent ++ [.written (frame (requestReply c r))])
      OutsideTable := by
  apply ((c.run_ends hS).mono (fun _ h => h) (fun _ he => he.elim)).bind
  rintro ⟨r, table⟩ ⟨S', hstep, hS'⟩
  have hsend {s : List Byte} (hs : Plain s) (hreply : requestReply c r = s) :
      Ends (gdbSendData { gdb with toBreakpointTable := table } s)
        (fun g => ∃ r S', SetStep S c r S' ∧ g.toBreakpointTable.Holds S' ∧
          g.sent = gdb.sent ++ [.written (frame (requestReply c r))])
        OutsideTable := by
    have htable := keepsTable_sendData (g := { gdb with toBreakpointTable := table })
      permits_outsideTable rfl s
    apply (htable.both ((gdbSendData_ends _ (fun c hc => (hs c hc).1)).mono (F := fun _ => True)
      (fun _ h => h) (fun _ _ => trivial))).mono
    · rintro g ⟨htable, hg⟩
      refine ⟨r, S', hstep, ?_, ?_⟩
      · rw [htable]
        exact hS'
      · rw [hreply]
        exact hg.sent_eq
    · exact fun e he => he.1
  refine ends_ite (fun hr => ?_) (fun hr => ?_)
  · exact hsend (plain_text _ rfl) (if_pos hr)
  · have hzero : r = 0 := Decidable.not_not.mp hr
    exact hsend hplain (by rw [hzero, hrefused])

end requests

section sessions
variable [Platform] (env : GdbEnv) (fuel : ℕ)

/-- What a packet has done to the table and sent, from a table that stands for `S`. -/
def PacketStep (env : GdbEnv) (packet : List Byte) (S : Set Word) (gdb g : Gdb) : Prop :=
  ∃ S', g.toBreakpointTable.Holds S' ∧
    ((∃ c r, RequestsBreakpoint env packet c ∧ SetStep S c r S' ∧
        g.sent = gdb.sent ++ [.written [0x2B], .written (frame (requestReply c r))]) ∨
      (¬∃ c, RequestsBreakpoint env packet c) ∧ S' = S)

/-- A packet moves the set as its request says, and the array is not left. -/
theorem gdbPacketAnalysis_table {gdb : Gdb} {S : Set Word} (hS : gdb.toBreakpointTable.Holds S)
    (packet : List Byte) :
    Ends (gdbPacketAnalysis env fuel gdb packet) (PacketStep env packet S gdb) OutsideTable := by
  have hkept {x : Except GdbFault Gdb} (hx : KeepsTable OutsideTable gdb.toBreakpointTable x)
      (hnone : ¬∃ c, RequestsBreakpoint env packet c) :
      Ends x (PacketStep env packet S gdb) OutsideTable :=
    hx.imp (fun g hg => ⟨S, hg.symm ▸ hS, Or.inr ⟨hnone, rfl⟩⟩)
  by_cases htest : ChecksumTest env packet
  case neg =>
    rw [gdbPacketAnalysis_damaged env fuel gdb htest]
    apply (sscanfX_raises (cString_outsideTable _) _ _).bind
    intro given _
    exact hkept (keepsTable_rioWriten permits_outsideTable rfl _)
      (fun hc => htest hc.choose_spec.1)
  rw [gdbPacketAnalysis_intact env fuel gdb htest]
  apply ((gdbSendAck_ends gdb).mono (F := OutsideTable) (fun _ h => h)
    (fun e he => he.1 ▸ GdbFault.noConfusion)).bind
  rintro g ⟨-, rfl⟩
  have hS' : gdb.acked.toBreakpointTable.Holds S := hS
  -- The two requests parse their address alike.
  have hrequest (make : Word → TableCall) (refused : List Byte) (hplain : Plain refused)
      (hrefused : ∀ a, requestReply (make a) 0 = refused)
      (hmake : ∀ a, sscanfHhxX (commandArgs env packet) env.type env.address = .ok (0, a) →
        RequestsBreakpoint env packet (make a))
      (hnone : (∀ a, sscanfHhxX (commandArgs env packet) env.type env.address ≠ .ok (0, a)) →
        ¬∃ c, RequestsBreakpoint env packet c) :
      Ends (sscanfHhxX (commandArgs env packet) env.type env.address >>= fun r =>
          if r.1 ≠ 0 then gdbSendData gdb.acked (text "E03")
          else (make r.2).run gdb.acked.toBreakpointTable >>= fun t =>
            if t.1 ≠ 0 then
              gdbSendData { gdb.acked with toBreakpointTable := t.2 } (text "OK")
            else gdbSendData { gdb.acked with toBreakpointTable := t.2 } refused)
        (PacketStep env packet S gdb) OutsideTable := by
    cases hparse : sscanfHhxX (commandArgs env packet) env.type env.address with
    | error e => exact (sscanfHhxX_raises (cString_outsideTable _) _ _).fault hparse
    | ok r =>
      obtain ⟨type, a⟩ := r
      rw [ok_bind]
      refine ends_ite (fun htype => ?_) (fun htype => ?_)
      · refine hkept (keepsTable_sendData permits_outsideTable rfl _)
          (hnone fun b hb => htype ?_)
        exact congrArg Prod.fst (ok_unique hparse hb)
      · have hzero : type = 0 := Decidable.not_not.mp htype
        rw [hzero] at hparse
        apply (request_ends hS' (make a) hplain (hrefused a)).imp
        rintro g ⟨r, S', hstep, hheld, hsent⟩
        refine ⟨S', hheld, Or.inl ⟨make a, r, hmake a hparse, hstep, ?_⟩⟩
        rw [hsent]
        exact List.append_assoc _ _ _
  by_cases hset : commandOf env packet = 0x5A
  · rw [hset]
    refine hrequest .add (text "E04") (plain_text _ rfl) (fun _ => rfl)
      (fun a ha => ⟨htest, hset, ha⟩) (fun hno hc => ?_)
    obtain ⟨c, -, hc⟩ := hc
    cases c with
    | add a => exact hno a hc.2
    | remove a => exact absurd (hset.symm.trans hc.1) (by decide)
  by_cases hremove : commandOf env packet = 0x7A
  · rw [hremove]
    refine hrequest .remove (text "E05") (plain_text _ rfl) (fun _ => rfl)
      (fun a ha => ⟨htest, hremove, ha⟩) (fun hno hc => ?_)
    obtain ⟨c, -, hc⟩ := hc
    cases c with
    | add a => exact absurd (hremove.symm.trans hc.1) (by decide)
    | remove a => exact hno a hc.2
  have hnone : ¬∃ c, RequestsBreakpoint env packet c := by
    rintro ⟨c, -, hc⟩
    cases c with
    | add a => exact hset hc.1
    | remove a => exact hremove hc.1
  split
  · rename_i handle hhandle
    exact hkept (keepsTable_handler env gdb.acked _ fuel hS' hhandle hset hremove) hnone
  · exact hkept (keepsTable_sendData permits_outsideTable rfl _) hnone

omit [Platform] in
theorem sendPending_outsideTable (gdb : Gdb) (data : ParserData) :
    Ends (sendPending data gdb) (· = { gdb with sent := gdb.sent ++ pending data }) OutsideTable :=
  (sendPending_ends gdb data).mono (fun _ h => h) (fun _ he => he.1 ▸ GdbFault.noConfusion)

/-- Every token moves the set, and none leaves the array. -/
theorem serveToken_table {data : ParserData} (hroom : data.InBuffer) {gdb : Gdb} {S : Set Word}
    (hS : gdb.toBreakpointTable.Holds S) (t : Token Byte) :
    Ends (serveToken env fuel data gdb t)
      (fun r => ∃ S', r.2.toBreakpointTable.Holds S' ∧
        BreakpointStep (.token env fuel t, answersSince gdb.sent r.2.sent) S S')
      OutsideTable := by
  by_cases h2 : t.rule = some 2
  · obtain ⟨rule, text⟩ := t
    dsimp only at h2
    subst h2
    obtain ⟨data', -, hserve⟩ := serveToken_flush env fuel hroom gdb ⟨some 2, text⟩
      (.packetAnalysis text) rfl
    rw [hserve]
    apply Ends.map
    apply (sendPending_outsideTable gdb data).bind
    rintro g rfl
    have hflushed :
        Gdb.toBreakpointTable { gdb with sent := gdb.sent ++ pending data } |>.Holds S := hS
    apply (gdbPacketAnalysis_table env fuel hflushed text).imp
    rintro g ⟨S', hheld, hmoves⟩
    refine ⟨S', hheld, ?_⟩
    rcases hmoves with ⟨c, r, hrequest, hstep, hsent⟩ | ⟨hnone, heq⟩
    · refine Or.inl ⟨c, r, rfl, hrequest, hstep, ?_⟩
      have hframe : [Sent.written [0x2B], .written (frame (requestReply c r))].filter
          Sent.answers = [.written (frame (requestReply c r))] := rfl
      dsimp only at hsent ⊢
      rw [hsent, List.append_assoc, answersSince_append, List.filter_append, pending_answers,
        hframe, List.nil_append]
    · exact Or.inr ⟨fun hc => hnone (hc.imp fun _ h => h.2), heq⟩
  · have hstay {r : ParserData × Gdb}
        (h : r.2.toBreakpointTable = gdb.toBreakpointTable) :
        ∃ S', r.2.toBreakpointTable.Holds S' ∧
          BreakpointStep (.token env fuel t, answersSince gdb.sent r.2.sent) S S' :=
      ⟨S, h.symm ▸ hS, Or.inr ⟨fun hc => h2 hc.choose_spec.1, rfl⟩⟩
    by_cases h1 : t.rule = some 1
    · obtain ⟨rule, text⟩ := t
      dsimp only at h1
      subst h1
      obtain ⟨data', -, hserve⟩ := serveToken_flush env fuel hroom gdb ⟨some 1, text⟩
        .transmitPacket rfl
      rw [hserve]
      apply Ends.map
      apply (sendPending_outsideTable gdb data).bind
      rintro g rfl
      exact (keepsTable_rioWriten (g := { gdb with sent := gdb.sent ++ pending data })
        permits_outsideTable rfl _).imp (fun g hg => hstay hg)
    · exact (serveToken_noise env fuel hroom gdb h1 h2).mono
        (fun _ h => hstay (congrArg Target.table h.target))
        (fun _ he => he.1 ▸ GdbFault.noConfusion)

/-- Every activity moves the set, and none leaves the array. -/
theorem perform_table {s : Session} (hroom : s.parser.InBuffer) {S : Set Word}
    (hS : s.gdb.toBreakpointTable.Holds S) (a : Activity) :
    Ends (perform s a)
      (fun t => t.parser.InBuffer ∧ ∃ S', t.gdb.toBreakpointTable.Holds S' ∧
        BreakpointStep (a, answersSince s.gdb.sent t.gdb.sent) S S')
      OutsideTable := by
  cases a with
  | token env fuel t =>
    have hserved := ((serveToken_room env fuel hroom s.gdb t).mono (F := fun _ => True)
      (fun _ h => h) (fun _ _ => trivial)).both (serveToken_table env fuel hroom hS t)
    apply (hserved.mono (fun _ h => h) (fun _ he => he.2)).bind
    exact fun r hr => hr
  | irq env e =>
    have hirq : Ends (irqListener env s.gdb e)
        (fun g => g.toBreakpointTable = s.gdb.toBreakpointTable) OutsideTable :=
      (raises_simulated permits_outsideTable _).bind (fun _ _ => rfl)
    apply hirq.bind
    exact fun g hg => ⟨hroom, S, hg.symm ▸ hS, rfl⟩

theorem runs_table {ls : List (Activity × List Sent)} {s t : Session} (h : Runs Performs ls s t)
    (hroom : s.parser.InBuffer) {S : Set Word} (hS : s.gdb.toBreakpointTable.Holds S) :
    t.parser.InBuffer ∧ ∃ S', Runs BreakpointStep ls S S' ∧ t.gdb.toBreakpointTable.Holds S' := by
  induction h generalizing S with
  | nil s => exact ⟨hroom, S, .nil S, hS⟩
  | @cons l ls s t u head tail ih =>
    obtain ⟨hperform, hout⟩ := head
    obtain ⟨hnext, S₁, hheld, hstep⟩ := (perform_table hroom hS l.1).value hperform
    rw [hout] at hstep
    obtain ⟨hend, S', hruns, hS'⟩ := ih hnext hheld
    exact ⟨hend, S', .cons hstep hruns, hS'⟩

/-- `cont`, in a session whose table stands for `S`. -/
theorem serveCont_stops {s u : Session} (hroom : s.parser.InBuffer) {S : Set Word}
    (hS : s.gdb.toBreakpointTable.Holds S) {t : Token Byte} (h2 : t.rule = some 2)
    (htest : ChecksumTest env t.text) (hcommand : commandOf env t.text = 0x63)
    (h : perform s (.token env fuel t) = .ok u) :
    ∃ n result, IsLeast {k | 0 < k ∧ StopsAfter env.steps s.gdb.arm S k} n ∧
      stepsFrom env.steps s.gdb.arm n = .ok (result, u.gdb.arm) ∧
      u.gdb.targetException = result := by
  have hserve := perform_token h
  have hconnected := serveToken_packet_connected env fuel hroom h2 hserve
  obtain ⟨data', -, hpacket⟩ := serveToken_packet env fuel hroom hconnected h2
  rw [hpacket, gdbPacketAnalysis_intact env fuel _ htest, hcommand,
    gdbSendAck_connected ((pending_connected s.parser).mpr hconnected), ok_bind] at hserve
  obtain ⟨g, hg, heq⟩ := map_eq_ok.mp hserve
  obtain rfl : g = u.gdb := congrArg Prod.snd heq
  obtain ⟨g₁, hloop, hsend⟩ := bind_eq_ok.mp hg
  -- The loop starts from the acknowledged state, which has the table and the machine of `s`.
  have hends := @contLoop_ends _ env S s.gdb.arm fuel 0
    (Gdb.acked { s.gdb with sent := s.gdb.sent ++ pending s.parser }) 0 hS rfl
  obtain ⟨n, result, hpos, hn, hstop, hfirst, hg₁⟩ := hends.value hloop
  have htarget := (sendData_leaves g₁ (plain_stopReason _)).value hsend
  have harm : u.gdb.arm = g₁.arm := congrArg Target.arm htarget
  have hresult : u.gdb.targetException = g₁.targetException :=
    congrArg Target.targetException htarget
  refine ⟨n, result, ⟨⟨hpos, result, g₁.arm, hn, hstop⟩, ?_⟩, by rw [harm, hn], ?_⟩
  · rintro k ⟨hk, hk'⟩
    by_contra hlt
    exact hfirst k hk (by omega) hk'
  · rw [hresult, hg₁]

end sessions

end ArmSim
