import ArmSim.GdbProtocol

/-! The replies of the protocol: what `gdb_send_buffer` makes of the text in the buffer, and
that every handler but one sends exactly one frame. -/
namespace ArmSim
open Lib

/-- A payload and its two checksum digits. -/
def packetText (payload : List Byte) (h1 h2 : Byte) : List Byte :=
  0x24 :: (payload ++ [0x23, h1, h2])

/-- The frame of a payload: the checksum in lower-case digits. -/
def frame (payload : List Byte) : List Byte :=
  0x24 :: (payload ++ 0x23 :: hexText 2 payload.sum.toNat)

/-- A payload without a NUL and the two characters that delimit packets. -/
def Plain (payload : List Byte) : Prop := ∀ c ∈ payload, c ≠ 0 ∧ c ≠ 0x24 ∧ c ≠ 0x23

instance (payload : List Byte) : Decidable (Plain payload) :=
  inferInstanceAs (Decidable (∀ c ∈ payload, _))

theorem Plain.append {s t : List Byte} (hs : Plain s) (ht : Plain t) : Plain (s ++ t) := by
  intro c hc
  rcases List.mem_append.mp hc with h | h
  · exact hs c h
  · exact ht c h

theorem plain_nil : Plain [] := fun _ hc => absurd hc List.not_mem_nil

/-- The texts of the replies are made of characters above `$`. -/
theorem plain_text (s : String)
    (h : s.toList.all (fun c => 0x24 < c.toNat && c.toNat < 0x80) = true) : Plain (text s) := by
  intro c hc
  obtain ⟨d, hd, rfl⟩ := List.mem_map.mp hc
  have hrange := List.all_eq_true.mp h d hd
  simp only [Bool.and_eq_true, decide_eq_true_eq] at hrange
  have hne (k : ℕ) (hk : k ≤ 0x24) : BitVec.ofNat 8 d.toNat ≠ BitVec.ofNat 8 k := by
    intro heq
    have hnat := congrArg BitVec.toNat heq
    rw [BitVec.toNat_ofNat, BitVec.toNat_ofNat] at hnat
    omega
  exact ⟨hne 0 (by decide), hne 0x24 (by decide), hne 0x23 (by decide)⟩

theorem plain_hexText (n v : ℕ) : Plain (hexText n v) := by
  intro c hc
  have h := isHex_ne (isHex_hexText n v c hc)
  exact ⟨h.2.2.2.2.2.1, h.2.2.2.2.2.2.1, h.2.2.2.2.2.2.2.1⟩

section connection
variable {gdb : Gdb} {bytes : List Byte}

@[simp] theorem Gdb.wrote_connected (gdb : Gdb) (bytes : List Byte) :
    (gdb.wrote bytes).Connected ↔ gdb.Connected := by
  unfold Gdb.Connected Gdb.wrote
  simp

/-- The connection depends on nothing but what has been sent. -/
theorem connected_of_sent {g : Gdb} (hsent : g.sent = gdb.sent) : g.Connected ↔ gdb.Connected := by
  unfold Gdb.Connected
  rw [hsent]

theorem gdbInitData_connected (arm : ArmCore) (breakpoints : ℕ → Word) (packet : ℕ → Byte) :
    (gdbInitData arm breakpoints packet).Connected := List.not_mem_nil

/-- Something was to be written, and the connection has been shut down. -/
def Severed (gdb : Gdb) (e : GdbFault) : Prop := e = .brokenPipe ∧ ¬gdb.Connected

theorem rioWriten_connected (h : gdb.Connected) (bytes : List Byte) :
    rioWriten gdb bytes = .ok (gdb.wrote bytes) := if_pos (Or.inl h)

theorem rioWriten_severed (h : ¬gdb.Connected) (hne : bytes ≠ []) :
    rioWriten gdb bytes = .error .brokenPipe :=
  if_neg fun hor => hor.elim h hne

/-- A write is done, or ends the simulator behind a shutdown. -/
theorem rioWriten_ends (gdb : Gdb) (hne : bytes ≠ []) :
    Ends (rioWriten gdb bytes) (fun g => gdb.Connected ∧ g = gdb.wrote bytes) (Severed gdb) := by
  by_cases h : gdb.Connected
  · rw [rioWriten_connected h]
    exact ⟨h, rfl⟩
  · rw [rioWriten_severed h hne]
    exact ⟨rfl, h⟩

/-- Behind the acknowledgement of a packet. -/
abbrev Gdb.acked (gdb : Gdb) : Gdb := gdb.wrote [0x2B]

theorem gdbSendAck_connected (h : gdb.Connected) : gdbSendAck gdb = .ok gdb.acked :=
  rioWriten_connected h _

theorem gdbSendAck_ends (gdb : Gdb) :
    Ends (gdbSendAck gdb) (fun g => gdb.Connected ∧ g = gdb.acked) (Severed gdb) :=
  rioWriten_ends gdb (List.cons_ne_nil _ _)

end connection

section buffer

theorem Gdb.put_ends (gdb : Gdb) (i : ℕ) (s : List Byte) :
    Ends (gdb.put i s)
      (fun g => ∃ packet, g = { gdb with packet := packet } ∧ slice packet i s.length = s ∧
        (∀ k, k < i ∨ i + s.length ≤ k → packet k = gdb.packet k) ∧
        (s ≠ [] → i + s.length ≤ MAX_PACKET_SIZE))
      (fun e => e = .packetBuffer ∧ MAX_PACKET_SIZE < i + s.length) := by
  unfold Gdb.put
  apply (storeText_ends GdbFault.packetBuffer MAX_PACKET_SIZE gdb.packet i s).bind
  intro packet hpacket
  exact ⟨packet, rfl, hpacket⟩

/-- The loop over a text finds its end and its sum. -/
theorem gdbChecksumLoop_ends {packet : ℕ → Byte} {s : List Byte} (h0 : ∀ c ∈ s, c ≠ 0) {i : ℕ}
    (hs : slice packet i (s.length + 1) = s ++ [0]) (room : ℕ) (check : Byte) :
    Ends (gdbChecksumLoop packet room i check) (· = (i + s.length, check + s.sum))
      (fun e => e = .packetBuffer ∧ room ≤ s.length) := by
  induction s generalizing room i check with
  | nil =>
    cases room with
    | zero => exact ⟨rfl, Nat.zero_le _⟩
    | succ room =>
      have hi : packet i = 0 := by simpa [slice] using hs
      unfold gdbChecksumLoop
      rw [if_neg (not_not.mpr hi)]
      simp
  | cons c s ih =>
    cases room with
    | zero => exact ⟨rfl, Nat.zero_le _⟩
    | succ room =>
      rw [List.length_cons, slice_cons, List.cons_append] at hs
      obtain ⟨hc, hs⟩ := List.cons.inj hs
      have hne : packet i ≠ 0 := by
        rw [hc]
        exact h0 c List.mem_cons_self
      unfold gdbChecksumLoop
      -- The sum so far takes this character in, and the rest is a text again.
      rw [if_pos hne, hc]
      apply (ih (fun d hd => h0 d (List.mem_cons_of_mem _ hd)) hs room (check + c)).mono
      · rintro r rfl
        rw [List.length_cons, List.sum_cons, BitVec.add_assoc]
        congr 1
        omega
      · rintro e ⟨he, hle⟩
        rw [List.length_cons]
        exact ⟨he, by omega⟩

/-- `g` is `gdb` after the reply `s`: the connection is there, the frame is sent and kept, and
nothing else changes. -/
def Replies (gdb : Gdb) (s : List Byte) (g : Gdb) : Prop :=
  gdb.Connected ∧ ∃ packet, slice packet 0 (s.length + 4) = frame s ∧
    g = { gdb with
      packet := packet
      len := s.length + 4
      sent := gdb.sent ++ [.written (frame s)] }

theorem Replies.connected {gdb g : Gdb} {s : List Byte} (h : Replies gdb s g) : g.Connected := by
  obtain ⟨hconnected, packet, -, rfl⟩ := h
  exact (gdb.wrote_connected (frame s)).mpr hconnected

theorem Replies.arm_eq {gdb g : Gdb} {s : List Byte} (h : Replies gdb s g) : g.arm = gdb.arm := by
  obtain ⟨-, packet, -, rfl⟩ := h
  rfl

theorem Replies.sent_eq {gdb g : Gdb} {s : List Byte} (h : Replies gdb s g) :
    g.sent = gdb.sent ++ [.written (frame s)] := by
  obtain ⟨-, packet, -, rfl⟩ := h
  rfl

/-- The reply `s` does not fit the buffer with its frame and the NUL. -/
def TooLong (s : List Byte) (e : GdbFault) : Prop :=
  e = .packetBuffer ∧ MAX_PACKET_SIZE < s.length + 5

/-- The reply `s` is not sent: it does not fit, or the connection has been shut down. -/
def Unsent (gdb : Gdb) (s : List Byte) (e : GdbFault) : Prop :=
  TooLong s e ∨ s.length + 5 ≤ MAX_PACKET_SIZE ∧ Severed gdb e

/-- `gdb_send_buffer` sends the frame of the text it finds, and keeps it in the buffer, if and only
if the frame and the NUL behind it fit and the connection is there. -/
theorem gdbSendBuffer_ends {gdb : Gdb} {s : List Byte} (h0 : ∀ c ∈ s, c ≠ 0)
    (hs : slice gdb.packet 1 (s.length + 1) = s ++ [0]) :
    Ends (gdbSendBuffer gdb) (fun g => Replies gdb s g ∧ s.length + 5 ≤ MAX_PACKET_SIZE)
      (Unsent gdb s) := by
  have hput (i : ℕ) (t : List Byte) (hle : i + t.length ≤ s.length + 5) (g : Gdb) :
      Ends (g.put i t)
        (fun g' => ∃ packet, g' = { g with packet := packet } ∧ slice packet i t.length = t ∧
          (∀ k, k < i ∨ i + t.length ≤ k → packet k = g.packet k) ∧
          (t ≠ [] → i + t.length ≤ MAX_PACKET_SIZE))
        (Unsent gdb s) :=
    (g.put_ends i t).mono (fun _ h => h) (fun e he => Or.inl ⟨he.1, by omega⟩)
  -- The NUL after the digits is the last store, one behind the frame.
  unfold gdbSendBuffer
  apply (hput 0 [0x24] (by rw [List.length_singleton]; omega) gdb).bind
  rintro g1 ⟨p1, rfl, hp1, hf1, -⟩
  have hs1 : slice p1 1 (s.length + 1) = s ++ [0] := by
    rw [← hs]
    exact slice_congr (fun k hk _ => hf1 k (Or.inr hk))
  have hloop : Ends (gdbChecksumLoop p1 (MAX_PACKET_SIZE - 1) 1 0)
      (· = (1 + s.length, 0 + s.sum)) (Unsent gdb s) :=
    (gdbChecksumLoop_ends h0 hs1 _ 0).mono (fun _ h => h) (fun e he => Or.inl ⟨he.1, by omega⟩)
  apply hloop.bind
  rintro r rfl
  have hzero : (0 : Byte) + s.sum = s.sum := BitVec.zero_add _
  dsimp only
  rw [hzero]
  apply (hput (1 + s.length) [0x23] (by rw [List.length_singleton]; omega) _).bind
  rintro g2 ⟨p2, rfl, hp2, hf2, -⟩
  have hlen : (hexText 2 s.sum.toNat ++ [0]).length = 3 := by simp
  apply (hput (1 + s.length + 1) _ (by rw [hlen]; omega) _).bind
  rintro g3 ⟨p3, rfl, hp3, hf3, -⟩
  apply (hput (1 + s.length + 1 + 2) [0] (by rw [List.length_singleton]; omega) _).bind
  rintro g4 ⟨p4, rfl, -, hf4, hfit⟩
  dsimp only at hf2 hf3 hf4
  -- Each store leaves what stands before it.
  have hdollar : p4 0 = 0x24 := by
    rw [hf4 0 (by omega), hf3 0 (by omega), hf2 0 (by omega)]
    exact (List.cons.inj hp1).1
  have hpayload : slice p4 1 s.length = s := by
    have hsame : slice p4 1 s.length = slice p1 1 s.length :=
      slice_congr (fun k _ hk => calc
        p4 k = p3 k := hf4 k (by omega)
        _ = p2 k := hf3 k (by omega)
        _ = p1 k := hf2 k (by omega))
    rw [hsame]
    exact slice_lead hs1
  have hhash : p4 (1 + s.length) = 0x23 := by
    rw [hf4 _ (by omega), hf3 _ (by omega)]
    exact (List.cons.inj hp2).1
  have hdigits : slice p4 (1 + s.length + 1) 2 = hexText 2 s.sum.toNat := by
    rw [slice_congr (b := p3) (fun k _ hk => hf4 k (by omega))]
    have hd := slice_lead hp3
    rwa [length_hexText] at hd
  have hframe : slice p4 0 (s.length + 4) = frame s := by
    rw [show s.length + 4 = s.length + (2 + 1) + 1 by omega, slice_cons, slice_add, slice_cons,
      hdollar, hpayload, hhash, hdigits]
    rfl
  have hend : 1 + s.length + 1 + 2 = s.length + 4 := by omega
  have hlast := hfit (List.cons_ne_nil _ _)
  rw [hend, List.length_singleton] at hlast
  unfold gdbTransmitPacket
  dsimp only
  rw [hend, hframe]
  apply (rioWriten_ends _ (List.cons_ne_nil _ _)).mono
  · rintro g ⟨hconnected, rfl⟩
    exact ⟨⟨hconnected, p4, hframe, rfl⟩, hlast⟩
  · exact fun e he => Or.inr ⟨hlast, he⟩

end buffer

section build
variable (gdb : Gdb)

/-- `g` is `gdb` with the text `s` at the start of `buffer`. -/
def Building (s : List Byte) (g : Gdb) : Prop :=
  ∃ packet, g = { gdb with packet := packet } ∧ slice packet 1 s.length = s

/-- The text is complete: a NUL follows it. -/
def Built (s : List Byte) (g : Gdb) : Prop :=
  ∃ packet, g = { gdb with packet := packet } ∧ slice packet 1 (s.length + 1) = s ++ [0]

variable {gdb}

theorem building_nil (gdb : Gdb) : Building gdb [] gdb := ⟨gdb.packet, rfl, rfl⟩

theorem Built.building {s : List Byte} {g : Gdb} (h : Built gdb s g) : Building gdb s g := by
  obtain ⟨packet, hg, hs⟩ := h
  exact ⟨packet, hg, slice_lead hs⟩

/-- A string written behind the text extends it. -/
theorem Building.put {s : List Byte} {g : Gdb} (h : Building gdb s g) (t : List Byte) :
    Ends (g.put (1 + s.length) (t ++ [0])) (Built gdb (s ++ t))
      (fun e => e = .packetBuffer ∧ MAX_PACKET_SIZE < s.length + t.length + 2) := by
  obtain ⟨packet, rfl, hs⟩ := h
  apply (Gdb.put_ends _ _ _).mono
  · rintro g' ⟨packet', rfl, ht, hframe, -⟩
    refine ⟨packet', rfl, ?_⟩
    have hall := slice_append_of_frame hs ht (fun k hk => hframe k (Or.inl hk))
    rw [← List.append_assoc, List.length_append] at hall
    exact hall
  · rintro e ⟨he, hlt⟩
    rw [List.length_append, List.length_singleton] at hlt
    exact ⟨he, by omega⟩

theorem Built.send_fits {s : List Byte} {g : Gdb} (h : Built gdb s g) (h0 : ∀ c ∈ s, c ≠ 0) :
    Ends (gdbSendBuffer g) (fun g' => Replies gdb s g' ∧ s.length + 5 ≤ MAX_PACKET_SIZE)
      (Unsent gdb s) := by
  obtain ⟨packet, rfl, hs⟩ := h
  exact gdbSendBuffer_ends h0 hs

theorem Built.send {s : List Byte} {g : Gdb} (h : Built gdb s g) (h0 : ∀ c ∈ s, c ≠ 0) :
    Ends (gdbSendBuffer g) (Replies gdb s) (Unsent gdb s) :=
  (h.send_fits h0).imp (fun _ h => h.1)

theorem gdbSendData_ends (gdb : Gdb) {s : List Byte} (h0 : ∀ c ∈ s, c ≠ 0) :
    Ends (gdbSendData gdb s) (Replies gdb s) (Unsent gdb s) := by
  unfold gdbSendData
  have hput := (building_nil gdb).put s
  apply (hput.mono (fun _ h => h) (fun e he => ?_)).bind
  · intro g hg
    exact hg.send h0
  · rw [List.length_nil] at he
    exact Or.inl ⟨he.1, by omega⟩

/-- A reply that fits the buffer is sent where there is a connection. -/
theorem gdbSendData_short (gdb : Gdb) {s : List Byte} (h0 : ∀ c ∈ s, c ≠ 0)
    (hfit : s.length + 5 ≤ MAX_PACKET_SIZE) :
    Ends (gdbSendData gdb s) (Replies gdb s) (Severed gdb) :=
  (gdbSendData_ends gdb h0).mono (fun _ h => h) (fun _ he => he.elim
    (fun hlong => absurd hlong.2 (Nat.not_lt.mpr hfit)) (fun hsevered => hsevered.2))

theorem not_severed {e : GdbFault} (h : gdb.Connected) : ¬Severed gdb e := fun he => he.2 h

end build

/-- One frame with a plain payload has been sent, and is the last one in the buffer. -/
def Answered (gdb g : Gdb) : Prop :=
  ∃ s, Plain s ∧ g.sent = gdb.sent ++ [.written (frame s)] ∧ slice g.packet 0 g.len = frame s

theorem Replies.answered {gdb g₀ g : Gdb} {s : List Byte} (h : Replies g₀ s g) (hp : Plain s)
    (hsent : g₀.sent = gdb.sent) : Answered gdb g := by
  obtain ⟨-, packet, hframe, rfl⟩ := h
  exact ⟨s, hp, by rw [← hsent], hframe⟩

/-- The computation, if it returns, has answered. -/
abbrev Answers (gdb : Gdb) (x : Except GdbFault Gdb) : Prop := Ends x (Answered gdb) (fun _ => True)

/-- The computation, if it returns, has sent nothing. -/
abbrev Silent (gdb : Gdb) (x : Except GdbFault Gdb) : Prop :=
  Ends x (fun g => g.sent = gdb.sent) (fun _ => True)

theorem simulated_ends {α : Type} {x : Except Crash α} {P : α → Prop} {E : Crash → Prop}
    (h : Ends x P E) : Ends (simulated x) P (fun e => ∃ c, E c ∧ e = .crash c) := by
  cases x with
  | ok a => exact h
  | error c => exact ⟨c, h, rfl⟩

theorem gdbSendData_answers {gdb g : Gdb} {s : List Byte} (hp : Plain s)
    (hsent : g.sent = gdb.sent) : Answers gdb (gdbSendData g s) :=
  (gdbSendData_ends g (fun c hc => (hp c hc).1)).mono (fun _ h => h.answered hp hsent)
    (fun _ _ => trivial)

theorem Built.answers {gdb g₀ g : Gdb} {s : List Byte} (h : Built g₀ s g) (hp : Plain s)
    (hsent : g₀.sent = gdb.sent) : Answers gdb (gdbSendBuffer g) :=
  (h.send (fun c hc => (hp c hc).1)).mono (fun _ hr => hr.answered hp hsent) (fun _ _ => trivial)

theorem plain_stopReason (e : ℤ) : Plain (text (gdbStopReason e)) := by
  apply plain_text
  unfold gdbStopReason
  split_ifs <;> rfl

theorem gdbSendStopReason_answers {gdb g : Gdb} (hsent : g.sent = gdb.sent) :
    Answers gdb (gdbSendStopReason g) :=
  gdbSendData_answers (plain_stopReason _) hsent

section query
variable (gdb : Gdb) (data : List Byte)

theorem query_answers : Answers gdb (query gdb data) := by
  unfold query
  apply (ends_trivial _).bind
  intro s _
  split_ifs
  · exact gdbSendData_answers (plain_text _ rfl) rfl
  · exact gdbSendData_answers (plain_text _ rfl) rfl
  · exact gdbSendData_answers (plain_text _ rfl) rfl
  · exact gdbSendData_answers plain_nil rfl
  · exact gdbSendData_answers plain_nil rfl

theorem setThread_answers : Answers gdb (setThread gdb data) := by
  unfold setThread
  split
  · trivial
  · apply (ends_trivial _).bind
    intro value _
    split_ifs
    · exact gdbSendData_answers (plain_text _ rfl) rfl
    · exact gdbSendData_answers (plain_text _ rfl) rfl

theorem reason_answers : Answers gdb (reason gdb data) := gdbSendStopReason_answers rfl

/-- The loop writes pairs of digits behind the text. -/
theorem readMemoryLoop_ends {gdb : Gdb} (size : ℕ) {s : List Byte} {g : Gdb} (h : Built gdb s g)
    (hp : Plain s) (address : Word) :
    Ends (readMemoryLoop size g address (1 + s.length)) (fun g' => ∃ t, Plain t ∧ Built gdb t g')
      (fun _ => True) := by
  induction size generalizing s g address with
  | zero => exact ⟨s, hp, h⟩
  | succ size ih =>
    unfold readMemoryLoop
    apply (ends_trivial _).bind
    rintro ⟨result, value⟩ _
    apply ends_ite
    · intro _
      have hput := h.building.put (hexText 2 value.toNat)
      apply (hput.mono (fun _ h => h) (fun _ _ => trivial)).bind
      intro g' hg'
      have hnext := ih hg' (hp.append (plain_hexText 2 value.toNat)) (address + 1)
      rwa [List.length_append, length_hexText, ← Nat.add_assoc] at hnext
    · exact fun _ => ⟨s, hp, h⟩

theorem readMemory_answers (env : GdbEnv) : Answers gdb (readMemory env gdb data) := by
  unfold readMemory
  apply (ends_trivial _).bind
  rintro ⟨address, size⟩ _
  dsimp only
  have hput (t : List Byte) : Ends (gdb.put 1 (t ++ [0])) (Built gdb t) (fun _ => True) :=
    ((building_nil gdb).put t).mono (fun _ h => h) (fun _ _ => trivial)
  apply ends_ite
  · intro _
    apply (hput []).bind
    intro g hg
    apply (readMemoryLoop_ends size.toNat hg plain_nil address).bind
    rintro g' ⟨t, ht, hbuilt⟩
    exact hbuilt.answers ht rfl
  · intro _
    apply (hput (text "E0E")).bind
    intro g hg
    exact hg.answers (plain_text _ rfl) rfl

theorem writeMemoryLoop_silent {gdb : Gdb} (size : ℕ) (address : Word) (content : TextPointer) :
    Ends (writeMemoryLoop size gdb address content) (fun r => r.1.sent = gdb.sent)
      (fun _ => True) := by
  induction size generalizing gdb address content with
  | zero => rfl
  | succ size ih =>
    unfold writeMemoryLoop
    apply (ends_trivial _).bind
    intro content _
    apply (ends_trivial _).bind
    rintro ⟨value, content⟩ _
    apply (ends_trivial _).bind
    rintro ⟨result, mem⟩ _
    apply ends_ite
    · exact fun _ => (ih (address + 1) (some content)).imp (fun r hr => hr)
    · exact fun _ => rfl

theorem writeMemoryBinary_answers (env : GdbEnv) :
    Answers gdb (writeMemoryBinary env gdb data) := by
  unfold writeMemoryBinary
  apply (ends_trivial _).bind
  rintro ⟨address, size⟩ _
  apply (ends_trivial _).bind
  intro content _
  have hloop : Ends (if address.toNat < gdb.arm.mem.size then
      writeMemoryLoop size.toNat gdb address content else pure (gdb, false))
      (fun r => r.1.sent = gdb.sent) (fun _ => True) :=
    ends_ite (fun _ => writeMemoryLoop_silent size.toNat address content) (fun _ => rfl)
  apply hloop.bind
  rintro ⟨g, writeOk⟩ hg
  dsimp only
  split_ifs
  · exact gdbSendData_answers (plain_text _ rfl) hg
  · exact gdbSendData_answers (plain_text _ rfl) hg

/-- Both breakpoint requests report whether their call changed the table. -/
theorem tableCall_answers (x : Except GdbFault (ℤ × BreakpointTable)) {s : List Byte}
    (hs : Plain s) :
    Answers gdb (x >>= fun r =>
      if r.1 ≠ 0 then gdbSendData { gdb with toBreakpointTable := r.2 } (text "OK")
      else gdbSendData { gdb with toBreakpointTable := r.2 } s) := by
  apply (ends_trivial x).bind
  intro r _
  split_ifs
  · exact gdbSendData_answers (plain_text _ rfl) rfl
  · exact gdbSendData_answers hs rfl

theorem setBreakpoint_answers (env : GdbEnv) : Answers gdb (setBreakpoint env gdb data) := by
  unfold setBreakpoint
  apply (ends_trivial _).bind
  rintro ⟨type, address⟩ _
  apply ends_ite
  · exact fun _ => gdbSendData_answers (plain_text _ rfl) rfl
  · exact fun _ => tableCall_answers gdb _ (plain_text _ rfl)

theorem removeBreakpoint_answers (env : GdbEnv) : Answers gdb (removeBreakpoint env gdb data) := by
  unfold removeBreakpoint
  apply (ends_trivial _).bind
  rintro ⟨type, address⟩ _
  apply ends_ite
  · exact fun _ => gdbSendData_answers (plain_text _ rfl) rfl
  · exact fun _ => tableCall_answers gdb _ (plain_text _ rfl)

end query

section registers
variable [Platform]

/-- What a register reads as, where the read has a result. -/
def registerValue (r : Registers) (reg : ℕ) : Word :=
  match registersRead r reg (registersGetMode r) with
  | .ok v => v
  | .error _ => 0

/-- A read of one of the registers leaves its cells. -/
def ReadFails (r : Registers) (e : GdbFault) : Prop :=
  ∃ reg < 16, ∃ c, registersRead r reg (registersGetMode r) = .error c ∧ e = .crash c

theorem readRegister_ends {gdb g : Gdb} {s : List Byte} (h : Building gdb s g)
    (hfit : s.length + 10 ≤ MAX_PACKET_SIZE) {reg : ℕ} (hreg : reg < 16) :
    Ends (readRegister g (1 + s.length) reg)
      (Built gdb (s ++ hexText 8 (registerValue gdb.arm.reg reg).toNat))
      (fun e => ∃ c, registersRead gdb.arm.reg reg (registersGetMode gdb.arm.reg) = .error c ∧
        e = .crash c) := by
  obtain ⟨packet, rfl, hs⟩ := h
  unfold readRegister
  rw [if_pos hreg]
  unfold registerValue
  dsimp only
  cases hread : registersRead gdb.arm.reg reg (registersGetMode gdb.arm.reg) with
  | error c => exact ⟨c, rfl, rfl⟩
  | ok v =>
    have hb : Building gdb s { gdb with packet := packet } := ⟨packet, rfl, hs⟩
    apply (hb.put (hexText 8 v.toNat)).mono (fun _ h => h)
    rintro e ⟨-, hlt⟩
    rw [length_hexText] at hlt
    omega

/-- The fields of the first `k` words. -/
def wordFields (value : ℕ → Word) (k : ℕ) : List Byte :=
  (List.range k).flatMap (fun reg => hexText 8 (value reg).toNat)

/-- The fields of registers that are not implemented. -/
def filler (k : ℕ) : List Byte := (List.replicate k (text "xxxxxxxx")).flatten

/-- An image of the registers, and of a CPSR. -/
def imageText (value : ℕ → Word) (cpsr : Word) : List Byte :=
  wordFields value 16 ++ filler 25 ++ hexText 8 cpsr.toNat

/-- The reply to `g`. -/
def registerImage (r : Registers) : List Byte := imageText (registerValue r) (registersReadCpsr r)

omit [Platform] in
theorem wordFields_succ (value : ℕ → Word) (k : ℕ) :
    wordFields value (k + 1) = wordFields value k ++ hexText 8 (value k).toNat := by
  simp [wordFields, List.range_succ]

omit [Platform] in
theorem length_wordFields (value : ℕ → Word) (k : ℕ) : (wordFields value k).length = 8 * k := by
  induction k with
  | zero => rfl
  | succ k ih =>
    rw [wordFields_succ, List.length_append, ih, length_hexText]
    omega

omit [Platform] in
theorem filler_succ (k : ℕ) : filler (k + 1) = filler k ++ text "xxxxxxxx" := by
  simp [filler, List.replicate_succ']

omit [Platform] in
theorem length_filler (k : ℕ) : (filler k).length = 8 * k := by
  have htext : (text "xxxxxxxx").length = 8 := by decide
  induction k with
  | zero => rfl
  | succ k ih =>
    rw [filler_succ, List.length_append, ih, htext]
    omega

omit [Platform] in
theorem length_imageText (value : ℕ → Word) (cpsr : Word) :
    (imageText value cpsr).length = 336 := by
  unfold imageText
  rw [List.length_append, List.length_append, length_wordFields, length_filler, length_hexText]

omit [Platform] in
theorem plain_imageText (value : ℕ → Word) (cpsr : Word) : Plain (imageText value cpsr) := by
  unfold imageText
  refine (Plain.append ?_ ?_).append (plain_hexText 8 _)
  · intro c hc
    obtain ⟨reg, -, hreg⟩ := List.mem_flatMap.mp hc
    exact plain_hexText 8 _ c hreg
  · intro c hc
    obtain ⟨t, ht, hct⟩ := List.mem_flatten.mp hc
    rw [(List.mem_replicate.mp ht).2] at hct
    have hx : Plain (text "xxxxxxxx") := plain_text _ rfl
    exact hx c hct

/-- `g` answers the image of the current mode's registers. -/
theorem readGeneralRegisters_ends (gdb : Gdb) (data : List Byte) :
    Ends (readGeneralRegisters gdb data) (Replies gdb (registerImage gdb.arm.reg))
      (fun e => ReadFails gdb.arm.reg e ∨ Severed gdb e) := by
  have hmax : MAX_PACKET_SIZE = 4096 := rfl
  have htext : (text "xxxxxxxx").length = 8 := by decide
  -- After `k` of the fields of a loop the text so far ends where the next one goes.
  let Fields (t : List Byte) (s : Gdb × ℕ) : Prop := Building gdb t s.1 ∧ s.2 = 1 + t.length
  have hregisters : Ends ((List.range 16).foldlM (fun (s : Gdb × ℕ) i =>
      (readRegister s.1 s.2 i >>= fun g => pure (g, s.2 + 8))) (gdb, 1))
      (Fields (wordFields (registerValue gdb.arm.reg) 16))
      (fun e => ReadFails gdb.arm.reg e ∨ Severed gdb e) := by
    apply ends_foldlM_range (fun k => Fields (wordFields (registerValue gdb.arm.reg) k))
    · exact ⟨building_nil gdb, rfl⟩
    · rintro i hi ⟨g, position⟩ ⟨hg, hpos⟩
      change position = _ at hpos
      subst hpos
      have hlen := length_wordFields (registerValue gdb.arm.reg) i
      have hread := (readRegister_ends hg (by omega) hi).mono (fun _ h => h)
        (fun e he => Or.inl (b := Severed gdb e) (⟨i, hi, he⟩ : ReadFails gdb.arm.reg e))
      apply hread.bind
      intro g' hg'
      rw [← wordFields_succ] at hg'
      refine ⟨hg'.building, ?_⟩
      dsimp only
      rw [hlen, length_wordFields]
      omega
  have hput {t : List Byte} {s : Gdb × ℕ} (h : Fields t s) (u : List Byte)
      (hfit : t.length + u.length + 2 ≤ MAX_PACKET_SIZE) :
      Ends (s.1.put s.2 (u ++ [0])) (Built gdb (t ++ u))
        (fun e => ReadFails gdb.arm.reg e ∨ Severed gdb e) := by
    obtain ⟨hb, hpos⟩ := h
    rw [hpos]
    exact (hb.put u).mono (fun _ h => h) (fun e he => absurd he.2 (by omega))
  have hfiller (s : Gdb × ℕ) (hs : Fields (wordFields (registerValue gdb.arm.reg) 16) s) :
      Ends ((List.range 8).foldlM (fun (s : Gdb × ℕ) _ =>
        (List.range 3).foldlM (fun (s : Gdb × ℕ) _ =>
          (s.1.put s.2 (text "xxxxxxxx" ++ [0]) >>= fun g => pure (g, s.2 + 8))) s) s)
        (Fields (wordFields (registerValue gdb.arm.reg) 16 ++ filler 24))
        (fun e => ReadFails gdb.arm.reg e ∨ Severed gdb e) := by
    apply ends_foldlM_range
      (fun i => Fields (wordFields (registerValue gdb.arm.reg) 16 ++ filler (3 * i)))
    · simpa [filler] using hs
    · intro i hi s hs
      apply ends_foldlM_range
        (fun j => Fields (wordFields (registerValue gdb.arm.reg) 16 ++ filler (3 * i + j)))
      · exact hs
      · intro j hj s hs
        have hlen : (wordFields (registerValue gdb.arm.reg) 16 ++ filler (3 * i + j)).length =
            128 + 8 * (3 * i + j) := by
          rw [List.length_append, length_wordFields, length_filler]
        apply (hput hs (text "xxxxxxxx") (by omega)).bind
        intro g hg
        rw [List.append_assoc, ← filler_succ] at hg
        refine ⟨hg.building, ?_⟩
        have hpos := hs.2
        dsimp only
        rw [← Nat.add_assoc, filler_succ, ← List.append_assoc, List.length_append, htext]
        omega
  -- The status of the floating-point unit is one more field of filler, before the CPSR.
  unfold readGeneralRegisters
  apply hregisters.bind
  intro s hs
  apply (hfiller s hs).bind
  intro s hs
  have hlen : (wordFields (registerValue gdb.arm.reg) 16 ++ filler 24).length = 320 := by
    rw [List.length_append, length_wordFields, length_filler]
  dsimp only
  apply (hput hs (text "xxxxxxxx") (by omega)).bind
  intro g hg
  rw [List.append_assoc, ← filler_succ] at hg
  have hlast : Fields (wordFields (registerValue gdb.arm.reg) 16 ++ filler 25) (g, s.2 + 8) := by
    refine ⟨hg.building, ?_⟩
    rw [hs.2, hlen, List.length_append, length_wordFields, length_filler]
  have hcpsr : registersReadCpsr g.arm.reg = registersReadCpsr gdb.arm.reg := by
    obtain ⟨packet, rfl, -⟩ := hg
    rfl
  have hlen' : (wordFields (registerValue gdb.arm.reg) 16 ++ filler 25).length = 328 := by
    rw [List.length_append, length_wordFields, length_filler]
  have hdigits := length_hexText 8 (registersReadCpsr gdb.arm.reg).toNat
  unfold writeUint32
  rw [hcpsr]
  apply (hput hlast (hexText 8 (registersReadCpsr gdb.arm.reg).toNat) (by omega)).bind
  intro g hg
  have himage : (registerImage gdb.arm.reg).length = 336 := length_imageText _ _
  apply (hg.send (fun c hc => (plain_imageText _ _ c hc).1)).mono (fun _ h => h)
  rintro e (⟨-, hlt⟩ | ⟨-, hsevered⟩)
  · change MAX_PACKET_SIZE < (registerImage gdb.arm.reg).length + 5 at hlt
    omega
  · exact Or.inr hsevered

theorem readGeneralRegisters_answers (gdb : Gdb) (data : List Byte) :
    Answers gdb (readGeneralRegisters gdb data) :=
  (readGeneralRegisters_ends gdb data).mono
    (fun _ h => h.answered (plain_imageText _ _) rfl) (fun _ _ => trivial)

theorem readSingleRegister_answers (gdb : Gdb) (data : List Byte) :
    Answers gdb (readSingleRegister gdb data) := by
  unfold readSingleRegister
  apply (ends_trivial _).bind
  intro reg _
  by_cases hreg : reg.toNat % 256 < 16
  · have hread := readRegister_ends (building_nil gdb) (by decide) hreg
    apply (hread.mono (fun _ h => h) (fun _ _ => trivial)).bind
    intro g hg
    exact hg.answers (plain_hexText 8 _) rfl
  · unfold readRegister
    rw [if_neg hreg]
    trivial

theorem writeRegister_silent (gdb : Gdb) (reg : ℕ) (data : List Byte) (value : Word) :
    Silent gdb (writeRegister gdb reg data value) := by
  unfold writeRegister
  apply (ends_trivial _).bind
  intro value _
  apply ends_ite
  · exact fun _ => (ends_trivial _).bind (fun _ _ => rfl)
  · exact fun _ => trivial

theorem writeGeneralRegisters_answers (env : GdbEnv) (gdb : Gdb) (data : List Byte) :
    Answers gdb (writeGeneralRegisters env gdb data) := by
  have hloop : Ends ((List.range 16).foldlM (fun (s : Gdb × List Byte) i =>
      (writeRegister s.1 i s.2 (env.value i) >>= fun g => pure (g, s.2.drop 8))) (gdb, data))
      (fun s => s.1.sent = gdb.sent) (fun _ => True) := by
    apply ends_foldlM_range (fun _ (s : Gdb × List Byte) => s.1.sent = gdb.sent)
    · rfl
    · intro i _ s hs
      apply (writeRegister_silent s.1 i s.2 (env.value i)).bind
      exact fun g hg => hg.trans hs
  unfold writeGeneralRegisters
  apply hloop.bind
  rintro ⟨g, position⟩ hg
  dsimp only
  generalize (List.foldl _ position _).drop 8 = status
  apply (ends_trivial _).bind
  intro value _
  exact gdbSendData_answers (plain_text _ rfl) hg

theorem writeSingleRegister_answers (env : GdbEnv) (gdb : Gdb) (data : List Byte) :
    Answers gdb (writeSingleRegister env gdb data) := by
  unfold writeSingleRegister
  apply (ends_trivial _).bind
  intro reg _
  apply (ends_trivial _).bind
  intro data _
  apply (ends_trivial _).bind
  intro data _
  apply (writeRegister_silent gdb reg.toNat data (env.value 0)).bind
  exact fun g hg => gdbSendData_answers (plain_text _ rfl) hg

end registers

section handlers
variable [Platform] (env : GdbEnv) (fuel : ℕ) (gdb : Gdb) (data : List Byte)

theorem gdbSingleStep_silent (k : ℕ) : Silent gdb (gdbSingleStep env k gdb) := by
  unfold gdbSingleStep
  exact (ends_trivial _).bind (fun _ _ => rfl)

theorem contLoop_silent (k : ℕ) : Silent gdb (contLoop env fuel k gdb) := by
  induction fuel generalizing k gdb with
  | zero => trivial
  | succ fuel ih =>
    unfold contLoop
    apply (gdbSingleStep_silent env gdb k).bind
    intro g hg
    apply (ends_trivial _).bind
    intro pc _
    apply (ends_trivial _).bind
    intro position _
    apply ends_ite
    · exact fun _ => hg
    · intro _
      apply ends_ite
      · exact fun _ => hg
      · exact fun _ => (ih g (k + 1)).imp (fun g' hg' => hg'.trans hg)

theorem cont_answers : Answers gdb (cont env fuel gdb data) :=
  (contLoop_silent env fuel gdb 0).bind (fun _ hg => gdbSendStopReason_answers hg)

theorem step_answers : Answers gdb (step env gdb data) :=
  (gdbSingleStep_silent env gdb 0).bind (fun _ hg => gdbSendStopReason_answers hg)

/-- Every handler but `kill_request`, and the unknown command, answers with one frame. -/
theorem handler_answers {index : Byte} {handle : Gdb → List Byte → Except GdbFault Gdb}
    (h : handler env fuel index = some handle) (hk : index ≠ 0x6B) :
    Answers gdb (handle gdb data) := by
  unfold handler at h
  split at h
  · cases h
    exact cont_answers env fuel gdb data
  · cases h
    exact cont_answers env fuel gdb data
  · exact absurd rfl hk
  · cases h
    exact query_answers gdb data
  · cases h
    exact readGeneralRegisters_answers gdb data
  · cases h
    exact readMemory_answers gdb data env
  · cases h
    exact readSingleRegister_answers gdb data
  · cases h
    exact reason_answers gdb data
  · cases h
    exact setThread_answers gdb data
  · cases h
    exact step_answers env gdb data
  · cases h
    exact step_answers env gdb data
  · cases h
    exact writeGeneralRegisters_answers env gdb data
  · cases h
    exact writeMemoryBinary_answers gdb data env
  · cases h
    exact writeSingleRegister_answers env gdb data
  · cases h
    exact removeBreakpoint_answers gdb data env
  · cases h
    exact setBreakpoint_answers gdb data env
  · cases h

end handlers

end ArmSim
