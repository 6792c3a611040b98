import ArmSim.Lib.LongestMatch
import ArmSim.Util

/-! `scanner.l`: the rules of the debugger's connection and their actions, and the
packets they recover from an arbitrary stream. -/
namespace ArmSim
open Lib

abbrev MAX_ERROR_SIZE : ℕ := 1024

/-- What the actions do to the connection. -/
inductive Event where
  | requireRetransmission
  | transmitPacket
  | packetAnalysis (yytext : List Byte)
  | echo (yytext : List Byte)
deriving DecidableEq, Repr

/-- `struct parser_data`, without the protocol data that the actions pass on. -/
structure ParserData where
  buffer : Vector Byte MAX_ERROR_SIZE
  len : ℕ

/-- `data->buffer[data->len] = c`. -/
def ParserData.store (data : ParserData) (c : Byte) : Except Crash ParserData :=
  if h : data.len < MAX_ERROR_SIZE then
    .ok { data with buffer := data.buffer.set data.len c h }
  else .error .localBuffer

def handleError (data : ParserData) : Except Crash (ParserData × List Event) := do
  if data.len ≠ 0 then
    let data ← data.store 0
    return ({ data with len := 0 }, [.requireRetransmission])
  else
    return (data, [])

def addCharacterToError (data : ParserData) (c : Byte) :
    Except Crash (ParserData × List Event) := do
  let (data, events) ←
    (if MAX_ERROR_SIZE - 2 < data.len then handleError data else pure (data, []))
  let data ← data.store c
  return ({ data with len := data.len + 1 }, events)

-- `HEX`
def isHex (c : Byte) : Bool :=
  (0x30 ≤ c && c ≤ 0x39) || (0x41 ≤ c && c ≤ 0x46) || (0x61 ≤ c && c ≤ 0x66)

/-- `[^$#]*"#"{HEX}{HEX}` -/
def packetTail : List Byte → Bool
  | [] => false
  | c :: s =>
    if c = 0x23 then
      match s with
      | [h1, h2] => isHex h1 && isHex h2
      | _ => false
    else c != 0x24 && packetTail s

/-- `"$"[^$#]*"#"{HEX}{HEX}` -/
def packetRule : List Byte → Bool
  | c :: s => c == 0x24 && packetTail s
  | [] => false

/-- The rules in their order, each with its action on `yytext`. -/
def scannerRules :
    List ((List Byte → Bool) × (ParserData → List Byte → Except Crash (ParserData × List Event))) :=
  [(fun w => w == [0x2B], fun data _ => handleError data),
   (fun w => w == [0x2D], fun data _ => do
      let (data, events) ← handleError data
      return (data, events ++ [.transmitPacket])),
   (packetRule, fun data yytext => do
      let (data, events) ← handleError data
      return (data, events ++ [.packetAnalysis yytext])),
   -- `.` is every character but the newline.
   (fun w => w.length == 1 && w != [0x0A], fun data yytext =>
      addCharacterToError data (yytext.headD 0))]

abbrev scannerPatterns : List (List Byte → Bool) := scannerRules.map Prod.fst

/-- The action of a token; the default rule copies its text to the output. -/
def tokenAction (data : ParserData) (token : Token Byte) :
    Except Crash (ParserData × List Event) :=
  match token.rule.bind (fun rule => scannerRules[rule]?) with
  | some (_, action) => action data token.text
  | none => .ok (data, [.echo token.text])

/-- The loop of `yylex` over the tokens. -/
def runTokens (data : ParserData) (ts : List (Token Byte)) :
    Except Crash (ParserData × List Event) :=
  ts.foldlM (fun s token => do
    let (data, events) ← tokenAction s.1 token
    return (data, s.2 ++ events)) (data, [])

/-- `gdb_scanner` on a whole stream; the buffer is not initialised. -/
def gdbScanner (buffer : Vector Byte MAX_ERROR_SIZE) (stream : List Byte) :
    Except Crash (List Event) := do
  let (data, events) ← runTokens ⟨buffer, 0⟩ (tokens scannerPatterns stream)
  let (_, last) ← handleError data
  return events ++ last

/-- A packet: `$`, a payload without `$` and `#`, `#` and two hexadecimal digits. -/
def IsFrame (w : List Byte) : Prop :=
  ∃ payload h1 h2, w = 0x24 :: (payload ++ [0x23, h1, h2]) ∧
    (∀ c ∈ payload, c ≠ 0x24 ∧ c ≠ 0x23) ∧ isHex h1 = true ∧ isHex h2 = true

theorem packetTail_iff (s : List Byte) : packetTail s = true ↔
    ∃ payload h1 h2, s = payload ++ [0x23, h1, h2] ∧
      (∀ c ∈ payload, c ≠ 0x24 ∧ c ≠ 0x23) ∧ isHex h1 = true ∧ isHex h2 = true := by
  induction s with
  | nil => simp [packetTail]
  | cons c s ih =>
    unfold packetTail
    split
    · rename_i hc
      subst hc
      constructor
      · intro h
        split at h
        · rename_i h1 h2
          exact ⟨[], h1, h2, rfl, by simp, by simpa using h⟩
        · cases h
      · rintro ⟨payload, h1, h2, hs, hp, hh1, hh2⟩
        cases payload with
        | nil =>
          have hs' : s = [h1, h2] := by simpa using hs
          subst hs'
          simp [hh1, hh2]
        | cons d payload =>
          have hd : (0x23 : Byte) = d := by simpa using (List.cons.inj hs).1
          exact absurd hd.symm (hp d List.mem_cons_self).2
    · rename_i hc
      rw [Bool.and_eq_true, ih, bne_iff_ne]
      constructor
      · rintro ⟨hd, payload, h1, h2, rfl, hp, hh⟩
        refine ⟨c :: payload, h1, h2, rfl, ?_, hh⟩
        intro e he
        rcases List.mem_cons.mp he with rfl | he
        · exact ⟨hd, hc⟩
        · exact hp e he
      · rintro ⟨payload, h1, h2, hs, hp, hh⟩
        cases payload with
        | nil => exact absurd (List.cons.inj hs).1 hc
        | cons d payload =>
          obtain ⟨rfl, hs'⟩ := List.cons.inj hs
          exact ⟨(hp c List.mem_cons_self).1, payload, h1, h2, hs',
            fun e he => hp e (List.mem_cons_of_mem _ he), hh⟩

/-- The packet rule matches the packets. -/
theorem packetRule_iff (w : List Byte) : packetRule w = true ↔ IsFrame w := by
  cases w with
  | nil => simp [packetRule, IsFrame]
  | cons c s =>
    simp only [packetRule, IsFrame, Bool.and_eq_true, beq_iff_eq, packetTail_iff,
      List.cons.injEq]
    constructor
    · rintro ⟨rfl, payload, h1, h2, rfl, h⟩
      exact ⟨payload, h1, h2, ⟨rfl, rfl⟩, h⟩
    · rintro ⟨payload, h1, h2, ⟨rfl, rfl⟩, h⟩
      exact ⟨rfl, payload, h1, h2, rfl, h⟩

instance (w : List Byte) : Decidable (IsFrame w) := decidable_of_iff _ (packetRule_iff w)

/-- Every substring of the stream that is a packet, in the order of the stream. -/
def frames (stream : List Byte) : List (List Byte) :=
  stream.tails.flatMap (fun s => s.inits.filter (fun w => IsFrame w))

section frames

theorem IsFrame.ne_nil {w : List Byte} (h : IsFrame w) : w ≠ [] := by
  obtain ⟨payload, h1, h2, rfl, -⟩ := h
  exact List.cons_ne_nil _ _

/-- A packet is no proper prefix of a packet. -/
theorem IsFrame.eq_of_prefix {v w : List Byte} (hv : IsFrame v) (hw : IsFrame w)
    (h : v <+: w) : v = w := by
  obtain ⟨p, a, b, rfl, -⟩ := hv
  obtain ⟨q, c, d, rfl, hq, hc, hd⟩ := hw
  obtain ⟨rest, hrest⟩ := h
  -- Each has one `#`, which therefore stands at the same place in both.
  have heq : q ++ 0x23 :: [c, d] = p ++ 0x23 :: (a :: b :: rest) := by
    simpa using hrest.symm
  have hq' : (0x23 : Byte) ∉ q := fun hm => (hq _ hm).2 rfl
  have hcd : (0x23 : Byte) ∉ [c, d] := by
    have hhash : isHex 0x23 = false := by decide
    intro hm
    simp only [List.mem_cons, List.not_mem_nil, or_false] at hm
    rcases hm with rfl | rfl
    · exact absurd (hhash.symm.trans hc) (by decide)
    · exact absurd (hhash.symm.trans hd) (by decide)
  obtain ⟨rfl, -, htail⟩ := (List.append_cons_inj_of_notMem hq' hcd).mp heq
  obtain ⟨rfl, hd'⟩ := List.cons.inj htail
  obtain ⟨rfl, -⟩ := List.cons.inj hd'
  rfl

/-- Two packets that start at the same place are the same. -/
theorem IsFrame.unique {v w s : List Byte} (hv : IsFrame v) (hw : IsFrame w) (hvs : v <+: s)
    (hws : w <+: s) : v = w := by
  rcases List.prefix_or_prefix_of_prefix hvs hws with h | h
  · exact hv.eq_of_prefix hw h
  · exact (hw.eq_of_prefix hv h).symm

/-- A packet starts with its only `$`. -/
theorem IsFrame.dollar {w : List Byte} (h : IsFrame w) :
    ∃ u, w = 0x24 :: u ∧ ∀ c ∈ u, c ≠ 0x24 := by
  have hhex : isHex 0x24 = false := by decide
  obtain ⟨payload, h1, h2, rfl, hp, hh1, hh2⟩ := h
  refine ⟨_, rfl, ?_⟩
  intro c hc
  rcases List.mem_append.mp hc with hc | hc
  · exact (hp c hc).1
  · rintro rfl
    simp only [List.mem_cons, List.not_mem_nil, or_false] at hc
    rcases hc with hc | rfl | rfl
    · exact absurd hc (by decide)
    · exact absurd (hhex.symm.trans hh1) (by decide)
    · exact absurd (hhex.symm.trans hh2) (by decide)

theorem frames_cons (c : Byte) (s : List Byte) :
    frames (c :: s) = (c :: s).inits.filter (fun w => IsFrame w) ++ frames s := by
  simp only [frames, List.tails_cons, List.flatMap_cons]

/-- Where no packet starts, the packets are those of the rest. -/
theorem frames_skip {c : Byte} {s : List Byte} (h : ∀ w, w <+: c :: s → ¬IsFrame w) :
    frames (c :: s) = frames s := by
  have hnone : (c :: s).inits.filter (fun w => IsFrame w) = [] := by
    rw [List.filter_eq_nil_iff]
    intro w hw
    simpa using h w ((List.mem_inits _ _).mp hw)
  rw [frames_cons, hnone, List.nil_append]

theorem frames_skip_list (u s : List Byte) (h : ∀ c ∈ u, c ≠ 0x24) :
    frames (u ++ s) = frames s := by
  induction u with
  | nil => rfl
  | cons c u ih =>
    rw [List.cons_append, frames_skip, ih (fun d hd => h d (List.mem_cons_of_mem _ hd))]
    intro w hw hframe
    obtain ⟨v, rfl, -⟩ := hframe.dollar
    exact h c List.mem_cons_self (List.cons_prefix_cons.mp hw).1.symm

/-- A packet is the first one of a stream that starts with it. -/
theorem frames_append {w : List Byte} (hw : IsFrame w) (rest : List Byte) :
    frames (w ++ rest) = w :: frames rest := by
  obtain ⟨u, rfl, hu⟩ := hw.dollar
  -- No packet starts inside it, since its `$` is the only one.
  have hone : (0x24 :: (u ++ rest)).inits.filter (fun w => IsFrame w) = [0x24 :: u] := by
    refine filter_inits_eq (List.prefix_append (0x24 :: u) rest) (by simpa using hw) ?_
    intro v hv hPv
    exact IsFrame.unique (by simpa using hPv) hw hv (List.prefix_append (0x24 :: u) rest)
  rw [List.cons_append, frames_cons, hone, frames_skip_list u rest hu]
  rfl

end frames

section scan

/-- The packet a token hands to the protocol. -/
def tokenPackets (token : Token Byte) : List (List Byte) :=
  if token.rule = some 2 then [token.text] else []

/-- Only the packet rule matches more than one character. -/
theorem earliestRule_of_length {w : List Byte} (hlen : 2 ≤ w.length) :
    earliestRule scannerPatterns w = if IsFrame w then some 2 else none := by
  have hone : ∀ c : Byte, w ≠ [c] := by
    rintro c rfl
    simp at hlen
  have hdot : w.length ≠ 1 := by omega
  simp [earliestRule, scannerRules, List.findIdx?_cons, hone, hdot, packetRule_iff]

theorem IsFrame.two_le_length {w : List Byte} (hw : IsFrame w) : 2 ≤ w.length := by
  obtain ⟨payload, h1, h2, rfl, -⟩ := hw
  simp

theorem earliestRule_char (c : Byte) : earliestRule scannerPatterns [c] ≠ some 2 := by
  have hpacket : packetRule [c] = false := by simp [packetRule, packetTail]
  intro h
  obtain ⟨hlt, hc, -⟩ := List.findIdx?_eq_some_iff_getElem.mp h
  have hc' : packetRule [c] = true := hc
  exact absurd (hpacket.symm.trans hc') (by decide)

/-- At a packet the scanner takes the packet. -/
theorem tokens_frame {w : List Byte} (hw : IsFrame w) (rest : List Byte) :
    tokens scannerPatterns (w ++ rest) = ⟨some 2, w⟩ :: tokens scannerPatterns rest := by
  have hrule : earliestRule scannerPatterns w = some 2 := by
    rw [earliestRule_of_length hw.two_le_length, if_pos hw]
  refine tokens_match hw.ne_nil (longestMatch_append hw.ne_nil hrule ?_)
  intro v hv hlen
  rw [earliestRule_of_length (hw.two_le_length.trans hlen.le), if_neg]
  intro hframe
  have heq := hframe.unique hw hv (List.prefix_append _ _)
  rw [heq] at hlen
  exact Nat.lt_irrefl _ hlen

/-- Elsewhere it takes one character, which is no packet. -/
theorem tokens_char {c : Byte} {s : List Byte} (h : ∀ w, w <+: c :: s → ¬IsFrame w) :
    ∃ rule, rule ≠ some 2 ∧
      tokens scannerPatterns (c :: s) = ⟨rule, [c]⟩ :: tokens scannerPatterns s := by
  cases hrule : earliestRule scannerPatterns [c] with
  | some rule =>
    refine ⟨some rule, fun he => earliestRule_char c (hrule.trans he), ?_⟩
    refine tokens_match (List.cons_ne_nil c [])
      (longestMatch_append (List.cons_ne_nil _ _) hrule ?_)
    intro v hv hlen
    rw [earliestRule_of_length hlen, if_neg (h v hv)]
  | none =>
    refine ⟨none, by simp, tokens_default (longestMatch_none (fun v hv hne => ?_))⟩
    cases v with
    | nil => exact absurd rfl hne
    | cons d v =>
      obtain ⟨rfl, -⟩ := List.cons_prefix_cons.mp hv
      cases v with
      | nil => exact hrule
      | cons e v => rw [earliestRule_of_length (by simp), if_neg (h _ hv)]

/-- The packet tokens are the packets of the stream. -/
theorem tokens_packets (stream : List Byte) :
    (tokens scannerPatterns stream).flatMap tokenPackets = frames stream := by
  -- On the length: a packet is taken whole, anything else character by character.
  induction hn : stream.length using Nat.strong_induction_on generalizing stream with
  | _ n ih =>
    subst hn
    cases stream with
    | nil => rfl
    | cons c s =>
      by_cases hframe : ∃ w, w <+: c :: s ∧ IsFrame w
      · obtain ⟨w, ⟨rest, hrest⟩, hw⟩ := hframe
        have hpos := List.length_pos_of_ne_nil hw.ne_nil
        have hlt : rest.length < (c :: s).length := by
          rw [← hrest, List.length_append]
          omega
        rw [← hrest, tokens_frame hw, List.flatMap_cons, ih _ hlt rest rfl, frames_append hw]
        rfl
      · have hno : ∀ w, w <+: c :: s → ¬IsFrame w := fun w hws hw => hframe ⟨w, hws, hw⟩
        obtain ⟨rule, hrule, htokens⟩ := tokens_char hno
        rw [htokens, List.flatMap_cons, ih _ (Nat.lt_succ_self _) s rfl, frames_skip hno]
        simp [tokenPackets, hrule]

-- A truncated packet does not hide the packet that follows it.
example : (tokens scannerPatterns [0x2B, 0x24, 0x67, 0x24, 0x67, 0x23, 0x36, 0x37, 0x0A]).flatMap
    tokenPackets = [[0x24, 0x67, 0x23, 0x36, 0x37]] := by decide

end scan

section actions

def Event.packet : Event → Option (List Byte)
  | .packetAnalysis yytext => some yytext
  | _ => none

/-- The strings handed to `gdb_packet_analysis`, in their order. -/
def packets (events : List Event) : List (List Byte) := events.filterMap Event.packet

@[simp] theorem packets_append (xs ys : List Event) :
    packets (xs ++ ys) = packets xs ++ packets ys := List.filterMap_append

/-- The index into the error buffer is one of its cells, so that the final zero fits. -/
def ParserData.InBuffer (data : ParserData) : Prop := data.len ≤ MAX_ERROR_SIZE - 1

/-- An action succeeds with the index in the buffer, and hands on the packets `ps`. -/
abbrev Acts (x : Except Crash (ParserData × List Event)) (ps : List (List Byte)) : Prop :=
  Ends x (fun r => r.1.InBuffer ∧ packets r.2 = ps) (fun _ => False)

theorem store_ends {data : ParserData} (h : data.InBuffer) (c : Byte) :
    Ends (data.store c) (fun data' => data'.len = data.len) (fun _ => False) := by
  have hlen : data.len < MAX_ERROR_SIZE := Nat.lt_of_le_pred (by decide) h
  unfold ParserData.store
  rw [dif_pos hlen]
  rfl

/-- The flush empties the buffer and hands on no packet. -/
theorem handleError_ends {data : ParserData} (h : data.InBuffer) :
    Ends (handleError data) (fun r => r.1.len = 0 ∧ packets r.2 = []) (fun _ => False) := by
  unfold handleError
  apply ends_ite
  · intro _
    exact (store_ends h 0).bind (fun data' _ => ⟨rfl, rfl⟩)
  · intro hzero
    exact ⟨Decidable.not_not.mp hzero, rfl⟩

theorem inBuffer_of_len_eq_zero {data : ParserData} (h : data.len = 0) : data.InBuffer := by
  unfold ParserData.InBuffer
  omega

/-- A flush followed by events. -/
theorem acts_flush {data : ParserData} (h : data.InBuffer) (events : List Event) :
    Acts (do
      let (data, flushed) ← handleError data
      return (data, flushed ++ events)) (packets events) := by
  refine (handleError_ends h).bind (fun r hr => ⟨inBuffer_of_len_eq_zero hr.1, ?_⟩)
  rw [packets_append, hr.2, List.nil_append]

/-- A character is stored after a flush where it would leave no cell for the final zero. -/
theorem addCharacterToError_acts {data : ParserData} (h : data.InBuffer) (c : Byte) :
    Acts (addCharacterToError data c) [] := by
  unfold addCharacterToError
  have hroom : Ends (if MAX_ERROR_SIZE - 2 < data.len then handleError data else pure (data, []))
      (fun r => r.1.len ≤ MAX_ERROR_SIZE - 2 ∧ packets r.2 = []) (fun _ => False) := by
    refine ends_ite ?_ (fun hlen => ⟨Nat.le_of_not_lt hlen, rfl⟩)
    intro _
    exact (handleError_ends h).imp (fun r hr => ⟨by omega, hr.2⟩)
  apply hroom.bind
  intro r hr
  have hin : r.1.InBuffer := hr.1.trans (by decide)
  refine (store_ends hin c).bind (fun data' hdata' => ⟨?_, hr.2⟩)
  show data'.len + 1 ≤ MAX_ERROR_SIZE - 1
  rw [hdata']
  exact Nat.succ_le_succ hr.1

/-- The action of a token hands on the packet of the token. -/
theorem tokenAction_acts {data : ParserData} (h : data.InBuffer) (token : Token Byte) :
    Acts (tokenAction data token) (tokenPackets token) := by
  obtain ⟨rule, text⟩ := token
  have hflush : Acts (handleError data) [] :=
    (handleError_ends h).imp (fun r hr => ⟨inBuffer_of_len_eq_zero hr.1, hr.2⟩)
  match rule with
  | none => exact ⟨h, rfl⟩
  | some 0 => exact hflush
  | some 1 => exact acts_flush h [.transmitPacket]
  | some 2 => exact acts_flush h [.packetAnalysis text]
  | some 3 => exact addCharacterToError_acts h (text.headD 0)
  | some (n + 4) => exact ⟨h, by simp [tokenPackets, packets, Event.packet]⟩

theorem runTokens_acts {data : ParserData} (h : data.InBuffer) (ts : List (Token Byte)) :
    Acts (runTokens data ts) (ts.flatMap tokenPackets) := by
  -- From the front: the events of the last token come last.
  induction ts using List.reverseRecOn with
  | nil => exact ⟨h, rfl⟩
  | append_singleton ts token ih =>
    rw [List.flatMap_append, List.flatMap_singleton]
    unfold runTokens at ih ⊢
    rw [List.foldlM_append]
    apply ih.bind
    intro r hr
    rw [List.foldlM_cons]
    refine Ends.bind (P := fun r' => r'.1.InBuffer ∧
      packets r'.2 = ts.flatMap tokenPackets ++ tokenPackets token) ?_
      (fun r' hr' => (ends_ok r').mpr hr')
    refine (tokenAction_acts hr.1 token).bind (fun t ht => ⟨ht.1, ?_⟩)
    rw [packets_append, hr.2, ht.2]

end actions

/-- From any stream the scanner recovers exactly the packets, in order, and after every
token the index into the error buffer is one of its cells. -/
theorem scanner_recovers_packets (buffer : Vector Byte MAX_ERROR_SIZE) (stream : List Byte) :
    (∃ events, gdbScanner buffer stream = .ok events ∧ packets events = frames stream) ∧
    ∀ n, ∃ data events,
      runTokens ⟨buffer, 0⟩ ((tokens scannerPatterns stream).take n) = .ok (data, events) ∧
      data.len ≤ MAX_ERROR_SIZE - 1 := by
  have hinit : ParserData.InBuffer ⟨buffer, 0⟩ := Nat.zero_le _
  constructor
  · have hscan : Ends (gdbScanner buffer stream)
        (fun events => packets events = frames stream) (fun _ => False) := by
      apply (runTokens_acts hinit _).bind
      intro r hr
      apply (handleError_ends hr.1).bind
      intro last hlast
      show packets (r.2 ++ last.2) = frames stream
      rw [packets_append, hr.2, hlast.2, List.append_nil, tokens_packets]
    exact hscan.exists_ok
  · intro n
    obtain ⟨⟨data, events⟩, hrun, hin, -⟩ :=
      (runTokens_acts hinit ((tokens scannerPatterns stream).take n)).exists_ok
    exact ⟨data, events, hrun, hin⟩

end ArmSim
