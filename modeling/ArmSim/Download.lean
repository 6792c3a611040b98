import ArmSim.PacketAnalysis
import ArmSim.Step

/-! Memory download: `X` stores escaped binary data, and `m` answers the same bytes as
hexadecimal text. -/
namespace ArmSim
open Lib

/-- `e` is an escaping of `b`: the characters `#`, `$` and the escape itself have to be escaped,
any other may be. -/
inductive Escapes : List Byte → List Byte → Prop
  | nil : Escapes [] []
  | plain {c : Byte} {b e : List Byte} (hash : c ≠ 0x23) (dollar : c ≠ 0x24) (escape : c ≠ 0x7D)
      (rest : Escapes b e) : Escapes (c :: b) (c :: e)
  | escaped {c : Byte} {b e : List Byte} (rest : Escapes b e) :
      Escapes (c :: b) (0x7D :: (c ^^^ 0x20) :: e)

/-- The digits of a sequence of bytes. -/
def hexBytes (b : List Byte) : List Byte := b.flatMap (fun c => hexText 2 c.toNat)

section setBytes

/-- The bytes from address `a` on become `b`. -/
def Memory.setBytes (mem : Memory) (a : Word) : List Byte → Memory
  | [] => mem
  | c :: b => (mem.setByte a.toNat c).setBytes (a + 1) b

@[simp] theorem Memory.size_setBytes (mem : Memory) (a : Word) (b : List Byte) :
    (mem.setBytes a b).size = mem.size := by
  induction b generalizing mem a with
  | nil => rfl
  | cons c b ih =>
    unfold setBytes
    rw [ih, size_setByte]

theorem Memory.InRange.next {mem : Memory} {a : Word} {n : ℕ} (h : mem.InRange a (n + 1)) :
    mem.InRange (a + 1) n := by
  rw [Nat.add_comm] at h
  exact h.skip

theorem Memory.InRange.head {mem : Memory} {a : Word} {n : ℕ} (h : mem.InRange a (n + 1)) :
    mem.InRange a 1 :=
  fun j hj => h j (hj.trans_le (Nat.succ_le_succ (Nat.zero_le n)))

theorem Memory.InRange.setByte {mem : Memory} {a : Word} {n : ℕ} (h : mem.InRange a n) (i : ℕ)
    (v : Byte) : (mem.setByte i v).InRange a n := by
  intro j hj
  rw [size_setByte]
  exact h j hj

theorem Memory.byteAt_setBytes_of_ne {mem : Memory} {a : Word} {b : List Byte} {i : ℕ}
    (hin : mem.InRange a b.length) (h : ∀ j < b.length, (a + BitVec.ofNat 32 j).toNat ≠ i) :
    (mem.setBytes a b).byteAt i = mem.byteAt i := by
  induction b generalizing mem a with
  | nil => rfl
  | cons c b ih =>
    have hpos : 0 < (c :: b).length := Nat.succ_pos _
    have hne : a.toNat ≠ i := by simpa using h 0 hpos
    unfold setBytes
    rw [ih (hin.next.setByte _ _), byteAt_setByte mem _ _ _ (hin.start hpos), if_neg hne]
    intro j hj
    rw [next_add]
    exact h (j + 1) (Nat.succ_lt_succ hj)

/-- The bytes are found where they were put: fewer than `2^32` of them have addresses of their
own. -/
theorem Memory.byteAt_setBytes {mem : Memory} {a : Word} {b : List Byte}
    (hin : mem.InRange a b.length) (hlen : b.length < 2^32) {j : ℕ} {c : Byte}
    (hj : b[j]? = some c) : (mem.setBytes a b).byteAt (a + BitVec.ofNat 32 j).toNat = c := by
  induction b generalizing mem a j with
  | nil => simp at hj
  | cons d b ih =>
    have hnext : (mem.setByte a.toNat d).InRange (a + 1) b.length := hin.next.setByte _ _
    rw [List.length_cons] at hlen
    unfold setBytes
    cases j with
    | zero =>
      obtain rfl : d = c := by simpa using hj
      -- The bytes behind are too few to come round to this one.
      have hother : ∀ k < b.length, (a + 1 + BitVec.ofNat 32 k).toNat ≠ a.toNat := by
        intro k hk
        rw [next_add, BitVec.toNat_add, BitVec.toNat_ofNat]
        have ha := a.isLt
        omega
      rw [BitVec.add_zero, byteAt_setBytes_of_ne hnext hother,
        byteAt_setByte mem _ _ _ (hin.start (Nat.succ_pos _)), if_pos rfl]
    | succ k =>
      rw [← next_add]
      exact ih hnext (by omega) (by simpa using hj)

end setBytes

section write
variable {gdb : Gdb} {a : Word}

/-- The state with the memory `mem`. -/
def Gdb.withMemory (gdb : Gdb) (mem : Memory) : Gdb :=
  { gdb with arm := { gdb.arm with mem := mem } }

theorem writeMemoryLoop_succ {n : ℕ} {c : Byte} {content rest : List Byte}
    (hbyte : binaryByte content = .ok (c, rest)) (hone : gdb.arm.mem.InRange a 1) :
    writeMemoryLoop (n + 1) gdb a (some content) =
      writeMemoryLoop n (gdb.withMemory (gdb.arm.mem.setByte a.toNat c)) (a + 1) (some rest) := by
  have hderef : TextPointer.deref (some content) = .ok content := rfl
  have hwrite : simulated (memoryWriteByte gdb.arm.mem a c) =
      .ok (0, gdb.arm.mem.setByte a.toNat c) := by
    rw [memoryWriteByte_inRange hone]
    rfl
  rw [writeMemoryLoop, hderef, ok_bind, hbyte, ok_bind]
  dsimp only
  rw [hwrite, ok_bind]
  exact if_pos rfl

theorem binaryByte_plain {c : Byte} (hc : c ≠ 0x7D) (s : List Byte) :
    binaryByte (c :: s) = .ok (c, s) := if_neg hc

theorem binaryByte_escaped (d : Byte) (s : List Byte) :
    binaryByte (0x7D :: d :: s) = .ok (d ^^^ 0x20, s) := rfl

/-- The loop undoes every escaping. -/
theorem writeMemoryLoop_escapes {b e : List Byte} (he : Escapes b e) (rest : List Byte)
    (hin : gdb.arm.mem.InRange a b.length) :
    writeMemoryLoop b.length gdb a (some (e ++ rest)) =
      .ok (gdb.withMemory (gdb.arm.mem.setBytes a b), true) := by
  -- On the escaping: each way to send a byte is one turn of the loop.
  induction he generalizing gdb a with
  | nil => rfl
  | plain _ _ hescape _ ih =>
    rename_i c b e _ _ _
    have hbyte := binaryByte_plain hescape (e ++ rest)
    calc
      writeMemoryLoop (b.length + 1) gdb a (some (c :: (e ++ rest))) =
          writeMemoryLoop b.length (gdb.withMemory (gdb.arm.mem.setByte a.toNat c)) (a + 1)
            (some (e ++ rest)) := writeMemoryLoop_succ hbyte hin.head
      _ = .ok (gdb.withMemory (gdb.arm.mem.setBytes a (c :: b)), true) :=
        ih (hin.next.setByte _ _)
  | escaped _ ih =>
    rename_i c b e _
    have hbyte : binaryByte (0x7D :: (c ^^^ 0x20) :: (e ++ rest)) = .ok (c, e ++ rest) := by
      have hxor : c ^^^ 0x20 ^^^ 0x20 = c := by
        rw [BitVec.xor_assoc, BitVec.xor_self, BitVec.xor_zero]
      rw [binaryByte_escaped, hxor]
    calc
      writeMemoryLoop (b.length + 1) gdb a (some (0x7D :: (c ^^^ 0x20) :: (e ++ rest))) =
          writeMemoryLoop b.length (gdb.withMemory (gdb.arm.mem.setByte a.toNat c)) (a + 1)
            (some (e ++ rest)) := writeMemoryLoop_succ hbyte hin.head
      _ = .ok (gdb.withMemory (gdb.arm.mem.setBytes a (c :: b)), true) :=
        ih (hin.next.setByte _ _)

/-- `X` answers OK and stores the bytes. -/
theorem writeMemoryBinary_ends (env : GdbEnv) (gdb : Gdb) {da dn b e : List Byte} {n : Word}
    (ha : Numeral da a.toNat) (hn : Numeral dn n.toNat) (hlen : n.toNat = b.length)
    (he : Escapes b e) (hstart : a.toNat < gdb.arm.mem.size)
    (hin : gdb.arm.mem.InRange a b.length) (rest : List Byte) :
    Ends (writeMemoryBinary env gdb (da ++ 0x2C :: (dn ++ 0x3A :: (e ++ 0 :: rest))))
      (Replies (gdb.withMemory (gdb.arm.mem.setBytes a b)) (text "OK")) (Severed gdb) := by
  obtain ⟨t, ht⟩ := cString_total e rest
  have hcolon : EndsNumber (0x3A :: t) := by
    intro c s hs
    obtain ⟨rfl, -⟩ := List.cons.inj hs
    decide
  have hscan := sscanfXX_numerals ha hn (cString_lead (s := [0x3A]) (by decide) ht) hcolon
    env.address env.size
  have hindex : indexNext (da ++ 0x2C :: (dn ++ 0x3A :: (e ++ 0 :: rest))) 0x3A =
      .ok (some (e ++ 0 :: rest)) := by
    have hhead : ∀ d ∈ da ++ 0x2C :: dn, d ≠ 0x3A ∧ d ≠ 0 := by
      have hdigits {ds : List Byte} (h : ∀ c ∈ ds, isHex c = true) :
          ∀ d ∈ ds, d ≠ 0x3A ∧ d ≠ 0 := by
        intro d hd
        have hne := isHex_ne (h d hd)
        exact ⟨hne.2.2.2.2.2.2.2.2.1, hne.2.2.2.2.2.1⟩
      intro d hd
      rcases List.mem_append.mp hd with hd | hd
      · exact hdigits ha.digits d hd
      · rcases List.mem_cons.mp hd with rfl | hd
        · decide
        · exact hdigits hn.digits d hd
    have hsplit : da ++ 0x2C :: (dn ++ 0x3A :: (e ++ 0 :: rest)) =
        (da ++ 0x2C :: dn) ++ 0x3A :: (e ++ 0 :: rest) := by simp
    rw [hsplit]
    exact indexNext_append hhead _
  unfold writeMemoryBinary
  rw [List.singleton_append] at hscan
  rw [hscan, ok_bind, hindex]
  dsimp only
  rw [ok_bind, if_pos hstart, hlen, writeMemoryLoop_escapes he _ hin, ok_bind]
  have hok : ∀ c ∈ text "OK", c ≠ 0 := by decide
  exact gdbSendData_short _ hok (by decide)

end write

section read
variable {gdb : Gdb}

theorem length_hexBytes (b : List Byte) : (hexBytes b).length = 2 * b.length := by
  induction b with
  | nil => rfl
  | cons c b ih =>
    change (hexText 2 c.toNat ++ hexBytes b).length = _
    rw [List.length_append, ih, length_hexText, List.length_cons]
    omega

theorem plain_hexBytes (b : List Byte) : Plain (hexBytes b) := by
  intro d hd
  obtain ⟨c, -, hc⟩ := List.mem_flatMap.mp hd
  exact plain_hexText 2 _ d hc

/-- The bytes from `a` on are `b`. -/
def Memory.Has (mem : Memory) (a : Word) (b : List Byte) : Prop :=
  ∀ j c, b[j]? = some c → mem.byteAt (a + BitVec.ofNat 32 j).toNat = c

theorem Memory.Has.next {mem : Memory} {a : Word} {c : Byte} {b : List Byte}
    (h : mem.Has a (c :: b)) : mem.Has (a + 1) b := by
  intro j d hj
  rw [next_add]
  exact h (j + 1) d (by simpa using hj)

/-- The first `n` bytes from `a` on are `b`, as far as the memory goes. -/
structure Memory.Reads (mem : Memory) (a : Word) (n : ℕ) (b : List Byte) : Prop where
  inRange : mem.InRange a b.length
  has : mem.Has a b
  stops : b.length = n ∨ b.length < n ∧ mem.size ≤ (a + BitVec.ofNat 32 b.length).toNat

theorem Memory.Reads.next {mem : Memory} {a : Word} {n : ℕ} {c : Byte} {b : List Byte}
    (h : mem.Reads a (n + 1) (c :: b)) : mem.Reads (a + 1) n b := by
  refine ⟨h.inRange.next, h.has.next, ?_⟩
  rw [next_add]
  rcases h.stops with heq | ⟨hlt, hend⟩
  · exact Or.inl (Nat.succ.inj heq)
  · exact Or.inr ⟨Nat.lt_of_succ_lt_succ hlt, hend⟩

/-- The loop appends two digits for each byte it reaches, while they fit. -/
theorem readMemoryLoop_bytes {b : List Byte} {s : List Byte} {g : Gdb} (h : Built gdb s g)
    {a : Word} {n : ℕ} (hreads : gdb.arm.mem.Reads a n b) :
    Ends (readMemoryLoop n g a (1 + s.length)) (Built gdb (s ++ hexBytes b))
      (fun e => e = .packetBuffer ∧ MAX_PACKET_SIZE < s.length + 2 * b.length + 2) := by
  have hmem : g.arm.mem = gdb.arm.mem := by
    obtain ⟨packet, rfl, -⟩ := h
    rfl
  induction b generalizing s g a n with
  | nil =>
    rw [show hexBytes [] = [] from rfl, List.append_nil]
    rcases hreads.stops with rfl | ⟨hlt, hend⟩
    · exact h
    · -- The first address is outside.
      obtain ⟨n, rfl⟩ := Nat.exists_eq_add_one.mpr hlt
      rw [List.length_nil, BitVec.add_zero] at hend
      rw [readMemoryLoop, hmem, memoryReadByte_outside hend]
      exact h
  | cons c b ih =>
    have hin := hreads.inRange
    obtain ⟨n, rfl⟩ : ∃ m, n = m + 1 := by
      have hpos : 0 < n := by
        rcases hreads.stops with heq | ⟨hlt, -⟩
        · exact heq ▸ Nat.succ_pos b.length
        · exact Nat.zero_lt_of_lt hlt
      exact Nat.exists_eq_add_one.mpr hpos
    have hone : gdb.arm.mem.InRange a 1 := hin.head
    have hc : gdb.arm.mem.byteAt a.toNat = c := by
      have h0 := hreads.has 0 c rfl
      rwa [BitVec.add_zero] at h0
    have hread : simulated (memoryReadByte g.arm.mem a 0) = .ok (0, c) := by
      rw [hmem, memoryReadByte_inRange hone, hc]
      rfl
    have hput := h.building.put (hexText 2 c.toNat)
    rw [length_hexText] at hput
    rw [readMemoryLoop, hread, ok_bind, List.length_cons]
    dsimp only
    rw [if_pos (by decide)]
    apply (hput.mono (fun _ h => h) (fun f hf => ⟨hf.1, by omega⟩)).bind
    intro g' hg'
    -- The next pair goes where this one's NUL stands.
    have hlen : (s ++ hexText 2 c.toNat).length = s.length + 2 := by
      rw [List.length_append, length_hexText]
    have hmem' : g'.arm.mem = gdb.arm.mem := by
      obtain ⟨packet, rfl, -⟩ := hg'
      rfl
    have hrest := ih hg' hreads.next hmem'
    rw [hlen, List.append_assoc, ← Nat.add_assoc] at hrest
    exact hrest.mono (fun _ h => h) (fun f hf => ⟨hf.1, by omega⟩)

/-- `m` answers the digits of the bytes it reaches, if and only if they fit the buffer with their
frame and the connection is there. -/
theorem readMemory_ends (env : GdbEnv) (gdb : Gdb) {da dn b : List Byte} {a n : Word}
    (ha : Numeral da a.toNat) (hn : Numeral dn n.toNat) (hstart : a.toNat < gdb.arm.mem.size)
    (hreads : gdb.arm.mem.Reads a n.toNat b) (rest : List Byte) :
    Ends (readMemory env gdb (da ++ 0x2C :: (dn ++ 0 :: rest)))
      (fun g => Replies gdb (hexBytes b) g ∧ 2 * b.length + 5 ≤ MAX_PACKET_SIZE)
      (Unsent gdb (hexBytes b)) := by
  have hnul : cString (0 :: rest) = .ok [] := rfl
  have hscan := sscanfXX_numerals ha hn hnul (fun c s hs => by cases hs) env.address env.size
  have hput := (building_nil gdb).put []
  have hlen := length_hexBytes b
  unfold readMemory
  rw [hscan, ok_bind]
  dsimp only
  rw [if_pos hstart]
  apply (hput.mono (fun _ h => h) (fun f hf => absurd hf.2 (by decide))).bind
  intro g hg
  have hloop := readMemoryLoop_bytes hg hreads
  rw [List.nil_append, List.nil_append, List.length_nil] at hloop
  apply (hloop.mono (fun _ h => h) (fun f hf => Or.inl ⟨hf.1, by omega⟩)).bind
  intro g' hg'
  apply (hg'.send_fits (fun c hc => (plain_hexBytes b c hc).1)).imp
  intro g'' hg''
  rwa [hlen] at hg''

end read

section roundTrip
variable [Platform] (env env' : GdbEnv) (fuel fuel' : ℕ) {gdb : Gdb}
variable {packet packet' da dn da' dn' b e : List Byte} {a : Word}

/-- A download of any bytes in any escaping answers OK, stores them and nothing else, and reading
them back answers their digits; only behind a `k`, where no packet is served, it ends the simulator
instead. -/
theorem download_read_back (hX : Carries packet (0x58 :: (da ++ 0x2C :: (dn ++ 0x3A :: e))))
    (hm : Carries packet' (0x6D :: (da' ++ 0x2C :: dn'))) (ha : Numeral da a.toNat)
    (hn : Numeral dn b.length) (ha' : Numeral da' a.toNat) (hn' : Numeral dn' b.length)
    (he : Escapes b e) (hstart : a.toNat < gdb.arm.mem.size)
    (hstop : a.toNat + b.length ≤ gdb.arm.mem.size) (hfit : 2 * b.length + 5 < MAX_PACKET_SIZE) :
    (gdb.Connected → ∃ g g', gdbPacketAnalysis env fuel gdb packet = .ok g ∧
      gdbPacketAnalysis env' fuel' g packet' = .ok g' ∧
      g.sent = gdb.sent ++ [.written [0x2B], .written (frame (text "OK"))] ∧
      g.arm.reg = gdb.arm.reg ∧ g.arm.mem.size = gdb.arm.mem.size ∧ g.arm.mem.Has a b ∧
      (∀ i, (∀ j < b.length, (a + BitVec.ofNat 32 j).toNat ≠ i) →
        g.arm.mem.byteAt i = gdb.arm.mem.byteAt i) ∧
      g'.sent = g.sent ++ [.written [0x2B], .written (frame (hexBytes b))]) ∧
    (¬gdb.Connected → gdbPacketAnalysis env fuel gdb packet = .error .brokenPipe) := by
  refine ⟨fun hconnected => ?_, gdbPacketAnalysis_severed env fuel gdb hX⟩
  have hmax : MAX_PACKET_SIZE = 4096 := rfl
  have hlen : (BitVec.ofNat 32 b.length).toNat = b.length := by
    rw [BitVec.toNat_ofNat]
    omega
  have hcount {ds : List Byte} (h : Numeral ds b.length) :
      Numeral ds (BitVec.ofNat 32 b.length).toNat := by rwa [hlen]
  have hin := inRange_of_le hstop
  have hwriter : handler env fuel 0x58 = some (writeMemoryBinary env) := rfl
  have hreader : handler env' fuel' 0x6D = some (readMemory env') := rfl
  obtain ⟨rest, hwrite⟩ := gdbPacketAnalysis_command env fuel gdb hX hwriter hconnected
  rw [List.append_assoc, List.cons_append, List.append_assoc, List.cons_append] at hwrite
  have hacked : gdb.acked.Connected := (gdb.wrote_connected _).mpr hconnected
  have hload := writeMemoryBinary_ends env gdb.acked ha (hcount hn) hlen he hstart hin rest
  -- `X` answers OK on the machine with the bytes in place.
  obtain ⟨g, hok, hreplies⟩ := (hload.safe fun _ => not_severed hacked).exists_ok
  have hconnected' : g.Connected := hreplies.connected
  obtain ⟨-, buffer, -, hg⟩ := hreplies
  have harm : g.arm = { gdb.arm with mem := gdb.arm.mem.setBytes a b } := congrArg Gdb.arm hg
  have hmem : g.arm.mem = gdb.arm.mem.setBytes a b := congrArg ArmCore.mem harm
  have hsent := (congrArg Gdb.sent hg).trans (List.append_assoc gdb.sent [.written [0x2B]] _)
  have hsize : g.arm.mem.size = gdb.arm.mem.size := by
    rw [hmem, Memory.size_setBytes]
  have hhas : g.arm.mem.Has a b := by
    intro j c hj
    rw [hmem]
    exact Memory.byteAt_setBytes hin (by omega) hj
  have hin' : g.arm.mem.InRange a b.length := inRange_of_le (by rwa [hsize])
  -- `m` finds them there.
  obtain ⟨rest', hread⟩ := gdbPacketAnalysis_command env' fuel' g hm hreader hconnected'
  rw [List.append_assoc, List.cons_append] at hread
  have hreads : g.acked.arm.mem.Reads a (BitVec.ofNat 32 b.length).toNat b :=
    ⟨hin', hhas, Or.inl hlen.symm⟩
  have hanswer := readMemory_ends env' g.acked ha' (hcount hn') (hsize ▸ hstart) hreads rest'
  have hfits : ∀ f, ¬Unsent g.acked (hexBytes b) f := by
    rintro f (hlong | ⟨-, hsevered⟩)
    · exact absurd hlong.2 (by rw [length_hexBytes]; omega)
    · exact not_severed ((g.wrote_connected _).mpr hconnected') hsevered
  obtain ⟨g', hok', ⟨-, buffer', -, hg'⟩, -⟩ := (hanswer.safe hfits).exists_ok
  have hsent' := (congrArg Gdb.sent hg').trans (List.append_assoc g.sent [.written [0x2B]] _)
  have hreg : g.arm.reg = gdb.arm.reg := by rw [harm]
  refine ⟨g, g', hwrite.trans hok, hread.trans hok', hsent, hreg, hsize, hhas, ?_, hsent'⟩
  intro i hi
  rw [hmem]
  exact Memory.byteAt_setBytes_of_ne hin hi

end roundTrip

/-- Four bytes, of which two have to be escaped. -/
theorem download_read_back_special : ∃ g g',
    @gdbPacketAnalysis makefile zeroEnv 0
      (gdbInitData (ArmCore.boot 0x10 [1, 2, 3, 4, 5, 6]) (fun _ => 0) (fun _ => 0))
      (frame (text "X1,4:" ++ [0x7D, 0x03, 0x00, 0xFF, 0x7D, 0x5D])) = .ok g ∧
    @gdbPacketAnalysis makefile zeroEnv 0 g (frame (text "m1,4")) = .ok g' ∧
    g.arm.mem.Has 1 [0x23, 0x00, 0xFF, 0x7D] ∧
    g'.sent = g.sent ++ [.written [0x2B], .written (frame (text "2300ff7d"))] := by
  have he : Escapes [0x23, 0x00, 0xFF, 0x7D] [0x7D, 0x03, 0x00, 0xFF, 0x7D, 0x5D] := by
    apply Escapes.escaped
    apply Escapes.plain (by decide) (by decide) (by decide)
    apply Escapes.plain (by decide) (by decide) (by decide)
    exact Escapes.escaped .nil
  have hone : Numeral (text "1") (1 : Word).toNat := ⟨by decide, by decide, by decide⟩
  have hfour : Numeral (text "4") [0x23, 0x00, 0xFF, (0x7D : Byte)].length :=
    ⟨by decide, by decide, by decide⟩
  obtain ⟨g, g', hwrite, hread, -, -, -, hhas, -, hsent⟩ := (@download_read_back makefile zeroEnv
    zeroEnv 0 0 (gdbInitData (ArmCore.boot 0x10 [1, 2, 3, 4, 5, 6]) (fun _ => 0) (fun _ => 0))
    _ _ _ _ _ _ _ _ _ (carries_frame _) (carries_frame _) hone hfour hone hfour he (by decide)
    (by decide) (by decide)).1 (gdbInitData_connected _ _ _)
  exact ⟨g, g', hwrite, hread, hhas, hsent⟩

end ArmSim
