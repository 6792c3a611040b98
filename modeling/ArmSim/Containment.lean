import ArmSim.HandlerFaults
import ArmSim.Readers
import ArmSim.RegisterAccess

/-! Handlers inside their packet: what a payload has to supply so that its handler neither reads
behind the NUL nor stores a byte that is not the payload's. -/
namespace ArmSim
open Lib

/-- The fault is none of an access to the text. -/
def OutsideText (e : GdbFault) : Prop := e ≠ .packetText ∧ e ≠ .nullPointer

/-- The computation never leaves the text. -/
abbrev TextSafe {α : Type} (x : Except GdbFault α) : Prop := Raises OutsideText x

theorem permits_outsideText : Permits OutsideText where
  crash := fun _ => ⟨GdbFault.noConfusion, GdbFault.noConfusion⟩
  packetBuffer := ⟨by decide, by decide⟩
  assertion := ⟨by decide, by decide⟩
  brokenPipe := ⟨by decide, by decide⟩
  stillRunning := ⟨by decide, by decide⟩

section breakpoints
variable (gdb : BreakpointTable) (address : Word)

theorem textSafe_fetch (i : ℕ) : TextSafe (gdb.fetch i) :=
  ends_ite (fun _ => trivial) (fun _ => ⟨by decide, by decide⟩)

theorem textSafe_store (i : ℕ) : TextSafe (gdb.store i address) :=
  ends_ite (fun _ => trivial) (fun _ => ⟨by decide, by decide⟩)

theorem textSafe_find : TextSafe (gdbFindBreakpoint gdb address) := by
  -- Running out of tests is no access to the text.
  have hloop (fuel start stop : ℕ) : TextSafe (gdbFindLoop gdb address fuel start stop) := by
    induction fuel generalizing start stop with
    | zero => exact ⟨by decide, by decide⟩
    | succ fuel ih =>
      unfold gdbFindLoop
      apply ends_ite
      · intro _
        apply (textSafe_fetch gdb _).bind
        intro entry _
        apply ends_ite
        · exact fun _ => ih _ _
        · exact fun _ => ends_ite (fun _ => ih _ _) (fun _ => trivial)
      · exact fun _ => trivial
  exact hloop _ _ _

theorem textSafe_add : TextSafe (gdbAddBreakpoint gdb address) := by
  have hshift (gdb : BreakpointTable) (j : ℕ) : TextSafe (gdbShiftLoop address gdb j) := by
    induction j generalizing gdb with
    | zero => trivial
    | succ j ih =>
      unfold gdbShiftLoop
      apply (textSafe_fetch gdb j).bind
      intro entry _
      apply ends_ite
      · exact fun _ => (textSafe_store gdb entry _).bind (fun gdb _ => ih gdb)
      · exact fun _ => trivial
  unfold gdbAddBreakpoint
  apply ends_ite
  · intro _
    apply (textSafe_find gdb address).bind
    intro position _
    split_ifs
    · trivial
    · apply (hshift _ _).bind
      intro r _
      exact (textSafe_store r.1 address _).bind (fun _ _ => trivial)
  · exact fun _ => trivial

theorem textSafe_remove : TextSafe (gdbRemoveBreakpoint gdb address) := by
  unfold gdbRemoveBreakpoint
  apply (textSafe_find gdb address).bind
  intro position _
  apply ends_ite
  · exact fun _ => trivial
  · intro _
    apply Ends.bind (ends_foldlM_range' (fun _ _ => True) _ _ _ _ trivial ?_)
    · exact fun _ _ => trivial
    · intro j _ _ gdb _
      exact (textSafe_fetch gdb _).bind (fun entry _ => textSafe_store gdb entry _)

end breakpoints

section handlers
variable (env : GdbEnv) (gdb : Gdb) (args : List Byte)

theorem textSafe_sendData (s : List Byte) : TextSafe (gdbSendData gdb s) :=
  (keepsTable_sendData permits_outsideText rfl s).raises

theorem textSafe_setBreakpoint : TextSafe (setBreakpoint env gdb (args ++ [0])) := by
  apply (sscanfHhxX_raises (cString_nul args) _ _).bind
  rintro ⟨type, address⟩ _
  apply ends_ite
  · exact fun _ => textSafe_sendData gdb _
  · intro _
    apply (textSafe_add gdb.toBreakpointTable address).bind
    intro r _
    dsimp only
    split_ifs <;> exact textSafe_sendData _ _

theorem textSafe_removeBreakpoint : TextSafe (removeBreakpoint env gdb (args ++ [0])) := by
  apply (sscanfHhxX_raises (cString_nul args) _ _).bind
  rintro ⟨type, address⟩ _
  apply ends_ite
  · exact fun _ => textSafe_sendData gdb _
  · intro _
    apply (textSafe_remove gdb.toBreakpointTable address).bind
    intro r _
    dsimp only
    split_ifs <;> exact textSafe_sendData _ _

end handlers

/-- The text behind the first `c`, where it stands before any NUL. -/
def behind (c : Byte) : List Byte → Option (List Byte)
  | [] => none
  | d :: s => if d = c then some s else if d = 0 then none else behind c s

/-- The bytes that a text encodes; an escape at its end encodes none. -/
def unescape : List Byte → List Byte
  | [] => []
  | c :: s =>
    if c = 0x7D then
      match s with
      | [] => []
      | d :: s => (d ^^^ 0x20) :: unescape s
    else c :: unescape s

/-- How many of the `n` addresses from `a` on come before the first one outside. -/
def Memory.reach (mem : Memory) : (n : ℕ) → (a : Word) → ℕ
  | 0, _ => 0
  | n + 1, a => if a.toNat < mem.size then mem.reach n (a + 1) + 1 else 0

/-- The binary data of an `X` packet. -/
def binaryData (args : List Byte) : List Byte := unescape ((behind 0x3A args).getD [])

section data

theorem indexNext_behind {c : Byte} (hc : c ≠ 0) (args rest : List Byte) :
    indexNext (args ++ 0 :: rest) c = .ok ((behind c args).map (· ++ 0 :: rest)) := by
  induction args with
  | nil =>
    rw [List.nil_append, indexNext, if_neg hc.symm, if_pos rfl]
    rfl
  | cons d args ih =>
    rw [List.cons_append]
    unfold indexNext behind
    split_ifs
    · rfl
    · rfl
    · exact ih

theorem binaryByte_total (s rest : List Byte) : ∃ r, binaryByte (s ++ 0 :: rest) = .ok r := by
  cases s with
  | nil => exact ⟨_, rfl⟩
  | cons c s =>
    by_cases hc : c = 0x7D
    · rw [hc]
      cases s with
      | nil => exact ⟨_, rfl⟩
      | cons d s => exact ⟨_, rfl⟩
    · exact ⟨_, binaryByte_plain hc _⟩

/-- A text that encodes a byte starts with its encoding. -/
theorem binaryByte_unescape {s b : List Byte} {c : Byte} (h : unescape s = c :: b)
    (rest : List Byte) : ∃ s', binaryByte (s ++ rest) = .ok (c, s' ++ rest) ∧ unescape s' = b := by
  cases s with
  | nil => cases h
  | cons d s =>
    unfold unescape at h
    split_ifs at h with hd
    · cases s with
      | nil => cases h
      | cons d' s =>
        obtain ⟨rfl, hb⟩ := List.cons.inj h
        rw [hd]
        exact ⟨s, binaryByte_escaped d' _, hb⟩
    · obtain ⟨rfl, hb⟩ := List.cons.inj h
      exact ⟨s, binaryByte_plain hd _, hb⟩

theorem Memory.reach_congr {mem mem' : Memory} (h : mem'.size = mem.size) (n : ℕ) (a : Word) :
    mem'.reach n a = mem.reach n a := by
  induction n generalizing a with
  | zero => rfl
  | succ n ih =>
    unfold reach
    rw [h, ih]

theorem Memory.reach_outside {mem : Memory} {a : Word} (h : ¬a.toNat < mem.size) (n : ℕ) :
    mem.reach n a = 0 := by
  cases n with
  | zero => rfl
  | succ n => exact if_neg h

/-- The loop stores the bytes that the text encodes, one at every address it reaches. -/
theorem writeMemoryLoop_supplied {n : ℕ} {gdb : Gdb} {a : Word} {s : List Byte} (rest : List Byte)
    (h : gdb.arm.mem.reach n a ≤ (unescape s).length) :
    ∃ ok, writeMemoryLoop n gdb a (some (s ++ 0 :: rest)) = .ok (gdb.withMemory
      (gdb.arm.mem.setBytes a ((unescape s).take (gdb.arm.mem.reach n a))), ok) := by
  induction n generalizing gdb a s with
  | zero => exact ⟨true, rfl⟩
  | succ n ih =>
    by_cases ha : a.toNat < gdb.arm.mem.size
    · have hreach : gdb.arm.mem.reach (n + 1) a = gdb.arm.mem.reach n (a + 1) + 1 := if_pos ha
      rw [hreach] at h ⊢
      obtain ⟨c, b, hb⟩ := List.exists_cons_of_length_pos (Nat.zero_lt_of_lt h)
      obtain ⟨s', hbyte, hs'⟩ := binaryByte_unescape hb (0 :: rest)
      rw [hb, List.length_cons] at h
      -- The memory after this byte has the size it had.
      let gdb' := gdb.withMemory (gdb.arm.mem.setByte a.toNat c)
      have hcongr : gdb'.arm.mem.reach n (a + 1) = gdb.arm.mem.reach n (a + 1) :=
        Memory.reach_congr (Memory.size_setByte _ _ _) n (a + 1)
      have hone : gdb.arm.mem.InRange a 1 := inRange_of_le ha
      have hlen : gdb'.arm.mem.reach n (a + 1) ≤ (unescape s').length := by
        rw [hcongr, hs']
        exact Nat.le_of_succ_le_succ h
      obtain ⟨ok, hok⟩ := ih hlen
      rw [hcongr, hs'] at hok
      refine ⟨ok, ?_⟩
      rw [hb, List.take_succ_cons]
      exact (writeMemoryLoop_succ hbyte hone).trans hok
    · -- The byte is taken before the address is checked; the NUL is there to be taken.
      obtain ⟨r, hr⟩ := binaryByte_total s rest
      have hnone : gdb.arm.mem.reach (n + 1) a = 0 := if_neg ha
      have hderef : TextPointer.deref (some (s ++ 0 :: rest)) = .ok (s ++ 0 :: rest) := rfl
      refine ⟨false, ?_⟩
      rw [hnone, writeMemoryLoop, hderef, ok_bind, hr, ok_bind]
      dsimp only
      rw [memoryWriteByte_outside (Nat.not_lt.mp ha)]
      rfl

/-- The payload encodes a byte for every address that it has to fill. -/
def SuppliesData (env : GdbEnv) (mem : Memory) (args : List Byte) : Prop :=
  ∀ a n, sscanfXX (args ++ [0]) env.address env.size = .ok (a, n) →
    mem.reach n.toNat a ≤ (binaryData args).length

/-- `X` stores the payload's bytes and answers. -/
theorem writeMemoryBinary_supplied (env : GdbEnv) {gdb : Gdb} (hconnected : gdb.Connected)
    {args : List Byte}
    (h : SuppliesData env gdb.arm.mem args) (rest : List Byte) :
    ∃ a n g, sscanfXX (args ++ [0]) env.address env.size = .ok (a, n) ∧
      writeMemoryBinary env gdb (args ++ 0 :: rest) = .ok g ∧
      g.arm.mem =
        gdb.arm.mem.setBytes a ((binaryData args).take (gdb.arm.mem.reach n.toNat a)) := by
  obtain ⟨⟨a, n⟩, hscan, -⟩ := (sscanfXX_raises (cString_nul args) env.address env.size).exists_ok
  have hlen := h a n hscan
  have hloop : ∃ ok, (if a.toNat < gdb.arm.mem.size then
      writeMemoryLoop n.toNat gdb a ((behind 0x3A args).map (· ++ 0 :: rest))
      else pure (gdb, false)) = .ok (gdb.withMemory (gdb.arm.mem.setBytes a
        ((binaryData args).take (gdb.arm.mem.reach n.toNat a))), ok) := by
    split_ifs with ha
    · unfold binaryData at hlen ⊢
      cases hcontent : behind 0x3A args with
      | some content =>
        rw [hcontent] at hlen
        exact writeMemoryLoop_supplied rest hlen
      | none =>
        -- Nothing is supplied, so nothing may be asked for.
        rw [hcontent] at hlen
        have hzero : gdb.arm.mem.reach n.toNat a = 0 := Nat.le_zero.mp hlen
        cases hn : n.toNat with
        | zero => exact ⟨true, rfl⟩
        | succ k =>
          rw [hn, Memory.reach, if_pos ha] at hzero
          exact absurd hzero (Nat.succ_ne_zero _)
    · rw [Memory.reach_outside ha]
      exact ⟨false, rfl⟩
  obtain ⟨ok, hok⟩ := hloop
  -- The answer is short, whether all bytes were stored or not.
  have hsend (text : List Byte) (h0 : ∀ c ∈ text, c ≠ 0) (hfit : text.length + 5 ≤ MAX_PACKET_SIZE)
      (mem : Memory) : ∃ g, gdbSendData (gdb.withMemory mem) text = .ok g ∧
        g.arm = (gdb.withMemory mem).arm := by
    have hopen : (gdb.withMemory mem).Connected := hconnected
    obtain ⟨g, hg, hreplies⟩ :=
      ((gdbSendData_short _ h0 hfit).safe fun _ => not_severed hopen).exists_ok
    exact ⟨g, hg, hreplies.arm_eq⟩
  have hscan' := (sscanfXX_cut args rest env.address env.size).trans hscan
  unfold writeMemoryBinary
  rw [hscan', ok_bind, indexNext_behind (by decide)]
  dsimp only
  rw [ok_bind, hok, ok_bind]
  dsimp only
  cases ok with
  | true =>
    obtain ⟨g, hg, harm⟩ := hsend (text "OK") (by decide) (by decide) _
    exact ⟨a, n, g, hscan, hg, congrArg ArmCore.mem harm⟩
  | false =>
    obtain ⟨g, hg, harm⟩ := hsend (text "E02") (by decide) (by decide) _
    exact ⟨a, n, g, hscan, hg, congrArg ArmCore.mem harm⟩

end data

/-- The last field of the register image that `G` looks at: the CPSR's, or that of `r13` where it
has no cell. -/
def lastField (bank : ℕ) : ℕ := if bank = 6 then SP else 41

theorem lastField_of_ne {bank : ℕ} (h : bank ≠ 6) : lastField bank = 41 := if_neg h

theorem lastField_fiq : lastField 6 = SP := rfl

/-- The text of field `i`. -/
theorem drop_nul {args : List Byte} {i : ℕ} (h : 8 * i ≤ args.length) :
    (args ++ [0]).drop (8 * i) = args.drop (8 * i) ++ [0] :=
  List.drop_append_of_le_length h

section safety
variable [Platform] (env : GdbEnv) (fuel : ℕ) (gdb : Gdb) {args : List Byte}

theorem textSafe_writeSingleRegister (h : (behind 0x3D args).isSome) :
    TextSafe (writeSingleRegister env gdb (args ++ [0])) := by
  obtain ⟨value, hvalue⟩ := Option.isSome_iff_exists.mp h
  apply (keepsTable_writeSingleRegister permits_outsideText env gdb _
    (sscanfX_raises (cString_nul args) none env.reg) ?_).raises
  rw [indexNext_behind (by decide), hvalue, ok_bind]
  exact sscanfX_raises (cString_nul value) (some 8) (env.value 0)

/-- Without a `=` the handler follows the result of the failed `index`. -/
theorem writeSingleRegister_lost (h : behind 0x3D args = none) :
    writeSingleRegister env gdb (args ++ [0]) = .error .nullPointer := by
  obtain ⟨reg, hreg, -⟩ := (sscanfX_raises (cString_nul args) none env.reg).exists_ok
  unfold writeSingleRegister
  rw [hreg, ok_bind, indexNext_behind (by decide), h]
  rfl

/-- One turn of the loop of `G` inside the text. -/
theorem writeField_ends {g : Gdb} {i : ℕ} (hi : i < 16) (hle : 8 * i ≤ args.length)
    (value : Word) :
    Ends (writeRegister g i ((args ++ [0]).drop (8 * i)) value)
      (fun g' => g'.arm.bank = g.arm.bank ∧ g.arm.HasCell i)
      (fun e => e = .crash .registerCell ∧ ¬g.arm.HasCell i) := by
  obtain ⟨v, hv⟩ := readUint32_total (args.drop (8 * i)) value
  rw [← drop_nul hle] at hv
  by_cases hcell : g.arm.HasCell i
  · rw [writeRegister_hasCell value hv hi hcell]
    exact ⟨setGp_bank_hasCell hi hcell v, hcell⟩
  · rw [writeRegister_noCell value hv hi hcell]
    exact ⟨rfl, hcell⟩

theorem textSafe_writeGeneralRegisters (h : 8 * lastField gdb.arm.bank ≤ args.length) :
    TextSafe (writeGeneralRegisters env gdb (args ++ [0])) := by
  -- In the fast interrupt's mode the loop does not get past `r13`.
  have hloop : Ends ((List.range 16).foldlM (fun g i =>
      writeRegister g i ((args ++ [0]).drop (8 * i)) (env.value i)) gdb)
      (fun g => g.arm.bank = gdb.arm.bank ∧ (gdb.arm.bank = 6 → 16 ≤ SP)) OutsideText := by
    apply ends_foldlM_range (fun k (g : Gdb) =>
      g.arm.bank = gdb.arm.bank ∧ (gdb.arm.bank = 6 → k ≤ SP))
    · exact ⟨rfl, fun _ => Nat.zero_le _⟩
    · rintro i hi g ⟨hbank, hfiq⟩
      have hle : 8 * i ≤ args.length := by
        by_cases h6 : gdb.arm.bank = 6
        · have hsp := hfiq h6
          rw [h6, lastField_fiq] at h
          omega
        · rw [lastField_of_ne h6] at h
          omega
      apply (writeField_ends hi hle _).mono
      · rintro g' ⟨hsame, hcell⟩
        refine ⟨hsame.trans hbank, ?_⟩
        intro h6
        exact Nat.lt_of_le_of_ne (hfiq h6) (hcell (hbank.trans h6)).1
      · rintro e ⟨rfl, -⟩
        exact ⟨by decide, by decide⟩
  rw [writeGeneralRegisters_eq]
  apply hloop.bind
  rintro g ⟨-, hfiq⟩
  have hne : gdb.arm.bank ≠ 6 := fun h6 => absurd (hfiq h6) (by decide)
  rw [lastField_of_ne hne] at h
  rw [drop_nul h]
  exact (sscanfX_raises (cString_nul (args.drop (8 * 41))) (some 8) (env.value 16)).bind
    (fun _ _ => textSafe_sendData _ _)

/-- A shorter image is read past its end. -/
theorem writeGeneralRegisters_short (h : args.length < 8 * lastField gdb.arm.bank) :
    writeGeneralRegisters env gdb (args ++ [0]) = .error .packetText := by
  have hpast (i : ℕ) (value : Word) (hlt : args.length < 8 * i) :
      readUint32 ((args ++ [0]).drop (8 * i)) value = .error .packetText := by
    have hnil : (args ++ [0]).drop (8 * i) = [] := List.drop_eq_nil_of_le (by simpa using hlt)
    rw [hnil]
    rfl
  -- Up to the field that is missing every register has a cell.
  have hloop : Ends ((List.range 16).foldlM (fun g i =>
      writeRegister g i ((args ++ [0]).drop (8 * i)) (env.value i)) gdb)
      (fun g => g.arm.bank = gdb.arm.bank ∧ 8 * 16 < args.length + 9) (· = .packetText) := by
    apply ends_foldlM_range (fun k (g : Gdb) =>
      g.arm.bank = gdb.arm.bank ∧ 8 * k < args.length + 9)
    · exact ⟨rfl, by omega⟩
    · rintro i hi g ⟨hbank, -⟩
      by_cases hle : 8 * i ≤ args.length
      · apply (writeField_ends hi hle _).mono
        · rintro g' ⟨hsame, -⟩
          exact ⟨hsame.trans hbank, by omega⟩
        · rintro e ⟨-, hcell⟩
          exfalso
          apply hcell
          intro h6
          rw [← hbank, h6, lastField_fiq] at h
          have hsp : i < SP := by omega
          exact ⟨Nat.ne_of_lt hsp, Nat.ne_of_lt (hsp.trans (by decide))⟩
      · unfold writeRegister
        rw [hpast i _ (by omega)]
        rfl
  have hends : Ends (writeGeneralRegisters env gdb (args ++ [0])) (fun _ => False)
      (· = .packetText) := by
    rw [writeGeneralRegisters_eq]
    apply hloop.bind
    rintro g ⟨-, hlen⟩
    have hne : gdb.arm.bank ≠ 6 := by
      intro h6
      rw [h6, lastField_fiq] at h
      have hsp : 8 * SP = 104 := rfl
      omega
    rw [lastField_of_ne hne] at h
    rw [hpast 41 _ h]
    rfl
  cases hres : writeGeneralRegisters env gdb (args ++ [0]) with
  | ok g => exact (hends.value hres).elim
  | error e => exact congrArg Except.error (hends.fault hres)

end safety

/-- What a payload has to supply for its command. -/
def Supplies (env : GdbEnv) (p : ArmCore) (index : Byte) (args : List Byte) : Prop :=
  match index with
  | 0x48 => args ≠ []
  | 0x47 => 8 * lastField p.bank ≤ args.length
  | 0x50 => (behind 0x3D args).isSome
  | 0x58 => SuppliesData env p.mem args
  | _ => True

section containment
variable [Platform] (env : GdbEnv) (fuel : ℕ) (gdb : Gdb) {packet payload : List Byte}

theorem textSafe_handler (hconnected : gdb.Connected) {index : Byte} {args : List Byte}
    {handle : Gdb → List Byte → Except GdbFault Gdb} (h : handler env fuel index = some handle)
    (hs : Supplies env gdb.arm index args) : TextSafe (handle gdb (args ++ [0])) := by
  have hstep := (keepsTable_step permits_outsideText env gdb (args ++ [0])).raises
  have hcont := (keepsTable_cont permits_outsideText env gdb (args ++ [0]) fuel
    (textSafe_find gdb.toBreakpointTable)).raises
  unfold handler at h
  split at h
  · cases h
    exact hcont
  · cases h
    exact hcont
  · cases h
    trivial
  · cases h
    exact (keepsTable_query permits_outsideText gdb _ (cString_nul args)).raises
  · cases h
    exact (keepsTable_readGeneralRegisters permits_outsideText gdb _).raises
  · cases h
    exact (keepsTable_readMemory permits_outsideText env gdb _
      (sscanfXX_raises (cString_nul args) _ _)).raises
  · cases h
    exact (keepsTable_readSingleRegister permits_outsideText gdb _
      (atoi_raises (cString_nul args))).raises
  · cases h
    exact textSafe_sendData gdb _
  · cases h
    -- The thread's type is a character of the payload, and the number ends at the NUL.
    obtain ⟨type, args, rfl⟩ := List.exists_cons_of_ne_nil (show args ≠ [] from hs)
    exact (keepsTable_setThread permits_outsideText gdb _ type
      (atoi_raises (cString_nul args))).raises
  · cases h
    exact hstep
  · cases h
    exact hstep
  · cases h
    exact textSafe_writeGeneralRegisters env gdb hs
  · cases h
    obtain ⟨a, n, g, -, hok, -⟩ := writeMemoryBinary_supplied env hconnected hs []
    rw [hok]
    trivial
  · cases h
    exact textSafe_writeSingleRegister env gdb hs
  · cases h
    exact textSafe_removeBreakpoint env gdb args
  · cases h
    exact textSafe_setBreakpoint env gdb args
  · cases h

/-- A packet is handled on the payload and its NUL alone, and what `X` stores are bytes of the
payload, one for each address that it fills. -/
structure StaysInside (env : GdbEnv) (fuel : ℕ) (gdb : Gdb) (packet payload : List Byte) : Prop where
  inside : ∀ handle, handler env fuel (payload.headD 0) = some handle →
    gdbPacketAnalysis env fuel gdb packet =
        (gdbSendAck gdb >>= fun g => handle g (payload.tail ++ [0])) ∧
      TextSafe (gdbPacketAnalysis env fuel gdb packet)
  stored : gdb.Connected → payload.headD 0 = 0x58 → ∃ a n b g,
    sscanfXX (payload.tail ++ [0]) env.address env.size = .ok (a, n) ∧
      b.length = gdb.arm.mem.reach n.toNat a ∧ b <+: binaryData payload.tail ∧
      gdbPacketAnalysis env fuel gdb packet = .ok g ∧ g.arm.mem = gdb.arm.mem.setBytes a b

theorem StaysInside.supplies (h : StaysInside env fuel gdb packet payload)
    (hconnected : gdb.Connected) : Supplies env gdb.arm (payload.headD 0) payload.tail := by
  obtain ⟨hinside, hstored⟩ := h
  have hsafe {handle : Gdb → List Byte → Except GdbFault Gdb}
      (hhandle : handler env fuel (payload.headD 0) = some handle) :
      TextSafe (handle gdb.acked (payload.tail ++ [0])) := by
    obtain ⟨hrun, hends⟩ := hinside handle hhandle
    rw [hrun, gdbSendAck_connected hconnected] at hends
    exact hends
  unfold Supplies
  -- One case for each command with a condition: `H`, `G`, `P` and `X`.
  split
  · rename_i hindex
    intro hnil
    have hthread := @hsafe setThread (by rw [hindex]; rfl)
    rw [hnil] at hthread
    exact hthread.1 rfl
  · rename_i hindex
    by_contra hshort
    have hload := @hsafe (writeGeneralRegisters env) (by rw [hindex]; rfl)
    rw [writeGeneralRegisters_short env gdb.acked (Nat.not_le.mp hshort)] at hload
    exact hload.1 rfl
  · rename_i hindex
    by_contra hnone
    have hwrite := @hsafe (writeSingleRegister env) (by rw [hindex]; rfl)
    rw [writeSingleRegister_lost env gdb.acked (Option.not_isSome_iff_eq_none.mp hnone)] at hwrite
    exact hwrite.2 rfl
  · rename_i hindex
    obtain ⟨a, n, b, g, hscan, hlen, hlead, -⟩ := hstored hconnected hindex
    intro a' n' hscan'
    obtain ⟨rfl, rfl⟩ := Prod.mk.inj (ok_unique hscan hscan')
    rw [← hlen]
    exact hlead.length_le
  · trivial

/-- A packet stays inside its payload if and only if the payload supplies what its command needs, or
the packet is not served, because the connection has been shut down. -/
theorem payload_contained_iff (h : Carries packet payload) :
    StaysInside env fuel gdb packet payload ↔
      ¬gdb.Connected ∨ Supplies env gdb.arm (payload.headD 0) payload.tail := by
  constructor
  · intro hinside
    by_cases hconnected : gdb.Connected
    · exact Or.inr (hinside.supplies env fuel gdb hconnected)
    · exact Or.inl hconnected
  · intro hcond
    by_cases hconnected : gdb.Connected
    case neg =>
      -- The acknowledgement is the end.
      have hrun := gdbPacketAnalysis_severed env fuel gdb h hconnected
      refine ⟨fun handle _ => ?_, fun hopen => absurd hopen hconnected⟩
      rw [hrun, gdbSendAck, rioWriten_severed hconnected (List.cons_ne_nil _ _)]
      exact ⟨rfl, by decide, by decide⟩
    have hs := hcond.resolve_left (not_not.mpr hconnected)
    have hacked : gdb.acked.Connected := (gdb.wrote_connected _).mpr hconnected
    cases payload with
    | nil =>
      -- An empty payload selects no handler.
      refine ⟨?_, ?_⟩
      · intro handle hhandle
        cases hhandle
      · intro _ hindex
        exact absurd hindex (by decide)
    | cons index args =>
      refine ⟨?_, ?_⟩
      · intro handle hhandle
        obtain ⟨rest, hrun⟩ := gdbPacketAnalysis_command env fuel gdb h hhandle hconnected
        have hsafe := textSafe_handler env fuel gdb.acked hacked hhandle hs
        -- Without a text fault on the payload, what lies behind it does not matter.
        have hne : handle gdb.acked (args ++ [0]) ≠ .error .packetText := by
          intro herror
          exact (hsafe.fault herror).1 rfl
        have hcut := reads_handler env gdb.acked fuel hhandle (args ++ [0]) rest hne
        rw [List.append_assoc] at hcut
        rw [gdbSendAck_connected hconnected, ok_bind, hrun.trans hcut]
        exact ⟨rfl, hsafe⟩
      · rintro - rfl
        have hhandle : handler env fuel 0x58 = some (writeMemoryBinary env) := rfl
        obtain ⟨rest, hrun⟩ := gdbPacketAnalysis_command env fuel gdb h hhandle hconnected
        obtain ⟨a, n, g, hscan, hok, hmem⟩ := writeMemoryBinary_supplied env hacked hs rest
        exact ⟨a, n, _, g, hscan, List.length_take_of_le (hs a n hscan), List.take_prefix _ _,
          hrun.trans hok, hmem⟩

end containment

/-- A machine with four bytes of memory. -/
def fourBytesGdb : Gdb :=
  gdbInitData (ArmCore.boot 0x10 [0, 0, 0, 0]) (fun _ => 0) (fun _ => 0)

/-- An `X` that supplies what it declares. -/
theorem payload_contained_two : @StaysInside makefile zeroEnv 0 fourBytesGdb
    (frame (text "X0,2:ab")) (text "X0,2:ab") := by
  have hparsed : sscanfXX (text "0,2:ab" ++ [0]) 0 0 = .ok (0, 2) := by decide
  have hdata : binaryData (text "0,2:ab") = text "ab" := by decide +kernel
  have hreach : fourBytesGdb.arm.mem.reach 2 0 = 2 := by decide
  have hsupplies : SuppliesData zeroEnv fourBytesGdb.arm.mem (text "0,2:ab") := by
    intro a n hscan
    obtain ⟨rfl, rfl⟩ := Prod.mk.inj (ok_unique hparsed hscan)
    rw [hdata]
    exact hreach.le
  exact (@payload_contained_iff makefile zeroEnv 0 fourBytesGdb _ _ (carries_frame _)).mpr
    (Or.inr hsupplies)

/-- An `X` that declares two bytes more stores the NUL and a digit of the checksum. -/
theorem payload_contained_truncated : Carries (frame (text "X0,4:ab")) (text "X0,4:ab") ∧
    ¬@StaysInside makefile zeroEnv 0 fourBytesGdb (frame (text "X0,4:ab")) (text "X0,4:ab") := by
  have hparsed : sscanfXX (text "0,4:ab" ++ [0]) 0 0 = .ok (0, 4) := by decide
  have hdata : binaryData (text "0,4:ab") = text "ab" := by decide +kernel
  have hreach : fourBytesGdb.arm.mem.reach 4 0 = 4 := by decide
  refine ⟨carries_frame _, ?_⟩
  intro hinside
  have hsupplies : SuppliesData zeroEnv fourBytesGdb.arm.mem (text "0,4:ab") :=
    @StaysInside.supplies makefile zeroEnv 0 fourBytesGdb _ _ hinside (gdbInitData_connected _ _ _)
  have hlen : fourBytesGdb.arm.mem.reach 4 0 ≤ _ := hsupplies 0 4 hparsed
  rw [hdata, hreach] at hlen
  exact absurd hlen (by decide)

end ArmSim
