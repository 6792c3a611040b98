import ArmSim.RegisterImage

/-! Requests for one register: the number that `p` and `P` take from the text, and what the
machine and the debugger see of it. -/
namespace ArmSim
open Lib

/-- A request for one register: the text of its number, and that of the value to write. -/
inductive RegisterRequest where
  | read (number : List Byte)
  | write (number value : List Byte)

namespace RegisterRequest

def number : RegisterRequest → List Byte
  | read number => number
  | write number _ => number

/-- `p n` and `P n=v` -/
def payload : RegisterRequest → List Byte
  | read number => 0x70 :: number
  | write number value => 0x50 :: (number ++ 0x3D :: value)

/-- The register that the handler takes for a number in hexadecimal: `p` reads the leading decimal
digits and keeps eight bits, `P` keeps thirty-two. -/
def register : RegisterRequest → ℕ
  | read number => min (decimalValue (number.takeWhile isDecimal)) (2^63 - 1) % 2^8
  | write number _ => min (hexValue number) (2^64 - 1) % 2^32

/-- A register below ten is found by both. -/
theorem register_of_lt {r : RegisterRequest} {n : ℕ} (hn : Numeral r.number n) (hlt : n < 16) :
    r.register = match r with
      | read _ => if n < 10 then n else 0
      | write _ _ => n := by
  have hvalue := hn.value
  cases r with
  | read number =>
    have hdigits := decimal_prefix hn.digits hn.ne_nil (hvalue.symm ▸ hlt)
    rw [hvalue] at hdigits
    change decimalValue (number.takeWhile isDecimal) = _ at hdigits
    dsimp only [register]
    rw [hdigits]
    split <;> omega
  | write number value =>
    change hexValue number = n at hvalue
    dsimp only [register]
    omega

end RegisterRequest

section access
variable [Platform] {gdb g : Gdb} {reg : ℕ}

theorem registersRead_hasCell {p : ArmCore} (hr : reg < 16) (h : p.HasCell reg) :
    registersRead p.reg reg (registersGetMode p.reg) = .ok (p.gp reg) := by
  rw [registersRead_eq]
  change bankPointer reg p.bank >>= _ = _
  rw [bankPointer_hasCell hr h]
  rfl

theorem registersRead_noCell {p : ArmCore} (hr : reg < 16) (h : ¬p.HasCell reg) :
    registersRead p.reg reg (registersGetMode p.reg) = .error .registerCell := by
  rw [registersRead_eq]
  change bankPointer reg p.bank >>= _ = _
  rw [bankPointer_noCell hr h]
  rfl

/-- `p` answers a register that has a cell. -/
theorem readSingleRegister_ends {data : List Byte} {v : Word} (hconnected : gdb.Connected)
    (hdata : atoi data = .ok v)
    (hr : v.toNat % 256 < 16) (hcell : gdb.arm.HasCell (v.toNat % 256)) :
    Ends (readSingleRegister gdb data)
      (Replies gdb (hexText 8 (gdb.arm.gp (v.toNat % 256)).toNat)) (fun _ => False) := by
  have hvalue := registersRead_hasCell hr hcell
  -- Eight digits and the frame fit, and a register with a cell is no fault either.
  have hread : Ends (readRegister gdb 1 (v.toNat % 256))
      (Built gdb (hexText 8 (gdb.arm.gp (v.toNat % 256)).toNat)) (fun _ => False) := by
    have hends := readRegister_ends (building_nil gdb) (by decide) hr
    unfold registerValue at hends
    rw [hvalue] at hends
    apply hends.safe
    rintro e ⟨c, hc, -⟩
    cases hc
  unfold readSingleRegister
  rw [hdata, ok_bind]
  apply hread.bind
  intro g hg
  apply (hg.send (fun c hc => (plain_hexText 8 _ c hc).1)).safe
  rintro e (⟨-, hlong⟩ | ⟨-, hsevered⟩)
  · rw [length_hexText] at hlong
    exact absurd hlong (by decide)
  · exact not_severed hconnected hsevered

/-- `write_register` with the value that the text has. -/
theorem writeRegister_hasCell {data : List Byte} {v : Word} (value : Word)
    (hdata : readUint32 data value = .ok v) (hr : reg < 16) (hcell : g.arm.HasCell reg) :
    writeRegister g reg data value = .ok { g with arm := g.arm.setGp reg v } := by
  unfold writeRegister
  rw [hdata, ok_bind, if_pos hr, registersWrite_eq]
  change (simulated (bankPointer reg g.arm.bank >>= _) >>= _) = _
  rw [bankPointer_hasCell hr hcell]
  rfl

theorem writeRegister_noCell {data : List Byte} {v : Word} (value : Word)
    (hdata : readUint32 data value = .ok v) (hr : reg < 16) (hcell : ¬g.arm.HasCell reg) :
    writeRegister g reg data value = .error (.crash .registerCell) := by
  unfold writeRegister
  rw [hdata, ok_bind, if_pos hr, registersWrite_eq]
  change (simulated (bankPointer reg g.arm.bank >>= _) >>= _) = _
  rw [bankPointer_noCell hr hcell]
  rfl

end access

section requests
variable {ds vs : List Byte}

/-- The number that `p` passes on, of which eight bits count. -/
theorem atoi_register (hd : ∀ c ∈ ds, isHex c = true) (rest : List Byte) :
    ∃ v, atoi (ds ++ 0 :: rest) = .ok v ∧
      v.toNat % 256 = (RegisterRequest.read ds).register := by
  refine ⟨_, atoi_digits hd rest, ?_⟩
  rw [BitVec.toNat_ofNat, Nat.mod_mod_of_dvd _ (by decide)]
  rfl

theorem sscanfX_register (vs : List Byte) {n : ℕ} (hn : Numeral ds n) (tail : List Byte)
    (value : Word) (htail : ∃ t, cString tail = .ok t) :
    ∃ v, sscanfX none (ds ++ 0x3D :: tail) value = .ok v ∧
      v.toNat = (RegisterRequest.write ds vs).register := by
  obtain ⟨t, ht⟩ := htail
  -- The number ends at the `=`, which is no hexadecimal digit.
  have hends : EndsNumber (0x3D :: t) := by
    intro c s hs
    obtain ⟨rfl, -⟩ := List.cons.inj hs
    decide
  have hnul : ∀ c ∈ ds, c ≠ 0 := fun c hc => ne_of_isHex (hn.digits c hc) (by decide)
  have heq : cString (0x3D :: tail) = .ok (0x3D :: t) := by
    exact cString_lead (s := [0x3D]) (by decide) ht
  refine ⟨BitVec.ofNat 32 (min (hexValue ds) (2^64 - 1)), ?_, BitVec.toNat_ofNat _ _⟩
  unfold sscanfX
  rw [cString_lead hnul heq, ok_bind, scanHex_number _ hn.ne_nil hn.digits hends]
  rfl

/-- A value is read up to the NUL that ends the packet. -/
theorem readUint32_cut (rest : List Byte) (value : Word) :
    readUint32 (vs ++ 0 :: rest) value = readUint32 (vs ++ [0]) value := by
  unfold readUint32 sscanfX
  rw [cString_cut]

theorem readUint32_total (vs : List Byte) (value : Word) :
    ∃ v, readUint32 (vs ++ [0]) value = .ok v := by
  obtain ⟨v, hv, -⟩ := (sscanfX_raises (cString_nul vs) (some 8) value).exists_ok
  exact ⟨v, hv⟩

variable [Platform]

/-- What a request makes of the machine `p`. -/
def RegisterRequest.Leaves (env : GdbEnv) (p q : ArmCore) : RegisterRequest → Prop
  | read _ => q = p
  | write ds vs => ∃ v, readUint32 (vs ++ [0]) (env.value 0) = .ok v ∧
      q = p.setGp (write ds vs).register v

/-- The reply to a request. -/
def RegisterRequest.reply (p : ArmCore) : RegisterRequest → List Byte
  | read ds => hexText 8 (p.gp (read ds).register).toNat
  | write _ _ => text "OK"

variable (env : GdbEnv) (fuel : ℕ) {gdb : Gdb} (hconnected : gdb.Connected) {packet : List Byte}
  {n : ℕ}
include hconnected

/-- `p` takes its number only. -/
theorem gdbPacketAnalysis_read (h : Carries packet (RegisterRequest.read ds).payload)
    (hn : Numeral ds n) :
    ∃ data v, gdbPacketAnalysis env fuel gdb packet = readSingleRegister gdb.acked data ∧
      atoi data = .ok v ∧ v.toNat % 256 = (RegisterRequest.read ds).register := by
  have hhandle : handler env fuel 0x70 = some readSingleRegister := rfl
  obtain ⟨rest, hrun⟩ := gdbPacketAnalysis_command env fuel gdb h hhandle hconnected
  obtain ⟨v, hv, hreg⟩ := atoi_register hn.digits rest
  exact ⟨_, v, hrun, hv, hreg⟩

/-- `P` takes its number, the text behind the first `=`, and the register's checks. -/
theorem gdbPacketAnalysis_write (h : Carries packet (RegisterRequest.write ds vs).payload)
    (hn : Numeral ds n) :
    ∃ rest, gdbPacketAnalysis env fuel gdb packet =
      (writeRegister gdb.acked (RegisterRequest.write ds vs).register (vs ++ 0 :: rest)
        (env.value 0) >>= fun g => gdbSendData g (text "OK")) := by
  have hhandle : handler env fuel 0x50 = some (writeSingleRegister env) := rfl
  obtain ⟨rest, hrun⟩ := gdbPacketAnalysis_command env fuel gdb h hhandle hconnected
  rw [List.append_assoc, List.cons_append] at hrun
  obtain ⟨v, hv, hreg⟩ := sscanfX_register vs hn _ env.reg (cString_total vs rest)
  have hindex := indexNext_append (s := ds) (c := 0x3D)
    (fun d hd => ⟨ne_of_isHex (hn.digits d hd) (by decide),
      ne_of_isHex (hn.digits d hd) (by decide)⟩)
    (vs ++ 0 :: rest)
  refine ⟨rest, ?_⟩
  rw [hrun]
  unfold writeSingleRegister
  rw [hv, ok_bind, hindex, ok_bind, hreg]
  rfl

variable {r : RegisterRequest} (h : Carries packet r.payload) (hn : Numeral r.number n)
include h hn

/-- The assertion decides on the register that the handler takes, not on the number. -/
theorem request_assertion (hlt : ¬r.register < 16) :
    gdbPacketAnalysis env fuel gdb packet = .error .assertion := by
  cases r with
  | read ds =>
    obtain ⟨data, v, hrun, hv, hreg⟩ := gdbPacketAnalysis_read env fuel hconnected h hn
    rw [← hreg] at hlt
    rw [hrun]
    unfold readSingleRegister readRegister
    rw [hv, ok_bind, if_neg hlt]
    rfl
  | write ds vs =>
    obtain ⟨rest, hrun⟩ := gdbPacketAnalysis_write env fuel hconnected h hn
    obtain ⟨v, hv⟩ := readUint32_total vs (env.value 0)
    rw [hrun]
    unfold writeRegister
    rw [readUint32_cut, hv, ok_bind, if_neg hlt]
    rfl

/-- The fast interrupt's `r13` and `r14` cannot be reached. -/
theorem request_noCell (hlt : r.register < 16) (hcell : ¬gdb.arm.HasCell r.register) :
    gdbPacketAnalysis env fuel gdb packet = .error (.crash .registerCell) := by
  cases r with
  | read ds =>
    obtain ⟨data, v, hrun, hv, hreg⟩ := gdbPacketAnalysis_read env fuel hconnected h hn
    have hread : registersRead gdb.acked.arm.reg (RegisterRequest.read ds).register
        (registersGetMode gdb.acked.arm.reg) = .error .registerCell :=
      registersRead_noCell hlt hcell
    rw [hrun]
    unfold readSingleRegister readRegister
    rw [hv, ok_bind, hreg, if_pos hlt, hread]
    rfl
  | write ds vs =>
    obtain ⟨rest, hrun⟩ := gdbPacketAnalysis_write env fuel hconnected h hn
    obtain ⟨v, hv⟩ := readUint32_total vs (env.value 0)
    rw [← readUint32_cut rest] at hv
    have hwrite := writeRegister_noCell (g := gdb.acked) (env.value 0) hv hlt hcell
    rw [hrun, hwrite]
    rfl

/-- A register with a cell is read or written, and the request is answered. -/
theorem request_served (hlt : r.register < 16) (hcell : gdb.arm.HasCell r.register) :
    ∃ g q, gdbPacketAnalysis env fuel gdb packet = .ok g ∧ r.Leaves env gdb.arm q ∧
      Replies { gdb.acked with arm := q } (r.reply gdb.arm) g := by
  have hacked : gdb.acked.Connected := (gdb.wrote_connected _).mpr hconnected
  cases r with
  | read ds =>
    obtain ⟨data, v, hrun, hv, hreg⟩ := gdbPacketAnalysis_read env fuel hconnected h hn
    have hread : Ends (readSingleRegister gdb.acked data) _ _ :=
      readSingleRegister_ends hacked hv (hreg ▸ hlt) (hreg ▸ hcell)
    rw [hreg] at hread
    obtain ⟨g, hok, hreply⟩ := hread.exists_ok
    exact ⟨g, gdb.arm, hrun.trans hok, rfl, hreply⟩
  | write ds vs =>
    obtain ⟨rest, hrun⟩ := gdbPacketAnalysis_write env fuel hconnected h hn
    obtain ⟨v, hv⟩ := readUint32_total vs (env.value 0)
    have hv' := hv
    rw [← readUint32_cut rest] at hv'
    obtain ⟨g, hsend, hg⟩ := ((gdbSendData_short { gdb.acked with
      arm := gdb.arm.setGp (RegisterRequest.write ds vs).register v }
      (by decide : ∀ c ∈ text "OK", c ≠ 0) (by decide)).safe fun _ => not_severed hacked).exists_ok
    refine ⟨g, _, ?_, ⟨v, hv, rfl⟩, hg⟩
    have hwrite := writeRegister_hasCell (g := gdb.acked) (env.value 0) hv' hlt hcell
    rw [hrun, hwrite]
    exact hsend

end requests

/-- A state tells its last reply. -/
theorem Replies.unique {gdb g : Gdb} {s t : List Byte} (hs : Replies gdb s g)
    (ht : Replies gdb t g) : s = t := by
  have hlast := List.append_cancel_left (hs.sent_eq.symm.trans ht.sent_eq)
  apply frame_injective
  simpa using hlast

theorem hexText_word_injective {v w : Word} (h : hexText 8 v.toNat = hexText 8 w.toNat) :
    v = w := by
  have hvalue := congrArg hexValue h
  rw [hexValue_hexText (n := 8) v.isLt, hexValue_hexText (n := 8) w.isLt] at hvalue
  exact BitVec.eq_of_toNat_eq hvalue

/-- The digits of a word of at most eight characters are read as the word. -/
theorem readUint32_numeral {dv : List Byte} {v : Word} (hv : Numeral dv v.toNat)
    (hlen : dv.length ≤ 8) (value : Word) : readUint32 (dv ++ [0]) value = .ok v := by
  have hnul : ∀ c ∈ dv, c ≠ 0 := fun c hc => ne_of_isHex (hv.digits c hc) (by decide)
  have hlt := v.isLt
  -- The cap of `strtoul` is above every word.
  have hmin : min (hexValue dv) (2^64 - 1) = v.toNat := by
    rw [hv.value]
    omega
  unfold readUint32 sscanfX
  rw [cString_append hnul, ok_bind, scanHex_short hv.ne_nil hv.digits hlen, hmin]
  simp

section access
variable [Platform] (env env' env'' : GdbEnv) (fuel fuel' fuel'' : ℕ) {gdb : Gdb}
variable {packet packet' packet'' ds ds' dv args : List Byte} {n : ℕ} {v : Word}

theorem readRegister_keeps (gdb : Gdb) (position reg : ℕ) :
    Ends (readRegister gdb position reg) (fun g => g.arm = gdb.arm) (fun _ => True) := by
  unfold readRegister
  apply ends_ite
  · intro _
    apply (ends_trivial _).bind
    intro value _
    apply (gdb.put_ends position _).mono
    · rintro g ⟨packet, rfl, -⟩
      rfl
    · exact fun _ _ => trivial
  · exact fun _ => trivial

/-- `g` needs a cell for every register, so it never answers in the fast interrupt's mode. -/
theorem readGeneralRegisters_fiq (hbank : gdb.arm.bank = 6) (data : List Byte) (g : Gdb) :
    readGeneralRegisters gdb data ≠ .ok g := by
  have hloop : Ends ((List.range 16).foldlM (fun (s : Gdb × ℕ) i =>
      (readRegister s.1 s.2 i >>= fun g => pure (g, s.2 + 8))) (gdb, 1))
      (fun s => 16 ≤ SP ∧ s.1.arm = gdb.arm) (fun _ => True) := by
    apply ends_foldlM_range (fun k (s : Gdb × ℕ) => k ≤ SP ∧ s.1.arm = gdb.arm)
    · exact ⟨Nat.zero_le _, rfl⟩
    · rintro i hi ⟨g, position⟩ ⟨hle, harm⟩
      dsimp only at harm ⊢
      -- The turn for `r13` fails.
      by_cases hsp : i = SP
      · have hcell : ¬gdb.arm.HasCell i := fun hcell => (hcell hbank).1 hsp
        unfold readRegister
        rw [if_pos hi, harm, registersRead_noCell hi hcell]
        trivial
      · apply (readRegister_keeps g position i).bind
        intro g' hg'
        exact ⟨Nat.lt_of_le_of_ne hle hsp, hg'.trans harm⟩
  intro hok
  unfold readGeneralRegisters at hok
  obtain ⟨s, hs, -⟩ := bind_eq_ok.mp hok
  exact absurd (hloop.value hs).1 (by decide)

/-- After `P n=v` the answer to `p n` is `v`, the answer to `g` has `v` in its field `n`, and every
other register is as before. -/
def AccessAgrees (env env' env'' : GdbEnv) (fuel fuel' fuel'' : ℕ) (gdb : Gdb)
    (packet packet' packet'' : List Byte) (n : ℕ) (v : Word) : Prop :=
  ∃ g g' g'' image, gdbPacketAnalysis env fuel gdb packet = .ok g ∧
    gdbPacketAnalysis env' fuel' g packet' = .ok g' ∧
    gdbPacketAnalysis env'' fuel'' g' packet'' = .ok g'' ∧
    Replies g.acked (hexText 8 v.toNat) g' ∧ Replies g'.acked image g'' ∧
    field 8 n image = hexText 8 v.toNat ∧
    ∀ c, c ≠ bankCell n gdb.arm.bank → g'.arm.reg c = gdb.arm.reg c

/-- `P` writes the register it names, if the mode has a cell for it. -/
theorem write_served (hconnected : gdb.Connected)
    (hP : Carries packet (RegisterRequest.write ds dv).payload) (hn : Numeral ds n) (hlt : n < 16)
    (hv : Numeral dv v.toNat) (hlen : dv.length ≤ 8) (hcell : gdb.arm.HasCell n) :
    ∃ g, gdbPacketAnalysis env fuel gdb packet = .ok g ∧ g.Connected ∧
      g.arm = gdb.arm.setGp n v := by
  have hreg : (RegisterRequest.write ds dv).register = n :=
    RegisterRequest.register_of_lt (r := .write ds dv) hn hlt
  obtain ⟨g, q, hok, ⟨w, hw, hq⟩, hreply⟩ := request_served env fuel hconnected hP hn
    (by rwa [hreg]) (by rwa [hreg])
  obtain rfl : v = w := ok_unique (readUint32_numeral hv hlen _) hw
  refine ⟨g, hok, hreply.connected, ?_⟩
  rw [hreply.arm_eq, ← hreg]
  exact hq

/-- `p` answers the register it finds, which for a number of one letter is `r0`. -/
theorem read_answered (hconnected : gdb.Connected)
    (hp : Carries packet (RegisterRequest.read ds).payload) (hn : Numeral ds n) (hlt : n < 16)
    (hcell : gdb.arm.HasCell n) :
    ∃ g, gdbPacketAnalysis env fuel gdb packet = .ok g ∧
      Replies gdb.acked (hexText 8 (gdb.arm.gp (if n < 10 then n else 0)).toNat) g := by
  have hreg : (RegisterRequest.read ds).register = if n < 10 then n else 0 :=
    RegisterRequest.register_of_lt (r := .read ds) hn hlt
  -- Register 0 has a cell in every mode.
  have hcell' : gdb.arm.HasCell (if n < 10 then n else 0) := by
    split
    · exact hcell
    · exact fun _ => by decide
  obtain ⟨g, q, hok, rfl, hreply⟩ := request_served env fuel hconnected hp hn
    (by rw [hreg]; split <;> omega) (by rwa [hreg])
  have hanswer : Replies gdb.acked
    (hexText 8 (gdb.arm.gp (RegisterRequest.read ds).register).toNat) g := hreply
  rw [hreg] at hanswer
  exact ⟨g, hok, hanswer⟩

/-- What `p` answers behind `P`. -/
theorem written_answered (hconnected : gdb.Connected)
    (hP : Carries packet (RegisterRequest.write ds dv).payload)
    (hp : Carries packet' (RegisterRequest.read ds').payload) (hn : Numeral ds n)
    (hn' : Numeral ds' n) (hlt : n < 16) (hv : Numeral dv v.toNat) (hlen : dv.length ≤ 8)
    (hcell : gdb.arm.HasCell n) :
    ∃ g g', gdbPacketAnalysis env fuel gdb packet = .ok g ∧
      gdbPacketAnalysis env' fuel' g packet' = .ok g' ∧ g'.arm = gdb.arm.setGp n v ∧
      Replies g.acked (hexText 8 (if n < 10 then v else gdb.arm.gp 0).toNat) g' := by
  obtain ⟨g, hok, hconnected', harm⟩ := write_served env fuel hconnected hP hn hlt hv hlen hcell
  have hbank : g.arm.bank = gdb.arm.bank := by
    rw [harm]
    exact setGp_bank_hasCell hlt hcell v
  obtain ⟨g', hok', hreply⟩ := read_answered env' fuel' hconnected' hp hn' hlt
    ((hasCell_congr hbank n).mpr hcell)
  have hvalue : g.arm.gp (if n < 10 then n else 0) = if n < 10 then v else gdb.arm.gp 0 := by
    rw [harm]
    split
    · exact gp_setGp_self_hasCell _ hlt hcell v
    · exact gp_setGp_of_ne_hasCell _ hlt (by decide) hcell (fun _ => by decide) (by omega) v
  rw [hvalue] at hreply
  exact ⟨g, g', hok, hok', hreply.arm_eq.trans harm, hreply⟩

theorem AccessAgrees.connected (hP : Carries packet (RegisterRequest.write ds dv).payload)
    (h : AccessAgrees env env' env'' fuel fuel' fuel'' gdb packet packet' packet'' n v) :
    gdb.Connected := by
  obtain ⟨g, g', g'', image, hok, -⟩ := h
  by_contra hsevered
  rw [gdbPacketAnalysis_severed env fuel gdb hP hsevered] at hok
  cases hok

/-- The answers agree only if `p` finds the value. -/
theorem AccessAgrees.answered (hP : Carries packet (RegisterRequest.write ds dv).payload)
    (hp : Carries packet' (RegisterRequest.read ds').payload) (hn : Numeral ds n)
    (hn' : Numeral ds' n) (hlt : n < 16) (hv : Numeral dv v.toNat) (hlen : dv.length ≤ 8)
    (hcell : gdb.arm.HasCell n)
    (h : AccessAgrees env env' env'' fuel fuel' fuel'' gdb packet packet' packet'' n v) :
    n < 10 ∨ gdb.arm.gp 0 = v := by
  have hconnected := h.connected env env' env'' fuel fuel' fuel'' hP
  obtain ⟨g, g', g'', image, hok, hok', -, hreply, -⟩ := h
  obtain ⟨g₁, g₁', hok₁, hok₁', harm, hreply₁⟩ :=
    written_answered env env' fuel fuel' hconnected hP hp hn hn' hlt hv hlen hcell
  -- Both packets have one result.
  obtain rfl : g = g₁ := ok_unique hok hok₁
  obtain rfl : g' = g₁' := ok_unique hok' hok₁'
  have hvalue := hexText_word_injective (hreply.unique hreply₁)
  by_cases h10 : n < 10
  · exact Or.inl h10
  · rw [if_neg h10] at hvalue
    exact Or.inr hvalue.symm

/-- `g` answers an image with the registers in their fields. -/
theorem image_field (hconnected : gdb.Connected) (hg : Carries packet (0x67 :: args))
    (hbank : gdb.arm.bank < 6) (hlt : n < 16) :
    ∃ g image, gdbPacketAnalysis env fuel gdb packet = .ok g ∧ Replies gdb.acked image g ∧
      field 8 n image = hexText 8 (gdb.arm.gp n).toNat := by
  have hhandle : handler env fuel 0x67 = some readGeneralRegisters := rfl
  obtain ⟨rest, hrun⟩ := gdbPacketAnalysis_command env fuel gdb hg hhandle hconnected
  obtain ⟨g, hok, hreply⟩ := ((readGeneralRegisters_ends gdb.acked
    (args ++ 0 :: rest)).safe (fun e he => he.elim (not_readFails hbank e)
      (not_severed ((gdb.wrote_connected _).mpr hconnected)))).exists_ok
  have hregister : registerValue gdb.acked.arm.reg n = gdb.arm.gp n :=
    registerValue_eq hlt hbank
  refine ⟨g, _, hrun.trans hok, hreply, ?_⟩
  unfold registerImage
  rw [field_imageText _ _ (Or.inl hlt), if_neg (by omega), hregister]

/-- `p` agrees with `P` and `g` on a connection that no `k` has ended, outside the fast interrupt's
mode, for registers below `r10` and for the others if `r0` happens to hold the value. -/
theorem single_register_iff (hP : Carries packet (RegisterRequest.write ds dv).payload)
    (hp : Carries packet' (RegisterRequest.read ds').payload) (hg : Carries packet'' (0x67 :: args))
    (hn : Numeral ds n) (hn' : Numeral ds' n) (hlt : n < 16) (hv : Numeral dv v.toNat)
    (hlen : dv.length ≤ 8) :
    AccessAgrees env env' env'' fuel fuel' fuel'' gdb packet packet' packet'' n v ↔
      gdb.Connected ∧ gdb.arm.bank ≠ 6 ∧ (n < 10 ∨ gdb.arm.gp 0 = v) := by
  constructor
  · intro hagree
    have hconnected := hagree.connected _ _ _ _ _ _ hP
    have hagree' := hagree
    obtain ⟨g, g', g'', image, hok, hok', hok'', -⟩ := hagree'
    -- Without a cell the first packet ends the run.
    have hcell : gdb.arm.HasCell n := by
      by_contra hcell
      have hreg : (RegisterRequest.write ds dv).register = n :=
        RegisterRequest.register_of_lt (r := .write ds dv) hn hlt
      have herror := request_noCell env fuel hconnected hP hn (by rwa [hreg]) (by rwa [hreg])
      cases herror.symm.trans hok
    refine ⟨hconnected, ?_, hagree.answered _ _ _ _ _ _ hP hp hn hn' hlt hv hlen hcell⟩
    intro h6
    -- The mode is the same at `g`, which then fails.
    obtain ⟨g₁, g₁', hok₁, hok₁', harm, -⟩ :=
      written_answered env env' fuel fuel' hconnected hP hp hn hn' hlt hv hlen hcell
    obtain rfl : g = g₁ := ok_unique hok hok₁
    obtain rfl : g' = g₁' := ok_unique hok' hok₁'
    have hreader : handler env'' fuel'' 0x67 = some readGeneralRegisters := rfl
    have hconnected' : g'.Connected := by
      by_contra hsevered
      rw [gdbPacketAnalysis_severed env'' fuel'' g' hg hsevered] at hok''
      cases hok''
    obtain ⟨rest, hrun⟩ := gdbPacketAnalysis_command env'' fuel'' g' hg hreader hconnected'
    have h6' : g'.acked.arm.bank = 6 := by
      change g'.arm.bank = 6
      rw [harm, setGp_bank_hasCell hlt hcell, h6]
    exact readGeneralRegisters_fiq h6' _ _ (hrun.symm.trans hok'')
  · -- In every other mode all sixteen registers have cells, so the three packets are answered.
    rintro ⟨hconnected, h6, hvalue⟩
    have hbank : gdb.arm.bank < 6 := by
      have hlt : gdb.arm.bank < 7 := gdb.arm.reg.bank_lt
      omega
    have hcell := hasCell_of_bank hbank n
    obtain ⟨g, g', hok, hok', harm, hreply⟩ :=
      written_answered env env' fuel fuel' hconnected hP hp hn hn' hlt hv hlen hcell
    have hv' : (if n < 10 then v else gdb.arm.gp 0) = v := by
      rcases hvalue with h10 | h0
      · exact if_pos h10
      · rw [h0, ite_self]
    have hbank' : g'.arm.bank < 6 := by
      rw [harm, setGp_bank_hasCell hlt hcell]
      exact hbank
    obtain ⟨g'', image, hok'', himage, hfield⟩ :=
      image_field env'' fuel'' hreply.connected hg hbank' hlt
    rw [hv'] at hreply
    rw [harm, gp_setGp_self_hasCell _ hlt hcell] at hfield
    refine ⟨g, g', g'', image, hok, hok', hok'', hreply, himage, hfield, ?_⟩
    intro c hc
    rw [harm]
    exact Registers.set_of_ne _ _ hc

end access

/-- `r0` written and read back. -/
theorem single_register_zero : @AccessAgrees makefile zeroEnv zeroEnv zeroEnv 0 0 0
    (gdbInitData (ArmCore.boot 0x10 []) (fun _ => 0) (fun _ => 0))
    (frame (text "P0=2a")) (frame (text "p0")) (frame (text "g")) 0 0x2A := by
  have hzero : Numeral (text "0") 0 := ⟨by decide, by decide, by decide⟩
  have hvalue : Numeral (text "2a") (0x2A : Word).toNat := ⟨by decide, by decide, by decide⟩
  exact (@single_register_iff makefile zeroEnv zeroEnv zeroEnv 0 0 0 _ _ _ _ _ _ _ [] _ _
    (carries_frame _) (carries_frame _) (carries_frame _) hzero hzero (by decide) hvalue
    (by decide)).mpr ⟨gdbInitData_connected _ _ _, by decide, Or.inl (by decide)⟩

/-- The letter `a` is no digit for `p`, which answers `r0` where `P` has written `r10`. -/
theorem single_register_r10 : Carries (frame (text "Pa=1"))
      (RegisterRequest.write (text "a") (text "1")).payload ∧
    Carries (frame (text "pa")) (RegisterRequest.read (text "a")).payload ∧
    Carries (frame (text "g")) [0x67] ∧ Numeral (text "a") 10 ∧
    Numeral (text "1") (1 : Word).toNat ∧
    ¬@AccessAgrees makefile zeroEnv zeroEnv zeroEnv 0 0 0
      (gdbInitData (ArmCore.boot 0x10 []) (fun _ => 0) (fun _ => 0))
      (frame (text "Pa=1")) (frame (text "pa")) (frame (text "g")) 10 1 := by
  have hten : Numeral (text "a") 10 := ⟨by decide, by decide, by decide⟩
  have hvalue : Numeral (text "1") (1 : Word).toNat := ⟨by decide, by decide, by decide⟩
  refine ⟨carries_frame _, carries_frame _, carries_frame _, hten, hvalue, ?_⟩
  intro hagree
  have hcond := @AccessAgrees.answered makefile zeroEnv zeroEnv zeroEnv 0 0 0 _ _ _ _ _ _ _ _ _
    (carries_frame _) (carries_frame _) hten hten (by decide) hvalue (by decide)
    (fun h6 => absurd h6 (by decide)) hagree
  exact absurd hcond (by decide)

section safety
variable [Platform] (env : GdbEnv) (fuel : ℕ) {gdb : Gdb} {packet : List Byte} {n : ℕ}

/-- No assertion fails, and for a number that is none of a register's a frame is sent and the
machine stays as it is. -/
def RequestSafe (env : GdbEnv) (fuel : ℕ) (gdb : Gdb) (packet : List Byte) (n : ℕ) : Prop :=
  gdbPacketAnalysis env fuel gdb packet ≠ .error .assertion ∧
  (16 ≤ n → ∃ g s, gdbPacketAnalysis env fuel gdb packet = .ok g ∧
    g.sent = gdb.sent ++ [.written [0x2B], .written (frame s)] ∧ g.arm = gdb.arm)

/-- The value to write is what the register holds. -/
def RegisterRequest.Repeats (env : GdbEnv) (p : ArmCore) : RegisterRequest → Prop
  | read _ => True
  | write ds vs => readUint32 (vs ++ [0]) (env.value 0) = .ok (p.gp (write ds vs).register)

theorem leaves_same_iff {r : RegisterRequest} {p q : ArmCore} (hr : r.register < 16)
    (hcell : p.HasCell r.register) (hq : r.Leaves env p q) : q = p ↔ r.Repeats env p := by
  cases r with
  | read ds => exact iff_of_true hq trivial
  | write ds vs =>
    obtain ⟨v, hv, rfl⟩ := hq
    unfold RegisterRequest.Repeats
    dsimp only
    rw [hv, Except.ok.injEq]
    constructor
    · -- The register tells which value was written.
      intro hsame
      have hgp := gp_setGp_self_hasCell p hr hcell v
      rw [hsame] at hgp
      exact hgp.symm
    · intro hsame
      rw [hsame]
      exact setGp_gp p _

/-- A request is safe if and only if the register that the handler takes for the number is one of
the sixteen and, where the number itself is not, that one can be accessed without a change.  Behind
a `k` it reaches no handler, and nothing is answered. -/
theorem register_request_iff (r : RegisterRequest) (h : Carries packet r.payload)
    (hn : Numeral r.number n) :
    RequestSafe env fuel gdb packet n ↔ (gdb.Connected → r.register < 16) ∧
      (16 ≤ n → gdb.Connected ∧ gdb.arm.HasCell r.register ∧ r.Repeats env gdb.arm) := by
  by_cases hconnected : gdb.Connected
  case neg =>
    unfold RequestSafe
    rw [gdbPacketAnalysis_severed env fuel gdb h hconnected]
    simp [hconnected]
  constructor
  · rintro ⟨hassert, hanswer⟩
    have hlt : r.register < 16 := by
      by_contra hlt
      exact hassert (request_assertion env fuel hconnected h hn hlt)
    refine ⟨fun _ => hlt, ?_⟩
    intro h16
    obtain ⟨g, s, hok, -, harm⟩ := hanswer h16
    have hcell : gdb.arm.HasCell r.register := by
      by_contra hcell
      cases (request_noCell env fuel hconnected h hn hlt hcell).symm.trans hok
    obtain ⟨g', q, hok', hq, hreply⟩ := request_served env fuel hconnected h hn hlt hcell
    obtain rfl : g = g' := ok_unique hok hok'
    exact ⟨hconnected, hcell, (leaves_same_iff env hlt hcell hq).mp (hreply.arm_eq.symm.trans harm)⟩
  · rintro ⟨hregister, hsame⟩
    have hlt := hregister hconnected
    by_cases hcell : gdb.arm.HasCell r.register
    · obtain ⟨g, q, hok, hq, hreply⟩ := request_served env fuel hconnected h hn hlt hcell
      constructor
      · intro herror
        cases hok.symm.trans herror
      · intro h16
        refine ⟨g, r.reply gdb.arm, hok, ?_, ?_⟩
        · rw [hreply.sent_eq]
          exact List.append_assoc gdb.sent [.written [0x2B]] _
        · rw [hreply.arm_eq]
          exact (leaves_same_iff env hlt hcell hq).mpr (hsame h16).2.2
    · -- A register without a cell ends the run, but in no assertion.
      have herror := request_noCell env fuel hconnected h hn hlt hcell
      constructor
      · intro hassert
        cases herror.symm.trans hassert
      · exact fun h16 => absurd (hsame h16).2.1 hcell

end safety

/-- `p0` reads `r0`. -/
theorem register_request_zero : @RequestSafe makefile zeroEnv 0
    (gdbInitData (ArmCore.boot 0x10 []) (fun _ => 0) (fun _ => 0))
    (frame (RegisterRequest.read (text "0")).payload) 0 :=
  (@register_request_iff makefile zeroEnv 0 _ _ _ (.read (text "0")) (carries_frame _)
    ⟨by decide, by decide, by decide⟩).mpr ⟨fun _ => by decide, fun h => absurd h (by decide)⟩

/-- The debugger asks for the CPSR, which it numbers 25. -/
theorem register_request_cpsr : Carries (frame (RegisterRequest.read (text "19")).payload)
      (RegisterRequest.read (text "19")).payload ∧
    Numeral (RegisterRequest.read (text "19")).number 25 ∧
    ¬@RequestSafe makefile zeroEnv 0
      (gdbInitData (ArmCore.boot 0x10 []) (fun _ => 0) (fun _ => 0))
      (frame (RegisterRequest.read (text "19")).payload) 25 := by
  have hnumber : Numeral (RegisterRequest.read (text "19")).number 25 :=
    ⟨by decide, by decide, by decide⟩
  refine ⟨carries_frame _, hnumber, ?_⟩
  rintro ⟨hassert, -⟩
  exact hassert
    (@request_assertion makefile zeroEnv 0 _ (gdbInitData_connected _ _ _) _ _ _ (carries_frame _)
      hnumber (by decide))

end ArmSim
