import ArmSim.Lib.TextReader
import ArmSim.PacketAnalysis
import ArmSim.Step

/-! The register image of the debugger: `G` writes it field by field through the bank of the mode
it finds, `g` reads it through the bank of the mode that `G` leaves. -/
namespace ArmSim
open Lib

/-- The fields with a meaning: the general registers and the CPSR. -/
def ImageField (i : ℕ) : Prop := i < 16 ∨ i = 41

/-- Forty-two fields of eight characters, digits where the fields have a meaning. -/
structure IsImage (image : List Byte) : Prop where
  length_eq : image.length = 336
  digits : ∀ i, ImageField i → ∀ c ∈ field 8 i image, isHex c = true

/-- The value of a field. -/
def imageWord (image : List Byte) (i : ℕ) : Word := BitVec.ofNat 32 (hexValue (field 8 i image))

section image
variable {image : List Byte} (himage : IsImage image) {i : ℕ} (hi : ImageField i)
include himage hi

theorem IsImage.length_field : (field 8 i image).length = 8 := by
  have hlen := himage.length_eq
  apply Lib.length_field
  rcases hi with h | h <;> omega

theorem IsImage.hexValue_lt : hexValue (field 8 i image) < 2^32 := by
  have hlt := ArmSim.hexValue_lt (himage.digits i hi)
  rwa [himage.length_field hi] at hlt

/-- `read_uint32` at a field reads its value. -/
theorem readUint32_field (rest : List Byte) (value : Word) :
    readUint32 ((image ++ 0 :: rest).drop (8 * i)) value = .ok (imageWord image i) := by
  have hlen := himage.length_eq
  have hwidth := himage.length_field hi
  have hdigits := himage.digits i hi
  have hin : 8 * i ≤ image.length := by
    rcases hi with h | h <;> omega
  have hsplit : (image ++ 0 :: rest).drop (8 * i) =
      field 8 i image ++ (image.drop (8 * (i + 1)) ++ 0 :: rest) := by
    rw [List.drop_append_of_le_length hin, drop_eq_field_append, List.append_assoc]
  obtain ⟨t, ht⟩ := cString_total (image.drop (8 * (i + 1))) rest
  -- `sscanf` looks for the end of the string, and then converts eight characters of it.
  have htext := cString_lead (fun c hc => (isHex_ne (hdigits c hc)).2.2.2.2.2.1) ht
  have hlt : hexValue (field 8 i image) < 2^64 :=
    (himage.hexValue_lt hi).trans (by decide)
  have hscan := scanHex_width t (by omega) hdigits hlt
  rw [hwidth] at hscan
  unfold readUint32 sscanfX
  rw [hsplit, htext, ok_bind, hscan]
  rfl

end image

section text
variable (value : ℕ → Word) (cpsr : Word)

theorem field_hexText (v : ℕ) : field 8 0 (hexText 8 v) = hexText 8 v :=
  List.take_of_length_le (by simp)

theorem field_wordFields {i k : ℕ} (h : i < k) :
    field 8 i (wordFields value k) = hexText 8 (value i).toNat := by
  induction k with
  | zero => exact absurd h (Nat.not_lt_zero i)
  | succ k ih =>
    have hlen := length_wordFields value k
    rw [wordFields_succ]
    rcases Nat.lt_succ_iff_lt_or_eq.mp h with hlt | rfl
    · rw [field_append_left _ _ _ (by omega), ih hlt]
    · exact (field_append_right 8 0 _ hlen).trans (field_hexText _)

theorem field_imageText {i : ℕ} (hi : ImageField i) :
    field 8 i (imageText value cpsr) = hexText 8 (if i = 41 then cpsr else value i).toNat := by
  have hregisters := length_wordFields value 16
  have hlen : (wordFields value 16 ++ filler 25).length = 8 * 41 := by
    rw [List.length_append, hregisters, length_filler]
  unfold imageText
  rcases hi with hi | rfl
  · rw [field_append_left _ _ _ (by omega), field_append_left _ _ _ (by omega),
      field_wordFields value hi, if_neg (by omega)]
  · rw [if_pos rfl]
    exact (field_append_right 8 0 _ hlen).trans (field_hexText _)

theorem isImage_imageText : IsImage (imageText value cpsr) := by
  refine ⟨length_imageText value cpsr, ?_⟩
  intro i hi
  rw [field_imageText value cpsr hi]
  exact isHex_hexText 8 _

/-- The fields of a written image are read back. -/
theorem imageWord_imageText {i : ℕ} (hi : ImageField i) :
    imageWord (imageText value cpsr) i = if i = 41 then cpsr else value i := by
  have hlt := (if i = 41 then cpsr else value i).isLt
  unfold imageWord
  rw [field_imageText value cpsr hi, hexValue_hexText (n := 8) hlt, BitVec.ofNat_toNat,
    BitVec.setWidth_eq]

end text

/-- The skipped fields are twenty-five. -/
theorem skippedFields (position : List Byte) :
    ((List.range 8).foldl (fun position _ =>
      (List.range 3).foldl (fun (position : List Byte) _ => position.drop 8) position)
        (position.drop (8 * 16))).drop 8 = position.drop (8 * 41) := by
  simp [List.range_succ, List.drop_drop]

section write
variable [Platform] {p : ArmCore} {image : List Byte}

/-- `G` reads field by field, at the multiples of eight. -/
theorem writeGeneralRegisters_eq (env : GdbEnv) (gdb : Gdb) (data : List Byte) :
    writeGeneralRegisters env gdb data =
      ((List.range 16).foldlM
        (fun g i => writeRegister g i (data.drop (8 * i)) (env.value i)) gdb >>= fun g =>
          readUint32 (data.drop (8 * 41)) (env.value 16) >>= fun value =>
            gdbSendData { g with arm := { g.arm with reg := registersWriteCpsr g.arm.reg value } }
              (text "OK")) := by
  have hfields := foldlM_fields (fun g i data => writeRegister g i data (env.value i)) 8 data gdb 16
  have hskipped := skippedFields data
  unfold writeGeneralRegisters
  dsimp only
  rw [hfields]
  cases (List.range 16).foldlM (fun g i => writeRegister g i (data.drop (8 * i)) (env.value i))
    gdb with
  | error e => rfl
  | ok g =>
    simp only [ok_bind, pure_eq_ok]
    rw [hskipped]

/-- `r` has the first `k` fields in the current bank of `p`, and is `p`'s elsewhere. -/
structure Loaded (p : ArmCore) (image : List Byte) (k : ℕ) (r : Registers) : Prop where
  written : ∀ i < k, r.get (bankCell i p.bank) = imageWord image i
  kept : ∀ c, (∀ i < k, c ≠ bankCell i p.bank) → r c = p.reg c

theorem Loaded.bank_eq {k : ℕ} {r : Registers} (h : Loaded p image k r) (hk : k ≤ 16)
    (hbank : p.bank < 6) : r.bank = p.bank := by
  have hcpsr : r cpsrCell = p.reg cpsrCell :=
    h.kept cpsrCell (fun i hi => (bankCell_ne_cpsr (by omega) hbank).symm)
  exact Registers.bank_congr (congrArg (fun x : Word => x.toNat % 2^6) hcpsr)

theorem Loaded.succ {k : ℕ} {r : Registers} (h : Loaded p image k r) (hk : k < 16)
    (hbank : p.bank < 6) :
    Loaded p image (k + 1) (r.set (bankCell k p.bank) (imageWord image k)) := by
  constructor
  · intro i hi
    rcases Nat.lt_succ_iff_lt_or_eq.mp hi with hlt | rfl
    · have hne := bankCell_ne (by omega) hk hbank hbank (Nat.ne_of_lt hlt)
      rw [Registers.get_set_of_ne _ _ hne]
      exact h.written i hlt
    · exact Registers.get_set_self _ _ _
  · intro c hc
    rw [Registers.set_of_ne _ _ (hc k (Nat.lt_succ_self k))]
    exact h.kept c (fun i hi => hc i (Nat.lt_succ_of_lt hi))

variable (env : GdbEnv) {gdb : Gdb} (himage : IsImage image) (rest : List Byte)
include himage

/-- The loop of `write_general_registers`. -/
theorem writeRegisters_ends (hbank : gdb.arm.bank < 6) :
    Ends ((List.range 16).foldlM (fun g i =>
      writeRegister g i ((image ++ 0 :: rest).drop (8 * i)) (env.value i)) gdb)
      (fun g => ∃ r, Loaded gdb.arm image 16 r ∧
        g = { gdb with arm := { gdb.arm with reg := r } })
      (fun _ => False) := by
  apply ends_foldlM_range (fun k (g : Gdb) =>
    ∃ r, Loaded gdb.arm image k r ∧ g = { gdb with arm := { gdb.arm with reg := r } })
  · refine ⟨gdb.arm.reg, ⟨?_, fun _ _ => rfl⟩, rfl⟩
    exact fun i hi => absurd hi (Nat.not_lt_zero i)
  · rintro i hi g ⟨r, hr, rfl⟩
    -- The CPSR is written last: every field goes through the bank of the start.
    have hmode : getReadWriteMode (registersGetMode r) = gdb.arm.bank :=
      hr.bank_eq (Nat.le_of_lt hi) hbank
    have hwrite : registersWrite r i (registersGetMode r) (imageWord image i) =
        .ok (r.set (bankCell i gdb.arm.bank) (imageWord image i)) := by
      rw [registersWrite_eq, hmode, bankPointer_general hi hbank, ok_bind]
    unfold writeRegister
    rw [readUint32_field himage (Or.inl hi), ok_bind, if_pos hi]
    dsimp only
    rw [hwrite]
    exact ⟨_, hr.succ hi hbank, rfl⟩

/-- `G` loads the registers through the bank it finds, and then the CPSR. -/
theorem writeGeneralRegisters_ends (hbank : gdb.arm.bank < 6) (hconnected : gdb.Connected) :
    Ends (writeGeneralRegisters env gdb (image ++ 0 :: rest))
      (fun g => g.Connected ∧ ∃ r, Loaded gdb.arm image 16 r ∧
        g.arm = { gdb.arm with reg := registersWriteCpsr r (imageWord image 41) })
      (fun _ => False) := by
  rw [writeGeneralRegisters_eq]
  apply (writeRegisters_ends env himage rest hbank).bind
  rintro g ⟨r, hr, rfl⟩
  rw [readUint32_field himage (Or.inr rfl), ok_bind]
  apply (gdbSendData_short _ (by decide : ∀ c ∈ text "OK", c ≠ 0) (by decide)).mono
  · intro g' hreplies
    exact ⟨hreplies.connected, r, hr, hreplies.arm_eq⟩
  · exact fun _ => not_severed hconnected

end write

section read
variable [Platform] {r : Registers}

theorem registersRead_current {reg : ℕ} (hreg : reg < 16) (hbank : r.bank < 6) :
    registersRead r reg (registersGetMode r) = .ok (r.get (bankCell reg r.bank)) := by
  rw [registersRead_eq]
  change (bankPointer reg r.bank >>= _) = _
  rw [bankPointer_general hreg hbank, ok_bind]

theorem registerValue_eq {reg : ℕ} (hreg : reg < 16) (hbank : r.bank < 6) :
    registerValue r reg = r.get (bankCell reg r.bank) := by
  unfold registerValue
  rw [registersRead_current hreg hbank]

theorem not_readFails (hbank : r.bank < 6) (e : GdbFault) : ¬ReadFails r e := by
  rintro ⟨reg, hreg, c, hread, -⟩
  rw [registersRead_current hreg hbank] at hread
  cases hread

end read

theorem frame_injective {s t : List Byte} (h : frame s = frame t) : s = t :=
  (List.append_inj' (List.cons.inj h).2 (by simp)).1

/-- The mode field of a CPSR names a mode other than the fast interrupt's. -/
def NamesMode (cpsr : Word) : Prop :=
  getBits cpsr 4 0 ∈ [Mode.USR, Mode.SYS, Mode.SVC, Mode.ABT, Mode.UND, Mode.IRQ]

instance (cpsr : Word) : Decidable (NamesMode cpsr) := inferInstanceAs (Decidable (_ ∈ _))

theorem bankOf_lt {cpsr : Word} (h : NamesMode cpsr) : bankOf cpsr < 6 := by
  have hall : ∀ m < 64, m % 32 ∈ [Mode.USR, Mode.SYS, Mode.SVC, Mode.ABT, Mode.UND, Mode.IRQ] →
      getReadWriteMode m < 6 := by decide
  have hfield : getBits cpsr 5 0 % 32 = getBits cpsr 4 0 := by
    simp only [getBits_eq, Nat.pow_zero, Nat.div_one]
    omega
  apply hall
  · rw [getBits_eq]
    exact Nat.mod_lt _ (by decide)
  · rw [hfield]
    exact h

section roundTrip
variable [Platform]

/-- `G` with the image `image` and then `g`: the answer has the same fields. -/
def RoundTrips (env env' : GdbEnv) (fuel fuel' : ℕ) (gdb : Gdb) (packet packet' image : List Byte) :
    Prop :=
  ∃ g g' answer, gdbPacketAnalysis env fuel gdb packet = .ok g ∧
    gdbPacketAnalysis env' fuel' g packet' = .ok g' ∧
    g'.sent = g.sent ++ [.written [0x2B], .written (frame answer)] ∧ IsImage answer ∧
    ∀ i, ImageField i → imageWord answer i = imageWord image i

section fields
variable {p : ArmCore} {image : List Byte} {r : Registers} (hr : Loaded p image 16 r)
  (hnow : p.bank < 6) (hnew : bankOf (imageWord image 41) < 6)
include hnew

/-- `g` reads the loaded registers through the bank of the mode that the image names. -/
theorem imageWord_answer {i : ℕ} (hi : i < 16) :
    imageWord (registerImage (registersWriteCpsr r (imageWord image 41))) i =
      r.get (bankCell i (bankOf (imageWord image 41))) := by
  have hbank : (registersWriteCpsr r (imageWord image 41)).bank = bankOf (imageWord image 41) := rfl
  have hcell : registersWriteCpsr r (imageWord image 41)
      (bankCell i (bankOf (imageWord image 41))) = r (bankCell i (bankOf (imageWord image 41))) :=
    Function.update_of_ne (bankCell_ne_cpsr hi hnew) _ _
  unfold registerImage
  rw [imageWord_imageText _ _ (Or.inl hi), if_neg (by omega),
    registerValue_eq hi (by rw [hbank]; exact hnew), hbank]
  exact Registers.get_congr hcell

include hr

/-- The written registers are found where the cell of the new bank is that of the old one. -/
theorem imageWord_answer_of_eq {i : ℕ} (hi : i < 16)
    (hcell : bankCell i (bankOf (imageWord image 41)) = bankCell i p.bank) :
    imageWord (registerImage (registersWriteCpsr r (imageWord image 41))) i =
      imageWord image i := by
  rw [imageWord_answer hnew hi, hcell]
  exact hr.written i hi

include hnow

/-- Elsewhere the answer is what stood in the new bank before. -/
theorem imageWord_answer_of_ne {reg : ℕ} (hreg : reg = SP ∨ reg = LR)
    (hstack : ¬SameStack p.bank (bankOf (imageWord image 41))) :
    imageWord (registerImage (registersWriteCpsr r (imageWord image 41))) reg =
      p.reg.get (bankCell reg (bankOf (imageWord image 41))) := by
  have hlt : reg < 16 := by
    rcases hreg with rfl | rfl <;> decide
  rw [imageWord_answer hnew hlt]
  apply Registers.get_congr
  apply hr.kept
  -- The loop wrote no cell of the new bank's own.
  intro i hi heq
  rcases Decidable.eq_or_ne reg i with rfl | hne
  · exact hstack ((bankCell_banked hreg hnow hnew).mp heq.symm)
  · exact bankCell_ne hlt hi hnew hnow hne heq

theorem answer_fields_iff :
    (∀ i, ImageField i → imageWord (registerImage (registersWriteCpsr r (imageWord image 41))) i =
      imageWord image i) ↔
    SameStack p.bank (bankOf (imageWord image 41)) ∨ ∀ reg, reg = SP ∨ reg = LR →
      p.reg.get (bankCell reg (bankOf (imageWord image 41))) = imageWord image reg := by
  constructor
  · intro hall
    by_cases hstack : SameStack p.bank (bankOf (imageWord image 41))
    · exact Or.inl hstack
    · right
      intro reg hreg
      have hlt : reg < 16 := by
        rcases hreg with rfl | rfl <;> decide
      rw [← imageWord_answer_of_ne hr hnow hnew hreg hstack]
      exact hall reg (Or.inl hlt)
  · rintro hcond i (hi | rfl)
    · by_cases hreg : i = SP ∨ i = LR
      · by_cases hstack : SameStack p.bank (bankOf (imageWord image 41))
        · have hcell := (bankCell_banked hreg hnow hnew).mpr hstack
          exact imageWord_answer_of_eq hr hnew hi hcell.symm
        · rw [imageWord_answer_of_ne hr hnow hnew hreg hstack]
          exact hcond.resolve_left hstack i hreg
      · obtain ⟨hsp, hlr⟩ := not_or.mp hreg
        exact imageWord_answer_of_eq hr hnew hi (bankCell_shared hi hsp hlr hnew hnow)
    · exact imageWord_imageText _ _ (Or.inr rfl)

end fields

variable (env env' : GdbEnv) (fuel fuel' : ℕ) {gdb : Gdb} {packet packet' image args : List Byte}

theorem image_answered (hconnected : gdb.Connected) (hG : Carries packet (0x47 :: image))
    (hg : Carries packet' (0x67 :: args)) (himage : IsImage image) (hnow : gdb.arm.bank < 6)
    (hnew : bankOf (imageWord image 41) < 6) :
    ∃ g g' r, gdbPacketAnalysis env fuel gdb packet = .ok g ∧
      gdbPacketAnalysis env' fuel' g packet' = .ok g' ∧ Loaded gdb.arm image 16 r ∧
      g'.sent = g.sent ++ [.written [0x2B],
        .written (frame (registerImage (registersWriteCpsr r (imageWord image 41))))] := by
  have hwriter : handler env fuel 0x47 = some (writeGeneralRegisters env) := rfl
  have hreader : handler env' fuel' 0x67 = some readGeneralRegisters := rfl
  obtain ⟨rest, hwrite⟩ := gdbPacketAnalysis_command env fuel gdb hG hwriter hconnected
  have hload : Ends (writeGeneralRegisters env gdb.acked (image ++ 0 :: rest)) _ _ :=
    writeGeneralRegisters_ends env himage rest hnow ((gdb.wrote_connected _).mpr hconnected)
  obtain ⟨g, hok, hconnected', r, hr, harm⟩ := hload.exists_ok
  obtain ⟨rest', hread⟩ := gdbPacketAnalysis_command env' fuel' g hg hreader hconnected'
  have hreg : g.acked.arm.reg = registersWriteCpsr r (imageWord image 41) :=
    congrArg ArmCore.reg harm
  have hbank : g.acked.arm.reg.bank < 6 := by
    rw [hreg]
    exact hnew
  have hanswer := (readGeneralRegisters_ends g.acked (args ++ 0 :: rest')).safe (fun e he =>
    he.elim (not_readFails hbank e) (not_severed ((g.wrote_connected _).mpr hconnected')))
  obtain ⟨g', hok', -, answered, -, rfl⟩ := hanswer.exists_ok
  refine ⟨g, _, r, hwrite.trans hok, hread.trans hok', hr, ?_⟩
  rw [← hreg]
  exact List.append_assoc g.sent [.written [0x2B]] _

theorem RoundTrips.connected (hG : Carries packet (0x47 :: image))
    (h : RoundTrips env env' fuel fuel' gdb packet packet' image) : gdb.Connected := by
  obtain ⟨g, g', answer, hwrite, -⟩ := h
  by_contra hsevered
  rw [gdbPacketAnalysis_severed env fuel gdb hG hsevered] at hwrite
  cases hwrite

theorem roundTrips_iff (hconnected : gdb.Connected) (hG : Carries packet (0x47 :: image))
    (hg : Carries packet' (0x67 :: args)) (himage : IsImage image) (hnow : gdb.arm.bank < 6)
    (hnew : bankOf (imageWord image 41) < 6) :
    RoundTrips env env' fuel fuel' gdb packet packet' image ↔
      SameStack gdb.arm.bank (bankOf (imageWord image 41)) ∨ ∀ reg, reg = SP ∨ reg = LR →
        gdb.arm.reg.get (bankCell reg (bankOf (imageWord image 41))) = imageWord image reg := by
  obtain ⟨g, g', r, hwrite, hread, hr, hsent⟩ :=
    image_answered env env' fuel fuel' hconnected hG hg himage hnow hnew
  rw [← answer_fields_iff hr hnow hnew]
  constructor
  · -- Both packets have one result, so the answer is the image of the loaded registers.
    rintro ⟨g₁, g₁', answer, hwrite₁, hread₁, hsent₁, -, hfields⟩
    obtain rfl : g = g₁ := ok_unique hwrite hwrite₁
    obtain rfl : g' = g₁' := ok_unique hread hread₁
    have hframe := List.append_cancel_left (hsent.symm.trans hsent₁)
    have hanswer : registerImage (registersWriteCpsr r (imageWord image 41)) = answer := by
      apply frame_injective
      simpa using hframe
    rwa [hanswer]
  · intro hfields
    exact ⟨g, g', _, hwrite, hread, hsent, isImage_imageText _ _, hfields⟩

/-- In modes other than the fast interrupt's, the fields come back if and only if the packets are
served at all, no `k` having ended the connection, and the current mode and the mode that the image
names have the same `r13` and `r14`, or those of the latter already hold what the image says. -/
theorem register_image_round_trip_iff (hG : Carries packet (0x47 :: image))
    (hg : Carries packet' (0x67 :: args)) (himage : IsImage image) (hnow : NamesMode gdb.arm.cpsr)
    (hnew : NamesMode (imageWord image 41)) :
    RoundTrips env env' fuel fuel' gdb packet packet' image ↔ gdb.Connected ∧
      (SameStack gdb.arm.bank (bankOf (imageWord image 41)) ∨ ∀ reg, reg = SP ∨ reg = LR →
        gdb.arm.reg.get (bankCell reg (bankOf (imageWord image 41))) = imageWord image reg) := by
  have htrips (hconnected : gdb.Connected) := roundTrips_iff env env' fuel fuel' hconnected hG hg
    himage (bankOf_lt hnow) (bankOf_lt hnew)
  constructor
  · intro h
    have hconnected := h.connected env env' fuel fuel' hG
    exact ⟨hconnected, (htrips hconnected).mp h⟩
  · rintro ⟨hconnected, hfields⟩
    exact (htrips hconnected).mpr hfields

end roundTrip

/-- An image of zeros but for `r13` and the CPSR. -/
def stackImage (sp cpsr : Word) : List Byte :=
  imageText (fun reg => if reg = SP then sp else 0) cpsr

theorem stackImage_cpsr (sp cpsr : Word) : imageWord (stackImage sp cpsr) 41 = cpsr :=
  imageWord_imageText _ cpsr (Or.inr rfl)

/-- A debugger that switches the machine from user to system mode. -/
theorem register_image_round_trip_system :
    @RoundTrips makefile zeroEnv zeroEnv 0 0
      (gdbInitData (ArmCore.boot 0x10 []) (fun _ => 0) (fun _ => 0))
      (frame (0x47 :: stackImage 0x1000 0x1F)) (frame [0x67]) (stackImage 0x1000 0x1F) := by
  have hcpsr := stackImage_cpsr 0x1000 0x1F
  have hmode : NamesMode (imageWord (stackImage 0x1000 0x1F) 41) := by
    rw [hcpsr]
    decide
  have himage : IsImage (stackImage 0x1000 0x1F) := isImage_imageText _ _
  apply (@register_image_round_trip_iff makefile zeroEnv zeroEnv 0 0 _ _ _ _ _
    (carries_frame _) (carries_frame _) himage (by decide) hmode).mpr
  refine ⟨gdbInitData_connected _ _ _, Or.inl ?_⟩
  rw [hcpsr]
  decide

/-- A debugger that switches the machine to supervisor mode reads another stack pointer. -/
theorem register_image_sp_lost :
    Carries (frame (0x47 :: stackImage 0x1000 0x13)) (0x47 :: stackImage 0x1000 0x13) ∧
    Carries (frame [0x67]) [0x67] ∧ IsImage (stackImage 0x1000 0x13) ∧
    NamesMode (ArmCore.boot 0x10 []).cpsr ∧ NamesMode (imageWord (stackImage 0x1000 0x13) 41) ∧
    ¬@RoundTrips makefile zeroEnv zeroEnv 0 0
      (gdbInitData (ArmCore.boot 0x10 []) (fun _ => 0) (fun _ => 0))
      (frame (0x47 :: stackImage 0x1000 0x13)) (frame [0x67]) (stackImage 0x1000 0x13) := by
  have hcpsr := stackImage_cpsr 0x1000 0x13
  have hsp : imageWord (stackImage 0x1000 0x13) SP = 0x1000 :=
    imageWord_imageText _ 0x13 (Or.inl (by decide))
  have himage : IsImage (stackImage 0x1000 0x13) := isImage_imageText _ _
  have hmode : NamesMode (imageWord (stackImage 0x1000 0x13) 41) := by
    rw [hcpsr]
    decide
  refine ⟨carries_frame _, carries_frame _, himage, by decide, hmode, ?_⟩
  intro htrip
  have hcond := (@roundTrips_iff makefile zeroEnv zeroEnv 0 0 _ _ _ _ _
    (gdbInitData_connected _ _ _) (carries_frame _) (carries_frame _) himage (by decide)
    (bankOf_lt hmode)).mp htrip
  rw [hcpsr] at hcond
  rcases hcond with hstack | hheld
  · exact absurd hstack (by decide)
  · have hzero := hheld SP (Or.inl rfl)
    rw [hsp] at hzero
    exact absurd hzero (by decide)

end ArmSim
