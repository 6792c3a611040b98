import ArmSim.GdbReply

/-! `gdb_packet_analysis` on the packets that the scanner hands to it: the checksum test, and
the text that a handler finds. -/
namespace ArmSim
open Lib

/-- The text of the packet in memory. -/
def memoryText (env : GdbEnv) (packet : List Byte) : List Byte := packet ++ 0 :: env.rest

/-- The checksum test: the digits behind the `#` are the sum. -/
def ChecksumTest (env : GdbEnv) (packet : List Byte) : Prop :=
  ∃ given, sscanfX none ((memoryText env packet).drop ((packetCheck packet).1 + 1)) env.given =
    .ok given ∧ (packetCheck packet).2.toNat = given.toNat

/-- The command that `gdb_packet_analysis` looks up. -/
def commandOf (env : GdbEnv) (packet : List Byte) : Byte :=
  ((memoryText env packet).set (packetCheck packet).1 0).getD 1 0

/-- What a handler is given behind the command. -/
def commandArgs (env : GdbEnv) (packet : List Byte) : List Byte :=
  ((memoryText env packet).set (packetCheck packet).1 0).drop 2

/-- A packet whose digits are the sum of its payload. -/
def Carries (packet payload : List Byte) : Prop :=
  ∃ h1 h2, packet = packetText payload h1 h2 ∧ isHex h1 = true ∧ isHex h2 = true ∧
    payload.sum.toNat = hexValue [h1, h2]

section checksum
variable (env : GdbEnv) (payload : List Byte) (h1 h2 : Byte)

/-- The loop sums the payload and ends at the `#`. -/
theorem packetCheck_packetText :
    packetCheck (packetText payload h1 h2) = (payload.length + 1, payload.sum) := by
  have hlen : max 1 ((packetText payload h1 h2).length - 3) = payload.length + 1 := by
    simp only [packetText, List.length_cons, List.length_append, List.length_nil]
    omega
  unfold packetCheck
  rw [hlen]
  simp [packetText]

/-- The command is the first character of the payload, or the NUL that goes where the `#` was. -/
theorem commandOf_packetText :
    commandOf env (packetText payload h1 h2) = payload.headD 0 := by
  unfold commandOf memoryText
  rw [packetCheck_packetText]
  cases payload <;> rfl

theorem digits_of_packetText :
    (memoryText env (packetText payload h1 h2)).drop (payload.length + 1 + 1) =
      [h1, h2] ++ 0 :: env.rest := by
  have hsplit : memoryText env (packetText payload h1 h2) =
      (0x24 :: (payload ++ [0x23])) ++ ([h1, h2] ++ 0 :: env.rest) := by
    simp [memoryText, packetText]
  rw [hsplit]
  exact List.drop_left' (by simp)

variable {h1 h2}

/-- The two digits are read whatever follows the packet. -/
theorem sscanfX_digits (hh1 : isHex h1 = true) (hh2 : isHex h2 = true) :
    sscanfX none ([h1, h2] ++ 0 :: env.rest) env.given =
      .ok (BitVec.ofNat 32 (hexValue [h1, h2])) := by
  have hd : ∀ c ∈ [h1, h2], isHex c = true := by simp [hh1, hh2]
  have hscan := scanHex_digits [] (List.cons_ne_nil h1 [h2]) hd
    ((hexValue_lt hd).trans (by simp)) (fun c t h => by cases h)
  rw [List.append_nil] at hscan
  unfold sscanfX
  rw [cString_append (fun c hc => (isHex_ne (hd c hc)).2.2.2.2.2.1), ok_bind, hscan]
  rfl

theorem toNat_digits (hh1 : isHex h1 = true) (hh2 : isHex h2 = true) :
    (BitVec.ofNat 32 (hexValue [h1, h2])).toNat = hexValue [h1, h2] := by
  have hlt : hexValue [h1, h2] < 16^2 := hexValue_lt (by simp [hh1, hh2])
  rw [BitVec.toNat_ofNat, Nat.mod_eq_of_lt (hlt.trans (by decide))]

/-- The test compares the sum of the payload with the number that the digits name. -/
theorem checksumTest_iff (hh1 : isHex h1 = true) (hh2 : isHex h2 = true) :
    ChecksumTest env (packetText payload h1 h2) ↔ payload.sum.toNat = hexValue [h1, h2] := by
  unfold ChecksumTest
  rw [packetCheck_packetText, digits_of_packetText, sscanfX_digits env hh1 hh2]
  simp only [Except.ok.injEq, exists_eq_left', toNat_digits hh1 hh2]

end checksum

theorem frame_eq_packetText (payload : List Byte) : frame payload = packetText payload
    (hexDigit (payload.sum.toNat / 16 % 16)) (hexDigit (payload.sum.toNat % 16)) := rfl

/-- Every frame that `gdb_send_buffer` builds carries its payload. -/
theorem carries_frame (payload : List Byte) : Carries (frame payload) payload := by
  have hlt := payload.sum.isLt
  -- A sum of eight bits has two digits.
  have hhigh := hexDigit_spec (Nat.mod_lt (payload.sum.toNat / 16) (by decide : 0 < 16))
  have hlow := hexDigit_spec (Nat.mod_lt payload.sum.toNat (by decide : 0 < 16))
  exact ⟨_, _, frame_eq_packetText payload, hhigh.1, hlow.1, (hexValue_hexText (n := 2) hlt).symm⟩

theorem checksumTest_frame (env : GdbEnv) (payload : List Byte) :
    ChecksumTest env (frame payload) := by
  obtain ⟨h1, h2, heq, hh1, hh2, hsum⟩ := carries_frame payload
  rw [heq, checksumTest_iff env payload hh1 hh2]
  exact hsum

theorem sum_replace_ne (a b : List Byte) {x y : Byte} (hxy : y ≠ x) :
    (a ++ y :: b).sum ≠ (a ++ x :: b).sum := by
  intro h
  rw [List.sum_append, List.sum_append, List.sum_cons, List.sum_cons] at h
  exact hxy ((BitVec.add_left_inj _).mp ((BitVec.add_right_inj _).mp h))

/-- A packet that passes the test fails it with any one character of its payload changed. -/
theorem checksumTest_replace (env : GdbEnv) (a b : List Byte) (h1 h2 : Byte) {x y : Byte}
    (hxy : y ≠ x) (h : ChecksumTest env (packetText (a ++ x :: b) h1 h2)) :
    ¬ChecksumTest env (packetText (a ++ y :: b) h1 h2) := by
  have hlen : (a ++ y :: b).length = (a ++ x :: b).length := by simp
  rintro ⟨given', hgiven', hsum'⟩
  obtain ⟨given, hgiven, hsum⟩ := h
  rw [packetCheck_packetText] at hsum hgiven hsum' hgiven'
  rw [digits_of_packetText] at hgiven hgiven'
  -- The digits are the same, so both sums would be.
  have heq : given' = given := ok_unique hgiven' hgiven
  rw [heq, ← hsum] at hsum'
  exact sum_replace_ne a b hxy (BitVec.eq_of_toNat_eq hsum')

section analysis
variable [Platform] (env : GdbEnv) (fuel : ℕ) (gdb : Gdb) {h1 h2 : Byte}

/-- An intact packet is acknowledged and handed to its handler. -/
theorem gdbPacketAnalysis_intact {packet : List Byte} (h : ChecksumTest env packet) :
    gdbPacketAnalysis env fuel gdb packet = gdbSendAck gdb >>= fun g =>
      match handler env fuel (commandOf env packet) with
      | some handle => handle g (commandArgs env packet)
      | none => gdbSendData g [] := by
  obtain ⟨given, hgiven, hsum⟩ := h
  unfold gdbPacketAnalysis
  unfold memoryText at hgiven
  dsimp only
  rw [hgiven, ok_bind, if_pos hsum]
  rfl

/-- Any other is asked for again, where its digits can be read. -/
theorem gdbPacketAnalysis_damaged {packet : List Byte} (h : ¬ChecksumTest env packet) :
    gdbPacketAnalysis env fuel gdb packet =
      sscanfX none ((memoryText env packet).drop ((packetCheck packet).1 + 1)) env.given >>=
        fun _ => gdbRequireRetransmission gdb := by
  unfold gdbPacketAnalysis
  change sscanfX none ((memoryText env packet).drop ((packetCheck packet).1 + 1)) env.given >>= _ =
    _
  cases hscan : sscanfX none ((memoryText env packet).drop ((packetCheck packet).1 + 1))
    env.given with
  | error e => rfl
  | ok given => exact if_neg fun hsum => h ⟨given, hscan, hsum⟩

/-- A packet whose digits do not match asks for a retransmission, and does nothing else. -/
theorem gdbPacketAnalysis_bad {payload : List Byte} (hh1 : isHex h1 = true) (hh2 : isHex h2 = true)
    (hsum : payload.sum.toNat ≠ hexValue [h1, h2]) :
    gdbPacketAnalysis env fuel gdb (packetText payload h1 h2) = gdbRequireRetransmission gdb := by
  have hdigits := digits_of_packetText env payload h1 h2
  unfold memoryText at hdigits
  unfold gdbPacketAnalysis
  rw [packetCheck_packetText]
  dsimp only
  rw [hdigits, sscanfX_digits env hh1 hh2, ok_bind, toNat_digits hh1 hh2, if_neg hsum]

/-- A packet whose digits match is acknowledged, and its payload is served. -/
theorem gdbPacketAnalysis_good {payload : List Byte} (hh1 : isHex h1 = true)
    (hh2 : isHex h2 = true) (hsum : payload.sum.toNat = hexValue [h1, h2]) :
    gdbPacketAnalysis env fuel gdb (packetText payload h1 h2) = gdbSendAck gdb >>= fun g =>
      match handler env fuel (payload.headD 0) with
      | some handle => handle g ((payload ++ 0 :: h1 :: h2 :: 0 :: env.rest).drop 1)
      | none => gdbSendData g [] := by
  have hdigits := digits_of_packetText env payload h1 h2
  unfold memoryText at hdigits
  -- The NUL goes where the `#` was.
  have hdata : (packetText payload h1 h2 ++ 0 :: env.rest).set (payload.length + 1) 0 =
      0x24 :: (payload ++ 0 :: h1 :: h2 :: 0 :: env.rest) := by
    simp [packetText]
  have hindex : (payload ++ 0 :: h1 :: h2 :: 0 :: env.rest).getD 0 0 = payload.headD 0 := by
    cases payload <;> rfl
  unfold gdbPacketAnalysis
  rw [packetCheck_packetText]
  dsimp only
  rw [hdigits, sscanfX_digits env hh1 hh2, ok_bind, toNat_digits hh1 hh2, if_pos hsum, hdata,
    List.getD_cons_succ, hindex]
  rfl

/-- A handler finds its arguments, and a NUL behind them. -/
theorem gdbPacketAnalysis_command {packet : List Byte} {c : Byte} {args : List Byte}
    (h : Carries packet (c :: args)) {handle : Gdb → List Byte → Except GdbFault Gdb}
    (hhandle : handler env fuel c = some handle) (hconnected : gdb.Connected) :
    ∃ rest, gdbPacketAnalysis env fuel gdb packet = handle gdb.acked (args ++ 0 :: rest) := by
  obtain ⟨h1, h2, rfl, hh1, hh2, hsum⟩ := h
  refine ⟨h1 :: h2 :: 0 :: env.rest, ?_⟩
  rw [gdbPacketAnalysis_good env fuel gdb hh1 hh2 hsum, gdbSendAck_connected hconnected, ok_bind,
    List.headD_cons, hhandle]
  rfl

/-- Behind a shutdown a packet ends the simulator with its acknowledgement. -/
theorem gdbPacketAnalysis_severed {packet payload : List Byte} (h : Carries packet payload)
    (hsevered : ¬gdb.Connected) : gdbPacketAnalysis env fuel gdb packet = .error .brokenPipe := by
  obtain ⟨h1, h2, rfl, hh1, hh2, hsum⟩ := h
  rw [gdbPacketAnalysis_good env fuel gdb hh1 hh2 hsum, gdbSendAck,
    rioWriten_severed hsevered (List.cons_ne_nil _ _)]
  rfl

end analysis

end ArmSim
