import ArmSim.Download

/-! The size of the answer to `m`: two digits for each byte that the memory has, and the frame
around them, in a buffer of fixed size. -/
namespace ArmSim
open Lib

section bytes
variable (mem : Memory) (a : Word) (n : ℕ)

/-- The `n` bytes from address `a` on. -/
def Memory.bytesFrom : List Byte :=
  (List.range n).map (fun j => mem.byteAt (a + BitVec.ofNat 32 j).toNat)

theorem Memory.length_bytesFrom : (mem.bytesFrom a n).length = n := by
  simp [bytesFrom]

theorem Memory.has_bytesFrom : mem.Has a (mem.bytesFrom a n) := by
  intro j c hj
  unfold bytesFrom at hj
  rw [List.getElem?_map, Option.map_eq_some_iff] at hj
  obtain ⟨k, hk, hc⟩ := hj
  obtain ⟨hlt, hk⟩ := List.getElem?_eq_some_iff.mp hk
  rw [List.getElem_range] at hk
  rw [hk]
  exact hc

/-- A read of `n` bytes reaches the end of the memory, or all of them. -/
theorem Memory.reads_bytesFrom (hsize : mem.size < 2^32) (ha : a.toNat < mem.size) :
    mem.Reads a n (mem.bytesFrom a (min n (mem.size - a.toNat))) := by
  have hlen := mem.length_bytesFrom a (min n (mem.size - a.toNat))
  refine ⟨?_, mem.has_bytesFrom a _, ?_⟩
  · apply inRange_of_le
    omega
  · rw [hlen]
    -- Either all of them are there, or the read stops at the first address outside.
    rcases Nat.le_total n (mem.size - a.toNat) with hle | hle
    · exact Or.inl (Nat.min_eq_left hle)
    · rw [Nat.min_eq_right hle]
      rcases Nat.eq_or_lt_of_le hle with heq | hlt
      · exact Or.inl heq
      · right
        refine ⟨hlt, ?_⟩
        rw [BitVec.toNat_add, BitVec.toNat_ofNat]
        omega

end bytes

section reply
variable [Platform] (env : GdbEnv) (fuel : ℕ) (gdb : Gdb) {packet da dn : List Byte} {a n : Word}

/-- The number of bytes that `m a,n` answers, in a memory of `size` bytes. -/
def answeredBytes (size : ℕ) (a n : Word) : ℕ := min n.toNat (size - a.toNat)

/-- `m` overflows the buffer if and only if it is served and answers more than 2045 bytes. -/
theorem readReply_ends (hm : Carries packet (0x6D :: (da ++ 0x2C :: dn)))
    (ha : Numeral da a.toNat) (hn : Numeral dn n.toNat) (hsize : gdb.arm.mem.size < 2^32) :
    Ends (gdbPacketAnalysis env fuel gdb packet)
      (fun _ => answeredBytes gdb.arm.mem.size a n ≤ 2045)
      (fun e => (e = .packetBuffer ∧ gdb.Connected ∧ 2045 < answeredBytes gdb.arm.mem.size a n) ∨
        Severed gdb e) := by
  by_cases hconnected : gdb.Connected
  case neg =>
    rw [gdbPacketAnalysis_severed env fuel gdb hm hconnected]
    exact Or.inr ⟨rfl, hconnected⟩
  have hacked : gdb.acked.Connected := (gdb.wrote_connected _).mpr hconnected
  have hmax : MAX_PACKET_SIZE = 4096 := rfl
  have hhandle : handler env fuel 0x6D = some (readMemory env) := rfl
  obtain ⟨rest, hrun⟩ := gdbPacketAnalysis_command env fuel gdb hm hhandle hconnected
  rw [List.append_assoc, List.cons_append] at hrun
  unfold answeredBytes
  rw [hrun]
  by_cases hstart : a.toNat < gdb.arm.mem.size
  · -- Two digits a byte, four characters of the frame and the NUL: 2045 bytes fit.
    have hlen := gdb.arm.mem.length_bytesFrom a (min n.toNat (gdb.arm.mem.size - a.toNat))
    have hreads := gdb.arm.mem.reads_bytesFrom a n.toNat hsize hstart
    apply (readMemory_ends env gdb.acked ha hn hstart hreads rest).mono
    · rintro g ⟨-, hfit⟩
      omega
    · rintro e (⟨he, hlong⟩ | ⟨-, hsevered⟩)
      · rw [length_hexBytes] at hlong
        exact Or.inl ⟨he, hconnected, by omega⟩
      · exact absurd hsevered (not_severed hacked)
  · -- The answer is an error code.
    have hnul : cString (0 :: rest) = .ok [] := rfl
    have hscan := sscanfXX_numerals ha hn hnul (fun c s hs => by cases hs) env.address env.size
    have hnone : gdb.arm.mem.size - a.toNat = 0 := Nat.sub_eq_zero_of_le (Nat.not_lt.mp hstart)
    have hsend := gdbSendData_short gdb.acked (s := text "E0E") (by decide) (by decide)
    have hoverrun : ¬a.toNat < gdb.acked.arm.mem.size := hstart
    unfold readMemory
    rw [hscan, ok_bind]
    dsimp only
    rw [if_neg hoverrun, hnone, Nat.min_zero]
    exact hsend.mono (fun _ _ => Nat.zero_le _) (fun _ he => absurd he (not_severed hacked))

theorem readReply_overflows (hm : Carries packet (0x6D :: (da ++ 0x2C :: dn)))
    (ha : Numeral da a.toNat) (hn : Numeral dn n.toNat) (hsize : gdb.arm.mem.size < 2^32)
    (hconnected : gdb.Connected) (hlong : 2045 < answeredBytes gdb.arm.mem.size a n) :
    gdbPacketAnalysis env fuel gdb packet = .error .packetBuffer := by
  have hends := readReply_ends env fuel gdb hm ha hn hsize
  cases hres : gdbPacketAnalysis env fuel gdb packet with
  | ok g => exact absurd (hends.value hres) (Nat.not_le.mpr hlong)
  | error e =>
    rcases hends.fault hres with ⟨he, -⟩ | hsevered
    · rw [he]
    · exact absurd hsevered (not_severed hconnected)

/-- In the simulator's memory the answer stays inside the buffer if and only if the address is
outside, or at most 2045 bytes are asked for or left; or there is no answer, because the connection
has been shut down. -/
theorem read_reply_iff (hm : Carries packet (0x6D :: (da ++ 0x2C :: dn)))
    (ha : Numeral da a.toNat) (hn : Numeral dn n.toNat) (hsize : gdb.arm.mem.size = 0x8000) :
    gdbPacketAnalysis env fuel gdb packet ≠ .error .packetBuffer ↔
      0x8000 ≤ a.toNat ∨ min n.toNat (0x8000 - a.toNat) ≤ 2045 ∨ ¬gdb.Connected := by
  have hlt : gdb.arm.mem.size < 2^32 := by omega
  have hbytes : answeredBytes gdb.arm.mem.size a n = min n.toNat (0x8000 - a.toNat) := by
    rw [hsize]
    rfl
  constructor
  · intro hne
    by_contra hfit
    push Not at hfit
    obtain ⟨hstart, hlong, hconnected⟩ := hfit
    exact hne (readReply_overflows env fuel gdb hm ha hn hlt hconnected (by omega))
  · intro hfit herror
    rcases (readReply_ends env fuel gdb hm ha hn hlt).fault herror with ⟨-, hconnected, hlong⟩ | he
    · rcases hfit with hstart | hshort | hsevered
      · omega
      · omega
      · exact hsevered hconnected
    · exact GdbFault.noConfusion he.1

end reply

/-- A machine with the simulator's memory, all zeros. -/
def simulatorGdb : Gdb :=
  gdbInitData (ArmCore.boot 0x10 (List.replicate 0x8000 0)) (fun _ => 0) (fun _ => 0)

theorem simulatorGdb_size : simulatorGdb.arm.mem.size = 0x8000 := List.length_replicate

/-- The bytes at the start of the memory. -/
theorem read_reply_four :
    @gdbPacketAnalysis makefile zeroEnv 0 simulatorGdb (frame (text "m0,4")) ≠
      .error .packetBuffer := by
  have hzero : Numeral (text "0") (0 : Word).toNat := ⟨by decide, by decide, by decide⟩
  have hfour : Numeral (text "4") (4 : Word).toNat := ⟨by decide, by decide, by decide⟩
  exact (@read_reply_iff makefile zeroEnv 0 simulatorGdb _ _ _ _ _ (carries_frame _) hzero hfour
    simulatorGdb_size).mpr (Or.inr (Or.inl (by decide)))

/-- With 2046 bytes the NUL behind the checksum has no place. -/
theorem read_reply_2046 : Carries (frame (text "m0,7fe")) (text "m0,7fe") ∧
    Numeral (text "0") (0 : Word).toNat ∧ Numeral (text "7fe") (0x7FE : Word).toNat ∧
    simulatorGdb.arm.mem.size = 0x8000 ∧
    @gdbPacketAnalysis makefile zeroEnv 0 simulatorGdb (frame (text "m0,7fe")) =
      .error .packetBuffer := by
  have hzero : Numeral (text "0") (0 : Word).toNat := ⟨by decide, by decide, by decide⟩
  have hmany : Numeral (text "7fe") (0x7FE : Word).toNat := ⟨by decide, by decide, by decide⟩
  have hsize := simulatorGdb_size
  refine ⟨carries_frame _, hzero, hmany, hsize, ?_⟩
  apply @readReply_overflows makefile zeroEnv 0 simulatorGdb _ _ _ _ _
    (carries_frame (text "m0,7fe")) hzero hmany (by omega)
    (gdbInitData_connected _ _ _)
  rw [hsize]
  decide

end ArmSim
