import ArmSim.PacketAnalysis
import ArmSim.Step

/-! A breakpoint that is set once more, by a debugger that has lost the answer: what `Z0` says
and leaves, at every size of the table. -/
namespace ArmSim
open Lib

/-- What `Z0` answers to the result of `gdb_add_breakpoint`. -/
def addedReply (added : ℤ) : List Byte := if added ≠ 0 then text "OK" else text "E04"

theorem addedReply_short (added : ℤ) :
    (∀ c ∈ addedReply added, c ≠ 0) ∧ (addedReply added).length + 5 ≤ MAX_PACKET_SIZE := by
  unfold addedReply
  by_cases hadded : added ≠ 0
  · rw [if_pos hadded]
    decide
  · rw [if_neg hadded]
    decide

theorem gdbSendData_addedReply (gdb : Gdb) (added : ℤ) :
    (if added ≠ 0 then gdbSendData gdb (text "OK") else gdbSendData gdb (text "E04")) =
      gdbSendData gdb (addedReply added) :=
  (apply_ite (gdbSendData gdb) _ _ _).symm

section packets
variable [Platform] {gdb : Gdb} {packet args : List Byte} {address : Word}

/-- `Z0` calls `gdb_add_breakpoint` and reports its result. -/
theorem gdbPacketAnalysis_set (env : GdbEnv) (fuel : ℕ) (hconnected : gdb.Connected)
    (h : Carries packet (0x5A :: args))
    (hscan : sscanfHhxX (args ++ [0]) env.type env.address = .ok (0, address)) {added : ℤ}
    {table : BreakpointTable}
    (hadd : gdbAddBreakpoint gdb.toBreakpointTable address = .ok (added, table)) :
    ∃ g, gdbPacketAnalysis env fuel gdb packet = .ok g ∧
      Replies { gdb.acked with toBreakpointTable := table } (addedReply added) g := by
  have hhandle : handler env fuel 0x5A = some (setBreakpoint env) := rfl
  obtain ⟨rest, hrun⟩ := gdbPacketAnalysis_command env fuel gdb h hhandle hconnected
  have hcall : gdbAddBreakpoint gdb.acked.toBreakpointTable address = .ok (added, table) :=
    hadd
  rw [← sscanfHhxX_cut args rest] at hscan
  unfold setBreakpoint at hrun
  rw [hscan, ok_bind] at hrun
  dsimp only at hrun
  rw [if_neg (not_not.mpr rfl), hcall, ok_bind] at hrun
  dsimp only at hrun
  rw [gdbSendData_addedReply] at hrun
  obtain ⟨hplain, hfit⟩ := addedReply_short added
  have hopen : Gdb.Connected { gdb.acked with toBreakpointTable := table } :=
    (gdb.wrote_connected [0x2B]).mpr hconnected
  obtain ⟨g, hg, hreply⟩ :=
    ((gdbSendData_short _ hplain hfit).safe fun _ => not_severed hopen).exists_ok
  exact ⟨g, hrun.trans hg, hreply⟩

/-- Setting `address` once more is without effect: the call returns 1 and leaves the table, and
every packet that asks for it is answered OK. -/
structure SetsAgain (gdb : Gdb) (address : Word) : Prop where
  unchanged : gdbAddBreakpoint gdb.toBreakpointTable address = .ok (1, gdb.toBreakpointTable)
  answered : ∀ env fuel packet args, Carries packet (0x5A :: args) →
    sscanfHhxX (args ++ [0]) env.type env.address = .ok (0, address) →
      ∃ g, gdbPacketAnalysis env fuel gdb packet = .ok g ∧ Replies gdb.acked (text "OK") g

/-- Where no packet is served any more, none is answered. -/
theorem SetsAgain.connected (h : SetsAgain gdb address) : gdb.Connected := by
  by_contra hsevered
  -- A packet without an address leaves the local variable as it finds it.
  obtain ⟨g, hg, -⟩ := h.answered { zeroEnv with address := address } 0 (frame [0x5A]) []
    (carries_frame _) rfl
  rw [gdbPacketAnalysis_severed _ 0 gdb (carries_frame _) hsevered] at hg
  cases hg

/-- A breakpoint in a table that calls have built is set again without effect if and only if the
table is not full and no `k` has ended the connection. -/
theorem set_again_iff (breakpoints : ℕ → Word) (calls : List TableCall) {results : List ℤ}
    (hrun : runTable ⟨breakpoints, 0⟩ calls = .ok (results, gdb.toBreakpointTable))
    (ha : address ∈ entries gdb.breakpoints gdb.breakpointsNumber) :
    SetsAgain gdb address ↔
      gdb.Connected ∧ gdb.breakpointsNumber < MAX_BREAKPOINTS_NUMBER := by
  obtain ⟨S, -, hS⟩ := (runTable_ends (holds_empty breakpoints) calls).value hrun
  dsimp only at hS
  rw [hS.entries_eq] at ha
  have hadd := gdbAddBreakpoint_member_iff hS ha
  constructor
  · intro h
    exact ⟨h.connected, hadd.mp h.unchanged⟩
  · rintro ⟨hconnected, hlt⟩
    have hunchanged := hadd.mpr hlt
    refine ⟨hunchanged, ?_⟩
    intro env fuel packet args hpacket hscan
    exact gdbPacketAnalysis_set env fuel hconnected hpacket hscan hunchanged

end packets

/-- A machine with the breakpoints of `table`. -/
def gdbWithTable (table : BreakpointTable) : Gdb :=
  { gdbInitData (ArmCore.boot 0x10 []) (fun _ => 0) (fun _ => 0) with toBreakpointTable := table }

theorem gdbWithTable_connected (table : BreakpointTable) : (gdbWithTable table).Connected :=
  List.not_mem_nil

/-- One breakpoint, set twice. -/
theorem set_again_one :
    @SetsAgain makefile (gdbWithTable ⟨Function.update (fun _ => 0) 0 0x20, 1⟩) 0x20 :=
  (@set_again_iff makefile (gdbWithTable ⟨Function.update (fun _ => 0) 0 0x20, 1⟩) 0x20
    (fun _ => 0) [.add 0x20] [1] rfl ⟨0, Nat.one_pos, rfl⟩).mpr
    ⟨gdbWithTable_connected _, by decide⟩

/-- As many different addresses as the table has entries. -/
def fullAddresses : List Word := (List.range MAX_BREAKPOINTS_NUMBER).map (BitVec.ofNat 32)

theorem nodup_fullAddresses : fullAddresses.Nodup := by
  have hmax : MAX_BREAKPOINTS_NUMBER = 1024 := rfl
  apply List.Nodup.map_on _ List.nodup_range
  intro i hi j hj heq
  have hi' := List.mem_range.mp hi
  have hj' := List.mem_range.mp hj
  have hnat := congrArg BitVec.toNat heq
  rw [BitVec.toNat_ofNat, BitVec.toNat_ofNat, Nat.mod_eq_of_lt (by omega),
    Nat.mod_eq_of_lt (by omega)] at hnat
  exact hnat

/-- With 1024 breakpoints set, the first of them is refused. -/
theorem set_again_full : ∃ results table,
    runTable ⟨fun _ => 0, 0⟩ (fullAddresses.map .add) = .ok (results, table) ∧
      0 ∈ entries table.breakpoints table.breakpointsNumber ∧
      gdbAddBreakpoint table 0 = .ok (0, table) ∧
      (∃ g, @gdbPacketAnalysis makefile zeroEnv 0 (gdbWithTable table) (frame (text "Z0,0,4")) =
        .ok g ∧ Replies (gdbWithTable table).acked (text "E04") g) ∧
      ¬@SetsAgain makefile (gdbWithTable table) 0 := by
  have hlen : fullAddresses.length = MAX_BREAKPOINTS_NUMBER := by
    unfold fullAddresses
    rw [List.length_map, List.length_range]
  obtain ⟨results, table, hrun, hS, hnumber⟩ :=
    runTable_fills (fun _ => 0) nodup_fullAddresses hlen.le
  rw [hlen] at hnumber
  have hmem : (0 : Word) ∈ {a | a ∈ fullAddresses} :=
    List.mem_map.mpr ⟨0, List.mem_range.mpr (by decide), rfl⟩
  have hzero : (0 : Word) ∈ entries table.breakpoints table.breakpointsNumber := by
    rwa [hS.entries_eq]
  have hrefused : gdbAddBreakpoint table 0 = .ok (0, table) := if_neg (by omega)
  have hscan : sscanfHhxX (text "0,0,4" ++ [0]) 0 0 = .ok (0, 0) := by decide
  refine ⟨results, table, hrun, hzero, hrefused, ?_, ?_⟩
  · exact @gdbPacketAnalysis_set makefile (gdbWithTable table) _ _ 0 zeroEnv 0
      (gdbWithTable_connected table) (carries_frame _) hscan 0 table hrefused
  · intro h
    have hunchanged := @SetsAgain.unchanged makefile _ _ h
    have hlt := (gdbAddBreakpoint_member_iff hS hmem).mp hunchanged
    exact absurd hlt (by omega)

end ArmSim
