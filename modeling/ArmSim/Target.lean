import ArmSim.Continue
import ArmSim.Lib.Agreement

/-! What the debugger's commands act on: the breakpoints, the machine, the last exception, and a
connection that is there or not.  A command does not depend on anything else, neither on the
contents of the buffer nor on what has been sent before. -/
namespace ArmSim
open Lib

/-- The data of the connection without its buffer. -/
structure Target where
  table : BreakpointTable
  arm : ArmCore
  targetException : ℤ
  connected : Prop

def Gdb.target (gdb : Gdb) : Target :=
  ⟨gdb.toBreakpointTable, gdb.arm, gdb.targetException, gdb.Connected⟩

@[simp] theorem Gdb.wrote_target (gdb : Gdb) (bytes : List Byte) :
    (gdb.wrote bytes).target = gdb.target :=
  congrArg (Target.mk _ _ _) (propext (gdb.wrote_connected bytes))

/-- From `gdb` and from `gdb'` the same has been done: both have the same target now, and the same
has been sent. -/
structure Alike (gdb gdb' g g' : Gdb) : Prop where
  target : g'.target = g.target
  sent : ∃ out, g.sent = gdb.sent ++ out ∧ g'.sent = gdb'.sent ++ out

/-- Both do the same. -/
abbrev AlikeFrom (gdb gdb' : Gdb) (x y : Except GdbFault Gdb) : Prop := Agree (Alike gdb gdb') x y

/-- Nothing is sent yet. -/
structure Quiet (gdb gdb' g g' : Gdb) : Prop where
  target : g'.target = g.target
  first : g.sent = gdb.sent
  second : g'.sent = gdb'.sent

/-- The same plain text is in both buffers up to `position`, and nothing is sent yet. -/
def Writing (gdb gdb' : Gdb) (position : ℕ) (g g' : Gdb) : Prop :=
  ∃ s, Plain s ∧ position = 1 + s.length ∧ Building gdb s g ∧ Building gdb' s g'

/-- The text is complete. -/
def Written (gdb gdb' : Gdb) (position : ℕ) (g g' : Gdb) : Prop :=
  ∃ s, Plain s ∧ position = 1 + s.length ∧ Built gdb s g ∧ Built gdb' s g'

section replies
variable {gdb gdb' g g' : Gdb}

theorem Building.target {s : List Byte} (h : Building gdb s g) :
    g.target = gdb.target ∧ g.sent = gdb.sent := by
  obtain ⟨packet, rfl, -⟩ := h
  exact ⟨rfl, rfl⟩

theorem Replies.target {s : List Byte} (h : Replies gdb s g) : g.target = gdb.target := by
  obtain ⟨-, packet, -, rfl⟩ := h
  exact gdb.wrote_target (frame s)

/-- One is connected if the other is. -/
theorem connected_iff (h : gdb'.target = gdb.target) : gdb'.Connected ↔ gdb.Connected :=
  iff_of_eq (congrArg Target.connected h)

theorem target_eq (htable : g'.toBreakpointTable = g.toBreakpointTable) (harm : g'.arm = g.arm)
    (hresult : g'.targetException = g.targetException) (hconnected : g'.Connected = g.Connected) :
    g'.target = g.target := by
  unfold Gdb.target
  rw [htable, harm, hresult, hconnected]

theorem severed_iff (h : gdb'.target = gdb.target) (e : GdbFault) :
    Severed gdb' e ↔ Severed gdb e :=
  and_congr_right fun _ => not_congr (connected_iff h)

/-- Both write, or neither can. -/
theorem rioWriten_agree (h : gdb'.target = gdb.target) {bytes : List Byte} (hne : bytes ≠ []) :
    Agree (fun a b => a = gdb.wrote bytes ∧ b = gdb'.wrote bytes) (rioWriten gdb bytes)
      (rioWriten gdb' bytes) :=
  agree_of_ends (rioWriten_ends gdb hne) (rioWriten_ends gdb' hne)
    (fun _ _ ha hb => ⟨ha.2, hb.2⟩) (fun _ _ he hf => he.1.trans hf.1.symm)
    (fun _ _ ha hf => hf.2 ((connected_iff h).mpr ha.1))
    (fun _ _ he hb => he.2 ((connected_iff h).mp hb.1))

theorem writing_start (gdb gdb' : Gdb) : Writing gdb gdb' 1 gdb gdb' :=
  ⟨[], plain_nil, rfl, building_nil gdb, building_nil gdb'⟩

theorem Written.writing {position : ℕ} (h : Written gdb gdb' position g g') :
    Writing gdb gdb' position g g' := by
  obtain ⟨s, hs, hpos, hb, hb'⟩ := h
  exact ⟨s, hs, hpos, hb.building, hb'.building⟩

/-- The machine behind a text is the one the text was begun with. -/
theorem Writing.arm {position : ℕ} (h : Writing gdb gdb' position g g')
    (htarget : gdb'.target = gdb.target) : g.arm = gdb.arm ∧ g'.arm = gdb.arm := by
  obtain ⟨s, -, -, hb, hb'⟩ := h
  refine ⟨congrArg Target.arm hb.target.1, ?_⟩
  exact (congrArg Target.arm hb'.target.1).trans (congrArg Target.arm htarget)

/-- Whether a string fits depends on where it goes only. -/
theorem put_agree (g g' : Gdb) (i : ℕ) (s : List Byte) (hs : s ≠ []) :
    Agree (fun _ _ => True) (g.put i s) (g'.put i s) := by
  refine agree_of_ends (g.put_ends i s) (g'.put_ends i s) (fun _ _ _ _ => trivial)
    (fun _ _ he hf => he.1.trans hf.1.symm) ?_ ?_
  · intro a e ha he
    obtain ⟨-, -, -, -, hfit⟩ := ha
    exact absurd he.2 (Nat.not_lt.mpr (hfit hs))
  · intro e a he ha
    obtain ⟨-, -, -, -, hfit⟩ := ha
    exact absurd he.2 (Nat.not_lt.mpr (hfit hs))

theorem Writing.put {position : ℕ} (h : Writing gdb gdb' position g g') {t : List Byte}
    (ht : Plain t) :
    Agree (Written gdb gdb' (position + t.length)) (g.put position (t ++ [0]))
      (g'.put position (t ++ [0])) := by
  obtain ⟨s, hs, rfl, hb, hb'⟩ := h
  have hagree := put_agree g g' (1 + s.length) (t ++ [0]) (by simp)
  cases hx : g.put (1 + s.length) (t ++ [0]) with
  | error e =>
    rw [hagree.fault hx]
    rfl
  | ok a =>
    obtain ⟨b, hy, -⟩ := hagree.exists_ok hx
    rw [hy]
    refine ⟨s ++ t, hs.append ht, ?_, (hb.put t).value hx, (hb'.put t).value hy⟩
    rw [List.length_append, Nat.add_assoc]

theorem replies_alike {s : List Byte} (htarget : gdb'.target = gdb.target) (h : Replies gdb s g)
    (h' : Replies gdb' s g') : Alike gdb gdb' g g' where
  target := by rw [h'.target, h.target, htarget]
  sent := ⟨_, h.sent_eq, h'.sent_eq⟩

/-- A complete text is sent from both, is too long for both, or finds neither connected. -/
theorem Written.send {position : ℕ} (h : Written gdb gdb' position g g')
    (htarget : gdb'.target = gdb.target) :
    AlikeFrom gdb gdb' (gdbSendBuffer g) (gdbSendBuffer g') := by
  obtain ⟨s, hs, -, hb, hb'⟩ := h
  have h0 : ∀ c ∈ s, c ≠ 0 := fun c hc => (hs c hc).1
  have hunsent (e : GdbFault) : Unsent gdb' s e ↔ Unsent gdb s e :=
    or_congr Iff.rfl (and_congr_right fun _ => severed_iff htarget e)
  have hsent {gdb g : Gdb} {e : GdbFault} (hg : Replies gdb s g ∧ s.length + 5 ≤ MAX_PACKET_SIZE) :
      ¬Unsent gdb s e := by
    rintro (hlong | ⟨-, hsevered⟩)
    · exact absurd hlong.2 (Nat.not_lt.mpr hg.2)
    · exact hsevered.2 hg.1.1
  refine agree_of_ends (hb.send_fits h0) (hb'.send_fits h0) ?_ ?_ ?_ ?_
  · exact fun a b ha hb => replies_alike htarget ha.1 hb.1
  · intro e f he hf
    rcases he with he | ⟨hfit, he⟩
    · rcases hf with hf | ⟨hfit, -⟩
      · exact he.1.trans hf.1.symm
      · exact absurd he.2 (Nat.not_lt.mpr hfit)
    · rcases hf with hf | ⟨-, hf⟩
      · exact absurd hf.2 (Nat.not_lt.mpr hfit)
      · exact he.1.trans hf.1.symm
  · exact fun a e ha he => hsent ha ((hunsent e).mp he)
  · exact fun e a he ha => hsent ha ((hunsent e).mpr he)

/-- A short text is sent from both. -/
theorem Quiet.send {s : List Byte} (h : Quiet gdb gdb' g g') (hs : Plain s)
    (hfit : s.length + 5 ≤ MAX_PACKET_SIZE) :
    AlikeFrom gdb gdb' (gdbSendData g s) (gdbSendData g' s) := by
  have h0 : ∀ c ∈ s, c ≠ 0 := fun c hc => (hs c hc).1
  refine agree_of_ends (gdbSendData_short g h0 hfit) (gdbSendData_short g' h0 hfit) ?_ ?_ ?_ ?_
  · intro a b ha hb
    refine ⟨?_, [.written (frame s)], ?_, ?_⟩
    · rw [hb.target, ha.target, h.target]
    · rw [ha.sent_eq, h.first]
    · rw [hb.sent_eq, h.second]
  · exact fun e f he hf => he.1.trans hf.1.symm
  · exact fun a f ha hf => hf.2 ((connected_iff h.target).mpr ha.1)
  · exact fun e b he hb => he.2 ((connected_iff h.target).mp hb.1)

theorem Quiet.stopReason (h : Quiet gdb gdb' g g') :
    AlikeFrom gdb gdb' (gdbSendStopReason g) (gdbSendStopReason g') := by
  have hresult : g'.targetException = g.targetException := congrArg Target.targetException h.target
  unfold gdbSendStopReason
  rw [hresult]
  refine h.send (plain_stopReason _) ?_
  unfold gdbStopReason
  split_ifs <;> decide

theorem quiet_refl (htarget : gdb'.target = gdb.target) : Quiet gdb gdb' gdb gdb' :=
  ⟨htarget, rfl, rfl⟩

end replies

section handlers
variable {gdb gdb' : Gdb} (htarget : gdb'.target = gdb.target) (data : List Byte)
include htarget

theorem query_alike : AlikeFrom gdb gdb' (query gdb data) (query gdb' data) := by
  have hquiet := quiet_refl htarget
  unfold query
  apply agree_bind
  intro s _
  split_ifs
  · exact hquiet.send (plain_text _ rfl) (by decide)
  · exact hquiet.send (plain_text _ rfl) (by decide)
  · exact hquiet.send (plain_text _ rfl) (by decide)
  · exact hquiet.send plain_nil (by decide)
  · exact hquiet.send plain_nil (by decide)

theorem setThread_alike : AlikeFrom gdb gdb' (setThread gdb data) (setThread gdb' data) := by
  have hquiet := quiet_refl htarget
  unfold setThread
  split
  · rfl
  · apply agree_bind
    intro value _
    split_ifs
    · exact hquiet.send (plain_text _ rfl) (by decide)
    · exact hquiet.send (plain_text _ rfl) (by decide)

/-- The digits go behind the same text. -/
theorem readMemoryLoop_alike (size : ℕ) {position : ℕ} {g g' : Gdb}
    (h : Written gdb gdb' position g g') (address : Word) :
    Agree (fun a b => ∃ position, Written gdb gdb' position a b)
      (readMemoryLoop size g address position) (readMemoryLoop size g' address position) := by
  induction size generalizing position g g' address with
  | zero => exact ⟨position, h⟩
  | succ size ih =>
    obtain ⟨harm, harm'⟩ := h.writing.arm htarget
    unfold readMemoryLoop
    rw [harm, harm']
    apply agree_bind
    rintro ⟨result, value⟩ _
    refine agree_ite Iff.rfl (fun _ _ => ?_) (fun _ _ => ⟨position, h⟩)
    have hdigits := h.writing.put (plain_hexText 2 value.toNat)
    rw [length_hexText] at hdigits
    apply hdigits.bind
    intro a b _ _ hab
    exact ih hab (address + 1)

theorem readMemory_alike (env : GdbEnv) :
    AlikeFrom gdb gdb' (readMemory env gdb data) (readMemory env gdb' data) := by
  have harm : gdb'.arm = gdb.arm := congrArg Target.arm htarget
  unfold readMemory
  rw [harm]
  apply agree_bind
  rintro ⟨address, size⟩ _
  dsimp only
  refine agree_ite Iff.rfl (fun _ _ => ?_) (fun _ _ => ?_)
  · apply ((writing_start gdb gdb').put plain_nil).bind
    intro a b _ _ hab
    apply (readMemoryLoop_alike htarget size.toNat hab address).bind
    intro a' b' _ _ hab'
    obtain ⟨position, hwritten⟩ := hab'
    exact hwritten.send htarget
  · apply ((writing_start gdb gdb').put (plain_text "E0E" rfl)).bind
    intro a b _ _ hab
    exact hab.send htarget

omit htarget in
theorem writeMemoryLoop_alike (size : ℕ) {g g' : Gdb} (h : Quiet gdb gdb' g g') (address : Word)
    (content : TextPointer) :
    Agree (fun r r' => Quiet gdb gdb' r.1 r'.1 ∧ r'.2 = r.2)
      (writeMemoryLoop size g address content) (writeMemoryLoop size g' address content) := by
  induction size generalizing g g' address content with
  | zero => exact ⟨h, rfl⟩
  | succ size ih =>
    have harm : g'.arm = g.arm := congrArg Target.arm h.target
    unfold writeMemoryLoop
    rw [harm]
    apply agree_bind
    intro content _
    apply agree_bind
    rintro ⟨value, content⟩ _
    apply agree_bind
    rintro ⟨result, mem⟩ _
    -- Both store the same byte into the same memory.
    have hnext : Quiet gdb gdb' { g with arm := { g.arm with mem := mem } }
        { g' with arm := { g.arm with mem := mem } } := by
      refine ⟨?_, h.first, h.second⟩
      exact target_eq (congrArg Target.table h.target) rfl
        (congrArg Target.targetException h.target) (congrArg Target.connected h.target)
    exact agree_ite Iff.rfl (fun _ _ => ih hnext (address + 1) (some content))
      (fun _ _ => ⟨hnext, rfl⟩)

theorem writeMemoryBinary_alike (env : GdbEnv) :
    AlikeFrom gdb gdb' (writeMemoryBinary env gdb data) (writeMemoryBinary env gdb' data) := by
  have harm : gdb'.arm = gdb.arm := congrArg Target.arm htarget
  unfold writeMemoryBinary
  rw [harm]
  apply agree_bind
  rintro ⟨address, size⟩ _
  apply agree_bind
  intro content _
  have hloop : Agree (fun r r' => Quiet gdb gdb' r.1 r'.1 ∧ r'.2 = r.2)
      (if address.toNat < gdb.arm.mem.size then
        writeMemoryLoop size.toNat gdb address content else pure (gdb, false))
      (if address.toNat < gdb.arm.mem.size then
        writeMemoryLoop size.toNat gdb' address content else pure (gdb', false)) :=
    agree_ite Iff.rfl
      (fun _ _ => writeMemoryLoop_alike size.toNat (quiet_refl htarget) address content)
      (fun _ _ => ⟨quiet_refl htarget, rfl⟩)
  apply hloop.bind
  rintro ⟨g, writeOk⟩ ⟨g', writeOk'⟩ _ _ ⟨hquiet, hok⟩
  dsimp only at hquiet hok ⊢
  rw [hok]
  refine agree_ite Iff.rfl (fun _ _ => ?_) (fun _ _ => ?_)
  · exact hquiet.send (plain_text _ rfl) (by decide)
  · exact hquiet.send (plain_text _ rfl) (by decide)

/-- A request for a breakpoint is answered after the table has been changed. -/
theorem tableCall_alike {x : Except GdbFault (ℤ × BreakpointTable)} {s : List Byte}
    (hs : Plain s) (hfit : s.length + 5 ≤ MAX_PACKET_SIZE) :
    AlikeFrom gdb gdb'
      (x >>= fun r =>
        if r.1 ≠ 0 then gdbSendData { gdb with toBreakpointTable := r.2 } (text "OK")
        else gdbSendData { gdb with toBreakpointTable := r.2 } s)
      (x >>= fun r =>
        if r.1 ≠ 0 then gdbSendData { gdb' with toBreakpointTable := r.2 } (text "OK")
        else gdbSendData { gdb' with toBreakpointTable := r.2 } s) := by
  apply agree_bind
  intro r _
  have hquiet : Quiet gdb gdb' { gdb with toBreakpointTable := r.2 }
      { gdb' with toBreakpointTable := r.2 } := by
    refine ⟨?_, rfl, rfl⟩
    exact target_eq rfl (congrArg Target.arm htarget) (congrArg Target.targetException htarget)
      (congrArg Target.connected htarget)
  refine agree_ite Iff.rfl (fun _ _ => ?_) (fun _ _ => hquiet.send hs hfit)
  exact hquiet.send (plain_text _ rfl) (by decide)

theorem setBreakpoint_alike (env : GdbEnv) :
    AlikeFrom gdb gdb' (setBreakpoint env gdb data) (setBreakpoint env gdb' data) := by
  have htable : gdb'.toBreakpointTable = gdb.toBreakpointTable := congrArg Target.table htarget
  unfold setBreakpoint
  rw [htable]
  apply agree_bind
  rintro ⟨type, address⟩ _
  refine agree_ite Iff.rfl (fun _ _ => ?_) (fun _ _ => ?_)
  · exact (quiet_refl htarget).send (plain_text _ rfl) (by decide)
  · exact tableCall_alike htarget (plain_text _ rfl) (by decide)

theorem removeBreakpoint_alike (env : GdbEnv) :
    AlikeFrom gdb gdb' (removeBreakpoint env gdb data) (removeBreakpoint env gdb' data) := by
  have htable : gdb'.toBreakpointTable = gdb.toBreakpointTable := congrArg Target.table htarget
  unfold removeBreakpoint
  rw [htable]
  apply agree_bind
  rintro ⟨type, address⟩ _
  refine agree_ite Iff.rfl (fun _ _ => ?_) (fun _ _ => ?_)
  · exact (quiet_refl htarget).send (plain_text _ rfl) (by decide)
  · exact tableCall_alike htarget (plain_text _ rfl) (by decide)

end handlers

section registers
variable [Platform] {gdb gdb' : Gdb}

theorem readRegister_alike (htarget : gdb'.target = gdb.target) {position : ℕ} {g g' : Gdb}
    (h : Writing gdb gdb' position g g') (reg : ℕ) :
    Agree (Written gdb gdb' (position + 8)) (readRegister g position reg)
      (readRegister g' position reg) := by
  obtain ⟨harm, harm'⟩ := h.arm htarget
  unfold readRegister writeUint32
  rw [harm, harm']
  refine agree_ite Iff.rfl (fun _ _ => ?_) (fun _ _ => rfl)
  apply agree_bind
  intro value _
  have hdigits := h.put (plain_hexText 8 value.toNat)
  rwa [length_hexText] at hdigits

theorem readSingleRegister_alike (htarget : gdb'.target = gdb.target) (data : List Byte) :
    AlikeFrom gdb gdb' (readSingleRegister gdb data) (readSingleRegister gdb' data) := by
  unfold readSingleRegister
  apply agree_bind
  intro reg _
  apply (readRegister_alike htarget (writing_start gdb gdb') _).bind
  intro a b _ _ hab
  exact hab.send htarget

theorem readGeneralRegisters_alike (htarget : gdb'.target = gdb.target) (data : List Byte) :
    AlikeFrom gdb gdb' (readGeneralRegisters gdb data) (readGeneralRegisters gdb' data) := by
  -- Between two fields both loops are at the same position.
  let Fields (s s' : Gdb × ℕ) : Prop := s'.2 = s.2 ∧ Writing gdb gdb' s.2 s.1 s'.1
  have hfiller : Plain (text "xxxxxxxx") := plain_text _ rfl
  have hput {s s' : Gdb × ℕ} (h : Fields s s') :
      Agree Fields (s.1.put s.2 (text "xxxxxxxx" ++ [0]) >>= fun g => pure (g, s.2 + 8))
        (s'.1.put s'.2 (text "xxxxxxxx" ++ [0]) >>= fun g => pure (g, s'.2 + 8)) := by
    obtain ⟨hpos, hwriting⟩ := h
    rw [hpos]
    apply (hwriting.put hfiller).bind
    exact fun a b _ _ hab => ⟨rfl, hab.writing⟩
  unfold readGeneralRegisters
  have hstart : Fields (gdb, 1) (gdb', 1) := ⟨rfl, writing_start gdb gdb'⟩
  have hregisters : Agree Fields
      ((List.range 16).foldlM (fun (s : Gdb × ℕ) i =>
        (readRegister s.1 s.2 i >>= fun g => pure (g, s.2 + 8))) (gdb, 1))
      ((List.range 16).foldlM (fun (s : Gdb × ℕ) i =>
        (readRegister s.1 s.2 i >>= fun g => pure (g, s.2 + 8))) (gdb', 1)) := by
    apply agree_foldlM hstart
    intro i _ s s' h
    obtain ⟨hpos, hwriting⟩ := h
    rw [hpos]
    apply (readRegister_alike htarget hwriting i).bind
    exact fun a b _ _ hab => ⟨rfl, hab.writing⟩
  apply hregisters.bind
  intro s s' _ _ hs
  have hskipped : Agree Fields
      ((List.range 8).foldlM (fun (s : Gdb × ℕ) _ =>
        (List.range 3).foldlM (fun (s : Gdb × ℕ) _ =>
          (s.1.put s.2 (text "xxxxxxxx" ++ [0]) >>= fun g => pure (g, s.2 + 8))) s) s)
      ((List.range 8).foldlM (fun (s : Gdb × ℕ) _ =>
        (List.range 3).foldlM (fun (s : Gdb × ℕ) _ =>
          (s.1.put s.2 (text "xxxxxxxx" ++ [0]) >>= fun g => pure (g, s.2 + 8))) s) s') :=
    agree_foldlM hs (fun _ _ s s' h => agree_foldlM h (fun _ _ s s' h => hput h))
  apply hskipped.bind
  rintro ⟨g, position⟩ ⟨g', position'⟩ _ _ ⟨hpos, hwriting⟩
  change position' = position at hpos
  subst hpos
  apply (hwriting.put hfiller).bind
  intro a b _ _ hab
  -- The last field is the CPSR.
  obtain ⟨harm, harm'⟩ := hab.writing.arm htarget
  dsimp only
  unfold writeUint32
  rw [harm, harm']
  have hdigits := hab.writing.put (plain_hexText 8 (registersReadCpsr gdb.arm.reg).toNat)
  apply hdigits.bind
  intro a' b' _ _ hab'
  exact hab'.send htarget

omit [Platform] in
/-- Both have the same machine, and nothing is sent yet. -/
theorem Quiet.withRegisters {g g' : Gdb} (h : Quiet gdb gdb' g g') (r : Registers) :
    Quiet gdb gdb' { g with arm := { g.arm with reg := r } }
      { g' with arm := { g'.arm with reg := r } } := by
  obtain ⟨htarget, hfirst, hsecond⟩ := h
  have harm : g'.arm = g.arm := congrArg Target.arm htarget
  refine ⟨?_, hfirst, hsecond⟩
  rw [harm]
  exact target_eq (congrArg Target.table htarget) rfl (congrArg Target.targetException htarget)
    (congrArg Target.connected htarget)

theorem writeRegister_alike {g g' : Gdb} (h : Quiet gdb gdb' g g') (reg : ℕ) (data : List Byte)
    (value : Word) :
    Agree (Quiet gdb gdb') (writeRegister g reg data value) (writeRegister g' reg data value) := by
  have harm : g'.arm = g.arm := congrArg Target.arm h.target
  unfold writeRegister
  rw [harm]
  apply agree_bind
  intro value _
  refine agree_ite Iff.rfl (fun _ _ => ?_) (fun _ _ => rfl)
  apply agree_bind
  intro r _
  have hnext := h.withRegisters r
  rwa [harm] at hnext

theorem writeGeneralRegisters_alike (htarget : gdb'.target = gdb.target) (env : GdbEnv)
    (data : List Byte) :
    AlikeFrom gdb gdb' (writeGeneralRegisters env gdb data)
      (writeGeneralRegisters env gdb' data) := by
  let Fields (s s' : Gdb × List Byte) : Prop := s'.2 = s.2 ∧ Quiet gdb gdb' s.1 s'.1
  have hstart : Fields (gdb, data) (gdb', data) := ⟨rfl, quiet_refl htarget⟩
  unfold writeGeneralRegisters
  have hregisters : Agree Fields
      ((List.range 16).foldlM (fun (s : Gdb × List Byte) i =>
        (writeRegister s.1 i s.2 (env.value i) >>= fun g => pure (g, s.2.drop 8))) (gdb, data))
      ((List.range 16).foldlM (fun (s : Gdb × List Byte) i =>
        (writeRegister s.1 i s.2 (env.value i) >>= fun g => pure (g, s.2.drop 8)))
        (gdb', data)) := by
    apply agree_foldlM hstart
    intro i _ s s' h
    obtain ⟨hdata, hquiet⟩ := h
    rw [hdata]
    apply (writeRegister_alike hquiet i s.2 (env.value i)).bind
    exact fun a b _ _ hab => ⟨rfl, hab⟩
  have hlast (s s' : Gdb × List Byte) (h : Fields s s') (status : List Byte) :
      AlikeFrom gdb gdb'
        (readUint32 status (env.value 16) >>= fun value =>
          gdbSendData { s.1 with arm := { s.1.arm with
            reg := registersWriteCpsr s.1.arm.reg value } } (text "OK"))
        (readUint32 status (env.value 16) >>= fun value =>
          gdbSendData { s'.1 with arm := { s'.1.arm with
            reg := registersWriteCpsr s'.1.arm.reg value } } (text "OK")) := by
    obtain ⟨-, hquiet⟩ := h
    apply agree_bind
    intro value _
    have harm : s'.1.arm = s.1.arm := congrArg Target.arm hquiet.target
    have hnext := hquiet.withRegisters (registersWriteCpsr s.1.arm.reg value)
    rw [harm] at hnext ⊢
    exact hnext.send (plain_text _ rfl) (by decide)
  apply hregisters.bind
  intro s s' _ _ hs
  have hdata : s'.2 = s.2 := hs.1
  dsimp only
  rw [hdata]
  exact hlast s s' hs _

theorem writeSingleRegister_alike (htarget : gdb'.target = gdb.target) (env : GdbEnv)
    (data : List Byte) :
    AlikeFrom gdb gdb' (writeSingleRegister env gdb data) (writeSingleRegister env gdb' data) := by
  unfold writeSingleRegister
  apply agree_bind
  intro reg _
  apply agree_bind
  intro data _
  apply agree_bind
  intro data _
  apply (writeRegister_alike (quiet_refl htarget) reg.toNat data (env.value 0)).bind
  intro a b _ _ hab
  exact hab.send (plain_text _ rfl) (by decide)

end registers

section commands
variable [Platform] (env : GdbEnv) (fuel : ℕ) {gdb gdb' : Gdb}

theorem gdbSingleStep_alike {g g' : Gdb} (h : Quiet gdb gdb' g g') (k : ℕ) :
    Agree (Quiet gdb gdb') (gdbSingleStep env k g) (gdbSingleStep env k g') := by
  obtain ⟨htarget, hfirst, hsecond⟩ := h
  have harm : g'.arm = g.arm := congrArg Target.arm htarget
  unfold gdbSingleStep
  rw [harm]
  apply agree_bind
  rintro ⟨targetException, arm⟩ _
  refine ⟨?_, hfirst, hsecond⟩
  exact target_eq (congrArg Target.table htarget) rfl rfl (congrArg Target.connected htarget)

theorem contLoop_alike {g g' : Gdb} (h : Quiet gdb gdb' g g') (k : ℕ) :
    Agree (Quiet gdb gdb') (contLoop env fuel k g) (contLoop env fuel k g') := by
  induction fuel generalizing g g' k with
  | zero => rfl
  | succ fuel ih =>
    unfold contLoop
    apply (gdbSingleStep_alike env h k).bind
    intro a b _ _ hab
    -- The tests after the step read the target.
    have htable : b.toBreakpointTable = a.toBreakpointTable := congrArg Target.table hab.target
    have harm : b.arm = a.arm := congrArg Target.arm hab.target
    have hexception : b.targetException = a.targetException :=
      congrArg Target.targetException hab.target
    rw [htable, harm, hexception]
    apply agree_bind
    intro pc _
    apply agree_bind
    intro position _
    refine agree_ite Iff.rfl (fun _ _ => hab) (fun _ _ => ?_)
    exact agree_ite Iff.rfl (fun _ _ => hab) (fun _ _ => ih hab (k + 1))

/-- What a command does and sends is a function of the target. -/
theorem handler_alike (htarget : gdb'.target = gdb.target) {index : Byte} (data : List Byte)
    {handle : Gdb → List Byte → Except GdbFault Gdb} (h : handler env fuel index = some handle) :
    AlikeFrom gdb gdb' (handle gdb data) (handle gdb' data) := by
  have hquiet := quiet_refl htarget
  have hcont : AlikeFrom gdb gdb' (cont env fuel gdb data) (cont env fuel gdb' data) :=
    (contLoop_alike env fuel hquiet 0).bind (fun a b _ _ hab => hab.stopReason)
  have hstep : AlikeFrom gdb gdb' (step env gdb data) (step env gdb' data) :=
    (gdbSingleStep_alike env hquiet 0).bind (fun a b _ _ hab => hab.stopReason)
  unfold handler at h
  split at h
  · cases h
    exact hcont
  · cases h
    exact hcont
  · cases h
    have hended (gdb : Gdb) : ¬Gdb.Connected { gdb with sent := gdb.sent ++ [.shutdown] } :=
      not_not.mpr (List.mem_append_right _ List.mem_cons_self)
    refine ⟨?_, [.shutdown], rfl, rfl⟩
    exact target_eq (congrArg Target.table htarget) (congrArg Target.arm htarget)
      (congrArg Target.targetException htarget)
      (propext (iff_of_false (hended gdb') (hended gdb)))
  · cases h
    exact query_alike htarget data
  · cases h
    exact readGeneralRegisters_alike htarget data
  · cases h
    exact readMemory_alike htarget data env
  · cases h
    exact readSingleRegister_alike htarget data
  · cases h
    exact hquiet.stopReason
  · cases h
    exact setThread_alike htarget data
  · cases h
    exact hstep
  · cases h
    exact hstep
  · cases h
    exact writeGeneralRegisters_alike htarget env data
  · cases h
    exact writeMemoryBinary_alike htarget data env
  · cases h
    exact writeSingleRegister_alike htarget env data
  · cases h
    exact removeBreakpoint_alike htarget data env
  · cases h
    exact setBreakpoint_alike htarget data env
  · cases h

end commands

end ArmSim
