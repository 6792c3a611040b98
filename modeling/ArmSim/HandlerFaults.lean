import ArmSim.GdbReply

/-! The faults of the handlers.  A set of faults that has those of the machine, of the buffer and of
the connection is left only by an access to the text of the packet or to the breakpoints; and none
of the handlers below changes the table. -/
namespace ArmSim
open Lib

/-- The set has every fault but those of an access to the text or to the breakpoints. -/
structure Permits (E : GdbFault → Prop) : Prop where
  crash : ∀ c, E (.crash c)
  packetBuffer : E .packetBuffer
  assertion : E .assertion
  brokenPipe : E .brokenPipe
  stillRunning : E .stillRunning

/-- The computation leaves the table as it is, or ends in one of the faults. -/
abbrev KeepsTable (E : GdbFault → Prop) (table : BreakpointTable) (x : Except GdbFault Gdb) :
    Prop :=
  Ends x (fun g => g.toBreakpointTable = table) E

/-- The computation raises the faults of the set only. -/
abbrev Raises {α : Type} (E : GdbFault → Prop) (x : Except GdbFault α) : Prop :=
  Ends x (fun _ => True) E

theorem KeepsTable.raises {E : GdbFault → Prop} {table : BreakpointTable} {x : Except GdbFault Gdb}
    (h : KeepsTable E table x) : Raises E x :=
  h.imp (fun _ _ => trivial)

section buffer
variable {E : GdbFault → Prop} (hE : Permits E)
include hE

theorem raises_simulated {α : Type} (x : Except Crash α) : Raises E (simulated x) :=
  (simulated_ends (ends_trivial x)).mono (fun _ _ => trivial)
    (fun _ he => he.elim fun c hc => hc.2 ▸ hE.crash c)

variable {table : BreakpointTable} {g : Gdb} (h : g.toBreakpointTable = table)
include h

theorem keepsTable_put (i : ℕ) (s : List Byte) : KeepsTable E table (g.put i s) := by
  apply (g.put_ends i s).mono
  · rintro g' ⟨packet, rfl, -⟩
    exact h
  · rintro e ⟨rfl, -⟩
    exact hE.packetBuffer

theorem keepsTable_rioWriten (bytes : List Byte) : KeepsTable E table (rioWriten g bytes) :=
  ends_ite (fun _ => h) (fun _ => hE.brokenPipe)

theorem keepsTable_sendBuffer : KeepsTable E table (gdbSendBuffer g) := by
  have hloop (packet : ℕ → Byte) (room i : ℕ) (check : Byte) :
      Raises E (gdbChecksumLoop packet room i check) := by
    -- Induction on the room that is left: the loop goes past the buffer or ends at a NUL.
    induction room generalizing i check with
    | zero => exact hE.packetBuffer
    | succ room ih =>
      unfold gdbChecksumLoop
      exact ends_ite (fun _ => ih _ _) (fun _ => trivial)
  unfold gdbSendBuffer
  apply (keepsTable_put hE h 0 [0x24]).bind
  intro g hg
  apply (hloop _ _ _ _).bind
  intro r _
  apply (keepsTable_put hE hg _ [0x23]).bind
  intro g hg
  apply (keepsTable_put hE hg _ _).bind
  intro g hg
  apply (keepsTable_put hE hg _ [0]).bind
  intro g hg
  have hlen : { g with len := r.1 + 1 + 2 }.toBreakpointTable = table := hg
  exact keepsTable_rioWriten hE hlen _

theorem keepsTable_sendData (s : List Byte) : KeepsTable E table (gdbSendData g s) :=
  (keepsTable_put hE h 1 _).bind (fun _ hg => keepsTable_sendBuffer hE hg)

end buffer

section handlers
variable {E : GdbFault → Prop} (hE : Permits E) (env : GdbEnv) (gdb : Gdb) (data : List Byte)
include hE

theorem keepsTable_query (hs : Raises E (cString data)) :
    KeepsTable E gdb.toBreakpointTable (query gdb data) := by
  unfold query
  apply hs.bind
  intro s _
  split_ifs <;> exact keepsTable_sendData hE rfl _

theorem keepsTable_setThread (type : Byte) (hvalue : Raises E (atoi data)) :
    KeepsTable E gdb.toBreakpointTable (setThread gdb (type :: data)) := by
  unfold setThread
  apply hvalue.bind
  intro value _
  split_ifs <;> exact keepsTable_sendData hE rfl _

theorem keepsTable_readMemory (hscan : Raises E (sscanfXX data env.address env.size)) :
    KeepsTable E gdb.toBreakpointTable (readMemory env gdb data) := by
  have hloop (size : ℕ) (g : Gdb) (hg : g.toBreakpointTable = gdb.toBreakpointTable) (a : Word)
      (position : ℕ) : KeepsTable E gdb.toBreakpointTable (readMemoryLoop size g a position) := by
    -- Induction on the bytes that are still asked for; the first one outside ends the loop.
    induction size generalizing g a position with
    | zero => exact hg
    | succ size ih =>
      unfold readMemoryLoop
      apply (raises_simulated hE _).bind
      intro r _
      exact ends_ite (fun _ => (keepsTable_put hE hg _ _).bind (fun g hg => ih g hg _ _))
        (fun _ => hg)
  unfold readMemory
  apply hscan.bind
  intro r _
  apply ends_ite
  · intro _
    apply (keepsTable_put hE rfl _ _).bind
    intro g hg
    exact (hloop _ g hg _ _).bind (fun g hg => keepsTable_sendBuffer hE hg)
  · intro _
    exact (keepsTable_put hE rfl _ _).bind (fun g hg => keepsTable_sendBuffer hE hg)

variable [Platform]

theorem keepsTable_singleStep (k : ℕ) :
    KeepsTable E gdb.toBreakpointTable (gdbSingleStep env k gdb) :=
  (raises_simulated hE _).bind (fun _ _ => rfl)

theorem keepsTable_step : KeepsTable E gdb.toBreakpointTable (step env gdb data) :=
  (keepsTable_singleStep hE env gdb 0).bind (fun _ hg => keepsTable_sendData hE hg _)

/-- `cont` reads the table at every program counter it comes to. -/
theorem keepsTable_cont (fuel : ℕ)
    (hfind : ∀ pc, Raises E (gdbFindBreakpoint gdb.toBreakpointTable pc)) :
    KeepsTable E gdb.toBreakpointTable (cont env fuel gdb data) := by
  have hloop (k : ℕ) (g : Gdb) (hg : g.toBreakpointTable = gdb.toBreakpointTable) :
      KeepsTable E gdb.toBreakpointTable (contLoop env fuel k g) := by
    -- Every round searches the first table again, so `hfind` serves them all.
    induction fuel generalizing k g with
    | zero => exact hE.stillRunning
    | succ fuel ih =>
      unfold contLoop
      apply ((keepsTable_singleStep hE env g k).imp (fun _ h => h.trans hg)).bind
      intro g hg
      apply (raises_simulated hE _).bind
      intro pc _
      rw [hg]
      apply (hfind pc).bind
      intro position _
      exact ends_ite (fun _ => hg) (fun _ => ends_ite (fun _ => hg) (fun _ => ih (k + 1) g hg))
  exact (hloop 0 gdb rfl).bind (fun _ hg => keepsTable_sendData hE hg _)

theorem keepsTable_readRegister {g : Gdb} (hg : g.toBreakpointTable = gdb.toBreakpointTable)
    (position reg : ℕ) : KeepsTable E gdb.toBreakpointTable (readRegister g position reg) :=
  ends_ite (fun _ => (raises_simulated hE _).bind (fun _ _ => keepsTable_put hE hg _ _))
    (fun _ => hE.assertion)

theorem keepsTable_readSingleRegister (hreg : Raises E (atoi data)) :
    KeepsTable E gdb.toBreakpointTable (readSingleRegister gdb data) := by
  apply hreg.bind
  intro reg _
  exact (keepsTable_readRegister hE gdb rfl _ _).bind (fun _ hg => keepsTable_sendBuffer hE hg)

theorem keepsTable_readGeneralRegisters :
    KeepsTable E gdb.toBreakpointTable (readGeneralRegisters gdb data) := by
  unfold readGeneralRegisters
  -- The sixteen registers, then the fields that are sent as unknown, then the CPSR.
  apply Ends.bind (ends_foldlM_range
    (fun _ (s : Gdb × ℕ) => s.1.toBreakpointTable = gdb.toBreakpointTable) _ _ _ rfl ?_)
  · intro s hs
    apply Ends.bind (ends_foldlM_range
      (fun _ (s : Gdb × ℕ) => s.1.toBreakpointTable = gdb.toBreakpointTable) _ _ _ hs ?_)
    · intro s hs
      apply (keepsTable_put hE hs _ _).bind
      intro g hg
      exact (keepsTable_put hE hg _ _).bind (fun _ hg => keepsTable_sendBuffer hE hg)
    · intro i _ s hs
      apply ends_foldlM_range
        (fun _ (s : Gdb × ℕ) => s.1.toBreakpointTable = gdb.toBreakpointTable) _ _ _ hs
      exact fun j _ s hs => (keepsTable_put hE hs _ _).bind (fun _ hg => hg)
  · exact fun i _ s hs => (keepsTable_readRegister hE gdb hs _ _).bind (fun _ hg => hg)

theorem keepsTable_writeRegister {g : Gdb} (hg : g.toBreakpointTable = gdb.toBreakpointTable)
    (reg : ℕ) {value : Word} (hvalue : Raises E (readUint32 data value)) :
    KeepsTable E gdb.toBreakpointTable (writeRegister g reg data value) := by
  apply hvalue.bind
  intro value _
  exact ends_ite (fun _ => (raises_simulated hE _).bind (fun _ _ => hg)) (fun _ => hE.assertion)

/-- The value of `P` stands behind the `=`, where there is one. -/
theorem keepsTable_writeSingleRegister (hreg : Raises E (sscanfX none data env.reg))
    (hcontent : Ends (indexNext data 0x3D >>= TextPointer.deref)
      (fun content => Raises E (readUint32 content (env.value 0))) E) :
    KeepsTable E gdb.toBreakpointTable (writeSingleRegister env gdb data) := by
  have hsplit : writeSingleRegister env gdb data = sscanfX none data env.reg >>= fun reg =>
      (indexNext data 0x3D >>= TextPointer.deref) >>= fun content =>
        writeRegister gdb reg.toNat content (env.value 0) >>= fun g =>
          gdbSendData g (text "OK") := by
    unfold writeSingleRegister
    simp only [bind_assoc]
  rw [hsplit]
  apply hreg.bind
  intro reg _
  apply hcontent.bind
  intro content hvalue
  apply (keepsTable_writeRegister hE gdb content rfl _ hvalue).bind
  exact fun _ hg => keepsTable_sendData hE hg _

end handlers

end ArmSim
