import ArmSim.Hosts
import ArmSim.RegisterImage
import ArmSim.Session

/-! Sessions on hosts of both byte orders: what the debugger is answered does not depend on the
host. -/
namespace ArmSim
open Lib

def Gdb.onHost (b o : Bool) (gdb : Gdb) : Gdb := { gdb with arm := gdb.arm.onHost b o }

def Session.onHost (b o : Bool) (s : Session) : Session := ⟨s.parser, s.gdb.onHost b o⟩

section create
variable [Platform]

/-- `arm_create`: the processor is reset, and its stack begins behind the memory. -/
def armCreate (env : Env) (reg : Registers) (mem : Memory) : Except Crash ArmCore := do
  let (_, p) ← armException env ⟨0, reg, mem, []⟩ Exc.RESET
  armWriteRegister p 13 (BitVec.ofNat 32 mem.size)

/-- The session that `main` begins on a memory; what `malloc` returns is left as it is. -/
def mainSession (env : Env) (mem : Memory) (breakpoints : ℕ → Word) (packet : ℕ → Byte)
    (buffer : Vector Byte MAX_ERROR_SIZE) : Except Crash Session := do
  let arm ← armCreate env registersCreate mem
  return Session.start arm breakpoints packet buffer

end create

/-- The second is the first one on the other host. -/
abbrev OnHost (b o : Bool) (g g' : Gdb) : Prop := g' = g.onHost b o

section send
variable {b o : Bool} (g : Gdb)

theorem rioWriten_onHost (bytes : List Byte) :
    Agree (OnHost b o) (rioWriten g bytes) (rioWriten (g.onHost b o) bytes) :=
  agree_ite Iff.rfl (fun _ _ => rfl) (fun _ _ => rfl)

theorem put_onHost (i : ℕ) (s : List Byte) :
    Agree (OnHost b o) (g.put i s) ((g.onHost b o).put i s) := by
  apply agree_bind (storeText GdbFault.packetBuffer MAX_PACKET_SIZE g.packet i s)
  intro packet _
  rfl

theorem gdbSendBuffer_onHost :
    Agree (OnHost b o) (gdbSendBuffer g) (gdbSendBuffer (g.onHost b o)) := by
  unfold gdbSendBuffer
  apply (put_onHost g 0 [0x24]).bind
  rintro g _ _ _ rfl
  apply agree_bind (gdbChecksumLoop g.packet (MAX_PACKET_SIZE - 1) 1 0)
  rintro ⟨i, check⟩ _
  apply (put_onHost g _ _).bind
  rintro g _ _ _ rfl
  apply (put_onHost g _ _).bind
  rintro g _ _ _ rfl
  apply (put_onHost g _ _).bind
  rintro g _ _ _ rfl
  exact rioWriten_onHost _ _

theorem gdbSendData_onHost (data : List Byte) :
    Agree (OnHost b o) (gdbSendData g data) (gdbSendData (g.onHost b o) data) := by
  apply (put_onHost g 1 _).bind
  rintro g _ _ _ rfl
  exact gdbSendBuffer_onHost g

theorem gdbSendStopReason_onHost :
    Agree (OnHost b o) (gdbSendStopReason g) (gdbSendStopReason (g.onHost b o)) :=
  gdbSendData_onHost g _

end send

section handlers
variable {b o e : Bool} (env : GdbEnv) (fuel : ℕ) (g : Gdb) (data : List Byte)

theorem Agree.simulated {α : Type} {R : α → α → Prop} {x y : Except Crash α} (h : Agree R x y) :
    Agree R (simulated x) (simulated y) := by
  match x, y, h with
  | .ok a, .ok b, h => exact h
  | .error _, .error _, h => exact congrArg GdbFault.crash h

theorem gdbSingleStep_onHost (k : ℕ) :
    Agree (OnHost b o) (@gdbSingleStep ⟨b, e⟩ env k g)
      (@gdbSingleStep ⟨o, e⟩ env k (g.onHost b o)) := by
  apply (Agree.simulated (singleStep_onHost (env.steps k) g.arm env.trace)).bind
  rintro r _ _ _ rfl
  rfl

theorem contLoop_onHost (k : ℕ) :
    Agree (OnHost b o) (@contLoop ⟨b, e⟩ env fuel k g)
      (@contLoop ⟨o, e⟩ env fuel k (g.onHost b o)) := by
  induction fuel generalizing k g with
  | zero => rfl
  | succ fuel ih =>
    unfold contLoop
    apply (gdbSingleStep_onHost env g k).bind
    rintro g _ _ _ rfl
    dsimp only [Gdb.onHost, ArmCore.onHost]
    rw [registersGetMode_onHost, registersRead_onHost g.arm.reg (by decide)]
    apply agree_bind
    intro pc _
    apply agree_bind
    intro position _
    refine agree_ite Iff.rfl (fun _ _ => rfl) (fun _ _ => ?_)
    exact agree_ite Iff.rfl (fun _ _ => rfl) (fun _ _ => ih g (k + 1))

theorem query_onHost : Agree (OnHost b o) (query g data) (query (g.onHost b o) data) := by
  apply agree_bind
  intro s _
  split_ifs <;> exact gdbSendData_onHost g _

theorem setThread_onHost :
    Agree (OnHost b o) (setThread g data) (setThread (g.onHost b o) data) := by
  unfold setThread
  split
  · rfl
  · apply agree_bind
    intro value _
    exact agree_ite Iff.rfl (fun _ _ => gdbSendData_onHost g _)
      (fun _ _ => gdbSendData_onHost g _)

theorem readRegister_onHost (position reg : ℕ) :
    Agree (OnHost b o) (@readRegister ⟨b, e⟩ g position reg)
      (@readRegister ⟨o, e⟩ (g.onHost b o) position reg) := by
  unfold readRegister
  refine agree_ite Iff.rfl (fun hreg _ => ?_) (fun _ _ => rfl)
  dsimp only [Gdb.onHost, ArmCore.onHost]
  rw [registersGetMode_onHost, registersRead_onHost g.arm.reg (Nat.ne_of_lt hreg)]
  apply agree_bind
  intro value _
  exact put_onHost g position _

theorem readSingleRegister_onHost :
    Agree (OnHost b o) (@readSingleRegister ⟨b, e⟩ g data)
      (@readSingleRegister ⟨o, e⟩ (g.onHost b o) data) := by
  apply agree_bind
  intro reg _
  apply (readRegister_onHost g 1 _).bind
  rintro g _ _ _ rfl
  exact gdbSendBuffer_onHost g

/-- The loops of the image are at the same position on both hosts. -/
theorem readGeneralRegisters_onHost :
    Agree (OnHost b o) (@readGeneralRegisters ⟨b, e⟩ g data)
      (@readGeneralRegisters ⟨o, e⟩ (g.onHost b o) data) := by
  let Fields (s s' : Gdb × ℕ) : Prop := s' = (s.1.onHost b o, s.2)
  have hfield {x y : Except GdbFault Gdb} (h : Agree (OnHost b o) x y) (position : ℕ) :
      Agree Fields (x >>= fun g => pure (g, position)) (y >>= fun g => pure (g, position)) := by
    apply h.bind
    rintro g _ _ _ rfl
    rfl
  have hregisters : Agree Fields
      ((List.range 16).foldlM (fun (s : Gdb × ℕ) i =>
        @readRegister ⟨b, e⟩ s.1 s.2 i >>= fun g => pure (g, s.2 + 8)) (g, 1))
      ((List.range 16).foldlM (fun (s : Gdb × ℕ) i =>
        @readRegister ⟨o, e⟩ s.1 s.2 i >>= fun g => pure (g, s.2 + 8)) (g.onHost b o, 1)) := by
    refine agree_foldlM rfl ?_
    rintro i _ s _ rfl
    exact hfield (readRegister_onHost s.1 s.2 i) _
  unfold readGeneralRegisters
  apply hregisters.bind
  rintro s _ _ _ rfl
  apply Agree.bind (R := Fields)
  · refine agree_foldlM rfl ?_
    rintro _ _ s _ rfl
    refine agree_foldlM rfl ?_
    rintro _ _ s _ rfl
    exact hfield (put_onHost s.1 s.2 _) _
  rintro s _ _ _ rfl
  apply (put_onHost s.1 _ _).bind
  rintro g _ _ _ rfl
  dsimp only [Gdb.onHost, ArmCore.onHost]
  rw [registersReadCpsr_onHost]
  apply (put_onHost g _ _).bind
  rintro g _ _ _ rfl
  exact gdbSendBuffer_onHost g

theorem readMemoryLoop_onHost (size : ℕ) (address : Word) (position : ℕ) :
    Agree (OnHost b o) (readMemoryLoop size g address position)
      (readMemoryLoop size (g.onHost b o) address position) := by
  induction size generalizing g address position with
  | zero => rfl
  | succ size ih =>
    apply agree_bind (simulated (memoryReadByte g.arm.mem address 0))
    intro r _
    refine agree_ite Iff.rfl (fun _ _ => ?_) (fun _ _ => rfl)
    apply (put_onHost g position _).bind
    rintro g _ _ _ rfl
    exact ih g _ _

theorem readMemory_onHost :
    Agree (OnHost b o) (readMemory env g data) (readMemory env (g.onHost b o) data) := by
  apply agree_bind
  intro r _
  refine agree_ite Iff.rfl (fun _ _ => ?_) (fun _ _ => ?_)
  · apply (put_onHost g 1 _).bind
    rintro g _ _ _ rfl
    apply (readMemoryLoop_onHost g _ _ _).bind
    rintro g _ _ _ rfl
    exact gdbSendBuffer_onHost g
  · apply (put_onHost g 1 _).bind
    rintro g _ _ _ rfl
    exact gdbSendBuffer_onHost g

theorem writeRegister_onHost (reg : ℕ) (value : Word) :
    Agree (OnHost b o) (@writeRegister ⟨b, e⟩ g reg data value)
      (@writeRegister ⟨o, e⟩ (g.onHost b o) reg data value) := by
  apply agree_bind
  intro value _
  refine agree_ite Iff.rfl (fun hreg _ => ?_) (fun _ _ => rfl)
  dsimp only [Gdb.onHost, ArmCore.onHost]
  rw [registersGetMode_onHost]
  apply (Agree.simulated (registersWrite_onHost g.arm.reg (Nat.ne_of_lt hreg) _ value)).bind
  rintro r _ _ _ rfl
  rfl

theorem writeGeneralRegisters_onHost :
    Agree (OnHost b o) (@writeGeneralRegisters ⟨b, e⟩ env g data)
      (@writeGeneralRegisters ⟨o, e⟩ env (g.onHost b o) data) := by
  rw [@writeGeneralRegisters_eq ⟨b, e⟩, @writeGeneralRegisters_eq ⟨o, e⟩]
  apply Agree.bind (R := OnHost b o)
  · refine agree_foldlM rfl ?_
    rintro i _ g _ rfl
    exact writeRegister_onHost g _ i _
  rintro g _ _ _ rfl
  apply agree_bind
  intro value _
  dsimp only [Gdb.onHost, ArmCore.onHost]
  rw [registersWriteCpsr_onHost]
  exact gdbSendData_onHost { g with arm := { g.arm with
    reg := registersWriteCpsr g.arm.reg value } } _

theorem writeSingleRegister_onHost :
    Agree (OnHost b o) (@writeSingleRegister ⟨b, e⟩ env g data)
      (@writeSingleRegister ⟨o, e⟩ env (g.onHost b o) data) := by
  apply agree_bind
  intro reg _
  apply agree_bind
  intro data _
  apply agree_bind
  intro data _
  apply (writeRegister_onHost g data _ _).bind
  rintro g _ _ _ rfl
  exact gdbSendData_onHost g _

theorem writeMemoryLoop_onHost (size : ℕ) (address : Word) (content : TextPointer) :
    Agree (fun r r' => r' = (r.1.onHost b o, r.2)) (writeMemoryLoop size g address content)
      (writeMemoryLoop size (g.onHost b o) address content) := by
  induction size generalizing g address content with
  | zero => rfl
  | succ size ih =>
    unfold writeMemoryLoop
    apply agree_bind (content.deref)
    intro text _
    apply agree_bind
    intro r _
    apply agree_bind (simulated (memoryWriteByte g.arm.mem address r.1))
    intro w _
    exact agree_ite Iff.rfl
      (fun _ _ => ih { g with arm := { g.arm with mem := w.2 } } (address + 1) (some r.2))
      (fun _ _ => rfl)

theorem writeMemoryBinary_onHost :
    Agree (OnHost b o) (writeMemoryBinary env g data)
      (writeMemoryBinary env (g.onHost b o) data) := by
  apply agree_bind
  intro r _
  apply agree_bind
  intro content _
  apply Agree.bind (R := fun r r' : Gdb × Bool => r' = (r.1.onHost b o, r.2))
  · exact agree_ite Iff.rfl (fun _ _ => writeMemoryLoop_onHost g _ _ _) (fun _ _ => rfl)
  rintro s _ _ _ rfl
  exact agree_ite Iff.rfl (fun _ _ => gdbSendData_onHost s.1 _)
    (fun _ _ => gdbSendData_onHost s.1 _)

theorem setBreakpoint_onHost :
    Agree (OnHost b o) (setBreakpoint env g data) (setBreakpoint env (g.onHost b o) data) := by
  apply agree_bind
  intro r _
  refine agree_ite Iff.rfl (fun _ _ => gdbSendData_onHost g _) (fun _ _ => ?_)
  apply agree_bind (gdbAddBreakpoint g.toBreakpointTable r.2)
  intro t _
  exact agree_ite Iff.rfl (fun _ _ => gdbSendData_onHost { g with toBreakpointTable := t.2 } _)
    (fun _ _ => gdbSendData_onHost { g with toBreakpointTable := t.2 } _)

theorem removeBreakpoint_onHost :
    Agree (OnHost b o) (removeBreakpoint env g data)
      (removeBreakpoint env (g.onHost b o) data) := by
  apply agree_bind
  intro r _
  refine agree_ite Iff.rfl (fun _ _ => gdbSendData_onHost g _) (fun _ _ => ?_)
  apply agree_bind (gdbRemoveBreakpoint g.toBreakpointTable r.2)
  intro t _
  exact agree_ite Iff.rfl (fun _ _ => gdbSendData_onHost { g with toBreakpointTable := t.2 } _)
    (fun _ _ => gdbSendData_onHost { g with toBreakpointTable := t.2 } _)

/-- The tables of the two hosts have the same commands. -/
theorem handler_onHost (index : Byte) :
    Option.Rel (fun handle handle' => ∀ g data,
        Agree (OnHost b o) (handle g data) (handle' (g.onHost b o) data))
      (@handler ⟨b, e⟩ env fuel index) (@handler ⟨o, e⟩ env fuel index) := by
  have hcont (g : Gdb) (data : List Byte) : Agree (OnHost b o) (@cont ⟨b, e⟩ env fuel g data)
      (@cont ⟨o, e⟩ env fuel (g.onHost b o) data) := by
    apply (contLoop_onHost env fuel g 0).bind
    rintro g _ _ _ rfl
    exact gdbSendStopReason_onHost g
  have hstep (g : Gdb) (data : List Byte) : Agree (OnHost b o) (@step ⟨b, e⟩ env g data)
      (@step ⟨o, e⟩ env (g.onHost b o) data) := by
    apply (gdbSingleStep_onHost env g 0).bind
    rintro g _ _ _ rfl
    exact gdbSendStopReason_onHost g
  unfold handler
  split
  · exact .some hcont
  · exact .some hcont
  · exact .some (fun _ _ => rfl)
  · exact .some query_onHost
  · exact .some readGeneralRegisters_onHost
  · exact .some (readMemory_onHost env)
  · exact .some readSingleRegister_onHost
  · exact .some (fun g _ => gdbSendStopReason_onHost g)
  · exact .some setThread_onHost
  · exact .some hstep
  · exact .some hstep
  · exact .some (writeGeneralRegisters_onHost env)
  · exact .some (writeMemoryBinary_onHost env)
  · exact .some (writeSingleRegister_onHost env)
  · exact .some (removeBreakpoint_onHost env)
  · exact .some (setBreakpoint_onHost env)
  · exact .none

theorem gdbPacketAnalysis_onHost (packet : List Byte) :
    Agree (OnHost b o) (@gdbPacketAnalysis ⟨b, e⟩ env fuel g packet)
      (@gdbPacketAnalysis ⟨o, e⟩ env fuel (g.onHost b o) packet) := by
  unfold gdbPacketAnalysis
  apply agree_bind
  intro given _
  refine agree_ite Iff.rfl (fun _ _ => ?_) (fun _ _ => rioWriten_onHost g _)
  apply (rioWriten_onHost g [0x2B]).bind
  rintro g _ _ _ rfl
  dsimp only
  generalize ((packet ++ 0 :: env.rest).set (max 1 (packet.length - 3)) 0).getD 1 0 = index
  have hhandler := handler_onHost (b := b) (o := o) (e := e) env fuel index
  revert hhandler
  generalize @handler ⟨b, e⟩ env fuel index = x
  generalize @handler ⟨o, e⟩ env fuel index = y
  intro hhandler
  cases hhandler with
  | some h => exact h g _
  | none => exact gdbSendData_onHost g []

theorem runEvent_onHost (event : Event) :
    Agree (OnHost b o) (@runEvent ⟨b, e⟩ env fuel g event)
      (@runEvent ⟨o, e⟩ env fuel (g.onHost b o) event) := by
  cases event with
  | requireRetransmission => exact rioWriten_onHost g [0x2D]
  | transmitPacket => exact rioWriten_onHost g _
  | packetAnalysis yytext => exact gdbPacketAnalysis_onHost env fuel g yytext
  | echo yytext => rfl

theorem serveToken_onHost (parser : ParserData) (t : Token Byte) :
    Agree (fun r r' => r' = (r.1, r.2.onHost b o))
      (@serveToken ⟨b, e⟩ env fuel parser g t)
      (@serveToken ⟨o, e⟩ env fuel parser (g.onHost b o) t) := by
  apply agree_bind (simulated (tokenAction parser t))
  intro r _
  apply Agree.bind (R := OnHost b o)
  · refine agree_foldlM rfl ?_
    rintro event _ g _ rfl
    exact runEvent_onHost env fuel g event
  rintro g _ _ _ rfl
  rfl

end handlers

section sessions
variable {b o e : Bool}

theorem perform_onHost (s : Session) (a : Activity) :
    Agree (fun t t' => t' = t.onHost b o) (@perform ⟨b, e⟩ s a)
      (@perform ⟨o, e⟩ (s.onHost b o) a) := by
  cases a with
  | token env fuel t =>
    apply (serveToken_onHost env fuel s.gdb s.parser t).bind
    rintro r _ _ _ rfl
    rfl
  | irq env irq =>
    unfold perform irqListener
    dsimp only [Session.onHost, Gdb.onHost]
    apply Agree.bind (R := OnHost b o)
    · apply (Agree.simulated (armException_onHost env s.gdb.arm irq.toNat)).bind
      rintro r _ _ _ rfl
      rfl
    rintro g _ _ _ rfl
    rfl

theorem performAll_onHost (as : List Activity) (s : Session) :
    Agree (fun r r' => r' = (r.1, r.2.onHost b o)) (@performAll ⟨b, e⟩ as s)
      (@performAll ⟨o, e⟩ as (s.onHost b o)) := by
  induction as generalizing s with
  | nil => rfl
  | cons a as ih =>
    unfold performAll
    apply (perform_onHost s a).bind
    rintro t _ _ _ rfl
    apply (ih t).bind
    rintro r _ _ _ rfl
    rfl

theorem registersCreate_onHost : registersCreate.onHost b o = registersCreate := by
  funext c
  unfold Registers.onHost registersCreate
  split
  · rfl
  · decide

theorem mainSession_onHost (env : Env) (mem : Memory) (breakpoints : ℕ → Word)
    (packet : ℕ → Byte) (buffer : Vector Byte MAX_ERROR_SIZE) :
    Agree (fun s s' => s' = s.onHost b o) (@mainSession ⟨b, e⟩ env mem breakpoints packet buffer)
      (@mainSession ⟨o, e⟩ env mem breakpoints packet buffer) := by
  have hcreate : Agree (fun p p' => p' = p.onHost b o)
      (@armCreate ⟨b, e⟩ env registersCreate mem) (@armCreate ⟨o, e⟩ env registersCreate mem) := by
    have hreset := armException_onHost (b := b) (o := o) (e := e) env ⟨0, registersCreate, mem, []⟩
      Exc.RESET
    unfold ArmCore.onHost at hreset
    rw [registersCreate_onHost] at hreset
    apply hreset.bind
    rintro r _ _ _ rfl
    exact armWriteRegister_onHost r.2 (by decide) _
  apply hcreate.bind
  rintro p _ _ _ rfl
  rfl

end sessions

end ArmSim
