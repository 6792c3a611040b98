import ArmSim.HexText
import ArmSim.Lib.TextBuffer
import ArmSim.Trace
import Mathlib.Data.BitVec

/-! `gdb_protocol.c`: the packets of the debugger, their handlers, and the one buffer in
which every reply is built and kept for retransmission. -/
namespace ArmSim
open Lib

abbrev MAX_PACKET_SIZE : ℕ := 4096

/-- What is done to `gdb->fd`. -/
inductive Sent where
  | written (bytes : List Byte)
  | shutdown
deriving DecidableEq, Repr

/-- `struct gdb_protocol_data`: `arm` stands for the three pointers to one machine, and
`sent` for `fd`, with what has been done to it so far.  `buffer` is always `packet + 1`. -/
structure Gdb extends BreakpointTable where
  arm : ArmCore
  targetException : ℤ
  packet : ℕ → Byte
  len : ℕ
  sent : List Sent

/-- What serving one packet finds outside: the steps' environments, the trace, the
contents of the local variables the source leaves uninitialised (`value` for each call of
`read_uint32`), and the memory behind the text of the packet. -/
structure GdbEnv where
  steps : ℕ → Env
  trace : Trace
  address : Word
  size : Word
  reg : Word
  given : Word
  type : Byte
  value : ℕ → Word
  rest : List Byte

/-- Nothing is traced, and zeros are found everywhere. -/
def zeroEnv : GdbEnv where
  steps := fun _ => ⟨0, 0, 0, 0⟩
  trace := ⟨false, false, fun _ => false⟩
  address := 0
  size := 0
  reg := 0
  given := 0
  type := 0
  value := fun _ => 0
  rest := []

/-- A fault of the simulator ends the handler that caused it. -/
def simulated {α : Type} (x : Except Crash α) : Except GdbFault α := x.mapError .crash

/-- The sending side of the connection has not been shut down. -/
def Gdb.Connected (gdb : Gdb) : Prop := Sent.shutdown ∉ gdb.sent

instance (gdb : Gdb) : Decidable gdb.Connected := inferInstanceAs (Decidable (_ ∉ gdb.sent))

def Gdb.wrote (gdb : Gdb) (bytes : List Byte) : Gdb :=
  { gdb with sent := gdb.sent ++ [.written bytes] }

-- Behind `shutdown` the first `write` ends the simulator, by SIGPIPE or in `unix_error`; of no
-- bytes there is none.
def rioWriten (gdb : Gdb) (bytes : List Byte) : Except GdbFault Gdb :=
  if gdb.Connected ∨ bytes = [] then return gdb.wrote bytes
  else throw .brokenPipe

/-- Characters stored into `gdb->packet` from index `i` on. -/
def Gdb.put (gdb : Gdb) (i : ℕ) (s : List Byte) : Except GdbFault Gdb := do
  return { gdb with packet := ← storeText .packetBuffer MAX_PACKET_SIZE gdb.packet i s }

def gdbSendAck (gdb : Gdb) : Except GdbFault Gdb := rioWriten gdb [0x2B]

def gdbRequireRetransmission (gdb : Gdb) : Except GdbFault Gdb := rioWriten gdb [0x2D]

def gdbTransmitPacket (gdb : Gdb) : Except GdbFault Gdb :=
  rioWriten gdb (slice gdb.packet 0 gdb.len)

/-- The loop of `gdb_send_buffer` from index `i` on, with `room` more characters in the
buffer: the index of the NUL and the sum. -/
def gdbChecksumLoop (packet : ℕ → Byte) : (room i : ℕ) → Byte → Except GdbFault (ℕ × Byte)
  | 0, _, _ => throw .packetBuffer
  | room + 1, i, check =>
    if packet i ≠ 0 then gdbChecksumLoop packet room (i + 1) (check + packet i)
    else return (i, check)

def gdbSendBuffer (gdb : Gdb) : Except GdbFault Gdb := do
  let gdb ← gdb.put 0 [0x24]
  let (i, check) ← gdbChecksumLoop gdb.packet (MAX_PACKET_SIZE - 1) 1 0
  let gdb ← gdb.put i [0x23]
  let i := i + 1
  let gdb ← gdb.put i (hexText 2 check.toNat ++ [0])
  let i := i + 2
  let gdb ← gdb.put i [0]
  let gdb := { gdb with len := i }
  gdbTransmitPacket gdb

-- The NUL is copied too.
def gdbSendData (gdb : Gdb) (data : List Byte) : Except GdbFault Gdb := do
  let gdb ← gdb.put 1 (data ++ [0])
  gdbSendBuffer gdb

def readUint32 (data : List Byte) (value : Word) : Except GdbFault Word :=
  sscanfX (some 8) data value

def writeUint32 (gdb : Gdb) (position : ℕ) (value : Word) : Except GdbFault Gdb :=
  gdb.put position (hexText 8 value.toNat ++ [0])

def gdbSendStopReason (gdb : Gdb) : Except GdbFault Gdb :=
  gdbSendData gdb (text (gdbStopReason gdb.targetException))

section handlers
variable [Platform] (env : GdbEnv) (fuel : ℕ)

-- The handlers run `single_step` of the protocol once or in a loop; `k` counts the steps.
def gdbSingleStep (k : ℕ) (gdb : Gdb) : Except GdbFault Gdb := do
  let (targetException, arm) ← simulated (singleStep (env.steps k) env.trace gdb.arm)
  return { gdb with targetException := targetException, arm := arm }

/-- The loop of `cont`, followed for at most `fuel` steps. -/
def contLoop : (fuel k : ℕ) → Gdb → Except GdbFault Gdb
  | 0, _, _ => throw .stillRunning
  | fuel + 1, k, gdb => do
    let gdb ← gdbSingleStep env k gdb
    let PCr ← simulated (registersRead gdb.arm.reg 15 (registersGetMode gdb.arm.reg))
    let position ← gdbFindBreakpoint gdb.toBreakpointTable PCr
    if position ≠ -1 then
      return gdb
    else if gdb.targetException ≠ 0 then
      return gdb
    else
      contLoop fuel (k + 1) gdb

def cont (gdb : Gdb) (_data : List Byte) : Except GdbFault Gdb := do
  let gdb ← contLoop env fuel 0 gdb
  gdbSendStopReason gdb

def contWithSignal (gdb : Gdb) (data : List Byte) : Except GdbFault Gdb := cont env fuel gdb data

def killRequest (gdb : Gdb) (_data : List Byte) : Except GdbFault Gdb :=
  return { gdb with sent := gdb.sent ++ [.shutdown] }

def query (gdb : Gdb) (data : List Byte) : Except GdbFault Gdb := do
  let s ← cString data
  if s = text "Offsets" then
    gdbSendData gdb (text "Text=0;Data=0;Bss=0")
  else if s.take 9 = text "Supported" then
    gdbSendData gdb (text "PacketSize=400")
  else if s = text "TStatus" then
    gdbSendData gdb (text "T0;tnotrun:0")
  else if s = text "Symbol::" then
    gdbSendData gdb []
  else
    gdbSendData gdb []

def readRegister (gdb : Gdb) (position reg : ℕ) : Except GdbFault Gdb := do
  if reg < 16 then
    let value ← simulated (registersRead gdb.arm.reg reg (registersGetMode gdb.arm.reg))
    writeUint32 gdb position value
  else
    throw .assertion

def readGeneralRegisters (gdb : Gdb) (_data : List Byte) : Except GdbFault Gdb := do
  let position := 1
  let (gdb, position) ← (List.range 16).foldlM (fun (s : Gdb × ℕ) i => do
    return (← readRegister s.1 s.2 i, s.2 + 8)) (gdb, position)
  let (gdb, position) ← (List.range 8).foldlM (fun (s : Gdb × ℕ) _ =>
    (List.range 3).foldlM (fun (s : Gdb × ℕ) _ => do
      return (← s.1.put s.2 (text "xxxxxxxx" ++ [0]), s.2 + 8)) s) (gdb, position)
  let gdb ← gdb.put position (text "xxxxxxxx" ++ [0])
  let position := position + 8
  let gdb ← writeUint32 gdb position (registersReadCpsr gdb.arm.reg)
  gdbSendBuffer gdb

/-- The loop of `read_memory` for `size` more bytes. -/
def readMemoryLoop : (size : ℕ) → Gdb → Word → (position : ℕ) → Except GdbFault Gdb
  | 0, gdb, _, _ => return gdb
  | size + 1, gdb, address, position => do
    let (result, value) ← simulated (memoryReadByte gdb.arm.mem address 0)
    if result ≠ -1 then
      let gdb ← gdb.put position (hexText 2 value.toNat ++ [0])
      readMemoryLoop size gdb (address + 1) (position + 2)
    else
      return gdb

def readMemory (gdb : Gdb) (data : List Byte) : Except GdbFault Gdb := do
  let (address, size) ← sscanfXX data env.address env.size
  let position := 1
  if address.toNat < gdb.arm.mem.size then
    let gdb ← gdb.put position [0]
    let gdb ← readMemoryLoop size.toNat gdb address position
    gdbSendBuffer gdb
  else
    -- `EFAULT` is 14.
    let gdb ← gdb.put position (text "E0E" ++ [0])
    gdbSendBuffer gdb

def readSingleRegister (gdb : Gdb) (data : List Byte) : Except GdbFault Gdb := do
  let reg ← atoi data
  -- The parameter of `read_register` has eight bits.
  let gdb ← readRegister gdb 1 (reg.toNat % 256)
  gdbSendBuffer gdb

def reason (gdb : Gdb) (_data : List Byte) : Except GdbFault Gdb := gdbSendStopReason gdb

def setThread (gdb : Gdb) (data : List Byte) : Except GdbFault Gdb :=
  match data with
  | [] => throw .packetText
  | type :: data => do
    let value ← atoi data
    if (type = 0x63 ∨ type = 0x67) ∧ value.toInt < 1 ∧ -2 < value.toInt then
      gdbSendData gdb (text "OK")
    else
      gdbSendData gdb (text "E01")

def step (gdb : Gdb) (_data : List Byte) : Except GdbFault Gdb := do
  let gdb ← gdbSingleStep env 0 gdb
  gdbSendStopReason gdb

def stepWithSignal (gdb : Gdb) (data : List Byte) : Except GdbFault Gdb := step env gdb data

/-- `write_register`; `value` is what its local variable holds before the text is read. -/
def writeRegister (gdb : Gdb) (reg : ℕ) (data : List Byte) (value : Word) :
    Except GdbFault Gdb := do
  let value ← readUint32 data value
  if reg < 16 then
    let r ← simulated (registersWrite gdb.arm.reg reg (registersGetMode gdb.arm.reg) value)
    return { gdb with arm := { gdb.arm with reg := r } }
  else
    throw .assertion

-- The fields of the floating-point registers and of their status are skipped.
def writeGeneralRegisters (gdb : Gdb) (data : List Byte) : Except GdbFault Gdb := do
  let position := data
  let (gdb, position) ← (List.range 16).foldlM (fun (s : Gdb × List Byte) i => do
    return (← writeRegister s.1 i s.2 (env.value i), s.2.drop 8)) (gdb, position)
  let position := (List.range 8).foldl (fun position _ =>
    (List.range 3).foldl (fun (position : List Byte) _ => position.drop 8) position) position
  let position := position.drop 8
  let value ← readUint32 position (env.value 16)
  let gdb := { gdb with arm := { gdb.arm with reg := registersWriteCpsr gdb.arm.reg value } }
  gdbSendData gdb (text "OK")

def writeSingleRegister (gdb : Gdb) (data : List Byte) : Except GdbFault Gdb := do
  let reg ← sscanfX none data env.reg
  let data ← indexNext data 0x3D
  let gdb ← writeRegister gdb reg.toNat (← data.deref) (env.value 0)
  gdbSendData gdb (text "OK")

/-- One byte of binary data: an escaped one is two characters long. -/
def binaryByte : List Byte → Except GdbFault (Byte × List Byte)
  | [] => throw .packetText
  | c :: content =>
    if c = 0x7D then
      match content with
      | [] => throw .packetText
      | d :: content => return (d ^^^ 0x20, content)
    else return (c, content)

/-- The loop of `write_memory_binary` for `size` more bytes, and `write_ok` at its end. -/
def writeMemoryLoop : (size : ℕ) → Gdb → Word → TextPointer → Except GdbFault (Gdb × Bool)
  | 0, gdb, _, _ => return (gdb, true)
  | size + 1, gdb, address, content => do
    let (value, content) ← binaryByte (← content.deref)
    let (result, mem) ← simulated (memoryWriteByte gdb.arm.mem address value)
    let gdb := { gdb with arm := { gdb.arm with mem := mem } }
    if result = 0 then writeMemoryLoop size gdb (address + 1) (some content)
    else return (gdb, false)

def writeMemoryBinary (gdb : Gdb) (data : List Byte) : Except GdbFault Gdb := do
  let (address, size) ← sscanfXX data env.address env.size
  let content ← indexNext data 0x3A
  let (gdb, writeOk) ←
    (if address.toNat < gdb.arm.mem.size then writeMemoryLoop size.toNat gdb address content
    else return (gdb, false))
  if writeOk then
    gdbSendData gdb (text "OK")
  else
    gdbSendData gdb (text "E02")

def setBreakpoint (gdb : Gdb) (data : List Byte) : Except GdbFault Gdb := do
  let (type, address) ← sscanfHhxX data env.type env.address
  if type ≠ 0 then
    gdbSendData gdb (text "E03")
  else
    let (added, table) ← gdbAddBreakpoint gdb.toBreakpointTable address
    let gdb := { gdb with toBreakpointTable := table }
    if added ≠ 0 then
      gdbSendData gdb (text "OK")
    else
      gdbSendData gdb (text "E04")

def removeBreakpoint (gdb : Gdb) (data : List Byte) : Except GdbFault Gdb := do
  let (type, address) ← sscanfHhxX data env.type env.address
  if type ≠ 0 then
    gdbSendData gdb (text "E03")
  else
    let (removed, table) ← gdbRemoveBreakpoint gdb.toBreakpointTable address
    let gdb := { gdb with toBreakpointTable := table }
    if removed ≠ 0 then
      gdbSendData gdb (text "OK")
    else
      gdbSendData gdb (text "E05")

/-- `gdb_init_data`; `malloc` leaves the breakpoints and the buffer as they are. -/
def gdbInitData (arm : ArmCore) (breakpoints : ℕ → Word) (packet : ℕ → Byte) : Gdb where
  breakpoints := breakpoints
  breakpointsNumber := 0
  arm := arm
  targetException := 0
  packet := packet
  len := 0
  sent := []

/-- The table that `gdb_init` fills. -/
def handler (index : Byte) : Option (Gdb → List Byte → Except GdbFault Gdb) :=
  match index with
  | 0x63 => some (cont env fuel)
  | 0x43 => some (contWithSignal env fuel)
  | 0x6B => some killRequest
  | 0x71 => some query
  | 0x67 => some readGeneralRegisters
  | 0x6D => some (readMemory env)
  | 0x70 => some readSingleRegister
  | 0x3F => some reason
  | 0x48 => some setThread
  | 0x73 => some (step env)
  | 0x53 => some (stepWithSignal env)
  | 0x47 => some (writeGeneralRegisters env)
  | 0x58 => some (writeMemoryBinary env)
  | 0x50 => some (writeSingleRegister env)
  | 0x7A => some (removeBreakpoint env)
  | 0x5A => some (setBreakpoint env)
  | _ => none

/-- The end of the loop over `packet[1]` to `packet[length - 4]`, and their sum. -/
def packetCheck (packet : List Byte) : ℕ × Byte :=
  let i := max 1 (packet.length - 3)
  (i, ((packet.take i).drop 1).sum)

-- The scanner ends the text of the packet with a NUL.
def gdbPacketAnalysis (gdb : Gdb) (packet : List Byte) : Except GdbFault Gdb := do
  let (i, check) := packetCheck packet
  let given ← sscanfX none ((packet ++ 0 :: env.rest).drop (i + 1)) env.given
  if check.toNat = given.toNat then
    let gdb ← gdbSendAck gdb
    let data := (packet ++ 0 :: env.rest).set i 0
    let index := data.getD 1 0
    match handler env fuel index with
    | some handle => handle gdb (data.drop 2)
    | none => gdbSendData gdb []
  else
    gdbRequireRetransmission gdb

/-- The actions of the scanner, on the protocol's data. -/
def runEvent (gdb : Gdb) (event : Event) : Except GdbFault Gdb :=
  match event with
  | .requireRetransmission => gdbRequireRetransmission gdb
  | .transmitPacket => gdbTransmitPacket gdb
  | .packetAnalysis yytext => gdbPacketAnalysis env fuel gdb yytext
  | .echo _ => return gdb

/-- One token of the scanner. -/
def serveToken (data : ParserData) (gdb : Gdb) (token : Token Byte) :
    Except GdbFault (ParserData × Gdb) := do
  let (data, events) ← simulated (tokenAction data token)
  let gdb ← events.foldlM (runEvent env fuel) gdb
  return (data, gdb)

end handlers

end ArmSim
