import ArmSim.Instruction

/-! `trace.c` and the debugger's single step: the state trace reads every traced
mode's registers after each step. -/
namespace ArmSim
open Lib

/-- The static variables of `trace.c` that decide the state trace: `enabled`, the
`STATE` bit of `trace_flags` and the array `states`. -/
structure Trace where
  enabled : Bool
  state : Bool
  states : ℕ → Bool

/-- The modes `arm_get_mode_name` knows. -/
def armGetModeName (mode : ℕ) : Option String :=
  match mode with
  | Mode.USR => some "USR"
  | Mode.FIQ => some "FIQ"
  | Mode.IRQ => some "IRQ"
  | Mode.SVC => some "SVC"
  | Mode.ABT => some "ABT"
  | Mode.UND => some "UND"
  | Mode.SYS => some "SYS"
  | _ => none

/-- The modes whose registers the state trace prints, in its order. -/
def tracedModes (t : Trace) : List ℕ :=
  if t.enabled ∧ t.state then
    (List.range 32).filter (fun mode => (armGetModeName mode).isSome && t.states mode)
  else []

variable [Platform]

/-- The line printed for one mode: r0-r15, the CPSR and the SPSR. -/
def traceArmMode (r : Registers) (mode : ℕ) : Except Crash (List Word) := do
  let general ← (List.range 16).mapM (fun reg => registersRead r reg mode)
  let spsr ← registersReadSpsr r mode
  return general ++ [registersReadCpsr r, spsr]

def traceArmState (t : Trace) (r : Registers) : Except Crash (List (List Word)) :=
  (tracedModes t).mapM (traceArmMode r)

/-- `single_step` of `gdb_protocol.c`: the step and the trace of the state it leaves.
The result is the stored `target_exception`. -/
def singleStep (env : Env) (t : Trace) (p : ArmCore) : Except Crash (ℤ × ArmCore) := do
  let (targetException, p) ← armStep env p
  let _ ← traceArmState t p.reg
  return (targetException, p)

/-- The action `gdb_send_stop_reason` sends. -/
def gdbStopReason (targetException : ℤ) : String :=
  if targetException = Exc.UNDEFINED_INSTRUCTION then "S04"
  else if targetException = Exc.PREFETCH_ABORT then "S0A"
  else if targetException = Exc.DATA_ABORT then "S0B"
  else if targetException = Exc.END_SIMULATION then "X05"
  else "S05"

end ArmSim
