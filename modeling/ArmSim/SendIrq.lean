import ArmSim.Debug
import ArmSim.InterruptEntry
import ArmSim.Session

/-! `send_irq.c` and the thread that receives: what the commands that are given can do to the
simulator between two of its steps. -/
namespace ArmSim
open Lib

/-- `arm_get_exception_name`: the table has one more name than the test lets through. -/
def armGetExceptionName (exception : Byte) : Option String :=
  if exception < 8 then
    match exception.toNat with
    | Exc.RESET => some "reset"
    | Exc.DATA_ABORT => some "data abort"
    | Exc.FAST_INTERRUPT => some "fast interrupt"
    | Exc.INTERRUPT => some "interrupt"
    | Exc.IMPRECISE_ABORT => some "imprecise abort"
    | Exc.PREFETCH_ABORT => some "prefetch abort"
    | Exc.UNDEFINED_INSTRUCTION => some "undefined instruction"
    | _ => none
  else none

/-- The search for the name, from `irq` on: there are no names from the eighth on. -/
def sendIrqLoop (wanted : List Byte) : (room : ℕ) → Byte → Option Byte
  | 0, _ => none
  | room + 1, irq =>
    match armGetExceptionName irq with
    | some name => if strcmp (text name) wanted = .eq then some irq
      else sendIrqLoop wanted room (irq + 1)
    | none => none

/-- Who takes the connection: the simulator's listener or another program. -/
inductive Peer where
  | simulator
  | other
deriving DecidableEq, Repr

/-- What the calls from `Socket` to `Write` come to for a host and a port: the byte is written to a
peer, or one of them ends the program. -/
abbrev Network := List Byte → List Byte → Option Peer

/-- The interrupt that the arguments behind the port choose. -/
def sendIrqNumber : List (List Byte) → Except ℕ Byte
  | [] => return BitVec.ofNat 8 Exc.INTERRUPT
  | wanted :: _ =>
    match sendIrqLoop wanted 8 (BitVec.ofNat 8 Exc.RESET) with
    | some irq => return irq
    | none => throw 2

/-- `main` of `send_irq.c` on the arguments behind its name: the byte that it writes and to whom, or
the status with which it exits before. -/
def sendIrq (net : Network) : List (List Byte) → Except ℕ (Peer × Byte)
  | [] => throw 1
  | [_] => throw 1
  | host :: port :: rest => do
    let irq ← sendIrqNumber rest
    -- `unix_error` and `dns_error` exit with 0.
    match net host port with
    | some peer => return (peer, irq)
    | none => throw 0

/-- The name that is asked for. -/
def requested : List (List Byte) → Option (List Byte)
  | [_, _] => some (text "interrupt")
  | _ :: _ :: wanted :: _ => some wanted
  | _ => none

/-- The command's host and port lead to the simulator's listener. -/
def Reaches (net : Network) : List (List Byte) → Prop
  | host :: port :: _ => net host port = some .simulator
  | _ => False

instance (net : Network) : (args : List (List Byte)) → Decidable (Reaches net args)
  | [] => .isFalse id
  | [_] => .isFalse id
  | host :: port :: _ => inferInstanceAs (Decidable (net host port = some .simulator))

section names

/-- The seven exceptions that can be sent: no software interrupt. -/
theorem armGetExceptionName_range {e : Byte} {name : String}
    (h : armGetExceptionName e = some name) :
    1 ≤ e.toNat ∧ e.toNat < 8 := by
  have hall : ∀ e : Byte, (armGetExceptionName e).isSome → 1 ≤ e.toNat ∧ e.toNat < 8 := by decide
  exact hall e (by rw [h]; rfl)

theorem armGetExceptionName_unique {e e' : Byte} {a b : String} (h : armGetExceptionName e = some a)
    (h' : armGetExceptionName e' = some b) (hab : text a = text b) : e = e' := by
  have hall : ∀ n < 8, ∀ m < 8, (armGetExceptionName (BitVec.ofNat 8 n)).isSome →
      (armGetExceptionName (BitVec.ofNat 8 n)).map text =
        (armGetExceptionName (BitVec.ofNat 8 m)).map text → n = m := by decide +kernel
  have he (e : Byte) : BitVec.ofNat 8 e.toNat = e := BitVec.ofNat_toNat 8 e ▸ BitVec.setWidth_eq e
  apply BitVec.eq_of_toNat_eq
  refine hall _ (armGetExceptionName_range h).2 _ (armGetExceptionName_range h').2 ?_ ?_
  · rw [he, h]
    rfl
  · rw [he, he, h, h', Option.map_some, Option.map_some, hab]

/-- From `n` on the search finds the exception of that name. -/
theorem sendIrqLoop_iff {wanted : List Byte} {room n : ℕ} (hn : n + room = 9) (h1 : 1 ≤ n)
    {e : Byte} :
    sendIrqLoop wanted room (BitVec.ofNat 8 n) = some e ↔
      n ≤ e.toNat ∧ ∃ name, armGetExceptionName e = some name ∧ wanted = text name := by
  induction room generalizing n with
  | zero =>
    refine iff_of_false (fun h => by cases h) ?_
    intro h
    obtain ⟨hle, name, hname, -⟩ := h
    have hrange := armGetExceptionName_range hname
    omega
  | succ room ih =>
    have hvalue : (BitVec.ofNat 8 n).toNat = n := by
      rw [BitVec.toNat_ofNat]
      omega
    have hnext : BitVec.ofNat 8 n + 1 = BitVec.ofNat 8 (n + 1) := BitVec.ofNat_add n 1 |>.symm
    unfold sendIrqLoop
    cases hname : armGetExceptionName (BitVec.ofNat 8 n) with
    | none =>
      -- The names have no gap, so that the search ends behind all of them.
      have hnames : ∀ n < 8, 1 ≤ n → armGetExceptionName (BitVec.ofNat 8 n) ≠ none := by decide
      refine iff_of_false (fun h => by cases h) (fun h => ?_)
      obtain ⟨hle, name, hname', -⟩ := h
      have hrange := armGetExceptionName_range hname'
      exact hnames n (by omega) h1 hname
    | some name =>
      dsimp only
      rw [hnext]
      by_cases hfound : text name = wanted
      · rw [if_pos (strcmp_eq_iff.mpr hfound), Option.some.injEq]
        constructor
        · rintro rfl
          exact ⟨hvalue.ge, name, hname, hfound.symm⟩
        · intro h
          obtain ⟨-, name', hname', hwanted⟩ := h
          exact armGetExceptionName_unique hname hname' (hfound.trans hwanted)
      · rw [if_neg (fun h => hfound (strcmp_eq_iff.mp h)), ih (by omega) (by omega)]
        have hother (h : ∃ name, armGetExceptionName e = some name ∧ wanted = text name) :
            e.toNat ≠ n := by
          intro he
          obtain ⟨name', hname', hwanted⟩ := h
          obtain rfl : e = BitVec.ofNat 8 n := BitVec.eq_of_toNat_eq (he.trans hvalue.symm)
          rw [hname] at hname'
          exact hfound (hwanted ▸ congrArg text (Option.some.inj hname'))
        constructor
        · exact fun h => ⟨by omega, h.2⟩
        · exact fun h => ⟨Nat.lt_of_le_of_ne h.1 (hother h.2).symm, h.2⟩

/-- The simulator gets the byte of the name that is asked for, from the commands that reach it. -/
theorem sendIrq_iff {net : Network} {args : List (List Byte)} {e : Byte} :
    sendIrq net args = .ok (.simulator, e) ↔
      Reaches net args ∧
        ∃ name, armGetExceptionName e = some name ∧ requested args = some (text name) := by
  rcases args with _ | ⟨host, _ | ⟨port, rest⟩⟩
  · exact iff_of_false (fun h => by cases h) (fun h => h.1)
  · exact iff_of_false (fun h => by cases h) (fun h => h.1)
  have hnumber : sendIrqNumber rest = .ok e ↔
      ∃ name, armGetExceptionName e = some name ∧
        requested (host :: port :: rest) = some (text name) := by
    cases rest with
    | nil =>
      have hdefault : armGetExceptionName 4 = some "interrupt" := rfl
      constructor
      · intro h
        cases h
        exact ⟨_, hdefault, rfl⟩
      · intro h
        obtain ⟨name, hname, hwanted⟩ := h
        exact congrArg Except.ok
          (armGetExceptionName_unique hdefault hname (Option.some.inj hwanted))
    | cons wanted rest =>
      have hloop := @sendIrqLoop_iff wanted 8 1 rfl (Nat.le_refl 1) e
      have hsome : sendIrqLoop wanted 8 (BitVec.ofNat 8 Exc.RESET) = some e ↔
          ∃ name, armGetExceptionName e = some name ∧ wanted = text name :=
        hloop.trans ⟨fun h => h.2, fun h => ⟨(armGetExceptionName_range h.choose_spec.1).1, h⟩⟩
      unfold sendIrqNumber requested
      simp only [Option.some.injEq]
      rw [← hsome]
      cases sendIrqLoop wanted 8 (BitVec.ofNat 8 Exc.RESET) with
      | none => simp
      | some irq => simp
  rw [← hnumber]
  -- The name is looked up before the connection is made.
  change (sendIrqNumber rest >>= fun irq => match net host port with
      | some peer => pure (peer, irq)
      | none => throw 0) = _ ↔ net host port = _ ∧ _
  generalize sendIrqNumber rest = number
  generalize net host port = peer
  cases number with
  | error status => exact iff_of_false (fun h => by cases h) (fun h => by cases h.2)
  | ok irq =>
    rw [ok_bind]
    cases peer with
    | none => exact iff_of_false (fun h => by cases h) (fun h => by cases h.1)
    | some peer => simp

end names

section receive
variable [Platform] {gdb : Gdb}

theorem interruptEntry_cpsr (p : ArmCore) : (interruptEntry p).cpsr = irqCpsr p.cpsr := by
  unfold interruptEntry
  rw [setCell_cpsr _ _ (by decide), setCell_cpsr _ _ (by decide), setCell_cpsr _ _ (by decide),
    setCell_cpsr _ _ (by decide), armWriteCpsr_cpsr]

/-- The entry masks further interrupts. -/
theorem interruptEntry_masked (p : ArmCore) : getBit (interruptEntry p).cpsr 7 = 1 := by
  rw [interruptEntry_cpsr, getBit_irqCpsr _ (by decide)]
  rfl

theorem irqListener_masked (env : Env) (hmasked : getBit gdb.arm.cpsr 7 = 1) {e : Byte}
    (h1 : e.toNat ≠ Exc.RESET) (h8 : e.toNat ≠ Exc.SOFTWARE_INTERRUPT) :
    irqListener env gdb e = .ok gdb := by
  unfold irqListener
  by_cases h4 : e.toNat = Exc.INTERRUPT
  · rw [h4, armException_masked env hmasked]
    rfl
  · rw [armException_other env gdb.arm h8 h4 h1]
    rfl

/-- What is received behind a masked interrupt is lost. -/
theorem receive_masked (hmasked : getBit gdb.arm.cpsr 7 = 1) {irqs : List (Env × Byte)}
    (hirqs : ∀ r ∈ irqs, r.2.toNat ≠ Exc.RESET ∧ r.2.toNat ≠ Exc.SOFTWARE_INTERRUPT) :
    irqs.foldlM (fun g r => irqListener r.1 g r.2) gdb = .ok gdb := by
  induction irqs with
  | nil => rfl
  | cons r irqs ih =>
    obtain ⟨h1, h8⟩ := hirqs r List.mem_cons_self
    rw [List.foldlM_cons, irqListener_masked r.1 hmasked h1 h8, ok_bind]
    exact ih (fun r hr => hirqs r (List.mem_cons_of_mem _ hr))

/-- The first interrupt is taken, and no other. -/
theorem receive_enabled (henabled : getBit gdb.arm.cpsr 7 = 0) (hb : gdb.arm.bank < 6)
    {irqs : List (Env × Byte)}
    (hirqs : ∀ r ∈ irqs, r.2.toNat ≠ Exc.RESET ∧ r.2.toNat ≠ Exc.SOFTWARE_INTERRUPT) :
    irqs.foldlM (fun g r => irqListener r.1 g r.2) gdb =
      .ok { gdb with arm := if ∃ r ∈ irqs, r.2.toNat = Exc.INTERRUPT then interruptEntry gdb.arm
        else gdb.arm } := by
  induction irqs with
  | nil => rfl
  | cons r irqs ih =>
    obtain ⟨h1, h8⟩ := hirqs r List.mem_cons_self
    have hrest := fun r hr => hirqs r (List.mem_cons_of_mem _ hr)
    rw [List.foldlM_cons]
    by_cases h4 : r.2.toNat = Exc.INTERRUPT
    · have hentry : irqListener r.1 gdb r.2 = .ok { gdb with arm := interruptEntry gdb.arm } := by
        unfold irqListener
        rw [h4, armException_interrupt r.1 hb henabled]
        rfl
      have hsome : ∃ s ∈ r :: irqs, s.2.toNat = Exc.INTERRUPT := ⟨r, List.mem_cons_self, h4⟩
      rw [hentry, ok_bind, if_pos hsome]
      exact @receive_masked _ { gdb with arm := interruptEntry gdb.arm }
        (interruptEntry_masked gdb.arm) irqs hrest
    · have hpassed : irqListener r.1 gdb r.2 = .ok gdb := by
        unfold irqListener
        rw [armException_other r.1 gdb.arm h8 h4 h1]
        rfl
      have hiff : (∃ s ∈ r :: irqs, s.2.toNat = Exc.INTERRUPT) ↔
          ∃ s ∈ irqs, s.2.toNat = Exc.INTERRUPT := by
        rw [List.exists_mem_cons_iff]
        exact or_iff_right h4
      rw [hpassed, ok_bind, ih hrest]
      simp only [hiff]

end receive

/-- A byte that is sent is one exception's number if and only if that exception is asked for. -/
theorem sendIrq_byte {net : Network} {args : List (List Byte)} {e k : Byte} {name : String}
    (h : sendIrq net args = .ok (.simulator, e)) (hk : armGetExceptionName k = some name) :
    e = k ↔ requested args = some (text name) := by
  obtain ⟨-, name', hname', hrequested⟩ := sendIrq_iff.mp h
  rw [hrequested, Option.some.injEq]
  constructor
  · intro he
    rw [he, hk] at hname'
    exact congrArg text (Option.some.inj hname').symm
  · exact fun htext => armGetExceptionName_unique hname' hk htext

/-- The byte that a command writes to the simulator, if it does. -/
def receivedByte : Except ℕ (Peer × Byte) → Option Byte
  | .ok (.simulator, irq) => some irq
  | _ => none

/-- The bytes that the simulator receives from commands, in the order in which it takes their
connections. -/
def sentBytes (net : Network) (commands : List (List (List Byte))) : List Byte :=
  commands.filterMap fun args => receivedByte (sendIrq net args)

theorem mem_sentBytes {net : Network} {commands : List (List (List Byte))} {e : Byte} :
    e ∈ sentBytes net commands ↔ ∃ args ∈ commands, sendIrq net args = .ok (.simulator, e) := by
  have hbyte (x : Except ℕ (Peer × Byte)) : receivedByte x = some e ↔ x = .ok (.simulator, e) := by
    rcases x with status | ⟨peer, irq⟩
    · exact iff_of_false (fun h => by cases h) (fun h => by cases h)
    · cases peer with
      | simulator => simp [receivedByte]
      | other => exact iff_of_false (fun h => by cases h) (fun h => by cases h)
  unfold sentBytes
  simp only [List.mem_filterMap, hbyte]

/-- The simulator listens on one port of one host, and nobody else anywhere. -/
abbrev localNetwork : Network := fun host port =>
  if host = text "localhost" ∧ port = text "2000" then some .simulator else none

end ArmSim
