import ArmSim.Containment
import ArmSim.RegisterImage
import ArmSim.Session
import ArmSim.Updates

/-! The machine of a session: what each activity does to it, and what holds of it however the
debugger's commands and the interrupts follow each other. -/
namespace ArmSim
open Lib
variable [Platform]

/-- What reaches the machine: a step, an exception, or a write of the debugger. -/
inductive Action where
  | step (env : Env)
  | exception (env : Env) (e : Byte)
  | register (reg : ℕ) (v : Word)
  | status (v : Word)
  | byte (a : Word) (v : Byte)

def act (p : ArmCore) : Action → Except Crash ArmCore
  | .step env => (armStep env p).map Prod.snd
  | .exception env e => (armException env p e.toNat).map Prod.snd
  | .register reg v => (registersWrite p.reg reg (registersGetMode p.reg) v).map
      (fun r => { p with reg := r })
  | .status v => .ok { p with reg := registersWriteCpsr p.reg v }
  | .byte a v => (memoryWriteByte p.mem a v).map (fun r => { p with mem := r.2 })

def Moves (a : Action) (p q : ArmCore) : Prop := act p a = .ok q

def Action.isStep : Action → Bool
  | step _ => true
  | _ => false

/-- The steps of `cont`, from the `k`-th on. -/
def stepActions (steps : ℕ → Env) (k n : ℕ) : List Action :=
  (List.range' k n).map (fun i => .step (steps i))

/-- The bytes `b` from address `a` on. -/
def byteActions (a : Word) : List Byte → List Action
  | [] => []
  | c :: b => .byte a c :: byteActions (a + 1) b

/-- The first `n` registers. -/
def registerActions (value : ℕ → Word) (n : ℕ) : List Action :=
  (List.range n).map (fun i => .register i (value i))

/-- The fields of a register image, `r15` the last but the CPSR, which stands behind 25 that are
skipped. -/
def ImageFields (env : GdbEnv) (data : List Byte) (value : ℕ → Word) (cpsr : Word) : Prop :=
  (∀ i < 16, readUint32 (data.drop (8 * i)) (env.value i) = .ok (value i)) ∧
    readUint32 (data.drop (8 * 41)) (env.value 16) = .ok cpsr

/-- The number of a register and its new value, behind the `=`. -/
def RegisterFields (env : GdbEnv) (data : List Byte) (reg v : Word) : Prop :=
  sscanfX none data env.reg = .ok reg ∧
    ∃ content, indexNext data 0x3D = .ok (some content) ∧
      readUint32 content (env.value 0) = .ok v

/-- The address, and the bytes that stand behind the `:`, one for each address of the packet's size
before the first one outside the memory. -/
def DataFields (env : GdbEnv) (mem : Memory) (data : List Byte) (a : Word) (b : List Byte) : Prop :=
  ∃ size content, sscanfXX data env.address env.size = .ok (a, size) ∧
    indexNext data 0x3A = .ok content ∧ b <+: unescape (content.getD []) ∧
      b.length = mem.reach size.toNat a

/-- What a command makes a machine do; `data` is the text behind its letter, and of the memory only
the size matters. -/
def CommandActs (env : GdbEnv) (mem : Memory) (index : Byte) (data : List Byte)
    (as : List Action) : Prop :=
  match index with
  | 0x63 | 0x43 => ∃ n > 0, as = stepActions env.steps 0 n
  | 0x73 | 0x53 => as = [.step (env.steps 0)]
  | 0x47 => ∃ value cpsr, ImageFields env data value cpsr ∧
      as = registerActions value 16 ++ [.status cpsr]
  | 0x50 => ∃ reg v, RegisterFields env data reg v ∧ reg.toNat < 16 ∧
      as = [.register reg.toNat v]
  | 0x58 => ∃ a b, DataFields env mem data a b ∧ as = byteActions a b
  | _ => as = []

/-- What an activity makes a machine do whose memory has the size of `mem`. -/
def Activity.Causes (mem : Memory) : Activity → List Action → Prop
  | .irq env e, as => as = [.exception env e]
  | .token env _ t, as =>
    (t.rule = some 2 ∧ ChecksumTest env t.text →
        CommandActs env mem (commandOf env t.text) (commandArgs env t.text) as) ∧
      (¬(t.rule = some 2 ∧ ChecksumTest env t.text) → as = [])

section runs

/-- What no action touches: the size of the memory, and what has been printed. -/
structure Grows (p q : ArmCore) : Prop where
  size : q.mem.size = p.mem.size
  output : p.output <:+ q.output

omit [Platform] in
theorem Grows.refl (p : ArmCore) : Grows p p := ⟨rfl, List.suffix_refl _⟩

omit [Platform] in
theorem Grows.trans {p q r : ArmCore} (h : Grows p q) (h' : Grows q r) : Grows p r :=
  ⟨h'.size.trans h.size, h.output.trans h'.output⟩

omit [Platform] in
theorem Updates.grows {p q : ArmCore} (h : Updates p q) :
    Grows p q ∧ q.cycleCount = p.cycleCount := by
  refine h.related (R := fun p q => Grows p q ∧ q.cycleCount = p.cycleCount)
    (fun p => ⟨Grows.refl p, rfl⟩) (fun p q r h h' => ⟨h.1.trans h'.1, h'.2.trans h.2⟩) ?_
  intro p q hupdate
  cases hupdate with
  | registers r => exact ⟨⟨rfl, List.suffix_refl _⟩, rfl⟩
  | memory mem hsize => exact ⟨⟨hsize, List.suffix_refl _⟩, rfl⟩
  | print x => exact ⟨⟨rfl, List.suffix_cons x _⟩, rfl⟩

/-- An action other than a step consists of updates; a step fetches before. -/
theorem Moves.updates {a : Action} {p q : ArmCore} (h : Moves a p q) :
    Updates (if a.isStep then p.advance else p) q := by
  cases a with
  | step env =>
    obtain ⟨r, hr, rfl⟩ := map_eq_ok.mp h
    exact (armStep_updates env p).value hr
  | exception env e =>
    obtain ⟨r, hr, rfl⟩ := map_eq_ok.mp h
    exact (armException_updates env p _).value hr
  | register reg v =>
    obtain ⟨r, -, rfl⟩ := map_eq_ok.mp h
    exact Updates.registers .refl r
  | status v =>
    cases h
    exact Updates.registers .refl _
  | byte a v =>
    obtain ⟨r, hr, rfl⟩ := map_eq_ok.mp h
    exact Updates.memory .refl r.2 ((memoryWriteByte_ends p.mem a v).value hr).2

theorem Moves.grows {a : Action} {p q : ArmCore} (h : Moves a p q) :
    Grows p q ∧ q.cycleCount = p.cycleCount + BitVec.ofNat 32 (if a.isStep then 1 else 0) := by
  obtain ⟨hgrows, hcycles⟩ := h.updates.grows
  cases hs : a.isStep with
  | true =>
    rw [hs] at hgrows hcycles
    exact ⟨⟨hgrows.size, hgrows.output⟩, hcycles⟩
  | false =>
    rw [hs] at hgrows hcycles
    exact ⟨hgrows, hcycles.trans (BitVec.add_zero _).symm⟩

/-- The cycle counter counts the steps, modulo its width. -/
theorem actions_grow {as : List Action} {p q : ArmCore} (h : Runs Moves as p q) :
    Grows p q ∧ q.cycleCount = p.cycleCount + BitVec.ofNat 32 (as.countP Action.isStep) := by
  induction h with
  | nil p => exact ⟨Grows.refl p, (BitVec.add_zero _).symm⟩
  | cons head _ ih =>
    obtain ⟨hfirst, hone⟩ := head.grows
    obtain ⟨hrest, hmore⟩ := ih
    refine ⟨hfirst.trans hrest, ?_⟩
    rw [hmore, hone, BitVec.add_assoc, ← BitVec.ofNat_add, List.countP_cons, Nat.add_comm]

end runs

section commands
variable (env : GdbEnv) (fuel : ℕ) {gdb : Gdb}

omit [Platform] in
/-- What a value of a simulated call comes from. -/
theorem simulated_eq_ok {α : Type} {x : Except Crash α} {a : α} :
    simulated x = .ok a ↔ x = .ok a := by
  cases x with
  | ok b => exact ⟨fun h => congrArg Except.ok (Except.ok.inj h),
      fun h => congrArg Except.ok (Except.ok.inj h)⟩
  | error c => exact ⟨fun h => (by cases h), fun h => (by cases h)⟩

omit [Platform] in
/-- A reply leaves the machine. -/
theorem sendData_arm {g g' : Gdb} {s : List Byte} (hs : Plain s) (h : gdbSendData g s = .ok g') :
    g'.arm = g.arm :=
  congrArg Target.arm ((sendData_leaves g hs).value h)

theorem gdbSingleStep_acts {k : ℕ} {g : Gdb} (h : gdbSingleStep env k gdb = .ok g) :
    Moves (.step (env.steps k)) gdb.arm g.arm := by
  obtain ⟨result, q, harm, rfl⟩ := (gdbSingleStep_ends k gdb).value h
  exact map_eq_ok.mpr ⟨(result, q), harm, rfl⟩

theorem contLoop_acts {k : ℕ} {g : Gdb} (h : contLoop env fuel k gdb = .ok g) :
    ∃ n > 0, Runs Moves (stepActions env.steps k n) gdb.arm g.arm := by
  induction fuel generalizing k gdb with
  | zero => cases h
  | succ fuel ih =>
    unfold contLoop at h
    obtain ⟨g₁, hstep, h⟩ := bind_eq_ok.mp h
    obtain ⟨pc, -, h⟩ := bind_eq_ok.mp h
    obtain ⟨position, -, h⟩ := bind_eq_ok.mp h
    have hact := gdbSingleStep_acts env hstep
    -- A breakpoint, an exception, or another round.
    split_ifs at h
    · cases h
      exact ⟨1, Nat.one_pos, .single hact⟩
    · cases h
      exact ⟨1, Nat.one_pos, .single hact⟩
    · obtain ⟨n, -, hrest⟩ := ih h
      exact ⟨n + 1, Nat.succ_pos n, .cons hact hrest⟩

theorem cont_acts {data : List Byte} {g : Gdb} (h : cont env fuel gdb data = .ok g) :
    ∃ n > 0, Runs Moves (stepActions env.steps 0 n) gdb.arm g.arm := by
  obtain ⟨g₁, hloop, hsend⟩ := bind_eq_ok.mp h
  rw [sendData_arm (plain_stopReason _) hsend]
  exact contLoop_acts env fuel hloop

theorem step_acts {data : List Byte} {g : Gdb} (h : step env gdb data = .ok g) :
    Runs Moves [.step (env.steps 0)] gdb.arm g.arm := by
  obtain ⟨g₁, hstep, hsend⟩ := bind_eq_ok.mp h
  rw [sendData_arm (plain_stopReason _) hsend]
  exact .single (gdbSingleStep_acts env hstep)

theorem writeRegister_acts {reg : ℕ} {data : List Byte} {value : Word} {g : Gdb}
    (h : writeRegister gdb reg data value = .ok g) :
    reg < 16 ∧ ∃ v, readUint32 data value = .ok v ∧ Moves (.register reg v) gdb.arm g.arm := by
  obtain ⟨v, hv, h⟩ := bind_eq_ok.mp h
  split_ifs at h with hreg
  obtain ⟨r, hr, hg⟩ := bind_eq_ok.mp h
  cases hg
  exact ⟨hreg, v, hv, map_eq_ok.mpr ⟨r, simulated_eq_ok.mp hr, rfl⟩⟩

omit [Platform] in
/-- Only a text can be read behind a pointer. -/
theorem deref_eq_ok {content : TextPointer} {s : List Byte} :
    content.deref = .ok s ↔ content = some s := by
  cases content with
  | none => exact ⟨fun h => (by cases h), fun h => (by cases h)⟩
  | some t => exact ⟨fun h => congrArg some (Except.ok.inj h),
      fun h => congrArg Except.ok (Option.some.inj h)⟩

theorem writeSingleRegister_acts {data : List Byte} {g : Gdb}
    (h : writeSingleRegister env gdb data = .ok g) :
    ∃ reg v, RegisterFields env data reg v ∧ reg.toNat < 16 ∧
      Runs Moves [.register reg.toNat v] gdb.arm g.arm := by
  obtain ⟨reg, hscan, h⟩ := bind_eq_ok.mp h
  obtain ⟨content, hindex, h⟩ := bind_eq_ok.mp h
  obtain ⟨s, hderef, h⟩ := bind_eq_ok.mp h
  rw [deref_eq_ok.mp hderef] at hindex
  obtain ⟨g₁, hwrite, hsend⟩ := bind_eq_ok.mp h
  obtain ⟨hreg, v, hv, hact⟩ := writeRegister_acts hwrite
  rw [sendData_arm (plain_text _ rfl) hsend]
  exact ⟨reg, v, ⟨hscan, s, hindex, hv⟩, hreg, .single hact⟩

omit [Platform] in
/-- The value of one more register. -/
theorem registerActions_succ (value : ℕ → Word) (n : ℕ) (v : Word) :
    registerActions (Function.update value n v) (n + 1) =
      registerActions value n ++ [.register n v] := by
  unfold registerActions
  rw [List.range_succ, List.map_append, List.map_singleton, Function.update_self]
  congr 1
  apply List.map_congr_left
  intro i hi
  rw [Function.update_of_ne (Nat.ne_of_lt (List.mem_range.mp hi))]

/-- The fields are read and written one after the other. -/
theorem writeGeneralRegisters_acts {data : List Byte} {g : Gdb}
    (h : writeGeneralRegisters env gdb data = .ok g) :
    ∃ value cpsr, ImageFields env data value cpsr ∧
      Runs Moves (registerActions value 16 ++ [.status cpsr]) gdb.arm g.arm := by
  let Loads (n : ℕ) (g : Gdb) : Prop := ∃ value : ℕ → Word,
    (∀ i < n, readUint32 (data.drop (8 * i)) (env.value i) = .ok (value i)) ∧
      Runs Moves (registerActions value n) gdb.arm g.arm
  have hloop : Ends ((List.range 16).foldlM
      (fun g i => writeRegister g i (data.drop (8 * i)) (env.value i)) gdb) (Loads 16)
      (fun _ => True) := by
    apply ends_foldlM_range Loads
    · exact ⟨fun _ => 0, fun i hi => absurd hi (Nat.not_lt_zero i), .nil _⟩
    · intro n _ g hg
      obtain ⟨value, hread, hruns⟩ := hg
      refine ends_of_value (fun g' hg' => ?_) (fun _ _ => trivial)
      obtain ⟨-, v, hv, hact⟩ := writeRegister_acts hg'
      refine ⟨Function.update value n v, fun i hi => ?_, ?_⟩
      · rcases Nat.lt_succ_iff_lt_or_eq.mp hi with hlt | rfl
        · rw [Function.update_of_ne (Nat.ne_of_lt hlt)]
          exact hread i hlt
        · rw [Function.update_self]
          exact hv
      · rw [registerActions_succ]
        exact hruns.append (.single hact)
  rw [writeGeneralRegisters_eq] at h
  obtain ⟨g₁, hg₁, h⟩ := bind_eq_ok.mp h
  obtain ⟨value, hread, hruns⟩ := hloop.value hg₁
  obtain ⟨cpsr, hcpsr, hsend⟩ := bind_eq_ok.mp h
  refine ⟨value, cpsr, ⟨hread, hcpsr⟩, ?_⟩
  rw [sendData_arm (plain_text _ rfl) hsend]
  exact hruns.append (.single rfl)

omit [Platform] in
/-- The byte that is taken from a text is the first that it encodes. -/
theorem unescape_of_binaryByte {s s' : List Byte} {c : Byte} (h : binaryByte s = .ok (c, s')) :
    unescape s = c :: unescape s' := by
  unfold binaryByte at h
  cases s with
  | nil => cases h
  | cons d s =>
    dsimp only at h
    split_ifs at h with hd
    · cases s with
      | nil => cases h
      | cons d' s =>
        obtain ⟨rfl, rfl⟩ := Prod.mk.inj (Except.ok.inj h)
        rw [hd]
        rfl
    · obtain ⟨rfl, rfl⟩ := Prod.mk.inj (Except.ok.inj h)
      conv_lhs => unfold unescape
      rw [if_neg hd]

/-- The loop stores bytes of the text until it comes to an address outside, which takes none. -/
theorem writeMemoryLoop_acts {size : ℕ} {a : Word} {content : TextPointer} {r : Gdb × Bool}
    (h : writeMemoryLoop size gdb a content = .ok r) :
    ∃ b, b <+: unescape (content.getD []) ∧ b.length = gdb.arm.mem.reach size a ∧
      Runs Moves (byteActions a b) gdb.arm r.1.arm := by
  induction size generalizing gdb a content with
  | zero =>
    cases h
    exact ⟨[], List.nil_prefix, rfl, .nil _⟩
  | succ size ih =>
    obtain ⟨s, hderef, hbytes⟩ := bind_eq_ok.mp h
    obtain ⟨⟨value, s'⟩, hbyte, hstores⟩ := bind_eq_ok.mp hbytes
    obtain ⟨⟨result, mem⟩, hstore, hloop⟩ := bind_eq_ok.mp hstores
    have hmem := simulated_eq_ok.mp hstore
    rw [deref_eq_ok.mp hderef]
    dsimp only at hloop
    by_cases ha : a.toNat < gdb.arm.mem.size
    · rw [memoryWriteByte_inRange (inRange_of_le ha)] at hmem
      obtain ⟨rfl, rfl⟩ := Prod.mk.inj (Except.ok.inj hmem)
      -- One more byte of the text, stored at one more address.
      obtain ⟨b, hlead, hlen, hrest⟩ := ih hloop
      have hact : Moves (.byte a value) gdb.arm
          { gdb.arm with mem := gdb.arm.mem.setByte a.toNat value } :=
        map_eq_ok.mpr ⟨(0, gdb.arm.mem.setByte a.toNat value),
          memoryWriteByte_inRange (inRange_of_le ha) value, rfl⟩
      refine ⟨value :: b, ?_, ?_, .cons hact hrest⟩
      · rw [Option.getD_some, unescape_of_binaryByte hbyte]
        exact (List.prefix_cons_inj value).mpr hlead
      · rw [Memory.reach, if_pos ha, List.length_cons, hlen]
        exact congrArg (· + 1) (Memory.reach_congr (Memory.size_setByte _ _ _) size (a + 1))
    · rw [memoryWriteByte_outside (Nat.not_lt.mp ha)] at hmem
      obtain ⟨rfl, rfl⟩ := Prod.mk.inj (Except.ok.inj hmem)
      cases hloop
      exact ⟨[], List.nil_prefix, (Memory.reach_outside ha _).symm, .nil _⟩

theorem writeMemoryBinary_acts {data : List Byte} {g : Gdb}
    (h : writeMemoryBinary env gdb data = .ok g) :
    ∃ a b, DataFields env gdb.arm.mem data a b ∧ Runs Moves (byteActions a b) gdb.arm g.arm := by
  obtain ⟨⟨a, size⟩, hscan, h⟩ := bind_eq_ok.mp h
  obtain ⟨content, hindex, h⟩ := bind_eq_ok.mp h
  obtain ⟨⟨g₁, writeOk⟩, hloop, h⟩ := bind_eq_ok.mp h
  have harm : g.arm = g₁.arm := by
    dsimp only at h
    split_ifs at h
    · exact sendData_arm (plain_text _ rfl) h
    · exact sendData_arm (plain_text _ rfl) h
  rw [harm]
  split_ifs at hloop with ha
  · obtain ⟨b, hlead, hlen, hruns⟩ := writeMemoryLoop_acts hloop
    exact ⟨a, b, ⟨size, content, hscan, hindex, hlead, hlen⟩, hruns⟩
  · cases hloop
    exact ⟨a, [], ⟨size, content, hscan, hindex, List.nil_prefix,
      (Memory.reach_outside ha _).symm⟩, .nil _⟩

omit [Platform] in
/-- Both requests for a breakpoint leave the machine. -/
theorem tableCall_arm {x : Except GdbFault (ℤ × BreakpointTable)} {s : List Byte} {g : Gdb}
    (hs : Plain s)
    (h : (x >>= fun r =>
      if r.1 ≠ 0 then gdbSendData { gdb with toBreakpointTable := r.2 } (text "OK")
      else gdbSendData { gdb with toBreakpointTable := r.2 } s) = .ok g) : g.arm = gdb.arm := by
  obtain ⟨r, -, h⟩ := bind_eq_ok.mp h
  split_ifs at h
  · exact (sendData_arm (plain_text _ rfl) h).trans rfl
  · exact (sendData_arm hs h).trans rfl

omit [Platform] in
theorem setBreakpoint_arm {data : List Byte} {g : Gdb} (h : setBreakpoint env gdb data = .ok g) :
    g.arm = gdb.arm := by
  obtain ⟨⟨type, address⟩, -, h⟩ := bind_eq_ok.mp h
  dsimp only at h
  split at h
  · exact sendData_arm (plain_text _ rfl) h
  · exact tableCall_arm (plain_text _ rfl) h

omit [Platform] in
theorem removeBreakpoint_arm {data : List Byte} {g : Gdb}
    (h : removeBreakpoint env gdb data = .ok g) : g.arm = gdb.arm := by
  obtain ⟨⟨type, address⟩, -, h⟩ := bind_eq_ok.mp h
  dsimp only at h
  split at h
  · exact sendData_arm (plain_text _ rfl) h
  · exact tableCall_arm (plain_text _ rfl) h

/-- A command makes the machine do what the table says. -/
theorem handler_acts {index : Byte} {handle : Gdb → List Byte → Except GdbFault Gdb}
    {data : List Byte} {g : Gdb} (hhandle : handler env fuel index = some handle)
    (h : handle gdb data = .ok g) :
    ∃ as, CommandActs env gdb.arm.mem index data as ∧ Runs Moves as gdb.arm g.arm := by
  have hstay (hactions : CommandActs env gdb.arm.mem index data []) (harm : g.arm = gdb.arm) :
      ∃ as, CommandActs env gdb.arm.mem index data as ∧ Runs Moves as gdb.arm g.arm := by
    refine ⟨[], hactions, ?_⟩
    rw [harm]
    exact .nil _
  have hlook (hindex : index ∉ changing) : g.arm = gdb.arm :=
    congrArg Target.arm ((handler_leaves env fuel hindex data hhandle).value h)
  have hcont (hrun : cont env fuel gdb data = .ok g) :
      ∃ as, (∃ n > 0, as = stepActions env.steps 0 n) ∧ Runs Moves as gdb.arm g.arm := by
    obtain ⟨n, hn, hruns⟩ := cont_acts env fuel hrun
    exact ⟨_, ⟨n, hn, rfl⟩, hruns⟩
  unfold handler at hhandle
  -- In the order of the table: c, C, k, the six commands that only look, s, S, G, X, P, z and Z.
  split at hhandle
  · cases hhandle
    exact hcont h
  · cases hhandle
    exact hcont h
  · cases hhandle
    cases h
    exact hstay rfl rfl
  · exact hstay rfl (hlook (by decide))
  · exact hstay rfl (hlook (by decide))
  · exact hstay rfl (hlook (by decide))
  · exact hstay rfl (hlook (by decide))
  · exact hstay rfl (hlook (by decide))
  · exact hstay rfl (hlook (by decide))
  · cases hhandle
    exact ⟨_, rfl, step_acts env h⟩
  · cases hhandle
    exact ⟨_, rfl, step_acts env h⟩
  · cases hhandle
    obtain ⟨value, cpsr, hfields, hruns⟩ := writeGeneralRegisters_acts env h
    exact ⟨_, ⟨value, cpsr, hfields, rfl⟩, hruns⟩
  · cases hhandle
    obtain ⟨a, b, hfields, hruns⟩ := writeMemoryBinary_acts env h
    exact ⟨_, ⟨a, b, hfields, rfl⟩, hruns⟩
  · cases hhandle
    obtain ⟨reg, v, hfields, hreg, hruns⟩ := writeSingleRegister_acts env h
    exact ⟨_, ⟨reg, v, hfields, hreg, rfl⟩, hruns⟩
  · cases hhandle
    exact hstay rfl (removeBreakpoint_arm env h)
  · cases hhandle
    exact hstay rfl (setBreakpoint_arm env h)
  · cases hhandle

omit [Platform] in
/-- A command without a handler does nothing. -/
theorem commandActs_unknown [Platform] {index : Byte} (h : handler env fuel index = none)
    (mem : Memory) (data : List Byte) : CommandActs env mem index data [] := by
  unfold CommandActs
  split
  all_goals first | rfl | exact nomatch h

theorem gdbPacketAnalysis_acts {packet : List Byte} {g : Gdb}
    (h : gdbPacketAnalysis env fuel gdb packet = .ok g) :
    ∃ as, (ChecksumTest env packet →
        CommandActs env gdb.arm.mem (commandOf env packet) (commandArgs env packet) as) ∧
      (¬ChecksumTest env packet → as = []) ∧ Runs Moves as gdb.arm g.arm := by
  by_cases htest : ChecksumTest env packet
  · rw [gdbPacketAnalysis_intact env fuel gdb htest] at h
    obtain ⟨g₀, hack, h⟩ := bind_eq_ok.mp h
    obtain ⟨-, rfl⟩ := (gdbSendAck_ends gdb).value hack
    split at h
    · rename_i handle hhandle
      obtain ⟨as, hactions, hruns⟩ := handler_acts env fuel hhandle h
      exact ⟨as, fun _ => hactions, fun hn => absurd htest hn, hruns⟩
    · rename_i hnone
      have harm : g.arm = gdb.arm := sendData_arm (g := gdb.acked) plain_nil h
      refine ⟨[], fun _ => commandActs_unknown env fuel hnone _ _, fun _ => rfl, ?_⟩
      rw [harm]
      exact .nil _
  · rw [gdbPacketAnalysis_damaged env fuel gdb htest] at h
    obtain ⟨given, -, h⟩ := bind_eq_ok.mp h
    obtain ⟨-, rfl⟩ := (rioWriten_ends gdb (List.cons_ne_nil _ _)).value h
    exact ⟨[], fun h => absurd h htest, fun _ => rfl, .nil _⟩

end commands

section session

omit [Platform] in
/-- Of the memory only the size matters. -/
theorem commandActs_congr {env : GdbEnv} {mem mem' : Memory} (hsize : mem'.size = mem.size)
    {index : Byte} {data : List Byte} {as : List Action} (h : CommandActs env mem index data as) :
    CommandActs env mem' index data as := by
  have hdata {a : Word} {b : List Byte} (hfields : DataFields env mem data a b) :
      DataFields env mem' data a b := by
    obtain ⟨size, content, hscan, hindex, hlead, hlen⟩ := hfields
    exact ⟨size, content, hscan, hindex, hlead, hlen.trans (Memory.reach_congr hsize _ _).symm⟩
  unfold CommandActs at h ⊢
  split at h
  case h_7 =>
    obtain ⟨a, b, hfields, heq⟩ := h
    exact ⟨a, b, hdata hfields, heq⟩
  all_goals exact h

omit [Platform] in
theorem Activity.Causes.congr {mem mem' : Memory} (hsize : mem'.size = mem.size) {a : Activity}
    {as : List Action} (h : a.Causes mem as) : a.Causes mem' as := by
  cases a with
  | irq env e => exact h
  | token env fuel t => exact ⟨fun htest => commandActs_congr hsize (h.1 htest), h.2⟩

/-- Every activity acts on the machine as its kind and its text say. -/
theorem performs_moves {l : Activity × List Sent} {s t : Session} (hroom : s.parser.InBuffer)
    (h : Performs l s t) :
    t.parser.InBuffer ∧ ∃ as, l.1.Causes s.gdb.arm.mem as ∧ Runs Moves as s.gdb.arm t.gdb.arm := by
  obtain ⟨a, out⟩ := l
  have hperform := h.1
  dsimp only at hperform ⊢
  cases a with
  | irq env e =>
    obtain ⟨r, arm, hexception, rfl⟩ := perform_irq hperform
    exact ⟨hroom, _, rfl, .single (map_eq_ok.mpr ⟨(r, arm), hexception, rfl⟩)⟩
  | token env fuel tok =>
    have hserve := perform_token hperform
    refine ⟨(serveToken_room env fuel hroom s.gdb tok).value hserve, ?_⟩
    by_cases h2 : tok.rule = some 2
    · have hconnected := serveToken_packet_connected env fuel hroom h2 hserve
      obtain ⟨data, -, hs⟩ := serveToken_packet env fuel hroom hconnected h2
      rw [hs] at hserve
      obtain ⟨g, hg, heq⟩ := map_eq_ok.mp hserve
      obtain rfl : g = t.gdb := congrArg Prod.snd heq
      obtain ⟨as, hactions, hnone, hruns⟩ := gdbPacketAnalysis_acts env fuel hg
      exact ⟨as, ⟨fun htest => hactions htest.2, fun hn => hnone fun htest => hn ⟨h2, htest⟩⟩,
        hruns⟩
    · -- Anything else leaves the target, so also its machine.
      have hunnoticed : Activity.Unnoticed (.token env fuel tok) := fun h => absurd h h2
      have hmatch := performs_unnoticed (t := s) (l := (.token env fuel tok, out)) hunnoticed
        ⟨rfl, hroom, hroom, fun _ => Nat.le_refl _⟩ h
      have harm : t.gdb.arm = s.gdb.arm := (congrArg Target.arm hmatch.target).symm
      refine ⟨[], ⟨fun htest => absurd htest.1 h2, fun _ => rfl⟩, ?_⟩
      rw [harm]
      exact .nil _

theorem runs_move {ls : List (Activity × List Sent)} {s t : Session} (h : Runs Performs ls s t)
    (hroom : s.parser.InBuffer) :
    ∃ ass, List.Forall₂ (fun l as => l.1.Causes s.gdb.arm.mem as) ls ass ∧
      Runs Moves ass.flatten s.gdb.arm t.gdb.arm := by
  induction h with
  | nil s => exact ⟨[], .nil, .nil _⟩
  | cons head _ ih =>
    obtain ⟨hnext, as, hcauses, hruns⟩ := performs_moves hroom head
    obtain ⟨ass, hrest, hmore⟩ := ih hnext
    -- The memory behind the first activity has the size it had.
    have hsize := (actions_grow hruns).1.size
    refine ⟨as :: ass, .cons hcauses ?_, hruns.append hmore⟩
    exact hrest.imp fun _ _ hcauses => hcauses.congr hsize.symm

/-- However the commands and the interrupts of a session follow each other, the machine makes
exactly the steps, exceptions and writes that they stand for, one after the other; so the size of
the memory stays, what has been printed is never taken back, and the cycle counter counts the
steps. -/
theorem session_machine (arm : ArmCore) (breakpoints : ℕ → Word) (packet : ℕ → Byte)
    (buffer : Vector Byte MAX_ERROR_SIZE) {ls : List (Activity × List Sent)} {s : Session}
    (hrun : Runs Performs ls (Session.start arm breakpoints packet buffer) s) :
    ∃ ass, List.Forall₂ (fun l as => l.1.Causes arm.mem as) ls ass ∧
      Runs Moves ass.flatten arm s.gdb.arm ∧
      s.gdb.arm.mem.size = arm.mem.size ∧ arm.output <:+ s.gdb.arm.output ∧
      s.gdb.arm.cycleCount =
        arm.cycleCount + BitVec.ofNat 32 (ass.flatten.countP Action.isStep) := by
  have hroom : (Session.start arm breakpoints packet buffer).parser.InBuffer := Nat.zero_le _
  obtain ⟨ass, hcauses, hruns⟩ := runs_move hrun hroom
  obtain ⟨hgrows, hcycles⟩ := actions_grow hruns
  exact ⟨ass, hcauses, hruns, hgrows.size, hgrows.output, hcycles⟩

end session

omit [Platform] in
/-- One of the activities is a step, and the counter says so. -/
theorem session_machine_step : ∃ ass s,
    List.Forall₂ (fun l as => l.1.Causes oneMove.mem as) looksAndSteps ass ∧
    Runs (@Moves makefile) ass.flatten oneMove s ∧ s.mem.size = 4 ∧
    s.cycleCount = 0 + BitVec.ofNat 32 (ass.flatten.countP Action.isStep) := by
  obtain ⟨s, hrun⟩ := looksAndSteps_runs
  obtain ⟨ass, hcauses, hruns, hsize, -, hcycles⟩ :=
    @session_machine makefile _ _ _ _ _ _ hrun
  exact ⟨ass, s.gdb.arm, hcauses, hruns, hsize, hcycles⟩

end ArmSim
