import ArmSim.InterruptEntry
import ArmSim.SessionMachine

/-! What a session can do to the privileged part of a machine in a mode without an SPSR: nothing,
until it leaves the mode through one of four doors. -/
namespace ArmSim
open Lib
variable [Platform]

/-- The doors out of a mode without an SPSR: a program counter outside the memory, a reset, an
interrupt that is not masked, and the CPSR of a register image. -/
inductive Gate : Action → ArmCore → ArmCore → Prop
  | unfetchable (env : Env) {p : ArmCore} (h : p.mem.size ≤ p.pc.toNat) :
      Gate (.step env) p p.advance.reset
  | reset (env : Env) {e : Byte} (p : ArmCore) (h : e.toNat = Exc.RESET) :
      Gate (.exception env e) p p.reset
  | interrupt (env : Env) {e : Byte} {p : ArmCore} (h : e.toNat = Exc.INTERRUPT)
      (henabled : getBit p.cpsr 7 = 0) : Gate (.exception env e) p (interruptEntry p)
  | status (v : Word) (p : ArmCore) :
      Gate (.status v) p { p with reg := registersWriteCpsr p.reg v }

/-- The debugger writes general registers. -/
def Action.General : Action → Prop
  | register reg _ => reg < 16
  | _ => True

section gates
variable {p q : ArmCore}

theorem step_framed_or_gate {env : Env} {r : ℤ} (h : armStep env p = .ok (r, q)) (hb : p.bank < 2) :
    UserFrame p q ∨ Gate (.step env) p q := by
  rcases armStep_cases env p with ⟨hout, hs⟩ | hs | ⟨inst, -, ⟨-, hs⟩ | ⟨-, hs⟩⟩
  · rw [ok_unique_snd h hs]
    exact Or.inr (.unfetchable env hout)
  · rw [h] at hs
    cases hs
  · rw [ok_unique_snd h hs]
    exact Or.inl (advance_stays p hb)
  · have hr := (runBody_ends env p.advance inst).value (hs.symm.trans h)
    exact Or.inl ((advance_stays p).trans hr.2 hb)

theorem exception_framed_or_gate {env : Env} {e : Byte} {r : ℤ}
    (h : armException env p e.toNat = .ok (r, q)) (hb : p.bank < 2) :
    UserFrame p q ∨ Gate (.exception env e) p q := by
  by_cases h1 : e.toNat = Exc.RESET
  · rw [h1, armException_reset] at h
    cases h
    exact Or.inr (.reset env p h1)
  by_cases h4 : e.toNat = Exc.INTERRUPT
  · rw [h4] at h
    rcases getBit_zero_or_one p.cpsr 7 with henabled | hmasked
    · rw [armException_interrupt env (by omega) henabled] at h
      cases h
      exact Or.inr (.interrupt env h4 henabled)
    · rw [armException_masked env hmasked] at h
      cases h
      exact Or.inl (Stays.refl p hb)
  by_cases h8 : e.toNat = Exc.SOFTWARE_INTERRUPT
  · rw [h8] at h
    exact Or.inl (((armException_software_ends p env).value h).2 hb)
  · rw [armException_other env p h8 h4 h1] at h
    cases h
    exact Or.inl (Stays.refl p hb)

/-- What the machine is made to do keeps the frame, or is a door. -/
theorem Moves.framed_or_gate {a : Action} (h : Moves a p q) (ha : a.General) (hb : p.bank < 2) :
    UserFrame p q ∨ Gate a p q := by
  cases a with
  | step env =>
    obtain ⟨r, hr, rfl⟩ := map_eq_ok.mp h
    exact step_framed_or_gate hr hb
  | exception env e =>
    obtain ⟨r, hr, rfl⟩ := map_eq_ok.mp h
    exact exception_framed_or_gate hr hb
  | register reg v =>
    have hwrite : armWriteRegister p reg v = .ok q := by
      obtain ⟨r, hr, hq⟩ := map_eq_ok.mp h
      unfold armWriteRegister armWriteRegisterInternal
      rw [hr, ← hq]
      rfl
    exact Or.inl (((armWriteRegister_ends p ha v).value hwrite).1 hb)
  | status v =>
    cases h
    exact Or.inr (.status v p)
  | byte a v =>
    obtain ⟨r, -, rfl⟩ := map_eq_ok.mp h
    exact Or.inl (Stays.of_reg_eq rfl hb)

omit [Platform] in
theorem byteActions_general (x : Word) (bytes : List Byte) :
    ∀ a ∈ byteActions x bytes, a.General := by
  induction bytes generalizing x with
  | nil => exact fun a ha => absurd ha List.not_mem_nil
  | cons c bytes ih =>
    intro a ha
    rcases List.mem_cons.mp ha with rfl | ha
    · trivial
    · exact ih (x + 1) a ha

omit [Platform] in
theorem commandActs_general {env : GdbEnv} {mem : Memory} {index : Byte} {data : List Byte}
    {as : List Action} (h : CommandActs env mem index data as) : ∀ a ∈ as, a.General := by
  have hsteps (n : ℕ) : ∀ a ∈ stepActions env.steps 0 n, a.General := by
    intro a ha
    obtain ⟨i, -, rfl⟩ := List.mem_map.mp ha
    trivial
  unfold CommandActs at h
  split at h
  · obtain ⟨n, -, rfl⟩ := h
    exact hsteps n
  · obtain ⟨n, -, rfl⟩ := h
    exact hsteps n
  · rw [h]
    exact List.forall_mem_singleton.mpr trivial
  · rw [h]
    exact List.forall_mem_singleton.mpr trivial
  · -- The image has sixteen registers, and the CPSR behind them.
    obtain ⟨value, cpsr, -, rfl⟩ := h
    intro a ha
    rcases List.mem_append.mp ha with ha | ha
    · obtain ⟨i, hi, rfl⟩ := List.mem_map.mp ha
      exact List.mem_range.mp hi
    · rw [List.mem_singleton.mp ha]
      trivial
  · obtain ⟨reg, v, -, hreg, rfl⟩ := h
    exact List.forall_mem_singleton.mpr hreg
  · obtain ⟨x, bytes, -, rfl⟩ := h
    exact byteActions_general x bytes
  · rw [h]
    exact fun a ha => absurd ha List.not_mem_nil

omit [Platform] in
theorem Activity.Causes.general {mem : Memory} {l : Activity} {as : List Action}
    (h : l.Causes mem as) : ∀ a ∈ as, a.General := by
  cases l with
  | irq env e =>
    rw [show as = [.exception env e] from h]
    exact List.forall_mem_singleton.mpr trivial
  | token env fuel t =>
    obtain ⟨hintact, hother⟩ := h
    by_cases htest : t.rule = some 2 ∧ ChecksumTest env t.text
    · exact commandActs_general (hintact htest)
    · rw [hother htest]
      exact fun a ha => absurd ha List.not_mem_nil

omit [Platform] in
/-- Every list of actions belongs to one of the activities. -/
theorem exists_cause {mem : Memory} {ls : List (Activity × List Sent)} {ass : List (List Action)}
    (h : List.Forall₂ (fun l as => l.1.Causes mem as) ls ass) {as : List Action} (has : as ∈ ass) :
    ∃ l : Activity, l.Causes mem as := by
  induction h with
  | nil => exact absurd has List.not_mem_nil
  | cons hhead _ ih =>
    rcases List.mem_cons.mp has with rfl | has
    · exact ⟨_, hhead⟩
    · exact ih has

/-- From a mode without an SPSR a run without doors keeps the frame, and so does any other up to its
first door. -/
theorem runs_framed_or_gate {as : List Action} (h : Runs Moves as p q)
    (has : ∀ a ∈ as, a.General) (hb : p.bank < 2) :
    Runs (Without Moves Gate) as p q ∧ UserFrame p q ∨
      ∃ bs a bs' r r', as = bs ++ a :: bs' ∧ Runs (Without Moves Gate) bs p r ∧ UserFrame p r ∧
        Moves a r r' ∧ Gate a r r' ∧ Runs Moves bs' r' q := by
  refine h.keeps_or_exits (I := UserFrame p) (fun a ha r r' hr hmove hnot => ?_) (Stays.refl p hb)
  have hbank : r.bank < 2 := by
    rw [hr.bank_eq]
    exact hb
  have hframe := (hmove.framed_or_gate (has a ha) hbank).resolve_right hnot
  have hbefore : Stays p r := fun _ => hr
  exact hbefore.trans (fun _ => hframe) hb

end gates

/-- Whatever program runs in a mode without an SPSR, and whatever the debugger and the interrupts do
meanwhile: the mode, the masks and all banked registers stay as they are until the machine fetches
from outside the memory, is reset, takes an interrupt that is not masked, or is given a CPSR by the
debugger.  The session may have come to this mode in any way. -/
theorem session_gates {s t : Session} (hroom : s.parser.InBuffer) (hb : s.gdb.arm.bank < 2)
    {ls : List (Activity × List Sent)} (hrun : Runs Performs ls s t) :
    ∃ ass, List.Forall₂ (fun l as => l.1.Causes s.gdb.arm.mem as) ls ass ∧
      (Runs (Without Moves Gate) ass.flatten s.gdb.arm t.gdb.arm ∧
          UserFrame s.gdb.arm t.gdb.arm ∨
        ∃ as a as' q r, ass.flatten = as ++ a :: as' ∧
          Runs (Without Moves Gate) as s.gdb.arm q ∧ UserFrame s.gdb.arm q ∧
          Moves a q r ∧ Gate a q r ∧ Runs Moves as' r t.gdb.arm) := by
  obtain ⟨ass, hcauses, hruns⟩ := runs_move hrun hroom
  refine ⟨ass, hcauses, runs_framed_or_gate hruns ?_ hb⟩
  intro a ha
  obtain ⟨as, has, ha⟩ := List.mem_flatten.mp ha
  obtain ⟨l, hl⟩ := exists_cause hcauses has
  exact hl.general a ha

omit [Platform] in
/-- The session takes no door, or the step is one. -/
theorem session_gates_step : ∃ t ass,
    Runs (@Performs makefile) looksAndSteps
      (Session.start oneMove (fun _ => 0) (fun _ => 0) (.replicate _ 0)) t ∧
    List.Forall₂ (fun l as => l.1.Causes oneMove.mem as) looksAndSteps ass ∧
    (Runs (Without (@Moves makefile) (@Gate makefile)) ass.flatten oneMove t.gdb.arm ∧
        UserFrame oneMove t.gdb.arm ∨
      ∃ as a as' q r, ass.flatten = as ++ a :: as' ∧
        Runs (Without (@Moves makefile) (@Gate makefile)) as oneMove q ∧ UserFrame oneMove q ∧
        @Moves makefile a q r ∧ @Gate makefile a q r ∧ Runs (@Moves makefile) as' r t.gdb.arm) := by
  obtain ⟨t, hrun⟩ := looksAndSteps_runs
  obtain ⟨ass, hcauses, hgates⟩ := @session_gates makefile _ _ (Nat.zero_le _) (by decide) _ hrun
  exact ⟨t, ass, hrun, hcauses, hgates⟩

end ArmSim
