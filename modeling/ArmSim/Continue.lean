import ArmSim.GdbReply
import ArmSim.Step

/-! `cont`: the machine runs to the first state, after at least one step, whose program counter is
a breakpoint or whose step raised an exception. -/
namespace ArmSim
open Lib

section run
variable [Platform]

/-- The machine after `k` calls of `arm_step`, and the result of the last of them. -/
def stepsFrom (steps : ℕ → Env) (p : ArmCore) : ℕ → Except Crash (ℤ × ArmCore)
  | 0 => return (0, p)
  | k + 1 => do
    let (_, p) ← stepsFrom steps p k
    armStep (steps k) p

/-- After `k` steps the program counter is in `S`, or the last step raised an exception. -/
def StopsAfter (steps : ℕ → Env) (p : ArmCore) (S : Set Word) (k : ℕ) : Prop :=
  ∃ result q, stepsFrom steps p k = .ok (result, q) ∧ (q.pc ∈ S ∨ result ≠ 0)

variable {env : GdbEnv} {S : Set Word}

theorem stepsFrom_succ {steps : ℕ → Env} {p q : ArmCore} {k : ℕ} {r : ℤ}
    (h : stepsFrom steps p k = .ok (r, q)) : stepsFrom steps p (k + 1) = armStep (steps k) q := by
  unfold stepsFrom
  rw [h]
  rfl

/-- The raw program counter is one cell in every mode. -/
theorem registersRead_pc (p : ArmCore) :
    registersRead p.reg 15 (registersGetMode p.reg) = .ok p.pc := by
  rw [registersRead_eq, bankPointer_pc (getReadWriteMode_lt _)]
  rfl

/-- One step of the debugger is one step of the machine. -/
theorem gdbSingleStep_ends (k : ℕ) (gdb : Gdb) :
    Ends (gdbSingleStep env k gdb)
      (fun g => ∃ result q, armStep (env.steps k) gdb.arm = .ok (result, q) ∧
        g = { gdb with targetException := result, arm := q })
      (fun _ => True) := by
  have hstep : Ends (simulated (singleStep (env.steps k) env.trace gdb.arm))
      (fun r => armStep (env.steps k) gdb.arm = .ok r) (fun _ => True) := by
    apply (simulated_ends (ends_of_value ?_ (fun _ _ => trivial))).mono (fun _ h => h)
      (fun _ _ => trivial)
    intro r hr
    unfold singleStep at hr
    obtain ⟨⟨result, q⟩, harm, htrace⟩ := bind_eq_ok.mp hr
    obtain ⟨-, -, heq⟩ := bind_eq_ok.mp htrace
    rw [harm, Except.ok.inj heq]
  unfold gdbSingleStep
  apply hstep.bind
  rintro ⟨result, q⟩ harm
  exact ⟨result, q, harm, rfl⟩

/-- `g` is `gdb` after the first steps from `p` that stop, of more than `k`. -/
def StoppedAfter (env : GdbEnv) (S : Set Word) (p : ArmCore) (k : ℕ) (gdb g : Gdb) : Prop :=
  ∃ n result, k < n ∧ stepsFrom env.steps p n = .ok (result, g.arm) ∧
    (g.arm.pc ∈ S ∨ result ≠ 0) ∧
    (∀ j, k < j → j < n → ¬StopsAfter env.steps p S j) ∧
    g = { gdb with targetException := result, arm := g.arm }

/-- The loop, entered `k` steps after `p`. -/
theorem contLoop_ends {p : ArmCore} (fuel : ℕ) {k : ℕ} {gdb : Gdb} {r : ℤ}
    (hS : gdb.toBreakpointTable.Holds S) (hk : stepsFrom env.steps p k = .ok (r, gdb.arm)) :
    Ends (contLoop env fuel k gdb) (StoppedAfter env S p k gdb) (fun _ => True) := by
  induction fuel generalizing k gdb r with
  | zero => trivial
  | succ fuel ih =>
    unfold contLoop
    apply (gdbSingleStep_ends k gdb).bind
    rintro g ⟨result, q, harm, rfl⟩
    have hnext : stepsFrom env.steps p (k + 1) = .ok (result, q) := (stepsFrom_succ hk).trans harm
    obtain ⟨position, hposition, -, hmem⟩ := gdbFindBreakpoint_spec hS q.pc
    dsimp only
    rw [registersRead_pc]
    change Ends (gdbFindBreakpoint gdb.toBreakpointTable q.pc >>= _) _ _
    rw [hposition, ok_bind]
    -- Both tests read the state after the step, so a breakpoint at the start does not count.
    have hhere (hstop : q.pc ∈ S ∨ result ≠ 0) : StoppedAfter env S p k gdb
        { gdb with targetException := result, arm := q } :=
      ⟨k + 1, result, Nat.lt_succ_self k, hnext, hstop, fun j hj hlt => by omega, rfl⟩
    apply ends_ite
    · exact fun hfound => hhere (Or.inl (hmem.mp hfound))
    · intro hnot
      apply ends_ite
      · exact fun hexception => hhere (Or.inr hexception)
      · intro hzero
        -- Neither test stops the run here, so the first stop lies behind.
        have hS' : Gdb.toBreakpointTable
            { gdb with targetException := result, arm := q } |>.Holds S := hS
        apply (ih hS' hnext).imp
        rintro g ⟨n, result', hlt, hn, hstop, hfirst, heq⟩
        refine ⟨n, result', by omega, hn, hstop, ?_, heq⟩
        intro j hj hjn
        rcases Nat.eq_or_lt_of_le (Nat.succ_le_of_lt hj) with rfl | hj'
        · rintro ⟨result'', q', hq', hstop'⟩
          obtain ⟨rfl, rfl⟩ := Prod.mk.inj (ok_unique hnext hq')
          exact hstop'.elim (fun h => hnot (hmem.mpr h)) hzero
        · exact hfirst j hj' hjn

/-- More fuel does not change a run that ends. -/
theorem contLoop_fuel {fuel fuel' k : ℕ} {gdb g : Gdb} (hle : fuel ≤ fuel')
    (h : contLoop env fuel k gdb = .ok g) : contLoop env fuel' k gdb = .ok g := by
  induction fuel generalizing fuel' k gdb with
  | zero => cases h
  | succ fuel ih =>
    obtain ⟨m, rfl⟩ : ∃ m, fuel' = m + 1 := ⟨fuel' - 1, by omega⟩
    unfold contLoop at h ⊢
    obtain ⟨g₁, hstep, h⟩ := bind_eq_ok.mp h
    obtain ⟨pc, hpc, h⟩ := bind_eq_ok.mp h
    obtain ⟨position, hposition, h⟩ := bind_eq_ok.mp h
    rw [hstep, ok_bind, hpc, ok_bind, hposition, ok_bind]
    split_ifs at h ⊢
    · exact h
    · exact h
    · exact ih (by omega) h

/-- Whenever `cont` returns, on a table that set and remove requests left, the machine is in the
state after the least number of steps, at least one, at which the program counter is a breakpoint
or the step raised an exception; that step's result is stored and reported.  The run does not
depend on how far it is followed. -/
theorem cont_stops_first (fuel : ℕ) (breakpoints : ℕ → Word) (calls : List TableCall)
    {results : List ℤ} {gdb g : Gdb} (data : List Byte)
    (htable : runTable ⟨breakpoints, 0⟩ calls = .ok (results, gdb.toBreakpointTable))
    (hcont : cont env fuel gdb data = .ok g) :
    ∃ S n result, SetRun ∅ calls results S ∧
      IsLeast {k | 0 < k ∧ StopsAfter env.steps gdb.arm S k} n ∧
      stepsFrom env.steps gdb.arm n = .ok (result, g.arm) ∧
      g.targetException = result ∧ g.toBreakpointTable = gdb.toBreakpointTable ∧
      g.sent = gdb.sent ++ [.written (frame (text (gdbStopReason result)))] ∧
      ∀ fuel', fuel ≤ fuel' → cont env fuel' gdb data = .ok g := by
  obtain ⟨S, hrun, hS⟩ := (runTable_ends (holds_empty breakpoints) calls).value htable
  unfold cont at hcont
  obtain ⟨g₁, hloop, hsend⟩ := bind_eq_ok.mp hcont
  have hstart : stepsFrom env.steps gdb.arm 0 = .ok (0, gdb.arm) := rfl
  obtain ⟨n, result, hpos, hn, hstop, hfirst, heq⟩ := (contLoop_ends fuel hS hstart).value hloop
  -- The reply reads the stored result and leaves the machine as it is.
  have hresult : g₁.targetException = result := by rw [heq]
  have hmore : ∀ fuel', fuel ≤ fuel' → cont env fuel' gdb data = .ok g := by
    intro fuel' hle
    unfold cont
    rw [contLoop_fuel hle hloop]
    exact hsend
  have hplain := plain_stopReason result
  unfold gdbSendStopReason at hsend
  rw [hresult] at hsend
  obtain ⟨-, packet, -, rfl⟩ := (gdbSendData_ends g₁ (fun c hc => (hplain c hc).1)).value hsend
  refine ⟨S, n, result, hrun, ⟨⟨hpos, result, g₁.arm, hn, hstop⟩, ?_⟩, hn, hresult, ?_, ?_, hmore⟩
  · rintro k ⟨hk, hk'⟩
    by_contra hlt
    exact hfirst k hk (by omega) hk'
  · rw [heq]
  · rw [heq]

end run

/-- Two moves with a breakpoint behind the second: `cont` passes the first. -/
theorem cont_stops_first_behind_moves : ∃ g S n result,
    @cont makefile zeroEnv 2 ⟨⟨Function.update (fun _ => 0) 0 8, 1⟩,
      ArmCore.boot 0x10 [0xE3, 0xA0, 0x00, 0x01, 0xE3, 0xA0, 0x00, 0x02], 0, fun _ => 0, 0, []⟩
        [] = .ok g ∧ @ArmCore.pc makefile g.arm = 8 ∧ g.sent = [.written (text "$S05#b8")] ∧
    SetRun ∅ [.add 8] [1] S ∧
    IsLeast {k | 0 < k ∧ @StopsAfter makefile zeroEnv.steps
      (ArmCore.boot 0x10 [0xE3, 0xA0, 0x00, 0x01, 0xE3, 0xA0, 0x00, 0x02]) S k} n ∧
    @stepsFrom makefile zeroEnv.steps
      (ArmCore.boot 0x10 [0xE3, 0xA0, 0x00, 0x01, 0xE3, 0xA0, 0x00, 0x02]) n =
        .ok (result, g.arm) := by
  have hresult : (@cont makefile zeroEnv 2 ⟨⟨Function.update (fun _ => 0) 0 8, 1⟩,
      ArmCore.boot 0x10 [0xE3, 0xA0, 0x00, 0x01, 0xE3, 0xA0, 0x00, 0x02], 0, fun _ => 0, 0, []⟩
        []).map (fun g => (@ArmCore.pc makefile g.arm, g.sent)) =
      .ok (8, [.written (text "$S05#b8")]) := rfl
  obtain ⟨g, hcont, heq⟩ := map_eq_ok.mp hresult
  obtain ⟨hpc, hsent⟩ := Prod.mk.inj heq
  obtain ⟨S, n, result, hrun, hleast, hn, -⟩ :=
    @cont_stops_first makefile zeroEnv 2 (fun _ => 0) [.add 8] [1] _ g [] rfl hcont
  exact ⟨g, S, n, result, hcont, hpc, hsent, hrun, hleast, hn⟩

end ArmSim
