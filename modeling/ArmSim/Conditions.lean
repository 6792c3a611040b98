import ArmSim.Step
import Mathlib.Tactic.IntervalCases

/-! The condition field of an instruction against the architecture's condition
table. -/
namespace ArmSim
open Lib

/-- The condition table, on the flags N, Z, C and V. -/
def armCondition (c : ℕ) (n z cf v : Bool) : Bool :=
  match c with
  | 0x0 => z
  | 0x1 => !z
  | 0x2 => cf
  | 0x3 => !cf
  | 0x4 => n
  | 0x5 => !n
  | 0x6 => v
  | 0x7 => !v
  | 0x8 => cf && !z
  | 0x9 => !cf || z
  | 0xA => n == v
  | 0xB => n != v
  | 0xC => !z && n == v
  | 0xD => z || n != v
  | 0xE => true
  | _ => false

/-- The condition `c` holds of the flags in `cpsr`. -/
def ConditionHolds (c : ℕ) (cpsr : Word) : Prop :=
  armCondition c (cpsr.getLsbD Flag.N) (cpsr.getLsbD Flag.Z) (cpsr.getLsbD Flag.C)
    (cpsr.getLsbD Flag.V) = true

instance (c : ℕ) (cpsr : Word) : Decidable (ConditionHolds c cpsr) :=
  inferInstanceAs (Decidable (_ = true))

/-- The simulator's table: `LS` asks for C and Z, every other entry is the
architecture's. -/
theorem flagCond_eq {c : ℕ} (hc : c < 15) (cpsr : Word) :
    flagCond c cpsr =
      if c = Cond.LS then cpsr.getLsbD Flag.C && cpsr.getLsbD Flag.Z
      else armCondition c (cpsr.getLsbD Flag.N) (cpsr.getLsbD Flag.Z) (cpsr.getLsbD Flag.C)
        (cpsr.getLsbD Flag.V) := by
  -- Both tables depend on the condition and the four flags only: 15 × 16 cases.
  unfold flagCond
  simp only [getBit_eq]
  generalize cpsr.getLsbD Flag.N = n
  generalize cpsr.getLsbD Flag.Z = z
  generalize cpsr.getLsbD Flag.C = cf
  generalize cpsr.getLsbD Flag.V = v
  interval_cases c <;> cases n <;> cases z <;> cases cf <;> cases v <;> rfl

theorem flagCond_iff {c : ℕ} (hc : c < 15) (hls : c ≠ Cond.LS) (cpsr : Word) :
    flagCond c cpsr = true ↔ ConditionHolds c cpsr := by
  rw [flagCond_eq hc, if_neg hls]
  rfl

/-- With C set the simulator's `LS` is the architecture's. -/
theorem flagCond_ls_iff {cpsr : Word} (hC : getBit cpsr Flag.C = 1) :
    flagCond Cond.LS cpsr = true ↔ ConditionHolds Cond.LS cpsr := by
  have h : cpsr.getLsbD Flag.C = true := by
    rw [getBit_eq] at hC
    simpa using hC
  rw [flagCond_eq (by decide), if_pos rfl, h]
  simp [ConditionHolds, armCondition, h]

theorem flagCond_ls_clear {cpsr : Word} (hC : getBit cpsr Flag.C = 0) :
    flagCond Cond.LS cpsr = false ∧ ConditionHolds Cond.LS cpsr ∧
      flagCond Cond.HI cpsr = false := by
  have h : cpsr.getLsbD Flag.C = false := by
    rw [getBit_eq] at hC
    simpa using hC
  refine ⟨?_, ?_, ?_⟩
  · rw [flagCond_eq (by decide), if_pos rfl, h, Bool.false_and]
  · simp [ConditionHolds, armCondition, h]
  · rw [flagCond_eq (by decide), if_neg (by decide), h]
    rfl

/-- The architecture's conditions come in complementary pairs. -/
theorem armCondition_complement {c : ℕ} (hc : c < 14) (n z cf v : Bool) :
    armCondition (c ^^^ 1) n z cf v = !armCondition c n z cf v := by
  interval_cases c <;> cases n <;> cases z <;> cases cf <;> cases v <;> rfl

theorem complement_lt {c : ℕ} (hc : c < 14) : c ^^^ 1 < 14 := by
  interval_cases c <;> decide

theorem flagCond_complement {c : ℕ} (hc : c < 14) (cpsr : Word)
    (hC : c = Cond.HI ∨ c = Cond.LS → getBit cpsr Flag.C = 1) :
    flagCond (c ^^^ 1) cpsr = !flagCond c cpsr := by
  have table (d : ℕ) (hd : d < 14) (hdC : d = Cond.LS → getBit cpsr Flag.C = 1) :
      flagCond d cpsr = armCondition d (cpsr.getLsbD Flag.N) (cpsr.getLsbD Flag.Z)
        (cpsr.getLsbD Flag.C) (cpsr.getLsbD Flag.V) := by
    rw [Bool.eq_iff_iff]
    by_cases hls : d = Cond.LS
    · subst hls
      exact flagCond_ls_iff (hdC rfl)
    · exact flagCond_iff (by omega) hls cpsr
  -- `LS` has the one complement `HI`, where C is known to be set.
  have hpair : c ^^^ 1 = Cond.LS → c = Cond.HI := by
    interval_cases c <;> decide
  rw [table c hc (fun h => hC (Or.inr h)),
    table (c ^^^ 1) (complement_lt hc) (fun h => hC (Or.inl (hpair h))),
    armCondition_complement hc]

section step
variable [Platform]

/-- Conditional execution of the word `inst` in state `p`: the body runs exactly
when the condition holds, a skipped instruction only advances the pc and the cycle
counter, and of a complementary pair exactly one condition runs the body. -/
structure ConditionalStep (env : Env) (p : ArmCore) (inst : Word) : Prop where
  runs_iff : flagCond (getBits inst 31 28) p.cpsr = true ↔
    ConditionHolds (getBits inst 31 28) p.cpsr
  run : ConditionHolds (getBits inst 31 28) p.cpsr →
    armStep env p = runBody env p.advance inst
  skip : ¬ConditionHolds (getBits inst 31 28) p.cpsr → armStep env p = .ok (0, p.advance)
  pair : getBits inst 31 28 < 14 →
    flagCond (getBits inst 31 28 ^^^ 1) p.cpsr = !flagCond (getBits inst 31 28) p.cpsr

/-- Conditional execution is right exactly when the pair HI and LS is tested with
the C flag set. -/
theorem conditional_step_iff (env : Env) (p : ArmCore) (inst : Word) (h : Fetches p inst)
    (hc : getBits inst 31 28 ≠ 15) :
    ConditionalStep env p inst ↔
      (getBits inst 31 28 = Cond.HI ∨ getBits inst 31 28 = Cond.LS →
        getBit p.cpsr Flag.C = 1) := by
  have hc15 : getBits inst 31 28 < 15 := by
    have hlt := getBits_lt_sixteen inst (show 31 - 28 = 3 from rfl)
    omega
  constructor
  · intro hs hpair
    by_contra hC
    have hC0 : getBit p.cpsr Flag.C = 0 := by
      have hlt := getBit_lt_two p.cpsr Flag.C
      omega
    -- With C clear `HI` and `LS` both skip, though `LS` holds.
    obtain ⟨hls, hholds, hhi⟩ := flagCond_ls_clear hC0
    rcases hpair with hc | hc
    · have he := hs.pair (by rw [hc]; decide)
      rw [hc, hhi] at he
      exact absurd (he.symm.trans hls) (by decide)
    · have he := hs.runs_iff
      rw [hc, hls] at he
      exact absurd (he.mpr hholds) (by decide)
  · intro hC
    have hiff : flagCond (getBits inst 31 28) p.cpsr = true ↔
        ConditionHolds (getBits inst 31 28) p.cpsr := by
      by_cases hls : getBits inst 31 28 = Cond.LS
      · rw [hls]
        exact flagCond_ls_iff (hC (Or.inr hls))
      · exact flagCond_iff hc15 hls _
    refine ⟨hiff, fun hh => armStep_run h env (hiff.mpr hh), ?_,
      fun h14 => flagCond_complement h14 _ hC⟩
    intro hh
    exact armStep_skip h env (Bool.eq_false_iff.mpr (fun hf => hh (hiff.mp hf)))

end step

/-- `MOVLS r0, #1` with C and Z clear: the condition holds and nothing is executed. -/
theorem conditional_step_movls :
    @Fetches makefile (ArmCore.boot 0x10 [0x93, 0xA0, 0x00, 0x01]) 0x93A00001 ∧
      ¬@ConditionalStep makefile ⟨0, 0, 0, 0⟩ (ArmCore.boot 0x10 [0x93, 0xA0, 0x00, 0x01])
        0x93A00001 := by
  refine ⟨by decide, ?_⟩
  intro h
  have hrun := (@ConditionalStep.runs_iff makefile _ _ _ h).mpr (by decide)
  exact absurd hrun (by decide)

/-- `MOVEQ r0, #1` with Z set. -/
theorem conditional_step_moveq :
    @ConditionalStep makefile ⟨0, 0, 0, 0⟩
      (ArmCore.boot 0x40000010 [0x03, 0xA0, 0x00, 0x01]) 0x03A00001 :=
  (@conditional_step_iff makefile _ _ _ (by decide) (by decide)).mpr (by decide)

end ArmSim
