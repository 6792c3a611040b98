import ArmSim.Returns
import ArmSim.Trace

/-! How a step reports the accesses that fail: a fetch and a single load or store
outside memory, up to the reason sent to the debugger. -/
namespace ArmSim
open Lib

section faults
variable [Platform]

/-- The step executes a single load or store that accesses an address outside memory. -/
def DataFault (p : ArmCore) : Prop :=
  ∃ inst, Fetches p inst ∧ flagCond (getBits inst 31 28) p.cpsr = true ∧
    AccessOutside p.advance inst

/-- The exception codes of a step from `p`: the step returns one of them, a prefetch abort that
resets nothing for a pc outside memory, and a data abort for a data fault. -/
structure FaultsClassified (env : Env) (p : ArmCore) : Prop where
  codes : ∃ r q, armStep env p = .ok (r, q) ∧ 0 ≤ r ∧ r ≤ 9
  prefetch : p.mem.size ≤ p.pc.toNat → ∃ r q, armStep env p = .ok (r, q) ∧
    r = Exc.PREFETCH_ABORT ∧ gdbStopReason r = "S0A" ∧ q.cpsr = p.cpsr ∧
    ∀ c : Cell, c.reg < 15 → q.reg c = p.reg c
  data : DataFault p → ∃ r q, armStep env p = .ok (r, q) ∧ r = Exc.DATA_ABORT ∧
    gdbStopReason r = "S0B"

/-- The word at the pc lies in memory, and if its condition holds it can be executed. -/
structure StepFits (env : Env) (p : ArmCore) : Prop where
  fetched : p.mem.InRange p.pc 4
  executable : ∀ inst, Fetches p inst → flagCond (getBits inst 31 28) p.cpsr = true →
    Executable env p.advance inst

/-- Accesses of at least one byte that lie inside memory begin there. -/
theorem AccessesInside.not_outside {p : ArmCore} {inst : Word} (h : AccessesInside p inst) :
    ¬AccessOutside p inst := by
  rintro ⟨as, has, a, ha, hout⟩
  have hstart := (h as has a ha).start (accessSize_pos inst)
  omega

/-- Behind a fetch the body returns if and only if the instruction can be executed. -/
theorem armStep_returns {env : Env} {p : ArmCore} {inst : Word} (h4 : p.mem.InRange p.pc 4)
    (hf : Fetches p inst) (hc : flagCond (getBits inst 31 28) p.cpsr = true)
    (hin : ¬AccessOutside p.advance inst) :
    (∃ r, armStep env p = .ok r) ↔ Executable env p.advance inst := by
  have hpc : p.advance.pc = p.pc + 4 := Registers.get_set_self _ _ _
  rw [armStep_run hf env hc]
  apply (runBody_returns env hin _).exists_iff
  rw [hpc]
  exact reread_inRange h4

/-- A data fault is never reported as a data abort. -/
theorem DataFault.not_abort {env : Env} {p q : ArmCore} (h : DataFault p) :
    armStep env p ≠ .ok (2, q) := by
  obtain ⟨inst, hf, hc, hout⟩ := h
  intro hstep
  -- The one handler that returns a data abort makes no data access.
  rw [armStep_run hf env hc] at hstep
  have hcode : StepCode p.advance inst 2 := ((runBody_ends env p.advance inst).value hstep).1
  rcases hcode with h | ⟨-, h⟩ | h | h | h | ⟨h, -⟩
  · exact absurd h (by decide)
  · exact h hout
  all_goals exact absurd h (by decide)

theorem armStep_codes {env : Env} {p q : ArmCore} {r : ℤ} (hpc : p.pc.toNat < p.mem.size)
    (hdata : ¬DataFault p) (h : armStep env p = .ok (r, q)) : 0 ≤ r ∧ r ≤ 9 := by
  rcases armStep_cases env p with ⟨hout, -⟩ | hs | ⟨inst, hf, ⟨-, hs⟩ | ⟨hc, hs⟩⟩
  · omega
  · rw [h] at hs
    cases hs
  · rw [h] at hs
    cases hs
    decide
  · have hcode : StepCode p.advance inst r :=
      ((runBody_ends env p.advance inst).value (hs.symm.trans h)).1
    rcases hcode with h | ⟨h, -⟩ | h | h | h | ⟨-, hout⟩
    · omega
    · omega
    · omega
    · omega
    · omega
    · exact absurd ⟨inst, hf, hc, hout⟩ hdata

/-- The faults are classified exactly when there is none to classify: the step returns, and makes
no access that fails. -/
theorem faults_classified_iff (env : Env) (p : ArmCore) :
    FaultsClassified env p ↔ StepFits env p := by
  constructor
  · intro h
    obtain ⟨r, q, hstep, -⟩ := h.codes
    have hdata : ¬DataFault p := by
      intro hdata
      obtain ⟨r', q', hstep', hr, -⟩ := h.data hdata
      rw [hr] at hstep'
      exact hdata.not_abort hstep'
    have h4 : p.mem.InRange p.pc 4 := by
      rcases p.mem.access_cases p.pc with hout | ⟨hpc, h4⟩ | h4
      · obtain ⟨r', q', hstep', hr, -⟩ := h.prefetch hout
        rw [armStep_unfetchable hout, armException_reset, hr] at hstep'
        simp at hstep'
      · rw [armStep_straddling hpc h4] at hstep
        cases hstep
      · exact h4
    refine ⟨h4, fun inst hf hc => ?_⟩
    exact (armStep_returns h4 hf hc (fun hout => hdata ⟨inst, hf, hc, hout⟩)).mp ⟨_, hstep⟩
  · intro h
    have hpc : p.pc.toNat < p.mem.size := h.fetched.start (by decide)
    have hdata : ¬DataFault p := by
      rintro ⟨inst, hf, hc, hout⟩
      exact (h.executable inst hf hc).accesses.not_outside hout
    refine ⟨?_, fun hout => by omega, fun hfault => absurd hfault hdata⟩
    have hreturns : ∃ r, armStep env p = .ok r := by
      obtain ⟨inst, hf⟩ : ∃ inst, Fetches p inst := ⟨_, memoryReadWord_inRange h.fetched _ _⟩
      -- A word whose condition fails is skipped, whatever it is.
      cases hc : flagCond (getBits inst 31 28) p.cpsr with
      | false => exact ⟨_, armStep_skip hf env hc⟩
      | true =>
        have hexec := h.executable inst hf hc
        exact (armStep_returns h.fetched hf hc hexec.accesses.not_outside).mpr hexec
    obtain ⟨⟨r, q⟩, hstep⟩ := hreturns
    exact ⟨r, q, hstep, armStep_codes hpc hdata hstep⟩

end faults

/-- `LDR r0, [r1, #4]` with four bytes of memory returns 255, and a pc of 0x1000
resets the processor. -/
theorem faults_classified_ldr :
    ¬@FaultsClassified makefile ⟨0, 0, 0, 0⟩ (ArmCore.boot 0x10 [0xE5, 0x91, 0x00, 0x04]) ∧
      ¬@FaultsClassified makefile ⟨0, 0, 0, 0⟩ (@ArmCore.setCell makefile
        (ArmCore.boot 0x10 [0xE5, 0x91, 0x00, 0x04]) (bankCell PC 0) 0x1000) := by
  constructor
  · intro h
    obtain ⟨q, hq⟩ := exists_of_map_fst (a := 255)
      (x := @armStep makefile ⟨0, 0, 0, 0⟩ (ArmCore.boot 0x10 [0xE5, 0x91, 0x00, 0x04]))
      (by decide)
    obtain ⟨r, q', hs, -, h9⟩ := @FaultsClassified.codes makefile _ _ h
    obtain rfl : r = 255 := congrArg Prod.fst (ok_unique hs hq)
    exact absurd h9 (by decide)
  · intro h
    obtain ⟨q, hq⟩ := exists_of_map_fst (a := 1)
      (x := @armStep makefile ⟨0, 0, 0, 0⟩ (@ArmCore.setCell makefile
        (ArmCore.boot 0x10 [0xE5, 0x91, 0x00, 0x04]) (bankCell PC 0) 0x1000)) (by decide)
    obtain ⟨r, q', hs, hr, -⟩ := @FaultsClassified.prefetch makefile _ _ h (by decide)
    rw [hs, hr] at hq
    simp at hq

end ArmSim
