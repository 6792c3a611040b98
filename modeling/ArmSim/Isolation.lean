import ArmSim.Body
import Mathlib.Logic.Relation

/-! Unprivileged isolation: code in a mode without an SPSR reaches its own registers
and the flags, over any number of steps. -/
namespace ArmSim
open Lib

section isolation
variable [Platform]

/-- A step that raises no exception. -/
def Steps (p q : ArmCore) : Prop := ∃ env, armStep env p = .ok (0, q)

/-- One step keeps the CPSR below the flags and the cells of the other banks. -/
theorem Steps.frame {p q : ArmCore} (h : Steps p q) : Stays p q := by
  obtain ⟨env, h⟩ := h
  rcases armStep_cases env p with ⟨-, hs⟩ | hs | ⟨inst, -, ⟨-, hs⟩ | ⟨-, hs⟩⟩
  · rw [h] at hs
    simp at hs
  · rw [h] at hs
    cases hs
  · rw [h] at hs
    cases hs
    exact advance_stays p
  · have hr := (runBody_ends env p.advance inst).value (hs.symm.trans h)
    exact (advance_stays p).trans hr.2

/-- Any number of steps without an exception keeps them too. -/
theorem steps_isolated {p q : ArmCore} (hb : p.bank < 2) (h : Relation.ReflTransGen Steps p q) :
    UserFrame p q := by
  have hrun : Stays p q := by
    -- On the run; `Stays` carries the bank from one step to the next.
    induction h with
    | refl => exact Stays.refl p
    | tail _ hstep ih => exact ih.trans hstep.frame
  exact hrun hb

end isolation

/-- `MOVS r0, #1` in user mode. -/
theorem steps_isolated_movs :
    ∃ q, @Steps makefile (ArmCore.boot 0x10 [0xE3, 0xB0, 0x00, 0x01]) q ∧
      UserFrame (ArmCore.boot 0x10 [0xE3, 0xB0, 0x00, 0x01]) q := by
  obtain ⟨q, hq⟩ := exists_of_map_fst (a := 0)
    (x := @armStep makefile ⟨0, 0, 0, 0⟩ (ArmCore.boot 0x10 [0xE3, 0xB0, 0x00, 0x01])) (by decide)
  have hstep : @Steps makefile (ArmCore.boot 0x10 [0xE3, 0xB0, 0x00, 0x01]) q := ⟨_, hq⟩
  exact ⟨q, hstep, @steps_isolated makefile _ _ (by decide) (.single hstep)⟩

end ArmSim
