import ArmSim.Handlers
import ArmSim.Step

/-! The architecture's encodings for which the simulator has no handler, and what
the decoder makes of them. -/
namespace ArmSim
open Lib

/-- The encodings of ARMv5 without a handler, by the bits that define them. -/
inductive Unimplemented (inst : Word) : Prop where
  | msrRegister (h : getBits inst 27 23 = 0b00010) (h21 : getBit inst 21 = 1)
      (h20 : getBit inst 20 = 0) (h7 : getBits inst 7 4 = 0b0000)
  | clz (h : getBits inst 27 20 = 0b00010110) (h7 : getBits inst 7 4 = 0b0001)
  | blxRegister (h : getBits inst 27 20 = 0b00010010) (h7 : getBits inst 7 4 = 0b0011)
  | bkpt (h : getBits inst 27 20 = 0b00010010) (h7 : getBits inst 7 4 = 0b0111)
  | saturatingAdd (h : getBits inst 27 23 = 0b00010) (h20 : getBit inst 20 = 0)
      (h7 : getBits inst 7 4 = 0b0101)
  | signedHalfwordMultiply (h : getBits inst 27 23 = 0b00010) (h20 : getBit inst 20 = 0)
      (h7 : getBit inst 7 = 1) (h4 : getBit inst 4 = 0)
  | mla (h : getBits inst 27 21 = 0b0000001) (h7 : getBits inst 7 4 = 0b1001)
  | longMultiply (h : getBits inst 27 23 = 0b00001) (h7 : getBits inst 7 4 = 0b1001)
  | swp (h : getBits inst 27 23 = 0b00010) (h21 : getBits inst 21 20 = 0b00)
      (h7 : getBits inst 7 4 = 0b1001)

/-- The bits by which the decoder tells the three handlers of these encodings apart. -/
theorem Unimplemented.decoded {inst : Word} (h : Unimplemented inst) :
    getBits inst 27 25 = 0 ∧
      ((getBit inst 4 = 0 ∧ getBits inst 24 23 = 2 ∧ getBit inst 20 = 0) ∨
        (getBit inst 4 = 1 ∧ getBit inst 7 = 0 ∧ getBits inst 24 23 = 2 ∧ getBit inst 20 = 0) ∨
        (getBit inst 4 = 1 ∧ getBit inst 7 = 1 ∧ getBit inst 5 = 0 ∧ getBit inst 6 = 0)) := by
  -- Every encoding fixes the bits the decoder looks at.
  cases h with
  | _ =>
    simp only [getBits_eq, getBit_eq_div] at *
    omega

section rejection
variable [Platform]

/-- What the simulator owes an encoding it does not implement. -/
def RejectsUnchanged (env : Env) (p : ArmCore) : Prop :=
  ∃ p', armStep env p = .ok (Exc.UNDEFINED_INSTRUCTION, p') ∧ p'.pc = p.pc + 4 ∧
    (∀ c, c ≠ bankCell PC 0 → p'.reg c = p.reg c) ∧ p'.mem = p.mem

/-- The decoder gives these encodings to the handlers of MRS, BX and MUL. -/
theorem armFetchCodeInst_unimplemented_ends (env : Env) (p : ArmCore) {inst : Word}
    (h : Unimplemented inst) :
    Ends (armFetchCodeInst env p inst p.cpsr) (Handled p (fun c => c = 0 ∨ c = 2)) NoNull := by
  have hzero {x : Except Crash (ℤ × ArmCore)} (hx : Ends x (Handled p (· = 0)) NoNull) :
      Ends x (Handled p (fun c => c = 0 ∨ c = 2)) NoNull :=
    hx.imp (fun _ hr => ⟨Or.inl hr.1, hr.2⟩)
  obtain ⟨hcode, ⟨h4, ho, hS⟩ | ⟨h4, h7, ho, hS⟩ | ⟨h4, h7, h5, h6⟩⟩ := h.decoded
  · rw [decode_miscellaneous env p p.cpsr hcode h4 ho hS]
    exact armMiscellaneous_ends p inst
  · rw [decode_miscellaneous2 env p p.cpsr hcode h4 h7 ho hS]
    exact hzero (armMiscellaneous2_ends p inst)
  · rw [decode_multiply env p p.cpsr hcode h4 h7 h5 h6]
    exact hzero (armMultiply_ends p inst rfl)

theorem runBody_not_rejected (env : Env) (p : ArmCore) {p' : ArmCore} {inst : Word}
    (h : Unimplemented inst) :
    runBody env p inst ≠ .ok (Exc.UNDEFINED_INSTRUCTION, p') := by
  intro hbody
  obtain ⟨⟨c, q⟩, hr, hend⟩ := bind_eq_ok.mp hbody
  have hcode : c = 0 ∨ c = 2 := ((armFetchCodeInst_unimplemented_ends env p h).value hr).1
  rcases hcode with rfl | rfl
  · simp at hend
  · have he : armException env q 2 = .ok (7, p') := hend
    rw [armException_other env q (by decide) (by decide) (by decide)] at he
    simp at he

/-- No unimplemented encoding is rejected, whether its condition passes or not. -/
theorem unimplemented_not_rejected (env : Env) (p : ArmCore) (inst : Word)
    (hf : Fetches p inst) (h : Unimplemented inst) : ¬RejectsUnchanged env p := by
  rintro ⟨p', hstep, -⟩
  cases hc : flagCond (getBits inst 31 28) p.cpsr with
  | false =>
    rw [armStep_skip hf env hc] at hstep
    simp at hstep
  | true =>
    rw [armStep_run hf env hc] at hstep
    exact runBody_not_rejected env p.advance h hstep

end rejection

/-- `CLZ r1, r2` runs as `BX r2`. -/
theorem unimplemented_not_rejected_clz :
    @Fetches makefile (ArmCore.boot 0x10 [0xE1, 0x6F, 0x1F, 0x12]) 0xE16F1F12 ∧
      Unimplemented 0xE16F1F12 ∧
      ¬@RejectsUnchanged makefile ⟨0, 0, 0, 0⟩
        (ArmCore.boot 0x10 [0xE1, 0x6F, 0x1F, 0x12]) := by
  refine ⟨by decide, .clz (by decide) (by decide), ?_⟩
  rintro ⟨p', hstep, -⟩
  obtain ⟨q, hq⟩ := exists_of_map_fst (a := 0)
    (x := @armStep makefile ⟨0, 0, 0, 0⟩ (ArmCore.boot 0x10 [0xE1, 0x6F, 0x1F, 0x12])) (by decide)
  rw [hstep] at hq
  simp at hq

/-- `MSR CPSR_f, r0`. -/
theorem unimplemented_not_rejected_msr :
    ¬@RejectsUnchanged makefile ⟨0, 0, 0, 0⟩
      (ArmCore.boot 0x1F [0xE1, 0x28, 0xF0, 0x00]) :=
  @unimplemented_not_rejected makefile _ _ 0xE128F000 (by decide)
    (.msrRegister (by decide) (by decide) (by decide) (by decide))

end ArmSim
