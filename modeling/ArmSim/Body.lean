import ArmSim.Multiple
import ArmSim.Step
import ArmSim.Transfers

/-! The decoded body and the step as a whole: every code they return, what they leave
alone, and the one instruction that follows a `NULL` bank pointer. -/
namespace ArmSim
open Lib
variable [Platform]

/-- The codes of the handlers. -/
def BodyCode (p : ArmCore) (inst : Word) (c : ℤ) : Prop :=
  c = 0 ∨ (c = 2 ∧ ¬AccessOutside p inst) ∨ c = 7 ∨ c = 8 ∨ (c = -1 ∧ AccessOutside p inst)

/-- The body follows the `NULL` pointer of a mode without an SPSR. -/
def BodyReadsMissingSpsr (p : ArmCore) (inst : Word) : Prop :=
  getBits inst 27 25 = 4 ∧ RestoresMissingSpsr p inst

theorem no_access_outside {p : ArmCore} {inst : Word} (h : dataAddresses p inst = .ok []) :
    ¬AccessOutside p inst := by
  rintro ⟨as, has, a, ha, -⟩
  rw [h] at has
  cases has
  exact absurd ha List.not_mem_nil

section body
variable (env : Env) (p : ArmCore) {inst : Word}

theorem BodyCode.of_transfer {p : ArmCore} {inst : Word} {r : ℤ × ArmCore}
    (h : Handled p (TransferCode p inst) r) : Handled p (BodyCode p inst) r := by
  refine ⟨?_, h.2⟩
  rcases h.1 with hc | hc | hc
  · exact Or.inl hc
  · exact Or.inr (Or.inr (Or.inl hc))
  · exact Or.inr (Or.inr (Or.inr (Or.inr hc)))

/-- Every word the decoder is given: the code, the frame and the crash. -/
theorem armFetchCodeInst_ends (inst : Word) :
    Ends (armFetchCodeInst env p inst p.cpsr) (Handled p (BodyCode p inst))
      (fun e => e = .nullPointer → BodyReadsMissingSpsr p inst) := by
  have hfault {x : Except Crash (ℤ × ArmCore)} {code : ℤ → Prop}
      (h : Ends x (Handled p code) NoNull) (hcode : ∀ c, code c → BodyCode p inst c) :
      Ends x (Handled p (BodyCode p inst))
        (fun e => e = .nullPointer → BodyReadsMissingSpsr p inst) :=
    noNull_imp (h.imp (fun r hr => ⟨hcode _ hr.1, hr.2⟩)) _
  have htransfer {x : Except Crash (ℤ × ArmCore)}
      (h : Ends x (Handled p (TransferCode p inst)) NoNull) :
      Ends x (Handled p (BodyCode p inst))
        (fun e => e = .nullPointer → BodyReadsMissingSpsr p inst) :=
    noNull_imp (h.imp (fun _ hr => BodyCode.of_transfer hr)) _
  have h0 (c : ℤ) (hc : c = 0) : BodyCode p inst c := Or.inl hc
  have h07 (c : ℤ) (hc : c = 0 ∨ c = 7) : BodyCode p inst c := by
    rcases hc with hc | hc <;> simp [BodyCode, hc]
  have h87 (c : ℤ) (hc : c = 8 ∨ c = 7) : BodyCode p inst c := by
    rcases hc with hc | hc <;> simp [BodyCode, hc]
  have hundefined : Handled p (BodyCode p inst) (Exc.UNDEFINED_INSTRUCTION, p) :=
    BodyCode.of_transfer (handled_undefined p inst)
  -- One case for each value of bits 27 to 25, and inside it the decoder's own tests.
  unfold armFetchCodeInst
  dsimp only
  split
  · rename_i hcode
    refine ends_ite (fun h4 => ends_ite (fun _ => ?_) (fun _ => ?_)) (fun h4 => ?_)
    · -- Only here the code can be a data abort, and the word is no load or store.
      refine hfault (armMiscellaneous_ends p inst) ?_
      intro c hc
      have hnone : dataAddresses p inst = .ok [] := by simp [dataAddresses, hcode, h4]
      rcases hc with hc | hc
      · exact Or.inl hc
      · exact Or.inr (Or.inl ⟨hc, no_access_outside hnone⟩)
    · exact hfault (armDataProcessingImmediateShift_ends p inst rfl) h07
    refine ends_ite (fun _ => ends_ite (fun _ => ?_) (fun _ => ?_))
      (fun h7 => ends_ite (fun _ => ?_) (fun h56 => ?_))
    · exact hfault (armMiscellaneous2_ends p inst) h0
    · exact hfault (armDataProcessingRegisterShift_ends p inst rfl) h07
    · exact hfault (armMultiply_ends p inst rfl) h0
    · exact htransfer (armLoadStoreMiscellaneous_ends p inst hcode
        ((getBit_zero_or_one inst 4).resolve_left h4)
        ((getBit_zero_or_one inst 7).resolve_left h7) h56)
  · exact ends_ite (fun _ => hundefined)
      (fun _ => hfault (armDataProcessingImmediate_ends p inst rfl) h07)
  · rename_i hcode
    exact htransfer (armLoadStoreImmediateOffset_ends p inst hcode)
  · rename_i hcode
    exact ends_ite (fun h4 => htransfer (armLoadStoreRegisterOffset_ends p inst hcode h4))
      (fun _ => hundefined)
  · rename_i hcode
    exact (armLoadStoreMultiple_ends env p inst).mono (fun r hr => ⟨h0 _ hr.1, hr.2⟩)
      (fun e he hnull => ⟨hcode, he hnull⟩)
  · exact hfault (armBranch_ends p inst) h0
  · exact hundefined
  · exact ends_ite (fun _ => hundefined)
      (fun _ => hfault (armCoprocessorOthersSwi_ends p inst) h87)
  · exact hundefined

/-- The codes of a step whose instruction is executed: 255 is the `uint8_t` of -1. -/
def StepCode (p : ArmCore) (inst : Word) (c : ℤ) : Prop :=
  c = 0 ∨ (c = 2 ∧ ¬AccessOutside p inst) ∨ c = 7 ∨ c = 8 ∨ c = 9 ∨
    (c = 255 ∧ AccessOutside p inst)

theorem runBody_ends (inst : Word) :
    Ends (runBody env p inst) (Handled p (StepCode p inst))
      (fun e => e = .nullPointer → BodyReadsMissingSpsr p inst) := by
  unfold runBody
  apply (armFetchCodeInst_ends env p inst).bind
  intro r hr
  obtain ⟨hcode, hstays⟩ := hr
  have hother {e : ℕ} (h8 : e ≠ 8) (h4 : e ≠ 4) (h1 : e ≠ 1) (hc : StepCode p inst e) :
      Ends (armException env r.2 e) (Handled p (StepCode p inst))
        (fun e => e = .nullPointer → BodyReadsMissingSpsr p inst) := by
    rw [armException_other env r.2 h8 h4 h1]
    exact ⟨hc, hstays⟩
  -- Only the software interrupt does more than pass its code through.
  refine ends_ite ?_ (fun h => ⟨Or.inl (by simpa using h), hstays⟩)
  intro hne
  rcases hcode with hc | ⟨hc, hout⟩ | hc | hc | ⟨hc, hout⟩ <;> rw [hc] at hne ⊢
  · exact absurd rfl hne
  · exact hother (e := 2) (by decide) (by decide) (by decide) (Or.inr (Or.inl ⟨rfl, hout⟩))
  · exact hother (e := 7) (by decide) (by decide) (by decide) (by simp [StepCode])
  · refine noNull_imp ((armException_software_ends r.2 env).imp ?_) _
    intro r' hr'
    refine ⟨?_, hstays.trans hr'.2⟩
    rcases hr'.1 with h | h | h <;> simp [StepCode, h]
  · exact hother (e := 255) (by decide) (by decide) (by decide) (by simp [StepCode, hout])

theorem advance_stays : Stays p p.advance := by
  intro _
  refine ⟨by rw [advance_cpsr], fun c hc => advance_cell p ?_⟩
  rintro rfl
  exact hc (bankCell_user (by decide) (by decide)).1

end body

/-- The reset the simulator itself performs. -/
def ArmCore.reset (p : ArmCore) : ArmCore :=
  (armWriteCpsr p 0x153).setCell (bankCell PC 0) 0

theorem armException_reset (env : Env) (p : ArmCore) :
    armException env p Exc.RESET = .ok (1, p.reset) := by
  have hwrite := armWriteRegister_pc (armWriteCpsr p 0x153) 0
  unfold armException
  simp only [↓reduceIte, hwrite, ok_bind, pure_eq_ok]
  rfl

/-- The four ways of a step: unfetchable, out of the array, skipped and run. -/
theorem armStep_cases (env : Env) (p : ArmCore) :
    (p.mem.size ≤ p.pc.toNat ∧ armStep env p = .ok (1, p.advance.reset)) ∨
      armStep env p = .error .memoryByte ∨
      ∃ inst, Fetches p inst ∧
        ((flagCond (getBits inst 31 28) p.cpsr = false ∧ armStep env p = .ok (0, p.advance)) ∨
          (flagCond (getBits inst 31 28) p.cpsr = true ∧
            armStep env p = runBody env p.advance inst)) := by
  rcases fetch_cases p with h | ⟨h, h4⟩ | ⟨inst, h⟩
  · exact Or.inl ⟨h, by rw [armStep_unfetchable h, armException_reset]⟩
  · exact Or.inr (Or.inl (armStep_straddling h h4 env))
  · refine Or.inr (Or.inr ⟨inst, h, ?_⟩)
    cases hc : flagCond (getBits inst 31 28) p.cpsr with
    | false => exact Or.inl ⟨rfl, armStep_skip h env hc⟩
    | true => exact Or.inr ⟨rfl, armStep_run h env hc⟩

end ArmSim
