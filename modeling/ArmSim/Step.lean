import ArmSim.Instruction

/-! What one step does, case by case: the fetch, the condition field and the
decoder.  Each decoding lemma names the bits that select its handler. -/
namespace ArmSim
open Lib

/-- A machine about to run `program` from address 0, all registers 0. -/
def ArmCore.boot (cpsr : Word) (program : List Byte) : ArmCore where
  cycleCount := 0
  reg := registersWriteCpsr registersCreate cpsr
  mem := ⟨program⟩
  output := []

variable [Platform]

/-- The fetch at the current pc succeeds and returns `inst`. -/
def Fetches (p : ArmCore) (inst : Word) : Prop :=
  memoryReadWord p.mem p.pc 0 ENDIANESS = .ok (0, inst)

instance (p : ArmCore) (inst : Word) : Decidable (Fetches p inst) :=
  inferInstanceAs (Decidable (_ = _))

section advance
variable (p : ArmCore)

@[simp] theorem advance_cpsr : p.advance.cpsr = p.cpsr :=
  Registers.set_of_ne p.reg (p.pc + 4) cpsrCell_ne_pc

@[simp] theorem advance_bank : p.advance.bank = p.bank :=
  bank_congr (advance_cpsr p)

theorem advance_cell {c : Cell} (h : c ≠ bankCell PC 0) : p.advance.reg c = p.reg c :=
  Registers.set_of_ne p.reg (p.pc + 4) h

theorem advance_gp {reg : ℕ} (hr : reg < 15) (hb : p.bank < 6) :
    p.advance.gp reg = p.gp reg := by
  unfold ArmCore.gp
  rw [advance_bank]
  exact Registers.get_set_of_ne _ _ (bankCell_ne_pc hr hb)

/-- After the fetch a register other than the pc is read as before it. -/
theorem armReadRegister_advance {reg : ℕ} (hr : reg < 15) (hb : p.bank < 6) :
    armReadRegister p.advance reg = .ok (p.gp reg) := by
  rw [armReadRegister_eq (by omega) (by rwa [advance_bank]), operand_of_ne (by omega),
    advance_gp p hr hb]

end advance

/-- Run the decoded instruction and take the exception it returns. -/
def runBody (env : Env) (p : ArmCore) (inst : Word) : Except Crash (ℤ × ArmCore) := do
  let (result, p) ← armFetchCodeInst env p inst p.cpsr
  if result ≠ 0 then armException env p (toUint8 result) else return (result, p)

theorem armExecuteInstruction_of_fetches {p : ArmCore} {inst : Word} (h : Fetches p inst)
    (env : Env) :
    armExecuteInstruction env p =
      if flagCond (getBits inst 31 28) p.cpsr then
        armFetchCodeInst env p.advance inst p.cpsr
      else .ok (0, p.advance) := by
  unfold armExecuteInstruction
  rw [armFetch_eq, h]
  -- The fetch moves the pc only, so the flags tested are those of `p`.
  change (if flagCond (getBits inst 31 28) p.advance.cpsr = true then
    armFetchCodeInst env p.advance inst p.advance.cpsr else _) = _
  rw [advance_cpsr]
  rfl

theorem armStep_run {p : ArmCore} {inst : Word} (h : Fetches p inst) (env : Env)
    (hc : flagCond (getBits inst 31 28) p.cpsr = true) :
    armStep env p = runBody env p.advance inst := by
  unfold armStep runBody
  rw [armExecuteInstruction_of_fetches h, if_pos hc, advance_cpsr]

theorem armStep_skip {p : ArmCore} {inst : Word} (h : Fetches p inst) (env : Env)
    (hc : flagCond (getBits inst 31 28) p.cpsr = false) :
    armStep env p = .ok (0, p.advance) := by
  unfold armStep
  rw [armExecuteInstruction_of_fetches h, hc]
  rfl

/-- A pc outside memory is reported as a reset. -/
theorem armStep_unfetchable {p : ArmCore} (h : p.mem.size ≤ p.pc.toNat) (env : Env) :
    armStep env p = armException env p.advance Exc.RESET := by
  unfold armStep armExecuteInstruction
  rw [armFetch_eq, memoryReadWord_outside h]
  rfl

theorem armStep_straddling {p : ArmCore} (h : p.pc.toNat < p.mem.size)
    (h4 : ¬p.mem.InRange p.pc 4) (env : Env) : armStep env p = .error .memoryByte := by
  unfold armStep armExecuteInstruction
  rw [armFetch_eq, memoryReadWord_straddling h h4]
  rfl

/-- The three ways a step can begin. -/
theorem fetch_cases (p : ArmCore) :
    p.mem.size ≤ p.pc.toNat ∨ (p.pc.toNat < p.mem.size ∧ ¬p.mem.InRange p.pc 4) ∨
      ∃ inst, Fetches p inst := by
  rcases p.mem.access_cases p.pc with h | h | h
  · exact Or.inl h
  · exact Or.inr (Or.inl h)
  · exact Or.inr (Or.inr ⟨_, memoryReadWord_inRange h _ _⟩)

theorem Fetches.unique {p : ArmCore} {inst inst' : Word} (h : Fetches p inst)
    (h' : Fetches p inst') : inst = inst' :=
  ok_unique_snd h h'

section decode
variable (env : Env) (p : ArmCore) {inst : Word} (cpsr : Word)

theorem decode_miscellaneous (h : getBits inst 27 25 = 0) (h4 : getBit inst 4 = 0)
    (ho : getBits inst 24 23 = 2) (hS : getBit inst 20 = 0) :
    armFetchCodeInst env p inst cpsr = armMiscellaneous p inst := by
  simp only [armFetchCodeInst, h, h4, ho, hS, and_self, ↓reduceIte]

theorem decode_miscellaneous2 (h : getBits inst 27 25 = 0) (h4 : getBit inst 4 = 1)
    (h7 : getBit inst 7 = 0) (ho : getBits inst 24 23 = 2) (hS : getBit inst 20 = 0) :
    armFetchCodeInst env p inst cpsr = armMiscellaneous2 p inst := by
  simp only [armFetchCodeInst, h, h4, h7, ho, hS, and_self, ↓reduceIte, Nat.one_ne_zero]

theorem decode_multiply (h : getBits inst 27 25 = 0) (h4 : getBit inst 4 = 1)
    (h7 : getBit inst 7 = 1) (h5 : getBit inst 5 = 0) (h6 : getBit inst 6 = 0) :
    armFetchCodeInst env p inst cpsr = armMultiply p inst cpsr := by
  simp only [armFetchCodeInst, h, h4, h7, h5, h6, and_self, ↓reduceIte, Nat.one_ne_zero]

theorem decode_immediateShift (h : getBits inst 27 25 = 0) (h4 : getBit inst 4 = 0)
    (ho : ¬(getBits inst 24 23 = 2 ∧ getBit inst 20 = 0)) :
    armFetchCodeInst env p inst cpsr = armDataProcessingImmediateShift p inst cpsr := by
  simp only [armFetchCodeInst, h, h4, ho, ↓reduceIte]

theorem decode_immediate (h : getBits inst 27 25 = 1)
    (ho : ¬(getBits inst 24 23 = 2 ∧ getBit inst 20 = 0)) :
    armFetchCodeInst env p inst cpsr = armDataProcessingImmediate p inst cpsr := by
  simp only [armFetchCodeInst, h, ho, ↓reduceIte]

theorem decode_multiple (h : getBits inst 27 25 = 4) :
    armFetchCodeInst env p inst cpsr = armLoadStoreMultiple env p inst := by
  simp only [armFetchCodeInst, h]

end decode

end ArmSim
