import ArmSim.Flags
import ArmSim.Handlers

/-! Interrupt entry and the return `SUBS PC, R14, #4`: the interrupted program gets
its pc and registers back, and its CPSR except for the flags of the subtraction. -/
namespace ArmSim
open Lib

/-- The CPSR with which the interrupt handler starts. -/
def irqCpsr (cpsr : Word) : Word :=
  setBit (clrBit (setBits cpsr 4 0 (BitVec.ofNat 32 Mode.IRQ)) 5) 7

theorem irqCpsr_mode (cpsr : Word) : getBits (irqCpsr cpsr) 5 0 = Mode.IRQ := by
  have hlow : (irqCpsr cpsr).toNat % 2^6 = (0x12#32).toNat % 2^6 := by
    apply mod_eq_of_getLsbD
    intro i hi
    have hi' : i = 0 ∨ i = 1 ∨ i = 2 ∨ i = 3 ∨ i = 4 ∨ i = 5 := by omega
    unfold irqCpsr
    rw [getLsbD_setBit, getLsbD_clrBit, getLsbD_setBits _ _ _ _ _ (by omega)]
    rcases hi' with rfl | rfl | rfl | rfl | rfl | rfl <;> simp <;> rfl
  rw [getBits_eq, Nat.pow_zero, Nat.div_one]
  exact hlow

/-- The cells an interrupt entry writes are none of the interrupted mode's r0-r14. -/
theorem interrupted_cell_ne {reg b : ℕ} (hr : reg < 15) (hb : b < 5) :
    bankCell reg b ≠ cpsrCell ∧ bankCell reg b ≠ bankCell SPSR 5 ∧
      bankCell reg b ≠ bankCell PC 0 ∧ bankCell reg b ≠ bankCell LR 5 ∧
      bankCell reg b ≠ bankCell SP 5 := by
  have h : ∀ reg < 15, ∀ b < 5, bankCell reg b ≠ cpsrCell ∧ bankCell reg b ≠ bankCell SPSR 5 ∧
      bankCell reg b ≠ bankCell PC 0 ∧ bankCell reg b ≠ bankCell LR 5 ∧
      bankCell reg b ≠ bankCell SP 5 := by decide
  exact h reg hr b hb

/-- An unconditional `SUBS PC, R14, #4`, in any encoding of the immediate. -/
structure IsIrqReturn (inst : Word) : Prop where
  cond : getBits inst 31 28 = Cond.AL
  opcode : getBits inst 27 20 = 0b00100101
  rn : getBits inst 19 16 = 14
  rd : getBits inst 15 12 = 15
  four : ror (BitVec.ofNat 32 (getBits inst 7 0)) (getBits inst 11 8 * 2) = 4

theorem IsIrqReturn.fields {inst : Word} (h : IsIrqReturn inst) :
    getBits inst 27 25 = 1 ∧ getBit inst 20 = 1 ∧ getBits inst 24 21 = Op.SUB := by
  have h1 := h.opcode
  change _ ∧ _ ∧ getBits inst 24 21 = 2
  simp only [getBits_eq, getBit_eq_div] at *
  omega

/-- The CPSR a return with link value `lr` leaves: the SPSR with the flags of the
subtraction, which the carry of the shifter does not enter. -/
def returnedCpsr (lr spsr : Word) : Word :=
  updateFlags ⟨(lr - 4).setWidth 64, true, 1, 2⟩ Op.SUB lr 4 0 spsr

/-- Subtracting 4 overflows at the largest positive multiple of 4 only. -/
theorem returnOverflow_iff {x : Word} (h : x.toNat % 4 = 0) :
    subtractionOverflow (x + 4) 4 ↔ x = 0x7FFFFFFC := by
  have hx := x.isLt
  have hadd : (x + 4).toNat = (x.toNat + 4) % 4294967296 := by simp [BitVec.toNat_add]
  have heq : x = 0x7FFFFFFC ↔ x.toNat = 2147483644 := by
    rw [← BitVec.toNat_inj]
    rfl
  have hfour : getBit (4 : Word) 31 = 0 := by decide
  have hsub : x + 4 - 4 = x := BitVec.add_sub_cancel x 4
  rw [subtractionOverflow, heq, hsub, hfour, getBit_sign, getBit_sign, hadd]
  split <;> split <;> omega

/-- The return restores a CPSR whose flags are those of the subtraction. -/
theorem returnedCpsr_eq_iff {x : Word} (cpsr : Word) (h : x.toNat % 4 = 0) :
    returnedCpsr (x + 4) cpsr = cpsr ↔
      getBit cpsr Flag.N = getBit x 31 ∧ getBit cpsr Flag.Z = (if x = 0 then 1 else 0) ∧
        getBit cpsr Flag.C = getBit x 31 ∧
        getBit cpsr Flag.V = (if x = 0x7FFFFFFC then 1 else 0) := by
  have hv : (⟨(x + 4 - 4).setWidth 64, true, 1, 2⟩ : Operation).RdValue =
      (x + 4 - 4).setWidth 64 := rfl
  have hbit := getBit_updateFlags_sub hv rfl (Or.inl rfl) 0 cpsr
  have hsub : x + 4 - 4 = x := BitVec.add_sub_cancel x 4
  simp only [hsub, returnOverflow_iff h] at hbit
  unfold returnedCpsr
  rw [eq_iff_getBit]
  simp only [hsub, hbit]
  constructor
  · intro hall
    exact ⟨(hall Flag.N).symm, (hall Flag.Z).symm, (hall Flag.C).symm, (hall Flag.V).symm⟩
  · rintro ⟨hn, hz, hc, hv⟩ j
    split_ifs <;> simp_all

section interrupt
variable [Platform]

/-- A state in which an interrupt may be taken, between two instructions. -/
structure Interruptible (p : ArmCore) : Prop where
  enabled : getBit p.cpsr 7 = 0
  arm : getBit p.cpsr 5 = 0
  mode : getBits p.cpsr 4 0 ∈ [Mode.USR, Mode.SYS, Mode.SVC, Mode.ABT, Mode.UND]
  aligned : p.pc.toNat % 4 = 0

theorem Interruptible.bank_lt {p : ArmCore} (h : Interruptible p) : p.bank < 5 := by
  have hmode : registersGetMode p.reg = getBits p.cpsr 4 0 := by
    have harm := h.arm
    unfold registersGetMode
    change getBits p.cpsr 5 0 = _
    simp only [getBits_eq, getBit_eq_div] at *
    omega
  have hbank : ∀ mode ∈ [Mode.USR, Mode.SYS, Mode.SVC, Mode.ABT, Mode.UND],
      getReadWriteMode mode < 5 := by decide
  change getReadWriteMode (registersGetMode p.reg) < 5
  rw [hmode]
  exact hbank _ h.mode

/-- The state after the entry: the vector, the banked r13, r14 and SPSR, the CPSR. -/
def interruptEntry (p : ArmCore) : ArmCore :=
  ((((armWriteCpsr p (irqCpsr p.cpsr)).setCell (bankCell SPSR 5) p.cpsr).setCell
    (bankCell PC 0) (BitVec.ofNat 32 (IRQ_vector_ADR - 4))).setCell
    (bankCell LR 5) ((p.pc + 4) &&& 0xFFFFFFFD)).setCell
    (bankCell SP 5) (p.gp SP)

theorem armWriteRegister_irq {q : ArmCore} (hq : q.bank = 5) {reg : ℕ} (hr : reg < 16)
    (v : Word) : armWriteRegister q reg v = .ok (q.setCell (bankCell reg 5) v) := by
  rw [armWriteRegister_eq hr (by omega), ArmCore.setGp, hq]

/-- The entry from any mode but the fast interrupt's, the interrupt mode included. -/
theorem armException_interrupt (env : Env) {p : ArmCore} (hb : p.bank < 6)
    (henabled : getBit p.cpsr 7 = 0) :
    armException env p Exc.INTERRUPT = .ok (4, interruptEntry p) := by
  have hsp : armReadRegister p SP = .ok (p.gp SP) := armReadRegister_eq (by decide) hb
  have hi : getBit (armReadCpsr p) 7 = 0 := henabled
  -- The CPSR is written first, so the other writes go to the interrupt mode's bank.
  obtain ⟨p1, hp1⟩ : ∃ p1, p1 = armWriteCpsr p (irqCpsr p.cpsr) := ⟨_, rfl⟩
  have hb1 : p1.bank = 5 := by
    change getReadWriteMode (getBits p1.cpsr 5 0) = 5
    rw [hp1, armWriteCpsr_cpsr, irqCpsr_mode]
    rfl
  have hb2 : (p1.setCell (bankCell SPSR 5) p.cpsr).bank = 5 := by
    rw [setCell_bank _ _ (by decide), hb1]
  have hb3 (v : Word) :
      ((p1.setCell (bankCell SPSR 5) p.cpsr).setCell (bankCell PC 0) v).bank = 5 := by
    rw [setCell_bank _ _ (by decide), hb2]
  have hb4 (v w : Word) : (((p1.setCell (bankCell SPSR 5) p.cpsr).setCell (bankCell PC 0)
      v).setCell (bankCell LR 5) w).bank = 5 := by
    rw [setCell_bank _ _ (by decide), hb3]
  have hspsr : armWriteSpsr p1 p.cpsr = .ok (p1.setCell (bankCell SPSR 5) p.cpsr) := by
    rw [armWriteSpsr_eq (by omega), hb1]
  unfold armException
  dsimp only
  -- Symbolic execution of the entry, one write after the other.
  rw [if_neg (by decide), if_pos rfl, if_pos hi, hsp, armReadRegister_pc, ok_bind, ok_bind]
  change (armWriteSpsr (armWriteCpsr p (irqCpsr p.cpsr)) p.cpsr >>= _) = _
  rw [← hp1, hspsr, ok_bind, armWriteRegister_pc, ok_bind,
    armWriteRegister_irq (hb3 _) (by decide), ok_bind, armWriteRegister_irq (hb4 _ _) (by decide)]
  unfold interruptEntry
  rw [← hp1]
  rfl

/-- The entry leaves the interrupted mode's r0-r14, and banks its pc and CPSR. -/
theorem interruptEntry_cell {p : ArmCore} (h : Interruptible p) {reg : ℕ} (hr : reg < 15) :
    (interruptEntry p).reg (bankCell reg p.bank) = p.reg (bankCell reg p.bank) := by
  obtain ⟨hcpsr, hspsr, hpc, hlr, hsp⟩ := interrupted_cell_ne hr h.bank_lt
  unfold interruptEntry
  rw [setCell_cell _ _ hsp, setCell_cell _ _ hlr, setCell_cell _ _ hpc, setCell_cell _ _ hspsr,
    armWriteCpsr_cell _ _ hcpsr]

theorem interruptEntry_lr {p : ArmCore} (haligned : p.pc.toNat % 4 = 0) :
    (interruptEntry p).reg.get (bankCell LR 5) = p.pc + 4 := by
  unfold interruptEntry
  rw [and_mask_aligned (aligned_add_four haligned)]
  exact (Registers.get_set_of_ne _ _ (by decide)).trans (Registers.get_set_self _ _ _)

theorem interruptEntry_spsr (p : ArmCore) :
    (interruptEntry p).reg.get (bankCell SPSR 5) = p.cpsr := by
  unfold interruptEntry
  refine (Registers.get_set_of_ne _ _ (by decide)).trans ?_
  refine (Registers.get_set_of_ne _ _ (by decide)).trans ?_
  exact (Registers.get_set_of_ne _ _ (by decide)).trans (Registers.get_set_self _ _ _)

/-- `SUBS PC, Rn, operand` in a mode with an SPSR. -/
theorem applyOperator_subs {p : ArmCore} {ins a : Word} (b cpsr : Word) (sc : ℕ)
    (ho : getBits ins 24 21 = Op.SUB) (hd : getBits ins 15 12 = 15)
    (ha : armReadRegister p (getBits ins 19 16) = .ok a) (hb : 2 ≤ p.bank) :
    applyOperator p ins b sc 1 cpsr = .ok (0, armWriteCpsr (p.setCell (bankCell PC 0) (a - b))
      (updateFlags ⟨(a - b).setWidth 64, true, 1, 2⟩ Op.SUB a b sc
        (p.reg.get (bankCell SPSR p.bank)))) := by
  have hspsr : armCurrentModeHasSpsr p = true := (registersCurrentModeHasSpsr_iff p.reg).mpr hb
  have hwrite := armWriteRegister_pc p (a - b)
  have hwidth : ((a - b).setWidth 64).setWidth 32 = a - b := by
    rw [BitVec.setWidth_setWidth_of_le _ (by decide), BitVec.setWidth_eq]
  unfold applyOperator
  simp only [ho, hd, ha, selectOperator, ok_bind, pure_eq_ok, ne_eq, Nat.one_ne_zero,
    not_false_eq_true, hspsr, and_self, ↓reduceIte, armReadSpsr_eq hb, hwidth, hwrite]

/-- The return executed in the interrupt mode. -/
theorem armStep_irqReturn (env : Env) {q : ArmCore} {inst : Word}
    (hm : registersGetMode q.reg = Mode.IRQ) (hf : Fetches q inst) (h : IsIrqReturn inst) :
    armStep env q = .ok (0, armWriteCpsr
      (q.advance.setCell (bankCell PC 0) (q.reg.get (bankCell LR 5) - 4))
      (returnedCpsr (q.reg.get (bankCell LR 5)) (q.reg.get (bankCell SPSR 5)))) := by
  have hb : q.advance.bank = 5 := by
    rw [advance_bank]
    change getReadWriteMode (registersGetMode q.reg) = 5
    rw [hm]
    rfl
  obtain ⟨hcode, hS, hop⟩ := h.fields
  have hlr : armReadRegister q.advance (getBits inst 19 16) =
      .ok (q.reg.get (bankCell LR 5)) := by
    rw [h.rn, armReadRegister_eq (by decide) (by omega), ArmCore.operand, if_neg (by decide),
      ArmCore.gp, hb]
    exact congrArg Except.ok (Registers.get_set_of_ne _ _ (by decide))
  have hspsr : q.advance.reg.get (bankCell SPSR q.advance.bank) =
      q.reg.get (bankCell SPSR 5) := by
    rw [hb]
    exact Registers.get_set_of_ne _ _ (by decide)
  have hc : flagCond (getBits inst 31 28) q.cpsr = true := by
    rw [h.cond]
    simp [flagCond]
  rw [armStep_run hf env hc]
  unfold runBody
  rw [decode_immediate env _ _ hcode (by omega)]
  unfold armDataProcessingImmediate
  dsimp only
  rw [hS, h.four, applyOperator_subs _ _ _ hop h.rd hlr (by omega), hspsr]
  rfl

/-- A state in the handler at which the interrupt mode returns: the banked link and
SPSR are as the entry `p₁` left them, and so are the interrupted mode's registers. -/
structure ReadyToReturn (p p₁ q : ArmCore) (inst : Word) : Prop where
  mode : registersGetMode q.reg = Mode.IRQ
  lr : q.reg (bankCell LR 5) = p₁.reg (bankCell LR 5)
  spsr : q.reg (bankCell SPSR 5) = p₁.reg (bankCell SPSR 5)
  kept : ∀ reg < 15, q.reg (bankCell reg p.bank) = p₁.reg (bankCell reg p.bank)
  fetches : Fetches q inst
  returns : IsIrqReturn inst

/-- The step from `q` resumes the program that was interrupted in `p`. -/
def Resumes (env : Env) (p q : ArmCore) : Prop :=
  ∃ q', armStep env q = .ok (0, q') ∧ q'.pc = p.pc ∧ q'.cpsr = p.cpsr ∧
    ∀ reg < 15, q'.reg (bankCell reg p.bank) = p.reg (bankCell reg p.bank)

/-- The flags of the interrupted program are those of its pc as a subtraction's result. -/
structure FlagsSurvive (p : ArmCore) : Prop where
  n : getBit p.cpsr Flag.N = getBit p.pc 31
  z : getBit p.cpsr Flag.Z = if p.pc = 0 then 1 else 0
  c : getBit p.cpsr Flag.C = getBit p.pc 31
  v : getBit p.cpsr Flag.V = if p.pc = 0x7FFFFFFC then 1 else 0

/-- Everything but the CPSR is restored by the return, whatever the flags. -/
theorem return_step (env : Env) {p q : ArmCore} {inst : Word} (hp : Interruptible p)
    (hq : ReadyToReturn p (interruptEntry p) q inst) :
    ∃ q', armStep env q = .ok (0, q') ∧ q'.pc = p.pc ∧
      q'.cpsr = returnedCpsr (p.pc + 4) p.cpsr ∧
      ∀ reg < 15, q'.reg (bankCell reg p.bank) = p.reg (bankCell reg p.bank) := by
  have hlr : q.reg.get (bankCell LR 5) = p.pc + 4 := calc
    _ = (interruptEntry p).reg.get (bankCell LR 5) := Registers.get_congr hq.lr
    _ = p.pc + 4 := interruptEntry_lr hp.aligned
  have hspsr : q.reg.get (bankCell SPSR 5) = p.cpsr := calc
    _ = (interruptEntry p).reg.get (bankCell SPSR 5) := Registers.get_congr hq.spsr
    _ = p.cpsr := interruptEntry_spsr p
  have hstep := armStep_irqReturn env hq.mode hq.fetches hq.returns
  rw [hlr, hspsr, BitVec.add_sub_cancel] at hstep
  refine ⟨_, hstep, ?_, armWriteCpsr_cpsr _ _, ?_⟩
  · have hcell : (armWriteCpsr (q.advance.setCell (bankCell PC 0) p.pc)
        (returnedCpsr (p.pc + 4) p.cpsr)).reg (bankCell PC 0) =
        (q.advance.setCell (bankCell PC 0) p.pc).reg (bankCell PC 0) :=
      armWriteCpsr_cell _ _ (by decide)
    exact (Registers.get_congr hcell).trans (Registers.get_set_self _ _ _)
  · intro reg hr
    obtain ⟨hcpsr, -, hpc, -, -⟩ := interrupted_cell_ne hr hp.bank_lt
    rw [armWriteCpsr_cell _ _ hcpsr, setCell_cell _ _ hpc, advance_cell _ hpc, hq.kept reg hr,
      interruptEntry_cell hp hr]

/-- An interrupt is transparent exactly when the flags happen to survive its return. -/
theorem interrupt_transparent_iff (env : Env) (p : ArmCore) (hp : Interruptible p) :
    ∃ p₁, armException env p Exc.INTERRUPT = .ok (4, p₁) ∧
      ∀ env' q inst, ReadyToReturn p p₁ q inst → (Resumes env' p q ↔ FlagsSurvive p) := by
  refine ⟨_, armException_interrupt env (Nat.lt_succ_of_lt hp.bank_lt) hp.enabled, ?_⟩
  intro env' q inst hq
  obtain ⟨q', hstep, hpc, hcpsr, hkept⟩ := return_step env' hp hq
  have hflags := returnedCpsr_eq_iff p.cpsr hp.aligned
  constructor
  · -- The step is a function, so the state it resumes in is the one computed.
    rintro ⟨q₂, hstep₂, -, hcpsr₂, -⟩
    rw [hstep] at hstep₂
    cases hstep₂
    obtain ⟨hn, hz, hc, hv⟩ := hflags.mp (hcpsr.symm.trans hcpsr₂)
    exact ⟨hn, hz, hc, hv⟩
  · rintro ⟨hn, hz, hc, hv⟩
    exact ⟨q', hstep, hpc, hcpsr.trans (hflags.mpr ⟨hn, hz, hc, hv⟩), hkept⟩

end interrupt

-- `SUBS PC, R14, #4` at the address the entry leaves in the pc.
abbrev irqReturnProgram : List Byte :=
  List.replicate 20 0 ++ [0xE2, 0x5E, 0xF0, 0x04]

/-- A user program interrupted at address 0 with C set and Z clear: the return sets Z
and clears C. -/
theorem interrupt_transparent_carry :
    @Interruptible makefile (ArmCore.boot 0x20000010 irqReturnProgram) ∧
      @armException makefile ⟨0, 0, 0, 0⟩ (ArmCore.boot 0x20000010 irqReturnProgram)
        Exc.INTERRUPT =
          .ok (4, @interruptEntry makefile (ArmCore.boot 0x20000010 irqReturnProgram)) ∧
      @ReadyToReturn makefile (ArmCore.boot 0x20000010 irqReturnProgram)
        (@interruptEntry makefile (ArmCore.boot 0x20000010 irqReturnProgram))
        (@interruptEntry makefile (ArmCore.boot 0x20000010 irqReturnProgram)) 0xE25EF004 ∧
      ¬@Resumes makefile ⟨0, 0, 0, 0⟩ (ArmCore.boot 0x20000010 irqReturnProgram)
        (@interruptEntry makefile (ArmCore.boot 0x20000010 irqReturnProgram)) := by
  have hp : @Interruptible makefile (ArmCore.boot 0x20000010 irqReturnProgram) :=
    @Interruptible.mk makefile _ (by decide) (by decide) (by decide) (by decide)
  refine ⟨hp, @armException_interrupt makefile _ _ (by decide) (by decide), ?_, ?_⟩
  · exact @ReadyToReturn.mk makefile _ _ _ _ (by decide) rfl rfl (fun _ _ => rfl) (by decide)
      ⟨by decide, by decide, by decide, by decide, by decide⟩
  · rintro ⟨q', hstep, -, hcpsr, -⟩
    -- The step runs to the CPSR with Z set and C clear.
    have hreturned : (@armStep makefile ⟨0, 0, 0, 0⟩ (@interruptEntry makefile
        (ArmCore.boot 0x20000010 irqReturnProgram))).map (fun r => r.2.cpsr) =
        .ok 0x40000010 := by decide
    rw [hstep] at hreturned
    have he : q'.cpsr = 0x40000010 := Except.ok.inj hreturned
    exact absurd (hcpsr.symm.trans he) (by decide)

/-- The same program with Z set and C clear is resumed by the return. -/
theorem interrupt_transparent_zero :
    @armException makefile ⟨0, 0, 0, 0⟩ (ArmCore.boot 0x40000010 irqReturnProgram) Exc.INTERRUPT =
        .ok (4, @interruptEntry makefile (ArmCore.boot 0x40000010 irqReturnProgram)) ∧
      @Resumes makefile ⟨0, 0, 0, 0⟩ (ArmCore.boot 0x40000010 irqReturnProgram)
        (@interruptEntry makefile (ArmCore.boot 0x40000010 irqReturnProgram)) := by
  obtain ⟨p₁, hentry, hresumes⟩ := @interrupt_transparent_iff makefile ⟨0, 0, 0, 0⟩
    (ArmCore.boot 0x40000010 irqReturnProgram)
    (@Interruptible.mk makefile _ (by decide) (by decide) (by decide) (by decide))
  have htaken := @armException_interrupt makefile ⟨0, 0, 0, 0⟩
    (ArmCore.boot 0x40000010 irqReturnProgram) (by decide) (by decide)
  obtain rfl := ok_unique_snd htaken hentry
  have hready : @ReadyToReturn makefile (ArmCore.boot 0x40000010 irqReturnProgram)
      (@interruptEntry makefile (ArmCore.boot 0x40000010 irqReturnProgram))
      (@interruptEntry makefile (ArmCore.boot 0x40000010 irqReturnProgram)) 0xE25EF004 :=
    @ReadyToReturn.mk makefile _ _ _ _ (by decide) rfl rfl (fun _ _ => rfl) (by decide)
      ⟨by decide, by decide, by decide, by decide, by decide⟩
  have hflags : @FlagsSurvive makefile (ArmCore.boot 0x40000010 irqReturnProgram) :=
    @FlagsSurvive.mk makefile _ (by decide) (by decide) (by decide) (by decide)
  exact ⟨htaken, (hresumes _ _ _ hready).mpr hflags⟩

end ArmSim
