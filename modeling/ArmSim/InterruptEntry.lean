import ArmSim.Interrupt

/-! Interrupt entry against the vector table of the linker script: what the entry saves and
sets, and the address at which the next instruction is fetched. -/
namespace ArmSim
open Lib

/-- The mode is set, the T bit cleared, the mask bit set, and the rest of the CPSR kept. -/
theorem getBit_irqCpsr (cpsr : Word) {i : ℕ} (hi : i < 32) :
    getBit (irqCpsr cpsr) i =
      if i < 5 then getBit (0x12 : Word) i else if i = 5 then 0
      else if i = 7 then 1 else getBit cpsr i := by
  have hmode : ∀ i < 32, 5 ≤ i → (BitVec.ofNat 32 Mode.IRQ).getLsbD i = false := by decide
  unfold irqCpsr
  rw [getBit_eq, getLsbD_setBit, getLsbD_clrBit, getLsbD_setBits _ _ _ _ _ hi, getBit_eq, getBit_eq]
  by_cases hlow : i < 5
  · -- A bit of the mode field.
    have h4 : ¬4 < i := by omega
    have h5 : i ≠ 5 := by omega
    have h7 : i ≠ 7 := by omega
    simp [hlow, h4, h5, h7]
  · have h4 : 4 < i := by omega
    rw [Nat.sub_zero, hmode i hi (by omega)]
    by_cases h5 : i = 5
    · simp [h5]
    · by_cases h7 : i = 7 <;> simp [hlow, h4, h5, h7]

theorem irqCpsr_field (cpsr : Word) : getBits (irqCpsr cpsr) 4 0 = Mode.IRQ := by
  have hsix : getBits (irqCpsr cpsr) 5 0 = 0x12 := irqCpsr_mode cpsr
  change getBits (irqCpsr cpsr) 4 0 = 0x12
  simp only [getBits_eq] at *
  omega

section entry
variable [Platform]

/-- A state in which the entry is taken: ARM code with the interrupt enabled, in any mode but
the fast interrupt's, at an aligned pc. -/
structure EntryState (p : ArmCore) : Prop where
  arm : getBit p.cpsr 5 = 0
  mode : p.bank < 6
  aligned : p.pc.toNat % 4 = 0

/-- What an entry with the vector `vector` does to the machine. -/
structure EntryEffect (vector : Word) (p q : ArmCore) : Prop where
  vector : q.pc = vector
  mode : getBits q.cpsr 4 0 = Mode.IRQ
  arm : getBit q.cpsr 5 = 0
  masked : getBit q.cpsr 7 = 1
  kept : ∀ i, 5 < i → i < 32 → i ≠ 7 → getBit q.cpsr i = getBit p.cpsr i
  spsr : q.reg.get (bankCell SPSR 5) = p.cpsr
  lr : q.reg.get (bankCell LR 5) = p.pc + 4
  sp : q.reg.get (bankCell SP 5) = p.gp SP
  cells : ∀ c, c ≠ cpsrCell → c ≠ bankCell PC 0 → c ≠ bankCell SPSR 5 → c ≠ bankCell LR 5 →
    c ≠ bankCell SP 5 → q.reg c = p.reg c
  memory : q.mem = p.mem

/-- The interrupt as it should be: the entry goes to the vector, and a masked interrupt
changes nothing. -/
def EntersRight (env : Env) (p : ArmCore) : Prop :=
  ∃ c q, armException env p Exc.INTERRUPT = .ok (c, q) ∧
    (getBit p.cpsr 7 = 0 → EntryEffect (BitVec.ofNat 32 IRQ_vector_ADR) p q) ∧
    (getBit p.cpsr 7 = 1 → q = p)

theorem interruptEntry_effect {p : ArmCore} (haligned : p.pc.toNat % 4 = 0) :
    EntryEffect (BitVec.ofNat 32 (IRQ_vector_ADR - 4)) p (interruptEntry p) := by
  have hcpsr : (interruptEntry p).cpsr = irqCpsr p.cpsr := by
    unfold interruptEntry
    rw [setCell_cpsr _ _ (by decide), setCell_cpsr _ _ (by decide), setCell_cpsr _ _ (by decide),
      setCell_cpsr _ _ (by decide), armWriteCpsr_cpsr]
  constructor
  · -- The link and the stack pointer are written after the pc, to other cells.
    refine (Registers.get_set_of_ne _ _ (by decide)).trans ?_
    exact (Registers.get_set_of_ne _ _ (by decide)).trans (Registers.get_set_self _ _ _)
  · rw [hcpsr, irqCpsr_field]
  · rw [hcpsr, getBit_irqCpsr _ (by decide)]
    rfl
  · rw [hcpsr, getBit_irqCpsr _ (by decide)]
    rfl
  · intro i hi hlt h7
    rw [hcpsr, getBit_irqCpsr _ hlt, if_neg (by omega), if_neg (by omega), if_neg h7]
  · exact interruptEntry_spsr p
  · exact interruptEntry_lr haligned
  · exact Registers.get_set_self _ _ _
  · -- Five writes, four to the cells named and one to the CPSR.
    intro c hc hpc hspsr hlr hsp
    unfold interruptEntry
    rw [setCell_cell _ _ hsp, setCell_cell _ _ hlr, setCell_cell _ _ hpc, setCell_cell _ _ hspsr,
      armWriteCpsr_cell _ _ hc]
  · rfl

/-- A masked interrupt leaves the machine as it is. -/
theorem armException_masked (env : Env) {p : ArmCore} (h : getBit p.cpsr 7 = 1) :
    armException env p Exc.INTERRUPT = .ok (1, p) := by
  have hne : getBit (armReadCpsr p) 7 ≠ 0 := by
    change getBit p.cpsr 7 ≠ 0
    omega
  unfold armException
  dsimp only
  rw [if_neg (by decide), if_pos rfl, if_neg hne]
  rfl

/-- The pc that the entry writes is four less than the vector, and the fetch does not add
to it. -/
theorem not_entersRight (env : Env) {p : ArmCore} (h0 : getBit p.cpsr 7 = 0) (h : EntryState p) :
    ¬EntersRight env p := by
  rintro ⟨c, q, hq, hentry, -⟩
  rw [armException_interrupt env h.mode h0] at hq
  cases hq
  -- The next fetch would have to read at two addresses.
  have htwo : BitVec.ofNat 32 (IRQ_vector_ADR - 4) = BitVec.ofNat 32 IRQ_vector_ADR := calc
    _ = (interruptEntry p).pc := (interruptEntry_effect h.aligned).vector.symm
    _ = BitVec.ofNat 32 IRQ_vector_ADR := (hentry h0).vector
  exact absurd htwo (by decide)

/-- The interrupt is right exactly where it is masked. -/
theorem interrupt_entry_iff (env : Env) (p : ArmCore) (h : getBit p.cpsr 7 = 0 → EntryState p) :
    EntersRight env p ↔ getBit p.cpsr 7 = 1 := by
  constructor
  · intro henters
    by_contra hne
    have h0 : getBit p.cpsr 7 = 0 := (getBit_zero_or_one _ _).resolve_right hne
    exact not_entersRight env h0 (h h0) henters
  · intro h1
    refine ⟨1, p, armException_masked env h1, ?_, fun _ => rfl⟩
    intro h0
    omega

end entry

/-- Supervisor mode, with the interrupt masked and not. -/
theorem interrupt_entry_supervisor :
    @EntersRight makefile ⟨0, 0, 0, 0⟩ (ArmCore.boot 0x93 []) ∧
      ¬@EntersRight makefile ⟨0, 0, 0, 0⟩ (ArmCore.boot 0x13 []) := by
  constructor
  · apply (@interrupt_entry_iff makefile _ (ArmCore.boot 0x93 []) ?_).mpr (by decide)
    exact fun h0 => absurd h0 (by decide)
  · intro henters
    have hstate : @EntryState makefile (ArmCore.boot 0x13 []) :=
      @EntryState.mk makefile _ (by decide) (by decide) (by decide)
    have hmasked := (@interrupt_entry_iff makefile _ _ (fun _ => hstate)).mp henters
    exact absurd hmasked (by decide)

/-- An interrupt of a user program leaves 0x14 in the pc. -/
theorem interrupt_entry_user :
    getBit (ArmCore.boot 0x10 []).cpsr 7 = 0 ∧ @EntryState makefile (ArmCore.boot 0x10 []) ∧
      (@armException makefile ⟨0, 0, 0, 0⟩ (ArmCore.boot 0x10 []) Exc.INTERRUPT).map
        (fun r => @ArmCore.pc makefile r.2) = .ok 0x14 ∧
      ¬@EntersRight makefile ⟨0, 0, 0, 0⟩ (ArmCore.boot 0x10 []) := by
  have hstate : @EntryState makefile (ArmCore.boot 0x10 []) :=
    @EntryState.mk makefile _ (by decide) (by decide) (by decide)
  exact ⟨by decide, hstate, by decide, @not_entersRight makefile _ _ (by decide) hstate⟩

end ArmSim
