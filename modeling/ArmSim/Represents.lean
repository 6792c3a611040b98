import ArmSim.Supported

/-! When a state of the simulator stands for a machine of the architecture, and what keeps it
so: each change that an instruction makes to the one and to the other. -/
namespace ArmSim
open Lib
namespace Arch

section
variable [Platform]

/-- The state `p` shows the registers of `A`, the flags in `K`, its memory and its output, and
agrees with the state `start` in all that a program of one mode does not see. -/
structure Represents (start : ArmCore) (K : Known) (A : Machine) (p : ArmCore) : Prop where
  cells : start.bank < 6
  reg : ∀ r : Reg, p.gp r = A.reg r
  flag : ∀ f, K f = true → p.cpsr.getLsbD f.position = A.flags f
  mem : p.mem = A.mem
  output : p.output = A.output
  status : p.cpsr.toNat % 2^28 = start.cpsr.toNat % 2^28
  hidden : ∀ c, c ≠ cpsrCell → (∀ r : Reg, c ≠ bankCell r start.bank) → p.reg c = start.reg c

theorem gp_pc {p : ArmCore} (h : p.bank < 6) : p.gp 15 = p.pc := by
  unfold ArmCore.gp ArmCore.pc
  rw [bankCell_shared (by decide) (by decide) (by decide) h (show 0 < 6 by decide)]

variable {start p : ArmCore} {K : Known} {A B : Machine}

theorem Represents.bank (h : Represents start K A p) : p.bank = start.bank := by
  -- The mode field lies below the flags.
  refine Registers.bank_congr ?_
  have hlow := h.status
  unfold ArmCore.cpsr at hlow
  omega

theorem Represents.bank_lt (h : Represents start K A p) : p.bank < 6 := by
  rw [h.bank]
  exact h.cells

theorem Represents.pc (h : Represents start K A p) : p.pc = A.reg 15 := by
  rw [← gp_pc h.bank_lt]
  exact h.reg 15

theorem Represents.aligned (h : Represents start K A p) : p.pc.toNat % 4 = 0 := by
  rw [h.pc]
  exact A.aligned

/-- Fewer flags are asked for. -/
theorem Represents.forget (h : Represents start K A p) {K' : Known}
    (hK : ∀ f, K' f = true → K f = true) : Represents start K' A p :=
  { h with flag := fun f hf => h.flag f (hK f hf) }

theorem Represents.store (h : Represents start K A p) (mem : Memory) :
    Represents start K (A.store mem) { p with mem := mem } :=
  { h with mem := rfl }

theorem Represents.print (h : Represents start K A p) (x : Printed) :
    Represents start K (A.print x) (p.print x) :=
  { h with output := congrArg (x :: ·) h.output }

/-- Any cell that a program sees may change with its register. -/
theorem Represents.setCell (h : Represents start K A p) {r : Reg} {v : Word}
    (hB : ∀ i, B.reg i = Function.update A.reg r v i) (hflags : B.flags = A.flags)
    (hmem : B.mem = A.mem) (houtput : B.output = A.output) :
    Represents start K B (p.setGp r v) where
  cells := h.cells
  reg := by
    intro i
    rw [hB]
    by_cases hi : i = r
    · subst hi
      rw [Function.update_self, gp_setGp_self p i.isLt h.bank_lt]
    · have hne : i.val ≠ r.val := fun he => hi (Fin.ext he)
      rw [Function.update_of_ne hi, gp_setGp_of_ne p r.isLt i.isLt h.bank_lt hne]
      exact h.reg i
  flag := by
    intro f hf
    have hcell : cpsrCell ≠ bankCell r p.bank := (bankCell_ne_cpsr r.isLt h.bank_lt).symm
    rw [hflags, ArmCore.setGp, setCell_cpsr p v hcell]
    exact h.flag f hf
  mem := h.mem.trans hmem.symm
  output := h.output.trans houtput.symm
  status := by
    have hcell : cpsrCell ≠ bankCell r p.bank := (bankCell_ne_cpsr r.isLt h.bank_lt).symm
    rw [ArmCore.setGp, setCell_cpsr p v hcell]
    exact h.status
  hidden := by
    intro c hc hvisible
    have hne : c ≠ bankCell r p.bank := by
      rw [h.bank]
      exact hvisible r
    exact (setCell_cell p v hne).trans (h.hidden c hc hvisible)

theorem Represents.write (h : Represents start K A p) {r : Reg} {v : Word}
    (hw : A.write r v = some B) : Represents start K B (p.setGp r v) := by
  unfold Machine.write at hw
  split at hw
  · cases hw
    exact h.setCell (fun _ => rfl) rfl rfl rfl
  · cases hw

/-- The fetch moves r15 in both. -/
theorem Represents.next (h : Represents start K A p) : Represents start K A.next p.advance := by
  have hmoved : p.advance = { p.setGp 15 (p.pc + 4) with cycleCount := p.cycleCount + 1 } := by
    unfold ArmCore.advance ArmCore.setGp ArmCore.setCell
    rw [bankCell_shared (show 15 < 16 by decide) (by decide) (by decide) h.bank_lt
      (show 0 < 6 by decide)]
  have hset : Represents start K A.next (p.setGp 15 (p.pc + 4)) := by
    rw [h.pc]
    exact h.setCell (r := 15) (fun _ => rfl) rfl rfl rfl
  rw [hmoved]
  exact { hset with }

/-- The CPSR written with new flags, of which those in `K'` are right. -/
theorem Represents.setFlags (h : Represents start K A p) {K' : Known} {flags : Flags} {w : Word}
    (hflags : ∀ f, K' f = true → w.getLsbD f.position = flags f)
    (hlow : w.toNat % 2^28 = p.cpsr.toNat % 2^28) :
    Represents start K' (A.setFlags flags) (armWriteCpsr p w) := by
  have hbank : (armWriteCpsr p w).bank = p.bank := by
    refine Registers.bank_congr ?_
    change (armWriteCpsr p w).cpsr.toNat % 2^6 = p.cpsr.toNat % 2^6
    rw [armWriteCpsr_cpsr]
    omega
  have hcell (c : Cell) (hc : c ≠ cpsrCell) : (armWriteCpsr p w).reg c = p.reg c :=
    armWriteCpsr_cell p w hc
  refine { h with reg := ?_, flag := ?_, status := ?_, hidden := ?_ }
  · intro r
    have hne := bankCell_ne_cpsr r.isLt h.bank_lt
    calc (armWriteCpsr p w).gp r
        = (armWriteCpsr p w).reg.get (bankCell r p.bank) := by rw [ArmCore.gp, hbank]
      _ = p.gp r := Registers.get_congr (hcell _ hne)
      _ = A.reg r := h.reg r
  · intro f hf
    rw [armWriteCpsr_cpsr]
    exact hflags f hf
  · rw [armWriteCpsr_cpsr, hlow]
    exact h.status
  · intro c hc hvisible
    exact (hcell c hc).trans (h.hidden c hc hvisible)

/-- What an instruction reads after the fetch is what the manual says it reads. -/
theorem Represents.operand (h : Represents start K A p) (r : Reg) :
    p.advance.operand r = A.value r := by
  have hnext := h.next
  unfold Machine.value
  by_cases hr : r = 15
  · subst hr
    have hpc : p.advance.pc = A.reg 15 + 4 := hnext.pc
    have halign : (A.reg 15 + 4 + 4).toNat % 4 = 0 := aligned_add_four (aligned_add_four A.aligned)
    calc p.advance.operand 15
        = (p.advance.gp 15 + 4) &&& 0xFFFFFFFD := rfl
      _ = (A.reg 15 + 4 + 4) &&& 0xFFFFFFFD := by rw [gp_pc hnext.bank_lt, hpc]
      _ = A.reg 15 + 4 + 4 := and_mask_aligned halign
      _ = A.reg 15 + 8 := by rw [BitVec.add_assoc]; rfl
  · have hval : r.val ≠ 15 := fun he => hr (Fin.ext he)
    rw [operand_of_ne hval, hnext.reg r, if_neg hr]
    exact Function.update_of_ne hr _ _

end

end Arch
end ArmSim
