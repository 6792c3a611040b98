import ArmSim.Carry
import Mathlib.Tactic.IntervalCases

/-! The results of the sixteen operators, and what `apply_operator` changes besides. -/
namespace ArmSim
open Lib

/-- The comparisons write no register and always set the flags. -/
def isCompare (opcode : ℕ) : Prop :=
  opcode = Op.TST ∨ opcode = Op.TEQ ∨ opcode = Op.CMP ∨ opcode = Op.CMN

instance (opcode : ℕ) : Decidable (isCompare opcode) := inferInstanceAs (Decidable (_ ∨ _))

/-- The operators whose C flag is the carry of the shifter. -/
def isLogical (opcode : ℕ) : Prop :=
  opcode = Op.AND ∨ opcode = Op.EOR ∨ opcode = Op.TST ∨ opcode = Op.TEQ ∨ opcode = Op.ORR ∨
    opcode = Op.MOV ∨ opcode = Op.BIC ∨ opcode = Op.MVN

instance (opcode : ℕ) : Decidable (isLogical opcode) := inferInstanceAs (Decidable (_ ∨ _))

/-- The result of an operator on `a`, `b` and the carry `c`: the exact value modulo 2^32 for the
arithmetic operators, a bitwise one for the others. -/
def dataResult (opcode : ℕ) (a b : Word) (c : ℕ) : Word :=
  match opcode with
  | Op.AND | Op.TST => a &&& b
  | Op.EOR | Op.TEQ => a ^^^ b
  | Op.SUB | Op.CMP => BitVec.ofInt 32 (a.toNat - b.toNat)
  | Op.RSB => BitVec.ofInt 32 (b.toNat - a.toNat)
  | Op.ADD | Op.CMN => BitVec.ofInt 32 (a.toNat + b.toNat)
  | Op.ADC => BitVec.ofInt 32 (a.toNat + b.toNat + c)
  | Op.SBC => BitVec.ofInt 32 (a.toNat - b.toNat - (1 - c))
  | Op.RSC => BitVec.ofInt 32 (b.toNat - a.toNat - (1 - c))
  | Op.ORR => a ||| b
  | Op.MOV => b
  | Op.BIC => a &&& ~~~b
  | _ => ~~~b

theorem ofInt_toNat (x : Word) : BitVec.ofInt 32 x.toNat = x := by
  rw [BitVec.ofInt_natCast, BitVec.ofNat_toNat, BitVec.setWidth_eq]

theorem ofInt_sub (v v' : ℤ) :
    BitVec.ofInt 32 (v - v') = BitVec.ofInt 32 v - BitVec.ofInt 32 v' := by
  rw [Int.sub_eq_add_neg, BitVec.ofInt_add, BitVec.ofInt_neg, BitVec.sub_eq_add_neg]

theorem notCarry_cast (cpsr : Word) : (notCarry cpsr : ℤ) = 1 - getBit cpsr Flag.C := by
  have hlt := getBit_lt_two cpsr Flag.C
  rw [notCarry_eq]
  omega

/-- What the operator switch selects for one of the sixteen opcodes. -/
structure Selected (opcode : ℕ) (a b cpsr : Word) (S : ℕ) (op : Operation) : Prop where
  value : op.RdValue.setWidth 32 = dataResult opcode a b (getBit cpsr Flag.C)
  writes : op.updateRd = true ↔ ¬isCompare opcode
  flags : op.S ≠ 0 ↔ S ≠ 0 ∨ isCompare opcode
  carry : isLogical opcode → op.ZNCVupdatecase = 1

theorem selectOperator_selected {opcode : ℕ} (ho : opcode < 16) (a b cpsr : Word) (S : ℕ) :
    ∃ op, selectOperator opcode a b cpsr S = some op ∧ Selected opcode a b cpsr S op := by
  have hwide (x : Word) : (x.setWidth 64).setWidth 32 = x := by
    rw [BitVec.setWidth_setWidth_of_le _ (by decide), BitVec.setWidth_eq]
  -- The subtractions and additions of the source, modulo 2^32.
  have hborrow : BitVec.ofInt 32 (1 - getBit cpsr Flag.C) = BitVec.ofNat 32 (notCarry cpsr) := by
    rw [← notCarry_cast, BitVec.ofInt_natCast]
  have harith (x y : Word) : BitVec.ofInt 32 (x.toNat + y.toNat) = x + y ∧
      BitVec.ofInt 32 (x.toNat - y.toNat) = x - y ∧
      BitVec.ofInt 32 (x.toNat + y.toNat + getBit cpsr Flag.C) =
        x + y + BitVec.ofNat 32 (getBit cpsr Flag.C) ∧
      BitVec.ofInt 32 (x.toNat - y.toNat - (1 - getBit cpsr Flag.C)) =
        x - y - BitVec.ofNat 32 (notCarry cpsr) := by
    refine ⟨?_, ?_, ?_, ?_⟩
    · rw [BitVec.ofInt_add, ofInt_toNat, ofInt_toNat]
    · rw [ofInt_sub, ofInt_toNat, ofInt_toNat]
    · rw [BitVec.ofInt_add, BitVec.ofInt_add, ofInt_toNat, ofInt_toNat, BitVec.ofInt_natCast]
    · rw [ofInt_sub, ofInt_sub, ofInt_toNat, ofInt_toNat, hborrow]
  -- One case for each opcode, and in it one goal for each field of the selection.
  interval_cases opcode
  all_goals
    refine ⟨_, rfl, ?_, ?_, ?_, ?_⟩
    · simp only [hwide, dataResult, (harith _ _).1, (harith _ _).2.1, (harith _ _).2.2.1,
        (harith _ _).2.2.2]
    · simp [isCompare]
    · simp [isCompare]
    · simp [isLogical]

section flags
variable (op : Operation) (opcode : ℕ) (a b : Word) (sc : ℕ) (base : Word)

/-- Outside C and V, the flag update is that of N and Z. -/
theorem getBit_updateFlags {j : ℕ} (hC : j ≠ Flag.C) (hV : j ≠ Flag.V) :
    getBit (updateFlags op opcode a b sc base) j =
      getBit (setZn (op.RdValue.setWidth 32) base) j := by
  unfold updateFlags
  dsimp only
  -- The additions, the logical operators, the subtractions, and no case at all.
  split
  · rw [getBit_overflowFrom_of_ne _ _ _ _ hV, getBit_carryFrom, if_neg hC]
  · rw [getBit_putBit _ _ (by decide), if_neg hC]
  · rw [getBit_overflowFrom_of_ne _ _ _ _ hV, getBit_borrowFrom, if_neg hC]
  · rfl

/-- The logical operators take C from the shifter and keep V. -/
theorem getBit_updateFlags_logical {op : Operation} (hcase : op.ZNCVupdatecase = 1) :
    getBit (updateFlags op opcode a b sc base) Flag.C = sc % 2 ∧
      getBit (updateFlags op opcode a b sc base) Flag.V = getBit base Flag.V := by
  have hcarry : getBit (BitVec.ofNat 8 sc) 0 = sc % 2 := by
    rw [getBit_eq_div, BitVec.toNat_ofNat]
    omega
  unfold updateFlags
  simp only [hcase]
  constructor
  · rw [getBit_putBit _ _ (by decide), if_pos rfl, getBit_ite_ne_zero, hcarry]
  · rw [getBit_putBit _ _ (by decide), if_neg (by decide), getBit_setZn, if_neg (by decide),
      if_neg (by decide)]

end flags

section results
variable [Platform] {p : ArmCore} {ins b cpsr : Word} {S : ℕ} {op : Operation}

/-- The state with the result of an operation in its register. -/
def withResult (p : ArmCore) (ins : Word) (op : Operation) : ArmCore :=
  if op.updateRd then p.setGp (fieldRd ins) (op.RdValue.setWidth 32) else p

theorem withResult_cell (p : ArmCore) (ins : Word) (op : Operation) {c : Cell}
    (h : op.updateRd = true → c ≠ bankCell (fieldRd ins) p.bank) :
    (withResult p ins op).reg c = p.reg c := by
  unfold withResult
  by_cases hu : op.updateRd = true
  · rw [if_pos hu]
    exact setCell_cell p _ (h hu)
  · rw [if_neg hu]

theorem withResult_mem (p : ArmCore) (ins : Word) (op : Operation) :
    (withResult p ins op).mem = p.mem := by
  unfold withResult
  split <;> rfl

/-- The state that an operator leaves: its result in `Rd`, then the flags. -/
theorem applyOperator_eq (hb : p.bank < 6) (sc : ℕ)
    (hsel : selectOperator (getBits ins 24 21) (p.operand (fieldRn ins)) b cpsr S = some op) :
    applyOperator p ins b sc S cpsr = .ok (0,
      if op.S ≠ 0 then
        armWriteCpsr (withResult p ins op) (updateFlags op (getBits ins 24 21)
          (p.operand (fieldRn ins)) b sc (flagsBase p ins op.updateRd cpsr))
      else withResult p ins op) := by
  -- The SPSR replaces the CPSR for r15 with flags only, in a mode that has one.
  have hrestore : (if op.updateRd ∧ op.S ≠ 0 ∧ fieldRd ins = 15 ∧ armCurrentModeHasSpsr p
      then armReadSpsr p else pure cpsr) =
        .ok (if op.S ≠ 0 then flagsBase p ins op.updateRd cpsr else cpsr) := by
    unfold flagsBase
    by_cases hS : op.S ≠ 0
    · by_cases hc : op.updateRd ∧ fieldRd ins = 15 ∧ armCurrentModeHasSpsr p
      · have h2 : 2 ≤ p.bank := (registersCurrentModeHasSpsr_iff p.reg).mp hc.2.2
        rw [if_pos ⟨hc.1, hS, hc.2⟩, if_pos hS, if_pos hc, armReadSpsr_eq h2]
      · rw [if_neg (fun h => hc ⟨h.1, h.2.2⟩), if_pos hS, if_neg hc]
        rfl
    · rw [if_neg (fun h => hS h.2.1), if_neg hS]
      rfl
  have hwrite : (if op.updateRd then
      armWriteRegister p (fieldRd ins) (op.RdValue.setWidth 32) else pure p) =
        .ok (withResult p ins op) := by
    unfold withResult
    by_cases hu : op.updateRd = true
    · rw [if_pos hu, if_pos hu, armWriteRegister_eq (getBits_lt_sixteen ins rfl) hb]
    · rw [if_neg hu, if_neg hu]
      rfl
  unfold applyOperator
  dsimp only
  rw [armReadRegister_eq (getBits_lt_sixteen ins rfl) hb, ok_bind, hsel]
  dsimp only
  rw [hrestore, ok_bind, hwrite, ok_bind]
  by_cases hS : op.S ≠ 0
  · rw [if_pos hS, if_pos hS, if_pos hS]
    rfl
  · rw [if_neg hS, if_neg hS]
    rfl

/-- In every mode but the fast interrupt's: the result goes to `Rd` and nowhere else, a comparison's
nowhere at all; without the flags the CPSR stays; and with them N and Z are those of the result, the
logical operators take C from the shifter and keep V, and the other bits stay. -/
theorem data_processing_results (p : ArmCore) (hb : p.bank < 6) (ins b : Word) (sc S : ℕ) :
    ∃ q result, applyOperator p ins b sc S p.cpsr = .ok (0, q) ∧
      result = dataResult (getBits ins 24 21) (p.operand (fieldRn ins)) b (getBit p.cpsr Flag.C) ∧
      (¬isCompare (getBits ins 24 21) → q.reg.get (bankCell (fieldRd ins) p.bank) = result) ∧
      (∀ c, c ≠ cpsrCell → (isCompare (getBits ins 24 21) ∨ c ≠ bankCell (fieldRd ins) p.bank) →
        q.reg c = p.reg c) ∧
      q.mem = p.mem ∧
      (S = 0 → ¬isCompare (getBits ins 24 21) → q.cpsr = p.cpsr) ∧
      (S ≠ 0 ∨ isCompare (getBits ins 24 21) → fieldRd ins ≠ 15 →
        getBit q.cpsr Flag.N = getBit result 31 ∧ (getBit q.cpsr Flag.Z = 1 ↔ result = 0) ∧
        (isLogical (getBits ins 24 21) →
          getBit q.cpsr Flag.C = sc % 2 ∧ getBit q.cpsr Flag.V = getBit p.cpsr Flag.V) ∧
        ∀ i < 28, getBit q.cpsr i = getBit p.cpsr i) := by
  have hopcode : getBits ins 24 21 < 16 := getBits_lt_sixteen ins rfl
  have hd : fieldRd ins < 16 := getBits_lt_sixteen ins rfl
  obtain ⟨op, hsel, hop⟩ :=
    selectOperator_selected hopcode (p.operand (fieldRn ins)) b p.cpsr S
  have heq := applyOperator_eq hb sc hsel
  -- What the result's register and the others hold, before the flags and after them.
  have hvalue (hc : ¬isCompare (getBits ins 24 21)) :
      (withResult p ins op).reg.get (bankCell (fieldRd ins) p.bank) =
        op.RdValue.setWidth 32 := by
    unfold withResult
    rw [if_pos (hop.writes.mpr hc)]
    exact Registers.get_set_self _ _ _
  have hcell (c : Cell) (hc : isCompare (getBits ins 24 21) ∨ c ≠ bankCell (fieldRd ins) p.bank) :
      (withResult p ins op).reg c = p.reg c := by
    apply withResult_cell
    intro hu
    exact hc.resolve_left (hop.writes.mp hu)
  have hcpsr : (withResult p ins op).cpsr = p.cpsr :=
    hcell cpsrCell (Or.inr (bankCell_ne_cpsr hd hb).symm)
  have hmem := withResult_mem p ins op
  refine ⟨_, dataResult (getBits ins 24 21) (p.operand (fieldRn ins)) b (getBit p.cpsr Flag.C),
    heq, rfl, ?_⟩
  rw [← hop.value]
  by_cases hS : op.S ≠ 0
  · rw [if_pos hS]
    refine ⟨?_, ?_, hmem, ?_, ?_⟩
    · intro hc
      rw [← hvalue hc]
      exact Registers.get_congr (armWriteCpsr_cell _ _ (bankCell_ne_cpsr hd hb))
    · intro c hne hc
      exact (armWriteCpsr_cell _ _ hne).trans (hcell c hc)
    · intro h0 hc
      exact absurd (hop.flags.mp hS) (not_or.mpr ⟨not_not.mpr h0, hc⟩)
    · intro _ h15
      have hbase : flagsBase p ins op.updateRd p.cpsr = p.cpsr :=
        if_neg (fun h => h15 h.2.1)
      rw [armWriteCpsr_cpsr, hbase]
      refine ⟨?_, ?_, ?_, ?_⟩
      · rw [getBit_updateFlags _ _ _ _ _ _ (by decide) (by decide), getBit_setZn,
          if_neg (by decide), if_pos rfl]
      · rw [getBit_updateFlags _ _ _ _ _ _ (by decide) (by decide), getBit_setZn, if_pos rfl]
        by_cases hz : op.RdValue.setWidth 32 = 0#32 <;> simp [hz]
      · intro hl
        exact getBit_updateFlags_logical _ _ _ sc _ (hop.carry hl)
      · intro i hi
        rw [getBit_updateFlags _ _ _ _ _ _ (show i ≠ 29 by omega) (show i ≠ 28 by omega),
          getBit_setZn, if_neg (show i ≠ 30 by omega), if_neg (show i ≠ 31 by omega)]
  · rw [if_neg hS]
    refine ⟨hvalue, fun c _ hc => hcell c hc, hmem, fun _ _ => hcpsr, ?_⟩
    intro hflags
    exact absurd (hop.flags.mpr hflags) hS

end results

/-- `RSCS r0, r1, #5` with `r1 = 7` and a clear C flag. -/
theorem data_processing_results_rscs : ∃ q result,
    @applyOperator makefile (@ArmCore.setGp makefile (ArmCore.boot 0x10 []) 1 7) 0xE2F10005 5 0 1
      0x10 = .ok (0, q) ∧ result = dataResult Op.RSC 7 5 0 ∧
      @Registers.get makefile q.reg (bankCell 0 0) = result ∧
      (getBit q.cpsr Flag.N = getBit result 31 ∧ (getBit q.cpsr Flag.Z = 1 ↔ result = 0)) := by
  obtain ⟨q, result, hq, hr, hrd, -, -, -, hflags⟩ := @data_processing_results makefile
    (@ArmCore.setGp makefile (ArmCore.boot 0x10 []) 1 7) (by decide) 0xE2F10005 5 0 1
  obtain ⟨hN, hZ, -⟩ := hflags (Or.inl (by decide)) (by decide)
  exact ⟨q, result, hq, hr, hrd (by decide), hN, hZ⟩

end ArmSim
