import ArmSim.BankedTransfer
import ArmSim.Body
import ArmSim.DataResults
import ArmSim.Lib.Exactly
import ArmSim.MiscellaneousFaults
import ArmSim.PrintString
import ArmSim.SingleTransfer
import ArmSim.Uninitialised

/-! When a step returns: what the instruction that it executes asks of the registers, the memory and
the text that is printed. -/
namespace ArmSim
open Lib

/-- The first operand of a data processing word, and the destination where there is one. -/
def operatorRegisters (inst : Word) : List ℕ :=
  getBits inst 19 16 :: if isCompare (getBits inst 24 21) then [] else [getBits inst 15 12]

/-- The base of a word or byte transfer, and the register transferred. -/
def singleRegisters (inst : Word) : List ℕ :=
  getBits inst 19 16 :: if Reserved inst then [] else [getBits inst 15 12]

/-- The registers that a miscellaneous transfer at `a` transfers. -/
def transferRegisters (lshBits rd : ℕ) (a : Word) : List ℕ :=
  match lshBits with
  | 1 | 5 | 6 | 7 => [rd]
  | 2 | 3 => if doubleAligned rd a then [rd, rd + 1] else []
  | _ => []

/-- The word does not choose a data processing instruction. -/
def NoOperator (inst : Word) : Prop := getBits inst 24 23 = 2 ∧ getBit inst 20 = 0

instance (inst : Word) : Decidable (NoOperator inst) := inferInstanceAs (Decidable (_ ∧ _))

/-- The number of bytes of each access of a miscellaneous transfer. -/
def transferWidth (lshBits : ℕ) : ℕ :=
  match lshBits with
  | 2 | 3 => 4
  | 6 => 1
  | _ => 2

/-- The number of bytes of each access of a single load or store. -/
def accessSize (inst : Word) : ℕ :=
  if getBits inst 27 25 = 0 then transferWidth (lshBits inst) else transferSize inst

theorem accessSize_pos (inst : Word) : 0 < accessSize inst := by
  unfold accessSize transferWidth transferSize
  split <;> split <;> decide

/-- The transfer ends with the CPSR taken from the SPSR. -/
def RestoresCpsr (inst : Word) : Prop :=
  getBit inst 20 ≠ 0 ∧ getBit inst 22 ≠ 0 ∧ getBit inst 15 ≠ 0

instance (inst : Word) : Decidable (RestoresCpsr inst) := inferInstanceAs (Decidable (_ ∧ _ ∧ _))

section needs
variable [Platform]

/-- The base and the offset of a miscellaneous transfer, and the registers transferred. -/
def miscellaneousRegisters (p : ArmCore) (inst : Word) : List ℕ :=
  if Reserved inst then []
  else getBits inst 19 16 :: (if getBit inst B_SHIFT = 0 then [getBits inst 3 0] else []) ++
    transferRegisters (lshBits inst) (getBits inst 15 12) (miscellaneousTarget p inst)

/-- The registers that the instruction reads or writes, but for the pc of a branch. -/
def touchedRegisters (p : ArmCore) (inst : Word) : List ℕ :=
  match getBits inst 27 25 with
  | 0x0 =>
    if getBit inst 4 = 0 then
      if NoOperator inst then [getBits inst 15 12]
      else getBits inst 3 0 :: operatorRegisters inst
    else if getBit inst 7 = 0 then
      if NoOperator inst then [getBits inst 3 0]
      else getBits inst 3 0 :: getBits inst 11 8 :: operatorRegisters inst
    else if getBit inst 5 = 0 ∧ getBit inst 6 = 0 then
      [getBits inst 11 8, getBits inst 3 0, getBits inst 19 16]
    else miscellaneousRegisters p inst
  | 0x1 => if NoOperator inst then [] else operatorRegisters inst
  | 0x2 => singleRegisters inst
  | 0x3 => if getBit inst 4 = 0 then getBits inst 3 0 :: singleRegisters inst else []
  | 0x4 => getBits inst 19 16 :: registersOf inst
  | 0x5 => if getBit inst 24 = 1 then [LR] else []
  | _ => []

/-- All bytes that a single load or store accesses lie in memory. -/
def AccessesInside (p : ArmCore) (inst : Word) : Prop :=
  ∀ as, dataAddresses p inst = .ok as → ∀ a ∈ as, p.mem.InRange a (accessSize inst)

/-- A multiple transfer can make its accesses; and where it ends with a restored CPSR, the mode has
an SPSR, and the mode that this restores has the base that is written back. -/
structure BlockFits (p : ArmCore) (inst : Word) : Prop where
  words : ∀ i < 16, getBit (listOf inst) i ≠ 0 → p.mem.Accessible
    (slot (listOf inst) (firstAddress inst (p.operand (getBits inst 19 16))) i)
  spsr : RestoresCpsr inst → 2 ≤ p.bank
  base : RestoresCpsr inst → getBit inst 21 = 1 →
    (armWriteCpsr p p.spsr).HasCell (getBits inst 19 16)

/-- The software interrupt that the simulator reads again at the address of its pc. -/
def interruptNumber (p : ArmCore) : Word :=
  p.mem.wordAt (((p.pc + 4) &&& 0xFFFFFFFD) - 8) ENDIANESS &&& 0xFFFFFF

/-- What the decoded body asks of the state: cells for its registers, and memory for its
accesses. -/
structure BodyFits (p : ArmCore) (inst : Word) : Prop where
  cells : ∀ reg ∈ touchedRegisters p inst, p.HasCell reg
  accesses : AccessesInside p inst
  block : getBits inst 27 25 = 4 → BlockFits p inst

/-- What the execution of `inst` asks of the state after its fetch: a software interrupt also
wants the string that it prints to end. -/
structure Executable (env : Env) (p : ArmCore) (inst : Word) : Prop extends BodyFits p inst where
  string : getBits inst 27 25 = 7 → getBit inst 24 ≠ 0 → interruptNumber p = 3 →
    NulWithin p.mem (p.gp 0) env.value 100

end needs

section primitives
variable [Platform] (p : ArmCore)

theorem armReadRegister_exactly {reg : ℕ} (hr : reg < 16) :
    Exactly (armReadRegister p reg) (p.HasCell reg) (· = p.operand reg) :=
  exactly_of_eq_ok (armReadRegister_hasCell hr) (fun _ => rfl)
    (fun h => ⟨_, armReadRegister_noCell hr h⟩)

theorem armWriteRegister_exactly {reg : ℕ} (hr : reg < 16) (v : Word) :
    Exactly (armWriteRegister p reg v) (p.HasCell reg) (· = p.setGp reg v) :=
  exactly_of_eq_ok (fun h => armWriteRegister_hasCell hr h v) (fun _ => rfl)
    (fun h => ⟨_, armWriteRegister_noCell hr h v⟩)

variable {p} {a : Word}

omit [Platform] in
theorem armReadByte_exactly (h : a.toNat < p.mem.size) (v : Byte) :
    Exactly (armReadByte p a v) True (fun r => r.1 = 0) :=
  exactly_of_eq_ok (fun _ => memoryReadByte_inRange (inRange_of_le h) v) (fun _ => rfl)
    (fun h => absurd trivial h)

omit [Platform] in
theorem armWriteByte_exactly (h : a.toNat < p.mem.size) (v : Byte) :
    Exactly (armWriteByte p a v) True
      (· = (0, { p with mem := p.mem.setByte a.toNat v })) := by
  refine exactly_of_eq_ok (fun _ => ?_) (fun _ => rfl) (fun h => absurd trivial h)
  unfold armWriteByte
  rw [memoryWriteByte_inRange (inRange_of_le h)]
  rfl

theorem armReadHalf_exactly (h : a.toNat < p.mem.size) (v : Half) :
    Exactly (armReadHalf p a v) (p.mem.InRange a 2) (fun r => r.1 = 0) :=
  exactly_of_eq_ok (fun hin => memoryReadHalf_inRange hin v ENDIANESS) (fun _ => rfl)
    (fun hnot => ⟨_, memoryReadHalf_straddling h hnot v ENDIANESS⟩)

theorem armWriteHalf_exactly (h : a.toNat < p.mem.size) (v : Half) :
    Exactly (armWriteHalf p a v) (p.mem.InRange a 2)
      (· = (0, { p with mem := p.mem.setHalf a v ENDIANESS })) := by
  refine exactly_of_eq_ok (fun hin => ?_) (fun _ => rfl) (fun hnot => ⟨.memoryByte, ?_⟩)
  · unfold armWriteHalf
    rw [memoryWriteHalf_inRange hin]
    rfl
  · unfold armWriteHalf
    rw [memoryWriteHalf_straddling h hnot]
    rfl

theorem armReadWord_exactly (h : a.toNat < p.mem.size) (v : Word) :
    Exactly (armReadWord p a v) (p.mem.InRange a 4) (fun r => r.1 = 0) :=
  exactly_of_eq_ok (fun hin => memoryReadWord_inRange hin v ENDIANESS) (fun _ => rfl)
    (fun hnot => ⟨_, memoryReadWord_straddling h hnot v ENDIANESS⟩)

theorem armWriteWord_exactly (h : a.toNat < p.mem.size) (v : Word) :
    Exactly (armWriteWord p a v) (p.mem.InRange a 4)
      (· = (0, { p with mem := p.mem.setWord a v ENDIANESS })) := by
  refine exactly_of_eq_ok (fun hin => ?_) (fun _ => rfl) (fun hnot => ⟨.memoryByte, ?_⟩)
  · unfold armWriteWord
    rw [memoryWriteWord_inRange hin]
    rfl
  · unfold armWriteWord
    rw [memoryWriteWord_straddling h hnot]
    rfl

end primitives

/-! Data processing and the other instructions without a memory access: cells are all they ask. -/
section cells
variable [Platform] (p : ArmCore) (ins : Word)

theorem applyOperator_returns (shifterOperand : Word) (shifterCarryOut S : ℕ) (cpsr : Word) :
    ReturnsIff (applyOperator p ins shifterOperand shifterCarryOut S cpsr)
      (∀ reg ∈ operatorRegisters ins, p.HasCell reg) := by
  have hd : getBits ins 15 12 < 16 := getBits_lt_sixteen ins rfl
  have hn : getBits ins 19 16 < 16 := getBits_lt_sixteen ins rfl
  have ho : getBits ins 24 21 < 16 := getBits_lt_sixteen ins rfl
  obtain ⟨op, hsel, hop⟩ := selectOperator_selected ho (p.operand (getBits ins 19 16))
    shifterOperand cpsr S
  -- The SPSR is read only where there is one.
  have hrestore : ReturnsIff (if op.updateRd ∧ op.S ≠ 0 ∧ getBits ins 15 12 = 15 ∧
      armCurrentModeHasSpsr p then armReadSpsr p else .ok cpsr) True := by
    refine exactly_ite (fun h => ?_) (fun _ => returns_ok cpsr)
    rw [armReadSpsr_eq ((registersCurrentModeHasSpsr_iff p.reg).mp h.2.2.2)]
    exact returns_ok _
  have hwrite : ReturnsIff (if op.updateRd then armWriteRegister p (getBits ins 15 12)
      (op.RdValue.setWidth 32) else .ok p)
      (op.updateRd = true → p.HasCell (getBits ins 15 12)) :=
    exactly_when (fun _ => (armWriteRegister_exactly p hd _).returns) (fun _ => trivial)
  have hrun : ReturnsIff (applyOperator p ins shifterOperand shifterCarryOut S cpsr)
      (p.HasCell (getBits ins 19 16) ∧ True ∧
        (op.updateRd = true → p.HasCell (getBits ins 15 12)) ∧ True) := by
    unfold applyOperator
    apply (armReadRegister_exactly p hn).bind
    rintro - value rfl
    simp only [hsel]
    refine hrestore.bind (fun _ _ _ => hwrite.bind (fun _ _ _ => ?_))
    exact exactly_ite (fun _ => returns_ok _) (fun _ => returns_ok _)
  refine hrun.congr ?_
  unfold operatorRegisters
  rw [List.forall_mem_cons, hop.writes]
  by_cases hc : isCompare (getBits ins 24 21) <;> simp [hc]

theorem armDataProcessingImmediateShift_returns (cpsr : Word) :
    ReturnsIff (armDataProcessingImmediateShift p ins cpsr)
      (∀ reg ∈ getBits ins 3 0 :: operatorRegisters ins, p.HasCell reg) := by
  have hm : getBits ins 3 0 < 16 := getBits_lt_sixteen ins rfl
  rw [List.forall_mem_cons]
  exact (armReadRegister_exactly p hm).bind (fun _ _ _ => applyOperator_returns p ins _ _ _ cpsr)

theorem armDataProcessingRegisterShift_returns (cpsr : Word) :
    ReturnsIff (armDataProcessingRegisterShift p ins cpsr)
      (∀ reg ∈ getBits ins 3 0 :: getBits ins 11 8 :: operatorRegisters ins, p.HasCell reg) := by
  have hm : getBits ins 3 0 < 16 := getBits_lt_sixteen ins rfl
  have hs : getBits ins 11 8 < 16 := getBits_lt_sixteen ins rfl
  rw [List.forall_mem_cons, List.forall_mem_cons]
  exact (armReadRegister_exactly p hm).bind (fun _ _ _ =>
    (armReadRegister_exactly p hs).bind (fun _ _ _ => applyOperator_returns p ins _ _ _ cpsr))

theorem armDataProcessingImmediate_returns (cpsr : Word) :
    ReturnsIff (armDataProcessingImmediate p ins cpsr)
      (∀ reg ∈ operatorRegisters ins, p.HasCell reg) :=
  applyOperator_returns p ins _ _ _ cpsr

theorem armMiscellaneous_returns :
    ReturnsIff (armMiscellaneous p ins) (∀ reg ∈ [getBits ins 15 12], p.HasCell reg) := by
  have hd : getBits ins 15 12 < 16 := getBits_lt_sixteen ins rfl
  have hwrite (v : Word) : ReturnsIff
      (armWriteRegister (p.print .bxReached) (getBits ins 15 12) v >>= fun q => .ok ((0 : ℤ), q))
      (p.HasCell (getBits ins 15 12)) :=
    (armWriteRegister_exactly (p.print .bxReached) hd v).bind_ok (fun _ _ _ => trivial)
  rw [List.forall_mem_singleton]
  unfold armMiscellaneous
  refine exactly_ite (fun _ => ?_) (fun _ => hwrite _)
  cases hs : armCurrentModeHasSpsr (p.print .bxReached) with
  | false =>
    -- The modes without an SPSR have a cell for every register.
    have hbank : p.bank < 2 := by
      by_contra h2
      have htrue : armCurrentModeHasSpsr p = true :=
        (registersCurrentModeHasSpsr_iff p.reg).mpr (Nat.not_lt.mp h2)
      exact absurd (hs.symm.trans htrue) (by decide)
    exact (returns_ok _).congr (iff_of_true trivial (hasCell_of_bank (by omega) _))
  | true =>
    have h2 : 2 ≤ (p.print .bxReached).bank := (registersCurrentModeHasSpsr_iff p.reg).mp hs
    simp only [armReadSpsr_eq h2]
    exact hwrite _

theorem armMiscellaneous2_returns :
    ReturnsIff (armMiscellaneous2 p ins) (∀ reg ∈ [getBits ins 3 0], p.HasCell reg) := by
  have hm : getBits ins 3 0 < 16 := getBits_lt_sixteen ins rfl
  rw [List.forall_mem_singleton]
  unfold armMiscellaneous2
  simp only [armWriteRegister_pc, ok_bind]
  exact (armReadRegister_exactly p hm).bind_ok (fun _ _ _ => trivial)

theorem armMultiply_returns (cpsr : Word) : ReturnsIff (armMultiply p ins cpsr)
    (∀ reg ∈ [getBits ins 11 8, getBits ins 3 0, getBits ins 19 16], p.HasCell reg) := by
  have hs : getBits ins 11 8 < 16 := getBits_lt_sixteen ins rfl
  have hm : getBits ins 3 0 < 16 := getBits_lt_sixteen ins rfl
  have hd : getBits ins 19 16 < 16 := getBits_lt_sixteen ins rfl
  rw [List.forall_mem_cons, List.forall_mem_cons, List.forall_mem_cons]
  unfold armMultiply
  refine (armReadRegister_exactly p hs).bind (fun _ _ _ =>
    (armReadRegister_exactly p hm).bind (fun _ _ _ => ?_))
  refine (((armWriteRegister_exactly p hd _).bind (d := True) (fun _ _ _ => ?_))).congr ?_
  · exact exactly_ite (fun _ => returns_ok _) (fun _ => returns_ok _)
  · simp

theorem armBranch_returns : ReturnsIff (armBranch p ins)
    (∀ reg ∈ (if getBit ins 24 = 1 then [LR] else []), p.HasCell reg) := by
  have hlink (v : Word) : ReturnsIff
      (if getBit ins 24 ≠ 0 then armWriteRegister p LR v else .ok p)
      (getBit ins 24 ≠ 0 → p.HasCell LR) :=
    exactly_when (fun _ => (armWriteRegister_exactly p (by decide) v).returns) (fun _ => trivial)
  unfold armBranch
  rw [armReadRegister_pc]
  simp only [armWriteRegister_pc, ok_bind]
  refine ((hlink _).bind_ok (fun _ _ _ => trivial)).congr ?_
  rcases getBit_zero_or_one ins 24 with h | h <;> simp [h]

end cells

/-! The single transfers, whose accesses all begin inside memory. -/
section single
variable [Platform] {p : ArmCore}

theorem bBitHandle_exactly {a : Word} (ha : a.toNat < p.mem.size) (l : ℕ) {b : ℕ}
    (hb : b = 0 ∨ b = 1) {rd : ℕ} (hd : rd < 16) :
    Exactly (bBitHandle p l b a rd) (p.HasCell rd ∧ p.mem.InRange a (if b = 1 then 1 else 4))
      (fun r => r.1 = 0 ∧ r.2.bank = p.bank) := by
  have hload {err : ℤ} (h0 : err = 0) (v : Word) :
      Exactly (if err ≠ 0 then .ok (err, p) else armWriteRegister p rd v >>= fun q => .ok (err, q))
        (p.HasCell rd) (fun r => r.1 = 0 ∧ r.2.bank = p.bank) := by
    rw [if_neg (not_not.mpr h0)]
    apply (armWriteRegister_exactly p hd v).bind_ok
    rintro hcell q rfl
    exact ⟨h0, setGp_bank_hasCell hd hcell v⟩
  unfold bBitHandle
  rcases hb with rfl | rfl
  · refine exactly_ite (fun _ => ?_) (fun _ => ?_)
    · exact ((armReadWord_exactly ha 0).bind (fun _ r hr => hload hr r.2)).congr and_comm
    · refine (armReadRegister_exactly p hd).bind (fun _ v _ => ?_)
      refine (armWriteWord_exactly ha v).imp ?_
      rintro - r rfl
      exact ⟨rfl, rfl⟩
  · have hin : p.mem.InRange a 1 ↔ True := iff_of_true (inRange_of_le ha) trivial
    refine Exactly.congr ?_ (and_congr_right (fun _ => hin.symm))
    refine exactly_ite (fun _ => ?_) (fun _ => ?_)
    · exact ((armReadByte_exactly ha 0).bind (fun _ r hr => hload hr _)).congr and_comm
    · refine (armReadRegister_exactly p hd).bind (fun _ v _ => ?_)
      refine (armWriteByte_exactly ha _).imp ?_
      rintro - r rfl
      exact ⟨rfl, rfl⟩

section indexing
variable {b rn rd : ℕ} (hb : b = 0 ∨ b = 1) (hn : rn < 16) (hd : rd < 16) (hcell : p.HasCell rn)
  (l u : ℕ) {addr offset : Word}
include hb hd

theorem immediateOffset_exactly (ha : (uBitHandle u addr offset).toNat < p.mem.size) :
    Exactly (immediateOffset p l u b rd addr offset)
      (p.HasCell rd ∧ p.mem.InRange (uBitHandle u addr offset) (if b = 1 then 1 else 4))
      (fun r => r.1 = 0 ∧ r.2.1.bank = p.bank) :=
  (bBitHandle_exactly ha l hb hd).bind_ok (fun _ _ hr => hr)

include hn hcell

omit hb hd in
/-- The write-back finds the cell that the base was read from. -/
theorem writeBack_returns {err : ℤ} {q : ArmCore} (h : err = 0 ∧ q.bank = p.bank) (v a : Word) :
    ReturnsIff (if err ≠ 0 then .ok (err, q, a)
      else armWriteRegister q rn v >>= fun q' => .ok (err, q', v)) True := by
  rw [if_neg (not_not.mpr h.1)]
  refine ((armWriteRegister_exactly q hn v).bind_ok (fun _ _ _ => trivial)).congr ?_
  exact iff_of_true ((hasCell_congr h.2 rn).mpr hcell) trivial

theorem immediatePreindexing_returns (ha : (uBitHandle u addr offset).toNat < p.mem.size) :
    ReturnsIff (immediatePreindexing p l u b rn rd addr offset)
      (p.HasCell rd ∧ p.mem.InRange (uBitHandle u addr offset) (if b = 1 then 1 else 4)) :=
  ((immediateOffset_exactly hb hd l u ha).bind (fun _ _ h =>
    writeBack_returns hn hcell h _ _)).congr (and_iff_left trivial)

theorem immediatePostindexing_returns (ha : addr.toNat < p.mem.size) :
    ReturnsIff (immediatePostindexing p l u b rn rd addr offset)
      (p.HasCell rd ∧ p.mem.InRange addr (if b = 1 then 1 else 4)) :=
  ((bBitHandle_exactly ha l hb hd).bind (fun _ _ h =>
    writeBack_returns hn hcell h _ _)).congr (and_iff_left trivial)

end indexing

theorem singleTransfer_returns {ins offset : Word} (hin : p.HasCell (getBits ins 19 16) →
    ¬Reserved ins →
      (accessAddress ins (p.operand (getBits ins 19 16)) offset).toNat < p.mem.size) :
    ReturnsIff (singleTransfer p ins offset) ((∀ reg ∈ singleRegisters ins, p.HasCell reg) ∧
      (¬Reserved ins → p.mem.InRange (accessAddress ins (p.operand (getBits ins 19 16)) offset)
        (transferSize ins))) := by
  have hn : getBits ins 19 16 < 16 := getBits_lt_sixteen ins rfl
  have hd : getBits ins 15 12 < 16 := getBits_lt_sixteen ins rfl
  have hb := getBit_zero_or_one ins B_SHIFT
  have hpair {x : Except Crash (ℤ × ArmCore × Word)} {c : Prop} (hx : ReturnsIff x c) :
      ReturnsIff (x >>= fun r => .ok (r.1, r.2.1)) c := hx.bind_ok (fun _ _ _ => trivial)
  generalize hbase : p.operand (getBits ins 19 16) = base at hin ⊢
  have hrun : ReturnsIff (singleTransfer p ins offset) (p.HasCell (getBits ins 19 16) ∧
      (¬Reserved ins → p.HasCell (getBits ins 15 12) ∧
        p.mem.InRange (accessAddress ins base offset) (transferSize ins))) := by
    unfold singleTransfer
    apply (armReadRegister_exactly p hn).bind
    rintro hcell value rfl
    rw [hbase]
    by_cases hr : Reserved ins
    · simp only [hr.1, hr.2, zero_ne_one, ↓reduceIte]
      exact (returns_ok _).congr (iff_of_true trivial (fun hnot => absurd hr hnot))
    have ha := hin hcell hr
    refine Exactly.congr ?_ (imp_iff_right hr).symm
    unfold accessAddress transferSize at *
    simp only [← uBitHandle_eq] at ha ⊢
    refine exactly_ite (fun hP => ?_) (fun hP => ?_)
    · rw [if_pos hP] at ha ⊢
      refine exactly_ite (fun _ => ?_) (fun _ => ?_)
      · exact hpair (immediatePreindexing_returns hb hn hd hcell _ _ ha)
      · exact hpair (immediateOffset_exactly hb hd _ _ ha).returns
    · rw [if_neg hP] at ha ⊢
      refine exactly_ite (fun hW => ?_) (fun _ => ?_)
      · exact absurd ⟨(getBit_zero_or_one _ _).resolve_right hP, hW⟩ hr
      · exact hpair (immediatePostindexing_returns hb hn hd hcell _ _ ha)
  refine hrun.congr ?_
  unfold singleRegisters
  rw [List.forall_mem_cons]
  by_cases hr : Reserved ins
  · simp [hr]
  · simp [hr, and_assoc]

end single

section forms
variable [Platform] {p : ArmCore} {ins : Word}

theorem accessesInside_iff {as : List Word} (has : dataAddresses p ins = .ok as) :
    AccessesInside p ins ↔ ∀ a ∈ as, p.mem.InRange a (accessSize ins) := by
  constructor
  · exact fun h => h as has
  · intro h as' has'
    rw [← ok_unique has has']
    exact h

theorem accessesInside_nil (has : dataAddresses p ins = .ok []) : AccessesInside p ins :=
  (accessesInside_iff has).mpr (fun _ ha => absurd ha List.not_mem_nil)

/-- No access is refused, so each one begins inside memory. -/
theorem begins_inside (hin : ¬AccessOutside p ins) {as : List Word}
    (has : dataAddresses p ins = .ok as) {a : Word} (ha : a ∈ as) : a.toNat < p.mem.size := by
  by_contra hout
  exact hin ⟨as, has, a, ha, Nat.not_lt.mp hout⟩

omit [Platform] in
theorem indexedAddresses_eq (ins base offset : Word) : indexedAddresses ins base offset =
    if Reserved ins then [] else [accessAddress ins base offset] := by
  unfold indexedAddresses accessAddress Reserved
  rw [uBitHandle_eq]
  rcases getBit_zero_or_one ins P_SHIFT with hP | hP <;>
    rcases getBit_zero_or_one ins W_SHIFT with hW | hW <;> simp [hP, hW]

/-- The transfer whose offset is known, in terms of the addresses of its form. -/
theorem singleTransfer_accesses {offset : Word} (hin : ¬AccessOutside p ins)
    (hcode : getBits ins 27 25 ≠ 0) (has : p.HasCell (getBits ins 19 16) →
      dataAddresses p ins = .ok (indexedAddresses ins (p.operand (getBits ins 19 16)) offset)) :
    ReturnsIff (singleTransfer p ins offset)
      ((∀ reg ∈ singleRegisters ins, p.HasCell reg) ∧ AccessesInside p ins) := by
  simp only [indexedAddresses_eq] at has
  refine (singleTransfer_returns ?_).congr (and_congr_right ?_)
  · intro hcell hr
    apply begins_inside hin (has hcell)
    rw [if_neg hr]
    exact List.mem_singleton_self _
  · intro hcells
    rw [accessesInside_iff (has (hcells _ List.mem_cons_self)), accessSize, if_neg hcode]
    by_cases hr : Reserved ins
    · simp [hr]
    · simp [hr]

theorem armLoadStoreImmediateOffset_returns (hin : ¬AccessOutside p ins)
    (h : getBits ins 27 25 = 2) : ReturnsIff (armLoadStoreImmediateOffset p ins)
      ((∀ reg ∈ singleRegisters ins, p.HasCell reg) ∧ AccessesInside p ins) := by
  rw [armLoadStoreImmediateOffset_eq]
  refine singleTransfer_accesses hin (by omega) (fun hcell => ?_)
  simp only [dataAddresses, h, armReadRegister_hasCell (getBits_lt_sixteen ins rfl) hcell, ok_bind,
    pure_eq_ok]

theorem armLoadStoreRegisterOffset_returns (hin : ¬AccessOutside p ins)
    (h : getBits ins 27 25 = 3) (h4 : getBit ins 4 = 0) :
    ReturnsIff (armLoadStoreRegisterOffset p ins)
      ((∀ reg ∈ getBits ins 3 0 :: singleRegisters ins, p.HasCell reg) ∧
        AccessesInside p ins) := by
  have hm : getBits ins 3 0 < 16 := getBits_lt_sixteen ins rfl
  have hn : getBits ins 19 16 < 16 := getBits_lt_sixteen ins rfl
  rw [armLoadStoreRegisterOffset_eq, List.forall_mem_cons, and_assoc]
  apply (armReadRegister_exactly p hm).bind
  rintro hcell' value rfl
  refine singleTransfer_accesses hin (by omega) (fun hcell => ?_)
  simp only [dataAddresses, h, h4, armReadRegister_hasCell hm hcell',
    armReadRegister_hasCell hn hcell, ok_bind, pure_eq_ok, ↓reduceIte]
  rfl

/-! The doubleword transfers: the second word is accessed behind the first one. -/
section doubleword
variable {rd : ℕ} {a : Word} (hd : rd < 16) (hal : doubleAligned rd a)
  (hin : ∀ b ∈ (if p.mem.InRange a 4 then [a, a + 4] else [a]), b.toNat < p.mem.size)

omit [Platform] in
theorem doubleword_iff : ((∀ reg ∈ [rd, rd + 1], p.HasCell reg) ∧
    ∀ b ∈ (if p.mem.InRange a 4 then [a, a + 4] else [a]), p.mem.InRange b 4) ↔
      (p.HasCell rd ∧ p.HasCell (rd + 1)) ∧ p.mem.InRange a 4 ∧ p.mem.InRange (a + 4) 4 := by
  by_cases h : p.mem.InRange a 4 <;> simp [h]

include hin

omit [Platform] in
theorem doubleword_inside :
    a.toNat < p.mem.size ∧ (p.mem.InRange a 4 → (a + 4).toNat < p.mem.size) := by
  constructor
  · exact hin a (by split <;> exact List.mem_cons_self)
  · intro h
    rw [if_pos h] at hin
    exact hin _ (List.mem_cons_of_mem _ (List.mem_singleton_self _))

include hd hal

theorem loadDoubleword_returns : ReturnsIff (armReadWord p a 0 >>= fun r =>
    armWriteRegister p rd r.2 >>= fun q => if r.1 ≠ 0 then .ok (r.1, q) else
      armReadWord q (a + 4) r.2 >>= fun r' =>
        armWriteRegister q (rd + 1) r'.2 >>= fun q' => .ok (r'.1, q'))
    ((p.HasCell rd ∧ p.HasCell (rd + 1)) ∧ p.mem.InRange a 4 ∧ p.mem.InRange (a + 4) 4) := by
  obtain ⟨hfirst, hsecond⟩ := doubleword_inside hin
  refine Exactly.congr (c := p.mem.InRange a 4 ∧ p.HasCell rd ∧ p.mem.InRange (a + 4) 4 ∧
    p.HasCell (rd + 1)) ?_ (by tauto)
  refine (armReadWord_exactly hfirst 0).bind (fun h4 r hr => ?_)
  apply (armWriteRegister_exactly p hd _).bind
  rintro hcell q rfl
  rw [if_neg (not_not.mpr hr)]
  -- The register's write keeps the memory and the bank.
  refine (armReadWord_exactly (p := p.setGp rd r.2) (hsecond h4) r.2).bind (fun _ r' _ => ?_)
  have hbank := setGp_bank_hasCell hd hcell r.2
  exact ((armWriteRegister_exactly _ (hal.next hd) _).bind_ok (fun _ _ _ => trivial)).congr
    (hasCell_congr hbank _)

theorem storeDoubleword_returns : ReturnsIff (armReadRegister p rd >>= fun v =>
    armWriteWord p a v >>= fun r => if r.1 ≠ 0 then .ok (r.1, r.2) else
      armReadRegister r.2 (rd + 1) >>= fun v' => armWriteWord r.2 (a + 4) v')
    ((p.HasCell rd ∧ p.HasCell (rd + 1)) ∧ p.mem.InRange a 4 ∧ p.mem.InRange (a + 4) 4) := by
  obtain ⟨hfirst, hsecond⟩ := doubleword_inside hin
  refine Exactly.congr (c := p.HasCell rd ∧ p.mem.InRange a 4 ∧ p.HasCell (rd + 1) ∧
    p.mem.InRange (a + 4) 4) ?_ (by tauto)
  refine (armReadRegister_exactly p hd).bind (fun _ v _ => ?_)
  apply (armWriteWord_exactly hfirst v).bind
  rintro h4 r rfl
  rw [if_neg (not_not.mpr rfl)]
  -- The first store keeps the size of the memory and the registers.
  have hsize := p.mem.size_setWord a v ENDIANESS
  refine (armReadRegister_exactly _ (hal.next hd)).bind (fun _ v' _ => ?_)
  refine (armWriteWord_exactly ?_ v').returns.congr ?_
  · exact hsize ▸ hsecond h4
  · simp only [Memory.InRange, hsize]

end doubleword

theorem miscellaneousTransfer_returns (lsh : ℕ) {rd : ℕ} (hd : rd < 16) {a : Word}
    (hin : ∀ b ∈ transferAddresses p lsh rd a, b.toNat < p.mem.size) :
    ReturnsIff (miscellaneousTransfer p lsh rd a)
      ((∀ reg ∈ transferRegisters lsh rd a, p.HasCell reg) ∧
        ∀ b ∈ transferAddresses p lsh rd a, p.mem.InRange b (transferWidth lsh)) := by
  have hread := armReadRegister_exactly p hd
  have hload (err : ℤ) (v : Word) :
      ReturnsIff (armWriteRegister p rd v >>= fun q => .ok (err, q)) (p.HasCell rd) :=
    (armWriteRegister_exactly p hd v).bind_ok (fun _ _ _ => trivial)
  unfold miscellaneousTransfer transferRegisters transferWidth
  unfold transferAddresses at hin ⊢
  -- In the order of the source: STRH, LDRD, STRD, LDRH, LDRSB, LDRSH, and the words that are
  -- none of these.
  split
  · simp only [List.forall_mem_singleton] at hin ⊢
    exact hread.bind (fun _ v _ => (armWriteHalf_exactly hin _).returns)
  · by_cases hal : doubleAligned rd a
    · simp only [if_pos hal] at hin ⊢
      exact (loadDoubleword_returns hd hal hin).congr doubleword_iff.symm
    · simp only [if_neg hal]
      exact (returns_ok _).congr (by simp)
  · by_cases hal : doubleAligned rd a
    · simp only [if_pos hal] at hin ⊢
      exact (storeDoubleword_returns hd hal hin).congr doubleword_iff.symm
    · simp only [if_neg hal]
      exact (returns_ok _).congr (by simp)
  · simp only [List.forall_mem_singleton] at hin ⊢
    exact ((armReadHalf_exactly hin 0).bind (fun _ r _ => hload r.1 _)).congr and_comm
  · simp only [List.forall_mem_singleton] at hin ⊢
    refine ((armReadByte_exactly hin 0).bind (fun _ r _ => hload r.1 _)).congr ?_
    rw [and_comm, iff_true_intro (inRange_of_le hin)]
  · simp only [List.forall_mem_singleton] at hin ⊢
    exact ((armReadHalf_exactly hin 0).bind (fun _ r _ => hload r.1 _)).congr and_comm
  · exact (returns_ok _).congr (by simp)

/-- Where there is a transfer, its address is that of the base and the offset. -/
theorem miscellaneousAddress_exactly (hform : ¬Reserved ins) :
    Exactly (miscellaneousAddress p ins)
      (p.HasCell (getBits ins 19 16) ∧ (getBit ins B_SHIFT = 0 → p.HasCell (getBits ins 3 0)))
      (· = some (miscellaneousTarget p ins, based p ins)) := by
  have hn16 : getBits ins 19 16 < 16 := getBits_lt_sixteen ins rfl
  have hm16 : getBits ins 3 0 < 16 := getBits_lt_sixteen ins rfl
  refine exactly_of_eq_ok (fun h => miscellaneousAddress_eq hform h.1 h.2) (fun _ => rfl) ?_
  intro hnot
  refine ⟨.registerCell, ?_⟩
  unfold miscellaneousAddress
  -- Every form reads the base first, and those with a register offset this one next.
  by_cases hn : p.HasCell (getBits ins 19 16)
  · have hm : getBit ins B_SHIFT = 0 ∧ ¬p.HasCell (getBits ins 3 0) := by tauto
    have hread := armReadRegister_hasCell hn16 hn
    have hoffset := armReadRegister_noCell hm16 hm.2
    rcases getBit_zero_or_one ins P_SHIFT with hP | hP <;>
      rcases getBit_zero_or_one ins W_SHIFT with hW | hW
    · simp [hm.1, hP, hW, hread, hoffset]
    · exact absurd ⟨hP, hW⟩ hform
    · simp [hm.1, hP, hW, hread, hoffset]
    · simp [hm.1, hP, hW, hread, hoffset]
  · have hread := armReadRegister_noCell hn16 hn
    rcases getBit_zero_or_one ins P_SHIFT with hP | hP <;>
      rcases getBit_zero_or_one ins W_SHIFT with hW | hW
    · rcases getBit_zero_or_one ins B_SHIFT with hB | hB <;> simp [hB, hP, hW, hread]
    · exact absurd ⟨hP, hW⟩ hform
    · rcases getBit_zero_or_one ins B_SHIFT with hB | hB <;> simp [hB, hP, hW, hread]
    · rcases getBit_zero_or_one ins B_SHIFT with hB | hB <;> simp [hB, hP, hW, hread]

theorem armLoadStoreMiscellaneous_returns (hin : ¬AccessOutside p ins)
    (h : getBits ins 27 25 = 0) (h4 : getBit ins 4 = 1) (h7 : getBit ins 7 = 1)
    (h56 : ¬(getBit ins 5 = 0 ∧ getBit ins 6 = 0)) :
    ReturnsIff (armLoadStoreMiscellaneous p ins)
      ((∀ reg ∈ miscellaneousRegisters p ins, p.HasCell reg) ∧ AccessesInside p ins) := by
  have hd : getBits ins 15 12 < 16 := getBits_lt_sixteen ins rfl
  unfold miscellaneousRegisters
  by_cases hform : Reserved ins
  · have hnone : miscellaneousAddress p ins = .ok none := by
      simp [miscellaneousAddress, hform.1, hform.2]
    have has : dataAddresses p ins = .ok [] := by
      simp [dataAddresses, h, h4, h7, h56, hnone]
    rw [armLoadStoreMiscellaneous_reserved hform, if_pos hform]
    exact (returns_ok _).congr (by simp [accessesInside_nil has])
  have has (hcells : p.HasCell (getBits ins 19 16) ∧
      (getBit ins B_SHIFT = 0 → p.HasCell (getBits ins 3 0))) : dataAddresses p ins =
      .ok (transferAddresses p (lshBits ins) (getBits ins 15 12) (miscellaneousTarget p ins)) := by
    simp only [dataAddresses, h, h4, h7, h56, miscellaneousAddress_eq hform hcells.1 hcells.2,
      ok_bind, pure_eq_ok, not_false_eq_true, and_self, ↓reduceIte]
    rfl
  have hrun : ReturnsIff (armLoadStoreMiscellaneous p ins) ((p.HasCell (getBits ins 19 16) ∧
      (getBit ins B_SHIFT = 0 → p.HasCell (getBits ins 3 0))) ∧
      (∀ reg ∈ transferRegisters (lshBits ins) (getBits ins 15 12) (miscellaneousTarget p ins),
        p.HasCell reg) ∧ AccessesInside p ins) := by
    unfold armLoadStoreMiscellaneous
    apply (miscellaneousAddress_exactly hform).bind
    rintro hcells o rfl
    have hinside := has hcells
    have hmem := based_mem p ins
    have hsame : transferAddresses (based p ins) (lshBits ins) (getBits ins 15 12)
        (miscellaneousTarget p ins) = transferAddresses p (lshBits ins) (getBits ins 15 12)
          (miscellaneousTarget p ins) := by
      unfold transferAddresses
      rw [hmem]
    -- The access is made with the moved base, in the same mode and memory.
    refine (miscellaneousTransfer_returns (p := based p ins) (lshBits ins) hd ?_).congr ?_
    · intro b hb
      rw [hmem]
      exact begins_inside hin hinside (hsame ▸ hb)
    · rw [accessesInside_iff hinside, accessSize, if_pos h, hsame, hmem]
      simp only [hasCell_congr (based_bank hcells.1)]
  refine hrun.congr ?_
  rw [if_neg hform, ← and_assoc]
  refine and_congr_left' ?_
  rw [List.cons_append, List.forall_mem_cons, List.forall_mem_append, ← and_assoc]
  refine and_congr_left' (and_congr_right' ?_)
  by_cases hB : getBit ins B_SHIFT = 0 <;> simp [hB]

end forms

/-! The multiple transfers: a round needs the cell of its register and a word that is refused or
whole, whatever the rounds before it have done. -/
section multiple
variable [Platform] (p : ArmCore)

theorem armReadWord_accessible {a : Word} (v : Word) :
    ReturnsIff (armReadWord p a v) (p.mem.Accessible a) := by
  rcases Nat.lt_or_ge a.toNat p.mem.size with h | h
  · exact (armReadWord_exactly h v).returns.congr (by simp [Memory.Accessible, Nat.not_le.mpr h])
  · unfold armReadWord
    rw [memoryReadWord_outside h]
    exact (returns_ok _).congr (iff_of_true trivial (Or.inl h))

theorem armWriteWord_accessible {a : Word} (v : Word) :
    ReturnsIff (armWriteWord p a v) (p.mem.Accessible a) := by
  rcases Nat.lt_or_ge a.toNat p.mem.size with h | h
  · exact (armWriteWord_exactly h v).returns.congr (by simp [Memory.Accessible, Nat.not_le.mpr h])
  · unfold armWriteWord
    rw [memoryWriteWord_outside h]
    exact (returns_ok _).congr (iff_of_true trivial (Or.inl h))

/-- What the rounds before the register `n` leave: the next address, and the parts of the state
that the later ones depend on. -/
structure LoopKeeps (registerList : BitVec 16) (start : Word) (n : ℕ) (s : MultipleLoop) :
    Prop where
  address : s.address = slot registerList start n
  cpsr : s.p.cpsr = p.cpsr
  size : s.p.mem.size = p.mem.size
  spsr : 2 ≤ p.bank → s.p.reg (bankCell SPSR p.bank) = p.reg (bankCell SPSR p.bank)

variable {p} {registerList : BitVec 16} {start : Word} {n : ℕ} {s : MultipleLoop}

omit [Platform] in
theorem LoopKeeps.accessible (h : LoopKeeps p registerList start n s) :
    s.p.mem.Accessible s.address ↔ p.mem.Accessible (slot registerList start n) := by
  rw [h.address]
  exact Memory.accessible_congr h.size _

theorem LoopKeeps.loaded (h : LoopKeeps p registerList start n s)
    (hl : getBit registerList n ≠ 0) (hn : n < 16) (hcell : s.p.HasCell n) (v data : Word) :
    LoopKeeps p registerList start (n + 1) ⟨s.address + 4, data, s.p.setGp n v⟩ := by
  refine ⟨?_, ?_, h.size, ?_⟩
  · rw [slot_listed hl, h.address]
  · exact (setCell_cpsr s.p v (bankCell_ne_cpsr_hasCell hn hcell).symm).trans h.cpsr
  · intro h2
    refine (setCell_cell s.p v ?_).trans (h.spsr h2)
    -- The SPSR is the cell of no general register.
    intro he
    have hreg := bankCell_spsr_reg h2 p.reg.bank_lt
    rw [he, bankCell_reg_hasCell hn hcell] at hreg
    exact absurd (hreg ▸ hn) (by decide)

omit [Platform] in
theorem LoopKeeps.stored (h : LoopKeeps p registerList start n s)
    (hl : getBit registerList n ≠ 0) {q : ArmCore} (hreg : q.reg = s.p.reg)
    (hsize : q.mem.size = s.p.mem.size) (data : Word) :
    LoopKeeps p registerList start (n + 1) ⟨s.address + 4, data, q⟩ := by
  refine ⟨?_, ?_, hsize.trans h.size, ?_⟩
  · rw [slot_listed hl, h.address]
  · exact (congrArg registersReadCpsr hreg).trans h.cpsr
  · exact fun h2 => (congrFun hreg _).trans (h.spsr h2)

theorem multipleStep_exactly (L : ℕ) (hn : n < 16) (h : LoopKeeps p registerList start n s) :
    Exactly (multipleStep L registerList s n)
      (getBit registerList n ≠ 0 → p.HasCell n ∧ p.mem.Accessible (slot registerList start n))
      (LoopKeeps p registerList start (n + 1)) := by
  have hcell := hasCell_congr (bank_congr h.cpsr) n
  unfold multipleStep
  by_cases hl : getBit registerList n = 0
  · rw [if_neg (not_not.mpr hl)]
    have haddress : s.address = slot registerList start (n + 1) := by
      rw [slot_unlisted hl, h.address]
    exact ⟨fun hne => absurd hl hne, haddress, h.cpsr, h.size, h.spsr⟩
  rw [if_pos hl]
  refine Exactly.congr ?_ (imp_iff_right hl).symm
  rw [← hcell, ← h.accessible]
  refine exactly_ite (fun _ => ?_) (fun _ => ?_)
  · -- A load reads the word first.
    refine Exactly.congr ?_ and_comm
    refine (armReadWord_accessible s.p s.data).bind (fun _ r _ => ?_)
    apply (armWriteRegister_exactly s.p hn _).bind_ok
    rintro hcell q rfl
    exact h.loaded hl hn hcell _ _
  · refine (armReadRegister_exactly s.p hn).bind (fun _ v _ => ?_)
    have hwrite := (armWriteWord_accessible s.p v).and_ends (armWriteWord_ends s.p s.address v)
    exact hwrite.bind_ok (fun _ r hr => h.stored hl hr.2.1.reg hr.2.1.size _)

theorem multipleLoop_exactly (L : ℕ) (registerList : BitVec 16) (start data : Word) :
    Exactly ((List.range 16).foldlM (multipleStep L registerList) ⟨start, data, p⟩)
      (∀ i < 16, getBit registerList i ≠ 0 →
        p.HasCell i ∧ p.mem.Accessible (slot registerList start i))
      (LoopKeeps p registerList start 16) := by
  refine exactly_foldlM_range (LoopKeeps p registerList start) _ _ 16 _ ?_
    (fun i hi s hs => multipleStep_exactly L hi hs)
  exact ⟨by simp [slot, countBelow], rfl, rfl, fun _ => rfl⟩

/-- The CPSR is restored from a cell that the loop has left, and the base is written in the mode
that this brings. -/
theorem multipleEnd_returns {ins : Word} (h : LoopKeeps p registerList start n s)
    (hcell : p.HasCell (getBits ins 19 16)) (w : Word) :
    ReturnsIff (multipleEnd s.p ins w) ((RestoresCpsr ins → 2 ≤ p.bank) ∧
      (RestoresCpsr ins → getBit ins 21 = 1 →
        (armWriteCpsr p p.spsr).HasCell (getBits ins 19 16))) := by
  have hn : getBits ins 19 16 < 16 := getBits_lt_sixteen ins rfl
  have hbank : s.p.bank = p.bank := bank_congr h.cpsr
  have hrestore : Exactly (if RestoresCpsr ins then
        armReadSpsr s.p >>= fun v => .ok (armWriteCpsr s.p v) else .ok s.p)
      (RestoresCpsr ins → 2 ≤ p.bank)
      (fun q => q.bank = if RestoresCpsr ins then (armWriteCpsr p p.spsr).bank else p.bank) := by
    refine exactly_when (fun hr => ?_) (fun hr => ?_)
    · refine exactly_of_eq_ok (a := armWriteCpsr s.p p.spsr) ?_ ?_ ?_
      · intro h2
        have hspsr : s.p.reg.get (bankCell SPSR s.p.bank) = p.spsr := by
          rw [hbank]
          exact Registers.get_congr (h.spsr h2)
        rw [armReadSpsr_eq (hbank ▸ h2), hspsr]
        rfl
      · intro _
        rw [if_pos hr]
        rfl
      · intro h2
        rw [armReadSpsr_null (show s.p.bank < 2 by omega)]
        exact ⟨_, rfl⟩
    · rw [if_neg hr]
      exact hbank
  have hback : ReturnsIff (multipleEnd s.p ins w) ((RestoresCpsr ins → 2 ≤ p.bank) ∧
      (getBit ins 21 = 1 → RestoresCpsr ins →
        (armWriteCpsr p p.spsr).HasCell (getBits ins 19 16))) := by
    refine hrestore.bind (fun _ q hq => ?_)
    refine Exactly.bind_ok (P := fun _ => True) ?_ (fun _ _ _ => trivial)
    refine exactly_when (fun _ => ?_) (fun _ => trivial)
    refine (armWriteRegister_exactly q hn w).returns.congr ?_
    by_cases hr : RestoresCpsr ins
    · rw [if_pos hr] at hq
      rw [hasCell_congr hq]
      exact (imp_iff_right hr).symm
    · rw [if_neg hr] at hq
      exact iff_of_true ((hasCell_congr hq _).mpr hcell) (fun hr' => absurd hr' hr)
  exact hback.congr (and_congr_right' forall_comm)

theorem armLoadStoreMultiple_returns (env : Env) (ins : Word) :
    ReturnsIff (armLoadStoreMultiple env p ins)
      ((∀ reg ∈ getBits ins 19 16 :: registersOf ins, p.HasCell reg) ∧ BlockFits p ins) := by
  have hn : getBits ins 19 16 < 16 := getBits_lt_sixteen ins rfl
  have hrun : ReturnsIff (armLoadStoreMultiple env p ins) (p.HasCell (getBits ins 19 16) ∧
      (∀ i < 16, getBit (listOf ins) i ≠ 0 → p.HasCell i ∧ p.mem.Accessible
        (slot (listOf ins) (firstAddress ins (p.operand (getBits ins 19 16))) i)) ∧
      (RestoresCpsr ins → 2 ≤ p.bank) ∧ (RestoresCpsr ins → getBit ins 21 = 1 →
        (armWriteCpsr p p.spsr).HasCell (getBits ins 19 16))) := by
    rw [armLoadStoreMultiple_eq]
    apply (armReadRegister_exactly p hn).bind
    rintro hcell base rfl
    exact (multipleLoop_exactly _ _ _ _).bind (fun _ s hs => multipleEnd_returns hs hcell _)
  refine hrun.congr ?_
  rw [List.forall_mem_cons]
  constructor
  · rintro ⟨hcell, hwords, hspsr, hbase⟩
    refine ⟨⟨hcell, fun reg hreg => ?_⟩, fun i hi hl => (hwords i hi hl).2, hspsr, hbase⟩
    obtain ⟨hr, hl⟩ := mem_registersOf.mp hreg
    exact (hwords reg hr ((listed_iff hr).mpr hl)).1
  · rintro ⟨⟨hcell, hcells⟩, hfits⟩
    refine ⟨hcell, fun i hi hl => ⟨?_, hfits.words i hi hl⟩, hfits.spsr, hfits.base⟩
    exact hcells i (mem_registersOf.mpr ⟨hi, (listed_iff hi).mp hl⟩)

end multiple

/-! The decoded body and the exception it takes. -/
section body
variable [Platform] {p : ArmCore} {inst : Word} {x : Except Crash (ℤ × ArmCore)} {regs : List ℕ}

/-- A handler whose accesses are those of a single transfer. -/
theorem returns_of_accesses
    (hx : ReturnsIff x ((∀ reg ∈ regs, p.HasCell reg) ∧ AccessesInside p inst))
    (hregs : touchedRegisters p inst = regs) (h4 : getBits inst 27 25 ≠ 4) :
    ReturnsIff x (BodyFits p inst) := by
  subst hregs
  exact hx.congr ⟨fun h => ⟨h.1, h.2, fun h4' => absurd h4' h4⟩, fun h => ⟨h.cells, h.accesses⟩⟩

/-- A handler that makes no access. -/
theorem returns_of_cells (hx : ReturnsIff x (∀ reg ∈ regs, p.HasCell reg))
    (hregs : touchedRegisters p inst = regs) (has : dataAddresses p inst = .ok [])
    (h4 : getBits inst 27 25 ≠ 4) : ReturnsIff x (BodyFits p inst) :=
  returns_of_accesses (hx.congr (and_iff_left (accessesInside_nil has)).symm) hregs h4

/-- A word that is refused. -/
theorem returns_of_nothing (r : ℤ × ArmCore) (hregs : touchedRegisters p inst = [])
    (has : dataAddresses p inst = .ok []) (h4 : getBits inst 27 25 ≠ 4) :
    ReturnsIff (.ok r : Except Crash (ℤ × ArmCore)) (BodyFits p inst) :=
  returns_of_cells ((returns_ok r).congr (by simp)) hregs has h4

variable (env : Env)

/-- The words whose bits 27 to 25 are 0: data processing, and what is packed in between. -/
theorem armFetchCodeInst_returns_zero (hin : ¬AccessOutside p inst)
    (hcode : getBits inst 27 25 = 0) :
    ReturnsIff (armFetchCodeInst env p inst p.cpsr) (BodyFits p inst) := by
  have hne : getBits inst 27 25 ≠ 4 := by omega
  unfold armFetchCodeInst
  simp only [hcode]
  by_cases h4 : getBit inst 4 = 0
  · have has : dataAddresses p inst = .ok [] := by simp [dataAddresses, hcode, h4]
    rw [if_pos h4]
    refine exactly_ite (fun hop => ?_) (fun hop => ?_)
    · exact returns_of_cells (armMiscellaneous_returns p inst)
        (by simp [touchedRegisters, NoOperator, hcode, h4, hop]) has hne
    · exact returns_of_cells (armDataProcessingImmediateShift_returns p inst _)
        (by simp only [touchedRegisters, NoOperator, hcode, h4, hop, ↓reduceIte]) has hne
  rw [if_neg h4]
  by_cases h7 : getBit inst 7 = 0
  · have has : dataAddresses p inst = .ok [] := by simp [dataAddresses, hcode, h7]
    rw [if_pos h7]
    refine exactly_ite (fun hop => ?_) (fun hop => ?_)
    · exact returns_of_cells (armMiscellaneous2_returns p inst)
        (by simp [touchedRegisters, NoOperator, hcode, h4, h7, hop]) has hne
    · exact returns_of_cells (armDataProcessingRegisterShift_returns p inst _)
        (by simp only [touchedRegisters, NoOperator, hcode, h4, h7, hop, ↓reduceIte]) has hne
  rw [if_neg h7]
  refine exactly_ite (fun h56 => ?_) (fun h56 => ?_)
  · have has : dataAddresses p inst = .ok [] := by simp [dataAddresses, hcode, h56]
    exact returns_of_cells (armMultiply_returns p inst _)
      (by simp [touchedRegisters, hcode, h4, h7, h56]) has hne
  · exact returns_of_accesses (armLoadStoreMiscellaneous_returns hin hcode
      ((getBit_zero_or_one inst 4).resolve_left h4)
      ((getBit_zero_or_one inst 7).resolve_left h7) h56)
      (by simp only [touchedRegisters, hcode, h4, h7, h56, ↓reduceIte]) hne

theorem armFetchCodeInst_returns (hin : ¬AccessOutside p inst) :
    ReturnsIff (armFetchCodeInst env p inst p.cpsr) (BodyFits p inst) := by
  by_cases h0 : getBits inst 27 25 = 0
  · exact armFetchCodeInst_returns_zero env hin h0
  have hlt : getBits inst 27 25 < 8 := getBits_lt inst 27 25
  -- One case for each other value of bits 27 to 25.
  unfold armFetchCodeInst
  dsimp only
  split
  · exact absurd ‹_› h0
  · rename_i hcode
    have has : dataAddresses p inst = .ok [] := by simp [dataAddresses, hcode]
    refine exactly_ite (fun hop => ?_) (fun hop => ?_)
    · exact returns_of_nothing _ (by simp [touchedRegisters, NoOperator, hcode, hop]) has
        (by omega)
    · exact returns_of_cells (armDataProcessingImmediate_returns p inst _)
        (by simp only [touchedRegisters, NoOperator, hcode, hop, ↓reduceIte]) has (by omega)
  · rename_i hcode
    exact returns_of_accesses (armLoadStoreImmediateOffset_returns hin hcode)
      (by simp only [touchedRegisters, hcode]) (by omega)
  · rename_i hcode
    refine exactly_ite (fun h4 => ?_) (fun h4 => ?_)
    · exact returns_of_accesses (armLoadStoreRegisterOffset_returns hin hcode h4)
        (by simp only [touchedRegisters, hcode, h4, ↓reduceIte]) (by omega)
    · exact returns_of_nothing _ (by simp [touchedRegisters, hcode, h4])
        (by simp [dataAddresses, hcode, h4]) (by omega)
  · rename_i hcode
    have has : dataAddresses p inst = .ok [] := by simp [dataAddresses, hcode]
    have hregs : touchedRegisters p inst = getBits inst 19 16 :: registersOf inst := by
      simp only [touchedRegisters, hcode]
    refine (armLoadStoreMultiple_returns env inst).congr ?_
    rw [← hregs]
    exact ⟨fun h => ⟨h.1, accessesInside_nil has, fun _ => h.2⟩,
      fun h => ⟨h.cells, h.block hcode⟩⟩
  · rename_i hcode
    exact returns_of_cells (armBranch_returns p inst) (by simp only [touchedRegisters, hcode])
      (by simp [dataAddresses, hcode]) (by omega)
  · rename_i hcode
    exact returns_of_nothing _ (by simp only [touchedRegisters, hcode])
      (by simp [dataAddresses, hcode]) (by omega)
  · rename_i hcode
    have hnothing (r : ℤ × ArmCore) :
        ReturnsIff (.ok r : Except Crash (ℤ × ArmCore)) (BodyFits p inst) :=
      returns_of_nothing r (by simp only [touchedRegisters, hcode])
        (by simp [dataAddresses, hcode]) (by omega)
    exact exactly_ite (fun _ => hnothing _)
      (fun _ => exactly_ite (fun _ => hnothing _) (fun _ => hnothing _))
  · exact returns_of_nothing _ (by simp [touchedRegisters, *]) (by simp [dataAddresses, *])
      (by assumption)

omit [Platform] in
theorem printStringLoop_returns (p : ArmCore) (room : ℕ) (address : Word) (value : Byte)
    (c : List Byte) :
    ReturnsIff (printStringLoop p room address value c) (NulWithin p.mem address value room) := by
  refine (printStringLoop_exact p room address value c).mono ?_ ?_
  · exact fun _ hnul => ⟨(nulWithin_iff room).mpr hnul, trivial⟩
  · rintro e ⟨-, hall⟩ hnul
    obtain ⟨i, hi, hzero⟩ := (nulWithin_iff room).mp hnul
    exact hall i hi hzero

/-- The interrupt is served unless its string does not end. -/
theorem armException_software_returns
    (hin : p.mem.InRange (((p.pc + 4) &&& 0xFFFFFFFD) - 8) 4) :
    ReturnsIff (armException env p Exc.SOFTWARE_INTERRUPT)
      (interruptNumber p = 3 → NulWithin p.mem (p.gp 0) env.value 100) := by
  have hcell : p.HasCell 0 := fun _ => by decide
  have hread := armReadRegister_hasCell (show 0 < 16 by decide) hcell
  have hword : armReadWord p (((p.pc + 4) &&& 0xFFFFFFFD) - 8) env.instruction =
      .ok (0, p.mem.wordAt (((p.pc + 4) &&& 0xFFFFFFFD) - 8) ENDIANESS) :=
    memoryReadWord_inRange hin _ _
  have hnot (n : Word) (hn : interruptNumber p = n) (h3 : n ≠ 3) (r : ℤ × ArmCore) :
      ReturnsIff (.ok r : Except Crash (ℤ × ArmCore))
        (interruptNumber p = 3 → NulWithin p.mem (p.gp 0) env.value 100) :=
    (returns_ok r).congr (iff_of_true trivial (fun h => absurd (hn.symm.trans h) h3))
  unfold armException
  rw [if_pos rfl, armReadRegister_pc]
  simp only [ok_bind, hword]
  refine exactly_ite (fun h => hnot _ h (by decide) _) (fun _ => ?_)
  refine exactly_ite (fun h => ?_) (fun _ => ?_)
  · rw [hread]
    exact hnot _ h (by decide) _
  refine exactly_ite (fun h => ?_) (fun _ => ?_)
  · rw [hread]
    exact hnot _ h (by decide) _
  refine exactly_ite (fun h => ?_) (fun h3 => ?_)
  · -- The loop of `print_string`.
    have hloop := printStringLoop_returns p 100 (p.operand 0) env.value []
    unfold printString
    rw [hread]
    refine ((hloop.bind_ok (R := fun _ => True) (fun _ _ _ => trivial)).bind_ok
      (fun _ _ _ => trivial)).congr ?_
    exact (imp_iff_right h).symm
  refine exactly_ite (fun h => ?_) (fun _ => hnot _ rfl h3 _)
  rw [armWriteRegister_hasCell (show 0 < 16 by decide) hcell]
  exact hnot _ h (by decide) _

/-- The body returns if and only if the instruction can be executed. -/
theorem runBody_returns (hin : ¬AccessOutside p inst)
    (hword : p.mem.InRange (((p.pc + 4) &&& 0xFFFFFFFD) - 8) 4) :
    ReturnsIff (runBody env p inst) (Executable env p inst) := by
  have hbody := armFetchCodeInst_returns env hin
  by_cases hswi : getBits inst 27 25 = 7 ∧ getBit inst 24 ≠ 0
  · obtain ⟨hcode, h24⟩ := hswi
    have hdecode : armFetchCodeInst env p inst p.cpsr = .ok (8, p) := by
      simp [armFetchCodeInst, armCoprocessorOthersSwi, hcode, h24]
    have hfits : BodyFits p inst := hbody.exists_iff.mp ⟨_, hdecode⟩
    unfold runBody
    rw [hdecode]
    refine (armException_software_returns env hword).congr ?_
    exact ⟨fun h => ⟨hfits, fun _ _ => h⟩, fun h => h.string hcode h24⟩
  · -- No other word has the code of an interrupt, and every other code is passed through.
    have hends := (armFetchCodeInst_ends env p inst).both (armFetchCodeInst_software env p inst)
    have hrun : ReturnsIff (runBody env p inst) (BodyFits p inst ∧ True) := by
      unfold runBody
      refine (hbody.and_ends hends).bind (fun _ r hr => ?_)
      obtain ⟨-, ⟨hcode, -⟩, hsoftware⟩ := hr
      have hother : toUint8 r.1 ≠ 8 := fun h8 => hswi (hsoftware h8).2
      have hpassed : toUint8 r.1 ≠ 4 ∧ toUint8 r.1 ≠ 1 := by
        rcases hcode with hc | ⟨hc, -⟩ | hc | hc | ⟨hc, -⟩ <;> rw [hc] <;> decide
      refine exactly_ite (fun _ => ?_) (fun _ => returns_ok _)
      rw [armException_other env r.2 hother hpassed.1 hpassed.2]
      exact returns_ok _
    refine hrun.congr ?_
    exact ⟨fun h => ⟨h.1, fun hc h24 => absurd ⟨hc, h24⟩ hswi⟩, fun h => ⟨h.toBodyFits, trivial⟩⟩

end body

end ArmSim
