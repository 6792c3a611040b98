import ArmSim.Handlers
import ArmSim.Multiply
import ArmSim.Represents

/-! Data processing and multiplication: the simulator's operators and flags against those of
the architecture. -/
namespace ArmSim
open Lib
namespace Arch

theorem operatorOf_code {code : ℕ} (h : code < 16) : (operatorOf code).code = code := by
  interval_cases code <;> rfl

theorem Operator.code_lt (op : Operator) : op.code < 16 := by
  cases op <;> decide

theorem Operator.compares_iff (op : Operator) : op.compares = true ↔ isCompare op.code := by
  cases op <;> decide

/-- The source's results are the architecture's, where the carry is. -/
theorem dataResult_eq (op : Operator) (a b : Word) {n : ℕ} {carry : Bool}
    (h : op.readsCarry = true → n = carry.toNat) :
    dataResult op.code a b n = (op.compute a b carry).result := by
  cases op with
  | adc | sbc | rsc =>
    have hn := h rfl
    subst hn
    rfl
  | sub | cmp | rsb =>
    exact congrArg (BitVec.ofInt 32) (Int.sub_zero _).symm
  | add | cmn => exact congrArg (BitVec.ofInt 32) (Int.add_zero _).symm
  | and | eor | tst | teq | orr | mov | bic | mvn => rfl

theorem Operator.compute_bitwise {op : Operator} (h : op.isBitwise = true) (a b : Word)
    (carry : Bool) : ∃ result, op.compute a b carry = .bitwise result := by
  cases op with
  | and | eor | tst | teq | orr | mov | bic | mvn => exact ⟨_, rfl⟩
  | _ => exact absurd h (by decide)

theorem getLsbD_of_getBit {x : Word} {i : ℕ} {b : Bool} (h : getBit x i = b.toNat) :
    x.getLsbD i = b := by
  rw [getBit_eq] at h
  cases hx : x.getLsbD i <;> cases b <;> simp_all

theorem getLsbD_of_iff {x : Word} {i : ℕ} {c : Prop} [Decidable c] (h : getBit x i = 1 ↔ c) :
    x.getLsbD i = decide c := by
  rw [getBit_eq] at h
  cases hx : x.getLsbD i <;> simp_all

section flags
variable {op : Operator} {a b cpsr base : Word} {S sc : ℕ} {o : Operation}

/-- V after `ADD`, `CMN`, `SUB` and `CMP`. -/
theorem overflow_settled (hsel : selectOperator op.code a b cpsr S = some o)
    (hop : op.overflowsRight = true) (carry : Bool) :
    getBit (updateFlags o op.code a b sc base) Flag.V = 1 ↔
      OutsideSigned ((op.compute a b carry).exact BitVec.toInt) := by
  have haddition (ho : op.code = Op.ADD ∨ op.code = Op.ADC ∨ op.code = Op.CMN)
      (hcase : o.ZNCVupdatecase = 0) :
      getBit (updateFlags o op.code a b sc base) Flag.V = 1 ↔
        OutsideSigned (a.toInt + b.toInt + ((0 : ℕ) : ℤ)) := by
    unfold updateFlags
    simp only [hcase]
    rw [getBit_overflowFrom_add ho, ite_eq_one_iff, signed_add_outside_iff]
    exact iff_of_eq (congrArg OutsideSigned (Int.add_zero _).symm)
  have hsubtraction (ho : op.code = Op.SUB ∨ op.code = Op.CMP)
      (hvalue : o.RdValue = (a - b).setWidth 64) (hcase : o.ZNCVupdatecase = 2) :
      getBit (updateFlags o op.code a b sc base) Flag.V = 1 ↔
        OutsideSigned (a.toInt - b.toInt - (1 - ((1 : ℕ) : ℤ))) := by
    have hthis : op.code = Op.SUB ∨ op.code = Op.SBC ∨ op.code = Op.RSC ∨ op.code = Op.CMP :=
      ho.imp_right fun h => Or.inr (Or.inr h)
    rw [overflow_after_subtraction b sc hvalue hcase hthis, sub_overflow_exact a b ho]
    exact iff_of_eq (congrArg OutsideSigned (Int.sub_zero _).symm)
  cases op with
  | add =>
    cases hsel
    exact haddition (Or.inl rfl) rfl
  | cmn =>
    cases hsel
    exact haddition (Or.inr (Or.inr rfl)) rfl
  | sub =>
    cases hsel
    exact hsubtraction (Or.inl rfl) rfl rfl
  | cmp =>
    cases hsel
    exact hsubtraction (Or.inr rfl) rfl rfl
  | _ => exact absurd hop (by decide)

/-- Every flag that an operator settles is the architecture's. -/
theorem settles_right (hsel : selectOperator op.code a b cpsr S = some o) {flags : Flags}
    (hc : op.readsCarry = true → getBit cpsr Flag.C = (flags .c).toNat) {known carry : Bool}
    (hcarry : known = true → sc = carry.toNat) {K : Known}
    (hv : K .v = true → base.getLsbD Flag.V = flags .v) (f : StatusFlag)
    (hf : op.settles known K f = true) :
    (updateFlags o op.code a b sc base).getLsbD f.position =
      (op.compute a b (flags .c)).flags carry flags f := by
  obtain ⟨o', hsel', ho⟩ := selectOperator_selected op.code_lt a b cpsr S
  have hsame : o' = o := Option.some.inj (hsel'.symm.trans hsel)
  subst hsame
  have hresult : o'.RdValue.setWidth 32 = (op.compute a b (flags .c)).result := by
    rw [ho.value]
    exact dataResult_eq op a b hc
  have hcase (hb : op.isBitwise = true) : o'.ZNCVupdatecase = 1 :=
    ho.carry (of_decide_eq_true hb)
  cases f with
  | n =>
    refine getLsbD_of_getBit ?_
    calc getBit (updateFlags o' op.code a b sc base) Flag.N
        = getBit (o'.RdValue.setWidth 32) 31 := by
          rw [getBit_updateFlags _ _ _ _ _ _ (by decide) (by decide), getBit_setZn,
            if_neg (by decide), if_pos rfl]
      _ = ((op.compute a b (flags .c)).result.msb).toNat := by
          rw [hresult, getBit_eq, BitVec.msb_eq_getLsbD_last]
  | z =>
    refine getLsbD_of_iff ?_
    change getBit (updateFlags o' op.code a b sc base) Flag.Z = 1 ↔ _
    rw [getBit_updateFlags _ _ _ _ _ _ (by decide) (by decide), getBit_setZn, if_pos rfl,
      ite_eq_one_iff, hresult]
  | c =>
    -- Only the bitwise operators settle C, and they take it from the shifter.
    obtain ⟨hb, hk⟩ := Bool.and_eq_true_iff.mp hf
    obtain ⟨result, hx⟩ := op.compute_bitwise hb a b (flags .c)
    rw [hx]
    refine getLsbD_of_getBit ?_
    change getBit (updateFlags o' op.code a b sc base) Flag.C = carry.toNat
    rw [(getBit_updateFlags_logical _ _ _ sc _ (hcase hb)).1, hcarry hk]
    exact Nat.mod_eq_of_lt (Bool.toNat_lt carry)
  | v =>
    by_cases hb : op.isBitwise = true
    · have hkv : K .v = true := by
        have hf' : (if op.isBitwise then K .v else op.overflowsRight) = true := hf
        rwa [if_pos hb] at hf'
      obtain ⟨result, hx⟩ := op.compute_bitwise hb a b (flags .c)
      rw [hx]
      refine getLsbD_of_getBit ?_
      change getBit (updateFlags o' op.code a b sc base) Flag.V = (flags .v).toNat
      rw [(getBit_updateFlags_logical _ _ _ sc _ (hcase hb)).2, getBit_eq, hv hkv]
    · have hright : op.overflowsRight = true := by
        have hf' : (if op.isBitwise then K .v else op.overflowsRight) = true := hf
        rwa [if_neg hb] at hf'
      have hflag : getBit (updateFlags o' op.code a b sc base) Flag.V = 1 ↔ _ :=
        overflow_settled hsel hright (flags .c)
      cases op with
      | add | cmn | sub | cmp => exact getLsbD_of_iff hflag
      | _ => exact absurd hright (by decide)

end flags

section operands
variable (kind : ShiftKind) {n : ℕ} (x : Word)

theorem shiftCodeOf_kindOf {code : ℕ} (h : code < 4) : shiftCodeOf (shiftKindOf code) = code := by
  interval_cases code <;> rfl

/-- Away from the two misread amounts, the carry before the shift decides nothing but the carry
of no shift at all. -/
theorem immediateShift_congr (hrotate : ¬(n = 0 ∧ kind = .rotateRight)) (carry carry' : Bool) :
    (immediateShift kind n x carry).1 = (immediateShift kind n x carry').1 ∧
      (¬(kind = .logicalLeft ∧ n = 0) →
        immediateShift kind n x carry = immediateShift kind n x carry') := by
  have hright (kind : ShiftKind) : kind.shift (if n = 0 then 32 else n) x carry =
      kind.shift (if n = 0 then 32 else n) x carry' := by
    apply ShiftKind.shift_congr
    split <;> omega
  cases kind with
  | logicalLeft =>
    refine ⟨ShiftKind.shift_fst_congr _ n x carry carry', fun hn => ?_⟩
    exact ShiftKind.shift_congr _ n x carry carry' (fun h0 => hn ⟨rfl, h0⟩)
  | logicalRight => exact ⟨congrArg Prod.fst (hright _), fun _ => hright _⟩
  | arithmeticRight => exact ⟨congrArg Prod.fst (hright _), fun _ => hright _⟩
  | rotateRight =>
    have hn : n ≠ 0 := fun h0 => hrotate ⟨h0, rfl⟩
    have hequal : immediateShift .rotateRight n x carry = immediateShift .rotateRight n x carry' := by
      unfold immediateShift
      dsimp only
      rw [if_neg hn, if_neg hn]
      exact ShiftKind.shift_congr _ n x carry carry' hn
    exact ⟨congrArg Prod.fst hequal, fun _ => hequal⟩

/-- The source shifts as the manual has it by every amount that it does not misread. -/
theorem getShifterOperandImmediateShift_eq (hn : n < 32)
    (hmisread : ¬(n = 0 ∧ (kind = .logicalRight ∨ kind = .rotateRight))) (cpsr : Word) :
    getShifterOperandImmediateShift n (shiftCodeOf kind) x 0 0 cpsr =
      operandAndCarry (immediateShift kind n x (carryFlag cpsr)) := by
  unfold immediateShift
  by_cases h0 : n = 0
  · subst h0
    cases kind with
    | logicalLeft => exact congrArg (Prod.mk x) (getBit_carryFlag cpsr)
    | arithmeticRight => exact (arithmeticRight_past x _ (Nat.le_refl 32)).symm
    | logicalRight => exact absurd ⟨rfl, Or.inl rfl⟩ hmisread
    | rotateRight => exact absurd ⟨rfl, Or.inr rfl⟩ hmisread
  · have hpos : 0 < n := Nat.pos_of_ne_zero h0
    have hamount : (if n = 0 then 32 else n) = n := if_neg h0
    cases kind with
    | logicalLeft => exact (if_neg h0).trans (logicalLeft_inside x _ hpos hn).symm
    | logicalRight =>
      dsimp only
      rw [hamount, logicalRight_inside x _ hpos]
      exact if_neg h0
    | arithmeticRight =>
      dsimp only
      rw [hamount, arithmeticRight_inside x _ hpos hn]
      exact if_neg h0
    | rotateRight =>
      dsimp only
      rw [if_neg h0, rotateRight_inside x _ hpos hn]
      exact if_neg h0

end operands

section operators
variable [Platform] {start p : ArmCore} {K : Known} {A B : Machine} {inst b : Word}

/-- A flag that is known, as the source reads it. -/
theorem Represents.getBit (h : Represents start K A p) {f : StatusFlag} (hf : K f = true) :
    ArmSim.getBit p.cpsr f.position = (A.flags f).toNat := by
  rw [getBit_eq, h.flag f hf]

/-- The flags written over those of a state that represents the machine. -/
theorem Represents.settle {q : ArmCore} {C : Machine} (hq : Represents start K C q)
    (hflags : C.flags = A.flags) (hcpsr : q.cpsr = p.cpsr) {op : Operator} {a : Word} {S sc : ℕ}
    {o : Operation} (hsel : selectOperator op.code a b p.cpsr S = some o)
    (hread : op.readsCarry = true → K .c = true) {known carry : Bool}
    (hcarry : known = true → sc = carry.toNat) :
    Represents start (op.settles known K)
      (C.setFlags ((op.compute a b (A.flags .c)).flags carry A.flags))
      (armWriteCpsr q (updateFlags o op.code a b sc p.cpsr)) := by
  have hknown (f : StatusFlag) (hf : K f = true) : p.cpsr.getLsbD f.position = A.flags f := by
    rw [← hcpsr, ← hflags]
    exact hq.flag f hf
  have hc (hr : op.readsCarry = true) : ArmSim.getBit p.cpsr Flag.C = (A.flags .c).toNat := by
    rw [getBit_eq]
    exact congrArg Bool.toNat (hknown .c (hread hr))
  refine hq.setFlags (settles_right hsel hc hcarry (hknown .v)) ?_
  rw [updateFlags_low, hcpsr]

/-- An operator with its operand in the form the source computes it. -/
theorem applied_simulated (h : Represents start K A p) {op : Operator}
    (hop : getBits inst 24 21 = op.code) {s : Bool} (hcompare : op.compares = true → s = true)
    (hread : op.readsCarry = true → K .c = true) {known carry : Bool} {sc : ℕ}
    (hcarry : known = true → sc = carry.toNat)
    (hexec : applied A op s (regField inst 12) (A.value (regField inst 16)) b carry = some B) :
    ∃ q, applyOperator p.advance inst b sc s.toNat p.cpsr = .ok (0, q) ∧
      Represents start (if s then op.settles known K else K) B q := by
  have hnext := h.next
  have ha : p.advance.operand (fieldRn inst) = A.value (regField inst 16) :=
    h.operand (regField inst 16)
  obtain ⟨o, hsel, ho⟩ :=
    selectOperator_selected op.code_lt (A.value (regField inst 16)) b p.cpsr s.toNat
  have hresult : o.RdValue.setWidth 32 =
      (op.compute (A.value (regField inst 16)) b (A.flags .c)).result := by
    rw [ho.value]
    exact dataResult_eq op _ b (fun hr => h.getBit (hread hr))
  have heq := @applyOperator_eq _ p.advance inst b p.cpsr s.toNat o hnext.bank_lt sc
    (by rw [hop, ha]; exact hsel)
  rw [hop, ha] at heq
  have hflagged : o.S ≠ 0 ↔ s = true := by
    rw [ho.flags, ← op.compares_iff]
    cases s with
    | true => simp
    | false => simpa using hcompare
  refine ⟨_, heq, ?_⟩
  unfold applied at hexec
  by_cases hc : op.compares = true
  · -- A comparison writes no register, and always the flags.
    have hs := hcompare hc
    subst hs
    have hupdate : ¬o.updateRd = true := fun hu => ho.writes.mp hu (op.compares_iff.mp hc)
    have hbase : flagsBase p.advance inst o.updateRd p.cpsr = p.cpsr :=
      if_neg (fun hu => hupdate hu.1)
    have hplain : withResult p.advance inst o = p.advance := if_neg hupdate
    rw [if_pos hc] at hexec
    cases hexec
    rw [if_pos (hflagged.mpr rfl), hbase, hplain]
    exact hnext.settle rfl (advance_cpsr p) hsel hread hcarry
  · rw [if_neg hc] at hexec
    split at hexec
    · cases hexec
    rename_i hrestore
    obtain ⟨C, hwrite, hB⟩ := Option.map_eq_some_iff.mp hexec
    have hupdate : o.updateRd = true := ho.writes.mpr (fun hi => hc (op.compares_iff.mpr hi))
    have hset : withResult p.advance inst o = p.advance.setGp (regField inst 12)
        (op.compute (A.value (regField inst 16)) b (A.flags .c)).result := by
      rw [← hresult]
      exact if_pos hupdate
    have hC : Represents start K C (withResult p.advance inst o) := by
      rw [hset]
      exact hnext.write hwrite
    subst hB
    cases s with
    | false =>
      rw [if_neg (fun hS => absurd (hflagged.mp hS) (by decide))]
      exact hC
    | true =>
      have hbase : flagsBase p.advance inst o.updateRd p.cpsr = p.cpsr := by
        refine if_neg (fun hu => hrestore ⟨rfl, ?_⟩)
        exact Fin.ext hu.2.1
      have hflags : C.flags = A.flags := (Machine.write_frame hwrite).1
      have hcpsr : (withResult p.advance inst o).cpsr = p.cpsr := by
        rw [hset]
        exact setCell_cpsr _ _ (bankCell_ne_cpsr (Fin.isLt _) hnext.bank_lt).symm
      rw [if_pos (hflagged.mpr rfl), hbase]
      exact hC.settle hflags hcpsr hsel hread hcarry

/-- The source's operand and carry stand for those of the machine, the carry where it is known. -/
def OperandRight (K : Known) (A : Machine) (operand : ShifterOperand) (s : Word × ℕ) : Prop :=
  s.1 = (operand.eval A).1 ∧
    ((!operand.keepsCarry A || K .c) = true → s.2 = (operand.eval A).2.toNat)

omit [Platform] in
theorem carry_known {keeps : Bool} (h : (!keeps || K .c) = true) (hk : keeps = true) :
    K .c = true := by
  rw [hk] at h
  exact h

theorem shifted_right (h : Represents start K A p) {kind : ShiftKind} {n : ℕ} {rm : Reg}
    (hn : n < 32) (hmisread : (ShifterOperand.shifted kind n rm).misread = false) :
    OperandRight K A (.shifted kind n rm)
      (getShifterOperandImmediateShift n (shiftCodeOf kind) (A.value rm) 0 0 p.cpsr) := by
  have hplain : ¬(n = 0 ∧ (kind = .logicalRight ∨ kind = .rotateRight)) :=
    of_decide_eq_false hmisread
  obtain ⟨hfst, hall⟩ := immediateShift_congr kind (A.value rm)
    (fun hz => hplain ⟨hz.1, Or.inr hz.2⟩) (carryFlag p.cpsr) (A.flags .c)
  rw [getShifterOperandImmediateShift_eq kind _ hn hplain]
  refine ⟨hfst, fun hknown => ?_⟩
  by_cases hkeeps : kind = .logicalLeft ∧ n = 0
  · -- The carry is the C flag, and known as such.
    have hc := carry_known hknown (decide_eq_true hkeeps)
    have hflag : carryFlag p.cpsr = A.flags .c := h.flag .c hc
    rw [hflag]
    rfl
  · exact congrArg (fun s : Word × Bool => s.2.toNat) (hall hkeeps)

theorem registerShifted_right (h : Represents start K A p) (kind : ShiftKind) (rs rm : Reg) :
    OperandRight K A (.registerShifted kind rs rm)
      (getShifterOperandRegisterShift (shiftCodeOf kind) (A.value rm) (A.value rs) 0 0 p.cpsr) := by
  rw [getShifterOperandRegisterShift_eq]
  refine ⟨ShiftKind.shift_fst_congr _ _ _ _ _, fun hknown => ?_⟩
  by_cases hkeeps : (A.value rs).toNat % 256 = 0
  · have hc := carry_known hknown (decide_eq_true hkeeps)
    have hflag : carryFlag p.cpsr = A.flags .c := h.flag .c hc
    rw [hflag]
    rfl
  · exact congrArg (fun s : Word × Bool => s.2.toNat)
      (ShiftKind.shift_congr kind _ _ _ _ hkeeps)

theorem immediate_right (h : Represents start K A p) {v rotate : ℕ} (hv : v < 256)
    (hrotate : rotate < 16) :
    OperandRight K A (.immediate (BitVec.ofNat 8 v) rotate)
      (ror (BitVec.ofNat 32 v) (rotate * 2),
        if rotate = 0 then getBit p.cpsr Flag.C
        else getBit (ror (BitVec.ofNat 32 v) (rotate * 2)) 31) := by
  have hwide : (BitVec.ofNat 8 v).setWidth 32 = BitVec.ofNat 32 v := by
    apply BitVec.eq_of_toNat_eq
    rw [BitVec.toNat_setWidth, BitVec.toNat_ofNat, BitVec.toNat_ofNat]
    omega
  have hvalue : ror (BitVec.ofNat 32 v) (rotate * 2) =
      ((BitVec.ofNat 8 v).setWidth 32).rotateRight (2 * rotate) := by
    rw [hwide, ror_eq _ (show rotate * 2 < 32 by omega), Nat.mul_comm]
  refine ⟨hvalue, fun hknown => ?_⟩
  dsimp only [ShifterOperand.eval]
  by_cases h0 : rotate = 0
  · have hc := carry_known hknown (decide_eq_true h0)
    rw [if_pos h0, if_pos h0]
    exact h.getBit hc
  · rw [if_neg h0, if_neg h0, hvalue, getBit_eq, BitVec.msb_eq_getLsbD_last]

end operators

section words
variable [Platform] {start p : ArmCore} {K : Known} {A B : Machine} {inst input : Word}

/-- The handlers of the simulator do with a word what the machine does with the instruction. -/
def Simulated (start : ArmCore) (env : Env) (K : Known) (p : ArmCore) (inst : Word) (B : Machine) :
    Prop :=
  ∃ q, runBody env p.advance inst = .ok (0, q) ∧ Represents start K B q

/-- A handler that returns 0 raises no exception. -/
theorem simulated_of_body {env : Env} {q : ArmCore}
    (hrun : armFetchCodeInst env p.advance inst p.cpsr = .ok (0, q)) (hB : Represents start K B q) :
    Simulated start env K p inst B := by
  refine ⟨q, ?_, hB⟩
  unfold runBody
  rw [advance_cpsr, hrun]
  rfl

omit [Platform] in
theorem getBit_bit (inst : Word) (i : ℕ) : getBit inst i = (bit inst i).toNat := getBit_eq inst i

omit [Platform] in
theorem bit_eq_false_iff {i : ℕ} : bit inst i = false ↔ getBit inst i = 0 := by
  rw [getBit_bit]
  cases bit inst i <;> simp

omit [Platform] in
theorem bit_eq_true_iff {i : ℕ} : bit inst i = true ↔ getBit inst i = 1 := by
  rw [getBit_bit]
  cases bit inst i <;> simp

omit [Platform] in
/-- The comparisons of an instruction stand with the S bit. -/
theorem compares_flags (ho : ¬(getBits inst 24 23 = 2 ∧ bit inst 20 = false))
    (hc : (operatorOf (getBits inst 24 21)).compares = true) : bit inst 20 = true := by
  have hcode : (operatorOf (getBits inst 24 21)).code = getBits inst 24 21 :=
    operatorOf_code (getBits_lt_sixteen inst rfl)
  have hcompare := (Operator.compares_iff _).mp hc
  rw [hcode] at hcompare
  have hfield : getBits inst 24 23 = 2 := by
    have hfour := getBits_eq inst 24 21
    have htwo := getBits_eq inst 24 23
    change getBits inst 24 21 = 8 ∨ getBits inst 24 21 = 9 ∨ getBits inst 24 21 = 10 ∨
      getBits inst 24 21 = 11 at hcompare
    omega
  cases hs : bit inst 20 with
  | true => rfl
  | false => exact absurd ⟨hfield, hs⟩ ho

/-- The three forms of a data-processing instruction, once the operand is right. -/
theorem data_simulated (env : Env) (h : Represents start K A p) {operand : ShifterOperand}
    {i : Instruction} (hdata : dataOf inst operand = some i) (hsup : i.supported K = true)
    (hexec : exec A input i = some B) {s : Word × ℕ} (hright : OperandRight K A operand s)
    (hrun : ¬(getBits inst 24 23 = 2 ∧ bit inst 20 = false) →
      armFetchCodeInst env p.advance inst p.cpsr =
        applyOperator p.advance inst s.1 s.2 (getBit inst 20) p.cpsr) :
    Simulated start env (i.settles A K) p inst B := by
  unfold dataOf at hdata
  split at hdata
  · cases hdata
  rename_i ho
  cases hdata
  obtain ⟨-, hread⟩ := Bool.and_eq_true_iff.mp hsup
  have hcode := operatorOf_code (getBits_lt_sixteen inst (show 24 - 21 = 3 from rfl))
  have hcarry (hc : (operatorOf (getBits inst 24 21)).readsCarry = true) : K .c = true := by
    rcases Bool.or_eq_true_iff.mp hread with hk | hk
    · rw [hc] at hk
      cases hk
    · exact hk
  have happlied : applied A (operatorOf (getBits inst 24 21)) (bit inst 20) (regField inst 12)
      (A.value (regField inst 16)) s.1 (operand.eval A).2 = some B := by
    rw [hright.1]
    exact hexec
  obtain ⟨q, hq, hB⟩ := applied_simulated h hcode.symm (compares_flags ho) hcarry hright.2 happlied
  refine simulated_of_body ?_ hB
  rw [hrun ho, getBit_bit]
  exact hq

/-- A register other than r15 as the handlers read it. -/
theorem Represents.gp_advance (h : Represents start K A p) {r : Reg} (hr : r ≠ 15) :
    p.advance.gp r = A.value r := by
  rw [← h.operand r, operand_of_ne (fun he => hr (Fin.ext he))]

/-- Every flag that a multiplication settles is the architecture's. -/
theorem multiply_settles_right {q : ArmCore} {C : Machine} (hC : Represents start K C q)
    (s : Bool) (v : Word) :
    Represents start (multiplySettles s K)
      (if s then C.setFlags (fun
        | .n => v.msb
        | .z => v = 0
        | f => C.flags f) else C)
      (armWriteCpsr q (multiplyCpsr v q.cpsr)) := by
  have hz : getBit (multiplyCpsr v q.cpsr) Flag.Z = 1 ↔ v = 0 := by
    rw [getBit_multiplyCpsr, if_pos rfl, ite_eq_one_iff]
  have hkept (f : StatusFlag) (hf : K f = true) (hn : f.position ≠ Flag.Z ∧ f.position ≠ Flag.C) :
      (multiplyCpsr v q.cpsr).getLsbD f.position = C.flags f := by
    refine getLsbD_of_getBit ?_
    rw [getBit_multiplyCpsr, if_neg hn.1, if_neg hn.2, hC.getBit hf]
  cases s with
  | true =>
    refine hC.setFlags (fun f hf => ?_) (multiplyCpsr_low v q.cpsr)
    cases f with
    | n | c => cases hf
    | z => exact getLsbD_of_iff hz
    | v => exact hkept .v hf (by decide)
  | false =>
    -- Without the S bit the simulator still writes Z and C.
    change Represents start (multiplySettles false K) (C.setFlags C.flags) _
    refine hC.setFlags (fun f hf => ?_) (multiplyCpsr_low v q.cpsr)
    cases f with
    | z | c => cases hf
    | n => exact hkept .n hf (by decide)
    | v => exact hkept .v hf (by decide)

theorem multiply_simulated (env : Env) (h : Represents start K A p) {i : Instruction}
    (hmul : multiplyOf inst = some i) (h4 : bit inst 4 = true) (h5 : bit inst 5 = false)
    (h6 : bit inst 6 = false) (h7 : bit inst 7 = true) (hexec : exec A input i = some B) :
    Simulated start env (i.settles A K) p inst B := by
  unfold multiplyOf at hmul
  split at hmul
  · rename_i hop
    cases hmul
    have hnext := h.next
    have hcell (reg : ℕ) : p.advance.HasCell reg := hasCell_of_bank hnext.bank_lt reg
    change execMultiply A (bit inst 20) (regField inst 16) (regField inst 0) (regField inst 8) =
      some B at hexec
    unfold execMultiply at hexec
    split at hexec
    · cases hexec
    rename_i hpc
    obtain ⟨hd, hm, hs⟩ : regField inst 16 ≠ 15 ∧ regField inst 0 ≠ 15 ∧ regField inst 8 ≠ 15 :=
      ⟨fun hd => hpc (Or.inl hd), fun hm => hpc (Or.inr (Or.inl hm)),
        fun hs => hpc (Or.inr (Or.inr hs))⟩
    have hpattern : getBits inst 7 4 = 0b1001 := by
      have hfour := bit_eq_true_iff.mp h4
      have hfive := bit_eq_false_iff.mp h5
      have hsix := bit_eq_false_iff.mp h6
      have hseven := bit_eq_true_iff.mp h7
      rw [getBit_eq_div] at hfour hfive hsix hseven
      rw [getBits_eq]
      omega
    have hmultiply : IsMultiply inst := ⟨hop, hpattern, fun he => hd (Fin.ext he),
      fun he => hs (Fin.ext he), fun he => hm (Fin.ext he)⟩
    have hproduct : product p.advance inst =
        A.value (regField inst 0) * A.value (regField inst 8) := by
      have hrm : p.advance.gp (getBits inst 3 0) = A.value (regField inst 0) :=
        h.gp_advance (r := regField inst 0) hm
      have hrs : p.advance.gp (getBits inst 11 8) = A.value (regField inst 8) :=
        h.gp_advance (r := regField inst 8) hs
      rw [product, hrm, hrs]
    have hrun := multiply_run env hmultiply (hcell _) (hcell _) (hcell _)
    obtain ⟨C, hwrite, hB⟩ := Option.map_eq_some_iff.mp hexec
    rw [← hproduct] at hwrite hB
    have hC : Represents start K C (p.advance.setGp (regField inst 16) (product p.advance inst)) :=
      hnext.write hwrite
    have hflags := multiply_settles_right hC (bit inst 20) (product p.advance inst)
    have hcpsr : (p.advance.setGp (regField inst 16) (product p.advance inst)).cpsr =
        p.advance.cpsr := setCell_cpsr _ _ (bankCell_ne_cpsr (Fin.isLt _) hnext.bank_lt).symm
    rw [hcpsr, (Machine.write_frame hwrite).1] at hflags
    subst hB
    exact simulated_of_body hrun hflags
  · cases hmul

end words

end Arch
end ArmSim
