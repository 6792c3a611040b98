import ArmSim.BlockTransfer

/-! Multiple transfers with the S bit: the return from an exception, and the transfer of
the user's registers out of another mode. -/
namespace ArmSim
open Lib

/-- The cells that the pointers of bank `m` lead to. -/
def ModeCell (m : ℕ) (c : Cell) : Prop :=
  ∃ reg, (reg < 16 ∨ reg = SPSR) ∧ bankPointer reg m = .ok c

theorem modeCell_ne_cpsr {m : ℕ} {c : Cell} (h : ModeCell m c) : c ≠ cpsrCell := by
  obtain ⟨reg, hreg, hp⟩ := h
  have hcell := bankPointer_reg hp
  rintro rfl
  have h16 : reg = 16 := hcell.symm
  rcases hreg with hlt | rfl
  · omega
  · exact absurd h16 (by decide)

theorem bankCell_spsr_reg {m : ℕ} (h2 : 2 ≤ m) (hm : m < 7) : (bankCell SPSR m).reg = SPSR :=
  bankPointer_reg (bankPointer_spsr h2 hm)

theorem blockSize_toNat (ins : Word) : (blockSize ins).toNat = 4 * (registersOf ins).length := by
  have hle := countBelow_le (listOf ins) 16
  rw [blockSize, length_registersOf, BitVec.toNat_ofNat]
  omega

/-- Sixteen words do not bring a base back to itself. -/
theorem blockBase_eq_self_iff (ins base : Word) :
    blockBase ins base = base ↔ registersOf ins = [] := by
  have hsize := blockSize_toNat ins
  have hle := countBelow_le (listOf ins) 16
  rw [← length_registersOf] at hle
  have hzero : blockBase ins base = base ↔ (blockSize ins).toNat = 0 := by
    unfold blockBase
    split <;> bv_omega
  rw [hzero, ← List.length_eq_zero_iff]
  omega

section transfer
variable [Platform]

/-- The SPSR of the current mode. -/
def ArmCore.spsr (p : ArmCore) : Word := p.reg.get (bankCell SPSR p.bank)

section exceptionReturn

/-- `LDM` with the S bit, a write-back and the pc in its list. -/
structure IsExceptionReturn (ins : Word) : Prop where
  load : getBit ins 20 = 1
  writeBack : getBit ins 21 = 1
  spsr : getBit ins 22 = 1
  pc : getBit ins 15 = 1
  baseUnlisted : getBits ins 19 16 ∉ registersOf ins

omit [Platform] in
theorem IsExceptionReturn.base_ne {ins : Word} (h : IsExceptionReturn ins) :
    getBits ins 19 16 ≠ 15 := by
  intro he
  apply h.baseUnlisted
  rw [he]
  exact mem_registersOf.mpr ⟨by decide, h.pc⟩

/-- The return as it should be: the base of the mode it began in has moved, the CPSR is that
mode's SPSR, and of the new mode's cells only those shared with the old one have changed. -/
def ReturnsRight (env : Env) (p : ArmCore) (ins : Word) : Prop :=
  ∃ q, armLoadStoreMultiple env p ins = .ok (0, q) ∧
    q.reg.get (bankCell (getBits ins 19 16) p.bank) =
      blockBase ins (p.gp (getBits ins 19 16)) ∧
    q.cpsr = p.spsr ∧
    ∀ c, ModeCell (bankOf p.spsr) c → ¬ModeCell p.bank c → q.reg c = p.reg c

variable {p : ArmCore} {ins : Word}

/-- The CPSR is restored before the base is written. -/
theorem exceptionReturn_run (env : Env) (hs : 2 ≤ p.bank) (hb : p.bank < 6)
    (h : IsExceptionReturn ins) (hnew : bankOf p.spsr < 6)
    (hin : ∀ k < (registersOf ins).length,
      p.mem.InRange (blockWord ins (p.gp (getBits ins 19 16)) k) 4) :
    ∃ s, armLoadStoreMultiple env p ins = .ok (0, (armWriteCpsr s p.spsr).setCell
        (bankCell (getBits ins 19 16) (bankOf p.spsr))
        (blockBase ins (p.gp (getBits ins 19 16)))) ∧
      ChangesOnly p s (fun i => i ∈ registersOf ins) (fun _ => False) := by
  rw [← operand_of_ne h.base_ne] at hin ⊢
  obtain ⟨s, hrun, hbank, -, hchanges⟩ :=
    load_loop env (hasCell_of_bank hb _) (listedCells_of_bank hb _) h.load hin
  refine ⟨s.p, hrun.trans ?_, hchanges⟩
  -- The loop has written general registers only.
  have hspsr : s.p.reg.get (bankCell SPSR s.p.bank) = p.spsr := by
    rw [hbank]
    apply Registers.get_congr
    apply hchanges.cells
    intro i hi _ he
    have hreg := bankCell_spsr_reg hs p.reg.bank_lt
    rw [he, bankCell_reg hi hb] at hreg
    exact absurd (hreg ▸ hi) (by decide)
  have hrestored : (armWriteCpsr s.p p.spsr).bank < 6 := hnew
  have hn : getBits ins 19 16 < 16 := getBits_lt_sixteen ins rfl
  have hwrite := armWriteRegister_eq hn hrestored
    (blockBase ins (p.operand (getBits ins 19 16)))
  have hcond : getBit ins 20 ≠ 0 ∧ getBit ins 22 ≠ 0 ∧ getBit ins 15 ≠ 0 := by
    simp [h.load, h.spsr, h.pc]
  -- The base goes to the cell that the restored CPSR selects.
  unfold multipleEnd
  rw [if_pos hcond, armReadSpsr_eq (hbank ▸ hs), hspsr]
  simp only [ok_bind, pure_eq_ok, if_pos h.writeBack, hwrite]
  rfl

/-- The base is right, and the new mode's own registers stay, exactly where the cell
written is one of the old mode's. -/
theorem returnsRight_iff_cell (env : Env) (hs : 2 ≤ p.bank) (hb : p.bank < 6)
    (h : IsExceptionReturn ins) (hnew : bankOf p.spsr < 6)
    (hin : ∀ k < (registersOf ins).length,
      p.mem.InRange (blockWord ins (p.gp (getBits ins 19 16)) k) 4) :
    ReturnsRight env p ins ↔
      bankCell (getBits ins 19 16) (bankOf p.spsr) = bankCell (getBits ins 19 16) p.bank := by
  have hn : getBits ins 19 16 < 16 := getBits_lt_sixteen ins rfl
  obtain ⟨s, hrun, hchanges⟩ := exceptionReturn_run env hs hb h hnew hin
  have hold := bankCell_ne_cpsr hn hb
  constructor
  · rintro ⟨q, hq, hbase, -, -⟩
    rw [hrun] at hq
    cases hq
    by_contra hne
    -- The old base has not been written, and the list is not empty.
    have hkept : (((armWriteCpsr s p.spsr).setCell
        (bankCell (getBits ins 19 16) (bankOf p.spsr))
        (blockBase ins (p.gp (getBits ins 19 16)))).reg.get
          (bankCell (getBits ins 19 16) p.bank)) = p.gp (getBits ins 19 16) := by
      apply Registers.get_congr
      rw [setCell_cell _ _ (Ne.symm hne), armWriteCpsr_cell _ _ hold]
      apply hchanges.cells
      intro i hi hli
      apply bankCell_ne hn hi hb hb
      rintro rfl
      exact h.baseUnlisted hli
    rw [hkept] at hbase
    have hempty := (blockBase_eq_self_iff ins _).mp hbase.symm
    have hpc := mem_registersOf.mpr ⟨by decide, h.pc⟩
    rw [hempty] at hpc
    exact List.not_mem_nil hpc
  · -- One cell in both modes: what is written there is the old mode's base.
    intro heq
    refine ⟨_, hrun, ?_, ?_, ?_⟩
    · rw [← heq]
      exact Registers.get_set_self _ _ _
    · rw [setCell_cpsr _ _ (heq ▸ hold.symm)]
      exact armWriteCpsr_cpsr s p.spsr
    · intro c hc hnot
      have hmode (i : ℕ) (hi : i < 16) : c ≠ bankCell i p.bank := by
        rintro rfl
        exact hnot ⟨i, Or.inl hi, bankPointer_general hi hb⟩
      rw [setCell_cell _ _ (heq ▸ hmode _ hn), armWriteCpsr_cell _ _ (modeCell_ne_cpsr hc)]
      exact hchanges.cells c (fun i hi _ => hmode i hi)

/-- The return from an exception is right exactly where the base is shared by all modes or
the mode stays. -/
theorem exception_return_iff (env : Env) (p : ArmCore) (hs : 2 ≤ p.bank) (hb : p.bank < 6)
    (ins : Word) (h : IsExceptionReturn ins) (hnew : bankOf p.spsr < 6)
    (hin : ∀ k < (registersOf ins).length,
      p.mem.InRange (blockWord ins (p.gp (getBits ins 19 16)) k) 4) :
    ReturnsRight env p ins ↔ getBits ins 19 16 < 13 ∨ bankOf p.spsr = p.bank := by
  have hn : getBits ins 19 16 < 16 := getBits_lt_sixteen ins rfl
  have h15 := h.base_ne
  rw [returnsRight_iff_cell env hs hb h hnew hin]
  by_cases hreg : getBits ins 19 16 = SP ∨ getBits ins 19 16 = LR
  · -- A banked base; the old mode's is its own.
    have hhigh : ¬getBits ins 19 16 < 13 := by
      rcases hreg with he | he <;> rw [he] <;> decide
    rw [bankCell_banked hreg hnew hb]
    unfold SameStack
    omega
  · -- The others have one cell in all modes but the fast interrupt's.
    obtain ⟨hsp, hlr⟩ := not_or.mp hreg
    have hshared := bankCell_shared hn hsp hlr hnew hb
    have hlow : getBits ins 19 16 < 13 := by
      have hsp' : getBits ins 19 16 ≠ 13 := hsp
      have hlr' : getBits ins 19 16 ≠ 14 := hlr
      omega
    exact iff_of_true hshared (Or.inl hlow)

end exceptionReturn

/-! The user's registers. -/

/-- What `arm_read_usr_register` returns. -/
def ArmCore.userOperand (p : ArmCore) (reg : ℕ) : Word :=
  if reg = 15 then (p.reg.get (bankCell reg 0) + 4) &&& 0xFFFFFFFD
  else p.reg.get (bankCell reg 0)

theorem armReadUsrRegister_eq (p : ArmCore) {reg : ℕ} (hr : reg < 16) :
    armReadUsrRegister p reg = .ok (p.userOperand reg) := by
  unfold armReadUsrRegister armReadRegisterInternal ArmCore.userOperand
  rw [registersRead_eq]
  change bankPointer reg 0 >>= _ >>= _ = _
  rw [bankPointer_general hr (by decide)]
  simp only [ok_bind]
  split <;> rfl

/-- The current mode has a cell of its own for register `reg`. -/
def ArmCore.Banked (p : ArmCore) (reg : ℕ) : Prop := bankCell reg p.bank ≠ bankCell reg 0

instance (p : ArmCore) (reg : ℕ) : Decidable (p.Banked reg) :=
  inferInstanceAs (Decidable (_ ≠ _))

omit [Platform] in
theorem pc_not_banked (p : ArmCore) : ¬p.Banked 15 := by
  have hshared : ∀ m < 7, bankCell 15 m = bankCell 15 0 := by decide
  exact not_not.mpr (hshared p.bank p.reg.bank_lt)

theorem operand_of_banked {p : ArmCore} {reg : ℕ} (h : p.Banked reg) :
    p.operand reg = p.gp reg := by
  apply operand_of_ne
  rintro rfl
  exact pc_not_banked p h

theorem gp_eq_user {p : ArmCore} {reg : ℕ} (h : ¬p.Banked reg) :
    p.gp reg = p.reg.get (bankCell reg 0) := by
  unfold ArmCore.Banked at h
  rw [not_not] at h
  rw [ArmCore.gp, h]

theorem operand_eq_user_iff (p : ArmCore) (reg : ℕ) :
    p.operand reg = p.userOperand reg ↔ p.gp reg = p.reg.get (bankCell reg 0) := by
  unfold ArmCore.operand ArmCore.userOperand
  by_cases h : reg = 15
  · have hpc := gp_eq_user (h ▸ pc_not_banked p : ¬p.Banked reg)
    rw [if_pos h, if_pos h, hpc]
    exact iff_of_true rfl rfl
  · rw [if_neg h, if_neg h]

section cells
variable {p : ArmCore} {ins : Word}

/-- A transfer that returns has found a cell for each register of its list. -/
theorem multipleLoop_cells (p : ArmCore) (L : ℕ) (registerList : BitVec 16) (start data : Word) :
    Ends ((List.range 16).foldlM (multipleStep L registerList) ⟨start, data, p⟩)
      (fun _ => ListedCells p registerList) (fun _ => True) := by
  -- The mode stays during the loop, so each round looks for its cell where the first does.
  have hloop := ends_foldlM_range (E := fun _ => True)
    (fun n s => LoopReaches p registerList start n s ∧
      ∀ i < n, getBit registerList i ≠ 0 → p.HasCell i)
    (multipleStep L registerList) 16 ⟨start, data, p⟩
    ⟨LoopReaches.start .., fun i hi => absurd hi (by omega)⟩ ?_
  · exact hloop.imp (fun _ h => h.2)
  · rintro n hn s ⟨hreach, hbelow⟩
    have hbank : s.p.bank = p.bank := bank_congr hreach.cpsr
    have hnext : Ends (multipleStep L registerList s n)
        (fun _ => getBit registerList n ≠ 0 → p.HasCell n) (fun _ => True) := by
      have hcell (h : s.p.HasCell n) : getBit registerList n ≠ 0 → p.HasCell n :=
        fun _ => (hasCell_congr hbank n).mp h
      unfold multipleStep
      refine ends_ite (fun _ => ends_ite (fun _ => ?_) (fun _ => ?_)) (fun h0 hl => absurd hl h0)
      · apply (ends_trivial _).bind
        intro r _
        apply ((armWriteRegister_cell s.p hn _).mono (fun _ h => h) (fun _ _ => trivial)).bind
        exact fun q hq => hcell hq.1
      · apply ((armReadRegister_cell s.p hn).mono (fun _ h => h) (fun _ _ => trivial)).bind
        intro v hv
        exact (ends_trivial _).bind (fun _ _ => hcell hv)
    refine ends_of_value ?_ (fun _ _ => trivial)
    intro t ht
    exact ⟨(multipleStep_ends p L registerList start hn hreach).value ht,
      forall_listed_succ hbelow (hnext.value ht)⟩

theorem multiple_cells (env : Env) {r : ℤ × ArmCore}
    (h : armLoadStoreMultiple env p ins = .ok r) :
    p.HasCell (getBits ins 19 16) ∧ ListedCells p (listOf ins) := by
  rw [armLoadStoreMultiple_eq] at h
  obtain ⟨base, hread, hrest⟩ := bind_eq_ok.mp h
  obtain ⟨s, hloop, -⟩ := bind_eq_ok.mp hrest
  exact ⟨(armReadRegister_cell p (getBits_lt_sixteen ins rfl)).value hread,
    (multipleLoop_cells p _ _ _ _).value hloop⟩

end cells

section userBlock

/-- `LDM` with the S bit and without the pc, or `STM` with the S bit and no write-back. -/
structure IsUserBlock (ins : Word) : Prop where
  spsr : getBit ins 22 = 1
  load : getBit ins 20 = 1 → getBit ins 15 = 0
  store : getBit ins 20 = 0 → getBit ins 21 = 0

/-- The word at the `k`-th place of the block that the current mode's base selects. -/
def wordOfBlock (mem : Memory) (p : ArmCore) (ins : Word) (k : ℕ) : Word :=
  mem.wordAt (blockWord ins (p.operand (getBits ins 19 16)) k) ENDIANESS

/-- The transfer as it should be: a load fills the user's cells and leaves the current mode's
own, a store takes the user's values. -/
def TransfersUser (env : Env) (p : ArmCore) (ins : Word) : Prop :=
  ∃ q, armLoadStoreMultiple env p ins = .ok (0, q) ∧
    (getBit ins 20 = 1 → ∀ k reg, (registersOf ins)[k]? = some reg →
      q.reg.get (bankCell reg 0) = wordOfBlock p.mem p ins k) ∧
    (getBit ins 20 = 1 → ∀ c, ModeCell p.bank c → ¬ModeCell 0 c → q.reg c = p.reg c) ∧
    (getBit ins 20 = 0 → ∀ k reg, (registersOf ins)[k]? = some reg →
      armReadUsrRegister p reg = .ok (wordOfBlock q.mem p ins k))

/-- Nothing tells the two banks apart: the registers have cells, a banked register of a load
holds its word in both banks already, one of a store has one value in both, and the base that
is written back is that of a list it does not disturb. -/
structure BanksAgree (p : ArmCore) (ins : Word) : Prop where
  base : p.HasCell (getBits ins 19 16)
  cells : ListedCells p (listOf ins)
  load : getBit ins 20 = 1 → ∀ k reg, (registersOf ins)[k]? = some reg → p.Banked reg →
    p.reg.get (bankCell reg 0) = wordOfBlock p.mem p ins k ∧ p.gp reg = wordOfBlock p.mem p ins k
  store : getBit ins 20 = 0 → ∀ reg ∈ registersOf ins, p.gp reg = p.reg.get (bankCell reg 0)
  bankedBase : getBit ins 21 = 1 → p.Banked (getBits ins 19 16) → registersOf ins = []
  sharedBase : getBit ins 21 = 1 → ¬p.Banked (getBits ins 19 16) →
    ∀ k, (registersOf ins)[k]? = some (getBits ins 19 16) →
      blockBase ins (p.operand (getBits ins 19 16)) = wordOfBlock p.mem p ins k

/-- What the source's load does: all goes through the current bank. -/
structure LoadedCurrent (p q : ArmCore) (ins : Word) : Prop where
  base : getBit ins 21 = 1 → q.reg.get (bankCell (getBits ins 19 16) p.bank) =
    blockBase ins (p.operand (getBits ins 19 16))
  word : ∀ k reg, (registersOf ins)[k]? = some reg →
    ¬(getBit ins 21 = 1 ∧ reg = getBits ins 19 16) →
      q.reg.get (bankCell reg p.bank) = wordOfBlock p.mem p ins k
  frame : ∀ c, (∀ reg ∈ registersOf ins, c ≠ bankCell reg p.bank) →
    (getBit ins 21 = 1 → c ≠ bankCell (getBits ins 19 16) p.bank) → q.reg c = p.reg c

variable {p : ArmCore} {ins : Word}

omit [Platform] in
theorem IsUserBlock.loads_ne_pc (h : IsUserBlock ins) (hL : getBit ins 20 = 1) {reg : ℕ}
    (hreg : reg ∈ registersOf ins) : reg ≠ 15 := by
  rintro rfl
  have hlisted := (mem_registersOf.mp hreg).2
  rw [h.load hL] at hlisted
  exact absurd hlisted (by decide)

/-- A load without the pc returns from the current mode's cells. -/
theorem userLoad_run (env : Env) (h : IsUserBlock ins) (hL : getBit ins 20 = 1)
    (hn : p.HasCell (getBits ins 19 16)) (hcells : ListedCells p (listOf ins))
    (hin : ∀ k < (registersOf ins).length,
      p.mem.InRange (blockWord ins (p.operand (getBits ins 19 16)) k) 4) :
    ∃ q, armLoadStoreMultiple env p ins = .ok (0, q) ∧ LoadedCurrent p q ins := by
  have hn16 : getBits ins 19 16 < 16 := getBits_lt_sixteen ins rfl
  obtain ⟨s, hrun, hbank, hwords, hchanges⟩ := load_loop env hn hcells hL hin
  have hns : s.p.HasCell (getBits ins 19 16) := (hasCell_congr hbank _).mpr hn
  rw [multipleEnd_eq hns (Or.inr (Or.inr (h.load hL)))] at hrun
  have hcell (reg : ℕ) : s.p.gp reg = s.p.reg.get (bankCell reg p.bank) := by
    rw [ArmCore.gp, hbank]
  refine ⟨_, hrun, ?_, ?_, ?_⟩
  · intro hW
    rw [ArmCore.setGpIf, if_pos hW, ArmCore.setGp, hbank]
    exact Registers.get_set_self _ _ _
  · intro k reg hk hnot
    obtain ⟨hreg, hl, -⟩ := registersOf_getElem? hk
    have hword := hwords k reg hk
    have hpc := h.loads_ne_pc hL (List.mem_of_getElem? hk)
    rw [hcell, loadedWord, if_neg hpc] at hword
    unfold wordOfBlock
    rw [← hword]
    unfold ArmCore.setGpIf
    by_cases hW : getBit ins 21 = 1
    · -- The base is written after the list.
      have hne : reg ≠ getBits ins 19 16 := fun he => hnot ⟨hW, he⟩
      have hlisted := hcells reg hreg ((listed_iff hreg).mpr hl)
      rw [if_pos hW, ArmCore.setGp, hbank]
      exact Registers.get_set_of_ne _ _ (bankCell_ne_hasCell hreg hn16 hlisted hn hne)
    · rw [if_neg hW]
  · intro c hlist hbase
    have hloop := hchanges.cells c (fun i _ hi => hlist i hi)
    unfold ArmCore.setGpIf
    by_cases hW : getBit ins 21 = 1
    · rw [if_pos hW, ← hloop]
      exact setCell_cell _ _ (hbank ▸ hbase hW)
    · rw [if_neg hW, hloop]

omit [Platform] in
/-- The cells of the current mode's own registers. -/
theorem modeCell_own {reg : ℕ} (hr : reg < 16) (hcell : p.HasCell reg) (hb : p.Banked reg) :
    ModeCell p.bank (bankCell reg p.bank) ∧ ¬ModeCell 0 (bankCell reg p.bank) := by
  refine ⟨⟨reg, Or.inl hr, bankPointer_hasCell hr hcell⟩, ?_⟩
  rintro ⟨reg', hr', hp⟩
  obtain rfl : reg = reg' := (bankCell_reg_hasCell hr hcell).symm.trans (bankPointer_reg hp)
  rw [bankPointer_general hr (by decide)] at hp
  exact hb (Except.ok.inj hp).symm

omit [Platform] in
/-- A cell that the user's pointers do not lead to is that of a banked register. -/
theorem banked_of_not_user {reg : ℕ} (hr : reg < 16) (hcell : p.HasCell reg) {c : Cell}
    (hp : bankPointer reg p.bank = .ok c) (hnot : ¬ModeCell 0 c) :
    c = bankCell reg p.bank ∧ p.Banked reg := by
  obtain rfl := ok_unique (bankPointer_hasCell hr hcell) hp
  refine ⟨rfl, ?_⟩
  intro hshared
  exact hnot ⟨reg, Or.inl hr, hshared ▸ bankPointer_general hr (by decide)⟩

omit [Platform] in
/-- A register's cell of one bank is no other register's cell of another. -/
theorem userCell_ne {reg reg' : ℕ} (hr : reg < 16) (hr' : reg' < 16) (hcell : p.HasCell reg')
    (h : reg = reg' → p.Banked reg) : bankCell reg 0 ≠ bankCell reg' p.bank := by
  intro he
  have hreg : reg = reg' := by
    rw [← bankCell_reg hr (by decide : 0 < 6), he, bankCell_reg_hasCell hr' hcell]
  subst hreg
  exact h rfl he.symm

/-- The user's cell of a register banked now is not written at all. -/
theorem LoadedCurrent.user {q : ArmCore} (hq : LoadedCurrent p q ins)
    (hn : p.HasCell (getBits ins 19 16)) (hcells : ListedCells p (listOf ins)) {reg : ℕ}
    (hr : reg < 16) (hb : p.Banked reg) :
    q.reg.get (bankCell reg 0) = p.reg.get (bankCell reg 0) := by
  apply Registers.get_congr
  apply hq.frame
  · intro reg' hreg'
    obtain ⟨hr', hl⟩ := mem_registersOf.mp hreg'
    exact userCell_ne hr hr' (hcells reg' hr' ((listed_iff hr').mpr hl)) (fun _ => hb)
  · exact fun _ => userCell_ne hr (getBits_lt_sixteen ins rfl) hn (fun _ => hb)

theorem LoadedCurrent.agrees {q : ArmCore} (hq : LoadedCurrent p q ins) (hL : getBit ins 20 = 1)
    (hn : p.HasCell (getBits ins 19 16)) (hcells : ListedCells p (listOf ins))
    (huser : ∀ k reg, (registersOf ins)[k]? = some reg →
      q.reg.get (bankCell reg 0) = wordOfBlock p.mem p ins k)
    (hown : ∀ c, ModeCell p.bank c → ¬ModeCell 0 c → q.reg c = p.reg c) : BanksAgree p ins := by
  have hn16 : getBits ins 19 16 < 16 := getBits_lt_sixteen ins rfl
  -- The current mode's own cells are to stay, so each holds what the load put there already.
  have hkept {reg : ℕ} (hr : reg < 16) (hcell : p.HasCell reg) (hb : p.Banked reg) :
      q.reg.get (bankCell reg p.bank) = p.gp reg := by
    obtain ⟨hmode, hnot⟩ := modeCell_own hr hcell hb
    exact Registers.get_congr (hown _ hmode hnot)
  have hempty (hW : getBit ins 21 = 1) (hb : p.Banked (getBits ins 19 16)) :
      registersOf ins = [] := by
    have hbase := hq.base hW
    rw [hkept hn16 hn hb, operand_of_banked hb] at hbase
    exact (blockBase_eq_self_iff ins _).mp hbase.symm
  refine ⟨hn, hcells, ?_, ?_, hempty, ?_⟩
  · intro _ k reg hk hb
    obtain ⟨hreg, hl, -⟩ := registersOf_getElem? hk
    have hcell := hcells reg hreg ((listed_iff hreg).mpr hl)
    refine ⟨(hq.user hn hcells hreg hb).symm.trans (huser k reg hk), ?_⟩
    rw [← hkept hreg hcell hb]
    apply hq.word k reg hk
    -- A banked base that is written back has no list.
    rintro ⟨hW, rfl⟩
    rw [hempty hW hb] at hk
    cases hk
  · intro h0
    omega
  · -- A shared base is the user's as well, and the write-back came last.
    intro hW hb k hk
    calc
      blockBase ins (p.operand (getBits ins 19 16)) =
          q.reg.get (bankCell (getBits ins 19 16) p.bank) := (hq.base hW).symm
      _ = q.reg.get (bankCell (getBits ins 19 16) 0) := congrArg q.reg.get (not_not.mp hb)
      _ = wordOfBlock p.mem p ins k := huser k _ hk

theorem BanksAgree.load_user {q : ArmCore} (h : BanksAgree p ins) (hq : LoadedCurrent p q ins)
    (hL : getBit ins 20 = 1) {k reg : ℕ} (hk : (registersOf ins)[k]? = some reg) :
    q.reg.get (bankCell reg 0) = wordOfBlock p.mem p ins k := by
  obtain ⟨hreg, -, -⟩ := registersOf_getElem? hk
  by_cases hb : p.Banked reg
  · -- The load went to the other cell.
    rw [hq.user h.base h.cells hreg hb]
    exact (h.load hL k reg hk hb).1
  · have hcell : bankCell reg p.bank = bankCell reg 0 := not_not.mp hb
    rw [← hcell]
    by_cases hback : getBit ins 21 = 1 ∧ reg = getBits ins 19 16
    · obtain ⟨hW, rfl⟩ := hback
      rw [hq.base hW]
      exact h.sharedBase hW hb k hk
    · exact hq.word k reg hk hback

theorem BanksAgree.load_own {q : ArmCore} (h : BanksAgree p ins) (hq : LoadedCurrent p q ins)
    (hL : getBit ins 20 = 1) {c : Cell} (hc : ModeCell p.bank c) (hnot : ¬ModeCell 0 c) :
    q.reg c = p.reg c := by
  obtain ⟨reg, hreg, hp⟩ := hc
  have hcreg := bankPointer_reg hp
  have hn16 : getBits ins 19 16 < 16 := getBits_lt_sixteen ins rfl
  have hlisted {i : ℕ} (hi : i ∈ registersOf ins) : i < 16 ∧ p.HasCell i := by
    obtain ⟨hi16, hl⟩ := mem_registersOf.mp hi
    exact ⟨hi16, h.cells i hi16 ((listed_iff hi16).mpr hl)⟩
  -- A cell of register `reg` is written as that register's or not at all.
  have hother {i : ℕ} (hi : i < 16) (hcell : p.HasCell i) (hne : reg ≠ i) :
      c ≠ bankCell i p.bank := by
    rintro rfl
    exact hne (hcreg.symm.trans (bankCell_reg_hasCell hi hcell))
  by_cases hmem : reg ∈ registersOf ins
  · obtain ⟨k, hk⟩ := List.mem_iff_getElem?.mp hmem
    obtain ⟨hreg16, hcell⟩ := hlisted hmem
    obtain ⟨rfl, hb⟩ := banked_of_not_user hreg16 hcell hp hnot
    apply Registers.get_injective
    refine (hq.word k reg hk ?_).trans (h.load hL k reg hk hb).2.symm
    rintro ⟨hW, rfl⟩
    rw [h.bankedBase hW hb] at hmem
    exact List.not_mem_nil hmem
  · by_cases hback : getBit ins 21 = 1 ∧ reg = getBits ins 19 16
    · -- The base moves by the size of an empty list.
      obtain ⟨hW, rfl⟩ := hback
      obtain ⟨rfl, hb⟩ := banked_of_not_user hn16 h.base hp hnot
      apply Registers.get_injective
      rw [hq.base hW, operand_of_banked hb]
      exact (blockBase_eq_self_iff ins _).mpr (h.bankedBase hW hb)
    · apply hq.frame
      · intro i hi
        obtain ⟨hi16, hcell⟩ := hlisted hi
        exact hother hi16 hcell (fun he => hmem (he ▸ hi))
      · exact fun hW => hother hn16 h.base (fun he => hback ⟨hW, he⟩)

/-- A store takes the current mode's values. -/
theorem userStore_run (env : Env) (h : IsUserBlock ins) (hL : getBit ins 20 = 0)
    (hn : p.HasCell (getBits ins 19 16)) (hcells : ListedCells p (listOf ins))
    (hin : ∀ k < (registersOf ins).length,
      p.mem.InRange (blockWord ins (p.operand (getBits ins 19 16)) k) 4) :
    ∃ q, armLoadStoreMultiple env p ins = .ok (0, q) ∧
      ∀ k reg, (registersOf ins)[k]? = some reg → wordOfBlock q.mem p ins k = p.operand reg := by
  have hW : getBit ins 21 ≠ 1 := by
    rw [h.store hL]
    decide
  obtain ⟨s, hrun, hreg, hwords, -⟩ := store_loop env hn hcells hL hin
  have hbank : s.p.bank = p.bank := by simp only [ArmCore.bank, hreg]
  rw [multipleEnd_eq ((hasCell_congr hbank _).mpr hn) (Or.inl hL), ArmCore.setGpIf,
    if_neg hW] at hrun
  exact ⟨s.p, hrun, hwords⟩

/-- A multiple transfer with the S bit works on the user's registers exactly where the banks
of the user and of the current mode cannot be told apart. -/
theorem user_block_iff (env : Env) (p : ArmCore) (ins : Word) (h : IsUserBlock ins)
    (hin : p.HasCell (getBits ins 19 16) → ∀ k < (registersOf ins).length,
      p.mem.InRange (blockWord ins (p.operand (getBits ins 19 16)) k) 4) :
    TransfersUser env p ins ↔ BanksAgree p ins := by
  rcases getBit_zero_or_one ins 20 with hL | hL
  · -- `STM`: the values stored are compared.
    constructor
    · rintro ⟨q, hq, -, -, hstore⟩
      obtain ⟨hn, hcells⟩ := multiple_cells env hq
      obtain ⟨q', hq', hwords⟩ := userStore_run env h hL hn hcells (hin hn)
      obtain rfl : q = q' := ok_unique_snd hq hq'
      refine ⟨hn, hcells, ?_, ?_, ?_, ?_⟩
      · intro hL'
        omega
      · intro _ reg hreg
        obtain ⟨k, hk⟩ := List.mem_iff_getElem?.mp hreg
        have huser := hstore hL k reg hk
        rw [armReadUsrRegister_eq p (mem_registersOf.mp hreg).1, hwords k reg hk] at huser
        exact (operand_eq_user_iff p reg).mp (Except.ok.inj huser).symm
      · intro hW
        exact absurd hW (by rw [h.store hL]; decide)
      · intro hW
        exact absurd hW (by rw [h.store hL]; decide)
    · intro hagree
      obtain ⟨q, hq, hwords⟩ :=
        userStore_run env h hL hagree.base hagree.cells (hin hagree.base)
      refine ⟨q, hq, ?_, ?_, ?_⟩
      · intro hL'
        omega
      · intro hL'
        omega
      · intro _ k reg hk
        have hreg := List.mem_of_getElem? hk
        rw [armReadUsrRegister_eq p (mem_registersOf.mp hreg).1, hwords k reg hk,
          (operand_eq_user_iff p reg).mpr (hagree.store hL reg hreg)]
  · -- `LDM`: the cells written are compared.
    constructor
    · rintro ⟨q, hq, huser, hown, -⟩
      obtain ⟨hn, hcells⟩ := multiple_cells env hq
      obtain ⟨q', hq', hloaded⟩ := userLoad_run env h hL hn hcells (hin hn)
      obtain rfl : q = q' := ok_unique_snd hq hq'
      exact hloaded.agrees hL hn hcells (huser hL) (hown hL)
    · intro hagree
      obtain ⟨q, hq, hloaded⟩ := userLoad_run env h hL hagree.base hagree.cells (hin hagree.base)
      refine ⟨q, hq, ?_, ?_, ?_⟩
      · exact fun _ k reg hk => hagree.load_user hloaded hL hk
      · exact fun _ c hc hnot => hagree.load_own hloaded hL hc hnot
      · intro h0
        omega

end userBlock

end transfer

/-- Supervisor mode with the user's CPSR in its SPSR. -/
abbrev supervisorOfUser : ArmCore :=
  @ArmCore.setCell makefile (ArmCore.boot 0x13 [0, 0, 0, 0]) (bankCell SPSR 2) 0x10

/-- `LDMIA r0!, {pc}^` in supervisor mode. -/
theorem exception_return_shared : @ReturnsRight makefile ⟨0, 0, 0, 0⟩ supervisorOfUser 0xE8F08000 :=
  (@exception_return_iff makefile _ _ (by decide) (by decide) _
    ⟨by decide, by decide, by decide, by decide, by decide⟩ (by decide) (by decide)).mpr
      (Or.inl (by decide))

/-- `LDMIA sp!, {pc}^` in supervisor mode moves the stack pointer of the user. -/
theorem exception_return_user_sp :
    2 ≤ supervisorOfUser.bank ∧ supervisorOfUser.bank < 6 ∧ IsExceptionReturn 0xE8FD8000 ∧
      bankOf (@ArmCore.spsr makefile supervisorOfUser) < 6 ∧
      (∀ k < (registersOf 0xE8FD8000).length, supervisorOfUser.mem.InRange
        (blockWord 0xE8FD8000 (@ArmCore.gp makefile supervisorOfUser SP) k) 4) ∧
      ¬@ReturnsRight makefile ⟨0, 0, 0, 0⟩ supervisorOfUser 0xE8FD8000 := by
  have hreturn : IsExceptionReturn 0xE8FD8000 :=
    ⟨by decide, by decide, by decide, by decide, by decide⟩
  refine ⟨by decide, by decide, hreturn, by decide, by decide, ?_⟩
  intro h
  have hcell := (@returnsRight_iff_cell makefile _ _ ⟨0, 0, 0, 0⟩ (by decide) (by decide) hreturn
    (by decide) (by decide)).mp h
  exact absurd hcell (by decide)

/-- `LDMIA r0, {r1}^` in supervisor mode. -/
theorem user_block_shared :
    @TransfersUser makefile ⟨0, 0, 0, 0⟩ (ArmCore.boot 0x13 [0, 0, 0, 7]) 0xE8D00002 := by
  have hlist : registersOf 0xE8D00002 = [1] := by decide
  apply (@user_block_iff makefile _ _ _ ⟨by decide, by decide, by decide⟩
    (fun _ => by decide)).mpr
  refine @BanksAgree.mk makefile _ _ (by decide) (by decide) ?_ (by decide) (by decide)
    (fun hW => absurd hW (by decide))
  intro _ k reg hk hb
  -- Of the list only `r1` is left, which is not banked.
  have hmem := List.mem_of_getElem? hk
  rw [hlist, List.mem_singleton] at hmem
  rw [hmem] at hb
  exact absurd hb (by decide)

/-- `LDMIA r0, {sp}^` in supervisor mode leaves the user's stack pointer as it was. -/
theorem user_block_sp :
    2 ≤ (ArmCore.boot 0x13 [0, 0, 0, 7]).bank ∧ IsUserBlock 0xE8D02000 ∧
      (∀ k < (registersOf 0xE8D02000).length, (ArmCore.boot 0x13 [0, 0, 0, 7]).mem.InRange
        (blockWord 0xE8D02000 (@ArmCore.operand makefile (ArmCore.boot 0x13 [0, 0, 0, 7]) 0) k)
          4) ∧
      ¬@TransfersUser makefile ⟨0, 0, 0, 0⟩ (ArmCore.boot 0x13 [0, 0, 0, 7]) 0xE8D02000 := by
  refine ⟨by decide, ⟨by decide, by decide, by decide⟩, by decide, ?_⟩
  rintro ⟨q, hq, huser, -⟩
  have hseven := huser (by decide) 0 SP (by decide)
  have hrun : (@armLoadStoreMultiple makefile ⟨0, 0, 0, 0⟩ (ArmCore.boot 0x13 [0, 0, 0, 7])
      0xE8D02000).map (fun r => @Registers.get makefile r.2.reg (bankCell SP 0)) = .ok 0 := by
    decide
  rw [hq] at hrun
  have hzero := Except.ok.inj hrun
  exact absurd (hzero.symm.trans hseven) (by decide)

end ArmSim
