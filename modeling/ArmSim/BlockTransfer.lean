import ArmSim.PushPop
import ArmSim.TransferEffects

/-! The multiple transfers against the manual: the `k`-th lowest register of the list and
the `k`-th word of the block; and what becomes of a word outside memory. -/
namespace ArmSim
open Lib

/-- The registers of the list, from the lowest one up. -/
def registersOf (ins : Word) : List ℕ :=
  (List.range 16).filter (fun i => getBit ins i = 1)

/-- The bytes of the block. -/
def blockSize (ins : Word) : Word := BitVec.ofNat 32 (4 * (registersOf ins).length)

/-- Where the block starts: increment or decrement, after or before. -/
def blockStart (ins base : Word) : Word :=
  if getBit ins 23 = 1 then
    if getBit ins 24 = 1 then base + 4 else base
  else
    if getBit ins 24 = 1 then base - blockSize ins else base - blockSize ins + 4

/-- The base after a write-back. -/
def blockBase (ins base : Word) : Word :=
  if getBit ins 23 = 1 then base + blockSize ins else base - blockSize ins

/-- The address of the `k`-th word. -/
def blockWord (ins base : Word) (k : ℕ) : Word := blockStart ins base + BitVec.ofNat 32 (4 * k)

/-- The registers below `r_n` in the list, as the transfer loop counts them. -/
theorem length_filter_listed (ins : Word) {n : ℕ} (hn : n ≤ 16) :
    ((List.range n).filter (fun i => getBit ins i = 1)).length = countBelow (listOf ins) n := by
  -- Register by register: `r_n` comes last in the range and counts when it is listed.
  induction n with
  | zero => rfl
  | succ n ih =>
    rw [List.range_succ, List.filter_append, List.length_append, ih (by omega), countBelow,
      getBit_listOf ins (by omega)]
    rcases getBit_zero_or_one ins n with h | h <;> simp [h]

/-- The `k`-th register of the list has `k` listed registers below it. -/
theorem filter_listed_getElem? {ins : Word} {n : ℕ} (hn : n ≤ 16) {k reg : ℕ}
    (h : ((List.range n).filter (fun i => getBit ins i = 1))[k]? = some reg) :
    reg < n ∧ getBit ins reg = 1 ∧ countBelow (listOf ins) reg = k := by
  induction n with
  | zero => cases h
  | succ n ih =>
    have hlen := length_filter_listed ins (n := n) (by omega)
    rw [List.range_succ, List.filter_append, List.getElem?_append, hlen] at h
    by_cases hk : k < countBelow (listOf ins) n
    · rw [if_pos hk] at h
      obtain ⟨hreg, hrest⟩ := ih (by omega) h
      exact ⟨by omega, hrest⟩
    · -- Only `r_n` itself can stand behind the registers below it.
      rw [if_neg hk] at h
      have hmem := List.mem_filter.mp (List.mem_of_getElem? h)
      obtain rfl := List.mem_singleton.mp hmem.1
      have hl : getBit ins reg = 1 := of_decide_eq_true hmem.2
      have hone : ([reg].filter (fun i => getBit ins i = 1)).length = 1 := by simp [hl]
      have hlt := (List.getElem?_eq_some_iff.mp h).1
      exact ⟨by omega, hl, by omega⟩

theorem registersOf_getElem? {ins : Word} {k reg : ℕ} (h : (registersOf ins)[k]? = some reg) :
    reg < 16 ∧ getBit ins reg = 1 ∧ countBelow (listOf ins) reg = k :=
  filter_listed_getElem? (Nat.le_refl 16) h

theorem mem_registersOf {ins : Word} {reg : ℕ} :
    reg ∈ registersOf ins ↔ reg < 16 ∧ getBit ins reg = 1 := by
  simp [registersOf]

theorem listed_iff {ins : Word} {i : ℕ} (hi : i < 16) :
    getBit (listOf ins) i ≠ 0 ↔ getBit ins i = 1 := by
  rw [getBit_listOf ins hi]
  have h := getBit_zero_or_one ins i
  omega

theorem length_registersOf (ins : Word) :
    (registersOf ins).length = countBelow (listOf ins) 16 :=
  length_filter_listed ins (Nat.le_refl 16)

theorem count_mul_four (ins : Word) :
    BitVec.ofNat 32 (countBelow (listOf ins) 16) * 4 = blockSize ins := by
  rw [blockSize, length_registersOf, Nat.mul_comm, BitVec.ofNat_mul]
  rfl

/-- The source's four start addresses and its write-back are the manual's. -/
theorem firstAddress_eq (ins base : Word) : firstAddress ins base = blockStart ins base := by
  unfold firstAddress multipleAddresses blockStart
  rw [count_mul_four]
  rcases getBit_zero_or_one ins 24 with hP | hP <;>
    rcases getBit_zero_or_one ins 23 with hU | hU <;> simp [hP, hU]

theorem lastAddress_eq (ins base : Word) : lastAddress ins base = blockBase ins base := by
  unfold lastAddress multipleAddresses blockBase
  rw [count_mul_four]
  rcases getBit_zero_or_one ins 24 with hP | hP <;>
    rcases getBit_zero_or_one ins 23 with hU | hU <;> simp [hP, hU]

/-- The word of a listed register is the one at its place in the block. -/
theorem slot_eq_blockWord (ins base : Word) (i : ℕ) :
    slot (listOf ins) (firstAddress ins base) i =
      blockWord ins base (countBelow (listOf ins) i) := by
  rw [firstAddress_eq]
  rfl

theorem countBelow_lt_length {ins : Word} {i : ℕ} (hi : i < 16)
    (hl : getBit (listOf ins) i ≠ 0) :
    countBelow (listOf ins) i < (registersOf ins).length := by
  rw [length_registersOf]
  exact countBelow_lt _ hi hl

theorem slotsInRange_of_block {mem : Memory} {ins base : Word}
    (h : ∀ k < (registersOf ins).length, mem.InRange (blockWord ins base k) 4) :
    SlotsInRange mem (listOf ins) (firstAddress ins base) := by
  intro i hi hl
  rw [slot_eq_blockWord]
  exact h _ (countBelow_lt_length hi hl)

theorem block_of_inSlot {ins base : Word} {a : ℕ}
    (h : InSlot (listOf ins) (firstAddress ins base) 16 a) :
    ∃ k < (registersOf ins).length, Touches (blockWord ins base k) 4 a := by
  obtain ⟨i, hi, hl, hbyte⟩ := h
  rw [slot_eq_blockWord] at hbyte
  exact ⟨_, countBelow_lt_length hi hl, hbyte⟩

section block
variable [Platform]

/-- What a multiple transfer without the S bit does. -/
structure BlockEffect (p q : ArmCore) (ins : Word) : Prop where
  load : getBit ins 20 = 1 → ∀ k reg, (registersOf ins)[k]? = some reg → q.gp reg =
    loadedWord reg
      (p.mem.wordAt (blockWord ins (p.architectural (getBits ins 19 16)) k) ENDIANESS)
  store : getBit ins 20 = 0 → ∀ k reg, (registersOf ins)[k]? = some reg →
    q.mem.wordAt (blockWord ins (p.architectural (getBits ins 19 16)) k) ENDIANESS =
      p.architectural reg
  base : getBit ins 21 = 1 →
    q.gp (getBits ins 19 16) = blockBase ins (p.architectural (getBits ins 19 16))
  others : ChangesOnly p q
    (fun i => getBit ins 20 = 1 ∧ i ∈ registersOf ins ∨
      getBit ins 21 = 1 ∧ i = getBits ins 19 16)
    (fun a => getBit ins 20 = 0 ∧ ∃ k < (registersOf ins).length,
      Touches (blockWord ins (p.architectural (getBits ins 19 16)) k) 4 a)

/-- A round of the loop prints nothing and takes no cycle. -/
theorem multipleStep_quiet (L : ℕ) (registerList : BitVec 16) (s : MultipleLoop) (i : ℕ) :
    Ends (multipleStep L registerList s i)
      (fun t => t.p.output = s.p.output ∧ t.p.cycleCount = s.p.cycleCount) (fun _ => True) := by
  have hwrite (v : Word) : Ends (armWriteRegister s.p i v)
      (fun q => q.output = s.p.output ∧ q.cycleCount = s.p.cycleCount) (fun _ => True) :=
    (ends_trivial _).bind (fun _ _ => ⟨rfl, rfl⟩)
  have hstore (v : Word) : Ends (armWriteWord s.p s.address v)
      (fun r => r.2.output = s.p.output ∧ r.2.cycleCount = s.p.cycleCount) (fun _ => True) :=
    (ends_trivial _).bind (fun _ _ => ⟨rfl, rfl⟩)
  unfold multipleStep
  refine ends_ite (fun _ => ends_ite (fun _ => ?_) (fun _ => ?_)) (fun _ => ⟨rfl, rfl⟩)
  · exact (ends_trivial _).bind (fun _ _ => (hwrite _).bind (fun _ hq => hq))
  · exact (ends_trivial _).bind (fun _ _ => (hstore _).bind (fun _ hr => hr))

theorem multipleLoop_quiet (L : ℕ) (registerList : BitVec 16) (s : MultipleLoop) :
    Ends ((List.range 16).foldlM (multipleStep L registerList) s)
      (fun t => t.p.output = s.p.output ∧ t.p.cycleCount = s.p.cycleCount) (fun _ => True) := by
  refine ends_foldlM_range (fun _ t => t.p.output = s.p.output ∧ t.p.cycleCount = s.p.cycleCount)
    _ 16 s ⟨rfl, rfl⟩ ?_
  intro i _ t ht
  exact (multipleStep_quiet L registerList t i).imp
    (fun _ h => ⟨h.1.trans ht.1, h.2.trans ht.2⟩)

/-- Without the S bit and the pc in a load's list, the end is the write-back. -/
theorem multipleEnd_eq {p : ArmCore} {ins : Word} (hcell : p.HasCell (getBits ins 19 16))
    (hS : getBit ins 20 = 0 ∨ getBit ins 22 = 0 ∨ getBit ins 15 = 0) (wadress : Word) :
    multipleEnd p ins wadress =
      .ok (0, p.setGpIf (getBit ins 21 = 1) (getBits ins 19 16) wadress) := by
  have hn : getBits ins 19 16 < 16 := getBits_lt_sixteen ins rfl
  have hwrite := armWriteRegister_hasCell hn hcell wadress
  have hstays : ¬(getBit ins 20 ≠ 0 ∧ getBit ins 22 ≠ 0 ∧ getBit ins 15 ≠ 0) := by
    rintro ⟨h20, h22, h15⟩
    exact hS.elim h20 (fun h => h.elim h22 h15)
  unfold multipleEnd ArmCore.setGpIf
  rw [if_neg hstays]
  by_cases hW : getBit ins 21 = 1
  · simp [hW, hwrite]
  · simp [hW]

/-- A store whose words lie inside memory, up to its end. -/
theorem store_loop {p : ArmCore} (env : Env) {ins : Word}
    (hn : p.HasCell (getBits ins 19 16)) (hcells : ListedCells p (listOf ins))
    (hL : getBit ins 20 = 0) (hin : ∀ k < (registersOf ins).length,
      p.mem.InRange (blockWord ins (p.operand (getBits ins 19 16)) k) 4) :
    ∃ s : MultipleLoop, armLoadStoreMultiple env p ins =
        multipleEnd s.p ins (blockBase ins (p.operand (getBits ins 19 16))) ∧
      s.p.reg = p.reg ∧
      (∀ k reg, (registersOf ins)[k]? = some reg →
        s.p.mem.wordAt (blockWord ins (p.operand (getBits ins 19 16)) k) ENDIANESS =
          p.operand reg) ∧
      ChangesOnly p s.p (fun _ => False) (fun a => ∃ k < (registersOf ins).length,
        Touches (blockWord ins (p.operand (getBits ins 19 16)) k) 4 a) := by
  have hread := armReadRegister_hasCell (getBits_lt_sixteen ins rfl) hn
  generalize p.operand (getBits ins 19 16) = base at *
  have hslots := slotsInRange_of_block hin
  -- The invariant of the loop: the listed registers below `r_n` are in their slots, and no
  -- register has changed.
  have hloop := ends_foldlM_range (PushedBelow p (listOf ins) (firstAddress ins base)) _ 16
    ⟨firstAddress ins base, env.data, p⟩
    ⟨by simp [slot, countBelow], rfl, rfl, fun i hi => absurd hi (by omega), fun _ _ => rfl⟩
    (fun n hn s hs => multipleStep_push hcells hslots hn hs)
  obtain ⟨s, hs, hpushed⟩ := hloop.exists_ok
  obtain ⟨houtput, hcycles⟩ := (multipleLoop_quiet _ _ _).value hs
  refine ⟨s, ?_, hpushed.reg, ?_, ?_⟩
  · rw [armLoadStoreMultiple_eq, hread, hL]
    simp only [ok_bind, hs, lastAddress_eq]
  · intro k reg hk
    obtain ⟨hreg, hl, rfl⟩ := registersOf_getElem? hk
    rw [← slot_eq_blockWord]
    exact hpushed.word reg hreg ((listed_iff hreg).mpr hl)
  · refine ⟨fun c _ => by rw [hpushed.reg], hpushed.size, ?_, houtput, hcycles⟩
    intro a ha
    exact hpushed.frame a (fun h => ha (block_of_inSlot h))

/-- A load whose words lie inside memory, up to its end. -/
theorem load_loop {p : ArmCore} (env : Env) {ins : Word}
    (hn : p.HasCell (getBits ins 19 16)) (hcells : ListedCells p (listOf ins))
    (hL : getBit ins 20 = 1) (hin : ∀ k < (registersOf ins).length,
      p.mem.InRange (blockWord ins (p.operand (getBits ins 19 16)) k) 4) :
    ∃ s : MultipleLoop, armLoadStoreMultiple env p ins =
        multipleEnd s.p ins (blockBase ins (p.operand (getBits ins 19 16))) ∧
      s.p.bank = p.bank ∧
      (∀ k reg, (registersOf ins)[k]? = some reg → s.p.gp reg = loadedWord reg
        (p.mem.wordAt (blockWord ins (p.operand (getBits ins 19 16)) k) ENDIANESS)) ∧
      ChangesOnly p s.p (fun i => i ∈ registersOf ins) (fun _ => False) := by
  have hread := armReadRegister_hasCell (getBits_lt_sixteen ins rfl) hn
  generalize p.operand (getBits ins 19 16) = base at *
  have hslots := slotsInRange_of_block hin
  -- A load may overwrite the base in mid-loop; the addresses come from its value at entry.
  have hloop := ends_foldlM_range (LoadedBelow p (listOf ins) (firstAddress ins base)) _ 16
    ⟨firstAddress ins base, env.data, p⟩
    ⟨by simp [slot, countBelow], rfl, fun i hi => absurd hi (by omega), fun _ _ => rfl⟩
    (fun n hn s hs => multipleStep_load hcells hslots hn hs)
  obtain ⟨s, hs, hloaded⟩ := hloop.exists_ok
  obtain ⟨houtput, hcycles⟩ := (multipleLoop_quiet _ _ _).value hs
  refine ⟨s, ?_, hloaded.bank hcells (Nat.le_refl 16), ?_, ?_⟩
  · rw [armLoadStoreMultiple_eq, hread, hL]
    simp only [ok_bind, hs, lastAddress_eq]
  · intro k reg hk
    obtain ⟨hreg, hl, rfl⟩ := registersOf_getElem? hk
    rw [← slot_eq_blockWord, hloaded.word reg hreg ((listed_iff hreg).mpr hl)]
  · refine ⟨?_, by rw [hloaded.mem], fun a _ => by rw [hloaded.mem], houtput, hcycles⟩
    intro c hc
    apply hloaded.frame
    intro i hi hl
    exact hc i hi (mem_registersOf.mpr ⟨hi, (listed_iff hi).mp hl⟩)

/-- `LDM` and `STM` without the S bit, in every mode but the fast interrupt's and in every
addressing mode. -/
theorem multiple_transfer (env : Env) (p : ArmCore) (hb : p.bank < 6) (hpc : p.pc.toNat % 4 = 0)
    (ins : Word) (hS : getBit ins 22 = 0)
    (hin : ∀ k < (registersOf ins).length,
      p.mem.InRange (blockWord ins (p.architectural (getBits ins 19 16)) k) 4)
    (hlisted : getBit ins 20 = 1 → getBit ins 21 = 1 → getBits ins 19 16 ∉ registersOf ins) :
    ∃ q, armLoadStoreMultiple env p ins = .ok (0, q) ∧ BlockEffect p q ins := by
  have hn : getBits ins 19 16 < 16 := getBits_lt_sixteen ins rfl
  rw [← operand_eq_architectural hpc] at hin
  rcases getBit_zero_or_one ins 20 with hL | hL
  · -- A store puts the values at entry into the block; the base moves after it.
    obtain ⟨s, hrun, -, hwords, hchanges⟩ :=
      store_loop env (hasCell_of_bank hb _) (listedCells_of_bank hb _) hL hin
    simp only [operand_eq_architectural hpc] at hrun hwords hchanges
    have hbank := hchanges.bank hb
    rw [multipleEnd_eq (hasCell_of_bank (hbank ▸ hb) _) (Or.inl hL)] at hrun
    have hback := setGpIf_changes s.p (getBit ins 21 = 1) hn
      (blockBase ins (p.architectural (getBits ins 19 16)))
    refine ⟨_, hrun, ?_, ?_, ?_, ?_⟩
    · intro hL'
      omega
    · intro _ k reg hk
      rw [setGpIf_mem, hwords k reg hk]
    · exact fun hW => gp_setGpIf_self (hbank ▸ hb) hW hn _
    · exact (hchanges.mono (fun _ h => h.elim) (fun _ h => ⟨hL, h⟩)).trans hb
        (hback.mono (fun _ h => Or.inr h) (fun _ h => h.elim))
  · obtain ⟨s, hrun, hbank, hwords, hchanges⟩ :=
      load_loop env (hasCell_of_bank hb _) (listedCells_of_bank hb _) hL hin
    simp only [operand_eq_architectural hpc] at hrun hwords hchanges
    rw [multipleEnd_eq (hasCell_of_bank (hbank ▸ hb) _) (Or.inr (Or.inl hS))] at hrun
    have hback := setGpIf_changes s.p (getBit ins 21 = 1) hn
      (blockBase ins (p.architectural (getBits ins 19 16)))
    refine ⟨_, hrun, ?_, ?_, ?_, ?_⟩
    · -- A base that is written back is not in the list.
      intro _ k reg hk
      have hreg := (registersOf_getElem? hk).1
      have hne : ¬(getBit ins 21 = 1 ∧ reg = getBits ins 19 16) := by
        rintro ⟨hW, rfl⟩
        exact hlisted hL hW (List.mem_of_getElem? hk)
      rw [hback.gp (hbank ▸ hb) hreg hne, hwords k reg hk]
    · intro hL'
      omega
    · exact fun hW => gp_setGpIf_self (hbank ▸ hb) hW hn _
    · exact (hchanges.mono (fun _ h => Or.inl ⟨hL, h⟩) (fun _ h => h.elim)).trans hb
        (hback.mono (fun _ h => Or.inr h) (fun _ h => h.elim))

/-! Words outside memory.  The result codes of the accesses are dropped, so a load goes on
with the word it read last. -/

/-- A word of the block is not wholly inside memory. -/
def Fault (p : ArmCore) (ins : Word) : Prop :=
  ∃ k < (registersOf ins).length,
    ¬p.mem.InRange (blockWord ins (p.operand (getBits ins 19 16)) k) 4

/-- What a fault should come to: an exception, the base as it was, no register written from
a word that could not be read, and one outcome whatever the local variable held. -/
def FaultReported (env : Env) (p : ArmCore) (ins : Word) : Prop :=
  ∃ c q, armLoadStoreMultiple env p ins = .ok (c, q) ∧ c ≠ 0 ∧
    q.gp (getBits ins 19 16) = p.gp (getBits ins 19 16) ∧
    (getBit ins 20 = 1 → ∀ k reg, (registersOf ins)[k]? = some reg →
      ¬p.mem.InRange (blockWord ins (p.operand (getBits ins 19 16)) k) 4 →
      q.gp reg = p.gp reg) ∧
    ∀ data, armLoadStoreMultiple { env with data := data } p ins = .ok (c, q)

/-- Every fault is reported only where there is none: the call returns 0 or not at all. -/
theorem multiple_fault_iff (env : Env) (p : ArmCore) (ins : Word) :
    (Fault p ins → FaultReported env p ins) ↔ ¬Fault p ins := by
  constructor
  · intro h hfault
    -- The source ends in `return 0`: no call that returns has another code.
    obtain ⟨c, q, hrun, hc, -⟩ := h hfault
    exact hc ((armLoadStoreMultiple_ends env p ins).value hrun).1
  · intro h hfault
    exact absurd hfault h

end block

/-- `LDMIB r0!, {r1, r3}` with `r0 = 0`. -/
theorem multiple_transfer_ldmib : ∃ q,
    @armLoadStoreMultiple makefile ⟨0, 0, 0, 0⟩
      (ArmCore.boot 0x10 [0, 0, 0, 0, 0, 0, 0, 7, 0, 0, 0, 9]) 0xE9B0000A = .ok (0, q) ∧
      @ArmCore.gp makefile q 1 = 7 ∧ @ArmCore.gp makefile q 3 = 9 ∧
      @ArmCore.gp makefile q 0 = 8 := by
  obtain ⟨q, hq, heffect⟩ := @multiple_transfer makefile ⟨0, 0, 0, 0⟩
    (ArmCore.boot 0x10 [0, 0, 0, 0, 0, 0, 0, 7, 0, 0, 0, 9]) (by decide) (by decide) 0xE9B0000A
    (by decide) (by decide) (fun _ _ => by decide)
  have hfirst := @BlockEffect.load makefile _ _ _ heffect (by decide) 0 1 (by decide)
  have hsecond := @BlockEffect.load makefile _ _ _ heffect (by decide) 1 3 (by decide)
  have hmoved := @BlockEffect.base makefile _ _ _ heffect (by decide)
  have hn : getBits 0xE9B0000A 19 16 = 0 := by decide
  rw [hn] at hmoved
  refine ⟨q, hq, hfirst.trans ?_, hsecond.trans ?_, hmoved.trans ?_⟩ <;> decide

/-- `LDMIA r0!, {r1}` without memory: the call returns 0, `r0` has moved, and `r1` holds
what the local variable held. -/
theorem multiple_fault_unreported :
    ¬(@Fault makefile (ArmCore.boot 0x10 []) 0xE8B00002 →
      @FaultReported makefile ⟨5, 0, 0, 0⟩ (ArmCore.boot 0x10 []) 0xE8B00002) ∧
    ∃ q, @armLoadStoreMultiple makefile ⟨5, 0, 0, 0⟩ (ArmCore.boot 0x10 []) 0xE8B00002 =
      .ok (0, q) ∧ @ArmCore.gp makefile q 0 = 4 ∧ @ArmCore.gp makefile q 1 = 5 := by
  have hrun : ∃ q, @armLoadStoreMultiple makefile ⟨5, 0, 0, 0⟩ (ArmCore.boot 0x10 [])
      0xE8B00002 = .ok (0, q) ∧ @ArmCore.gp makefile q 0 = 4 ∧ @ArmCore.gp makefile q 1 = 5 :=
    ⟨_, rfl, by decide, by decide⟩
  refine ⟨?_, hrun⟩
  intro h
  obtain ⟨q, hq, -⟩ := hrun
  obtain ⟨c, q', hq', hc, -⟩ := h ⟨0, by decide, by decide⟩
  rw [hq] at hq'
  cases hq'
  exact hc rfl

end ArmSim
