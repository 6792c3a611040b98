import ArmSim.Multiple

/-! Multiple stores and loads with complementary addressing: a push and the matching
pop restore the registers of the list and the base. -/
namespace ArmSim
open Lib

/-- The words of the block lie wholly inside memory. -/
def SlotsInRange (mem : Memory) (registerList : BitVec 16) (start : Word) : Prop :=
  ∀ i < 16, getBit registerList i ≠ 0 → mem.InRange (slot registerList start i) 4

instance (mem : Memory) (registerList : BitVec 16) (start : Word) :
    Decidable (SlotsInRange mem registerList start) :=
  inferInstanceAs (Decidable (∀ i < 16, _ → _))

/-- Byte `a` belongs to the word of one of the registers below `r_n`. -/
def InSlot (registerList : BitVec 16) (start : Word) (n a : ℕ) : Prop :=
  ∃ i < n, getBit registerList i ≠ 0 ∧
    ∃ j < 4, a = (slot registerList start i + BitVec.ofNat 32 j).toNat

theorem InSlot.mono {registerList : BitVec 16} {start : Word} {m n a : ℕ} (h : m ≤ n)
    (ha : InSlot registerList start m a) : InSlot registerList start n a := by
  obtain ⟨i, hi, hl, hj⟩ := ha
  exact ⟨i, by omega, hl, hj⟩

/-- The words of different registers share no byte. -/
theorem slot_byte_ne {registerList : BitVec 16} (start : Word) {m n : ℕ} (hmn : m < n)
    (hn : n ≤ 16) (hm : getBit registerList m ≠ 0) {i j : ℕ} (hi : i < 4) (hj : j < 4) :
    (slot registerList start m + BitVec.ofNat 32 i).toNat ≠
      (slot registerList start n + BitVec.ofNat 32 j).toNat := by
  -- Sixteen words cannot wrap around to each other.
  have hlt := countBelow_lt registerList hmn hm
  have hle := countBelow_le registerList n
  simp only [slot, BitVec.add_assoc, ← BitVec.ofNat_add]
  exact offset_ne start (by omega) (by omega) (by omega)

theorem getBit_listOf (ins : Word) {i : ℕ} (hi : i < 16) :
    getBit (listOf ins) i = getBit ins i := by
  have hbits : getBits ins 15 0 = ins.toNat % 2^16 := by
    rw [getBits_eq, Nat.pow_zero, Nat.div_one]
  rw [getBit_eq, getBit_eq, listOf, hbits, BitVec.getLsbD_ofNat, Nat.testBit_mod_two_pow]
  simp [hi, BitVec.getLsbD]

/-- `STM` with write-back and the `LDM` of the same list and base whose addressing is
complementary. -/
structure PushPop (st ld : Word) : Prop where
  store : getBit st 20 = 0
  load : getBit ld 20 = 1
  before : getBit ld 24 ≠ getBit st 24
  up : getBit ld 23 ≠ getBit st 23
  storeWriteBack : getBit st 21 = 1
  loadWriteBack : getBit ld 21 = 1
  base : getBits ld 19 16 = getBits st 19 16
  list : getBits ld 15 0 = getBits st 15 0
  baseNotPc : getBits st 19 16 ≠ 15
  baseUnlisted : getBit (listOf st) (getBits st 19 16) = 0
  pcUnlisted : getBit (listOf st) 15 = 0

/-- The pop starts at the push's first word and leaves the base where the push found it. -/
theorem PushPop.addresses {st ld : Word} (h : PushPop st ld) (base : Word) :
    firstAddress ld (lastAddress st base) = firstAddress st base ∧
      lastAddress ld (lastAddress st base) = base := by
  have hlist : listOf ld = listOf st := by rw [listOf, h.list, listOf]
  have hP := h.before
  have hU := h.up
  unfold firstAddress lastAddress
  rw [hlist]
  -- The four addressing modes of the push; each fixes that of the pop.
  generalize BitVec.ofNat 32 (countBelow (listOf st) 16) = k
  have hdown : base - k * 4#32 + k * 4#32 = base := BitVec.sub_add_cancel base (k * 4)
  have hupward : base + k * 4#32 - k * 4#32 = base := BitVec.add_sub_cancel base (k * 4)
  rcases getBit_zero_or_one st 24 with hp | hp <;> rcases getBit_zero_or_one st 23 with hu | hu <;>
    rcases getBit_zero_or_one ld 24 with hp' | hp' <;>
    rcases getBit_zero_or_one ld 23 with hu' | hu' <;>
    simp [hp, hu, hp', hu', multipleAddresses, hdown, hupward] at hP hU ⊢

/-- The registers of the list have cells in the current mode. -/
def ListedCells (p : ArmCore) (registerList : BitVec 16) : Prop :=
  ∀ i < 16, getBit registerList i ≠ 0 → p.HasCell i

instance (p : ArmCore) (registerList : BitVec 16) : Decidable (ListedCells p registerList) :=
  inferInstanceAs (Decidable (∀ i < 16, _ → _))

theorem listedCells_of_bank {p : ArmCore} (hb : p.bank < 6) (registerList : BitVec 16) :
    ListedCells p registerList :=
  fun i _ _ => hasCell_of_bank hb i

section pushPop
variable [Platform]

/-- The storing loop's invariant: the registers below `r_n` are in their words, and
nothing else has changed. -/
structure PushedBelow (p : ArmCore) (registerList : BitVec 16) (start : Word) (n : ℕ)
    (s : MultipleLoop) : Prop where
  address : s.address = slot registerList start n
  reg : s.p.reg = p.reg
  size : s.p.mem.size = p.mem.size
  word : ∀ i < n, getBit registerList i ≠ 0 →
    s.p.mem.wordAt (slot registerList start i) ENDIANESS = p.operand i
  frame : ∀ a, ¬InSlot registerList start n a → s.p.mem.byteAt a = p.mem.byteAt a

theorem multipleStep_push {p : ArmCore} {registerList : BitVec 16}
    (hcells : ListedCells p registerList) {start : Word}
    (hin : SlotsInRange p.mem registerList start) {n : ℕ} (hn : n < 16)
    {s : MultipleLoop} (h : PushedBelow p registerList start n s) :
    Ends (multipleStep 0 registerList s n) (PushedBelow p registerList start (n + 1))
      (fun _ => False) := by
  unfold multipleStep
  by_cases hl : getBit registerList n ≠ 0
  · have hbank : s.p.bank = p.bank := by simp only [ArmCore.bank, h.reg]
    have hcell := (hasCell_congr hbank n).mpr (hcells n hn hl)
    have hrange : s.p.mem.InRange s.address 4 := by
      rw [h.address]
      intro j hj
      rw [h.size]
      exact hin n hn hl j hj
    have hwrite (v : Word) : armWriteWord s.p s.address v =
        .ok (0, { s.p with mem := s.p.mem.setWord s.address v ENDIANESS }) := by
      unfold armWriteWord
      rw [memoryWriteWord_inRange hrange]
      rfl
    rw [if_pos hl, if_neg (by decide), armReadRegister_hasCell hn hcell]
    simp only [ok_bind, hwrite]
    refine ⟨?_, h.reg, ?_, ?_, ?_⟩
    · rw [slot_listed hl, h.address]
    · rw [Memory.size_setWord, h.size]
    · apply forall_listed_succ
      · -- The words stored before are not touched.
        intro i hlt hli
        rw [← h.word i hlt hli]
        refine Memory.wordAt_congr _ (fun j hj => Memory.byteAt_setWord_of_ne hrange _ _ _ ?_)
        intro j' hj'
        rw [h.address]
        exact slot_byte_ne start hlt (by omega) hli hj hj'
      · intro _
        rw [← h.address, Memory.wordAt_setWord hrange, operand_congr h.reg]
    · intro a ha
      rw [← h.frame a (fun hs => ha (hs.mono (by omega)))]
      refine Memory.byteAt_setWord_of_ne hrange _ _ a (fun j hj he => ha ?_)
      exact ⟨n, by omega, hl, j, hj, by rw [← h.address]; exact he⟩
  · rw [if_neg hl]
    have h0 : getBit registerList n = 0 := by simpa using hl
    refine ⟨?_, h.reg, h.size, ?_, ?_⟩
    · rw [slot_unlisted h0, h.address]
    · exact forall_listed_succ h.word (fun hli => absurd h0 hli)
    · intro a ha
      exact h.frame a (fun hs => ha (hs.mono (by omega)))

/-- What register `i` is given of the word `w` loaded into it: the pc is aligned. -/
def loadedWord (i : ℕ) (w : Word) : Word := if i = 15 then w &&& 0xFFFFFFFC else w

/-- The loading loop's invariant: the registers below `r_n` hold their words, and no
other cell has changed. -/
structure LoadedBelow (p : ArmCore) (registerList : BitVec 16) (start : Word) (n : ℕ)
    (s : MultipleLoop) : Prop where
  address : s.address = slot registerList start n
  mem : s.p.mem = p.mem
  word : ∀ i < n, getBit registerList i ≠ 0 →
    s.p.gp i = loadedWord i (p.mem.wordAt (slot registerList start i) ENDIANESS)
  frame : ∀ c, (∀ i < n, getBit registerList i ≠ 0 → c ≠ bankCell i p.bank) →
    s.p.reg c = p.reg c

theorem LoadedBelow.bank {p : ArmCore} {registerList : BitVec 16}
    (hcells : ListedCells p registerList) {start : Word} {n : ℕ} (hn : n ≤ 16) {s : MultipleLoop}
    (h : LoadedBelow p registerList start n s) : s.p.bank = p.bank :=
  bank_congr (h.frame _ (fun i hi hli =>
    (bankCell_ne_cpsr_hasCell (by omega) (hcells i (by omega) hli)).symm))

theorem multipleStep_load {p : ArmCore} {registerList : BitVec 16}
    (hcells : ListedCells p registerList) {start : Word}
    (hin : SlotsInRange p.mem registerList start) {n : ℕ} (hn : n < 16)
    {s : MultipleLoop} (h : LoadedBelow p registerList start n s) :
    Ends (multipleStep 1 registerList s n) (LoadedBelow p registerList start (n + 1))
      (fun _ => False) := by
  have hbank := h.bank hcells (by omega)
  unfold multipleStep
  by_cases hl : getBit registerList n ≠ 0
  · have hcell (i : ℕ) (hi : i < 16) (hli : getBit registerList i ≠ 0) : s.p.HasCell i :=
      (hasCell_congr hbank i).mpr (hcells i hi hli)
    have hread : armReadWord s.p s.address s.data =
        .ok (0, p.mem.wordAt (slot registerList start n) ENDIANESS) := by
      unfold armReadWord
      rw [h.mem, h.address, memoryReadWord_inRange (hin n hn hl)]
    rw [if_pos hl, if_pos (by decide), hread]
    simp only [ok_bind, armWriteRegister_hasCell hn (hcell n hn hl)]
    refine ⟨?_, h.mem, ?_, ?_⟩
    · rw [slot_listed hl, h.address]
    · apply forall_listed_succ
      · intro i hlt hli
        have hi : i < 16 := Nat.lt_trans hlt hn
        rw [gp_setGp_of_ne_hasCell _ hn hi (hcell n hn hl) (hcell i hi hli) (by omega),
          h.word i hlt hli]
      · intro _
        exact gp_setGp_self_hasCell _ hn (hcell n hn hl) _
    · intro c hc
      have hcn : c ≠ bankCell n s.p.bank := hbank ▸ hc n (by omega) hl
      exact (setCell_cell _ _ hcn).trans (h.frame c (fun i hi hli => hc i (by omega) hli))
  · rw [if_neg hl]
    have h0 : getBit registerList n = 0 := by simpa using hl
    refine ⟨?_, h.mem, ?_, ?_⟩
    · rw [slot_unlisted h0, h.address]
    · exact forall_listed_succ h.word (fun hli => absurd h0 hli)
    · intro c hc
      exact h.frame c (fun i hi hli => hc i (by omega) hli)

theorem LoadedBelow.word_unaligned {p : ArmCore} {registerList : BitVec 16} {start : Word}
    {n : ℕ} {s : MultipleLoop} (h : LoadedBelow p registerList start n s)
    (hpc : getBit registerList 15 = 0) {i : ℕ} (hi : i < n) (hli : getBit registerList i ≠ 0) :
    s.p.gp i = p.mem.wordAt (slot registerList start i) ENDIANESS := by
  rw [h.word i hi hli]
  apply if_neg
  rintro rfl
  exact hli hpc

section run
variable (env : Env) {p : ArmCore} (hb : p.bank < 6)
include hb

/-- What the push leaves: the words, the new base, and everything else. -/
structure Pushed (p p₁ : ArmCore) (st : Word) : Prop where
  base : p₁.gp (getBits st 19 16) = lastAddress st (p.gp (getBits st 19 16))
  word : ∀ i < 16, getBit (listOf st) i ≠ 0 →
    p₁.mem.wordAt (slot (listOf st) (firstAddress st (p.gp (getBits st 19 16))) i) ENDIANESS =
      p.gp i
  size : p₁.mem.size = p.mem.size
  frame : ∀ a, ¬InSlot (listOf st) (firstAddress st (p.gp (getBits st 19 16))) 16 a →
    p₁.mem.byteAt a = p.mem.byteAt a
  cells : ∀ c, c ≠ bankCell (getBits st 19 16) p.bank → p₁.reg c = p.reg c

theorem push_spec {st : Word} (hstore : getBit st 20 = 0) (hW : getBit st 21 = 1)
    (hbase : getBits st 19 16 ≠ 15) (hpc : getBit (listOf st) 15 = 0)
    (hin : SlotsInRange p.mem (listOf st) (firstAddress st (p.gp (getBits st 19 16)))) :
    ∃ p₁, armLoadStoreMultiple env p st = .ok (0, p₁) ∧ Pushed p p₁ st := by
  have hn : getBits st 19 16 < 16 := getBits_lt_sixteen st rfl
  have hloop := ends_foldlM_range (PushedBelow p (listOf st) (firstAddress st (p.gp _))) _ 16
    ⟨firstAddress st (p.gp (getBits st 19 16)), env.data, p⟩
    ⟨by simp [slot, countBelow], rfl, rfl, fun i hi => absurd hi (by omega), fun _ _ => rfl⟩
    (fun n hn s hs => multipleStep_push (listedCells_of_bank hb _) hin hn hs)
  obtain ⟨s, hl, hs⟩ := hloop.exists_ok
  have hbank : s.p.bank = p.bank := by simp only [ArmCore.bank, hs.reg]
  rw [armLoadStoreMultiple_eq, armReadRegister_eq hn hb, operand_of_ne hbase, hstore]
  refine ⟨s.p.setGp (getBits st 19 16) (lastAddress st (p.gp (getBits st 19 16))), ?_, ?_⟩
  · simp only [ok_bind, hl, multipleEnd, hstore, hW, ne_eq, not_true_eq_false, false_and,
      ↓reduceIte, pure_eq_ok, armWriteRegister_eq hn (show s.p.bank < 6 by omega)]
  · refine ⟨gp_setGp_self _ hn (by omega) _, ?_, hs.size, hs.frame, ?_⟩
    · intro i hi hli
      have h15 : i ≠ 15 := by
        rintro rfl
        exact hli hpc
      rw [← operand_of_ne h15]
      exact hs.word i hi hli
    · intro c hc
      rw [← hs.reg]
      exact setCell_cell _ _ (hbank ▸ hc)

theorem pop_spec {st ld : Word} (h : PushPop st ld) (base : Word)
    (hbase : p.gp (getBits st 19 16) = lastAddress st base)
    (hin : SlotsInRange p.mem (listOf st) (firstAddress st base)) :
    ∃ p₁, armLoadStoreMultiple env p ld = .ok (0, p₁) ∧ p₁.mem = p.mem ∧
      p₁.gp (getBits st 19 16) = base ∧ ∀ i < 16, getBit (listOf st) i ≠ 0 →
        p₁.gp i = p.mem.wordAt (slot (listOf st) (firstAddress st base) i) ENDIANESS := by
  have hn : getBits st 19 16 < 16 := getBits_lt_sixteen st rfl
  have hlist : listOf ld = listOf st := by rw [listOf, h.list, listOf]
  have h15 : getBit ld 15 = 0 := by
    rw [← getBit_listOf ld (by decide), hlist]
    exact h.pcUnlisted
  obtain ⟨hfirst, hlast⟩ := h.addresses base
  have hcells := listedCells_of_bank hb (listOf st)
  have hloop := ends_foldlM_range (LoadedBelow p (listOf st) (firstAddress st base)) _ 16
    ⟨firstAddress st base, env.data, p⟩
    ⟨by simp [slot, countBelow], rfl, fun i hi => absurd hi (by omega), fun _ _ => rfl⟩
    (fun n hn s hs => multipleStep_load hcells hin hn hs)
  obtain ⟨s, hl, hs⟩ := hloop.exists_ok
  have hbank := hs.bank hcells (Nat.le_refl 16)
  rw [armLoadStoreMultiple_eq, h.base, armReadRegister_eq hn hb, operand_of_ne h.baseNotPc, hbase,
    h.load, hlist, ok_bind, hfirst, hlast]
  refine ⟨s.p.setGp (getBits st 19 16) base, ?_, hs.mem, gp_setGp_self _ hn (by omega) _, ?_⟩
  · simp only [hl, ok_bind, multipleEnd, h15, h.loadWriteBack, h.base, ne_eq, not_true_eq_false,
      and_false, ↓reduceIte, pure_eq_ok, armWriteRegister_eq hn (show s.p.bank < 6 by omega)]
  · -- The write-back does not touch the list.
    intro i hi hli
    have hne : i ≠ getBits st 19 16 := by
      rintro rfl
      exact hli h.baseUnlisted
    rw [gp_setGp_of_ne _ hn hi (by omega) hne, hs.word_unaligned h.pcUnlisted hi hli]

end run

/-- The registers of the list have been overwritten, and nothing else. -/
structure Overwrites (registerList : BitVec 16) (p q : ArmCore) : Prop where
  mem : q.mem = p.mem
  cells : ∀ c, (∀ i < 16, getBit registerList i ≠ 0 → c ≠ bankCell i p.bank) → q.reg c = p.reg c

/-- Push, overwrite, pop: the list and the base are as before the push, and memory has
changed in the transferred words only. -/
theorem push_pop_inverse (env : Env) (p : ArmCore) (hb : p.bank < 6) (st ld : Word)
    (h : PushPop st ld)
    (hin : SlotsInRange p.mem (listOf st) (firstAddress st (p.gp (getBits st 19 16)))) :
    ∃ p₁, armLoadStoreMultiple env p st = .ok (0, p₁) ∧
      ∀ env' p₂, Overwrites (listOf st) p₁ p₂ →
        ∃ p₃, armLoadStoreMultiple env' p₂ ld = .ok (0, p₃) ∧
          (∀ i < 16, getBit (listOf st) i ≠ 0 → p₃.gp i = p.gp i) ∧
          p₃.gp (getBits st 19 16) = p.gp (getBits st 19 16) ∧
          p₃.mem.size = p.mem.size ∧
          ∀ a, ¬InSlot (listOf st) (firstAddress st (p.gp (getBits st 19 16))) 16 a →
            p₃.mem.byteAt a = p.mem.byteAt a := by
  have hn : getBits st 19 16 < 16 := getBits_lt_sixteen st rfl
  obtain ⟨p₁, hpush, hp₁⟩ := push_spec env hb h.store h.storeWriteBack h.baseNotPc h.pcUnlisted hin
  refine ⟨p₁, hpush, ?_⟩
  intro env' p₂ hover
  have hb₁ : p₁.bank = p.bank :=
    bank_congr (hp₁.cells _ (bankCell_ne_cpsr hn hb).symm)
  have hb₂ : p₂.bank = p₁.bank :=
    bank_congr (hover.cells _ (fun i hi _ => (bankCell_ne_cpsr hi (by omega)).symm))
  -- The base is not in the list, so overwriting the list leaves it.
  have hbase : p₂.gp (getBits st 19 16) = lastAddress st (p.gp (getBits st 19 16)) := by
    rw [← hp₁.base]
    unfold ArmCore.gp
    rw [hb₂]
    refine Registers.get_congr (hover.cells _ ?_)
    intro i hi hli
    refine bankCell_ne hn hi (by omega) (by omega) ?_
    rintro he
    exact hli (he ▸ h.baseUnlisted)
  have hin₂ : SlotsInRange p₂.mem (listOf st) (firstAddress st (p.gp (getBits st 19 16))) := by
    intro i hi hli j hj
    rw [hover.mem, hp₁.size]
    exact hin i hi hli j hj
  obtain ⟨p₃, hpop, hmem, hgp, hword⟩ := pop_spec env' (show p₂.bank < 6 by omega) h _ hbase hin₂
  refine ⟨p₃, hpop, ?_, hgp, ?_, ?_⟩
  · intro i hi hli
    rw [hword i hi hli, hover.mem, hp₁.word i hi hli]
  · rw [hmem, hover.mem, hp₁.size]
  · intro a ha
    rw [hmem, hover.mem, hp₁.frame a ha]

end pushPop

/-- `STMDB sp!, {r0, r1}` and `LDMIA sp!, {r0, r1}` on a stack of eight bytes. -/
theorem push_pop_inverse_stmdb :
    ∃ p₁, @armLoadStoreMultiple makefile ⟨0, 0, 0, 0⟩ (@ArmCore.setCell makefile
        (ArmCore.boot 0x10 (List.replicate 8 0)) (bankCell SP 0) 8) 0xE92D0003 = .ok (0, p₁) ∧
      ∀ env' p₂, Overwrites (listOf 0xE92D0003) p₁ p₂ →
        ∃ p₃, @armLoadStoreMultiple makefile env' p₂ 0xE8BD0003 = .ok (0, p₃) ∧
          (∀ i < 16, getBit (listOf 0xE92D0003) i ≠ 0 → @ArmCore.gp makefile p₃ i =
            @ArmCore.gp makefile (@ArmCore.setCell makefile
              (ArmCore.boot 0x10 (List.replicate 8 0)) (bankCell SP 0) 8) i) := by
  obtain ⟨p₁, hpush, hpop⟩ := @push_pop_inverse makefile ⟨0, 0, 0, 0⟩ (@ArmCore.setCell makefile
    (ArmCore.boot 0x10 (List.replicate 8 0)) (bankCell SP 0) 8) (by decide) 0xE92D0003 0xE8BD0003
    ⟨by decide, by decide, by decide, by decide, by decide, by decide, by decide, by decide,
      by decide, by decide, by decide⟩ (by decide)
  refine ⟨p₁, hpush, ?_⟩
  intro env' p₂ hover
  obtain ⟨p₃, hld, hlist, -⟩ := hpop env' p₂ hover
  exact ⟨p₃, hld, hlist⟩

end ArmSim
