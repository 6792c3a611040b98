import ArmSim.Handlers

/-! The transfer loop of `arm_load_store_multiple`: the register `i` of the list goes
to the word whose place in the block is the number of listed registers below `i`. -/
namespace ArmSim
open Lib

/-- The number of registers of the list below `r_n`. -/
def countBelow (registerList : BitVec 16) : ℕ → ℕ
  | 0 => 0
  | n + 1 => countBelow registerList n + getBit registerList n

/-- The word that register `n` of the list is transferred to or from. -/
def slot (registerList : BitVec 16) (start : Word) (n : ℕ) : Word :=
  start + BitVec.ofNat 32 (4 * countBelow registerList n)

theorem countBelow_le (registerList : BitVec 16) (n : ℕ) : countBelow registerList n ≤ n := by
  induction n with
  | zero => exact Nat.le_refl 0
  | succ n ih =>
    have hlt := getBit_lt_two registerList n
    simp only [countBelow]
    omega

theorem countBelow_mono (registerList : BitVec 16) {m n : ℕ} (h : m ≤ n) :
    countBelow registerList m ≤ countBelow registerList n := by
  induction h with
  | refl => exact Nat.le_refl _
  | step _ ih => exact Nat.le_trans ih (Nat.le_add_right _ _)

/-- Different listed registers have different places. -/
theorem countBelow_lt (registerList : BitVec 16) {m n : ℕ} (h : m < n)
    (hm : getBit registerList m ≠ 0) :
    countBelow registerList m < countBelow registerList n := by
  -- Between `m` and `m + 1` the count grows by the listed `m`.
  have hle := countBelow_mono registerList (Nat.succ_le_of_lt h)
  simp only [countBelow] at hle
  omega

theorem slot_listed {registerList : BitVec 16} {start : Word} {n : ℕ}
    (h : getBit registerList n ≠ 0) :
    slot registerList start (n + 1) = slot registerList start n + 4 := by
  have h1 : getBit registerList n = 1 := (getBit_zero_or_one _ _).resolve_left h
  simp only [slot, countBelow, h1, Nat.mul_add, Nat.mul_one, BitVec.ofNat_add, BitVec.add_assoc]
  rfl

theorem slot_unlisted {registerList : BitVec 16} {start : Word} {n : ℕ}
    (h : getBit registerList n = 0) :
    slot registerList start (n + 1) = slot registerList start n := by
  simp only [slot, countBelow, h, Nat.add_zero]

/-- What holds of the listed registers below `r_n`, and of `r_n` if it is listed. -/
theorem forall_listed_succ {registerList : BitVec 16} {n : ℕ} {P : ℕ → Prop}
    (h : ∀ i < n, getBit registerList i ≠ 0 → P i) (hn : getBit registerList n ≠ 0 → P n) :
    ∀ i < n + 1, getBit registerList i ≠ 0 → P i := by
  intro i hi hli
  rcases Nat.lt_succ_iff_lt_or_eq.mp hi with hlt | rfl
  · exact h i hlt hli
  · exact hn hli

/-- The count the source computes bit by bit. -/
theorem foldl_getBit (registerList : BitVec 16) (n : ℕ) :
    (List.range n).foldl (fun (m : Word) i => m + BitVec.ofNat 32 (getBit registerList i)) 0 =
      BitVec.ofNat 32 (countBelow registerList n) := by
  induction n with
  | zero => rfl
  | succ n ih =>
    rw [List.range_succ, List.foldl_append, ih]
    simp only [List.foldl_cons, List.foldl_nil, countBelow, BitVec.ofNat_add]

/-- An access at `a` does not leave the array: it is refused or has room. -/
def Memory.Accessible (mem : Memory) (a : Word) : Prop :=
  mem.size ≤ a.toNat ∨ mem.InRange a 4

instance (mem : Memory) (a : Word) : Decidable (mem.Accessible a) :=
  inferInstanceAs (Decidable (_ ∨ _))

theorem Memory.accessible_of_answer {mem : Memory} {a : Word} {r : ℤ}
    (h : r = mem.answer a) (h0 : r = 0 → mem.InRange a 4) : mem.Accessible a := by
  unfold answer at h
  split at h
  · exact Or.inl ‹_›
  · exact Or.inr (h0 h)

theorem Memory.accessible_congr {m m' : Memory} (h : m.size = m'.size) (a : Word) :
    m.Accessible a ↔ m'.Accessible a := by
  simp only [Accessible, InRange, h]

/-- The registers of the list, of the word `ins`. -/
def listOf (ins : Word) : BitVec 16 := BitVec.ofNat 16 (getBits ins 15 0)

/-- The loop's invariant for what it can reach: the next address, the frame, and no
access so far that left the array. -/
structure LoopReaches (p : ArmCore) (registerList : BitVec 16) (start : Word) (n : ℕ)
    (s : MultipleLoop) : Prop where
  address : s.address = slot registerList start n
  stays : Stays p s.p
  cpsr : s.p.cpsr = p.cpsr
  size : s.p.mem.size = p.mem.size
  accessible : ∀ i < n, getBit registerList i ≠ 0 →
    p.mem.Accessible (slot registerList start i)

theorem LoopReaches.start (p : ArmCore) (registerList : BitVec 16) (start data : Word) :
    LoopReaches p registerList start 0 ⟨start, data, p⟩ :=
  ⟨by simp [slot, countBelow], Stays.refl p, rfl, rfl, fun i hi => absurd hi (by omega)⟩

theorem LoopReaches.listed {p q : ArmCore} {registerList : BitVec 16} {start data : Word} {n : ℕ}
    {s : MultipleLoop} (h : LoopReaches p registerList start n s)
    (hn : getBit registerList n ≠ 0) (ha : s.p.mem.Accessible s.address)
    (hq : Stays s.p q) (hc : q.cpsr = s.p.cpsr) (hm : q.mem.size = s.p.mem.size) :
    LoopReaches p registerList start (n + 1) ⟨s.address + 4, data, q⟩ := by
  refine ⟨?_, h.stays.trans hq, hc.trans h.cpsr, hm.trans h.size, ?_⟩
  · rw [slot_listed hn, h.address]
  · apply forall_listed_succ h.accessible
    intro _
    rw [← h.address]
    exact (Memory.accessible_congr h.size _).mp ha

theorem LoopReaches.unlisted {p : ArmCore} {registerList : BitVec 16} {start : Word} {n : ℕ}
    {s : MultipleLoop} (h : LoopReaches p registerList start n s)
    (hn : getBit registerList n = 0) : LoopReaches p registerList start (n + 1) s := by
  refine ⟨?_, h.stays, h.cpsr, h.size, ?_⟩
  · rw [slot_unlisted hn, h.address]
  · exact forall_listed_succ h.accessible (fun hli => absurd hn hli)

variable [Platform]

/-- The first address of the transfer `ins` with base value `base`. -/
def firstAddress (ins base : Word) : Word :=
  (multipleAddresses (getBit ins 24) (getBit ins 23) base
    (BitVec.ofNat 32 (countBelow (listOf ins) 16))).1

/-- The base that the transfer `ins` writes back. -/
def lastAddress (ins base : Word) : Word :=
  (multipleAddresses (getBit ins 24) (getBit ins 23) base
    (BitVec.ofNat 32 (countBelow (listOf ins) 16))).2

/-- The end of a multiple transfer, after the loop. -/
def multipleEnd (p : ArmCore) (ins Wadress : Word) : Except Crash (ℤ × ArmCore) := do
  let p ←
    (if getBit ins 20 ≠ 0 ∧ getBit ins 22 ≠ 0 ∧ getBit ins 15 ≠ 0 then do
      let spsr ← armReadSpsr p
      pure (armWriteCpsr p spsr)
    else pure p)
  let p ← (if getBit ins 21 = 1 then armWriteRegister p (getBits ins 19 16) Wadress else pure p)
  return (0, p)

theorem armLoadStoreMultiple_eq (env : Env) (p : ArmCore) (ins : Word) :
    armLoadStoreMultiple env p ins = (armReadRegister p (getBits ins 19 16) >>= fun base =>
      (List.range 16).foldlM (multipleStep (getBit ins 20) (listOf ins))
        ⟨firstAddress ins base, env.data, p⟩ >>= fun s =>
      multipleEnd s.p ins (lastAddress ins base)) := by
  unfold armLoadStoreMultiple
  simp only [foldl_getBit]
  rfl

theorem multipleStep_ends (p : ArmCore) (L : ℕ) (registerList : BitVec 16) (start : Word)
    {n : ℕ} (hn : n < 16) {s : MultipleLoop} (h : LoopReaches p registerList start n s) :
    Ends (multipleStep L registerList s n) (LoopReaches p registerList start (n + 1)) NoNull := by
  unfold multipleStep
  refine ends_ite (fun hl => ends_ite (fun _ => ?_) (fun _ => ?_))
    (fun hl => h.unlisted (by simpa using hl))
  · apply (armReadWord_ends s.p s.address s.data).bind
    intro r hr
    apply (armWriteRegister_ends s.p hn _).bind
    intro q hq
    exact h.listed hl (Memory.accessible_of_answer hr.1 hr.2) hq.1 hq.2.2 (by rw [hq.2.1])
  · apply (armReadRegister_ends s.p hn).bind
    intro v _
    apply (armWriteWord_ends s.p s.address v).bind
    intro r hr
    have hc : r.2.cpsr = s.p.cpsr := congrArg registersReadCpsr hr.1.reg
    exact h.listed hl (Memory.accessible_of_answer hr.1.code hr.2) hr.1.stays hc hr.1.size

theorem multipleLoop_ends (p : ArmCore) (L : ℕ) (registerList : BitVec 16) (start data : Word) :
    Ends ((List.range 16).foldlM (multipleStep L registerList) ⟨start, data, p⟩)
      (LoopReaches p registerList start 16) NoNull := by
  refine ends_foldlM_range (LoopReaches p registerList start) _ 16 _ ?_
    (fun n hn s hs => multipleStep_ends p L registerList start hn hs)
  exact LoopReaches.start p registerList start data

/-- The transfer restores the CPSR from an SPSR the mode does not have: `LDM` with the
S bit and r15, after a loop that does not leave the array. -/
structure RestoresMissingSpsr (p : ArmCore) (ins : Word) : Prop where
  bank : p.bank < 2
  load : getBit ins 20 = 1
  spsr : getBit ins 22 = 1
  pc : getBit ins 15 = 1
  accessible : ∀ i < 16, getBit (listOf ins) i ≠ 0 →
    p.mem.Accessible (slot (listOf ins) (firstAddress ins (p.operand (getBits ins 19 16))) i)

theorem armLoadStoreMultiple_ends (env : Env) (p : ArmCore) (ins : Word) :
    Ends (armLoadStoreMultiple env p ins) (Handled p (· = 0))
      (fun e => e = .nullPointer → RestoresMissingSpsr p ins) := by
  have hn : getBits ins 19 16 < 16 := getBits_lt_sixteen ins rfl
  rw [armLoadStoreMultiple_eq]
  apply (noNull_imp (armReadRegister_ends p hn) _).bind
  intro base hbase
  apply (noNull_imp (multipleLoop_ends p _ _ _ _) _).bind
  intro s hs
  have hbank : s.p.bank = p.bank := bank_congr hs.cpsr
  refine Ends.bind (P := Stays p) ?_ (fun q hq => ?_)
  · refine ends_ite ?_ (fun _ => hs.stays)
    intro hL
    rcases Nat.lt_or_ge p.bank 2 with hb | hb
    · -- No SPSR: the crash, with what the loop has shown of its accesses.
      rw [armReadSpsr_null (hbank ▸ hb)]
      intro _
      have hone (i : ℕ) (h : getBit ins i ≠ 0) : getBit ins i = 1 :=
        (getBit_zero_or_one ins i).resolve_left h
      refine ⟨hb, hone _ hL.1, hone _ hL.2.1, hone _ hL.2.2, ?_⟩
      intro i hi hli
      have hop : base = p.operand (getBits ins 19 16) :=
        ok_unique hbase (armReadRegister_eq hn (by omega))
      exact hop ▸ hs.accessible i hi hli
    · apply (noNull_imp (armReadSpsr_ends (hbank ▸ hb)) _).bind
      intro v _
      exact hs.stays.writeCpsr (fun h => absurd h (by omega))
  · refine Ends.bind (P := Stays p) ?_ (fun q' hq' => ⟨rfl, hq'⟩)
    refine ends_ite ?_ (fun _ => hq)
    intro _
    exact noNull_imp ((armWriteRegister_ends q hn _).imp (fun _ h => hq.trans h.1)) _

/-- A loading round whose access stays in the array succeeds. -/
theorem multipleStep_total {p : ArmCore} (hb : p.bank < 6) {registerList : BitVec 16}
    {start : Word} {n : ℕ} (hn : n < 16) {s : MultipleLoop}
    (h : LoopReaches p registerList start n s)
    (ha : getBit registerList n ≠ 0 → p.mem.Accessible (slot registerList start n)) :
    ∃ s', multipleStep 1 registerList s n = .ok s' := by
  unfold multipleStep
  by_cases hl : getBit registerList n ≠ 0
  · rw [if_pos hl, if_pos (by decide)]
    have hacc : s.p.mem.Accessible s.address := by
      rw [h.address]
      exact (Memory.accessible_congr h.size _).mpr (ha hl)
    have hbank : s.p.bank < 6 := by
      have he : s.p.bank = p.bank := bank_congr h.cpsr
      omega
    have hread : ∃ r, armReadWord s.p s.address s.data = .ok r := by
      rcases hacc with hout | hin
      · exact ⟨_, memoryReadWord_outside hout _ _⟩
      · exact ⟨_, memoryReadWord_inRange hin _ _⟩
    obtain ⟨r, hr⟩ := hread
    rw [hr]
    simp only [ok_bind, armWriteRegister_eq hn hbank]
    exact ⟨_, rfl⟩
  · rw [if_neg hl]
    exact ⟨_, rfl⟩

/-- The transfer does follow the `NULL` pointer. -/
theorem RestoresMissingSpsr.crashes {p : ArmCore} {ins : Word} (h : RestoresMissingSpsr p ins)
    (env : Env) : armLoadStoreMultiple env p ins = .error .nullPointer := by
  have hn : getBits ins 19 16 < 16 := getBits_lt_sixteen ins rfl
  have hb : p.bank < 6 := by
    have h2 := h.bank
    omega
  rw [armLoadStoreMultiple_eq, armReadRegister_eq hn hb]
  simp only [ok_bind]
  have hloop : Ends ((List.range 16).foldlM (multipleStep (getBit ins 20) (listOf ins))
      ⟨firstAddress ins (p.operand (getBits ins 19 16)), env.data, p⟩)
      (LoopReaches p (listOf ins) (firstAddress ins (p.operand (getBits ins 19 16))) 16)
      (fun _ => False) := by
    rw [h.load]
    refine ends_foldlM_range (LoopReaches p _ _) _ 16 _ (LoopReaches.start ..) ?_
    intro n hn s hs
    exact (multipleStep_ends p 1 _ _ hn hs).total (multipleStep_total hb hn hs (h.accessible n hn))
  -- The loop succeeds and keeps the mode, so the restore is reached without an SPSR.
  obtain ⟨s, hl, hs⟩ := hloop.exists_ok
  have hbank : s.p.bank = p.bank := bank_congr hs.cpsr
  have hcond : getBit ins 20 ≠ 0 ∧ getBit ins 22 ≠ 0 ∧ getBit ins 15 ≠ 0 := by
    simp [h.load, h.spsr, h.pc]
  simp only [hl, ok_bind, multipleEnd, if_pos hcond,
    armReadSpsr_null (show s.p.bank < 2 from hbank ▸ h.bank), error_bind]

end ArmSim
