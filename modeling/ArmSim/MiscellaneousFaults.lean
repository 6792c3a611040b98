import ArmSim.Miscellaneous
import ArmSim.RegisterBanks

/-! The miscellaneous transfers that fail: by then the base has moved, and a load has
written its destinations. -/
namespace ArmSim
open Lib

/-- Where a transfer fails once its address is formed: at the test of a doubleword's
alignment, at its first access, or at the access of a doubleword's second word. -/
inductive Failure where
  | refused
  | first
  | second
deriving DecidableEq, Repr

/-- The transfer of `rd` at `a` fails there. -/
def Failure.At (mem : Memory) (k : MiscellaneousKind) (rd : ℕ) (a : Word) : Failure → Prop
  | refused => k.double ∧ ¬doubleAligned rd a
  | first => (k.double → doubleAligned rd a) ∧ mem.size ≤ a.toNat
  | second => k.double ∧ doubleAligned rd a ∧ mem.InRange a 4 ∧ mem.size ≤ (a + 4).toNat

/-- The registers transferred up to there. -/
def Failure.used (rd : ℕ) : Failure → List ℕ
  | refused => []
  | first => [rd]
  | second => [rd, rd + 1]

/-- The transfer fails there, and the registers it has used have cells. -/
def FailsAt (p : ArmCore) (lsh rd : ℕ) (a : Word) : Prop :=
  ∃ (k : MiscellaneousKind) (f : Failure),
    lsh = k.lsh ∧ f.At p.mem k rd a ∧ ∀ r ∈ f.used rd, p.HasCell r

theorem failsAt_first {p : ArmCore} {k : MiscellaneousKind} {rd : ℕ} {a : Word}
    (hal : k.double → doubleAligned rd a) (hcell : p.HasCell rd) {c : ℤ}
    (hc : c = p.mem.answer a) (hne : c ≠ 0) : FailsAt p k.lsh rd a := by
  have hout : p.mem.size ≤ a.toNat := by
    by_contra h
    exact hne (hc.trans (if_neg h))
  refine ⟨k, .first, rfl, ⟨hal, hout⟩, ?_⟩
  intro r hr
  rw [List.mem_singleton.mp hr]
  exact hcell

theorem failsAt_second {p : ArmCore} {k : MiscellaneousKind} (hk : k.double) {rd : ℕ} {a : Word}
    (hal : doubleAligned rd a) (hin : p.mem.InRange a 4) (hcell : p.HasCell rd)
    (hcell' : p.HasCell (rd + 1)) {c : ℤ} (hc : c = p.mem.answer (a + 4)) (hne : c ≠ 0) :
    FailsAt p k.lsh rd a := by
  have hout : p.mem.size ≤ (a + 4).toNat := by
    by_contra h
    exact hne (hc.trans (if_neg h))
  refine ⟨k, .second, rfl, ⟨hk, hal, hin, hout⟩, ?_⟩
  intro r hr
  rcases List.mem_cons.mp hr with rfl | hr'
  · exact hcell
  · rw [List.mem_singleton.mp hr']
    exact hcell'

/-- The cells of the registers that are written. -/
def staleCells (p : ArmCore) (writes : List (ℕ × Word)) : List (Cell × Word) :=
  writes.map (fun w => (bankCell w.1 p.bank, w.2))

section cells
variable [Platform]

/-- What a load has put into its destinations when it fails: 0 for a word that it could
not read, and the first word in place of the second. -/
def stale (mem : Memory) (k : MiscellaneousKind) (rd : ℕ) (a : Word) :
    Failure → List (ℕ × Word)
  | .refused => []
  | .first => if k.load then [(rd, 0)] else []
  | .second =>
    if k.load then [(rd, mem.wordAt a ENDIANESS), (rd + 1, mem.wordAt a ENDIANESS)] else []

/-- The state in which a transfer fails. -/
def failed (p : ArmCore) (k : MiscellaneousKind) (rd : ℕ) (a : Word) (f : Failure) : ArmCore :=
  { p with
    reg := registerCells.setAll p.reg (staleCells p (stale p.mem k rd a f))
    mem := if k = .strd ∧ f = .second then p.mem.setWord a (p.operand rd) ENDIANESS else p.mem }

/-- A load that cannot read its first word writes 0. -/
theorem miscellaneousTransfer_unread {p : ArmCore} {k : MiscellaneousKind} (hk : k.load)
    {rd : ℕ} (hd : rd < 16) {a : Word} (hal : k.double → doubleAligned rd a)
    (hout : p.mem.size ≤ a.toNat) (hcell : p.HasCell rd) :
    miscellaneousTransfer p k.lsh rd a = .ok (-1, p.setGp rd 0) := by
  have hwrite (v : Word) := armWriteRegister_hasCell hd hcell v
  have hword (v : Word) : armReadWord p a v = .ok (-1, v) := memoryReadWord_outside hout v _
  have hhalf (v : Half) : armReadHalf p a v = .ok (-1, v) := memoryReadHalf_outside hout v _
  have hbyte (v : Byte) : armReadByte p a v = .ok (-1, v) := by
    simp [armReadByte, memoryReadByte, hout]
  unfold miscellaneousTransfer
  cases k with
  | strh => exact absurd rfl hk.1
  | strd => exact absurd rfl hk.2
  | ldrd =>
    simp [MiscellaneousKind.lsh, hal (Or.inl rfl), hword, hwrite]
  | ldrh => simp [MiscellaneousKind.lsh, hhalf, hwrite]
  | ldrsb =>
    -- The local variable starts at 0, which extends to 0.
    have hsign := setBits_sign (w := 8) (by decide) (by decide) 0
    simp only [MiscellaneousKind.lsh, hbyte, ok_bind]
    rw [hsign, hwrite]
    rfl
  | ldrsh =>
    have hsign := setBits_sign (w := 16) (by decide) (by decide) 0
    simp only [MiscellaneousKind.lsh, hhalf, ok_bind]
    rw [hsign, hwrite]
    rfl

theorem miscellaneousTransfer_fails {p : ArmCore} {k : MiscellaneousKind} {rd : ℕ}
    (hd : rd < 16) {a : Word} {f : Failure} (hf : f.At p.mem k rd a)
    (hcells : ∀ r ∈ f.used rd, p.HasCell r) :
    ∃ c ≠ 0, miscellaneousTransfer p k.lsh rd a = .ok (c, failed p k rd a f) := by
  cases f with
  | refused =>
    obtain ⟨hk, hal⟩ := hf
    refine ⟨7, by decide, ?_⟩
    unfold miscellaneousTransfer
    rcases hk with rfl | rfl
    · exact if_neg hal
    · exact if_neg hal
  | first =>
    obtain ⟨hal, hout⟩ := hf
    have hcell := hcells rd List.mem_cons_self
    have hread := armReadRegister_hasCell hd hcell
    refine ⟨-1, by decide, ?_⟩
    -- A load writes what the failing read left before its code is looked at; a store has
    -- written nothing yet.
    by_cases hk : k.load
    · rw [miscellaneousTransfer_unread hk hd hal hout hcell]
      simp [failed, stale, hk, registerCells, CellStore.setAll, staleCells, ArmCore.setGp,
        ArmCore.setCell]
    · have hkept : failed p k rd a .first = p := by
        simp [failed, stale, hk, CellStore.setAll, staleCells]
      rw [hkept]
      unfold miscellaneousTransfer
      cases k with
      | strh =>
        simp [MiscellaneousKind.lsh, hread, armWriteHalf, memoryWriteHalf_outside hout]
      | strd =>
        simp [MiscellaneousKind.lsh, hal (Or.inr rfl), hread, armWriteWord,
          memoryWriteWord_outside hout]
      | ldrd | ldrh | ldrsb | ldrsh => exact absurd (by decide) hk
  | second =>
    obtain ⟨hk, hal, hin, hout⟩ := hf
    have hd' := hal.next hd
    have hcell := hcells rd List.mem_cons_self
    have hcell' := hcells (rd + 1) (List.mem_cons_of_mem _ List.mem_cons_self)
    refine ⟨-1, by decide, ?_⟩
    unfold miscellaneousTransfer
    rcases hk with rfl | rfl
    · -- The second read leaves the first word in the local variable.
      have hbank := setGp_bank_hasCell hd hcell (p.mem.wordAt a ENDIANESS)
      have hread1 (v : Word) : armReadWord p a v = .ok (0, p.mem.wordAt a ENDIANESS) :=
        memoryReadWord_inRange hin v _
      have hread2 (v : Word) : armReadWord (p.setGp rd (p.mem.wordAt a ENDIANESS)) (a + 4) v =
          .ok (-1, v) := memoryReadWord_outside hout v _
      have hwrite1 := armWriteRegister_hasCell hd hcell (p.mem.wordAt a ENDIANESS)
      have hwrite2 := armWriteRegister_hasCell (p := p.setGp rd (p.mem.wordAt a ENDIANESS)) hd'
        (fun h6 => hcell' (hbank ▸ h6)) (p.mem.wordAt a ENDIANESS)
      have hleft : failed p .ldrd rd a .second = (p.setGp rd (p.mem.wordAt a ENDIANESS)).setGp
          (rd + 1) (p.mem.wordAt a ENDIANESS) := by
        conv_rhs => rw [ArmCore.setGp, hbank]
        rfl
      rw [hleft]
      simp only [MiscellaneousKind.lsh, if_pos hal, hread1, hwrite1, hread2, hwrite2, ok_bind,
        ne_eq, not_true_eq_false, ↓reduceIte, pure_eq_ok]
    · -- The first word is in memory when the second store fails.
      have hread1 := armReadRegister_hasCell hd hcell
      have hread2 (mem : Memory) :
          armReadRegister { p with mem := mem } (rd + 1) = .ok (p.operand (rd + 1)) :=
        armReadRegister_hasCell (p := { p with mem := mem }) hd' hcell'
      have hout2 (v : Word) : (p.mem.setWord a v ENDIANESS).size ≤ (a + 4).toNat := by
        rw [Memory.size_setWord]
        exact hout
      simp only [MiscellaneousKind.lsh, if_pos hal, hread1, armWriteWord,
        memoryWriteWord_inRange hin, hread2, memoryWriteWord_outside (hout2 _), ok_bind, ne_eq,
        not_true_eq_false, ↓reduceIte, pure_eq_ok]
      simp [failed, stale, MiscellaneousKind.load, CellStore.setAll, staleCells]

/-! The other direction: a call that returns has found a cell for each register it used. -/

theorem miscellaneousTransfer_failure (p : ArmCore) (lsh : ℕ) {rd : ℕ} (hd : rd < 16)
    (a : Word) :
    Ends (miscellaneousTransfer p lsh rd a) (fun r => r.1 ≠ 0 → FailsAt p lsh rd a) NoNull := by
  have hread := armReadRegister_cell p hd
  have hwrite (v : Word) := armWriteRegister_cell p hd v
  have hrefused (k : MiscellaneousKind) (hk : k.double) (hal : ¬doubleAligned rd a) :
      FailsAt p k.lsh rd a :=
    ⟨k, .refused, rfl, ⟨hk, hal⟩, fun _ hr => absurd hr List.not_mem_nil⟩
  -- In the order of the source: STRH, LDRD, STRD, LDRH, LDRSB, LDRSH, and the words that are
  -- none of these, which return 0.
  unfold miscellaneousTransfer
  split
  · apply hread.bind
    intro v hcell
    exact (armWriteHalf_ends p a _).imp
      (fun r hr => failsAt_first (k := .strh) (fun h => absurd h (by decide)) hcell hr.code)
  · refine ends_ite (fun hal => ?_) (fun hal _ => hrefused .ldrd (by decide) hal)
    apply (armReadWord_ends p a 0).bind
    intro r hr
    apply (hwrite _).bind
    rintro q ⟨hcell, rfl⟩
    refine ends_ite (fun _ => failsAt_first (k := .ldrd) (fun _ => hal) hcell hr.1) (fun h0 => ?_)
    -- The second word is read from the same memory, into the same bank.
    apply (armReadWord_ends _ (a + 4) _).bind
    intro r' hr'
    apply (armWriteRegister_cell _ (hal.next hd) _).bind
    rintro q ⟨hcell', rfl⟩
    have hbank := setGp_bank_hasCell hd hcell r.2
    exact failsAt_second (k := .ldrd) (by decide) hal (hr.2 (not_ne_iff.mp h0)) hcell
      (fun h6 => hcell' (hbank.trans h6)) hr'.1
  · refine ends_ite (fun hal => ?_) (fun hal _ => hrefused .strd (by decide) hal)
    apply hread.bind
    intro v hcell
    apply (armWriteWord_ends p a v).bind
    intro r hr
    refine ends_ite (fun _ => failsAt_first (k := .strd) (fun _ => hal) hcell hr.1.code)
      (fun h0 => ?_)
    apply (armReadRegister_cell _ (hal.next hd)).bind
    intro v' hcell'
    apply (armWriteWord_ends _ (a + 4) v').imp
    intro r' hr'
    have hbank : r.2.bank = p.bank := by simp only [ArmCore.bank, hr.1.reg]
    have hcode : r'.1 = p.mem.answer (a + 4) := by
      rw [hr'.1.code]
      simp only [Memory.answer, hr.1.size]
    exact failsAt_second (k := .strd) (by decide) hal (hr.2 (not_ne_iff.mp h0)) hcell
      (fun h6 => hcell' (hbank.trans h6)) hcode
  · refine (armReadHalf_ends p a _).bind (fun r hr => (hwrite _).bind (fun q hq => ?_))
    exact failsAt_first (k := .ldrh) (fun h => absurd h (by decide)) hq.1 hr
  · refine (armReadByte_ends p a _).bind (fun r hr => (hwrite _).bind (fun q hq => ?_))
    exact failsAt_first (k := .ldrsb) (fun h => absurd h (by decide)) hq.1 hr
  · refine (armReadHalf_ends p a _).bind (fun r hr => (hwrite _).bind (fun q hq => ?_))
    exact failsAt_first (k := .ldrsh) (fun h => absurd h (by decide)) hq.1 hr
  · exact fun hne => absurd rfl hne

theorem miscellaneousAddress_cells (p : ArmCore) (ins : Word) :
    Ends (miscellaneousAddress p ins) (fun o => o = none ∨ p.HasCell (getBits ins 19 16) ∧
      (getBit ins B_SHIFT = 0 → p.HasCell (getBits ins 3 0))) NoNull := by
  have hn := armReadRegister_cell p (getBits_lt_sixteen ins rfl : getBits ins 19 16 < 16)
  have hm := armReadRegister_cell p (getBits_lt_sixteen ins rfl : getBits ins 3 0 < 16)
  have hwrite (v : Word) :=
    armWriteRegister_cell p (getBits_lt_sixteen ins rfl : getBits ins 19 16 < 16) v
  -- The six addressing forms, then the reserved one.
  unfold miscellaneousAddress
  refine ends_ite (fun h => ?_) (fun _ => ends_ite (fun _ => ?_) (fun _ => ?_))
  · exact hn.bind (fun _ hcell => Or.inr ⟨hcell, fun h0 => absurd h0 h.2.1⟩)
  · exact hn.bind (fun _ hcell => hm.bind (fun _ hcell' => Or.inr ⟨hcell, fun _ => hcell'⟩))
  refine ends_ite (fun h => ?_) (fun _ => ends_ite (fun _ => ?_) (fun _ => ?_))
  · exact hn.bind (fun _ hcell => (hwrite _).bind
      (fun _ _ => Or.inr ⟨hcell, fun h0 => absurd h0 h.2.1⟩))
  · exact hn.bind (fun _ hcell => hm.bind (fun _ hcell' => (hwrite _).bind
      (fun _ _ => Or.inr ⟨hcell, fun _ => hcell'⟩)))
  refine ends_ite (fun h => ?_) (fun _ => ends_ite (fun _ => ?_) (fun _ => Or.inl rfl))
  · exact hn.bind (fun _ hcell => (hwrite _).bind
      (fun _ _ => Or.inr ⟨hcell, fun h0 => absurd h0 h.2.1⟩))
  · exact hn.bind (fun _ hcell => hm.bind (fun _ hcell' => (hwrite _).bind
      (fun _ _ => Or.inr ⟨hcell, fun _ => hcell'⟩)))

/-- The call has written nothing but what was there when it fails at `f`: the offset moves
the base by nothing, unless a destination overwrites the base; the destinations of a load
hold what it leaves in them; and the first word of a doubleword store is in memory. -/
structure Harmless (p : ArmCore) (ins : Word) (k : MiscellaneousKind) (f : Failure) : Prop where
  base : WritesBack ins →
    getBits ins 19 16 ∉ (stale p.mem k (getBits ins 15 12) (miscellaneousTarget p ins) f).map
      Prod.fst → p.gp (getBits ins 19 16) = miscellaneousMoved p ins
  destinations : ∀ w ∈ stale p.mem k (getBits ins 15 12) (miscellaneousTarget p ins) f,
    p.gp w.1 = w.2
  word : k = .strd → f = .second →
    p.mem.wordAt (miscellaneousTarget p ins) ENDIANESS = p.operand (getBits ins 15 12)

/-- The registers a call uses up to its failure. -/
def usedRegisters (ins : Word) (f : Failure) : List ℕ :=
  getBits ins 19 16 :: (if getBit ins B_SHIFT = 0 then [getBits ins 3 0] else []) ++
    f.used (getBits ins 15 12)

/-- A failing call leaves all registers and all of memory as they were. -/
def FailsAtomically (p : ArmCore) (ins : Word) : Prop :=
  ∀ c q, armLoadStoreMiscellaneous p ins = .ok (c, q) → c ≠ 0 → q.reg = p.reg ∧ q.mem = p.mem

theorem armLoadStoreMiscellaneous_reserved {p : ArmCore} {ins : Word} (h : Reserved ins) :
    armLoadStoreMiscellaneous p ins = .ok (7, p) := by
  have hnone : miscellaneousAddress p ins = .ok none := by
    simp [miscellaneousAddress, h.1, h.2]
  unfold armLoadStoreMiscellaneous
  rw [hnone]
  rfl

theorem armLoadStoreMiscellaneous_eq {p : ArmCore} {ins : Word} (hform : ¬Reserved ins)
    (hn : p.HasCell (getBits ins 19 16))
    (hm : getBit ins B_SHIFT = 0 → p.HasCell (getBits ins 3 0)) :
    armLoadStoreMiscellaneous p ins = miscellaneousTransfer (based p ins) (lshBits ins)
      (getBits ins 15 12) (miscellaneousTarget p ins) := by
  unfold armLoadStoreMiscellaneous
  rw [miscellaneousAddress_eq hform hn hm]
  rfl

theorem based_bank {p : ArmCore} {ins : Word} (hn : p.HasCell (getBits ins 19 16)) :
    (based p ins).bank = p.bank := by
  unfold based ArmCore.setGpIf
  split
  · exact setGp_bank_hasCell (getBits_lt_sixteen ins rfl) hn _
  · rfl

/-- The state in which the call `ins` fails at `f`. -/
def failedCall (p : ArmCore) (ins : Word) (k : MiscellaneousKind) (f : Failure) : ArmCore :=
  failed (based p ins) k (getBits ins 15 12) (miscellaneousTarget p ins) f

theorem stale_used {mem : Memory} {k : MiscellaneousKind} {rd : ℕ} {a : Word} {f : Failure} :
    ∀ w ∈ stale mem k rd a f, w.1 ∈ f.used rd := by
  intro w hw
  cases f with
  | refused => exact absurd hw List.not_mem_nil
  | first =>
    simp only [stale] at hw
    split at hw
    · rw [List.mem_singleton.mp hw]
      exact List.mem_cons_self
    · exact absurd hw List.not_mem_nil
  | second =>
    simp only [stale] at hw
    split at hw
    · rcases List.mem_cons.mp hw with rfl | hw'
      · exact List.mem_cons_self
      · rw [List.mem_singleton.mp hw']
        exact List.mem_cons_of_mem _ List.mem_cons_self
    · exact absurd hw List.not_mem_nil

theorem stale_nodup (mem : Memory) (k : MiscellaneousKind) (rd : ℕ) (a : Word) (f : Failure) :
    ((stale mem k rd a f).map Prod.fst).Nodup := by
  cases f with
  | refused => exact List.nodup_nil
  | first =>
    simp only [stale]
    split <;> simp
  | second =>
    simp only [stale]
    split <;> simp

omit [Platform] in
theorem Failure.used_lt {mem : Memory} {k : MiscellaneousKind} {rd : ℕ} (hd : rd < 16) {a : Word}
    {f : Failure} (hf : f.At mem k rd a) : ∀ r ∈ f.used rd, r < 16 := by
  intro r hr
  cases f with
  | refused => exact absurd hr List.not_mem_nil
  | first =>
    rw [List.mem_singleton.mp hr]
    exact hd
  | second =>
    rcases List.mem_cons.mp hr with rfl | hr'
    · exact hd
    · rw [List.mem_singleton.mp hr']
      exact hf.2.1.next hd

omit [Platform] in
/-- Writes to different registers go to different cells. -/
theorem staleCells_nodup {p : ArmCore} {writes : List (ℕ × Word)}
    (hcells : ∀ w ∈ writes, w.1 < 16 ∧ p.HasCell w.1) (hnodup : (writes.map Prod.fst).Nodup) :
    ((staleCells p writes).map Prod.fst).Nodup := by
  -- A cell names its register.
  have hreg : ((staleCells p writes).map Prod.fst).map Cell.reg = writes.map Prod.fst := by
    unfold staleCells
    rw [List.map_map, List.map_map]
    apply List.map_congr_left
    intro w hw
    exact bankCell_reg_hasCell (hcells w hw).1 (hcells w hw).2
  exact List.Nodup.of_map Cell.reg (hreg ▸ hnodup)

omit [Platform] in
theorem mem_staleCells (p : ArmCore) {writes : List (ℕ × Word)} {reg : ℕ}
    (h : reg ∈ writes.map Prod.fst) :
    bankCell reg p.bank ∈ (staleCells p writes).map Prod.fst := by
  obtain ⟨w, hw, rfl⟩ := List.mem_map.mp h
  exact List.mem_map.mpr ⟨_, List.mem_map.mpr ⟨w, hw, rfl⟩, rfl⟩

/-- Writes leave the registers as they were exactly when they put back what was there. -/
theorem setAll_staleCells_iff {p : ArmCore} {writes : List (ℕ × Word)}
    (hcells : ∀ w ∈ writes, w.1 < 16 ∧ p.HasCell w.1) (hnodup : (writes.map Prod.fst).Nodup) :
    registerCells.setAll p.reg (staleCells p writes) = p.reg ↔ ∀ w ∈ writes, p.gp w.1 = w.2 := by
  rw [registerCells.setAll_eq_self_iff registerCells_ext p.reg (staleCells_nodup hcells hnodup)]
  exact List.forall_mem_map

/-- The registers after a failing call, compared with those before it. -/
theorem failed_reg_iff {p : ArmCore} {ins : Word} {k : MiscellaneousKind} {f : Failure}
    (hf : f.At p.mem k (getBits ins 15 12) (miscellaneousTarget p ins))
    (hn : p.HasCell (getBits ins 19 16))
    (hcells : ∀ r ∈ f.used (getBits ins 15 12), p.HasCell r) :
    (failedCall p ins k f).reg = p.reg ↔
      (WritesBack ins → getBits ins 19 16 ∉
        (stale p.mem k (getBits ins 15 12) (miscellaneousTarget p ins) f).map Prod.fst →
        p.gp (getBits ins 19 16) = miscellaneousMoved p ins) ∧
      ∀ w ∈ stale p.mem k (getBits ins 15 12) (miscellaneousTarget p ins) f, p.gp w.1 = w.2 := by
  have hn16 : getBits ins 19 16 < 16 := getBits_lt_sixteen ins rfl
  have hd16 : getBits ins 15 12 < 16 := getBits_lt_sixteen ins rfl
  have hnodup := stale_nodup p.mem k (getBits ins 15 12) (miscellaneousTarget p ins) f
  have hstale : ∀ w ∈ stale p.mem k (getBits ins 15 12) (miscellaneousTarget p ins) f,
      w.1 < 16 ∧ p.HasCell w.1 :=
    fun w hw => ⟨Failure.used_lt hd16 hf _ (stale_used w hw), hcells _ (stale_used w hw)⟩
  have hreg : (failedCall p ins k f).reg =
      registerCells.setAll (based p ins).reg
        (staleCells p (stale p.mem k (getBits ins 15 12) (miscellaneousTarget p ins) f)) := by
    unfold failedCall failed staleCells
    rw [based_mem, based_bank hn]
  rw [hreg]
  -- From here on the writes may be any, as long as their registers differ.
  generalize stale p.mem k (getBits ins 15 12) (miscellaneousTarget p ins) f = writes at *
  by_cases hback : WritesBack ins
  · have hbased : (based p ins).reg = registerCells.set p.reg (bankCell (getBits ins 19 16) p.bank)
        (miscellaneousMoved p ins) := by
      unfold based ArmCore.setGpIf
      rw [if_pos hback]
      rfl
    rw [hbased]
    by_cases hmem : getBits ins 19 16 ∈ writes.map Prod.fst
    · -- A destination overwrites the base.
      rw [registerCells.setAll_set registerCells_ext _ (staleCells_nodup hstale hnodup)
        (mem_staleCells p hmem), setAll_staleCells_iff hstale hnodup]
      exact ⟨fun h => ⟨fun _ hnot => absurd hmem hnot, h⟩, fun h => h.2⟩
    · -- The base is one more register written.
      have hall := @setAll_staleCells_iff _ p
        ((getBits ins 19 16, miscellaneousMoved p ins) :: writes)
        (List.forall_mem_cons.mpr ⟨⟨hn16, hn⟩, hstale⟩) (List.nodup_cons.mpr ⟨hmem, hnodup⟩)
      rw [List.forall_mem_cons] at hall
      refine hall.trans (and_congr_left' ?_)
      exact ⟨fun h _ _ => h, fun h => h hback hmem⟩
  · have hbased : (based p ins).reg = p.reg := by
      unfold based ArmCore.setGpIf
      rw [if_neg hback]
    rw [hbased, setAll_staleCells_iff hstale hnodup]
    exact ⟨fun h => ⟨fun h' => absurd h' hback, h⟩, fun h => h.2⟩

/-- Memory differs only by the first word of a doubleword store. -/
theorem failed_mem_iff {p : ArmCore} {ins : Word} {k : MiscellaneousKind} {f : Failure}
    (hf : f.At p.mem k (getBits ins 15 12) (miscellaneousTarget p ins))
    (hreg : (failedCall p ins k f).reg = p.reg) :
    (failedCall p ins k f).mem = p.mem ↔ (k = .strd → f = .second →
      p.mem.wordAt (miscellaneousTarget p ins) ENDIANESS = p.operand (getBits ins 15 12)) := by
  by_cases hsecond : k = .strd ∧ f = .second
  · obtain ⟨rfl, rfl⟩ := hsecond
    -- A store writes no register, so these are those of the moved base.
    have hbased : (based p ins).reg = p.reg := hreg
    have hstore : (failedCall p ins .strd .second).mem = p.mem.setWord
        (miscellaneousTarget p ins) (p.operand (getBits ins 15 12)) ENDIANESS := by
      rw [← operand_congr hbased, ← based_mem p ins]
      rfl
    rw [hstore, Memory.setWord_eq_self_iff hf.2.2.1]
    exact ⟨fun h _ _ => h, fun h => h rfl rfl⟩
  · have hkept : (failedCall p ins k f).mem = p.mem :=
      (if_neg hsecond).trans (based_mem p ins)
    exact ⟨fun _ hk hs => absurd ⟨hk, hs⟩ hsecond, fun _ => hkept⟩

theorem failed_unchanged_iff {p : ArmCore} {ins : Word} {k : MiscellaneousKind} {f : Failure}
    (hf : f.At p.mem k (getBits ins 15 12) (miscellaneousTarget p ins))
    (hn : p.HasCell (getBits ins 19 16))
    (hcells : ∀ r ∈ f.used (getBits ins 15 12), p.HasCell r) :
    (failedCall p ins k f).reg = p.reg ∧ (failedCall p ins k f).mem = p.mem ↔
      Harmless p ins k f := by
  have hreg := failed_reg_iff hf hn hcells
  constructor
  · intro h
    obtain ⟨hbase, hdest⟩ := hreg.mp h.1
    exact ⟨hbase, hdest, (failed_mem_iff hf h.1).mp h.2⟩
  · intro h
    have hr := hreg.mpr ⟨h.base, h.destinations⟩
    exact ⟨hr, (failed_mem_iff hf hr).mpr h.word⟩

/-- A failing call leaves registers and memory as they were exactly when it is the reserved
form, or has by then written back what was there. -/
theorem miscellaneous_fails_atomically_iff (p : ArmCore) (ins : Word) :
    FailsAtomically p ins ↔ (¬Reserved ins → ∀ (k : MiscellaneousKind) (f : Failure),
      lshBits ins = k.lsh → f.At p.mem k (getBits ins 15 12) (miscellaneousTarget p ins) →
      (∀ r ∈ usedRegisters ins f, p.HasCell r) → Harmless p ins k f) := by
  have hd : getBits ins 15 12 < 16 := getBits_lt_sixteen ins rfl
  have hmem := based_mem p ins
  have hbasedCell {r : ℕ} (hn : p.HasCell (getBits ins 19 16)) :
      (based p ins).HasCell r ↔ p.HasCell r := by
    unfold ArmCore.HasCell
    rw [based_bank hn]
  constructor
  · -- A failure that can happen does happen, so the call it belongs to has to be harmless.
    intro h hform k f hk hf hcells
    have hn : p.HasCell (getBits ins 19 16) :=
      hcells _ (List.mem_append_left _ List.mem_cons_self)
    have hm : getBit ins B_SHIFT = 0 → p.HasCell (getBits ins 3 0) := by
      intro hB
      apply hcells
      simp [usedRegisters, hB]
    have hused : ∀ r ∈ f.used (getBits ins 15 12), p.HasCell r :=
      fun r hr => hcells r (List.mem_append_right _ hr)
    obtain ⟨c, hc, hrun⟩ := miscellaneousTransfer_fails hd (hmem ▸ hf)
      (fun r hr => (hbasedCell hn).mpr (hused r hr))
    rw [← hk, ← armLoadStoreMiscellaneous_eq hform hn hm] at hrun
    exact (failed_unchanged_iff hf hn hused).mp (h c _ hrun hc)
  · -- A call that returns another code than 0 has failed at one of the three places.
    intro h c q hrun hc
    by_cases hform : Reserved ins
    · rw [armLoadStoreMiscellaneous_reserved hform] at hrun
      cases hrun
      exact ⟨rfl, rfl⟩
    obtain ⟨o, ho, hrest⟩ := bind_eq_ok.mp hrun
    rcases (miscellaneousAddress_cells p ins).value ho with rfl | ⟨hn, hm⟩
    · cases hrest
      exact ⟨rfl, rfl⟩
    · rw [armLoadStoreMiscellaneous_eq hform hn hm] at hrun
      obtain ⟨k, f, hk, hf, hused⟩ := (miscellaneousTransfer_failure (based p ins) (lshBits ins)
        hd (miscellaneousTarget p ins)).value hrun hc
      obtain ⟨c', -, hrun'⟩ := miscellaneousTransfer_fails hd hf hused
      rw [hk, hrun'] at hrun
      cases hrun
      rw [hmem] at hf
      have hused' : ∀ r ∈ f.used (getBits ins 15 12), p.HasCell r :=
        fun r hr => (hbasedCell hn).mp (hused r hr)
      apply (failed_unchanged_iff hf hn hused').mpr
      apply h hform k f hk hf
      intro r hr
      rcases List.mem_append.mp hr with hr' | hr'
      · rcases List.mem_cons.mp hr' with rfl | hr''
        · exact hn
        · split at hr''
          · rw [List.mem_singleton.mp hr'']
            exact hm ‹_›
          · exact absurd hr'' List.not_mem_nil
      · exact hused' r hr'

end cells

/-- `LDRH r0, [r1, #4]!` without memory moves the base and clears `r0`, and `STRD r2, [r1]`
with room for its first word only stores it. -/
theorem miscellaneous_fails_changed :
    ¬@FailsAtomically makefile (@ArmCore.setGp makefile (ArmCore.boot 0x10 []) 0 5) 0xE1F100B4 ∧
      ¬@FailsAtomically makefile (@ArmCore.setGp makefile (ArmCore.boot 0x10 [0, 0, 0, 0]) 2 5)
        0xE1C120F0 := by
  constructor
  · intro h
    have hrun : ∃ q, @armLoadStoreMiscellaneous makefile
        (@ArmCore.setGp makefile (ArmCore.boot 0x10 []) 0 5) 0xE1F100B4 = .ok (-1, q) ∧
        q.reg (bankCell 0 0) ≠
          (@ArmCore.setGp makefile (ArmCore.boot 0x10 []) 0 5).reg (bankCell 0 0) :=
      ⟨_, rfl, by decide⟩
    obtain ⟨q, hq, hne⟩ := hrun
    exact hne (congrFun (h (-1) q hq (by decide)).1 _)
  · intro h
    have hrun : ∃ q, @armLoadStoreMiscellaneous makefile
        (@ArmCore.setGp makefile (ArmCore.boot 0x10 [0, 0, 0, 0]) 2 5) 0xE1C120F0 = .ok (-1, q) ∧
        q.mem.data ≠ [0, 0, 0, 0] := ⟨_, rfl, by decide⟩
    obtain ⟨q, hq, hne⟩ := hrun
    exact hne (congrArg Memory.data (h (-1) q hq (by decide)).2)

end ArmSim
