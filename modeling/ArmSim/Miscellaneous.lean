import ArmSim.Carry
import ArmSim.MemoryArray
import ArmSim.TransferEffects

/-! The halfword, signed and doubleword transfers: their addressing, which moves the base
first, and what they do when their bytes lie inside memory. -/
namespace ArmSim
open Lib

/-- The six transfers. -/
inductive MiscellaneousKind where
  | strh
  | ldrd
  | strd
  | ldrh
  | ldrsb
  | ldrsh
deriving DecidableEq, Repr

/-- The bits L, S and H of a transfer. -/
def MiscellaneousKind.lsh : MiscellaneousKind → ℕ
  | strh => 1
  | ldrd => 2
  | strd => 3
  | ldrh => 5
  | ldrsb => 6
  | ldrsh => 7

/-- The number of bytes accessed. -/
def MiscellaneousKind.count : MiscellaneousKind → ℕ
  | strh | ldrh | ldrsh => 2
  | ldrd | strd => 8
  | ldrsb => 1

def MiscellaneousKind.double (k : MiscellaneousKind) : Prop := k = ldrd ∨ k = strd

instance (k : MiscellaneousKind) : Decidable k.double := inferInstanceAs (Decidable (_ ∨ _))

def MiscellaneousKind.load (k : MiscellaneousKind) : Prop := k ≠ strh ∧ k ≠ strd

instance (k : MiscellaneousKind) : Decidable k.load := inferInstanceAs (Decidable (_ ∧ _))

/-- The registers that a transfer of `rd` loads or stores. -/
def MiscellaneousKind.transfers (k : MiscellaneousKind) (rd i : ℕ) : Prop :=
  i = rd ∨ k.double ∧ i = rd + 1

/-- The bits by which the handler tells the transfers apart. -/
def lshBits (ins : Word) : ℕ :=
  (getBit ins L_SHIFT <<< 2) ||| (getBit ins 6 <<< 1) ||| getBit ins 5

/-- The immediate offset, whose halves stand apart in the word. -/
def splitImmediate (ins : Word) : Word :=
  BitVec.ofNat 32 (16 * getBits ins 11 8 + getBits ins 3 0)

theorem splitImmediate_eq (ins : Word) :
    BitVec.ofNat 32 ((getBits ins 11 8 <<< 4) ||| getBits ins 3 0) = splitImmediate ins := by
  have hlow : getBits ins 3 0 < 2^4 := getBits_lt_sixteen ins rfl
  rw [splitImmediate, ← Nat.shiftLeft_add_eq_or_of_lt hlow, Nat.shiftLeft_eq, Nat.mul_comm]

/-- The first store of a doubleword leaves the second word inside. -/
theorem secondWord_inRange {mem : Memory} {a : Word} (h : mem.InRange a 8) (v : Word)
    (be : Bool) : (mem.setWord a v be).InRange (a + 4) 4 := by
  have hskip : mem.InRange (a + 4) 4 := h.skip
  intro j hj
  rw [Memory.size_setWord]
  exact hskip j hj

section addressing
variable [Platform]

/-- The offset of a miscellaneous transfer: the immediate or the register `Rm`. -/
def miscellaneousOffset (p : ArmCore) (ins : Word) : Word :=
  if getBit ins B_SHIFT = 1 then splitImmediate ins else p.operand (getBits ins 3 0)

/-- The address of a miscellaneous transfer. -/
def miscellaneousTarget (p : ArmCore) (ins : Word) : Word :=
  accessAddress ins (p.operand (getBits ins 19 16)) (miscellaneousOffset p ins)

/-- The base moved by the offset. -/
def miscellaneousMoved (p : ArmCore) (ins : Word) : Word :=
  movedBase ins (p.operand (getBits ins 19 16)) (miscellaneousOffset p ins)

/-- The state in which the access itself is made. -/
def based (p : ArmCore) (ins : Word) : ArmCore :=
  p.setGpIf (WritesBack ins) (getBits ins 19 16) (miscellaneousMoved p ins)

theorem based_mem (p : ArmCore) (ins : Word) : (based p ins).mem = p.mem := setGpIf_mem p _ _ _

theorem miscellaneousAddress_eq {p : ArmCore} {ins : Word} (hform : ¬Reserved ins)
    (hn : p.HasCell (getBits ins 19 16))
    (hm : getBit ins B_SHIFT = 0 → p.HasCell (getBits ins 3 0)) :
    miscellaneousAddress p ins = .ok (some (miscellaneousTarget p ins, based p ins)) := by
  have hn16 : getBits ins 19 16 < 16 := getBits_lt_sixteen ins rfl
  have hm16 : getBits ins 3 0 < 16 := getBits_lt_sixteen ins rfl
  have hread := armReadRegister_hasCell hn16 hn
  have hwrite (v : Word) := armWriteRegister_hasCell hn16 hn v
  unfold miscellaneousAddress miscellaneousTarget based miscellaneousMoved miscellaneousOffset
    accessAddress ArmCore.setGpIf
  simp only [uBitHandle_eq, splitImmediate_eq, hread, hwrite, Nat.reduceAdd]
  -- The six forms of the source; the base is written in the last four.
  rcases getBit_zero_or_one ins B_SHIFT with hB | hB
  · have hoffset := armReadRegister_hasCell hm16 (hm hB)
    rcases getBit_zero_or_one ins P_SHIFT with hP | hP <;>
      rcases getBit_zero_or_one ins W_SHIFT with hW | hW
    · simp [hB, hP, hW, hoffset, WritesBack]
    · exact absurd ⟨hP, hW⟩ hform
    · simp [hB, hP, hW, hoffset, WritesBack]
    · simp [hB, hP, hW, hoffset, WritesBack]
  · rcases getBit_zero_or_one ins P_SHIFT with hP | hP <;>
      rcases getBit_zero_or_one ins W_SHIFT with hW | hW
    · simp [hB, hP, hW, WritesBack]
    · exact absurd ⟨hP, hW⟩ hform
    · simp [hB, hP, hW, WritesBack]
    · simp [hB, hP, hW, WritesBack]

end addressing

theorem doubleAligned_of_mod {rd : ℕ} {a : Word}
    (h : rd % 2 = 0 ∧ rd ≠ 14 ∧ a.toNat % 8 = 0) : doubleAligned rd a := by
  obtain ⟨heven, h14, ha⟩ := h
  refine ⟨heven, h14, ?_, ?_⟩
  · rw [getBits_eq]
    omega
  · rw [getBit_eq_div]
    omega

section transfer
variable [Platform]

/-- What a transfer of `rd` at `a` does with its words. -/
def MiscellaneousKind.Moves (k : MiscellaneousKind) (p q : ArmCore) (rd : ℕ) (a : Word) : Prop :=
  match k with
  | strh => q.mem.halfAt a ENDIANESS = (p.operand rd).setWidth 16
  | ldrd => q.gp rd = p.mem.wordAt a ENDIANESS ∧ q.gp (rd + 1) = p.mem.wordAt (a + 4) ENDIANESS
  | strd => q.mem.wordAt a ENDIANESS = p.operand rd ∧
      q.mem.wordAt (a + 4) ENDIANESS = p.operand (rd + 1)
  | ldrh => q.gp rd = (p.mem.halfAt a ENDIANESS).setWidth 32
  | ldrsb => q.gp rd = (p.mem.byteAt a.toNat).signExtend 32
  | ldrsh => q.gp rd = (p.mem.halfAt a ENDIANESS).signExtend 32

/-- The state after the access itself. -/
def transferred (p : ArmCore) (k : MiscellaneousKind) (rd : ℕ) (a : Word) : ArmCore :=
  match k with
  | .strh => { p with mem := p.mem.setHalf a ((p.operand rd).setWidth 16) ENDIANESS }
  | .ldrd => (p.setGp rd (p.mem.wordAt a ENDIANESS)).setGp (rd + 1)
      (p.mem.wordAt (a + 4) ENDIANESS)
  | .strd =>
    { p with mem := (p.mem.setWord a (p.operand rd) ENDIANESS).setWord (a + 4)
                      (p.operand (rd + 1)) ENDIANESS }
  | .ldrh => p.setGp rd ((p.mem.halfAt a ENDIANESS).setWidth 32)
  | .ldrsb => p.setGp rd ((p.mem.byteAt a.toNat).signExtend 32)
  | .ldrsh => p.setGp rd ((p.mem.halfAt a ENDIANESS).signExtend 32)

theorem miscellaneousTransfer_inRange {p : ArmCore} (hb : p.bank < 6) {k : MiscellaneousKind}
    {rd : ℕ} (hd : rd < 16) {a : Word} (hal : k.double → doubleAligned rd a)
    (hin : p.mem.InRange a k.count) :
    miscellaneousTransfer p k.lsh rd a = .ok (0, transferred p k rd a) := by
  have hread := armReadRegister_eq hd hb
  have hwrite (v : Word) := armWriteRegister_eq hd hb v
  unfold miscellaneousTransfer transferred
  cases k with
  | strh => simp [MiscellaneousKind.lsh, hread, armWriteHalf, memoryWriteHalf_inRange hin]
  | ldrd =>
    have hal := hal (Or.inl rfl)
    have hfirst : p.mem.InRange a 4 := hin.mono (by decide)
    have hsecond : p.mem.InRange (a + 4) 4 := hin.skip
    have hbank := setGp_bank hd hb (p.mem.wordAt a ENDIANESS)
    have hread1 (v : Word) : armReadWord p a v = .ok (0, p.mem.wordAt a ENDIANESS) :=
      memoryReadWord_inRange hfirst v _
    have hread2 (v : Word) : armReadWord (p.setGp rd (p.mem.wordAt a ENDIANESS)) (a + 4) v =
        .ok (0, p.mem.wordAt (a + 4) ENDIANESS) := memoryReadWord_inRange hsecond v _
    have hwrite2 (v : Word) := armWriteRegister_eq (hal.next hd) (hbank ▸ hb) v
    simp only [MiscellaneousKind.lsh, if_pos hal, hread1, hwrite, hread2, hwrite2, ok_bind, ne_eq,
      not_true_eq_false, ↓reduceIte, pure_eq_ok]
  | strd =>
    have hal := hal (Or.inr rfl)
    have hfirst : p.mem.InRange a 4 := hin.mono (by decide)
    have hsecond := secondWord_inRange hin (p.operand rd) ENDIANESS
    -- The second register is read after the first store, from the same registers.
    have hread2 (mem : Memory) :
        armReadRegister { p with mem := mem } (rd + 1) = .ok (p.operand (rd + 1)) :=
      armReadRegister_eq (p := { p with mem := mem }) (hal.next hd) hb
    simp only [MiscellaneousKind.lsh, if_pos hal, hread, armWriteWord,
      memoryWriteWord_inRange hfirst, hread2, memoryWriteWord_inRange hsecond, ok_bind, ne_eq,
      not_true_eq_false, ↓reduceIte, pure_eq_ok]
  | ldrh =>
    have hhalf (v : Half) : armReadHalf p a v = .ok (0, p.mem.halfAt a ENDIANESS) :=
      memoryReadHalf_inRange hin v _
    simp [MiscellaneousKind.lsh, hhalf, hwrite]
  | ldrsb =>
    have hbyte (v : Byte) : armReadByte p a v = .ok (0, p.mem.byteAt a.toNat) :=
      memoryReadByte_inRange hin v
    -- The source extends the sign by hand: it sets the bits above it.
    have hsign := setBits_sign (w := 8) (by decide) (by decide) (p.mem.byteAt a.toNat)
    simp only [MiscellaneousKind.lsh, hbyte, ok_bind]
    rw [hsign, hwrite]
    rfl
  | ldrsh =>
    have hhalf (v : Half) : armReadHalf p a v = .ok (0, p.mem.halfAt a ENDIANESS) :=
      memoryReadHalf_inRange hin v _
    have hsign := setBits_sign (w := 16) (by decide) (by decide) (p.mem.halfAt a ENDIANESS)
    simp only [MiscellaneousKind.lsh, hhalf, ok_bind]
    rw [hsign, hwrite]
    rfl

theorem transferred_changes {p : ArmCore} (hb : p.bank < 6) {k : MiscellaneousKind} {rd : ℕ}
    (hd : rd < 16) {a : Word} (hal : k.double → doubleAligned rd a)
    (hin : p.mem.InRange a k.count) :
    ChangesOnly p (transferred p k rd a) (fun i => k.load ∧ k.transfers rd i)
      (fun b => ¬k.load ∧ Touches a k.count b) := by
  have hone (hk : k.load) (v : Word) : ChangesOnly p (p.setGp rd v)
      (fun i => k.load ∧ k.transfers rd i) (fun b => ¬k.load ∧ Touches a k.count b) :=
    ChangesOnly.setGp hd ⟨hk, Or.inl rfl⟩ p v
  unfold transferred
  cases k with
  | strh =>
    apply ChangesOnly.store (p.mem.size_setHalf _ _ _)
    intro i hi
    apply Memory.byteAt_setHalf_of_ne hin
    intro j hj he
    exact hi ⟨by decide, j, hj, he⟩
  | ldrd =>
    have hdouble : MiscellaneousKind.ldrd.double := Or.inl rfl
    have hd' := (hal hdouble).next hd
    exact (hone (by decide) _).trans hb
      (ChangesOnly.setGp hd' ⟨by decide, Or.inr ⟨hdouble, rfl⟩⟩ _ _)
  | strd =>
    have hfirst : p.mem.InRange a 4 := hin.mono (by decide)
    have hsecond := secondWord_inRange hin (p.operand rd) ENDIANESS
    apply ChangesOnly.store
    · rw [Memory.size_setWord, Memory.size_setWord]
    · intro i hi
      rw [Memory.byteAt_setWord_of_ne hsecond, Memory.byteAt_setWord_of_ne hfirst]
      · -- The bytes of the first word are 0 to 3 of the eight, those of the second 4 to 7.
        intro j hj he
        exact hi ⟨by decide, j, Nat.lt_of_lt_of_le hj (by decide), he⟩
      · intro j hj he
        refine hi ⟨by decide, 4 + j, Nat.add_lt_add_left hj 4, ?_⟩
        rw [he, BitVec.ofNat_add, ← BitVec.add_assoc]
        rfl
  | ldrh => exact hone (by decide) _
  | ldrsb => exact hone (by decide) _
  | ldrsh => exact hone (by decide) _

theorem transferred_moves {p : ArmCore} (hb : p.bank < 6) {k : MiscellaneousKind} {rd : ℕ}
    (hd : rd < 16) {a : Word} (hal : k.double → doubleAligned rd a)
    (hin : p.mem.InRange a k.count) : k.Moves p (transferred p k rd a) rd a := by
  unfold MiscellaneousKind.Moves transferred
  cases k with
  | strh => exact Memory.halfAt_setHalf hin _ _
  | ldrd =>
    have hd' := (hal (Or.inl rfl)).next hd
    have hbank := setGp_bank hd hb (p.mem.wordAt a ENDIANESS)
    constructor
    · -- The second register is another one, so the first keeps its word.
      rw [gp_setGp_of_ne _ hd' hd (hbank ▸ hb) (Nat.ne_of_lt (Nat.lt_succ_self rd)),
        gp_setGp_self _ hd hb]
    · exact gp_setGp_self _ hd' (hbank ▸ hb) _
  | strd =>
    have hfirst : p.mem.InRange a 4 := hin.mono (by decide)
    have hsecond := secondWord_inRange hin (p.operand rd) ENDIANESS
    constructor
    · -- The second word has no byte of the first.
      rw [Memory.wordAt_congr _ (fun j hj => ?_), Memory.wordAt_setWord hfirst]
      apply Memory.byteAt_setWord_of_ne hsecond
      intro j' hj' he
      rw [BitVec.add_assoc] at he
      exact offset_ne a (i := j) (j := 4 + j') (by omega) (by omega) (by omega)
        (by rw [BitVec.ofNat_add]; exact he)
    · exact Memory.wordAt_setWord hsecond _ _
  | ldrh => exact gp_setGp_self _ hd hb _
  | ldrsb => exact gp_setGp_self _ hd hb _
  | ldrsh => exact gp_setGp_self _ hd hb _

/-- The values moved depend on memory and on the registers transferred. -/
theorem MiscellaneousKind.Moves.congr {k : MiscellaneousKind} {p p' q : ArmCore} {rd : ℕ}
    {a : Word} (h : k.Moves p' q rd a) (hmem : p'.mem = p.mem)
    (hoperand : ∀ i, k.transfers rd i → p'.operand i = p.operand i) : k.Moves p q rd a := by
  unfold Moves at h ⊢
  have hfirst := hoperand rd (Or.inl rfl)
  cases k with
  | strh => rwa [hfirst] at h
  | strd =>
    have hsecond := hoperand (rd + 1) (Or.inr ⟨Or.inr rfl, rfl⟩)
    rwa [hfirst, hsecond] at h
  | ldrd | ldrh | ldrsb | ldrsh => rwa [hmem] at h

/-- What a miscellaneous transfer does. -/
structure MiscellaneousEffect (p q : ArmCore) (ins : Word) (k : MiscellaneousKind) : Prop where
  moves : k.Moves p q (getBits ins 15 12) (miscellaneousTarget p ins)
  base : WritesBack ins → q.gp (getBits ins 19 16) = miscellaneousMoved p ins
  others : ChangesOnly p q
    (fun i => k.load ∧ k.transfers (getBits ins 15 12) i ∨ WritesBack ins ∧ i = getBits ins 19 16)
    (fun b => ¬k.load ∧ Touches (miscellaneousTarget p ins) k.count b)

theorem based_changes (p : ArmCore) (ins : Word) : ChangesOnly p (based p ins)
    (fun i => WritesBack ins ∧ i = getBits ins 19 16) (fun _ => False) :=
  setGpIf_changes p _ (getBits_lt_sixteen ins rfl) _

theorem based_operand {p : ArmCore} (hb : p.bank < 6) (ins : Word) {i : ℕ} (hi : i < 16)
    (hne : WritesBack ins → i ≠ getBits ins 19 16) :
    (based p ins).operand i = p.operand i := by
  have hgp : (based p ins).gp i = p.gp i :=
    (based_changes p ins).gp hb hi (fun h => hne h.1 h.2)
  simp only [ArmCore.operand, hgp]

/-- The halfword, signed and doubleword transfers, in every mode but the fast interrupt's
and in every addressing mode.  An aligned pc reads as the manual has it. -/
theorem miscellaneous_transfer (p : ArmCore) (hb : p.bank < 6) (ins : Word)
    (k : MiscellaneousKind) (hk : lshBits ins = k.lsh) (hform : ¬Reserved ins)
    (hin : p.mem.InRange (miscellaneousTarget p ins) k.count)
    (hdouble : k.double → getBits ins 15 12 % 2 = 0 ∧ getBits ins 15 12 ≠ 14 ∧
      (miscellaneousTarget p ins).toNat % 8 = 0)
    (hbase : WritesBack ins → getBits ins 19 16 ≠ 15 ∧
      ∀ i, k.transfers (getBits ins 15 12) i → i ≠ getBits ins 19 16) :
    (∃ q, armLoadStoreMiscellaneous p ins = .ok (0, q) ∧ MiscellaneousEffect p q ins k) ∧
      (p.pc.toNat % 4 = 0 → ∀ i, p.operand i = p.architectural i) := by
  refine ⟨?_, fun hpc i => operand_eq_architectural hpc i⟩
  have hn : getBits ins 19 16 < 16 := getBits_lt_sixteen ins rfl
  have hd : getBits ins 15 12 < 16 := getBits_lt_sixteen ins rfl
  have hal : k.double → doubleAligned (getBits ins 15 12) (miscellaneousTarget p ins) :=
    fun h => doubleAligned_of_mod (hdouble h)
  have haddress := miscellaneousAddress_eq hform (hasCell_of_bank hb _)
    (fun _ => hasCell_of_bank hb _)
  -- The base moves first: the transfer runs from the state that leaves.
  have hmem := based_mem p ins
  have hbank := (based_changes p ins).bank hb
  rw [← hmem] at hin
  have hrun := miscellaneousTransfer_inRange (hbank ▸ hb) hd hal hin
  have htransfers {i : ℕ} (hi : k.transfers (getBits ins 15 12) i) : i < 16 := by
    rcases hi with rfl | ⟨hkd, rfl⟩
    · exact hd
    · exact (hal hkd).next hd
  have hx := transferred_changes (hbank ▸ hb) hd hal hin
  refine ⟨transferred (based p ins) k (getBits ins 15 12) (miscellaneousTarget p ins), ?_,
    ?_, ?_, ?_⟩
  · unfold armLoadStoreMiscellaneous
    rw [haddress, ok_bind, ← hrun, ← hk]
    rfl
  · apply (transferred_moves (hbank ▸ hb) hd hal hin).congr hmem
    intro i hi
    exact based_operand hb ins (htransfers hi) (fun hback => (hbase hback).2 i hi)
  · -- No transferred register is the base.
    intro hback
    rw [hx.gp (hbank ▸ hb) hn (fun h => (hbase hback).2 _ h.2 rfl)]
    exact gp_setGpIf_self hb hback hn _
  · exact ((based_changes p ins).mono (fun _ h => Or.inr h) (fun _ h => h.elim)).trans hb
      (hx.mono (fun _ h => Or.inl h) (fun _ h => h))

end transfer

/-- `LDRD r2, [r1], #8` with `r1 = 0`. -/
theorem miscellaneous_transfer_ldrd : ∃ q,
    @armLoadStoreMiscellaneous makefile (ArmCore.boot 0x10 [1, 2, 3, 4, 5, 6, 7, 8]) 0xE0C120D8 =
      .ok (0, q) ∧ @ArmCore.gp makefile q 2 = 0x01020304 ∧
      @ArmCore.gp makefile q 3 = 0x05060708 ∧ @ArmCore.gp makefile q 1 = 8 := by
  obtain ⟨⟨q, hq, heffect⟩, -⟩ := @miscellaneous_transfer makefile
    (ArmCore.boot 0x10 [1, 2, 3, 4, 5, 6, 7, 8]) (by decide) 0xE0C120D8 .ldrd (by decide)
    (by decide) (by decide) (by decide) (fun _ => ⟨by decide, by
      rintro i (rfl | ⟨-, rfl⟩) <;> decide⟩)
  obtain ⟨hfirst, hsecond⟩ := @MiscellaneousEffect.moves makefile _ _ _ _ heffect
  have hmoved := @MiscellaneousEffect.base makefile _ _ _ _ heffect (by decide)
  have hd : getBits 0xE0C120D8 15 12 = 2 := by decide
  have hn : getBits 0xE0C120D8 19 16 = 1 := by decide
  rw [hd] at hfirst hsecond
  rw [hn] at hmoved
  refine ⟨q, hq, hfirst.trans ?_, hsecond.trans ?_, hmoved.trans ?_⟩ <;> decide

end ArmSim
