import ArmSim.Handlers

/-! Single loads and stores: which addresses each addressing form accesses, and that
the result code is decided by them. -/
namespace ArmSim
open Lib
variable [Platform]

/-- The address of the access of an immediate or register form: the indexed base,
the base itself when it is indexed after the access, and none in the reserved form. -/
def indexedAddresses (ins base offset : Word) : List Word :=
  if getBit ins P_SHIFT = 1 then [uBitHandle (getBit ins U_SHIFT) base offset]
  else if getBit ins W_SHIFT = 1 then [] else [base]

/-- The addresses a miscellaneous transfer accesses: the second word of a doubleword
only after the first one. -/
def transferAddresses (p : ArmCore) (lshBits rd : ℕ) (address : Word) : List Word :=
  match lshBits with
  | 1 | 5 | 6 | 7 => [address]
  | 2 | 3 =>
    if doubleAligned rd address then
      if p.mem.InRange address 4 then [address, address + 4] else [address]
    else []
  | _ => []

/-- The addresses the single load or store `ins` accesses in state `p`; no address
when the instruction is another one. -/
def dataAddresses (p : ArmCore) (ins : Word) : Except Crash (List Word) :=
  match getBits ins 27 25 with
  | 0x2 => do
    let base ← armReadRegister p (getBits ins 19 16)
    return indexedAddresses ins base (BitVec.ofNat 32 (getBits ins 11 0))
  | 0x3 => do
    if getBit ins 4 = 0 then
      let offset ← armReadRegister p (getBits ins 3 0)
      let base ← armReadRegister p (getBits ins 19 16)
      return indexedAddresses ins base (scaledOffset (getBits ins 6 5) (getBits ins 11 7)
        (getBits ins 3 0) offset (armReadCpsr p))
    else
      return []
  | 0x0 => do
    if getBit ins 4 = 1 ∧ getBit ins 7 = 1 ∧ ¬(getBit ins 5 = 0 ∧ getBit ins 6 = 0) then
      match ← miscellaneousAddress p ins with
      | none => return []
      | some (address, _) =>
        return transferAddresses p
          ((getBit ins L_SHIFT <<< 2) ||| (getBit ins 6 <<< 1) ||| getBit ins 5)
          (getBits ins 15 12) address
    else
      return []
  | _ => return []

/-- One of the accesses of `ins` has its address outside memory. -/
def AccessOutside (p : ArmCore) (ins : Word) : Prop :=
  ∃ addresses, dataAddresses p ins = .ok addresses ∧ ∃ a ∈ addresses, p.mem.size ≤ a.toNat

/-- The code of a transfer: success, undefined, or -1 for an access outside memory. -/
def TransferCode (p : ArmCore) (ins : Word) (c : ℤ) : Prop :=
  c = 0 ∨ c = 7 ∨ (c = -1 ∧ AccessOutside p ins)

section single
variable (p : ArmCore)

theorem bBitHandle_ends (l b : ℕ) (addr : Word) {rd : ℕ} (hd : rd < 16) :
    Ends (bBitHandle p l b addr rd) (Handled p (· = p.mem.answer addr)) NoNull := by
  unfold bBitHandle
  have hread := armReadRegister_ends p hd
  have hwrite (v : Word) := armWriteRegister_ends p hd v
  refine ends_ite (fun _ => ends_ite (fun _ => ?_) (fun _ => ?_))
    (fun _ => ends_ite (fun _ => ?_) (fun _ => ?_))
  · apply (armReadByte_ends p addr 0).bind
    intro r hr
    exact ends_ite (fun _ => ⟨hr, Stays.refl p⟩)
      (fun _ => (hwrite _).bind (fun q hq => ⟨hr, hq.1⟩))
  · apply (armReadWord_ends p addr 0).bind
    intro r hr
    exact ends_ite (fun _ => ⟨hr.1, Stays.refl p⟩)
      (fun _ => (hwrite _).bind (fun q hq => ⟨hr.1, hq.1⟩))
  · exact hread.bind (fun v _ =>
      (armWriteByte_ends p addr _).imp (fun r hr => ⟨hr.code, hr.stays⟩))
  · exact hread.bind (fun v _ =>
      (armWriteWord_ends p addr _).imp (fun r hr => ⟨hr.1.code, hr.1.stays⟩))

/-- What an indexing helper does: it answers for the address it accesses. -/
def Indexed (p : ArmCore) (address : Word) (r : ℤ × ArmCore × Word) : Prop :=
  Handled p (· = p.mem.answer address) (r.1, r.2.1)

variable (l u b : ℕ) {rn rd : ℕ} (addr offset : Word)

theorem immediateOffset_ends (hd : rd < 16) :
    Ends (immediateOffset p l u b rd addr offset) (Indexed p (uBitHandle u addr offset))
      NoNull :=
  (bBitHandle_ends p l b _ hd).bind (fun _ h => h)

theorem immediatePreindexing_ends (hn : rn < 16) (hd : rd < 16) :
    Ends (immediatePreindexing p l u b rn rd addr offset)
      (Indexed p (uBitHandle u addr offset)) NoNull := by
  apply (immediateOffset_ends p l u b addr offset hd).bind
  intro r hr
  refine ends_ite (fun _ => hr) ?_
  intro _
  exact (armWriteRegister_ends _ hn _).bind (fun q hq => ⟨hr.1, hr.2.trans hq.1⟩)

theorem immediatePostindexing_ends (hn : rn < 16) (hd : rd < 16) :
    Ends (immediatePostindexing p l u b rn rd addr offset) (Indexed p addr) NoNull := by
  apply (bBitHandle_ends p l b _ hd).bind
  intro r hr
  refine ends_ite (fun _ => hr) ?_
  intro _
  exact (armWriteRegister_ends _ hn _).bind (fun q hq => ⟨hr.1, hr.2.trans hq.1⟩)

end single

section forms
variable (p : ArmCore) (ins : Word)

theorem Handled.transfer {p : ArmCore} {ins a : Word} {as : List Word} {r : ℤ × ArmCore}
    (h : Handled p (· = p.mem.answer a) r) (has : dataAddresses p ins = .ok as)
    (ha : a ∈ as) : Handled p (TransferCode p ins) r := by
  refine ⟨?_, h.2⟩
  rw [show r.1 = _ from h.1]
  unfold Memory.answer
  split
  · exact Or.inr (Or.inr ⟨rfl, as, has, a, ha, ‹_›⟩)
  · exact Or.inl rfl

theorem handled_undefined : Handled p (TransferCode p ins) (Exc.UNDEFINED_INSTRUCTION, p) :=
  ⟨Or.inr (Or.inl rfl), Stays.refl p⟩

/-- An indexing helper that accesses one of the addresses of its form. -/
theorem indexed_ends {p : ArmCore} {ins a : Word} {as : List Word}
    {x : Except Crash (ℤ × ArmCore × Word)} (hx : Ends x (Indexed p a) NoNull)
    (has : dataAddresses p ins = .ok as) (ha : a ∈ as) :
    Ends (x >>= fun r => pure (r.1, r.2.1)) (Handled p (TransferCode p ins)) NoNull :=
  hx.bind (fun _ hr => Handled.transfer hr has ha)

theorem armLoadStoreImmediateOffset_ends (h : getBits ins 27 25 = 2) :
    Ends (armLoadStoreImmediateOffset p ins) (Handled p (TransferCode p ins)) NoNull := by
  unfold armLoadStoreImmediateOffset
  have hn : getBits ins 19 16 < 16 := getBits_lt_sixteen ins rfl
  have hd : getBits ins 15 12 < 16 := getBits_lt_sixteen ins rfl
  apply (armReadRegister_ends p hn).bind
  intro base hbase
  have has : dataAddresses p ins =
      .ok (indexedAddresses ins base (BitVec.ofNat 32 (getBits ins 11 0))) := by
    simp only [dataAddresses, h, hbase, ok_bind, pure_eq_ok]
  have hpre (hP : getBit ins P_SHIFT = 1) :
      uBitHandle (getBit ins U_SHIFT) base (BitVec.ofNat 32 (getBits ins 11 0)) ∈
        indexedAddresses ins base (BitVec.ofNat 32 (getBits ins 11 0)) := by
    simp [indexedAddresses, hP]
  have hpost (hP : getBit ins P_SHIFT ≠ 1) (hW : getBit ins W_SHIFT ≠ 1) :
      base ∈ indexedAddresses ins base (BitVec.ofNat 32 (getBits ins 11 0)) := by
    simp [indexedAddresses, hP, hW]
  -- Loads and stores go through the same six cases.
  refine ends_ite (fun _ => ?_) (fun _ => ?_)
  all_goals
    refine ends_ite (fun hP => ends_ite (fun _ => ?_) (fun _ => ?_))
      (fun hP => ends_ite (fun _ => handled_undefined p ins) (fun hW => ?_))
    · exact indexed_ends (immediatePreindexing_ends p _ _ _ _ _ hn hd) has (hpre hP)
    · exact indexed_ends (immediateOffset_ends p _ _ _ _ _ hd) has (hpre hP)
    · exact indexed_ends (immediatePostindexing_ends p _ _ _ _ _ hn hd) has (hpost hP hW)

theorem armLoadStoreRegisterOffset_ends (h : getBits ins 27 25 = 3) (h4 : getBit ins 4 = 0) :
    Ends (armLoadStoreRegisterOffset p ins) (Handled p (TransferCode p ins)) NoNull := by
  unfold armLoadStoreRegisterOffset
  have hn : getBits ins 19 16 < 16 := getBits_lt_sixteen ins rfl
  have hd : getBits ins 15 12 < 16 := getBits_lt_sixteen ins rfl
  have hm : getBits ins 3 0 < 16 := getBits_lt_sixteen ins rfl
  apply (armReadRegister_ends p hm).bind
  intro offset hoffset
  apply (armReadRegister_ends p hn).bind
  intro base hbase
  dsimp only
  have has : dataAddresses p ins = .ok (indexedAddresses ins base (scaledOffset
      (getBits ins 6 5) (getBits ins 11 7) (getBits ins 3 0) offset (armReadCpsr p))) := by
    simp only [dataAddresses, h, h4, hoffset, hbase, ok_bind, pure_eq_ok, ↓reduceIte]
  generalize scaledOffset (getBits ins 6 5) (getBits ins 11 7) (getBits ins 3 0) offset
    (armReadCpsr p) = offset at has
  -- The source switches on the three bits L, P and W as a number.
  have hL := getBit_zero_or_one ins L_SHIFT
  have hW := getBit_zero_or_one ins W_SHIFT
  rcases getBit_zero_or_one ins P_SHIFT with hP | hP
  · rcases hW with hW | hW
    · have ha : base ∈ indexedAddresses ins base offset := by simp [indexedAddresses, hP, hW]
      rcases hL with hL | hL <;> simp only [hL, hP, hW, Nat.reduceShiftLeft, Nat.reduceOr]
      all_goals exact indexed_ends (immediatePostindexing_ends p _ _ _ _ _ hn hd) has ha
    · rcases hL with hL | hL <;> simp only [hL, hP, hW, Nat.reduceShiftLeft, Nat.reduceOr]
      all_goals exact handled_undefined p ins
  · have ha : uBitHandle (getBit ins U_SHIFT) base offset ∈ indexedAddresses ins base offset := by
      simp [indexedAddresses, hP]
    rcases hW with hW | hW
    · rcases hL with hL | hL <;> simp only [hL, hP, hW, Nat.reduceShiftLeft, Nat.reduceOr]
      all_goals exact indexed_ends (immediateOffset_ends p _ _ _ _ _ hd) has ha
    · rcases hL with hL | hL <;> simp only [hL, hP, hW, Nat.reduceShiftLeft, Nat.reduceOr]
      all_goals exact indexed_ends (immediatePreindexing_ends p _ _ _ _ _ hn hd) has ha

theorem miscellaneousAddress_ends :
    Ends (miscellaneousAddress p ins) (fun o => miscellaneousAddress p ins = .ok o ∧
      ∀ a q, o = some (a, q) → Stays p q ∧ q.mem = p.mem) NoNull := by
  have hread {reg : ℕ} (hr : reg < 16) := armReadRegister_ends p hr
  have hwrite {reg : ℕ} (hr : reg < 16) (v : Word) := armWriteRegister_ends p hr v
  have hn : getBits ins 19 16 < 16 := getBits_lt_sixteen ins rfl
  have h0 : getBits ins (0 + 3) 0 < 16 := getBits_lt_sixteen ins rfl
  have hbase (a : Word) {q' : ArmCore} (hq' : Stays p q' ∧ q'.mem = p.mem) :
      ∀ b q, some (a, q') = some (b, q) → Stays p q ∧ q.mem = p.mem := by
    intro b q hq
    simp only [Option.some.injEq, Prod.mk.injEq] at hq
    exact hq.2 ▸ hq'
  have hsame : Stays p p ∧ p.mem = p.mem := ⟨Stays.refl p, rfl⟩
  suffices h : Ends (miscellaneousAddress p ins) (fun o =>
      ∀ a q, o = some (a, q) → Stays p q ∧ q.mem = p.mem) NoNull from
    ends_of_value (fun o ho => ⟨ho, h.value ho⟩) (fun e he => h.fault he)
  -- The six addressing forms, then the reserved one.
  unfold miscellaneousAddress
  refine ends_ite (fun _ => ?_) (fun _ => ends_ite (fun _ => ?_) (fun _ => ?_))
  · exact (hread hn).bind (fun _ _ => hbase _ hsame)
  · exact (hread hn).bind (fun _ _ => (hread h0).bind (fun _ _ => hbase _ hsame))
  refine ends_ite (fun _ => ?_) (fun _ => ends_ite (fun _ => ?_) (fun _ => ?_))
  · exact (hread hn).bind (fun _ _ => (hwrite hn _).bind (fun _ hq => hbase _ ⟨hq.1, hq.2.1⟩))
  · exact (hread hn).bind (fun _ _ => (hread h0).bind (fun _ _ =>
      (hwrite hn _).bind (fun _ hq => hbase _ ⟨hq.1, hq.2.1⟩)))
  refine ends_ite (fun _ => ?_) (fun _ => ends_ite (fun _ => ?_) (fun _ => by simp))
  · exact (hread hn).bind (fun _ _ => (hwrite hn _).bind (fun _ hq => hbase _ ⟨hq.1, hq.2.1⟩))
  · exact (hread hn).bind (fun _ _ => (hread h0).bind (fun _ _ =>
      (hwrite hn _).bind (fun _ hq => hbase _ ⟨hq.1, hq.2.1⟩)))

/-- The code of a miscellaneous transfer whose address is computed. -/
theorem miscellaneousTransfer_ends (lshBits : ℕ) {rd : ℕ} (hd : rd < 16) (address : Word) :
    Ends (miscellaneousTransfer p lshBits rd address) (Handled p (fun c => c = 0 ∨ c = 7 ∨
      (c = -1 ∧ ∃ a ∈ transferAddresses p lshBits rd address, p.mem.size ≤ a.toNat))) NoNull := by
  have hcode {a : Word} (ha : a ∈ transferAddresses p lshBits rd address) {c : ℤ}
      (hc : c = p.mem.answer a) : c = 0 ∨ c = 7 ∨
        (c = -1 ∧ ∃ a ∈ transferAddresses p lshBits rd address, p.mem.size ≤ a.toNat) := by
    rw [hc]
    unfold Memory.answer
    split
    · exact Or.inr (Or.inr ⟨rfl, a, ha, ‹_›⟩)
    · exact Or.inl rfl
  have hread := armReadRegister_ends p hd
  have hwrite (v : Word) := armWriteRegister_ends p hd v
  unfold miscellaneousTransfer
  split
  · refine hread.bind (fun v _ => (armWriteHalf_ends p _ _).imp (fun r hr => ?_))
    exact ⟨hcode (by simp [transferAddresses]) hr.code, hr.stays⟩
  · refine ends_ite (fun hal : doubleAligned rd address => ?_)
      (fun _ => ⟨Or.inr (Or.inl rfl), Stays.refl p⟩)
    have hd' : rd + 1 < 16 := hal.next hd
    refine (armReadWord_ends p address 0).bind (fun r hr => (hwrite _).bind (fun q hq => ?_))
    refine ends_ite (fun _ => ⟨hcode ?_ hr.1, hq.1⟩) (fun h0 => ?_)
    · simp only [transferAddresses, if_pos hal]
      split <;> simp
    · -- The second word is read from the same memory: the write went to a register.
      have hin : p.mem.InRange address 4 := hr.2 (by simpa using h0)
      apply (armReadWord_ends q _ _).bind
      intro r' hr'
      apply (armWriteRegister_ends q hd' _).bind
      intro q' hq'
      refine ⟨hcode (a := address + 4) ?_ (by rw [← hq.2.1]; exact hr'.1), hq.1.trans hq'.1⟩
      simp [transferAddresses, if_pos hal, if_pos hin]
  · refine ends_ite (fun hal : doubleAligned rd address => ?_)
      (fun _ => ⟨Or.inr (Or.inl rfl), Stays.refl p⟩)
    have hd' : rd + 1 < 16 := hal.next hd
    refine hread.bind (fun v _ => (armWriteWord_ends p address v).bind (fun r hr => ?_))
    refine ends_ite (fun _ => ⟨hcode ?_ hr.1.code, hr.1.stays⟩) (fun h0 => ?_)
    · simp only [transferAddresses, if_pos hal]
      split <;> simp
    · -- The first store keeps the size, so the second is answered as before it.
      have hin : p.mem.InRange address 4 := hr.2 (by simpa using h0)
      apply (armReadRegister_ends _ hd').bind
      intro v' _
      refine (armWriteWord_ends _ _ _).imp ?_
      intro r' hr'
      refine ⟨hcode (a := address + 4) ?_ ?_, hr.1.stays.trans hr'.1.stays⟩
      · simp [transferAddresses, if_pos hal, if_pos hin]
      · rw [hr'.1.code]
        simp only [Memory.answer, hr.1.size]
  · refine (armReadHalf_ends p _ _).bind (fun r hr => (hwrite _).bind (fun q hq => ?_))
    exact ⟨hcode (by simp [transferAddresses]) hr, hq.1⟩
  · refine (armReadByte_ends p _ _).bind (fun r hr => (hwrite _).bind (fun q hq => ?_))
    exact ⟨hcode (by simp [transferAddresses]) hr, hq.1⟩
  · refine (armReadHalf_ends p _ _).bind (fun r hr => (hwrite _).bind (fun q hq => ?_))
    exact ⟨hcode (by simp [transferAddresses]) hr, hq.1⟩
  · exact ⟨Or.inl rfl, Stays.refl p⟩

theorem armLoadStoreMiscellaneous_ends (h : getBits ins 27 25 = 0) (h4 : getBit ins 4 = 1)
    (h7 : getBit ins 7 = 1) (h56 : ¬(getBit ins 5 = 0 ∧ getBit ins 6 = 0)) :
    Ends (armLoadStoreMiscellaneous p ins) (Handled p (TransferCode p ins)) NoNull := by
  have hd : getBits ins 15 12 < 16 := getBits_lt_sixteen ins rfl
  unfold armLoadStoreMiscellaneous
  apply (miscellaneousAddress_ends p ins).bind
  intro o ho
  obtain ⟨hmisc, hstays⟩ := ho
  cases o with
  | none => exact handled_undefined p ins
  | some aq =>
    obtain ⟨a, q⟩ := aq
    obtain ⟨hq, hmem⟩ := hstays a q rfl
    refine (miscellaneousTransfer_ends q _ hd a).imp (fun r hr => ⟨?_, hq.trans hr.2⟩)
    rcases hr.1 with hc | hc | ⟨hc, b, hb, hout⟩
    · exact Or.inl hc
    · exact Or.inr (Or.inl hc)
    · refine Or.inr (Or.inr ⟨hc, _, ?_, b, hb, hmem ▸ hout⟩)
      simp only [dataAddresses, h, h4, h7, h56, hmisc, ok_bind, transferAddresses, hmem,
        true_and, not_false_eq_true, ↓reduceIte, pure_eq_ok]

end forms

end ArmSim
