import ArmSim.DataRefinement

/-! The word, byte, halfword, signed and doubleword transfers against those of the
architecture: the addressing modes, the offsets, and the accesses. -/
namespace ArmSim
open Lib
namespace Arch

/-- The addressing mode of an instruction, in the terms of the source's bits. -/
structure ModeOf (inst : Word) (m : Addressing) : Prop where
  form : ¬Reserved inst
  address : ∀ base offset, m.address base offset = accessAddress inst base offset
  moved : ∀ base offset, m.moved base offset = movedBase inst base offset
  back : m.writesBack = true ↔ WritesBack inst

theorem modeOf {inst : Word} {m : Addressing} (h : addressingOf inst = some m) :
    ModeOf inst m := by
  unfold addressingOf at h
  have hmoved (base offset : Word) : (if bit inst U_SHIFT then base + offset else base - offset) =
      movedBase inst base offset := if_congr bit_eq_true_iff rfl rfl
  -- One case for each of the three modes; the fourth is no mode.
  split at h
  all_goals
    rename_i hP hW
    cases h
    try rw [bit_eq_true_iff] at hP
    try rw [bit_eq_false_iff] at hP
    try rw [bit_eq_true_iff] at hW
    try rw [bit_eq_false_iff] at hW
  · refine ⟨?_, fun base offset => ?_, hmoved, ?_⟩
    · intro hform
      exact absurd (hP.symm.trans hform.1) (by decide)
    · exact (hmoved base offset).trans (if_pos hP).symm
    · refine iff_of_false (fun hback => nomatch hback) ?_
      intro hback
      rcases hback with h0 | h1
      · exact absurd (hP.symm.trans h0) (by decide)
      · exact absurd (hW.symm.trans h1) (by decide)
  · refine ⟨?_, fun base offset => ?_, hmoved, ?_⟩
    · intro hform
      exact absurd (hP.symm.trans hform.1) (by decide)
    · exact (hmoved base offset).trans (if_pos hP).symm
    · exact iff_of_true rfl (Or.inr hW)
  · refine ⟨?_, fun base offset => ?_, hmoved, ?_⟩
    · intro hform
      exact absurd (hW.symm.trans hform.2) (by decide)
    · refine (if_neg ?_).symm
      intro h1
      exact absurd (hP.symm.trans h1) (by decide)
    · exact iff_of_true rfl (Or.inl hP)

theorem Machine.value_of_ne {A : Machine} {r : Reg} (hr : r ≠ 15) : A.value r = A.reg r :=
  if_neg hr

theorem setWidth_ofNat {v w : ℕ} (hw : w ≤ 32) (hv : v < 2^w) :
    (BitVec.ofNat w v).setWidth 32 = BitVec.ofNat 32 v := by
  have hpow : 2^w ≤ 2^32 := Nat.pow_le_pow_right (by decide) hw
  apply BitVec.eq_of_toNat_eq
  rw [BitVec.toNat_setWidth, BitVec.toNat_ofNat, BitVec.toNat_ofNat, Nat.mod_eq_of_lt hv]

/-- The offset of the register form, unless it is rotated through the carry. -/
theorem scaledOffset_eq {code n : ℕ} (hcode : code < 4) (hn : n < 32)
    (hmisread : ¬(n = 0 ∧ shiftKindOf code = .rotateRight)) {m : ℕ} (hm : m < 16)
    (x cpsr : Word) (carry : Bool) :
    scaledOffset code n m x cpsr = (immediateShift (shiftKindOf code) n x carry).1 := by
  have hcarry := (immediateShift_congr (shiftKindOf code) x hmisread (carryFlag cpsr) carry).1
  rw [← hcarry]
  by_cases h0 : n = 0
  · subst h0
    refine (scaledOffset_zero_iff code hcode hm x cpsr).mpr ?_
    intro hror
    subst hror
    exact absurd ⟨rfl, rfl⟩ hmisread
  · exact scaledOffset_inside code h0 hn hcode m x cpsr

/-- The instruction that a word or byte transfer decodes to. -/
theorem transferOf_eq {inst : Word} {offset : Offset} {i : Instruction} (h : transferOf inst offset = some i) :
    ∃ m, ModeOf inst m ∧ i = .transfer (bit inst L_SHIFT) (bit inst B_SHIFT) m
      (regField inst 12) (regField inst 16) offset := by
  obtain ⟨m, hmode, hi⟩ := Option.bind_eq_some_iff.mp h
  exact ⟨m, modeOf hmode, (Option.some.inj hi).symm⟩

section transfers
variable [Platform] {start p q : ArmCore} {K : Known} {A B C : Machine} {inst input : Word}

/-- The base of a transfer moved in both. -/
theorem writeBase_simulated (hC : Represents start K C q) {m : Addressing} (hm : ModeOf inst m)
    {rn : Reg} {moved : Word} {rs : List Reg} (hw : writeBase C m rn moved rs = some B) :
    Represents start K B (q.setGpIf (WritesBack inst) rn moved) ∧ B.mem = C.mem ∧
      ∀ r ∈ rs, B.reg r = C.reg r := by
  unfold writeBase at hw
  by_cases hback : m.writesBack = true
  · rw [if_pos hback] at hw
    split at hw
    · cases hw
    rename_i hfree
    have hset : q.setGpIf (WritesBack inst) rn moved = q.setGp rn moved :=
      if_pos (hm.back.mp hback)
    rw [hset]
    refine ⟨hC.write hw, (Machine.write_frame hw).2.1, ?_⟩
    intro r hr
    have hne : r ≠ rn := fun he => hfree (Or.inr (he ▸ hr))
    unfold Machine.write at hw
    split at hw
    · cases hw
      exact Function.update_of_ne hne _ _
    · cases hw
  · rw [if_neg hback] at hw
    cases hw
    have hkept : q.setGpIf (WritesBack inst) rn moved = q :=
      if_neg (fun h => hback (hm.back.mpr h))
    rw [hkept]
    exact ⟨hC, rfl, fun _ _ => rfl⟩

/-- A word or byte transfer with its offset given. -/
theorem singleTransfer_simulated (h : Represents start K A p) {m : Addressing}
    (hm : ModeOf inst m) {offset : Offset} {off : Word} (hoff : offset.eval A = some off)
    (hexec : execTransfer A (bit inst L_SHIFT) (bit inst B_SHIFT) m (regField inst 12)
      (regField inst 16) offset = some B) :
    ∃ q, singleTransfer p.advance inst off = .ok (0, q) ∧ Represents start K B q := by
  have hnext := h.next
  have hbase : p.advance.operand (getBits inst 19 16) = A.value (regField inst 16) :=
    h.operand (regField inst 16)
  have hvalue : p.advance.operand (getBits inst 15 12) = A.value (regField inst 12) :=
    h.operand (regField inst 12)
  unfold execTransfer at hexec
  rw [hoff] at hexec
  obtain ⟨hin, hrest⟩ := Option.ite_none_right_eq_some.mp hexec
  have hbyte : getBit inst B_SHIFT = 1 ↔ bit inst B_SHIFT = true := bit_eq_true_iff.symm
  have hload : getBit inst L_SHIFT = 1 ↔ bit inst L_SHIFT = true := bit_eq_true_iff.symm
  have hrange : p.advance.mem.InRange (accessAddress inst
      (p.advance.operand (getBits inst 19 16)) off) (transferSize inst) := by
    have hsize : transferSize inst = if bit inst B_SHIFT then 1 else 4 := if_congr hbyte rfl rfl
    rw [hbase, ← hm.address, hsize, hnext.mem]
    exact hin.1
  have hrun := singleTransfer_inRange hnext.bank_lt hm.form hrange
  rw [hbase, ← hm.address, ← hm.moved] at hrun
  obtain ⟨C, haccess, hB⟩ := Option.bind_eq_some_iff.mp hrest
  have hC : Represents start K C (accessed p.advance (getBit inst L_SHIFT) (getBit inst B_SHIFT)
      (m.address (A.value (regField inst 16)) off) (getBits inst 15 12)) := by
    have hmem : p.advance.mem = A.mem := h.mem
    unfold accessed
    by_cases hl : bit inst L_SHIFT = true
    · rw [if_pos hl] at haccess
      rw [if_pos (hload.mpr hl), if_congr hbyte rfl rfl, hmem]
      exact hnext.write haccess
    · rw [if_neg hl] at haccess
      cases haccess
      rw [if_neg (fun h1 => hl (hload.mp h1)), if_congr hbyte rfl rfl, hvalue, hmem]
      exact hnext.store _
  exact ⟨_, hrun, (writeBase_simulated hC hm hB).1⟩

theorem immediateTransfer_simulated (env : Env) (h : Represents start K A p)
    (hclass : getBits inst 27 25 = 2) {i : Instruction}
    (htransfer : transferOf inst (.immediate (BitVec.ofNat 12 (getBits inst 11 0))) = some i)
    (hexec : exec A input i = some B) : Simulated start env (i.settles A K) p inst B := by
  obtain ⟨m, hm, rfl⟩ := transferOf_eq htransfer
  have hoff : (Offset.immediate (BitVec.ofNat 12 (getBits inst 11 0))).eval A =
      some (BitVec.ofNat 32 (getBits inst 11 0)) :=
    congrArg some (setWidth_ofNat (by decide) (getBits_lt inst 11 0))
  obtain ⟨q, hq, hB⟩ := singleTransfer_simulated h hm hoff hexec
  refine simulated_of_body ?_ hB
  calc armFetchCodeInst env p.advance inst p.cpsr
      = armLoadStoreImmediateOffset p.advance inst := by simp only [armFetchCodeInst, hclass]
    _ = singleTransfer p.advance inst (BitVec.ofNat 32 (getBits inst 11 0)) :=
        armLoadStoreImmediateOffset_eq _ _
    _ = .ok (0, q) := hq

theorem registerTransfer_simulated (env : Env) (h : Represents start K A p)
    (hclass : getBits inst 27 25 = 3) (h4 : bit inst 4 = false) {i : Instruction}
    (htransfer : transferOf inst (.shifted (shiftKindOf (getBits inst 6 5)) (getBits inst 11 7)
      (regField inst 0)) = some i)
    (hsup : i.supported K = true) (hexec : exec A input i = some B) :
    Simulated start env (i.settles A K) p inst B := by
  obtain ⟨m, hm, rfl⟩ := transferOf_eq htransfer
  have hmisread : ¬(getBits inst 11 7 = 0 ∧ shiftKindOf (getBits inst 6 5) = .rotateRight) := by
    intro hmis
    have hright : (Offset.shifted (shiftKindOf (getBits inst 6 5)) (getBits inst 11 7)
        (regField inst 0)).misread = true := decide_eq_true hmis
    change (!Offset.misread _) = true at hsup
    rw [hright] at hsup
    cases hsup
  obtain ⟨off, hoff⟩ : ∃ off, (Offset.shifted (shiftKindOf (getBits inst 6 5)) (getBits inst 11 7)
      (regField inst 0)).eval A = some off := by
    obtain ⟨off, hoff, -⟩ := Option.bind_eq_some_iff.mp hexec
    exact ⟨off, hoff⟩
  have hvalue : off = (immediateShift (shiftKindOf (getBits inst 6 5)) (getBits inst 11 7)
      (A.value (regField inst 0)) (A.flags .c)).1 := by
    change (if _ then none else some _) = some off at hoff
    split at hoff
    · cases hoff
    · exact (Option.some.inj hoff).symm
  obtain ⟨q, hq, hB⟩ := singleTransfer_simulated h hm hoff hexec
  have hread : armReadRegister p.advance (getBits inst 3 0) = .ok (A.value (regField inst 0)) := by
    rw [armReadRegister_eq (getBits_lt_sixteen inst rfl) h.next.bank_lt]
    exact congrArg Except.ok (h.operand (regField inst 0))
  have hscaled : scaledOffset (getBits inst 6 5) (getBits inst 11 7) (getBits inst 3 0)
      (A.value (regField inst 0)) p.advance.cpsr = off := by
    rw [hvalue]
    exact scaledOffset_eq (getBits_lt inst 6 5) (getBits_lt inst 11 7) hmisread
      (getBits_lt_sixteen inst rfl) _ _ _
  refine simulated_of_body ?_ hB
  calc armFetchCodeInst env p.advance inst p.cpsr
      = armLoadStoreRegisterOffset p.advance inst := by
        simp only [armFetchCodeInst, hclass, bit_eq_false_iff.mp h4, ↓reduceIte]
    _ = singleTransfer p.advance inst off := by
        rw [armLoadStoreRegisterOffset_eq, hread, ok_bind, hscaled]
    _ = .ok (0, q) := hq

/-! The halfword, signed and doubleword transfers, which move the base first. -/

omit [Platform] in
theorem kindOf_lsh {k : MiscellaneousKind} (h : kindOf inst = some k) : lshBits inst = k.lsh := by
  unfold kindOf at h
  unfold lshBits
  rw [getBit_bit, getBit_bit, getBit_bit]
  cases hl : bit inst L_SHIFT <;> cases hs : bit inst 6 <;> cases hh : bit inst 5 <;>
    rw [hl, hs, hh] at h <;> cases h <;> rfl

/-- The access in a state whose registers it reads are those of `A`. -/
theorem accessHalf_simulated (hC : Represents start K C q) (hmem : q.mem = A.mem)
    {k : MiscellaneousKind} {rd : Reg} (hrd : rd ≠ 15) (hnext : k.double → rd + 1 ≠ 15)
    (hvalue : C.reg rd = A.reg rd) (hvalue' : k.double → C.reg (rd + 1) = A.reg (rd + 1))
    {a : Word} (haccess : accessHalf A C k rd a = some B) :
    Represents start K B (transferred q k rd a) := by
  have hoperand {r : Reg} (hr : r ≠ 15) (hv : C.reg r = A.reg r) : q.operand r = A.value r := by
    rw [operand_of_ne (fun he => hr (Fin.ext he)), hC.reg r, hv, Machine.value_of_ne hr]
  have hsucc : (rd + 1 : Reg).val = rd.val + 1 := by
    have hlt : rd.val < 15 := by
      have hne : rd.val ≠ 15 := fun he => hrd (Fin.ext he)
      omega
    rw [Fin.val_add]
    exact Nat.mod_eq_of_lt (by omega)
  cases k with
  | strh =>
    cases haccess
    unfold transferred
    dsimp only
    rw [hoperand hrd hvalue, hmem]
    exact hC.store _
  | ldrh | ldrsb | ldrsh =>
    unfold transferred
    dsimp only
    rw [hmem]
    exact hC.write haccess
  | ldrd =>
    obtain ⟨D, hfirst, hsecond⟩ := Option.bind_eq_some_iff.mp haccess
    unfold transferred
    dsimp only
    rw [hmem, ← hsucc]
    exact (hC.write hfirst).write hsecond
  | strd =>
    cases haccess
    unfold transferred
    dsimp only
    have hdouble : MiscellaneousKind.strd.double := Or.inr rfl
    rw [hoperand hrd hvalue, ← hsucc, hoperand (hnext hdouble) (hvalue' hdouble), hmem]
    exact hC.store _

theorem half_simulated (env : Env) (h : Represents start K A p) {i : Instruction}
    (hhalf : halfOf inst = some i) (hclass : getBits inst 27 25 = 0) (h4 : bit inst 4 = true)
    (h7 : bit inst 7 = true) (h56 : ¬(bit inst 5 = false ∧ bit inst 6 = false))
    (hexec : exec A input i = some B) : Simulated start env (i.settles A K) p inst B := by
  obtain ⟨k, hk, hhalf⟩ := Option.bind_eq_some_iff.mp hhalf
  obtain ⟨m, hmode, hi⟩ := Option.bind_eq_some_iff.mp hhalf
  have hm := modeOf hmode
  cases Option.some.inj hi
  have hnext := h.next
  obtain ⟨off, hoff, hrest⟩ := Option.bind_eq_some_iff.mp hexec
  obtain ⟨⟨hin, halign, hrd, hdouble⟩, hrest⟩ := Option.ite_none_right_eq_some.mp hrest
  obtain ⟨C, hbase, haccess⟩ := Option.bind_eq_some_iff.mp hrest
  -- The source's offset, address and base are those of the machine.
  have hoffset : miscellaneousOffset p.advance inst = off := by
    unfold miscellaneousOffset
    cases hB : bit inst B_SHIFT with
    | true =>
      rw [hB] at hoff
      rw [if_pos (bit_eq_true_iff.mp hB), ← Option.some.inj hoff]
      have hhigh := getBits_lt_sixteen inst (show 11 - 8 = 3 from rfl)
      have hlow := getBits_lt_sixteen inst (show 3 - 0 = 3 from rfl)
      exact (setWidth_ofNat (by decide) (show _ < 2^8 by omega)).symm
    | false =>
      rw [hB] at hoff
      have hB' := bit_eq_false_iff.mp hB
      rw [if_neg (by omega)]
      change (if _ then none else some _) = some off at hoff
      split at hoff
      · cases hoff
      · exact (h.operand (regField inst 0)).trans (Option.some.inj hoff)
  have hoperand : p.advance.operand (getBits inst 19 16) = A.value (regField inst 16) :=
    h.operand (regField inst 16)
  have htarget : miscellaneousTarget p.advance inst =
      m.address (A.value (regField inst 16)) off := by
    rw [miscellaneousTarget, hoffset, hoperand, hm.address]
  have hmoved : miscellaneousMoved p.advance inst = m.moved (A.value (regField inst 16)) off := by
    rw [miscellaneousMoved, hoffset, hoperand, hm.moved]
  obtain ⟨hC, hmem, hkept⟩ := writeBase_simulated hnext hm hbase
  rw [← hmoved] at hC
  change Represents start K C (based p.advance inst) at hC
  have hrange : (based p.advance inst).mem.InRange (miscellaneousTarget p.advance inst) k.count := by
    rw [htarget, based_mem]
    change p.mem.InRange _ _
    rw [h.mem]
    exact hin
  have hd : getBits inst 15 12 < 16 := getBits_lt_sixteen inst rfl
  have haligned : k.double → doubleAligned (getBits inst 15 12)
      (miscellaneousTarget p.advance inst) := by
    intro hk
    obtain ⟨heven, h14⟩ := hdouble hk
    have hcount : k.count = 8 := by
      rcases hk with rfl | rfl <;> rfl
    rw [htarget]
    rw [hcount] at halign
    exact doubleAligned_of_mod ⟨heven, fun he => h14 (Fin.ext he), halign⟩
  have hrun := miscellaneousTransfer_inRange hC.bank_lt hd haligned hrange
  have hB : Represents start K B (transferred (based p.advance inst) k (getBits inst 15 12)
      (miscellaneousTarget p.advance inst)) := by
    rw [htarget]
    have hfree {r : Reg} (hr : r ≠ 15) (hlisted : r ∈ if k.double then
        [regField inst 12, regField inst 12 + 1] else [regField inst 12]) : C.reg r = A.reg r :=
      (hkept r hlisted).trans (Function.update_of_ne hr _ _)
    have hsucc (hk : k.double) : regField inst 12 + 1 ≠ 15 := by
      intro he
      have h14 := (hdouble hk).2
      revert he h14
      generalize regField inst 12 = r
      revert r
      decide
    refine accessHalf_simulated hC ((based_mem _ _).trans h.mem) hrd hsucc ?_ ?_ haccess
    · apply hfree hrd
      split
      · exact List.mem_cons_self
      · exact List.mem_singleton_self _
    · intro hk
      apply hfree (hsucc hk)
      rw [if_pos hk]
      exact List.mem_cons_of_mem _ (List.mem_singleton_self _)
  have haddress := miscellaneousAddress_eq hm.form (hasCell_of_bank hnext.bank_lt _)
    (fun _ => hasCell_of_bank hnext.bank_lt _)
  have hclass56 : ¬(getBit inst 5 = 0 ∧ getBit inst 6 = 0) := fun hz =>
    h56 ⟨bit_eq_false_iff.mpr hz.1, bit_eq_false_iff.mpr hz.2⟩
  refine simulated_of_body ?_ hB
  calc armFetchCodeInst env p.advance inst p.cpsr
      = armLoadStoreMiscellaneous p.advance inst := by
        simp only [armFetchCodeInst, hclass, bit_eq_true_iff.mp h4, bit_eq_true_iff.mp h7, hclass56,
          ↓reduceIte, Nat.one_ne_zero]
    _ = miscellaneousTransfer (based p.advance inst) k.lsh (getBits inst 15 12)
          (miscellaneousTarget p.advance inst) := by
        unfold armLoadStoreMiscellaneous
        rw [haddress, ok_bind, ← kindOf_lsh hk]
        rfl
    _ = .ok (0, transferred (based p.advance inst) k (getBits inst 15 12)
          (miscellaneousTarget p.advance inst)) := hrun

end transfers

end Arch
end ArmSim
