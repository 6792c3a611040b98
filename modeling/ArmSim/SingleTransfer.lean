import ArmSim.BarrelShifter
import ArmSim.Transfers
import Mathlib.Tactic.IntervalCases

/-! The word and byte transfers with an immediate or a register offset: one operation on
the offset, which leaves the state as it was when it fails. -/
namespace ArmSim
open Lib
variable [Platform]

/-- A word or byte transfer with its offset given: the immediate form, whose own offset has
twelve bits. -/
def singleTransfer (p : ArmCore) (ins offset : Word) : Except Crash (ℤ × ArmCore) := do
  let base ← armReadRegister p (getBits ins 19 16)
  let l := getBit ins L_SHIFT
  let u := getBit ins U_SHIFT
  let b := getBit ins B_SHIFT
  if getBit ins P_SHIFT = 1 then
    if getBit ins W_SHIFT = 1 then
      let (err, p, _) ← immediatePreindexing p l u b (getBits ins 19 16) (getBits ins 15 12)
        base offset
      return (err, p)
    else
      let (err, p, _) ← immediateOffset p l u b (getBits ins 15 12) base offset
      return (err, p)
  else
    if getBit ins W_SHIFT = 1 then
      return (Exc.UNDEFINED_INSTRUCTION, p)
    else
      let (err, p, _) ← immediatePostindexing p l u b (getBits ins 19 16) (getBits ins 15 12)
        base offset
      return (err, p)

theorem armLoadStoreImmediateOffset_eq (p : ArmCore) (ins : Word) :
    armLoadStoreImmediateOffset p ins =
      singleTransfer p ins (BitVec.ofNat 32 (getBits ins 11 0)) := by
  -- The branches for loads and stores are the same.
  unfold armLoadStoreImmediateOffset singleTransfer
  by_cases hl : getBit ins L_SHIFT = 1 <;> simp only [hl, ↓reduceIte]

theorem armLoadStoreRegisterOffset_eq (p : ArmCore) (ins : Word) :
    armLoadStoreRegisterOffset p ins =
      (armReadRegister p (getBits ins 3 0) >>= fun value =>
        singleTransfer p ins (scaledOffset (getBits ins 6 5) (getBits ins 11 7)
          (getBits ins 3 0) value p.cpsr)) := by
  unfold armLoadStoreRegisterOffset singleTransfer
  -- The source switches on L, P and W at once.
  rcases getBit_zero_or_one ins L_SHIFT with hl | hl <;>
    rcases getBit_zero_or_one ins P_SHIFT with hp | hp <;>
    rcases getBit_zero_or_one ins W_SHIFT with hw | hw <;>
    simp only [hl, hp, hw] <;> rfl

/-- A call that fails leaves the state `p` as it was. -/
def Atomic (p : ArmCore) (r : ℤ × ArmCore) : Prop := r.1 ≠ 0 → r.2 = p

omit [Platform] in
theorem armWriteByte_atomic (p : ArmCore) (a : Word) (v : Byte) :
    Ends (armWriteByte p a v) (Atomic p) (fun _ => True) := by
  unfold armWriteByte memoryWriteByte
  by_cases h : p.mem.size ≤ a.toNat
  · rw [if_pos h]
    exact fun _ => rfl
  · rw [if_neg h]
    cases p.mem.store a v with
    | error e => trivial
    | ok mem => exact fun hne => absurd rfl hne

theorem armWriteWord_atomic (p : ArmCore) (a v : Word) :
    Ends (armWriteWord p a v) (Atomic p) (fun _ => True) := by
  unfold armWriteWord
  rcases p.mem.access_cases a with h | ⟨h0, h⟩ | h
  · rw [memoryWriteWord_outside h]
    exact fun _ => rfl
  · rw [memoryWriteWord_straddling h0 h]
    trivial
  · rw [memoryWriteWord_inRange h]
    exact fun hne => absurd rfl hne

section atomic
variable (p : ArmCore)

theorem bBitHandle_atomic (l b : ℕ) (addr : Word) (rd : ℕ) :
    Ends (bBitHandle p l b addr rd) (Atomic p) (fun _ => True) := by
  -- A load looks at the error before it writes, and a store writes last.
  have hload (err : ℤ) (v : Word) : Ends (if err ≠ 0 then pure (err, p) else do
      return (err, ← armWriteRegister p rd v)) (Atomic p) (fun _ => True) := by
    apply ends_ite
    · exact fun _ _ => rfl
    · intro herr
      apply (ends_trivial _).bind
      exact fun _ _ hne => absurd hne herr
  unfold bBitHandle
  refine ends_ite (fun _ => ends_ite (fun _ => ?_) (fun _ => ?_))
    (fun _ => ends_ite (fun _ => ?_) (fun _ => ?_))
  · exact (ends_trivial _).bind (fun r _ => hload r.1 _)
  · exact (ends_trivial _).bind (fun r _ => hload r.1 _)
  · exact (ends_trivial _).bind (fun _ _ => armWriteByte_atomic p addr _)
  · exact (ends_trivial _).bind (fun _ _ => armWriteWord_atomic p addr _)

/-- The base is written only after an access that did not fail. -/
theorem writeBack_atomic {r : ℤ × ArmCore} (h : Atomic p r) (rn : ℕ) (v a : Word) :
    Ends (if r.1 ≠ 0 then pure (r.1, r.2, a) else do
      return (r.1, ← armWriteRegister r.2 rn v, v))
      (fun r => Atomic p (r.1, r.2.1)) (fun _ => True) := by
  apply ends_ite
  · exact fun _ => h
  · intro herr
    apply (ends_trivial _).bind
    exact fun _ _ hne => absurd hne herr

theorem singleTransfer_atomic (ins offset : Word) :
    Ends (singleTransfer p ins offset) (Atomic p) (fun _ => True) := by
  unfold singleTransfer
  apply (ends_trivial _).bind
  intro base _
  have hpair {x : Except Crash (ℤ × ArmCore × Word)}
      (hx : Ends x (fun r => Atomic p (r.1, r.2.1)) (fun _ => True)) :
      Ends (x >>= fun r => pure (r.1, r.2.1)) (Atomic p) (fun _ => True) :=
    hx.bind (fun _ h => h)
  have hoffset (l u b d : ℕ) (base : Word) :
      Ends (immediateOffset p l u b d base offset) (fun r => Atomic p (r.1, r.2.1))
        (fun _ => True) :=
    (bBitHandle_atomic p l b _ d).bind (fun _ h => h)
  refine ends_ite (fun _ => ends_ite (fun _ => ?_) (fun _ => ?_))
    (fun _ => ends_ite (fun _ _ => rfl) (fun _ => ?_))
  · apply hpair
    apply (hoffset _ _ _ _ _).bind
    exact fun r hr => writeBack_atomic p (r := (r.1, r.2.1)) hr _ r.2.2 r.2.2
  · exact hpair (hoffset _ _ _ _ _)
  · apply hpair
    apply (bBitHandle_atomic p _ _ _ _).bind
    exact fun r hr => writeBack_atomic p hr _ _ _

/-- Neither form changes anything when it returns another code than 0. -/
theorem single_transfers_atomic (ins : Word) {c : ℤ} {q : ArmCore}
    (h : armLoadStoreImmediateOffset p ins = .ok (c, q) ∨
      armLoadStoreRegisterOffset p ins = .ok (c, q)) (hc : c ≠ 0) : q = p := by
  rcases h with h | h
  · rw [armLoadStoreImmediateOffset_eq] at h
    exact (singleTransfer_atomic p ins _).value h hc
  · rw [armLoadStoreRegisterOffset_eq] at h
    obtain ⟨value, -, h⟩ := bind_eq_ok.mp h
    exact (singleTransfer_atomic p ins _).value h hc

end atomic

omit [Platform] in
/-- `LDR r0, [r1, #4]!` without memory. -/
theorem single_transfers_atomic_load : ∃ q,
    @armLoadStoreImmediateOffset makefile (ArmCore.boot 0x10 []) 0xE5B10004 = .ok (-1, q) ∧
      q = ArmCore.boot 0x10 [] :=
  ⟨_, rfl, @single_transfers_atomic makefile (ArmCore.boot 0x10 []) 0xE5B10004 (-1) _
    (Or.inl rfl) (by decide)⟩

/-! The register offset: a shifter of its own, with the amounts of zero decided again. -/

/-- The kind of shift that two bits of an instruction name. -/
def shiftKindOf (code : ℕ) : ShiftKind :=
  match code with
  | Shift.LSL => .logicalLeft
  | Shift.LSR => .logicalRight
  | Shift.ASR => .arithmeticRight
  | _ => .rotateRight

/-- The offset that the shift field of `ins` makes of the value of `Rm`. -/
def registerOffset (ins value cpsr : Word) : Word :=
  (immediateShift (shiftKindOf (getBits ins 6 5)) (getBits ins 11 7) value (carryFlag cpsr)).1

omit [Platform] in
theorem scaledOffset_inside (code : ℕ) {n : ℕ} (h0 : n ≠ 0) (hn : n < 32) (hcode : code < 4) (m : ℕ)
    (value cpsr : Word) : scaledOffset code n m value cpsr =
      (immediateShift (shiftKindOf code) n value (carryFlag cpsr)).1 := by
  -- The source tests the amount and the kind at once.
  have hscaled : n ||| code ≠ 0 := fun h => h0 (Nat.or_eq_zero_iff.mp h).1
  unfold scaledOffset
  dsimp only
  rw [if_pos hscaled]
  interval_cases code <;>
    simp only [shiftKindOf, immediateShift, if_neg h0, ShiftKind.shift_fst, ror_eq value hn]

omit [Platform] in
/-- With an amount of zero, the rotation shifts the register's number and the other three
kinds its value. -/
theorem scaledOffset_zero_iff (code : ℕ) (hcode : code < 4) {m : ℕ} (hm : m < 16)
    (value cpsr : Word) : scaledOffset code 0 m value cpsr =
        (immediateShift (shiftKindOf code) 0 value (carryFlag cpsr)).1 ↔
      (code = Shift.ROR → value.toNat / 2 = m / 2) := by
  interval_cases code
  · -- LSL by 0 keeps the value.
    exact iff_of_true rfl (fun h => nomatch h)
  · -- LSR by 32 leaves nothing.
    have hzero : value >>> 32 = 0#32 := BitVec.ushiftRight_eq_zero (Nat.le_refl 32)
    have hshift := ShiftKind.shift_fst (k := .logicalRight) (n := 32) (x := value) (carryFlag cpsr)
    exact iff_of_true (hzero.symm.trans hshift.symm) (fun h => nomatch h)
  · -- ASR by 32 leaves copies of the sign.
    have hpast := congrArg Prod.fst (arithmeticRight_past value (carryFlag cpsr) (Nat.le_refl 32))
    have hsame : (if getBit value 31 = 1 then 0xFFFFFFFF else 0 : Word) =
        if getBit value 31 = 0 then 0 else 0xFFFFFFFF := by
      rcases getBit_zero_or_one value 31 with h | h <;> rw [h] <;> rfl
    exact iff_of_true (hsame.trans hpast.symm) (fun h => nomatch h)
  · -- RRX has `m` where the value belongs; the lowest bit of either is shifted out.
    have hrotate := congrArg Prod.fst (rotateExtended_eq value (carryFlag cpsr))
    have hnumber : BitVec.ofNat 32 (m >>> 1) = BitVec.ofNat 32 m >>> 1 := by
      apply BitVec.eq_of_toNat_eq
      rw [BitVec.toNat_ofNat, BitVec.toNat_ushiftRight, BitVec.toNat_ofNat,
        Nat.shiftRight_eq_div_pow, Nat.shiftRight_eq_div_pow]
      omega
    have hhalf : BitVec.ofNat 32 m >>> 1 = value >>> 1 ↔ value.toNat / 2 = m / 2 := by
      rw [← BitVec.toNat_inj, BitVec.toNat_ushiftRight, BitVec.toNat_ushiftRight,
        BitVec.toNat_ofNat, Nat.shiftRight_eq_div_pow, Nat.shiftRight_eq_div_pow]
      omega
    change (BitVec.ofNat 32 (getBit cpsr Flag.C) <<< 31) ||| BitVec.ofNat 32 (m >>> 1) =
      (operandAndCarry (rotateExtended value (carryFlag cpsr))).1 ↔ _
    rw [hrotate, hnumber, getBit_carryFlag, shiftedIn_eq_iff, hhalf]
    simp

/-- What the register form owes to the shift: its offset is the one the shift field makes of
the value of `Rm`, and the transfer the one with that offset. -/
def ScalesValue (p : ArmCore) (ins : Word) : Prop :=
  ∀ value, armReadRegister p (getBits ins 3 0) = .ok value →
    scaledOffset (getBits ins 6 5) (getBits ins 11 7) (getBits ins 3 0) value p.cpsr =
        registerOffset ins value p.cpsr ∧
      armLoadStoreRegisterOffset p ins =
        singleTransfer p ins (registerOffset ins value p.cpsr)

/-- The register form scales the value of `Rm` except in a rotation through the carry, where
it takes the register's number for its value. -/
theorem register_offset_iff (p : ArmCore) (ins : Word) : ScalesValue p ins ↔
    ∀ value, armReadRegister p (getBits ins 3 0) = .ok value →
      getBits ins 6 5 = Shift.ROR → getBits ins 11 7 = 0 →
        value.toNat / 2 = getBits ins 3 0 / 2 := by
  have hcode : getBits ins 6 5 < 4 := getBits_lt ins 6 5
  have hn : getBits ins 11 7 < 32 := getBits_lt ins 11 7
  have hm : getBits ins 3 0 < 16 := getBits_lt_sixteen ins rfl
  have hexact (value : Word) :
      scaledOffset (getBits ins 6 5) (getBits ins 11 7) (getBits ins 3 0) value p.cpsr =
        registerOffset ins value p.cpsr ↔
      (getBits ins 6 5 = Shift.ROR → getBits ins 11 7 = 0 →
        value.toNat / 2 = getBits ins 3 0 / 2) := by
    unfold registerOffset
    by_cases h0 : getBits ins 11 7 = 0
    · rw [h0, scaledOffset_zero_iff _ hcode hm]
      simp
    · rw [scaledOffset_inside _ h0 hn hcode]
      simp [h0]
  constructor
  · intro h value hvalue
    exact (hexact value).mp (h value hvalue).1
  · intro h value hvalue
    have hoffset := (hexact value).mpr (h value hvalue)
    refine ⟨hoffset, ?_⟩
    rw [armLoadStoreRegisterOffset_eq, hvalue, ok_bind, hoffset]

omit [Platform] in
/-- `LDR r0, [r1, r2, RRX]` with `r2 = 8`: the offset is half of 2, not half of 8. -/
theorem register_offset_extended :
    ¬@ScalesValue makefile (@ArmCore.setGp makefile (ArmCore.boot 0x10 []) 2 8) 0xE7910062 := by
  intro h
  have hoffset : scaledOffset 3 0 2 8 0x10 = registerOffset 0xE7910062 8 0x10 := (h 8 rfl).1
  revert hoffset
  decide

end ArmSim
