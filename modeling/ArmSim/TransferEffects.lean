import ArmSim.PushPop
import ArmSim.SingleTransfer

/-! What a word or byte transfer does to registers and memory when its bytes lie inside. -/
namespace ArmSim
open Lib

/-- The address of the word being executed, which the fetch has moved the pc past. -/
def ArmCore.instructionAddress [Platform] (p : ArmCore) : Word := p.pc - 4

/-- The value that the manual gives register `reg` within an instruction. -/
def ArmCore.architectural [Platform] (p : ArmCore) (reg : ℕ) : Word :=
  if reg = 15 then p.instructionAddress + 8 else p.gp reg

/-- `q` differs from `p` in registers of the set `regs` and in bytes of the set `bytes` only. -/
structure ChangesOnly (p q : ArmCore) (regs bytes : ℕ → Prop) : Prop where
  cells : ∀ c, (∀ i < 16, regs i → c ≠ bankCell i p.bank) → q.reg c = p.reg c
  size : q.mem.size = p.mem.size
  memory : ∀ a, ¬bytes a → q.mem.byteAt a = p.mem.byteAt a
  output : q.output = p.output
  cycles : q.cycleCount = p.cycleCount

section changes
variable {p q r : ArmCore} {regs bytes : ℕ → Prop}

theorem ChangesOnly.refl (p : ArmCore) (regs bytes : ℕ → Prop) : ChangesOnly p p regs bytes :=
  ⟨fun _ _ => rfl, rfl, fun _ _ => rfl, rfl, rfl⟩

theorem ChangesOnly.cpsr (h : ChangesOnly p q regs bytes) (hb : p.bank < 6) : q.cpsr = p.cpsr :=
  h.cells cpsrCell (fun _ hi _ => (bankCell_ne_cpsr hi hb).symm)

theorem ChangesOnly.bank (h : ChangesOnly p q regs bytes) (hb : p.bank < 6) : q.bank = p.bank :=
  bank_congr (h.cpsr hb)

theorem ChangesOnly.trans (h : ChangesOnly p q regs bytes) (hb : p.bank < 6)
    (h' : ChangesOnly q r regs bytes) : ChangesOnly p r regs bytes := by
  constructor
  · -- The CPSR stays, so the registers have the same cells before the second step.
    intro c hc
    rw [h'.cells c (h.bank hb ▸ hc), h.cells c hc]
  · exact h'.size.trans h.size
  · intro a ha
    rw [h'.memory a ha, h.memory a ha]
  · exact h'.output.trans h.output
  · exact h'.cycles.trans h.cycles

theorem ChangesOnly.mono {regs' bytes' : ℕ → Prop} (h : ChangesOnly p q regs bytes)
    (hregs : ∀ i, regs i → regs' i) (hbytes : ∀ a, bytes a → bytes' a) :
    ChangesOnly p q regs' bytes' := by
  constructor
  · intro c hc
    exact h.cells c (fun i hi hli => hc i hi (hregs i hli))
  · exact h.size
  · intro a ha
    exact h.memory a (fun hb => ha (hbytes a hb))
  · exact h.output
  · exact h.cycles

/-- A store that keeps the size of memory and the bytes outside the set. -/
theorem ChangesOnly.store {mem : Memory} (hsize : mem.size = p.mem.size)
    (hbytes : ∀ a, ¬bytes a → mem.byteAt a = p.mem.byteAt a) :
    ChangesOnly p { p with mem := mem } regs bytes :=
  ⟨fun _ _ => rfl, hsize, hbytes, rfl, rfl⟩

variable [Platform]

theorem ChangesOnly.setGp {reg : ℕ} (hr : reg < 16) (hreg : regs reg) (p : ArmCore) (v : Word) :
    ChangesOnly p (p.setGp reg v) regs bytes := by
  refine ⟨?_, rfl, fun _ _ => rfl, rfl, rfl⟩
  intro c hc
  exact setCell_cell p v (hc reg hr hreg)

/-- The write-back of a base: register `reg` receives `v` where `c` holds. -/
def ArmCore.setGpIf (p : ArmCore) (c : Prop) [Decidable c] (reg : ℕ) (v : Word) : ArmCore :=
  if c then p.setGp reg v else p

theorem setGpIf_mem (p : ArmCore) (c : Prop) [Decidable c] (reg : ℕ) (v : Word) :
    (p.setGpIf c reg v).mem = p.mem := by
  unfold ArmCore.setGpIf
  split <;> rfl

theorem setGpIf_changes (p : ArmCore) (c : Prop) [Decidable c] {reg : ℕ} (hr : reg < 16)
    (v : Word) : ChangesOnly p (p.setGpIf c reg v) (fun i => c ∧ i = reg) (fun _ => False) := by
  unfold ArmCore.setGpIf
  by_cases hc : c
  · rw [if_pos hc]
    exact ChangesOnly.setGp hr ⟨hc, rfl⟩ p v
  · rw [if_neg hc]
    exact ChangesOnly.refl p _ _

theorem gp_setGpIf_self {p : ArmCore} (hb : p.bank < 6) {c : Prop} [Decidable c] (hc : c)
    {reg : ℕ} (hr : reg < 16) (v : Word) : (p.setGpIf c reg v).gp reg = v := by
  unfold ArmCore.setGpIf
  rw [if_pos hc]
  exact gp_setGp_self p hr hb v

/-- The other registers of the current mode keep their values. -/
theorem ChangesOnly.gp (h : ChangesOnly p q regs bytes) (hb : p.bank < 6) {reg : ℕ}
    (hr : reg < 16) (hreg : ¬regs reg) : q.gp reg = p.gp reg := by
  unfold ArmCore.gp
  rw [h.bank hb]
  apply Registers.get_congr
  apply h.cells
  intro i hi hli
  exact bankCell_ne hr hi hb hb (fun he => hreg (he ▸ hli))

end changes

section values
variable [Platform] {p : ArmCore}

/-- With an aligned pc, an instruction reads r15 as its address plus 8. -/
theorem operand_eq_architectural (hpc : p.pc.toNat % 4 = 0) (reg : ℕ) :
    p.operand reg = p.architectural reg := by
  unfold ArmCore.operand ArmCore.architectural
  by_cases h : reg = 15
  · -- All modes share r15, and the fetch has already moved it one word on.
    have hcell : p.gp 15 = p.pc := by
      have hshared : ∀ m < 7, bankCell 15 m = bankCell 15 0 := by decide
      unfold ArmCore.gp ArmCore.pc
      rw [hshared p.bank p.reg.bank_lt]
    have hplus : p.instructionAddress + 8 = p.pc + 4 := by
      unfold ArmCore.instructionAddress
      bv_omega
    rw [if_pos h, if_pos h, h, hcell, and_mask_aligned (aligned_add_four hpc), hplus]
  · rw [if_neg h, if_neg h]

end values

/-! The addressing modes: what is added to the base, where the access goes, and whether the
base moves. -/

/-- The base moved by the offset, up or down. -/
def movedBase (ins base offset : Word) : Word :=
  if getBit ins U_SHIFT = 1 then base + offset else base - offset

def accessAddress (ins base offset : Word) : Word :=
  if getBit ins P_SHIFT = 1 then movedBase ins base offset else base

def WritesBack (ins : Word) : Prop := getBit ins P_SHIFT = 0 ∨ getBit ins W_SHIFT = 1

instance (ins : Word) : Decidable (WritesBack ins) := inferInstanceAs (Decidable (_ ∨ _))

/-- The addressing mode that no transfer has. -/
def Reserved (ins : Word) : Prop := getBit ins P_SHIFT = 0 ∧ getBit ins W_SHIFT = 1

instance (ins : Word) : Decidable (Reserved ins) := inferInstanceAs (Decidable (_ ∧ _))

/-- Byte `i` is one of the `n` bytes from `a` on. -/
def Touches (a : Word) (n i : ℕ) : Prop := ∃ j < n, i = (a + BitVec.ofNat 32 j).toNat

theorem uBitHandle_eq (ins base offset : Word) :
    uBitHandle (getBit ins U_SHIFT) base offset = movedBase ins base offset := by
  unfold uBitHandle movedBase
  rcases getBit_zero_or_one ins U_SHIFT with h | h <;> rw [h] <;> rfl

/-- The number of bytes of a word or byte transfer. -/
def transferSize (ins : Word) : ℕ := if getBit ins B_SHIFT = 1 then 1 else 4

section single
variable [Platform]

/-- What a word or byte transfer does with the offset `offset`. -/
structure SingleEffect (p q : ArmCore) (ins offset : Word) : Prop where
  load : getBit ins L_SHIFT = 1 → q.gp (getBits ins 15 12) =
    if getBit ins B_SHIFT = 1 then
      (p.mem.byteAt (accessAddress ins (p.architectural (getBits ins 19 16)) offset).toNat).setWidth 32
    else p.mem.wordAt (accessAddress ins (p.architectural (getBits ins 19 16)) offset) ENDIANESS
  store : getBit ins L_SHIFT = 0 →
    if getBit ins B_SHIFT = 1 then
      q.mem.byteAt (accessAddress ins (p.architectural (getBits ins 19 16)) offset).toNat =
        (p.architectural (getBits ins 15 12)).setWidth 8
    else q.mem.wordAt (accessAddress ins (p.architectural (getBits ins 19 16)) offset) ENDIANESS =
      p.architectural (getBits ins 15 12)
  base : WritesBack ins →
    q.gp (getBits ins 19 16) = movedBase ins (p.architectural (getBits ins 19 16)) offset
  others : ChangesOnly p q
    (fun i => getBit ins L_SHIFT = 1 ∧ i = getBits ins 15 12 ∨
      WritesBack ins ∧ i = getBits ins 19 16)
    (fun a => getBit ins L_SHIFT = 0 ∧
      Touches (accessAddress ins (p.architectural (getBits ins 19 16)) offset) (transferSize ins) a)

/-- The state after the access itself. -/
def accessed (p : ArmCore) (l b : ℕ) (a : Word) (rd : ℕ) : ArmCore :=
  if l = 1 then
    p.setGp rd (if b = 1 then (p.mem.byteAt a.toNat).setWidth 32 else p.mem.wordAt a ENDIANESS)
  else
    { p with mem := if b = 1 then p.mem.setByte a.toNat ((p.operand rd).setWidth 8)
                    else p.mem.setWord a (p.operand rd) ENDIANESS }

theorem bBitHandle_inRange {p : ArmCore} (hb : p.bank < 6) {l b : ℕ} (hl : l = 0 ∨ l = 1)
    (hB : b = 0 ∨ b = 1) {a : Word} (h : p.mem.InRange a (if b = 1 then 1 else 4)) {rd : ℕ}
    (hd : rd < 16) : bBitHandle p l b a rd = .ok (0, accessed p l b a rd) := by
  have hbyte (hin : p.mem.InRange a 1) (v : Byte) :
      armReadByte p a v = .ok (0, p.mem.byteAt a.toNat) := memoryReadByte_inRange hin v
  have hword (hin : p.mem.InRange a 4) (v : Word) :
      armReadWord p a v = .ok (0, p.mem.wordAt a ENDIANESS) := memoryReadWord_inRange hin v _
  unfold bBitHandle accessed armWriteByte armWriteWord
  -- A store of a word and of a byte, then the two loads.
  rcases hl with rfl | rfl <;> rcases hB with rfl | rfl
  · simp [armReadRegister_eq hd hb, memoryWriteWord_inRange h]
  · simp [armReadRegister_eq hd hb, memoryWriteByte_inRange h]
  · simp [hword h, armWriteRegister_eq hd hb]
  · simp [hbyte h, armWriteRegister_eq hd hb]

theorem accessed_changes {p : ArmCore} (l : ℕ) {b : ℕ} {a : Word}
    (h : p.mem.InRange a (if b = 1 then 1 else 4)) {rd : ℕ} (hd : rd < 16) :
    ChangesOnly p (accessed p l b a rd) (fun i => l = 1 ∧ i = rd)
      (fun i => l ≠ 1 ∧ Touches a (if b = 1 then 1 else 4) i) := by
  unfold accessed
  by_cases hl : l = 1
  · rw [if_pos hl]
    exact ChangesOnly.setGp hd ⟨hl, rfl⟩ p _
  · rw [if_neg hl]
    by_cases hb : b = 1
    · rw [if_pos hb] at h
      simp only [if_pos hb]
      apply ChangesOnly.store (p.mem.size_setByte _ _)
      intro i hi
      have hne : a.toNat ≠ i := by
        intro he
        exact hi ⟨hl, 0, by decide, by rw [← he]; simp⟩
      exact (Memory.byteAt_setByte _ _ _ _ (h.start (by decide))).trans (if_neg hne)
    · rw [if_neg hb] at h
      simp only [if_neg hb]
      apply ChangesOnly.store (p.mem.size_setWord _ _ _)
      intro i hi
      apply Memory.byteAt_setWord_of_ne h
      intro j hj he
      exact hi ⟨hl, j, hj, he⟩

theorem accessed_load {p : ArmCore} (hb : p.bank < 6) (b : ℕ) (a : Word) {rd : ℕ}
    (hd : rd < 16) : (accessed p 1 b a rd).gp rd =
      if b = 1 then (p.mem.byteAt a.toNat).setWidth 32 else p.mem.wordAt a ENDIANESS :=
  gp_setGp_self p hd hb _

theorem accessed_store {p : ArmCore} {b : ℕ} {a : Word}
    (h : p.mem.InRange a (if b = 1 then 1 else 4)) (rd : ℕ) :
    if b = 1 then (accessed p 0 b a rd).mem.byteAt a.toNat = (p.operand rd).setWidth 8
    else (accessed p 0 b a rd).mem.wordAt a ENDIANESS = p.operand rd := by
  unfold accessed
  by_cases hb : b = 1
  · rw [if_pos hb] at h
    simp [hb, Memory.byteAt_setByte _ _ _ _ (h.start (by decide))]
  · rw [if_neg hb] at h
    simp [hb, Memory.wordAt_setWord h]

/-- The transfer as the access and then the base. -/
theorem singleTransfer_inRange {p : ArmCore} (hb : p.bank < 6) {ins offset : Word}
    (hform : ¬Reserved ins)
    (hin : p.mem.InRange (accessAddress ins (p.operand (getBits ins 19 16)) offset)
      (transferSize ins)) :
    singleTransfer p ins offset = .ok (0, (accessed p (getBit ins L_SHIFT) (getBit ins B_SHIFT)
      (accessAddress ins (p.operand (getBits ins 19 16)) offset) (getBits ins 15 12)).setGpIf
        (WritesBack ins) (getBits ins 19 16)
        (movedBase ins (p.operand (getBits ins 19 16)) offset)) := by
  have hn : getBits ins 19 16 < 16 := getBits_lt_sixteen ins rfl
  have hd : getBits ins 15 12 < 16 := getBits_lt_sixteen ins rfl
  generalize hbase : p.operand (getBits ins 19 16) = base at *
  have haccess := bBitHandle_inRange hb (getBit_zero_or_one ins L_SHIFT)
    (getBit_zero_or_one ins B_SHIFT) hin hd
  -- The access keeps the bank, so the base still has its cell.
  have hbank := (accessed_changes (getBit ins L_SHIFT) hin hd).bank hb
  have hwrite := armWriteRegister_eq hn (hbank ▸ hb) (movedBase ins base offset)
  unfold singleTransfer immediatePreindexing immediatePostindexing immediateOffset
    ArmCore.setGpIf
  rw [armReadRegister_eq hn hb, hbase, ok_bind]
  simp only [uBitHandle_eq]
  unfold accessAddress at haccess hwrite ⊢
  -- The three addressing modes of the source.
  by_cases hP : getBit ins P_SHIFT = 1
  · have hP0 : getBit ins P_SHIFT ≠ 0 := by omega
    rw [if_pos hP] at haccess hwrite ⊢
    by_cases hW : getBit ins W_SHIFT = 1
    · have hback : WritesBack ins := Or.inr hW
      simp [hP, hW, haccess, hwrite, hback]
    · have hback : ¬WritesBack ins := not_or.mpr ⟨hP0, hW⟩
      simp [hP, hW, haccess, hback]
  · have hP0 : getBit ins P_SHIFT = 0 := (getBit_zero_or_one _ _).resolve_right hP
    have hW : getBit ins W_SHIFT ≠ 1 := fun hW => hform ⟨hP0, hW⟩
    have hback : WritesBack ins := Or.inl hP0
    rw [if_neg hP] at haccess hwrite ⊢
    simp [hP, hW, haccess, hwrite, hback]

theorem singleTransfer_effect {p : ArmCore} (hb : p.bank < 6) (hpc : p.pc.toNat % 4 = 0)
    {ins offset : Word} (hform : ¬Reserved ins)
    (hbase : WritesBack ins →
      getBits ins 19 16 ≠ 15 ∧ getBits ins 15 12 ≠ getBits ins 19 16)
    (hin : p.mem.InRange (accessAddress ins (p.architectural (getBits ins 19 16)) offset)
      (transferSize ins)) :
    ∃ q, singleTransfer p ins offset = .ok (0, q) ∧ SingleEffect p q ins offset := by
  have hn : getBits ins 19 16 < 16 := getBits_lt_sixteen ins rfl
  have hd : getBits ins 15 12 < 16 := getBits_lt_sixteen ins rfl
  rw [← operand_eq_architectural hpc] at hin
  have hrun := singleTransfer_inRange hb hform hin
  rw [operand_eq_architectural hpc] at hin hrun
  generalize hbv : p.architectural (getBits ins 19 16) = base at *
  have hx := accessed_changes (getBit ins L_SHIFT) hin hd
  have hbank := hx.bank hb
  generalize hq : accessed p (getBit ins L_SHIFT) (getBit ins B_SHIFT)
    (accessAddress ins base offset) (getBits ins 15 12) = q at *
  have hback := setGpIf_changes q (WritesBack ins) hn (movedBase ins base offset)
  refine ⟨_, hrun, ?_, ?_, ?_, ?_⟩
  · -- The base is another register than the one loaded.
    intro hl
    rw [hbv, ← accessed_load hb _ _ hd, ← hl, hq]
    exact hback.gp (hbank ▸ hb) hd (fun h => (hbase h.1).2 h.2)
  · intro hl
    have hstore := accessed_store hin (getBits ins 15 12)
    rw [← hl, hq, operand_eq_architectural hpc] at hstore
    rw [hbv, setGpIf_mem]
    exact hstore
  · intro h
    rw [hbv]
    exact gp_setGpIf_self (hbank ▸ hb) h hn _
  · rw [hbv]
    exact (hx.mono (fun _ h => Or.inl h)
      (fun _ h => ⟨(getBit_zero_or_one _ _).resolve_right h.1, h.2⟩)).trans hb
        (hback.mono (fun _ h => Or.inr h) (fun _ h => h.elim))

/-- The immediate form of `LDR`, `STR`, `LDRB` and `STRB`, in every mode but the fast
interrupt's and in every addressing mode. -/
theorem immediate_offset_transfer (p : ArmCore) (hb : p.bank < 6) (hpc : p.pc.toNat % 4 = 0)
    (ins : Word) (hform : ¬Reserved ins)
    (hbase : WritesBack ins →
      getBits ins 19 16 ≠ 15 ∧ getBits ins 15 12 ≠ getBits ins 19 16)
    (hin : p.mem.InRange (accessAddress ins (p.architectural (getBits ins 19 16))
      (BitVec.ofNat 32 (getBits ins 11 0))) (transferSize ins)) :
    ∃ q, armLoadStoreImmediateOffset p ins = .ok (0, q) ∧
      SingleEffect p q ins (BitVec.ofNat 32 (getBits ins 11 0)) := by
  rw [armLoadStoreImmediateOffset_eq]
  exact singleTransfer_effect hb hpc hform hbase hin

end single

/-- `LDRB r0, [r1], #4` with `r1 = 0`. -/
theorem immediate_offset_transfer_byte : ∃ q,
    @armLoadStoreImmediateOffset makefile (ArmCore.boot 0x10 [7, 8, 9, 10]) 0xE4D10004 =
      .ok (0, q) ∧ @ArmCore.gp makefile q 0 = 7 ∧ @ArmCore.gp makefile q 1 = 4 := by
  obtain ⟨q, hq, heffect⟩ := @immediate_offset_transfer makefile
    (ArmCore.boot 0x10 [7, 8, 9, 10]) (by decide) (by decide) 0xE4D10004 (by decide)
    (fun _ => by decide) (by decide)
  have hload := @SingleEffect.load makefile _ _ _ _ heffect (by decide)
  have hmoved := @SingleEffect.base makefile _ _ _ _ heffect (by decide)
  have hd : getBits 0xE4D10004 15 12 = 0 := by decide
  have hn : getBits 0xE4D10004 19 16 = 1 := by decide
  rw [hd] at hload
  rw [hn] at hmoved
  refine ⟨q, hq, hload.trans ?_, hmoved.trans ?_⟩ <;> decide

end ArmSim
