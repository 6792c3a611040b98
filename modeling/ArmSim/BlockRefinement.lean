import ArmSim.BlockTransfer
import ArmSim.TransferRefinement

/-! The block transfers against those of the architecture: the source's loop over sixteen
register numbers is one over the registers of the list. -/
namespace ArmSim
open Lib
namespace Arch

/-- The registers of a list as the loop meets them. -/
theorem registersIn_val (list : BitVec 16) : (registersIn list).map Fin.val =
    (List.range 16).filter (fun i => getBit list i ≠ 0) := by
  unfold registersIn
  rw [← List.map_coe_finRange_eq_range, List.filter_map]
  congr 1
  apply List.filter_congr
  intro r _
  rw [Function.comp_apply, getBit_eq]
  cases list.getLsbD r <;> rfl

theorem mem_registersIn {list : BitVec 16} {r : Reg} (h : r ∈ registersIn list) :
    getBit list r ≠ 0 := by
  rw [getBit_eq, (List.mem_filter.mp h).2]
  decide

theorem length_registersIn (inst : Word) :
    (registersIn (listOf inst)).length = (registersOf inst).length := by
  rw [length_registersOf, ← length_filter_listed inst (Nat.le_refl 16),
    ← List.length_map Fin.val, registersIn_val]
  congr 1
  apply List.filter_congr
  intro i hi
  have hlt : i < 16 := List.mem_range.mp hi
  exact decide_eq_decide.mpr (listed_iff hlt)

/-- The two low bits of an aligned word are clear already. -/
theorem and_word_aligned {x : Word} (h : x.toNat % 4 = 0) : x &&& 0xFFFFFFFC = x := by
  have hbit0 : getBit x 0 = 0 := by
    rw [getBit_eq_div]
    omega
  have hbit1 : getBit x 1 = 0 := by
    rw [getBit_eq_div]
    omega
  calc x &&& 0xFFFFFFFC
      = clrBit (clrBit x 1) 0 := by
        unfold clrBit
        rw [BitVec.and_assoc]
        rfl
    _ = x := by rw [clrBit_eq_self hbit1, clrBit_eq_self hbit0]

theorem inRange_congr {mem mem' : Memory} (h : mem'.size = mem.size) {a : Word} {n : ℕ}
    (hin : mem.InRange a n) : mem'.InRange a n := by
  intro j hj
  rw [h]
  exact hin j hj

/-- Every word of a block of `n` words is inside memory. -/
def WordsInRange (mem : Memory) (a : Word) (n : ℕ) : Prop :=
  ∀ k < n, mem.InRange (a + BitVec.ofNat 32 (4 * k)) 4

theorem WordsInRange.head {mem : Memory} {a : Word} {n : ℕ} (h : WordsInRange mem a (n + 1)) :
    mem.InRange a 4 := by
  have hzero := h 0 (Nat.succ_pos n)
  rwa [Nat.mul_zero, BitVec.add_zero] at hzero

theorem WordsInRange.tail {mem mem' : Memory} (hsize : mem'.size = mem.size) {a : Word} {n : ℕ}
    (h : WordsInRange mem a (n + 1)) : WordsInRange mem' (a + 4) n := by
  intro k hk
  have hword := h (k + 1) (Nat.succ_lt_succ hk)
  have haddress : a + BitVec.ofNat 32 (4 * (k + 1)) = a + 4 + BitVec.ofNat 32 (4 * k) := by
    rw [Nat.mul_add, Nat.add_comm, BitVec.ofNat_add, BitVec.add_assoc]
    rfl
  rw [haddress] at hword
  exact inRange_congr hsize hword

section blocks
variable [Platform] {start p : ArmCore} {K : Known} {A B C : Machine} {inst input : Word}

/-- The loop leaves out the registers that are not listed. -/
theorem multipleLoop_listed (L : ℕ) (list : BitVec 16) (s : MultipleLoop) :
    (List.range 16).foldlM (multipleStep L list) s =
      ((registersIn list).map Fin.val).foldlM (multipleStep L list) s := by
  rw [registersIn_val, List.foldlM_filter]
  congr 1
  funext s i
  unfold multipleStep
  by_cases hl : getBit list i ≠ 0
  · rw [if_pos hl, if_pos (decide_eq_true hl)]
  · rw [if_neg hl, if_neg (fun h => hl (of_decide_eq_true h))]

/-- The loading loop, from a state in the middle of it. -/
theorem loadBlock_simulated {list : BitVec 16} {rs : List Reg} (hrs : ∀ r ∈ rs, getBit list r ≠ 0)
    {s : MultipleLoop} (hC : Represents start K C s.p) (hin : WordsInRange C.mem s.address rs.length)
    (hload : loadBlock rs s.address C = some B) :
    ∃ t, (rs.map Fin.val).foldlM (multipleStep 1 list) s = .ok t ∧ Represents start K B t.p := by
  induction rs generalizing s C with
  | nil =>
    cases hload
    exact ⟨s, rfl, hC⟩
  | cons r rs ih =>
    obtain ⟨D, hwrite, hrest⟩ := Option.bind_eq_some_iff.mp hload
    have hlisted := hrs r List.mem_cons_self
    have hinside := hin.head
    have hread : armReadWord s.p s.address s.data =
        .ok (0, C.mem.wordAt s.address ENDIANESS) := by
      unfold armReadWord
      rw [hC.mem, memoryReadWord_inRange hinside]
    -- Only an aligned word is loaded into r15, which the mask then leaves as it is.
    have hmask : (if r.val = 15 then C.mem.wordAt s.address ENDIANESS &&& 0xFFFFFFFC
        else C.mem.wordAt s.address ENDIANESS) = C.mem.wordAt s.address ENDIANESS := by
      split
      · rename_i h15
        refine and_word_aligned ?_
        unfold Machine.write at hwrite
        split at hwrite
        · rename_i hal
          exact hal (Fin.ext h15)
        · cases hwrite
      · rfl
    let s' : MultipleLoop := ⟨s.address + 4, C.mem.wordAt s.address ENDIANESS,
      s.p.setGp r (C.mem.wordAt s.address ENDIANESS)⟩
    have hstep : multipleStep 1 list s r = .ok s' := by
      unfold multipleStep
      rw [if_pos hlisted, if_pos (show (1 : ℕ) ≠ 0 by decide), hread]
      simp only [ok_bind, hmask, armWriteRegister_eq r.isLt hC.bank_lt]
      rfl
    have hsize : D.mem.size = C.mem.size := by rw [(Machine.write_frame hwrite).2.1]
    have hD : Represents start K D s'.p := hC.write hwrite
    obtain ⟨t, ht, hB⟩ := ih (s := s') (fun r hr => hrs r (List.mem_cons_of_mem _ hr)) hD
      (hin.tail hsize) hrest
    refine ⟨t, ?_, hB⟩
    rw [List.map_cons, List.foldlM_cons, hstep, ok_bind]
    exact ht

/-- The storing loop, which leaves the registers as they are. -/
theorem storeBlock_simulated (h : Represents start K A p) {list : BitVec 16} {rs : List Reg}
    (hrs : ∀ r ∈ rs, getBit list r ≠ 0) {s : MultipleLoop} (hC : Represents start K C s.p)
    (hreg : s.p.reg = p.advance.reg) (hin : WordsInRange C.mem s.address rs.length) :
    ∃ t, (rs.map Fin.val).foldlM (multipleStep 0 list) s = .ok t ∧
      Represents start K (storeBlock A rs s.address C) t.p := by
  induction rs generalizing s C with
  | nil => exact ⟨s, rfl, hC⟩
  | cons r rs ih =>
    have hlisted := hrs r List.mem_cons_self
    have hinside := hin.head
    have hread : armReadRegister s.p r = .ok (A.value r) := by
      rw [armReadRegister_eq r.isLt hC.bank_lt, operand_congr hreg, h.operand r]
    have hwrite : armWriteWord s.p s.address (A.value r) =
        .ok (0, { s.p with mem := C.mem.setWord s.address (A.value r) ENDIANESS }) := by
      unfold armWriteWord
      rw [hC.mem, memoryWriteWord_inRange hinside]
      rfl
    let s' : MultipleLoop := ⟨s.address + 4, s.data,
      { s.p with mem := C.mem.setWord s.address (A.value r) ENDIANESS }⟩
    have hstep : multipleStep 0 list s r = .ok s' := by
      unfold multipleStep
      rw [if_pos hlisted, if_neg (show ¬(0 : ℕ) ≠ 0 by decide), hread, ok_bind, hwrite]
      rfl
    have hD : Represents start K (C.store (C.mem.setWord s.address (A.value r) ENDIANESS)) s'.p :=
      hC.store _
    obtain ⟨t, ht, hB⟩ := ih (s := s') (fun r hr => hrs r (List.mem_cons_of_mem _ hr)) hD hreg
      (hin.tail (Memory.size_setWord _ _ _ _))
    refine ⟨t, ?_, hB⟩
    rw [List.map_cons, List.foldlM_cons, hstep, ok_bind]
    exact ht

theorem block_simulated (env : Env) (h : Represents start K A p)
    (hclass : getBits inst 27 25 = 4) (hS : bit inst 22 = false)
    (hexec : execBlock A (bit inst 20) (bit inst 23) (bit inst 24) (bit inst 21) (regField inst 16)
      (listOf inst) = some B) : Simulated start env K p inst B := by
  have hnext := h.next
  obtain ⟨⟨-, -, -, hin⟩, hrest⟩ := Option.ite_none_right_eq_some.mp hexec
  obtain ⟨C, hblock, hback⟩ := Option.bind_eq_some_iff.mp hrest
  -- The first address and the base written back, as the source computes them.
  have hsize : BitVec.ofNat 32 (4 * (registersIn (listOf inst)).length) = blockSize inst := by
    rw [length_registersIn]
    rfl
  rw [hsize] at hblock hback hin
  have hfirst : blockFirst (bit inst 23) (bit inst 24) (A.value (regField inst 16))
      (blockSize inst) = firstAddress inst (A.value (regField inst 16)) := by
    rw [firstAddress_eq]
    unfold blockFirst blockStart
    simp only [bit_eq_true_iff]
  have hlast : (if bit inst 23 then A.value (regField inst 16) + blockSize inst
      else A.value (regField inst 16) - blockSize inst) =
        lastAddress inst (A.value (regField inst 16)) := by
    rw [lastAddress_eq]
    unfold blockBase
    simp only [bit_eq_true_iff]
  rw [hfirst] at hblock hin
  rw [hlast] at hback
  -- The loop, which only loads or only stores.
  let s : MultipleLoop :=
    ⟨firstAddress inst (A.value (regField inst 16)), env.data, p.advance⟩
  obtain ⟨t, ht, hC⟩ : ∃ t, ((registersIn (listOf inst)).map Fin.val).foldlM
      (multipleStep (getBit inst 20) (listOf inst)) s = .ok t ∧ Represents start K C t.p := by
    have hlisted : ∀ r ∈ registersIn (listOf inst), getBit (listOf inst) r ≠ 0 :=
      fun r hr => mem_registersIn hr
    have hwords : WordsInRange A.next.mem s.address (registersIn (listOf inst)).length := hin
    cases hl : bit inst 20 with
    | true =>
      rw [hl] at hblock
      rw [bit_eq_true_iff.mp hl]
      exact loadBlock_simulated (s := s) hlisted hnext hwords hblock
    | false =>
      rw [hl] at hblock
      cases hblock
      rw [bit_eq_false_iff.mp hl]
      exact storeBlock_simulated (s := s) h hlisted hnext rfl hwords
  have hbase : armReadRegister p.advance (getBits inst 19 16) =
      .ok (A.value (regField inst 16)) := by
    rw [armReadRegister_eq (getBits_lt_sixteen inst rfl) hnext.bank_lt]
    exact congrArg Except.ok (h.operand (regField inst 16))
  have hB : Represents start K B (t.p.setGpIf (getBit inst 21 = 1) (getBits inst 19 16)
      (lastAddress inst (A.value (regField inst 16)))) := by
    unfold ArmCore.setGpIf
    by_cases hw : bit inst 21 = true
    · rw [if_pos hw] at hback
      rw [if_pos (bit_eq_true_iff.mp hw)]
      exact hC.write hback
    · rw [if_neg hw] at hback
      cases hback
      rw [if_neg (fun h1 => hw (bit_eq_true_iff.mpr h1))]
      exact hC
  refine simulated_of_body ?_ hB
  calc armFetchCodeInst env p.advance inst p.cpsr
      = armLoadStoreMultiple env p.advance inst := decode_multiple env p.advance p.cpsr hclass
    _ = multipleEnd t.p inst (lastAddress inst (A.value (regField inst 16))) := by
        rw [armLoadStoreMultiple_eq, hbase, ok_bind, multipleLoop_listed, ht, ok_bind]
    _ = .ok (0, _) := multipleEnd_eq (hasCell_of_bank hC.bank_lt _)
        (Or.inr (Or.inl (bit_eq_false_iff.mp hS))) _

end blocks

end Arch
end ArmSim
