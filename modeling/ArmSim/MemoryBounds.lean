import ArmSim.MemoryArray

/-! The bounds of the multi-byte accesses: the code checks the first byte only. -/
namespace ArmSim
open Lib

/-- The access `x` to `n` bytes succeeds only with all of them inside the array, and
fails with -1 and no change otherwise. -/
def Checked {α : Type} (mem : Memory) (a : Word) (n : ℕ) (x : Except Crash (ℤ × α))
    (unchanged : α → Prop) : Prop :=
  ∃ r, x = .ok r ∧ (r.1 = 0 ∧ mem.InRange a n ∨ r.1 = -1 ∧ unchanged r.2)

/-- The first byte of an access decides for all of them. -/
def Memory.FirstByteDecides (mem : Memory) (a : Word) (n : ℕ) : Prop :=
  mem.size ≤ a.toNat ∨ mem.InRange a n

/-- An access that is refused, performed or out of the array is checked when it is not
the last of the three. -/
theorem checked_iff {α : Type} {mem : Memory} {a : Word} {n : ℕ} {x : Except Crash (ℤ × α)}
    {unchanged : α → Prop}
    (houtside : mem.size ≤ a.toNat → ∃ v, x = .ok (-1, v) ∧ unchanged v)
    (hinside : mem.InRange a n → ∃ v, x = .ok (0, v))
    (hbetween : a.toNat < mem.size → ¬mem.InRange a n → x = .error .memoryByte) :
    Checked mem a n x unchanged ↔ mem.FirstByteDecides a n := by
  constructor
  · rintro ⟨r, hr, -⟩
    by_contra hn
    obtain ⟨h0, hr'⟩ := not_or.mp hn
    rw [hbetween (Nat.lt_of_not_le h0) hr'] at hr
    cases hr
  · rintro (h | h)
    · obtain ⟨v, hv, hu⟩ := houtside h
      exact ⟨_, hv, Or.inr ⟨rfl, hu⟩⟩
    · obtain ⟨v, hv⟩ := hinside h
      exact ⟨_, hv, Or.inl ⟨rfl, h⟩⟩

/-- The accesses of two and four bytes, and the instruction fetch, are checked exactly
where their first byte decides: it is outside the array, or all of them are inside. -/
theorem multiByte_checked_iff [Platform] (p : ArmCore) (a : Word) (half : Half) (word : Word)
    (be : Bool) :
    (Checked p.mem a 2 (memoryReadHalf p.mem a half be) (fun _ => True) ↔
      p.mem.FirstByteDecides a 2) ∧
    (Checked p.mem a 4 (memoryReadWord p.mem a word be) (fun _ => True) ↔
      p.mem.FirstByteDecides a 4) ∧
    (Checked p.mem a 2 (memoryWriteHalf p.mem a half be) (fun mem => mem = p.mem) ↔
      p.mem.FirstByteDecides a 2) ∧
    (Checked p.mem a 4 (memoryWriteWord p.mem a word be) (fun mem => mem = p.mem) ↔
      p.mem.FirstByteDecides a 4) ∧
    (Checked p.mem p.pc 4 (armFetch p word) (fun r => r.2.mem = p.mem) ↔
      p.mem.FirstByteDecides p.pc 4) := by
  refine ⟨checked_iff ?_ ?_ ?_, checked_iff ?_ ?_ ?_, checked_iff ?_ ?_ ?_,
    checked_iff ?_ ?_ ?_, checked_iff ?_ ?_ ?_⟩
  · exact fun h => ⟨_, memoryReadHalf_outside h half be, trivial⟩
  · exact fun h => ⟨_, memoryReadHalf_inRange h half be⟩
  · exact fun h0 h => memoryReadHalf_straddling h0 h half be
  · exact fun h => ⟨_, memoryReadWord_outside h word be, trivial⟩
  · exact fun h => ⟨_, memoryReadWord_inRange h word be⟩
  · exact fun h0 h => memoryReadWord_straddling h0 h word be
  · exact fun h => ⟨_, memoryWriteHalf_outside h half be, rfl⟩
  · exact fun h => ⟨_, WriteCall.run_inRange (c := .half a half be) h⟩
  · exact fun h0 h => memoryWriteHalf_straddling h0 h half be
  · exact fun h => ⟨_, memoryWriteWord_outside h word be, rfl⟩
  · exact fun h => ⟨_, memoryWriteWord_inRange h word be⟩
  · exact fun h0 h => memoryWriteWord_straddling h0 h word be
  · intro h
    rw [armFetch_eq, memoryReadWord_outside h]
    exact ⟨_, rfl, rfl⟩
  · intro h
    rw [armFetch_eq, memoryReadWord_inRange h]
    exact ⟨_, rfl⟩
  · intro h0 h
    rw [armFetch_eq, memoryReadWord_straddling h0 h]
    rfl

/-- A word at the last byte but two: the access neither succeeds in the array nor fails. -/
theorem multiByte_unchecked_last :
    ¬Checked ⟨[1, 2, 3, 4]⟩ 1 4 (memoryReadWord ⟨[1, 2, 3, 4]⟩ 1 0 true) (fun _ => True) ∧
      ¬Checked ⟨[1, 2, 3, 4]⟩ 3 2 (memoryWriteHalf ⟨[1, 2, 3, 4]⟩ 3 0xAABB true)
        (fun mem => mem = ⟨[1, 2, 3, 4]⟩) := by
  constructor
  · rintro ⟨r, hr, -⟩
    have he : memoryReadWord ⟨[1, 2, 3, 4]⟩ 1 0 true = .error .memoryByte :=
      memoryReadWord_straddling (by decide) (by decide) 0 true
    rw [he] at hr
    cases hr
  · rintro ⟨r, hr, -⟩
    have he : memoryWriteHalf ⟨[1, 2, 3, 4]⟩ 3 0xAABB true = .error .memoryByte :=
      memoryWriteHalf_straddling (by decide) (by decide) 0xAABB true
    rw [he] at hr
    cases hr

end ArmSim
