import ArmSim.Util

/-! `memory.c`: a byte array with range-checked accesses.  Only the first byte of
an access is checked, so an access that starts in range and ends outside leaves
the array. -/
namespace ArmSim
open Lib

/-- `struct memory_data`.  A `NULL` memory answers every access as an empty one does. -/
structure Memory where
  data : List Byte

def Memory.size (mem : Memory) : ℕ := mem.data.length

/-- `mem->data[address]` as a value. -/
def Memory.fetch (mem : Memory) (address : Word) : Except Crash Byte :=
  match mem.data[address.toNat]? with
  | some b => .ok b
  | none => .error .memoryByte

/-- `mem->data[address]` as an assignment's target. -/
def Memory.store (mem : Memory) (address : Word) (value : Byte) : Except Crash Memory :=
  if address.toNat < mem.size then .ok ⟨mem.data.set address.toNat value⟩
  else .error .memoryByte

-- The read functions take what `*value` holds and leave it there when they fail.

def memoryReadByte (mem : Memory) (address : Word) (value : Byte) :
    Except Crash (ℤ × Byte) := do
  if mem.size ≤ address.toNat then
    return (-1, value)
  return (0, ← mem.fetch address)

def memoryReadHalf (mem : Memory) (address : Word) (value : Half) (be : Bool) :
    Except Crash (ℤ × Half) := do
  if mem.size ≤ address.toNat then
    return (-1, value)
  let b0 ← mem.fetch address
  let b1 ← mem.fetch (address + 1)
  if be then
    return (0, (b0.setWidth 16 <<< 8) ||| b1.setWidth 16)
  else
    return (0, (b1.setWidth 16 <<< 8) ||| b0.setWidth 16)

def memoryReadWord (mem : Memory) (address : Word) (value : Word) (be : Bool) :
    Except Crash (ℤ × Word) := do
  if mem.size ≤ address.toNat then
    return (-1, value)
  let b0 ← mem.fetch address
  let b1 ← mem.fetch (address + 1)
  let b2 ← mem.fetch (address + 2)
  let b3 ← mem.fetch (address + 3)
  if be then
    return (0, (b0.setWidth 32 <<< 24) ||| (b1.setWidth 32 <<< 16) |||
      (b2.setWidth 32 <<< 8) ||| b3.setWidth 32)
  else
    return (0, (b3.setWidth 32 <<< 24) ||| (b2.setWidth 32 <<< 16) |||
      (b1.setWidth 32 <<< 8) ||| b0.setWidth 32)

def memoryWriteByte (mem : Memory) (address : Word) (value : Byte) :
    Except Crash (ℤ × Memory) := do
  if mem.size ≤ address.toNat then
    return (-1, mem)
  return (0, ← mem.store address value)

def memoryWriteHalf (mem : Memory) (address : Word) (value : Half) (be : Bool) :
    Except Crash (ℤ × Memory) := do
  if mem.size ≤ address.toNat then
    return (-1, mem)
  if be then
    let mem ← mem.store address ((value >>> 8).setWidth 8)
    let mem ← mem.store (address + 1) (value.setWidth 8)
    return (0, mem)
  else
    let mem ← mem.store (address + 1) ((value >>> 8).setWidth 8)
    let mem ← mem.store address (value.setWidth 8)
    return (0, mem)

def memoryWriteWord (mem : Memory) (address : Word) (value : Word) (be : Bool) :
    Except Crash (ℤ × Memory) := do
  if mem.size ≤ address.toNat then
    return (-1, mem)
  if be then
    let mem ← mem.store address ((value >>> 24).setWidth 8)
    let mem ← mem.store (address + 1) ((value >>> 16).setWidth 8)
    let mem ← mem.store (address + 2) ((value >>> 8).setWidth 8)
    let mem ← mem.store (address + 3) (value.setWidth 8)
    return (0, mem)
  else
    let mem ← mem.store (address + 3) ((value >>> 24).setWidth 8)
    let mem ← mem.store (address + 2) ((value >>> 16).setWidth 8)
    let mem ← mem.store (address + 1) ((value >>> 8).setWidth 8)
    let mem ← mem.store address (value.setWidth 8)
    return (0, mem)

/-- The `n` bytes from `address` on all lie in the array. -/
def Memory.InRange (mem : Memory) (address : Word) (n : ℕ) : Prop :=
  ∀ j < n, (address + BitVec.ofNat 32 j).toNat < mem.size

instance (mem : Memory) (address : Word) (n : ℕ) : Decidable (mem.InRange address n) :=
  inferInstanceAs (Decidable (∀ j < n, (address + BitVec.ofNat 32 j).toNat < mem.size))

def Memory.byteAt (mem : Memory) (i : ℕ) : Byte := mem.data.getD i 0

/-- The word that the four bytes from `address` on make up. -/
def Memory.wordAt (mem : Memory) (address : Word) (be : Bool) : Word :=
  let b (j : ℕ) : Word := (mem.byteAt (address + BitVec.ofNat 32 j).toNat).setWidth 32
  if be then (b 0 <<< 24) ||| (b 1 <<< 16) ||| (b 2 <<< 8) ||| b 3
  else (b 3 <<< 24) ||| (b 2 <<< 16) ||| (b 1 <<< 8) ||| b 0

/-- The byte that goes to `address + j` when `value` is written at `address`. -/
def wordByte (value : Word) (be : Bool) (j : ℕ) : Byte :=
  (value >>> (8 * if be then 3 - j else j)).setWidth 8

def Memory.setByte (mem : Memory) (i : ℕ) (value : Byte) : Memory := ⟨mem.data.set i value⟩

def Memory.setWord (mem : Memory) (address value : Word) (be : Bool) : Memory :=
  let put (mem : Memory) (j : ℕ) : Memory :=
    mem.setByte (address + BitVec.ofNat 32 j).toNat (wordByte value be j)
  if be then put (put (put (put mem 0) 1) 2) 3 else put (put (put (put mem 3) 2) 1) 0

@[simp] theorem Memory.size_setByte (mem : Memory) (i : ℕ) (v : Byte) :
    (mem.setByte i v).size = mem.size := List.length_set

@[simp] theorem Memory.size_setWord (mem : Memory) (a v : Word) (be : Bool) :
    (mem.setWord a v be).size = mem.size := by
  unfold setWord
  split <;> simp only [size_setByte]

theorem Memory.byteAt_setByte (mem : Memory) (i j : ℕ) (v : Byte) (hi : i < mem.size) :
    (mem.setByte i v).byteAt j = if i = j then v else mem.byteAt j := by
  unfold byteAt setByte
  by_cases h : i = j
  · subst h
    have hi' : i < mem.data.length := hi
    simp [hi']
  · simp [h]

theorem Memory.fetch_of_lt {mem : Memory} {a : Word} (h : a.toNat < mem.size) :
    mem.fetch a = .ok (mem.byteAt a.toNat) := by
  have h' : a.toNat < mem.data.length := h
  simp [fetch, byteAt, h']

theorem Memory.fetch_of_le {mem : Memory} {a : Word} (h : mem.size ≤ a.toNat) :
    mem.fetch a = .error .memoryByte := by
  have h' : mem.data.length ≤ a.toNat := h
  simp [fetch, h']

theorem Memory.store_of_lt {mem : Memory} {a : Word} (h : a.toNat < mem.size) (v : Byte) :
    mem.store a v = .ok (mem.setByte a.toNat v) := if_pos h

/-- The three outcomes of a multi-byte access: refused when its first byte is
outside, performed when all its bytes are inside, and out of the array between. -/
theorem memoryReadWord_outside {mem : Memory} {a : Word} (h : mem.size ≤ a.toNat)
    (value : Word) (be : Bool) : memoryReadWord mem a value be = .ok (-1, value) := by
  simp [memoryReadWord, h]

theorem memoryReadWord_inRange {mem : Memory} {a : Word} (h : mem.InRange a 4)
    (value : Word) (be : Bool) :
    memoryReadWord mem a value be = .ok (0, mem.wordAt a be) := by
  have h0 : a.toNat < mem.size := by simpa using h 0 (by decide)
  have h1 := Memory.fetch_of_lt (h 1 (by decide))
  have h2 := Memory.fetch_of_lt (h 2 (by decide))
  have h3 := Memory.fetch_of_lt (h 3 (by decide))
  simp only [memoryReadWord, Nat.not_le.mpr h0, Memory.fetch_of_lt h0]
  cases be <;> simp [Memory.wordAt, h1, h2, h3]

theorem Memory.inRange_four {mem : Memory} {a : Word} (h0 : a.toNat < mem.size)
    (h1 : (a + 1).toNat < mem.size) (h2 : (a + 2).toNat < mem.size)
    (h3 : (a + 3).toNat < mem.size) : mem.InRange a 4 := by
  intro j hj
  have hj' : j = 0 ∨ j = 1 ∨ j = 2 ∨ j = 3 := by omega
  rcases hj' with rfl | rfl | rfl | rfl
  · simpa using h0
  · exact h1
  · exact h2
  · exact h3

theorem memoryReadWord_straddling {mem : Memory} {a : Word} (h0 : a.toNat < mem.size)
    (h : ¬mem.InRange a 4) (value : Word) (be : Bool) :
    memoryReadWord mem a value be = .error .memoryByte := by
  -- The first of the other bytes that is outside ends the read.
  simp only [memoryReadWord, Nat.not_le.mpr h0, Memory.fetch_of_lt h0]
  by_cases h1 : (a + 1#32).toNat < mem.size
  · by_cases h2 : (a + 2#32).toNat < mem.size
    · have h3 : mem.size ≤ (a + 3#32).toNat := by
        by_contra h3
        exact h (Memory.inRange_four h0 h1 h2 (Nat.lt_of_not_le h3))
      simp [Memory.fetch_of_lt h1, Memory.fetch_of_lt h2, Memory.fetch_of_le h3]
    · simp [Memory.fetch_of_lt h1, Memory.fetch_of_le (Nat.le_of_not_lt h2)]
  · simp [Memory.fetch_of_le (Nat.le_of_not_lt h1)]

theorem memoryWriteWord_outside {mem : Memory} {a : Word} (h : mem.size ≤ a.toNat)
    (value : Word) (be : Bool) : memoryWriteWord mem a value be = .ok (-1, mem) := by
  simp [memoryWriteWord, h]

theorem memoryWriteWord_inRange {mem : Memory} {a : Word} (h : mem.InRange a 4)
    (value : Word) (be : Bool) :
    memoryWriteWord mem a value be = .ok (0, mem.setWord a value be) := by
  have h0 : a.toNat < mem.size := by simpa using h 0 (by decide)
  have h1 : (a + 1#32).toNat < mem.size := h 1 (by decide)
  have h2 : (a + 2#32).toNat < mem.size := h 2 (by decide)
  have h3 : (a + 3#32).toNat < mem.size := h 3 (by decide)
  cases be <;>
    simp [memoryWriteWord, Nat.not_le.mpr h0, Memory.setWord, wordByte, Memory.store_of_lt,
      h0, h1, h2, h3, -BitVec.toNat_add]

/-- Bytes at different small offsets from an address are different, also around 2^32. -/
theorem offset_ne (a : Word) {i j : ℕ} (hi : i < 2^32) (hj : j < 2^32) (h : i ≠ j) :
    (a + BitVec.ofNat 32 i).toNat ≠ (a + BitVec.ofNat 32 j).toNat := by
  -- Both sums wrap at most once.
  simp only [BitVec.toNat_add, BitVec.toNat_ofNat]
  have ha := a.isLt
  omega

theorem Memory.byteAt_setWord_of_ne {mem : Memory} {a : Word} (h : mem.InRange a 4)
    (v : Word) (be : Bool) (i : ℕ)
    (hi : ∀ j < 4, i ≠ (a + BitVec.ofNat 32 j).toNat) :
    (mem.setWord a v be).byteAt i = mem.byteAt i := by
  have hne (j : ℕ) (hj : j < 4) : (a + BitVec.ofNat 32 j).toNat ≠ i := (hi j hj).symm
  cases be <;>
    simp only [setWord, Bool.false_eq_true, ↓reduceIte] <;>
    repeat rw [byteAt_setByte _ _ _ _ (by simpa only [size_setByte] using h _ (by decide)),
      if_neg (hne _ (by decide))]

theorem Memory.byteAt_setWord {mem : Memory} {a : Word} (h : mem.InRange a 4)
    (v : Word) (be : Bool) {j : ℕ} (hj : j < 4) :
    (mem.setWord a v be).byteAt (a + BitVec.ofNat 32 j).toNat = wordByte v be j := by
  have hne (i : ℕ) (hi : i < 4) (hij : i ≠ j) :
      (a + BitVec.ofNat 32 i).toNat ≠ (a + BitVec.ofNat 32 j).toNat :=
    offset_ne a (by omega) (by omega) hij
  have hset (m : Memory) (hm : m.size = mem.size) (i : ℕ) (hi : i < 4) :
      (m.setByte (a + BitVec.ofNat 32 i).toNat (wordByte v be i)).byteAt
        (a + BitVec.ofNat 32 j).toNat =
      if i = j then wordByte v be j else m.byteAt (a + BitVec.ofNat 32 j).toNat := by
    rw [byteAt_setByte _ _ _ _ (by rw [hm]; exact h i hi)]
    by_cases hij : i = j
    · simp [hij]
    · rw [if_neg (hne i hi hij), if_neg hij]
  have hj' : j = 0 ∨ j = 1 ∨ j = 2 ∨ j = 3 := by omega
  -- Each of the four stores is the one at `j` or leaves that byte alone.
  unfold setWord
  cases be
  · simp only [Bool.false_eq_true, ↓reduceIte]
    rw [hset _ (by simp) 0 (by decide), hset _ (by simp) 1 (by decide),
      hset _ (by simp) 2 (by decide), hset _ rfl 3 (by decide)]
    rcases hj' with rfl | rfl | rfl | rfl <;> rfl
  · simp only [↓reduceIte]
    rw [hset _ (by simp) 3 (by decide), hset _ (by simp) 2 (by decide),
      hset _ (by simp) 1 (by decide), hset _ rfl 0 (by decide)]
    rcases hj' with rfl | rfl | rfl | rfl <;> rfl

theorem Memory.wordAt_congr {m m' : Memory} {a : Word} (be : Bool)
    (h : ∀ j < 4, m.byteAt (a + BitVec.ofNat 32 j).toNat =
      m'.byteAt (a + BitVec.ofNat 32 j).toNat) : m.wordAt a be = m'.wordAt a be := by
  unfold wordAt
  simp only [h 0 (by decide), h 1 (by decide), h 2 (by decide), h 3 (by decide)]

/-- A word written is read back. -/
theorem Memory.wordAt_setWord {mem : Memory} {a : Word} (h : mem.InRange a 4)
    (v : Word) (be : Bool) : (mem.setWord a v be).wordAt a be = v := by
  unfold wordAt
  simp only [byteAt_setWord h v be (show 0 < 4 by decide),
    byteAt_setWord h v be (show 1 < 4 by decide), byteAt_setWord h v be (show 2 < 4 by decide),
    byteAt_setWord h v be (show 3 < 4 by decide), wordByte]
  apply BitVec.eq_of_getLsbD_eq
  intro i hi
  have hi' : i < 8 ∨ (8 ≤ i ∧ i < 16) ∨ (16 ≤ i ∧ i < 24) ∨ 24 ≤ i := by omega
  cases be <;> rcases hi' with h | h | h | h <;>
    simp [hi, -BitVec.getLsbD_eq_getElem] <;> grind

/-- The bytes of a word are those it was composed of. -/
theorem Memory.wordByte_wordAt (mem : Memory) (a : Word) (be : Bool) {j : ℕ} (hj : j < 4) :
    wordByte (mem.wordAt a be) be j = mem.byteAt (a + BitVec.ofNat 32 j).toNat := by
  have hj' : j = 0 ∨ j = 1 ∨ j = 2 ∨ j = 3 := by omega
  unfold wordByte wordAt
  apply BitVec.eq_of_getLsbD_eq
  intro i hi
  cases be <;> rcases hj' with rfl | rfl | rfl | rfl <;>
    simp [hi, -BitVec.getLsbD_eq_getElem] <;> grind

theorem Memory.ext_byteAt {m m' : Memory} (hsize : m.size = m'.size)
    (h : ∀ i, m.byteAt i = m'.byteAt i) : m = m' := by
  have hdata : m.data = m'.data := by
    apply List.ext_getElem hsize
    intro i hi hi'
    have hbyte := h i
    simpa [byteAt, List.getD_eq_getElem?_getD, hi, hi'] using hbyte
  cases m
  exact congrArg Memory.mk hdata

/-- A store changes nothing exactly when it puts back the word that is there. -/
theorem Memory.setWord_eq_self_iff {mem : Memory} {a : Word} (h : mem.InRange a 4) (v : Word)
    (be : Bool) : mem.setWord a v be = mem ↔ mem.wordAt a be = v := by
  constructor
  · intro hset
    rw [← wordAt_setWord h v be, hset]
  · rintro rfl
    apply ext_byteAt (size_setWord _ _ _ _)
    intro i
    by_cases hi : ∃ j < 4, i = (a + BitVec.ofNat 32 j).toNat
    · obtain ⟨j, hj, rfl⟩ := hi
      rw [byteAt_setWord h _ _ hj, wordByte_wordAt _ _ _ hj]
    · exact byteAt_setWord_of_ne h _ _ i (fun j hj he => hi ⟨j, hj, he⟩)

/-- The result code of any access at `address`. -/
def Memory.answer (mem : Memory) (address : Word) : ℤ :=
  if mem.size ≤ address.toNat then -1 else 0

/-- An access is refused, runs out of the array, or is performed. -/
theorem Memory.access_cases (mem : Memory) (a : Word) :
    mem.size ≤ a.toNat ∨ (a.toNat < mem.size ∧ ¬mem.InRange a 4) ∨ mem.InRange a 4 := by
  by_cases h : mem.InRange a 4
  · exact Or.inr (Or.inr h)
  · rcases Nat.lt_or_ge a.toNat mem.size with hlt | hge
    · exact Or.inr (Or.inl ⟨hlt, h⟩)
    · exact Or.inl hge

theorem Memory.InRange.start {mem : Memory} {a : Word} {n : ℕ} (h : mem.InRange a n)
    (hn : 0 < n) : a.toNat < mem.size := by
  simpa using h 0 hn

theorem Memory.InRange.answer {mem : Memory} {a : Word} {n : ℕ} (h : mem.InRange a n)
    (hn : 0 < n) : mem.answer a = 0 := if_neg (Nat.not_le.mpr (h.start hn))

theorem Memory.InRange.mono {mem : Memory} {a : Word} {m n : ℕ} (h : mem.InRange a n)
    (hmn : m ≤ n) : mem.InRange a m :=
  fun j hj => h j (Nat.lt_of_lt_of_le hj hmn)

theorem Memory.InRange.skip {mem : Memory} {a : Word} {m n : ℕ} (h : mem.InRange a (m + n)) :
    mem.InRange (a + BitVec.ofNat 32 m) n := by
  intro j hj
  rw [BitVec.add_assoc, ← BitVec.ofNat_add]
  exact h (m + j) (Nat.add_lt_add_left hj m)

theorem next_add (a : Word) (j : ℕ) :
    a + 1 + BitVec.ofNat 32 j = a + BitVec.ofNat 32 (j + 1) := by
  rw [BitVec.add_assoc, Nat.add_comm j 1, BitVec.ofNat_add]
  rfl

/-- The addresses may wrap around, and stay inside all the same. -/
theorem inRange_of_le {mem : Memory} {a : Word} {n : ℕ} (h : a.toNat + n ≤ mem.size) :
    mem.InRange a n := by
  intro j hj
  have hle : (a + BitVec.ofNat 32 j).toNat ≤ a.toNat + j := by
    rw [BitVec.toNat_add, BitVec.toNat_ofNat]
    have hmod := Nat.mod_le j (2^32)
    exact Nat.le_trans (Nat.mod_le _ _) (by omega)
  omega

theorem Memory.fetch_ends (mem : Memory) (a : Word) :
    Ends (mem.fetch a) (fun _ => True) (· = .memoryByte) := by
  unfold fetch
  split <;> simp

theorem Memory.store_ends {mem : Memory} {n : ℕ} (h : mem.size = n) (a : Word) (v : Byte) :
    Ends (mem.store a v) (fun m => m.size = n ∧ a.toNat < n) (· = .memoryByte) := by
  subst h
  unfold store
  split
  · exact ⟨size_setByte mem _ _, ‹_›⟩
  · rfl

section ends
variable (mem : Memory) (a : Word)

theorem memoryReadByte_ends (value : Byte) :
    Ends (memoryReadByte mem a value) (fun r => r.1 = mem.answer a) (· = .memoryByte) := by
  unfold memoryReadByte Memory.answer
  split
  · simp
  · exact (mem.fetch_ends a).bind (fun _ _ => rfl)

theorem memoryReadHalf_ends (value : Half) (be : Bool) :
    Ends (memoryReadHalf mem a value be) (fun r => r.1 = mem.answer a) (· = .memoryByte) := by
  unfold memoryReadHalf Memory.answer
  split
  · simp
  · refine (mem.fetch_ends _).bind (fun _ _ => (mem.fetch_ends _).bind (fun _ _ => ?_))
    cases be <;> simp

theorem memoryReadWord_ends (value : Word) (be : Bool) :
    Ends (memoryReadWord mem a value be)
      (fun r => r.1 = mem.answer a ∧ (r.1 = 0 → mem.InRange a 4)) (· = .memoryByte) := by
  rcases mem.access_cases a with h | ⟨h0, h⟩ | h
  · rw [memoryReadWord_outside h]
    simp [Memory.answer, h]
  · rw [memoryReadWord_straddling h0 h]
    rfl
  · rw [memoryReadWord_inRange h]
    exact ⟨(h.answer (by decide)).symm, fun _ => h⟩

theorem memoryWriteByte_ends (value : Byte) :
    Ends (memoryWriteByte mem a value)
      (fun r => r.1 = mem.answer a ∧ r.2.size = mem.size) (· = .memoryByte) := by
  unfold memoryWriteByte Memory.answer
  split
  · simp
  · exact (Memory.store_ends rfl a value).bind (fun m hm => ⟨rfl, hm.1⟩)

theorem memoryWriteHalf_ends (value : Half) (be : Bool) :
    Ends (memoryWriteHalf mem a value be)
      (fun r => r.1 = mem.answer a ∧ r.2.size = mem.size) (· = .memoryByte) := by
  unfold memoryWriteHalf Memory.answer
  split
  · simp
  · cases be <;>
      exact (Memory.store_ends rfl _ _).bind (fun m hm =>
        (Memory.store_ends hm.1 _ _).bind (fun m' hm' => ⟨rfl, hm'.1⟩))

theorem memoryWriteWord_ends (value : Word) (be : Bool) :
    Ends (memoryWriteWord mem a value be)
      (fun r => r.1 = mem.answer a ∧ r.2.size = mem.size ∧ (r.1 = 0 → mem.InRange a 4))
      (· = .memoryByte) := by
  unfold memoryWriteWord Memory.answer
  split
  · simp
  · -- The bytes are stored from the first to the last or from the last to the first.
    cases be <;>
      refine (Memory.store_ends rfl _ _).bind (fun m hm =>
        (Memory.store_ends hm.1 _ _).bind (fun m' hm' =>
        (Memory.store_ends hm'.1 _ _).bind (fun m₂ hm₂ =>
        (Memory.store_ends hm₂.1 _ _).bind (fun m₃ hm₃ => ⟨rfl, hm₃.1, fun _ => ?_⟩))))
    · exact Memory.inRange_four hm₃.2 hm₂.2 hm'.2 hm.2
    · exact Memory.inRange_four hm.2 hm'.2 hm₂.2 hm₃.2

end ends

section accesses
variable {mem : Memory} {a : Word}

theorem memoryReadByte_outside (h : mem.size ≤ a.toNat) (value : Byte) :
    memoryReadByte mem a value = .ok (-1, value) := by
  simp [memoryReadByte, h]

theorem memoryReadByte_inRange (h : mem.InRange a 1) (value : Byte) :
    memoryReadByte mem a value = .ok (0, mem.byteAt a.toNat) := by
  have h0 := h.start (by decide)
  simp [memoryReadByte, Nat.not_le.mpr h0, Memory.fetch_of_lt h0]

theorem memoryWriteByte_outside (h : mem.size ≤ a.toNat) (value : Byte) :
    memoryWriteByte mem a value = .ok (-1, mem) := by
  simp [memoryWriteByte, h]

theorem memoryWriteByte_inRange (h : mem.InRange a 1) (value : Byte) :
    memoryWriteByte mem a value = .ok (0, mem.setByte a.toNat value) := by
  have h0 := h.start (by decide)
  simp [memoryWriteByte, Nat.not_le.mpr h0, Memory.store_of_lt h0]

/-- The halfword that the two bytes from `address` on make up. -/
def Memory.halfAt (mem : Memory) (address : Word) (be : Bool) : Half :=
  let b (j : ℕ) : Half := (mem.byteAt (address + BitVec.ofNat 32 j).toNat).setWidth 16
  if be then (b 0 <<< 8) ||| b 1 else (b 1 <<< 8) ||| b 0

theorem memoryReadHalf_outside (h : mem.size ≤ a.toNat) (value : Half) (be : Bool) :
    memoryReadHalf mem a value be = .ok (-1, value) := by
  simp [memoryReadHalf, h]

theorem memoryReadHalf_inRange (h : mem.InRange a 2) (value : Half) (be : Bool) :
    memoryReadHalf mem a value be = .ok (0, mem.halfAt a be) := by
  have h0 := h.start (by decide)
  have h1 := Memory.fetch_of_lt (h 1 (by decide))
  simp only [memoryReadHalf, Nat.not_le.mpr h0, Memory.fetch_of_lt h0]
  cases be <;> simp [Memory.halfAt, h1]

theorem Memory.straddling_two (h0 : a.toNat < mem.size) (h : ¬mem.InRange a 2) :
    mem.size ≤ (a + 1).toNat := by
  by_contra h1
  apply h
  intro j hj
  have hj' : j = 0 ∨ j = 1 := by omega
  rcases hj' with rfl | rfl
  · simpa using h0
  · exact Nat.lt_of_not_le h1

theorem memoryReadHalf_straddling (h0 : a.toNat < mem.size) (h : ¬mem.InRange a 2)
    (value : Half) (be : Bool) : memoryReadHalf mem a value be = .error .memoryByte := by
  have h1 := Memory.straddling_two h0 h
  simp only [memoryReadHalf, Nat.not_le.mpr h0, Memory.fetch_of_lt h0, Memory.fetch_of_le h1]
  rfl

theorem memoryWriteHalf_outside (h : mem.size ≤ a.toNat) (value : Half) (be : Bool) :
    memoryWriteHalf mem a value be = .ok (-1, mem) := by
  simp [memoryWriteHalf, h]

theorem memoryWriteHalf_straddling (h0 : a.toNat < mem.size) (h : ¬mem.InRange a 2)
    (value : Half) (be : Bool) : memoryWriteHalf mem a value be = .error .memoryByte := by
  have h1 := Memory.straddling_two h0 h
  have hstore (m : Memory) (hm : m.size = mem.size) (v : Byte) :
      m.store (a + 1#32) v = .error .memoryByte := by
    rw [← hm] at h1
    exact if_neg (Nat.not_lt.mpr h1)
  have hsize (v : Byte) : (mem.setByte a.toNat v).size = mem.size := mem.size_setByte _ _
  cases be <;>
    simp [memoryWriteHalf, Nat.not_le.mpr h0, Memory.store_of_lt h0, hstore, hsize]

theorem memoryWriteWord_straddling (h0 : a.toNat < mem.size) (h : ¬mem.InRange a 4)
    (value : Word) (be : Bool) : memoryWriteWord mem a value be = .error .memoryByte := by
  have hends := memoryWriteWord_ends mem a value be
  cases hx : memoryWriteWord mem a value be with
  | error e =>
    rw [hx] at hends
    exact congrArg _ hends
  | ok r =>
    rw [hx] at hends
    obtain ⟨hcode, -, hin⟩ := hends
    exact absurd (hin (hcode.trans (if_neg (Nat.not_le.mpr h0)))) h

end accesses

end ArmSim
