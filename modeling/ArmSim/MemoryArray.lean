import ArmSim.Core
import ArmSim.Lib.CellStore
import Mathlib.Data.Nat.Digits.Defs

/-! The memory as one array of bytes: accesses of the three widths and the two byte
orders, in any sequence. -/
namespace ArmSim
open Lib

/-- A call of one of the three write functions. -/
inductive WriteCall where
  | byte (address : Word) (value : Byte)
  | half (address : Word) (value : Half) (be : Bool)
  | word (address : Word) (value : Word) (be : Bool)
deriving DecidableEq, Repr

/-- A call of one of the three read functions. -/
inductive ReadCall where
  | byte (address : Word)
  | half (address : Word) (be : Bool)
  | word (address : Word) (be : Bool)
deriving DecidableEq, Repr

def WriteCall.run (mem : Memory) : WriteCall → Except Crash (ℤ × Memory)
  | byte a v => memoryWriteByte mem a v
  | half a v be => memoryWriteHalf mem a v be
  | word a v be => memoryWriteWord mem a v be

/-- The code and the number read; `value` is what the destination held before. -/
def ReadCall.run (mem : Memory) (value : Word) : ReadCall → Except Crash (ℤ × ℕ)
  | byte a => do
    let (r, v) ← memoryReadByte mem a (value.setWidth 8)
    return (r, v.toNat)
  | half a be => do
    let (r, v) ← memoryReadHalf mem a (value.setWidth 16) be
    return (r, v.toNat)
  | word a be => do
    let (r, v) ← memoryReadWord mem a value be
    return (r, v.toNat)

def ReadCall.address : ReadCall → Word
  | byte a | half a _ | word a _ => a

def ReadCall.count : ReadCall → ℕ
  | byte _ => 1
  | half _ _ => 2
  | word _ _ => 4

def ReadCall.be : ReadCall → Bool
  | byte _ => true
  | half _ be | word _ be => be

/-- The read of the bytes that a write puts down, in either byte order. -/
def WriteCall.readBack (be : Bool) : WriteCall → ReadCall
  | byte a _ => .byte a
  | half a _ _ => .half a be
  | word a _ _ => .word a be

def WriteCall.address (c : WriteCall) : Word := (c.readBack true).address

def WriteCall.count (c : WriteCall) : ℕ := (c.readBack true).count

def WriteCall.be : WriteCall → Bool
  | byte _ _ => true
  | half _ _ be | word _ _ be => be

def WriteCall.value : WriteCall → ℕ
  | byte _ v => v.toNat
  | half _ v _ => v.toNat
  | word _ v _ => v.toNat

/-- The value with its bytes in the other order. -/
def WriteCall.reversedValue : WriteCall → ℕ
  | byte _ v => v.toNat
  | half _ v _ => (v.extractLsb' 0 8 ++ v.extractLsb' 8 8).toNat
  | word _ v _ => (switchEndian v).toNat

/-- The calls one after the other: their codes and the memory they leave. -/
def runWrites (mem : Memory) : List WriteCall → Except Crash (List ℤ × Memory)
  | [] => return ([], mem)
  | c :: calls => do
    let (r, mem) ← c.run mem
    let (rs, mem) ← runWrites mem calls
    return (r :: rs, mem)

/-- The bytes a call stores, each with its address, in the call's order. -/
def WriteCall.stores : WriteCall → List (Word × Byte)
  | byte a v => [(a, v)]
  | half a v be =>
    if be then [(a, (v >>> 8).setWidth 8), (a + 1, v.setWidth 8)]
    else [(a + 1, (v >>> 8).setWidth 8), (a, v.setWidth 8)]
  | word a v be =>
    (if be then [0, 1, 2, 3] else [3, 2, 1, 0]).map
      (fun j => (a + BitVec.ofNat 32 j, wordByte v be j))

/-- The number whose bytes, in the order of their addresses, are `bytes`. -/
def compose (be : Bool) (bytes : List Byte) : ℕ :=
  Nat.ofDigits 256 ((if be then bytes.reverse else bytes).map BitVec.toNat)

/-- The bytes of a read call, in the order of their addresses, when `f` tells the byte
at each address. -/
def ReadCall.bytes (f : Word → Byte) (r : ReadCall) : List Byte :=
  (List.range r.count).map (fun j => f (r.address + BitVec.ofNat 32 j))

def Memory.storeAll (mem : Memory) (stores : List (Word × Byte)) : Memory :=
  stores.foldl (fun mem w => mem.setByte w.1.toNat w.2) mem

theorem Memory.storeAll_append (mem : Memory) (s t : List (Word × Byte)) :
    mem.storeAll (s ++ t) = (mem.storeAll s).storeAll t := List.foldl_append

@[simp] theorem Memory.size_storeAll (mem : Memory) (stores : List (Word × Byte)) :
    (mem.storeAll stores).size = mem.size := by
  induction stores generalizing mem with
  | nil => rfl
  | cons w stores ih => exact (ih (mem.setByte w.1.toNat w.2)).trans (mem.size_setByte _ _)

/-- Every byte of a memory after a sequence of stores is the last one stored there. -/
theorem Memory.byteAt_storeAll (mem : Memory) (stores : List (Word × Byte))
    (h : ∀ w ∈ stores, w.1.toNat < mem.size) (a : Word) :
    (mem.storeAll stores).byteAt a.toNat = (lastWritten stores a).getD (mem.byteAt a.toNat) := by
  rw [← foldl_update_apply (fun a : Word => mem.byteAt a.toNat)]
  induction stores generalizing mem with
  | nil => rfl
  | cons w stores ih =>
    have hw := h w List.mem_cons_self
    -- As a function of the address, one store is one update.
    have hstep : (fun a : Word => (mem.setByte w.1.toNat w.2).byteAt a.toNat) =
        Function.update (fun a : Word => mem.byteAt a.toNat) w.1 w.2 := by
      funext x
      rw [byteAt_setByte mem _ _ _ hw]
      by_cases hx : x = w.1
      · subst hx
        rw [Function.update_self, if_pos rfl]
      · rw [Function.update_of_ne hx, if_neg (fun he => hx (BitVec.eq_of_toNat_eq he.symm))]
    have hrest : ∀ w' ∈ stores, w'.1.toNat < (mem.setByte w.1.toNat w.2).size := by
      intro w' hw'
      rw [size_setByte]
      exact h w' (List.mem_cons_of_mem _ hw')
    rw [List.foldl_cons, ← hstep]
    exact ih (mem.setByte w.1.toNat w.2) hrest

theorem Memory.byteAt_storeAll_of_ne (mem : Memory) (stores : List (Word × Byte)) (i : ℕ)
    (h : ∀ w ∈ stores, w.1.toNat < mem.size ∧ w.1.toNat ≠ i) :
    (mem.storeAll stores).byteAt i = mem.byteAt i := by
  induction stores generalizing mem with
  | nil => rfl
  | cons w stores ih =>
    obtain ⟨hw, hne⟩ := h w List.mem_cons_self
    have hrest := ih (mem.setByte w.1.toNat w.2) (by
      intro w' hw'
      rw [size_setByte]
      exact h w' (List.mem_cons_of_mem _ hw'))
    rw [byteAt_setByte mem _ _ _ hw, if_neg hne] at hrest
    exact hrest

/-- A call stores at the addresses of its bytes and nowhere else. -/
theorem WriteCall.stores_address (c : WriteCall) :
    ∀ w ∈ c.stores, ∃ j < c.count, w.1 = c.address + BitVec.ofNat 32 j := by
  have hzero (a : Word) : a = a + BitVec.ofNat 32 0 := (BitVec.add_zero a).symm
  intro w hw
  cases c with
  | byte a v =>
    obtain rfl := List.mem_singleton.mp hw
    exact ⟨0, Nat.one_pos, hzero a⟩
  | half a v be =>
    have hw' : w.1 = a ∨ w.1 = a + 1 := by
      cases be <;> simp [stores] at hw <;> rcases hw with rfl | rfl <;> simp
    rcases hw' with h | h
    · exact ⟨0, Nat.two_pos, h.trans (hzero a)⟩
    · exact ⟨1, Nat.one_lt_two, h⟩
  | word a v be =>
    obtain ⟨j, hj, rfl⟩ := List.mem_map.mp hw
    have hlt : j < 4 := by
      cases be <;> simp at hj <;> omega
    exact ⟨j, hlt, rfl⟩

/-- A call inside the array makes its stores. -/
theorem WriteCall.run_inRange {mem : Memory} {c : WriteCall} (h : mem.InRange c.address c.count) :
    c.run mem = .ok (0, mem.storeAll c.stores) := by
  cases c with
  | byte a v => exact memoryWriteByte_inRange h v
  | half a v be =>
    have h0 : a.toNat < mem.size := h.start Nat.two_pos
    have h1 : (a + 1#32).toNat < mem.size := h 1 Nat.one_lt_two
    -- The two stores go in the order of the bytes.
    cases be <;>
      simp [run, memoryWriteHalf, Nat.not_le.mpr h0, stores, Memory.storeAll, Memory.store_of_lt,
        h0, h1, -BitVec.toNat_add]
  | word a v be =>
    have hword := memoryWriteWord_inRange h v be
    cases be <;> exact hword

theorem runWrites_inRange (mem : Memory) (calls : List WriteCall)
    (h : ∀ c ∈ calls, mem.InRange c.address c.count) :
    runWrites mem calls =
      .ok (List.replicate calls.length 0, mem.storeAll (calls.flatMap WriteCall.stores)) := by
  induction calls generalizing mem with
  | nil => rfl
  | cons c calls ih =>
    have hc := h c List.mem_cons_self
    have hrest : ∀ c' ∈ calls, (mem.storeAll c.stores).InRange c'.address c'.count := by
      intro c' hc'
      unfold Memory.InRange
      rw [Memory.size_storeAll]
      exact h c' (List.mem_cons_of_mem _ hc')
    unfold runWrites
    rw [WriteCall.run_inRange hc, ok_bind]
    dsimp only
    rw [ih _ hrest, ok_bind, List.flatMap_cons, Memory.storeAll_append]
    rfl

/-- Two numbers without a common bit position add up. -/
theorem toNat_or_of_lt {w : ℕ} (x y : BitVec w) (k : ℕ) (hx : x.toNat % 2^k = 0)
    (hy : y.toNat < 2^k) : (x ||| y).toNat = x.toNat + y.toNat := by
  have hmul : x.toNat = 2^k * (x.toNat / 2^k) := by
    have h := Nat.div_add_mod x.toNat (2^k)
    omega
  rw [BitVec.toNat_or, hmul]
  exact (Nat.two_pow_add_eq_or_of_lt hy _).symm

theorem toNat_halfOfBytes (hi lo : Byte) :
    ((hi.setWidth 16 <<< 8) ||| lo.setWidth 16).toNat = lo.toNat + 256 * hi.toNat := by
  have hhi := hi.isLt
  have hlo := lo.isLt
  have h8 : (hi.setWidth 16 <<< 8).toNat = hi.toNat * 256 := by
    simp [BitVec.toNat_shiftLeft, Nat.shiftLeft_eq]
    omega
  have h0 : (lo.setWidth 16).toNat = lo.toNat := by
    simp
    omega
  rw [toNat_or_of_lt _ _ 8 (by omega) (by omega), h8, h0]
  omega

theorem toNat_wordOfBytes (b3 b2 b1 b0 : Byte) :
    ((b3.setWidth 32 <<< 24) ||| (b2.setWidth 32 <<< 16) ||| (b1.setWidth 32 <<< 8) |||
      b0.setWidth 32).toNat =
      b0.toNat + 256 * (b1.toNat + 256 * (b2.toNat + 256 * b3.toNat)) := by
  have h3 := b3.isLt
  have h2 := b2.isLt
  have h1 := b1.isLt
  have h0 := b0.isLt
  have hplace (b : Byte) (k : ℕ) (hk : k ≤ 24) :
      (b.setWidth 32 <<< k).toNat = b.toNat * 2^k := by
    have hb := b.isLt
    have hfit : b.toNat * 2^k < 2^32 := by
      calc b.toNat * 2^k < 2^8 * 2^k := Nat.mul_lt_mul_of_pos_right hb (Nat.two_pow_pos k)
        _ = 2^(8 + k) := (Nat.pow_add 2 8 k).symm
        _ ≤ 2^32 := Nat.pow_le_pow_right Nat.two_pos (by omega)
    have hw : (b.setWidth 32).toNat = b.toNat := by
      simp
      omega
    rw [BitVec.toNat_shiftLeft, hw, Nat.shiftLeft_eq, Nat.mod_eq_of_lt hfit]
  have hw0 : (b0.setWidth 32).toNat = b0.toNat := by
    simp
    omega
  -- From the highest byte down, each part lies above the next.
  have h24 := hplace b3 24 (by decide)
  have h16 := hplace b2 16 (by decide)
  have h8 := hplace b1 8 (by decide)
  have hor1 := toNat_or_of_lt (b3.setWidth 32 <<< 24) (b2.setWidth 32 <<< 16) 24
    (by omega) (by omega)
  have hor2 := toNat_or_of_lt (b3.setWidth 32 <<< 24 ||| b2.setWidth 32 <<< 16)
    (b1.setWidth 32 <<< 8) 16 (by omega) (by omega)
  rw [toNat_or_of_lt _ _ 8 (by omega) (by omega), hor2, hor1, h24, h16, h8, hw0]
  omega

/-- A read inside the array composes the bytes it finds. -/
theorem ReadCall.run_inRange {mem : Memory} {r : ReadCall} (h : mem.InRange r.address r.count)
    (value : Word) :
    r.run mem value = .ok (0, compose r.be (r.bytes (fun a => mem.byteAt a.toNat))) := by
  cases r with
  | byte a =>
    have hbyte : (mem.byteAt a.toNat).toNat =
        compose true ((byte a).bytes (fun a => mem.byteAt a.toNat)) := by
      simp [compose, bytes, count, address, -BitVec.toNat_add]
    have hread : memoryReadByte mem a (value.setWidth 8) = .ok (0, mem.byteAt a.toNat) :=
      memoryReadByte_inRange h _
    unfold run
    dsimp only
    rw [hread, ok_bind]
    dsimp only
    rw [hbyte]
    rfl
  | half a be =>
    have hhalf : (mem.halfAt a be).toNat =
        compose be ((half a be).bytes (fun a => mem.byteAt a.toNat)) := by
      cases be <;>
        simp [Memory.halfAt, toNat_halfOfBytes, compose, bytes, count, address, List.range_succ,
          Nat.ofDigits_cons, -BitVec.toNat_or, -BitVec.toNat_add]
    have hread : memoryReadHalf mem a (value.setWidth 16) be = .ok (0, mem.halfAt a be) :=
      memoryReadHalf_inRange h _ be
    unfold run
    dsimp only
    rw [hread, ok_bind]
    dsimp only
    rw [hhalf]
    rfl
  | word a be =>
    have hword : (mem.wordAt a be).toNat =
        compose be ((word a be).bytes (fun a => mem.byteAt a.toNat)) := by
      cases be <;>
        simp [Memory.wordAt, toNat_wordOfBytes, compose, bytes, count, address, List.range_succ,
          Nat.ofDigits_cons, -BitVec.toNat_or, -BitVec.toNat_add]
    have hread : memoryReadWord mem a value be = .ok (0, mem.wordAt a be) :=
      memoryReadWord_inRange h value be
    unfold run
    dsimp only
    rw [hread, ok_bind]
    dsimp only
    rw [hword]
    rfl

/-- The byte that a call puts at its address plus `j`. -/
def WriteCall.byteAt (c : WriteCall) (j : ℕ) : Byte :=
  match c with
  | byte _ v => v
  | half _ v be => (v >>> (8 * if be then 1 - j else j)).setWidth 8
  | word _ v be => wordByte v be j

theorem WriteCall.byteAt_storeAll {mem : Memory} {c : WriteCall}
    (h : mem.InRange c.address c.count) {j : ℕ} (hj : j < c.count) :
    (mem.storeAll c.stores).byteAt (c.address + BitVec.ofNat 32 j).toNat = c.byteAt j := by
  cases c with
  | byte a v =>
    have h0 : a.toNat < mem.size := h.start Nat.one_pos
    obtain rfl : j = 0 := Nat.lt_one_iff.mp hj
    change (mem.setByte a.toNat v).byteAt (a + 0#32).toNat = v
    rw [BitVec.add_zero, Memory.byteAt_setByte mem _ _ _ h0, if_pos rfl]
  | half a v be =>
    have h0 : a.toNat < mem.size := h.start Nat.two_pos
    have h1 : (a + 1#32).toNat < mem.size := h 1 Nat.one_lt_two
    have hne : a.toNat ≠ (a + 1#32).toNat := by
      have ho := offset_ne a (i := 0) (j := 1) (by decide) (by decide) (by decide)
      rwa [BitVec.add_zero] at ho
    have hj' : j = 0 ∨ j = 1 := by
      have hj2 : j < 2 := hj
      omega
    -- The second of the two stores is elsewhere than the first.
    have hset (x y : Byte) (i k : ℕ) (hi : i < mem.size) (hk : k < mem.size) (n : ℕ) :
        ((mem.setByte i x).setByte k y).byteAt n =
          if k = n then y else if i = n then x else mem.byteAt n := by
      rw [Memory.byteAt_setByte _ _ _ _ (by rwa [Memory.size_setByte]),
        Memory.byteAt_setByte _ _ _ _ hi]
    cases be
    · change ((mem.setByte (a + 1#32).toNat ((v >>> 8).setWidth 8)).setByte a.toNat
        (v.setWidth 8)).byteAt _ = _
      rw [hset _ _ _ _ h1 h0]
      rcases hj' with rfl | rfl
      · simp [WriteCall.byteAt, address, readBack, ReadCall.address]
      · simp [WriteCall.byteAt, address, readBack, ReadCall.address, hne, -BitVec.toNat_add]
    · change ((mem.setByte a.toNat ((v >>> 8).setWidth 8)).setByte (a + 1#32).toNat
        (v.setWidth 8)).byteAt _ = _
      rw [hset _ _ _ _ h0 h1]
      rcases hj' with rfl | rfl
      · simp [WriteCall.byteAt, address, readBack, ReadCall.address, hne.symm, -BitVec.toNat_add]
      · simp [WriteCall.byteAt, address, readBack, ReadCall.address, -BitVec.toNat_add]
  | word a v be =>
    have hword := Memory.byteAt_setWord h v be (j := j) hj
    cases be <;> exact hword

theorem toNat_append_byte {w : ℕ} (x : BitVec w) (y : Byte) :
    (x ++ y).toNat = y.toNat + 256 * x.toNat := by
  rw [BitVec.toNat_append, ← Nat.shiftLeft_add_eq_or_of_lt y.isLt, Nat.shiftLeft_eq]
  omega

theorem toNat_switchEndian (x : Word) :
    (switchEndian x).toNat = x.toNat / 16777216 % 256 + 256 * (x.toNat / 65536 % 256 +
      256 * (x.toNat / 256 % 256 + 256 * (x.toNat % 256))) := by
  unfold switchEndian
  rw [toNat_append_byte, toNat_append_byte, toNat_append_byte]
  simp [BitVec.extractLsb'_toNat, Nat.shiftRight_eq_div_pow]

/-- The bytes of a call make up its value in its own order, and the reversed value in the
other order. -/
theorem WriteCall.compose_byteAt (c : WriteCall) (be : Bool) :
    compose be ((List.range c.count).map c.byteAt) =
      if be = c.be then c.value else c.reversedValue := by
  cases c with
  | byte a v =>
    cases be <;>
      simp [compose, count, readBack, ReadCall.count, WriteCall.byteAt, WriteCall.be, value,
        reversedValue]
  | half a v e =>
    have hv := v.isLt
    have hrev : (half a v e).reversedValue = v.toNat / 256 % 256 + 256 * (v.toNat % 256) := by
      unfold reversedValue
      dsimp only
      rw [toNat_append_byte]
      simp [BitVec.extractLsb'_toNat, Nat.shiftRight_eq_div_pow]
    rw [hrev]
    cases be <;> cases e <;>
      simp [compose, count, readBack, ReadCall.count, WriteCall.byteAt, WriteCall.be, value,
        List.range_succ, Nat.ofDigits_cons, Nat.shiftRight_eq_div_pow] <;> omega
  | word a v e =>
    have hv := v.isLt
    -- A shift by 16 or 24 is two or three divisions by 256.
    have h16 : v.toNat / 65536 = v.toNat / 256 / 256 :=
      (Nat.div_div_eq_div_mul v.toNat 256 256).symm
    have h24 : v.toNat / 16777216 = v.toNat / 65536 / 256 :=
      (Nat.div_div_eq_div_mul v.toNat 65536 256).symm
    have hrev : (word a v e).reversedValue = _ := toNat_switchEndian v
    rw [hrev]
    cases be <;> cases e <;>
      simp [compose, count, readBack, ReadCall.count, WriteCall.byteAt, WriteCall.be, value,
        List.range_succ, Nat.ofDigits_cons, Nat.shiftRight_eq_div_pow, wordByte] <;> omega

/-- A write is read back as it was, or reversed in the other byte order. -/
theorem WriteCall.run_readBack {mem : Memory} {c : WriteCall} (h : mem.InRange c.address c.count)
    (be : Bool) (value : Word) :
    (c.readBack be).run (mem.storeAll c.stores) value =
      .ok (0, if be = c.be then c.value else c.reversedValue) := by
  -- The read goes to the addresses of the write.
  have haddr : (c.readBack be).address = c.address := by cases c <;> rfl
  have hcount : (c.readBack be).count = c.count := by cases c <;> rfl
  have hin : (mem.storeAll c.stores).InRange (c.readBack be).address (c.readBack be).count := by
    unfold Memory.InRange
    rwa [Memory.size_storeAll, haddr, hcount]
  have hbytes : (c.readBack be).bytes (fun a => (mem.storeAll c.stores).byteAt a.toNat) =
      (List.range c.count).map c.byteAt := by
    unfold ReadCall.bytes
    rw [haddr, hcount]
    apply List.map_congr_left
    intro j hj
    exact byteAt_storeAll h (List.mem_range.mp hj)
  rw [ReadCall.run_inRange hin, hbytes, compose_byteAt]
  cases c with
  | byte a v => simp [WriteCall.value, reversedValue]
  | half a v e => rfl
  | word a v e => rfl

def Memory.setHalf (mem : Memory) (a : Word) (v : Half) (be : Bool) : Memory :=
  mem.storeAll (WriteCall.half a v be).stores

@[simp] theorem Memory.size_setHalf (mem : Memory) (a : Word) (v : Half) (be : Bool) :
    (mem.setHalf a v be).size = mem.size := size_storeAll mem _

theorem memoryWriteHalf_inRange {mem : Memory} {a : Word} (h : mem.InRange a 2) (v : Half)
    (be : Bool) : memoryWriteHalf mem a v be = .ok (0, mem.setHalf a v be) :=
  WriteCall.run_inRange (c := .half a v be) h

/-- A halfword written is read back. -/
theorem Memory.halfAt_setHalf {mem : Memory} {a : Word} (h : mem.InRange a 2) (v : Half)
    (be : Bool) : (mem.setHalf a v be).halfAt a be = v := by
  have hin : (mem.setHalf a v be).InRange a 2 := by
    intro j hj
    rw [size_setHalf]
    exact h j hj
  have hread := WriteCall.run_readBack (c := .half a v be) h be 0
  have hrun : (ReadCall.half a be).run (mem.setHalf a v be) 0 =
      .ok (0, ((mem.setHalf a v be).halfAt a be).toNat) := by
    unfold ReadCall.run
    dsimp only
    rw [memoryReadHalf_inRange hin]
    rfl
  have hvalue := hrun.symm.trans hread
  apply BitVec.eq_of_toNat_eq
  simpa [WriteCall.be, WriteCall.value] using hvalue

theorem Memory.byteAt_setHalf_of_ne {mem : Memory} {a : Word} (h : mem.InRange a 2) (v : Half)
    (be : Bool) (i : ℕ) (hi : ∀ j < 2, i ≠ (a + BitVec.ofNat 32 j).toNat) :
    (mem.setHalf a v be).byteAt i = mem.byteAt i := by
  apply byteAt_storeAll_of_ne
  intro w hw
  obtain ⟨j, hj, he⟩ := WriteCall.stores_address _ w hw
  rw [he]
  exact ⟨h j hj, (hi j hj).symm⟩

/-- Memory is one array of bytes: after any sequence of writes inside it, a read inside it
composes the last bytes written at its addresses, a read of the bytes last written gives
the value or its reversal, and the other bytes are those of the start. -/
theorem memory_reads_last_written (mem : Memory) (calls : List WriteCall)
    (h : ∀ c ∈ calls, mem.InRange c.address c.count) :
    ∃ mem', runWrites mem calls = .ok (List.replicate calls.length 0, mem') ∧
      mem'.size = mem.size ∧
      (∀ r : ReadCall, mem.InRange r.address r.count → ∀ value, r.run mem' value =
        .ok (0, compose r.be (r.bytes (fun a =>
          (lastWritten (calls.flatMap WriteCall.stores) a).getD (mem.byteAt a.toNat))))) ∧
      (∀ (c : WriteCall) (be : Bool) (value : Word), calls.getLast? = some c →
        (c.readBack be).run mem' value = .ok (0, if be = c.be then c.value else c.reversedValue)) ∧
      ∀ i, (∀ c ∈ calls, ∀ j < c.count, (c.address + BitVec.ofNat 32 j).toNat ≠ i) →
        mem'.byteAt i = mem.byteAt i := by
  -- Every store lies at a byte of its call, inside the array.
  have hstores : ∀ w ∈ calls.flatMap WriteCall.stores, ∃ c ∈ calls, ∃ j < c.count,
      w.1 = c.address + BitVec.ofNat 32 j := by
    intro w hw
    obtain ⟨c, hc, hwc⟩ := List.mem_flatMap.mp hw
    obtain ⟨j, hj, he⟩ := c.stores_address w hwc
    exact ⟨c, hc, j, hj, he⟩
  have hin : ∀ w ∈ calls.flatMap WriteCall.stores, w.1.toNat < mem.size := by
    intro w hw
    obtain ⟨c, hc, j, hj, he⟩ := hstores w hw
    rw [he]
    exact h c hc j hj
  have hsize : ∀ {s a n}, mem.InRange a n → (mem.storeAll s).InRange a n := by
    intro s a n hr
    unfold Memory.InRange
    rwa [Memory.size_storeAll]
  refine ⟨_, runWrites_inRange mem calls h, Memory.size_storeAll mem _, ?_, ?_, ?_⟩
  · intro r hr value
    rw [ReadCall.run_inRange (hsize hr)]
    simp only [Memory.byteAt_storeAll mem _ hin]
  · intro c be value hc
    obtain ⟨before, rfl⟩ := List.getLast?_eq_some_iff.mp hc
    have hcr := h c (List.mem_append_right _ List.mem_cons_self)
    rw [List.flatMap_append, Memory.storeAll_append, List.flatMap_singleton]
    exact WriteCall.run_readBack (hsize hcr) be value
  · intro i hi
    apply Memory.byteAt_storeAll_of_ne
    intro w hw
    apply And.intro (hin w hw)
    obtain ⟨c, hc, j, hj, he⟩ := hstores w hw
    rw [he]
    exact hi c hc j hj

/-- A big-endian word at 1, overlapped by a little-endian halfword at 2. -/
theorem memory_reads_last_written_overlap :
    ∃ mem', runWrites ⟨[0, 0, 0, 0, 0, 0]⟩ [.word 1 0x11223344 true, .half 2 0xAABB false] =
        .ok ([0, 0], mem') ∧ mem'.size = 6 ∧
      (ReadCall.word 1 false).run mem' 0 = .ok (0, 0x44AABB11) := by
  obtain ⟨mem', hrun, hsize, hread, -⟩ := memory_reads_last_written ⟨[0, 0, 0, 0, 0, 0]⟩
    [.word 1 0x11223344 true, .half 2 0xAABB false] (by decide)
  exact ⟨mem', hrun, hsize, hread (.word 1 false) (by decide) 0⟩

end ArmSim
