import ArmSim.Handlers

/-! The string that a program hands to the software interrupt 3: whether the loop of
`print_string` ends, and whether it ends inside its buffer. -/
namespace ArmSim
open Lib

/-- The local variable of the loop before its turn `n`: the byte read last, or what the variable
held at the start where no read has succeeded yet. -/
def valueBefore (mem : Memory) (address : Word) (value : Byte) : ℕ → Byte
  | 0 => value
  | n + 1 =>
    if (address + BitVec.ofNat 32 n).toNat < mem.size then
      mem.byteAt (address + BitVec.ofNat 32 n).toNat
    else valueBefore mem address value n

section values
variable {mem : Memory} {address : Word} {value : Byte}

theorem valueBefore_inside {n : ℕ} (h : (address + BitVec.ofNat 32 n).toNat < mem.size) :
    valueBefore mem address value (n + 1) = mem.byteAt (address + BitVec.ofNat 32 n).toNat :=
  if_pos h

theorem valueBefore_outside {n : ℕ} (h : ¬(address + BitVec.ofNat 32 n).toNat < mem.size) :
    valueBefore mem address value (n + 1) = valueBefore mem address value n :=
  if_neg h

/-- The turns after the first are those of a loop that starts one address further. -/
theorem valueBefore_shift (n : ℕ) : valueBefore mem address value (n + 1) =
    valueBefore mem (address + 1) (valueBefore mem address value 1) n := by
  induction n with
  | zero => rfl
  | succ n ih =>
    have hplace := (next_add address n).symm
    by_cases h : (address + BitVec.ofNat 32 (n + 1)).toNat < mem.size
    · rw [valueBefore_inside h]
      rw [hplace] at h ⊢
      rw [valueBefore_inside h]
    · rw [valueBefore_outside h, ih]
      rw [hplace] at h
      rw [valueBefore_outside h]

/-- A NUL that memory has within `n` bytes, or one left in the variable by nothing but chance. -/
def NulWithin (mem : Memory) (address : Word) (value : Byte) (n : ℕ) : Prop :=
  (∃ i < n, (address + BitVec.ofNat 32 i).toNat < mem.size ∧
    mem.byteAt (address + BitVec.ofNat 32 i).toNat = 0) ∨
  0 < n ∧ mem.size ≤ address.toNat ∧ value = 0

/-- The variable becomes 0 at a NUL in memory, or has been 0 before the first read. -/
theorem nulWithin_iff (n : ℕ) : NulWithin mem address value n ↔
    ∃ i < n, valueBefore mem address value (i + 1) = 0 := by
  have hfirst : address + BitVec.ofNat 32 0 = address := BitVec.add_zero address
  constructor
  · rintro (⟨i, hi, hin, hzero⟩ | ⟨hn, hout, hzero⟩)
    · exact ⟨i, hi, (valueBefore_inside hin).trans hzero⟩
    · refine ⟨0, hn, ?_⟩
      rw [valueBefore_outside (by rw [hfirst]; omega)]
      exact hzero
  · rintro ⟨i, hi, hzero⟩
    -- Backwards over the failed reads to the place where the 0 comes from.
    induction i with
    | zero =>
      by_cases hin : (address + BitVec.ofNat 32 0).toNat < mem.size
      · rw [valueBefore_inside hin] at hzero
        exact Or.inl ⟨0, hi, hin, hzero⟩
      · rw [valueBefore_outside hin] at hzero
        rw [hfirst] at hin
        exact Or.inr ⟨hi, Nat.not_lt.mp hin, hzero⟩
    | succ i ih =>
      by_cases hin : (address + BitVec.ofNat 32 (i + 1)).toNat < mem.size
      · rw [valueBefore_inside hin] at hzero
        exact Or.inl ⟨i + 1, hi, hin, hzero⟩
      · rw [valueBefore_outside hin] at hzero
        exact ih (by omega) hzero

end values

section loop
variable (p : ArmCore)

theorem armReadByte_valueBefore (address : Word) (value : Byte) :
    ∃ r, armReadByte p address value = .ok (r, valueBefore p.mem address value 1) := by
  have hfirst : address + BitVec.ofNat 32 0 = address := BitVec.add_zero address
  by_cases h : address.toNat < p.mem.size
  · have hin : (address + BitVec.ofNat 32 0).toNat < p.mem.size := by rwa [hfirst]
    refine ⟨0, ?_⟩
    rw [valueBefore_inside hin, hfirst]
    exact memoryReadByte_inRange (inRange_of_le h) value
  · have hout : ¬(address + BitVec.ofNat 32 0).toNat < p.mem.size := by rwa [hfirst]
    refine ⟨-1, ?_⟩
    rw [valueBefore_outside hout]
    exact memoryReadByte_outside (Nat.not_lt.mp h) value

/-- A loop with room for `room` more bytes returns if one of its next `room` reads gives 0, and
else runs out of the buffer. -/
theorem printStringLoop_exact (room : ℕ) (address : Word) (value : Byte) (c : List Byte) :
    Ends (printStringLoop p room address value c)
      (fun _ => ∃ i < room, valueBefore p.mem address value (i + 1) = 0)
      (fun e => e = .localBuffer ∧ ∀ i < room, valueBefore p.mem address value (i + 1) ≠ 0) := by
  induction room generalizing address value c with
  | zero => exact ⟨rfl, fun i hi => absurd hi (Nat.not_lt_zero i)⟩
  | succ room ih =>
    obtain ⟨r, hread⟩ := armReadByte_valueBefore p address value
    unfold printStringLoop
    rw [hread, ok_bind]
    dsimp only
    apply ends_ite
    · intro hne
      apply (ih (address + 1) (valueBefore p.mem address value 1) _).mono
      · rintro s ⟨i, hi, hzero⟩
        exact ⟨i + 1, by omega, (valueBefore_shift (i + 1)).trans hzero⟩
      · rintro e ⟨he, hall⟩
        refine ⟨he, ?_⟩
        intro i hi
        cases i with
        | zero => exact hne
        | succ i =>
          rw [valueBefore_shift]
          exact hall i (by omega)
    · intro hzero
      exact ⟨0, by omega, not_not.mp hzero⟩

end loop

section printing
variable [Platform]

/-- The loop ends if its buffer is long enough, writes no index from 100 on, and the string is
printed.  A buffer of `i` places is left where index `i` is written. -/
structure PrintsInBounds (env : Env) (p : ArmCore) : Prop where
  ends : ∃ room c, printStringLoop p room (p.gp 0) env.value [] = .ok c
  bounded : ∀ i, printStringLoop p i (p.gp 0) env.value [] = .error .localBuffer → i < 100
  printed : ∃ s, printString env p = .ok (p.print (.str s))

theorem PrintsInBounds.nulWithin {env : Env} {p : ArmCore} (h : PrintsInBounds env p) :
    NulWithin p.mem (p.gp 0) env.value 100 := by
  have hends := printStringLoop_exact p 100 (p.gp 0) env.value []
  rw [nulWithin_iff]
  cases hloop : printStringLoop p 100 (p.gp 0) env.value [] with
  | ok c => exact hends.value hloop
  | error e =>
    -- The loop writes index 100.
    obtain ⟨rfl, -⟩ := hends.fault hloop
    exact absurd (h.bounded 100 hloop) (Nat.lt_irrefl 100)

/-- The string is printed from inside the buffer if and only if one of its first 100 bytes is a
NUL. -/
theorem print_string_iff (env : Env) (p : ArmCore) :
    PrintsInBounds env p ↔ NulWithin p.mem (p.gp 0) env.value 100 := by
  have hends (room : ℕ) := printStringLoop_exact p room (p.gp 0) env.value []
  constructor
  · exact PrintsInBounds.nulWithin
  · intro hwithin
    obtain ⟨n, hn, hzero⟩ := (nulWithin_iff 100).mp hwithin
    obtain ⟨c, hloop, -⟩ := ((hends 100).safe (fun e he => he.2 n hn hzero)).exists_ok
    refine ⟨⟨100, c, hloop⟩, ?_, c.dropLast, ?_⟩
    · intro i hi
      have hall := ((hends i).fault hi).2
      by_contra hle
      exact hall n (by omega) hzero
    · have hread : armReadRegister p 0 = .ok (p.gp 0) :=
        armReadRegister_hasCell (by decide) (fun _ => by decide)
      unfold printString
      rw [hread, ok_bind, hloop]
      rfl

end printing

/-- `SWI 3` at address 0, with the address of 100 letters in `r0`. -/
abbrev hundredLetters : ArmCore :=
  @ArmCore.setGp makefile
    (ArmCore.boot 0x10 ([0xEF, 0, 0, 3] ++ List.replicate 100 0x41)) 0 4

/-- A hundred letters and no NUL among them: the next byte is written behind the buffer. -/
theorem print_string_hundred :
    (@armStep makefile ⟨0, 0, 0, 0⟩ hundredLetters).map Prod.fst = .error .localBuffer ∧
      ¬@PrintsInBounds makefile ⟨0, 0, 0, 0⟩ hundredLetters := by
  refine ⟨by decide +kernel, ?_⟩
  intro h
  have hwithin := @PrintsInBounds.nulWithin makefile _ _ h
  revert hwithin
  unfold NulWithin
  decide +kernel

end ArmSim
