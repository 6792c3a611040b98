import Mathlib.Data.List.Lex
import ArmSim.Lib.Ends
import ArmSim.Lib.SortedTable
import ArmSim.Util

/-! `debug.c`: the names of the files whose debug messages are printed, in a sorted array that is
searched by bisection. -/
namespace ArmSim
open Lib

abbrev MAX_FILES_NUMBER : ℕ := 64

/-- `strcmp` on two strings, the characters before their NUL: only its sign is used. -/
def strcmp : List Byte → List Byte → Ordering
  | [], [] => .eq
  | [], _ :: _ => .lt
  | _ :: _, [] => .gt
  | c :: s, d :: t => if c < d then .lt else if d < c then .gt else strcmp s t

/-- The variables `debugged_files` and `nb_debugged_files`. -/
structure DebugFiles where
  debuggedFiles : ℕ → List Byte
  nbDebuggedFiles : ℕ

/-- An access leaves `debugged_files`, or a loop goes on. -/
inductive DebugFault where
  | debuggedFiles
  | stillRunning
deriving DecidableEq, Repr

/-- `debugged_files[i]` as a value. -/
def DebugFiles.fetch (t : DebugFiles) (i : ℤ) : Except DebugFault (List Byte) :=
  if 0 ≤ i ∧ i < MAX_FILES_NUMBER then .ok (t.debuggedFiles i.toNat) else .error .debuggedFiles

/-- `debugged_files[i]` as an assignment's target. -/
def DebugFiles.store (t : DebugFiles) (i : ℕ) (name : List Byte) : Except DebugFault DebugFiles :=
  if i < MAX_FILES_NUMBER then
    .ok { t with debuggedFiles := Function.update t.debuggedFiles i name }
  else .error .debuggedFiles

/-- The first loop of `add_debug_to` at index `i`, with `room` entries of the array from there. -/
def addIndex (t : DebugFiles) (name : List Byte) : (room i : ℕ) → ℕ
  | 0, i => i
  | room + 1, i =>
    if i < t.nbDebuggedFiles ∧ strcmp (t.debuggedFiles i) name = .lt then addIndex t name room (i + 1)
    else i

/-- Its second loop, from `j` down to `i`. -/
def addShift (i : ℕ) : DebugFiles → ℕ → Except DebugFault DebugFiles
  | t, 0 => return t
  | t, j + 1 => do
    if i < j + 1 then
      let name ← t.fetch j
      let t ← t.store (j + 1) name
      addShift i t j
    else
      return t

def addDebugTo (t : DebugFiles) (name : List Byte) : Except DebugFault DebugFiles := do
  let i := addIndex t name MAX_FILES_NUMBER 0
  if MAX_FILES_NUMBER ≤ i then
    return t
  let t ← addShift i t t.nbDebuggedFiles
  let t ← t.store i name
  return { t with nbDebuggedFiles := t.nbDebuggedFiles + 1 }

/-- The loop of `__is_debugged` and the test behind it, for at most `fuel` tests of the loop's
condition. -/
def isDebuggedLoop (t : DebugFiles) (name : List Byte) : ℕ → ℤ → ℤ → Except DebugFault ℤ
  | 0, _, _ => throw .stillRunning
  | fuel + 1, first, last => do
    if first < last then
      let middle := (first + last).tdiv 2
      let entry ← t.fetch middle
      match strcmp entry name with
      | .lt => isDebuggedLoop t name fuel (middle + 1) last
      | .gt => isDebuggedLoop t name fuel first (middle - 1)
      | .eq => return 1
    else if first = last then
      let entry ← t.fetch first
      return if strcmp entry name = .eq then 1 else 0
    else
      return 0

-- Every iteration shortens the interval, so that this fuel is enough.
def isDebugged (t : DebugFiles) (name : List Byte) : Except DebugFault ℤ :=
  isDebuggedLoop t name (t.nbDebuggedFiles + 1) 0 (t.nbDebuggedFiles - 1)

section order

/-- A name in the order of its characters. -/
abbrev nameKey (name : List Byte) : List ℕ := name.map BitVec.toNat

/-- The three outcomes. -/
theorem strcmp_cases (s t : List Byte) :
    (strcmp s t = .lt ∧ nameKey s < nameKey t) ∨ (strcmp s t = .eq ∧ s = t) ∨
      (strcmp s t = .gt ∧ nameKey t < nameKey s) := by
  induction s generalizing t with
  | nil =>
    cases t with
    | nil => exact Or.inr (Or.inl ⟨rfl, rfl⟩)
    | cons d t => exact Or.inl ⟨rfl, List.nil_lt_cons _ _⟩
  | cons c s ih =>
    cases t with
    | nil => exact Or.inr (Or.inr ⟨rfl, List.nil_lt_cons _ _⟩)
    | cons d t =>
      unfold strcmp nameKey
      rw [List.map_cons, List.map_cons, List.cons_lt_cons_iff, List.cons_lt_cons_iff]
      -- The first characters decide, or are the same.
      rcases Nat.lt_trichotomy c.toNat d.toNat with h | h | h
      · rw [if_pos (BitVec.lt_def.mpr h)]
        exact Or.inl ⟨rfl, Or.inl h⟩
      · obtain rfl := BitVec.eq_of_toNat_eq h
        rw [if_neg (BitVec.lt_irrefl c), if_neg (BitVec.lt_irrefl c)]
        rcases ih t with ⟨hs, hlt⟩ | ⟨hs, rfl⟩ | ⟨hs, hlt⟩
        · exact Or.inl ⟨hs, Or.inr ⟨rfl, hlt⟩⟩
        · exact Or.inr (Or.inl ⟨hs, rfl⟩)
        · exact Or.inr (Or.inr ⟨hs, Or.inr ⟨rfl, hlt⟩⟩)
      · rw [if_neg (fun hlt => Nat.lt_asymm h (BitVec.lt_def.mp hlt)), if_pos (BitVec.lt_def.mpr h)]
        exact Or.inr (Or.inr ⟨rfl, Or.inl h⟩)

theorem strcmp_lt_iff {s t : List Byte} : strcmp s t = .lt ↔ nameKey s < nameKey t := by
  rcases strcmp_cases s t with ⟨hs, h⟩ | ⟨hs, rfl⟩ | ⟨hs, h⟩
  · exact iff_of_true hs h
  · exact iff_of_false (by rw [hs]; decide) (lt_irrefl _)
  · exact iff_of_false (by rw [hs]; decide) h.not_gt

theorem strcmp_eq_iff {s t : List Byte} : strcmp s t = .eq ↔ s = t := by
  rcases strcmp_cases s t with ⟨hs, h⟩ | ⟨hs, h⟩ | ⟨hs, h⟩
  · exact iff_of_false (by rw [hs]; decide) (fun he => h.ne (congrArg nameKey he))
  · exact iff_of_true hs h
  · exact iff_of_false (by rw [hs]; decide) (fun he => h.ne' (congrArg nameKey he))

end order

section insertion
variable {t : DebugFiles} {name : List Byte}

/-- The names in the array are in their order. -/
abbrev DebugFiles.Sorted (t : DebugFiles) : Prop :=
  Ascending nameKey t.debuggedFiles t.nbDebuggedFiles

/-- The names before `j` are less than `name`, and those from there on are not. -/
structure DebugFiles.Splits (t : DebugFiles) (name : List Byte) (j : ℕ) : Prop where
  le : j ≤ t.nbDebuggedFiles
  below : ∀ k < j, strcmp (t.debuggedFiles k) name = .lt
  above : ∀ k, j ≤ k → k < t.nbDebuggedFiles → strcmp (t.debuggedFiles k) name ≠ .lt

theorem addIndex_splits (hsorted : t.Sorted) {room i : ℕ} (hroom : t.nbDebuggedFiles ≤ i + room)
    (hi : i ≤ t.nbDebuggedFiles) (hbelow : ∀ k < i, strcmp (t.debuggedFiles k) name = .lt) :
    t.Splits name (addIndex t name room i) := by
  induction room generalizing i with
  | zero =>
    unfold addIndex
    exact ⟨hi, hbelow, fun k hk hlt => by omega⟩
  | succ room ih =>
    unfold addIndex
    split
    · rename_i hnext
      refine ih (by omega) hnext.1 (fun k hk => ?_)
      rcases Nat.eq_or_lt_of_le (Nat.le_of_lt_succ hk) with rfl | hlt
      · exact hnext.2
      · exact hbelow k hlt
    · rename_i hend
      refine ⟨hi, hbelow, fun k hk hlt hless => hend ⟨by omega, ?_⟩⟩
      -- What is not greater than a lesser name is less.
      rcases Nat.eq_or_lt_of_le hk with rfl | hik
      · exact hless
      · exact strcmp_lt_iff.mpr ((hsorted i k hik hlt).trans_lt (strcmp_lt_iff.mp hless))

theorem DebugFiles.fetch_of_lt {i : ℕ} (h : i < MAX_FILES_NUMBER) :
    t.fetch i = .ok (t.debuggedFiles i) := if_pos ⟨by omega, by omega⟩

theorem DebugFiles.store_of_lt {i : ℕ} (h : i < MAX_FILES_NUMBER) :
    t.store i name = .ok { t with debuggedFiles := Function.update t.debuggedFiles i name } :=
  if_pos h

/-- The shift moves what lies above `i` up by one. -/
theorem addShift_eq {i j : ℕ} (hj : j < MAX_FILES_NUMBER) : addShift i t j = .ok { t with
    debuggedFiles := fun k => if i < k ∧ k ≤ j then t.debuggedFiles (k - 1) else t.debuggedFiles k } := by
  have hsame (t : DebugFiles) (j : ℕ) (hij : j ≤ i) : (fun k => if i < k ∧ k ≤ j then t.debuggedFiles (k - 1)
      else t.debuggedFiles k) = t.debuggedFiles := funext fun k => if_neg (by omega)
  induction j generalizing t with
  | zero =>
    rw [hsame t 0 (Nat.zero_le i)]
    rfl
  | succ j ih =>
    unfold addShift
    by_cases hi : i < j + 1
    · rw [if_pos hi, DebugFiles.fetch_of_lt (by omega), ok_bind, DebugFiles.store_of_lt hj, ok_bind,
        ih (by omega)]
      congr 2
      funext k
      dsimp only
      -- The entry at `j` is copied before the copy from below overwrites it.
      by_cases hk : k = j + 1
      · subst hk
        rw [if_neg (by omega), if_pos (by omega), Function.update_self, Nat.add_sub_cancel]
      · by_cases hkj : i < k ∧ k ≤ j
        · rw [if_pos hkj, if_pos (by omega), Function.update_of_ne (by omega)]
        · rw [if_neg hkj, if_neg (by omega), Function.update_of_ne hk]
    · rw [if_neg hi, hsame t (j + 1) (by omega)]
      rfl

/-- A full array is left as it is for a name above all of them, and overrun for any other. -/
theorem addDebugTo_full (hsorted : t.Sorted) (hfull : t.nbDebuggedFiles = MAX_FILES_NUMBER) :
    Ends (addDebugTo t name)
      (fun u => u = t ∧ ∀ k < t.nbDebuggedFiles, strcmp (t.debuggedFiles k) name = .lt)
      (fun e => e = .debuggedFiles ∧ ∃ k < t.nbDebuggedFiles, strcmp (t.debuggedFiles k) name ≠ .lt) := by
  have hsplits : t.Splits name (addIndex t name MAX_FILES_NUMBER 0) :=
    addIndex_splits hsorted (by omega) (Nat.zero_le _) (fun k hk => absurd hk (Nat.not_lt_zero k))
  obtain ⟨hle, hbelow, habove⟩ := hsplits
  unfold addDebugTo
  dsimp only
  generalize addIndex t name MAX_FILES_NUMBER 0 = i at *
  refine ends_ite (fun hi => ⟨rfl, fun k hk => hbelow k (by omega)⟩) (fun hi => ?_)
  have hover : addShift i t t.nbDebuggedFiles = .error .debuggedFiles := by
    rw [hfull]
    unfold addShift
    rw [if_pos (Nat.lt_of_not_le hi), DebugFiles.fetch_of_lt (by decide), ok_bind]
    rfl
  rw [hover]
  exact ⟨rfl, i, by omega, habove i (Nat.le_refl i) (by omega)⟩

/-- Where there is room the name is put in at its place. -/
theorem addDebugTo_room (hsorted : t.Sorted) (hroom : t.nbDebuggedFiles < MAX_FILES_NUMBER) :
    Ends (addDebugTo t name)
      (fun u => u.Sorted ∧ u.nbDebuggedFiles = t.nbDebuggedFiles + 1 ∧
        entries u.debuggedFiles u.nbDebuggedFiles =
          insert name (entries t.debuggedFiles t.nbDebuggedFiles))
      (fun _ => False) := by
  have hsplits : t.Splits name (addIndex t name MAX_FILES_NUMBER 0) :=
    addIndex_splits hsorted (by omega) (Nat.zero_le _) (fun k hk => absurd hk (Nat.not_lt_zero k))
  obtain ⟨hle, hbelow, habove⟩ := hsplits
  unfold addDebugTo
  dsimp only
  generalize addIndex t name MAX_FILES_NUMBER 0 = i at *
  rw [if_neg (by omega), addShift_eq hroom, ok_bind, DebugFiles.store_of_lt (by omega), ok_bind]
  have hins : ∀ k < t.nbDebuggedFiles + 1, Function.update (fun k =>
      if i < k ∧ k ≤ t.nbDebuggedFiles then t.debuggedFiles (k - 1) else t.debuggedFiles k) i name k =
        insertAt t.debuggedFiles i name k := by
    intro k hk
    unfold insertAt
    rcases Nat.lt_trichotomy k i with h | rfl | h
    · rw [if_pos h, Function.update_of_ne h.ne, if_neg (by omega)]
    · rw [if_neg (Nat.lt_irrefl _), if_pos rfl, Function.update_self]
    · rw [if_neg (by omega), if_neg (by omega), Function.update_of_ne (by omega), if_pos (by omega)]
  have hordered : Ascending nameKey (insertAt t.debuggedFiles i name) (t.nbDebuggedFiles + 1) :=
    Ascending.insertAt hsorted hle (fun k hk => (strcmp_lt_iff.mp (hbelow k hk)).le)
      (fun k hk hlt => not_lt.mp (fun h => habove k hk hlt (strcmp_lt_iff.mpr h)))
  exact ⟨hordered.congr hins, rfl, (entries_congr hins).trans (entries_insertAt hle)⟩

end insertion

section search
variable {t : DebugFiles} {name : List Byte}

/-- The search tells whether the name is there. -/
def DebugFiles.Tells (t : DebugFiles) (name : List Byte) (r : ℤ) : Prop :=
  r = 1 ∧ name ∈ entries t.debuggedFiles t.nbDebuggedFiles ∨
    r = 0 ∧ name ∉ entries t.debuggedFiles t.nbDebuggedFiles

theorem isDebuggedLoop_ends (hsorted : t.Sorted) (hbound : t.nbDebuggedFiles ≤ MAX_FILES_NUMBER)
    {fuel lo hi : ℕ} (hfuel : hi - lo < fuel) (hhi : hi ≤ t.nbDebuggedFiles)
    (hin : Confined t.debuggedFiles t.nbDebuggedFiles name lo hi) :
    Ends (isDebuggedLoop t name fuel lo (hi - 1)) (t.Tells name) (fun _ => False) := by
  -- The interval of the source is closed: its end is one below `hi`, and may be below zero.
  induction fuel generalizing lo hi with
  | zero => omega
  | succ fuel ih =>
    unfold isDebuggedLoop
    apply ends_ite
    · intro hlt
      obtain ⟨m, hmiddle, hlo, hm⟩ : ∃ m : ℕ, ((lo : ℤ) + (hi - 1)).tdiv 2 = m ∧ lo ≤ m ∧
          m + 1 < hi := by
        refine ⟨(lo + (hi - 1)) / 2, ?_, by omega, by omega⟩
        have hsum : (lo : ℤ) + (hi - 1) = ((lo + (hi - 1) : ℕ) : ℤ) := by omega
        rw [hsum]
        rfl
      dsimp only
      rw [hmiddle, DebugFiles.fetch_of_lt (by omega), ok_bind]
      rcases strcmp_cases (t.debuggedFiles m) name with ⟨hs, hless⟩ | ⟨hs, heq⟩ | ⟨hs, hgreater⟩
      · rw [hs]
        have hright := hsorted.confined_right hin (by omega) hless
        have hroom : hi - (m + 1) < fuel := by omega
        exact ih hroom hhi hright
      · rw [hs]
        exact Or.inl ⟨rfl, m, by omega, heq⟩
      · rw [hs]
        have hleft := hsorted.confined_left hin hgreater
        exact ih (by omega) (by omega) hleft
    · intro hnlt
      apply ends_ite
      · intro hsame
        rw [DebugFiles.fetch_of_lt (by omega), ok_bind]
        rcases strcmp_cases (t.debuggedFiles lo) name with ⟨hs, hless⟩ | ⟨hs, heq⟩ | ⟨hs, hgreater⟩
        · rw [hs]
          exact Or.inr ⟨rfl, (hsorted.confined_right hin (by omega) hless).notMem (by omega)⟩
        · rw [hs]
          exact Or.inl ⟨rfl, lo, by omega, heq⟩
        · rw [hs]
          exact Or.inr ⟨rfl, (hsorted.confined_left hin hgreater).notMem (Nat.le_refl lo)⟩
      · intro hne
        exact Or.inr ⟨rfl, hin.notMem (by omega)⟩

theorem isDebugged_ends (hsorted : t.Sorted) (hbound : t.nbDebuggedFiles ≤ MAX_FILES_NUMBER) :
    Ends (isDebugged t name) (t.Tells name) (fun _ => False) :=
  isDebuggedLoop_ends hsorted hbound (by omega) (Nat.le_refl _) (confined_all _ _ _)

end search

section runs

/-- The array holds exactly `names`, in their order. -/
structure DebugFiles.Remembers (t : DebugFiles) (names : List (List Byte)) : Prop where
  sorted : t.Sorted
  number : t.nbDebuggedFiles = names.length
  entries_eq : entries t.debuggedFiles t.nbDebuggedFiles = {name | name ∈ names}

/-- One of the names that come too late is not above all that are remembered. -/
def Overruns (names : List (List Byte)) : Prop :=
  ∃ late ∈ names.drop MAX_FILES_NUMBER, ∃ early ∈ names.take MAX_FILES_NUMBER,
    strcmp early late ≠ .lt

theorem not_overruns {names : List (List Byte)} (h : names.length ≤ MAX_FILES_NUMBER) :
    ¬Overruns names := by
  intro hover
  obtain ⟨late, hlate, -⟩ := hover
  rw [List.drop_of_length_le h] at hlate
  exact absurd hlate List.not_mem_nil

theorem overruns_append {names : List (List Byte)} (name : List Byte)
    (h : MAX_FILES_NUMBER ≤ names.length) :
    Overruns (names ++ [name]) ↔
      Overruns names ∨ ∃ early ∈ names.take MAX_FILES_NUMBER, strcmp early name ≠ .lt := by
  unfold Overruns
  rw [List.take_append_of_le_length h, List.drop_append_of_le_length h]
  simp only [List.mem_append, List.mem_singleton, or_and_right, exists_or, exists_eq_left]

section step
variable {t : DebugFiles} {names : List (List Byte)} (h : t.Remembers names) (name : List Byte)
include h

theorem DebugFiles.Remembers.mem_iff :
    name ∈ entries t.debuggedFiles t.nbDebuggedFiles ↔ name ∈ names :=
  Set.ext_iff.mp h.entries_eq name

theorem DebugFiles.Remembers.add (hroom : names.length < MAX_FILES_NUMBER) :
    Ends (addDebugTo t name) (fun u => u.Remembers (names ++ [name])) (fun _ => False) := by
  apply (addDebugTo_room h.sorted (h.number.trans_lt hroom)).imp
  intro u hu
  obtain ⟨hsorted, hnumber, hentries⟩ := hu
  refine ⟨hsorted, ?_, ?_⟩
  · rw [hnumber, h.number, List.length_append, List.length_singleton]
  · rw [hentries, h.entries_eq]
    ext other
    simp [or_comm]

theorem DebugFiles.Remembers.add_late (hfull : names.length = MAX_FILES_NUMBER) :
    Ends (addDebugTo t name) (fun u => u = t ∧ ∀ early ∈ names, strcmp early name = .lt)
      (fun e => e = .debuggedFiles ∧ ∃ early ∈ names, strcmp early name ≠ .lt) := by
  apply (addDebugTo_full h.sorted (h.number.trans hfull)).mono
  · intro u hu
    refine ⟨hu.1, fun early hearly => ?_⟩
    obtain ⟨k, hk, rfl⟩ := (h.mem_iff early).mpr hearly
    exact hu.2 k hk
  · intro e he
    obtain ⟨rfl, k, hk, hnot⟩ := he
    exact ⟨rfl, _, (h.mem_iff _).mp ⟨k, hk, rfl⟩, hnot⟩

end step

/-- As many names as there is room for are remembered.  A later name that is above all of them is
lost; any other overruns the array. -/
theorem addDebugTo_run (files : ℕ → List Byte) (names : List (List Byte)) :
    Ends (names.foldlM addDebugTo ⟨files, 0⟩)
      (fun t => t.Remembers (names.take MAX_FILES_NUMBER) ∧ ¬Overruns names)
      (fun e => e = .debuggedFiles ∧ Overruns names) := by
  induction names using List.reverseRecOn with
  | nil =>
    refine ⟨⟨fun i j hij hj => absurd hj (Nat.not_lt_zero j), rfl, ?_⟩,
      not_overruns (Nat.zero_le _)⟩
    rw [entries_zero]
    ext name
    simp
  | append_singleton names name ih =>
    rw [List.foldlM_append]
    simp only [List.foldlM_cons, List.foldlM_nil, bind_pure]
    rcases Nat.lt_or_ge names.length MAX_FILES_NUMBER with hlt | hge
    · have hlen : (names ++ [name]).length ≤ MAX_FILES_NUMBER := by
        rw [List.length_append, List.length_singleton]
        exact hlt
      rw [List.take_of_length_le hlen]
      rw [List.take_of_length_le hlt.le] at ih
      apply (ih.mono (fun _ h => h) (fun _ he => absurd he.2 (not_overruns hlt.le))).bind
      intro t ht
      exact (ht.1.add name hlt).mono (fun _ hu => ⟨hu, not_overruns hlen⟩) (fun _ he => he.elim)
    · rw [overruns_append name hge, List.take_append_of_le_length hge]
      apply (ih.mono (fun _ h => h) (fun _ he => ⟨he.1, Or.inl he.2⟩)).bind
      intro t ht
      obtain ⟨hremembers, hnone⟩ := ht
      have hfull : (names.take MAX_FILES_NUMBER).length = MAX_FILES_NUMBER := by
        rw [List.length_take, Nat.min_eq_left hge]
      apply (hremembers.add_late name hfull).mono
      · intro u hu
        obtain ⟨rfl, hbelow⟩ := hu
        refine ⟨hremembers, fun hover => ?_⟩
        rcases hover with hover | ⟨early, hearly, hnot⟩
        · exact hnone hover
        · exact hnot (hbelow early hearly)
      · exact fun e he => ⟨he.1, Or.inr he.2⟩

end runs

/-- Whatever names are given to `add_debug_to`, `__is_debugged` is 1 for the first 64 of them and 0
for all other names, unless one of the later is not above each of these: then a name is stored
behind the array. -/
theorem debug_files (files : ℕ → List Byte) (names : List (List Byte)) :
    Ends (names.foldlM addDebugTo ⟨files, 0⟩)
      (fun t => ¬Overruns names ∧ ∀ name, isDebugged t name =
        .ok (if name ∈ names.take MAX_FILES_NUMBER then 1 else 0))
      (fun e => e = .debuggedFiles ∧ Overruns names) := by
  apply (addDebugTo_run files names).imp
  intro t ht
  obtain ⟨hremembers, hnone⟩ := ht
  refine ⟨hnone, fun name => ?_⟩
  have hbound : t.nbDebuggedFiles ≤ MAX_FILES_NUMBER := by
    rw [hremembers.number, List.length_take]
    exact Nat.min_le_left _ _
  have hends : Ends (isDebugged t name) (t.Tells name) (fun _ => False) :=
    isDebugged_ends hremembers.sorted hbound
  obtain ⟨r, hr, htells⟩ := hends.exists_ok
  unfold DebugFiles.Tells at htells
  rw [hremembers.mem_iff] at htells
  rcases htells with ⟨rfl, hmem⟩ | ⟨rfl, hmem⟩
  · rw [hr, if_pos hmem]
  · rw [hr, if_neg hmem]

end ArmSim
