import ArmSim.Lib.SortedTable
import ArmSim.Util

/-! The breakpoint table of `gdb_protocol.c`: a sorted array, searched by bisection, and
the set of addresses it stands for. -/
namespace ArmSim
open Lib

abbrev MAX_BREAKPOINTS_NUMBER : ℕ := 1024

/-- The ways in which serving the debugger ends without a return: the simulator stops by
itself, an access leaves `gdb->packet`, the breakpoints or the text of a packet, an
assertion fails, the result of a failed `index` is followed, something is written to a
connection that has been shut down, or a loop goes on. -/
inductive GdbFault where
  | crash (c : Crash)
  | packetBuffer
  | breakpointEntry
  | packetText
  | assertion
  | nullPointer
  | brokenPipe
  | stillRunning
deriving DecidableEq, Repr

/-- The fields `breakpoints` and `breakpoints_number` of `struct gdb_protocol_data`. -/
structure BreakpointTable where
  breakpoints : ℕ → Word
  breakpointsNumber : ℕ

/-- `gdb->breakpoints[i]` as a value. -/
def BreakpointTable.fetch (gdb : BreakpointTable) (i : ℕ) : Except GdbFault Word :=
  if i < MAX_BREAKPOINTS_NUMBER then .ok (gdb.breakpoints i) else .error .breakpointEntry

/-- `gdb->breakpoints[i]` as an assignment's target. -/
def BreakpointTable.store (gdb : BreakpointTable) (i : ℕ) (address : Word) :
    Except GdbFault BreakpointTable :=
  if i < MAX_BREAKPOINTS_NUMBER then
    .ok { gdb with breakpoints := Function.update gdb.breakpoints i address }
  else .error .breakpointEntry

/-- The loop of `gdb_find_breakpoint`, followed for at most `fuel` tests of its condition. -/
def gdbFindLoop (gdb : BreakpointTable) (address : Word) :
    (fuel start stop : ℕ) → Except GdbFault ℤ
  | 0, _, _ => .error .stillRunning
  | fuel + 1, start, stop =>
    if start < stop then do
      let middle := (start + stop) >>> 1
      let entry ← gdb.fetch middle
      if address < entry then
        gdbFindLoop gdb address fuel start middle
      else if entry < address then
        gdbFindLoop gdb address fuel (middle + 1) stop
      else
        return middle
    else
      return -1

-- Every iteration shortens the interval, so the loop tests its condition no more than
-- `breakpoints_number + 1` times.
def gdbFindBreakpoint (gdb : BreakpointTable) (address : Word) : Except GdbFault ℤ :=
  gdbFindLoop gdb address (gdb.breakpointsNumber + 1) 0 gdb.breakpointsNumber

/-- The loop of `gdb_add_breakpoint`: the table, and the free entry it ends at. -/
def gdbShiftLoop (address : Word) : BreakpointTable → ℕ → Except GdbFault (BreakpointTable × ℕ)
  | gdb, 0 => return (gdb, 0)
  | gdb, j + 1 => do
    let entry ← gdb.fetch j
    if address < entry then
      let gdb ← gdb.store (j + 1) entry
      gdbShiftLoop address gdb j
    else
      return (gdb, j + 1)

def gdbAddBreakpoint (gdb : BreakpointTable) (address : Word) :
    Except GdbFault (ℤ × BreakpointTable) := do
  if gdb.breakpointsNumber < MAX_BREAKPOINTS_NUMBER then
    let position ← gdbFindBreakpoint gdb address
    if position ≠ -1 then
      return (1, gdb)
    let j := gdb.breakpointsNumber
    let gdb := { gdb with breakpointsNumber := gdb.breakpointsNumber + 1 }
    let (gdb, j) ← gdbShiftLoop address gdb j
    let gdb ← gdb.store j address
    return (1, gdb)
  else
    return (0, gdb)

def gdbRemoveBreakpoint (gdb : BreakpointTable) (address : Word) :
    Except GdbFault (ℤ × BreakpointTable) := do
  let position ← gdbFindBreakpoint gdb address
  if position = -1 then
    return (0, gdb)
  else
    let last := gdb.breakpointsNumber - 1
    let gdb := { gdb with breakpointsNumber := last }
    let gdb ← (List.range' position.toNat (last - position.toNat)).foldlM (fun gdb j => do
      let entry ← gdb.fetch (j + 1)
      gdb.store j entry) gdb
    return (1, gdb)

/-- The table holds exactly the addresses of `S`, sorted, inside the array. -/
structure BreakpointTable.Holds (gdb : BreakpointTable) (S : Set Word) : Prop where
  bounded : gdb.breakpointsNumber ≤ MAX_BREAKPOINTS_NUMBER
  increasing : Increasing BitVec.toNat gdb.breakpoints gdb.breakpointsNumber
  entries_eq : entries gdb.breakpoints gdb.breakpointsNumber = S

theorem BreakpointTable.fetch_of_lt {gdb : BreakpointTable} {i : ℕ}
    (h : i < MAX_BREAKPOINTS_NUMBER) : gdb.fetch i = .ok (gdb.breakpoints i) := if_pos h

theorem BreakpointTable.store_of_lt {gdb : BreakpointTable} {i : ℕ}
    (h : i < MAX_BREAKPOINTS_NUMBER) (address : Word) :
    gdb.store i address =
      .ok { gdb with breakpoints := Function.update gdb.breakpoints i address } := if_pos h

theorem middle_bounds {start stop : ℕ} (h : start < stop) :
    start ≤ (start + stop) >>> 1 ∧ (start + stop) >>> 1 < stop := by
  rw [Nat.shiftRight_eq_div_pow]
  omega

/-- The search ends after no more tests than its interval is long and one, on any table. -/
theorem gdbFindLoop_fuel (gdb : BreakpointTable) (address : Word) {fuel fuel' start stop : ℕ}
    (h : stop - start < fuel) (h' : stop - start < fuel') :
    gdbFindLoop gdb address fuel start stop = gdbFindLoop gdb address fuel' start stop := by
  -- Both halves are shorter than the interval, so either fuel is enough for them.
  induction fuel generalizing fuel' start stop with
  | zero => omega
  | succ fuel ih =>
    obtain ⟨fuel', rfl⟩ : ∃ n, fuel' = n + 1 := ⟨fuel' - 1, by omega⟩
    unfold gdbFindLoop
    by_cases hlt : start < stop
    · obtain ⟨hm, hm'⟩ := middle_bounds hlt
      rw [if_pos hlt, if_pos hlt]
      dsimp only
      have hleft : gdbFindLoop gdb address fuel start ((start + stop) >>> 1) =
          gdbFindLoop gdb address fuel' start ((start + stop) >>> 1) := ih (by omega) (by omega)
      have hright : gdbFindLoop gdb address fuel ((start + stop) >>> 1 + 1) stop =
          gdbFindLoop gdb address fuel' ((start + stop) >>> 1 + 1) stop :=
        ih (by omega) (by omega)
      rw [hleft, hright]
    · rw [if_neg hlt, if_neg hlt]

/-- The outcome of the search: an index that holds the address, or -1 for an address that
is not in the table. -/
def BreakpointTable.Found (gdb : BreakpointTable) (address : Word) (r : ℤ) : Prop :=
  (∃ i : ℕ, r = i ∧ i < gdb.breakpointsNumber ∧ gdb.breakpoints i = address) ∨
    (r = -1 ∧ address ∉ entries gdb.breakpoints gdb.breakpointsNumber)

section search
variable {gdb : BreakpointTable} {S : Set Word} (h : gdb.Holds S) (address : Word)
include h

theorem gdbFindLoop_ends {fuel start stop : ℕ} (hfuel : stop - start < fuel)
    (hstop : stop ≤ gdb.breakpointsNumber)
    (hin : Confined gdb.breakpoints gdb.breakpointsNumber address start stop) :
    Ends (gdbFindLoop gdb address fuel start stop) (gdb.Found address) (fun _ => False) := by
  -- The address, if it is there at all, stays confined to the interval.
  induction fuel generalizing start stop with
  | zero => omega
  | succ fuel ih =>
    unfold gdbFindLoop
    by_cases hlt : start < stop
    · obtain ⟨hm, hm'⟩ := middle_bounds hlt
      have hb := h.bounded
      rw [if_pos hlt]
      dsimp only
      rw [BreakpointTable.fetch_of_lt (by omega), ok_bind]
      generalize (start + stop) >>> 1 = middle at *
      apply ends_ite
      · intro hgt
        exact ih (by omega) (by omega) (hin.left h.increasing hgt)
      · intro hle
        apply ends_ite
        · intro hgt
          exact ih (by omega) hstop (hin.right h.increasing (by omega) hgt)
        · intro hge
          have heq : gdb.breakpoints middle = address :=
            BitVec.le_antisymm (BitVec.not_lt.mp hle) (BitVec.not_lt.mp hge)
          exact Or.inl ⟨middle, rfl, by omega, heq⟩
    · rw [if_neg hlt]
      exact Or.inr ⟨rfl, hin.notMem (Nat.le_of_not_lt hlt)⟩

theorem gdbFindBreakpoint_ends :
    Ends (gdbFindBreakpoint gdb address) (gdb.Found address) (fun _ => False) :=
  gdbFindLoop_ends h address (by omega) (Nat.le_refl _) (confined_all _ _ _)

/-- The search tells whether the address is in the set. -/
theorem gdbFindBreakpoint_spec : ∃ r, gdbFindBreakpoint gdb address = .ok r ∧
    gdb.Found address r ∧ (r ≠ -1 ↔ address ∈ S) := by
  obtain ⟨r, hr, hfound⟩ := (gdbFindBreakpoint_ends h address).exists_ok
  refine ⟨r, hr, hfound, ?_⟩
  rw [← h.entries_eq]
  rcases hfound with ⟨i, rfl, hi, hia⟩ | ⟨rfl, hnot⟩
  · exact iff_of_true (by omega) ⟨i, hi, hia⟩
  · exact iff_of_false (by simp) hnot

end search

section shift
variable (t : ℕ → Word) (n : ℕ) (address : Word)

/-- The insertion loop at index `j`: the entries from `j` on have moved up by one, and all
of them are above the address. -/
structure ShiftedUp (gdb : BreakpointTable) (j : ℕ) : Prop where
  le : j ≤ n
  below : ∀ i < j, gdb.breakpoints i = t i
  moved : ∀ i, j < i → i ≤ n → gdb.breakpoints i = t (i - 1)
  above : ∀ i, j ≤ i → i < n → address < t i

theorem gdbShiftLoop_ends (hn : n < MAX_BREAKPOINTS_NUMBER) {gdb : BreakpointTable} {j : ℕ}
    (h : ShiftedUp t n address gdb j) :
    Ends (gdbShiftLoop address gdb j)
      (fun r => r.1.breakpointsNumber = gdb.breakpointsNumber ∧ ShiftedUp t n address r.1 r.2 ∧
        ∀ i, i + 1 = r.2 → ¬address < t i) (fun _ => False) := by
  induction j generalizing gdb with
  | zero => exact ⟨rfl, h, fun i hi => absurd hi (Nat.succ_ne_zero i)⟩
  | succ j ih =>
    have hle := h.le
    unfold gdbShiftLoop
    rw [BreakpointTable.fetch_of_lt (by omega), ok_bind, h.below j (Nat.lt_succ_self j)]
    apply ends_ite
    · intro hgt
      rw [BreakpointTable.store_of_lt (by omega), ok_bind]
      -- The entry at `j` moves to `j + 1`.
      apply ih
      refine ⟨by omega, ?_, ?_, ?_⟩
      · intro i hi
        have hne : i ≠ j + 1 := by omega
        exact (Function.update_of_ne hne _ _).trans (h.below i (by omega))
      · intro i hi hin
        by_cases heq : i = j + 1
        · subst heq
          exact Function.update_self _ _ _
        · exact (Function.update_of_ne heq _ _).trans (h.moved i (by omega) hin)
      · intro i hi hin
        rcases Nat.eq_or_lt_of_le hi with rfl | hlt
        · exact hgt
        · exact h.above i hlt hin
    · intro hle
      refine ⟨rfl, h, ?_⟩
      intro i hi
      obtain rfl : i = j := Nat.succ.inj hi
      exact hle

end shift

/-- An address that is not above the last entry before `j`, nor in the table, is above all
of them. -/
theorem entries_below {t : ℕ → Word} {n j : ℕ} {address : Word}
    (ht : Increasing BitVec.toNat t n) (hj : j ≤ n) (hmem : address ∉ entries t n)
    (hlast : ∀ i, i + 1 = j → ¬address < t i) : ∀ i < j, (t i).toNat < address.toNat := by
  intro i hi
  -- The last entry is below the address, and the entries before it are below that.
  have hle : (t (j - 1)).toNat ≤ address.toNat := BitVec.not_lt.mp (hlast (j - 1) (by omega))
  have hne : (t (j - 1)).toNat ≠ address.toNat :=
    fun he => hmem ⟨j - 1, by omega, BitVec.eq_of_toNat_eq he⟩
  rcases Nat.eq_or_lt_of_le (Nat.le_sub_one_of_lt hi) with rfl | hlt
  · omega
  · have hlt' := ht i (j - 1) hlt (by omega)
    omega

section calls
variable {gdb : BreakpointTable} {S : Set Word} (h : gdb.Holds S) (address : Word)
include h

/-- `gdb_add_breakpoint` adds the address, or refuses it because the table is full. -/
theorem gdbAddBreakpoint_ends :
    Ends (gdbAddBreakpoint gdb address)
      (fun r => r.1 = 1 ∧ r.2.Holds (insert address S) ∨
        r.1 = 0 ∧ r.2 = gdb ∧ S.ncard = MAX_BREAKPOINTS_NUMBER) (fun _ => False) := by
  unfold gdbAddBreakpoint
  apply ends_ite
  · intro hlt
    obtain ⟨r, hr, -, hmem⟩ := gdbFindBreakpoint_spec h address
    rw [hr, ok_bind]
    dsimp only
    apply ends_ite
    · intro hfound
      refine Or.inl ⟨rfl, ?_⟩
      rwa [Set.insert_eq_of_mem (hmem.mp hfound)]
    · intro hnone
      have hnot : address ∉ entries gdb.breakpoints gdb.breakpointsNumber := by
        rw [h.entries_eq]
        exact fun hin => hnone (hmem.mpr hin)
      have hstart : ShiftedUp gdb.breakpoints gdb.breakpointsNumber address
          { gdb with breakpointsNumber := gdb.breakpointsNumber + 1 } gdb.breakpointsNumber :=
        ⟨Nat.le_refl _, fun _ _ => rfl, fun i hi hin => by omega, fun i hi hin => by omega⟩
      apply (gdbShiftLoop_ends _ _ address hlt hstart).bind
      rintro ⟨gdb', j⟩ ⟨hnumber, hshift, hlast⟩
      have hj := hshift.le
      dsimp only at *
      rw [BreakpointTable.store_of_lt (by omega), ok_bind]
      -- The loop and the last store put the address in at `j`.
      have hins : ∀ i < gdb.breakpointsNumber + 1,
          Function.update gdb'.breakpoints j address i = insertAt gdb.breakpoints j address i := by
        intro i hi
        unfold insertAt
        rcases Nat.lt_trichotomy i j with hij | rfl | hij
        · rw [if_pos hij, Function.update_of_ne hij.ne]
          exact hshift.below i hij
        · rw [if_neg (Nat.lt_irrefl _), if_pos rfl, Function.update_self]
        · rw [if_neg (by omega), if_neg (by omega), Function.update_of_ne (by omega)]
          exact hshift.moved i hij (by omega)
      refine Or.inl ⟨rfl, ?_, ?_, ?_⟩
      · change gdb'.breakpointsNumber ≤ _
        omega
      · change Increasing _ _ gdb'.breakpointsNumber
        rw [hnumber]
        have hbelow := entries_below h.increasing hj hnot hlast
        exact (h.increasing.insertAt hj hbelow hshift.above).congr hins
      · change entries _ gdb'.breakpointsNumber = _
        rw [hnumber, entries_congr hins, entries_insertAt hj, h.entries_eq]
  · intro hfull
    have hb := h.bounded
    have hn : gdb.breakpointsNumber = MAX_BREAKPOINTS_NUMBER := by omega
    refine Or.inr ⟨rfl, rfl, ?_⟩
    rw [← h.entries_eq, h.increasing.ncard_entries, hn]

/-- `gdb_remove_breakpoint` removes the address, or finds that it is not there. -/
theorem gdbRemoveBreakpoint_ends :
    Ends (gdbRemoveBreakpoint gdb address)
      (fun r => r.1 = 1 ∧ address ∈ S ∧ r.2.Holds (S \ {address}) ∨
        r.1 = 0 ∧ address ∉ S ∧ r.2 = gdb) (fun _ => False) := by
  unfold gdbRemoveBreakpoint
  obtain ⟨r, hr, hfound, hmem⟩ := gdbFindBreakpoint_spec h address
  rw [hr, ok_bind]
  apply ends_ite
  · intro hnone
    exact Or.inr ⟨rfl, fun hin => hmem.mpr hin hnone, rfl⟩
  · intro hsome
    have hin : address ∈ S := hmem.mp hsome
    obtain ⟨position, rfl, hpos, haddr⟩ : ∃ i : ℕ, r = i ∧ i < gdb.breakpointsNumber ∧
        gdb.breakpoints i = address := hfound.resolve_right (fun hc => hsome hc.1)
    have hb := h.bounded
    dsimp only
    rw [Int.toNat_natCast]
    -- Up to the counter the entries are those of the table without its entry at `position`.
    have hloop := ends_foldlM_range' (E := fun _ : GdbFault => False)
      (fun k (g : BreakpointTable) => g.breakpointsNumber = gdb.breakpointsNumber - 1 ∧
        (∀ i < k, g.breakpoints i = removeAt gdb.breakpoints position i) ∧
        ∀ i, k ≤ i → g.breakpoints i = gdb.breakpoints i)
      (fun g j => g.fetch (j + 1) >>= fun entry => g.store j entry) position
      (gdb.breakpointsNumber - 1 - position)
      { gdb with breakpointsNumber := gdb.breakpointsNumber - 1 }
      ⟨rfl, fun i hi => (if_pos hi).symm, fun _ _ => rfl⟩ (by
        rintro j hj hlt g ⟨hn, hlow, hhigh⟩
        rw [BreakpointTable.fetch_of_lt (by omega), ok_bind, BreakpointTable.store_of_lt (by omega)]
        refine ⟨hn, ?_, ?_⟩
        · intro i hi
          by_cases hij : i = j
          · subst hij
            rw [hhigh (i + 1) (by omega)]
            exact (Function.update_self ..).trans (if_neg (by omega)).symm
          · exact (Function.update_of_ne hij _ _).trans (hlow i (by omega))
        · intro i hi
          have hij : i ≠ j := by omega
          exact (Function.update_of_ne hij _ _).trans (hhigh i (by omega)))
    rw [show position + (gdb.breakpointsNumber - 1 - position) = gdb.breakpointsNumber - 1 by
      omega] at hloop
    apply hloop.bind
    rintro g ⟨hn, hlow, -⟩
    refine Or.inl ⟨rfl, hin, ?_, ?_, ?_⟩
    · change g.breakpointsNumber ≤ _
      omega
    · rw [hn]
      exact (h.increasing.removeAt hpos).congr hlow
    · rw [hn, entries_congr hlow, h.increasing.entries_removeAt hpos, h.entries_eq, haddr]

end calls

section capacity
variable {gdb : BreakpointTable} {S : Set Word} (h : gdb.Holds S) {address : Word}
include h

theorem BreakpointTable.Holds.ncard_eq : S.ncard = gdb.breakpointsNumber := by
  rw [← h.entries_eq, h.increasing.ncard_entries]

theorem BreakpointTable.Holds.finite : S.Finite := by
  rw [← h.entries_eq]
  exact entries_finite _ _

/-- A table that is not full takes every address. -/
theorem gdbAddBreakpoint_room (address : Word)
    (hlt : gdb.breakpointsNumber < MAX_BREAKPOINTS_NUMBER) :
    Ends (gdbAddBreakpoint gdb address) (fun r => r.1 = 1 ∧ r.2.Holds (insert address S))
      (fun _ => False) := by
  apply (gdbAddBreakpoint_ends h address).imp
  rintro r (hadded | ⟨-, -, hfull⟩)
  · exact hadded
  · rw [h.ncard_eq] at hfull
    omega

/-- The capacity is tested first: a member is found again only where there is room for one
more. -/
theorem gdbAddBreakpoint_member_iff (ha : address ∈ S) :
    gdbAddBreakpoint gdb address = .ok (1, gdb) ↔
      gdb.breakpointsNumber < MAX_BREAKPOINTS_NUMBER := by
  unfold gdbAddBreakpoint
  by_cases hlt : gdb.breakpointsNumber < MAX_BREAKPOINTS_NUMBER
  · obtain ⟨r, hr, -, hmem⟩ := gdbFindBreakpoint_spec h address
    rw [if_pos hlt, hr, ok_bind]
    exact iff_of_true (if_pos (hmem.mpr ha)) hlt
  · rw [if_neg hlt]
    refine iff_of_false ?_ hlt
    intro hadded
    have hresult : (0 : ℤ) = 1 := congrArg Prod.fst (Except.ok.inj hadded)
    exact absurd hresult (by decide)

end capacity

/-- A call of one of the two functions that change the table. -/
inductive TableCall where
  | add (address : Word)
  | remove (address : Word)
deriving DecidableEq, Repr

def TableCall.run (gdb : BreakpointTable) : TableCall → Except GdbFault (ℤ × BreakpointTable)
  | add address => gdbAddBreakpoint gdb address
  | remove address => gdbRemoveBreakpoint gdb address

/-- The calls one after the other: their results and the table they leave. -/
def runTable (gdb : BreakpointTable) : List TableCall → Except GdbFault (List ℤ × BreakpointTable)
  | [] => return ([], gdb)
  | c :: calls => do
    let (r, gdb) ← c.run gdb
    let (rs, gdb) ← runTable gdb calls
    return (r :: rs, gdb)

/-- What a call with result `r` means for the set of breakpoints. -/
def SetStep (S : Set Word) (c : TableCall) (r : ℤ) (S' : Set Word) : Prop :=
  match c with
  | .add a => r = 1 ∧ S' = insert a S ∨ r = 0 ∧ S' = S ∧ S.ncard = MAX_BREAKPOINTS_NUMBER
  | .remove a => r = 1 ∧ a ∈ S ∧ S' = S \ {a} ∨ r = 0 ∧ a ∉ S ∧ S' = S

/-- A run of the calls over sets. -/
inductive SetRun : Set Word → List TableCall → List ℤ → Set Word → Prop
  | nil (S : Set Word) : SetRun S [] [] S
  | cons {S S' S'' : Set Word} {c : TableCall} {r : ℤ} {calls : List TableCall} {rs : List ℤ}
      (step : SetStep S c r S') (run : SetRun S' calls rs S'') : SetRun S (c :: calls) (r :: rs) S''

theorem TableCall.run_ends {gdb : BreakpointTable} {S : Set Word} (h : gdb.Holds S)
    (c : TableCall) :
    Ends (c.run gdb) (fun r => ∃ S', SetStep S c r.1 S' ∧ r.2.Holds S') (fun _ => False) := by
  cases c with
  | add a =>
    apply (gdbAddBreakpoint_ends h a).imp
    rintro r (⟨hr, hS⟩ | ⟨hr, hS, hn⟩)
    · exact ⟨_, Or.inl ⟨hr, rfl⟩, hS⟩
    · exact ⟨S, Or.inr ⟨hr, rfl, hn⟩, hS ▸ h⟩
  | remove a =>
    apply (gdbRemoveBreakpoint_ends h a).imp
    rintro r (⟨hr, ha, hS⟩ | ⟨hr, ha, hS⟩)
    · exact ⟨_, Or.inl ⟨hr, ha, rfl⟩, hS⟩
    · exact ⟨S, Or.inr ⟨hr, ha, rfl⟩, hS ▸ h⟩

/-- The table refines a set over every run. -/
theorem runTable_ends {gdb : BreakpointTable} {S : Set Word} (h : gdb.Holds S)
    (calls : List TableCall) :
    Ends (runTable gdb calls) (fun r => ∃ S', SetRun S calls r.1 S' ∧ r.2.Holds S')
      (fun _ => False) := by
  induction calls generalizing gdb S with
  | nil => exact ⟨S, .nil S, h⟩
  | cons c calls ih =>
    unfold runTable
    apply (c.run_ends h).bind
    rintro ⟨r, gdb'⟩ ⟨S', hstep, hS'⟩
    apply (ih hS').bind
    rintro ⟨rs, gdb''⟩ ⟨S'', hrun, hS''⟩
    exact ⟨S'', .cons hstep hrun, hS''⟩

/-- Addresses that differ are all taken, as long as there is room. -/
theorem runTable_adds {gdb : BreakpointTable} {S : Set Word} (h : gdb.Holds S) {l : List Word}
    (hnodup : l.Nodup) (hnew : ∀ a ∈ l, a ∉ S)
    (hroom : gdb.breakpointsNumber + l.length ≤ MAX_BREAKPOINTS_NUMBER) :
    Ends (runTable gdb (l.map .add))
      (fun r => r.2.Holds (S ∪ {a | a ∈ l}) ∧
        r.2.breakpointsNumber = gdb.breakpointsNumber + l.length) (fun _ => False) := by
  induction l generalizing gdb S with
  | nil => simpa [runTable] using h
  | cons a l ih =>
    obtain ⟨hal, hl⟩ := List.nodup_cons.mp hnodup
    rw [List.length_cons] at hroom ⊢
    rw [List.map_cons]
    unfold runTable
    apply (gdbAddBreakpoint_room h a (by omega)).bind
    rintro ⟨r, gdb'⟩ ⟨-, hS'⟩
    dsimp only at hS' ⊢
    -- The new address makes the table longer by one.
    have hnumber : gdb'.breakpointsNumber = gdb.breakpointsNumber + 1 := by
      rw [← hS'.ncard_eq, ← h.ncard_eq]
      exact Set.ncard_insert_of_notMem (hnew a List.mem_cons_self) h.finite
    have hnew' : ∀ b ∈ l, b ∉ insert a S := by
      rintro b hb (rfl | hbS)
      · exact hal hb
      · exact hnew b (List.mem_cons_of_mem a hb) hbS
    apply (ih hS' hl hnew' (by omega)).bind
    rintro ⟨rs, gdb''⟩ ⟨hS'', hn⟩
    refine ⟨?_, ?_⟩
    · have hset : S ∪ {b | b ∈ a :: l} = insert a S ∪ {b | b ∈ l} := by
        ext b
        simp only [Set.mem_union, Set.mem_ofPred_eq, List.mem_cons, Set.mem_insert_iff]
        tauto
      rw [hset]
      exact hS''
    · dsimp only at hn ⊢
      omega

theorem holds_empty (breakpoints : ℕ → Word) : BreakpointTable.Holds ⟨breakpoints, 0⟩ ∅ where
  bounded := Nat.zero_le _
  increasing := fun _ j _ hj => absurd hj (Nat.not_lt_zero j)
  entries_eq := entries_zero breakpoints

/-- Any addresses that fit into the table are the breakpoints of one. -/
theorem runTable_fills (breakpoints : ℕ → Word) {l : List Word} (hnodup : l.Nodup)
    (hroom : l.length ≤ MAX_BREAKPOINTS_NUMBER) :
    ∃ results gdb, runTable ⟨breakpoints, 0⟩ (l.map .add) = .ok (results, gdb) ∧
      gdb.Holds {a | a ∈ l} ∧ gdb.breakpointsNumber = l.length := by
  have hadds := runTable_adds (holds_empty breakpoints) hnodup (fun _ _ => Set.notMem_empty _)
    (by rwa [Nat.zero_add])
  obtain ⟨⟨results, gdb⟩, hrun, hS, hnumber⟩ := hadds.exists_ok
  rw [Set.empty_union] at hS
  rw [Nat.zero_add] at hnumber
  exact ⟨results, gdb, hrun, hS, hnumber⟩

/-- The breakpoint table refines a set: every sequence of calls on an empty table runs
without leaving the array, and leaves the sorted table of a set that the results account
for, in which the search finds exactly the members. -/
theorem breakpoint_table_refines_set (breakpoints : ℕ → Word) (calls : List TableCall) :
    ∃ results gdb S, runTable ⟨breakpoints, 0⟩ calls = .ok (results, gdb) ∧
      SetRun ∅ calls results S ∧
      Increasing BitVec.toNat gdb.breakpoints gdb.breakpointsNumber ∧
      gdb.breakpointsNumber ≤ MAX_BREAKPOINTS_NUMBER ∧
      entries gdb.breakpoints gdb.breakpointsNumber = S ∧
      ∀ address, ∃ r, gdbFindBreakpoint gdb address = .ok r ∧
        (∀ fuel, gdb.breakpointsNumber < fuel →
          gdbFindLoop gdb address fuel 0 gdb.breakpointsNumber = .ok r) ∧
        (address ∈ S → ∃ i : ℕ, r = i ∧ i < gdb.breakpointsNumber ∧ gdb.breakpoints i = address) ∧
        (address ∉ S → r = -1) := by
  obtain ⟨⟨results, gdb⟩, hrun, S, hset, hS⟩ :=
    (runTable_ends (holds_empty breakpoints) calls).exists_ok
  change gdb.Holds S at hS
  refine ⟨results, gdb, S, hrun, hset, hS.increasing, hS.bounded, hS.entries_eq, ?_⟩
  intro address
  -- The search on the table that the run leaves.
  obtain ⟨r, hr, hfound, hmem⟩ := gdbFindBreakpoint_spec hS address
  refine ⟨r, hr, ?_, ?_, ?_⟩
  · intro fuel hfuel
    rw [← hr]
    exact gdbFindLoop_fuel gdb address (by omega) (by omega)
  · intro ha
    exact hfound.resolve_right (fun hc => hmem.mpr ha hc.1)
  · intro ha
    by_contra hne
    exact ha (hmem.mp hne)

end ArmSim
