import Mathlib.Logic.Function.Basic

/-! A store of cells under names: when different names have different cells, writing
through the names behaves like a map from names to values. -/
namespace ArmSim.Lib
variable {σ κ ι ν : Type}

/-- Cells `κ` with contents `ν` inside a state `σ`, and the laws of reading them. -/
structure CellStore (σ κ ν : Type) where
  get : σ → κ → ν
  set : σ → κ → ν → σ
  get_set_self : ∀ s c v, get (set s c v) c = v
  get_set_of_ne : ∀ s c c' v, c' ≠ c → get (set s c v) c' = get s c'

variable (S : CellStore σ κ ν) (place : ι → κ) (named : ι → Prop)

/-- Every name in use finds its value of `f` in its cell of `s`. -/
def Represents (s : σ) (f : ι → ν) : Prop := ∀ i, named i → S.get s (place i) = f i

variable {S place named}

/-- A write through a name is an update of the map. -/
theorem Represents.set [DecidableEq ι] {s : σ} {f : ι → ν} (h : Represents S place named s f)
    (hinj : ∀ i j, named i → named j → place i = place j → i = j) {i : ι} (hi : named i) (v : ν) :
    Represents S place named (S.set s (place i) v) (Function.update f i v) := by
  intro j hj
  by_cases hji : j = i
  · subst hji
    rw [S.get_set_self, Function.update_self]
  · have hne : place j ≠ place i := fun he => hji (hinj j i hj hi he)
    rw [S.get_set_of_ne _ _ _ _ hne, Function.update_of_ne hji]
    exact h j hj

/-- So is a sequence of writes. -/
theorem Represents.foldl [DecidableEq ι] {s : σ} {f : ι → ν}
    (h : Represents S place named s f)
    (hinj : ∀ i j, named i → named j → place i = place j → i = j) (writes : List (ι × ν))
    (hw : ∀ w ∈ writes, named w.1) :
    Represents S place named (writes.foldl (fun s w => S.set s (place w.1) w.2) s)
      (writes.foldl (fun f w => Function.update f w.1 w.2) f) := by
  induction writes generalizing s f with
  | nil => exact h
  | cons w writes ih =>
    have hone := h.set hinj (hw w List.mem_cons_self) w.2
    exact ih hone (fun w' hw' => hw w' (List.mem_cons_of_mem _ hw'))

section cells
variable (S)

/-- The writes of a list, in its order. -/
def CellStore.setAll (s : σ) (writes : List (κ × ν)) : σ :=
  writes.foldl (fun s w => S.set s w.1 w.2) s

theorem CellStore.get_setAll_of_notMem (s : σ) {writes : List (κ × ν)} {c : κ}
    (h : c ∉ writes.map Prod.fst) : S.get (S.setAll s writes) c = S.get s c := by
  induction writes generalizing s with
  | nil => rfl
  | cons w writes ih =>
    rw [List.map_cons, List.mem_cons, not_or] at h
    calc S.get (S.setAll (S.set s w.1 w.2) writes) c
        = S.get (S.set s w.1 w.2) c := ih _ h.2
      _ = S.get s c := S.get_set_of_ne _ _ _ _ h.1

theorem CellStore.get_setAll_of_mem (s : σ) {writes : List (κ × ν)}
    (hnodup : (writes.map Prod.fst).Nodup) {w : κ × ν} (hw : w ∈ writes) :
    S.get (S.setAll s writes) w.1 = w.2 := by
  induction writes generalizing s with
  | nil => exact absurd hw List.not_mem_nil
  | cons w' writes ih =>
    rw [List.map_cons, List.nodup_cons] at hnodup
    rcases List.mem_cons.mp hw with rfl | hmem
    · calc S.get (S.setAll (S.set s w.1 w.2) writes) w.1
          = S.get (S.set s w.1 w.2) w.1 := S.get_setAll_of_notMem _ hnodup.1
        _ = w.2 := S.get_set_self _ _ _
    · exact ih _ hnodup.2 hmem

variable (hext : ∀ s t, (∀ c, S.get s c = S.get t c) → s = t)
include hext

/-- Writes to different cells leave the state as it was exactly when they put back what
the cells hold. -/
theorem CellStore.setAll_eq_self_iff (s : σ) {writes : List (κ × ν)}
    (hnodup : (writes.map Prod.fst).Nodup) :
    S.setAll s writes = s ↔ ∀ w ∈ writes, S.get s w.1 = w.2 := by
  constructor
  · intro h w hw
    rw [← S.get_setAll_of_mem s hnodup hw, h]
  · intro h
    apply hext
    intro c
    by_cases hc : c ∈ writes.map Prod.fst
    · obtain ⟨w, hw, rfl⟩ := List.mem_map.mp hc
      rw [S.get_setAll_of_mem s hnodup hw, h w hw]
    · exact S.get_setAll_of_notMem s hc

/-- A write to a cell that is written again leaves no trace. -/
theorem CellStore.setAll_set (s : σ) {writes : List (κ × ν)}
    (hnodup : (writes.map Prod.fst).Nodup) {c : κ} (hc : c ∈ writes.map Prod.fst) (v : ν) :
    S.setAll (S.set s c v) writes = S.setAll s writes := by
  apply hext
  intro c'
  by_cases hc' : c' ∈ writes.map Prod.fst
  · obtain ⟨w, hw, rfl⟩ := List.mem_map.mp hc'
    rw [S.get_setAll_of_mem _ hnodup hw, S.get_setAll_of_mem _ hnodup hw]
  · have hne : c' ≠ c := fun he => hc' (he ▸ hc)
    rw [S.get_setAll_of_notMem _ hc', S.get_setAll_of_notMem _ hc', S.get_set_of_ne _ _ _ _ hne]

end cells

/-- The last value written under a name. -/
def lastWritten [DecidableEq ι] (writes : List (ι × ν)) (i : ι) : Option ν :=
  (writes.reverse.find? (fun w => w.1 = i)).map Prod.snd

/-- A map after a sequence of writes holds the last value written under each name. -/
theorem foldl_update_apply [DecidableEq ι] (f : ι → ν) (writes : List (ι × ν)) (i : ι) :
    writes.foldl (fun f w => Function.update f w.1 w.2) f i =
      (lastWritten writes i).getD (f i) := by
  induction writes generalizing f with
  | nil => rfl
  | cons w writes ih =>
    rw [List.foldl_cons, ih]
    -- The first write counts only where no later one has the same name.
    unfold lastWritten
    rw [List.reverse_cons, List.find?_append]
    cases hlast : writes.reverse.find? (fun w => w.1 = i) with
    | some w' => rfl
    | none =>
      by_cases hi : w.1 = i
      · subst hi
        simp
      · have hne : i ≠ w.1 := fun h => hi h.symm
        simp [hi, Function.update_of_ne hne]

end ArmSim.Lib
