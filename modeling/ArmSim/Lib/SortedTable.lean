import Mathlib.Data.Set.Card

/-! Sorted tables: the first `n` entries of an array, in the order of a key in any
linear order, as the set of their values.  Insertion and removal at an index, and the
interval of a binary search. -/
namespace ArmSim.Lib
variable {α κ : Type} [LinearOrder κ]

/-- The keys of the first `n` entries increase strictly. -/
def Increasing (key : α → κ) (t : ℕ → α) (n : ℕ) : Prop :=
  ∀ i j, i < j → j < n → key (t i) < key (t j)

/-- They do not decrease. -/
def Ascending (key : α → κ) (t : ℕ → α) (n : ℕ) : Prop :=
  ∀ i j, i < j → j < n → key (t i) ≤ key (t j)

/-- The values of the first `n` entries. -/
def entries (t : ℕ → α) (n : ℕ) : Set α := {a | ∃ i < n, t i = a}

variable {key : α → κ} {t u : ℕ → α} {n j : ℕ} {a : α}

theorem entries_zero (t : ℕ → α) : entries t 0 = ∅ := by
  ext a
  simp [entries]

theorem entries_finite (t : ℕ → α) (n : ℕ) : (entries t n).Finite :=
  (Set.finite_lt_nat n).image t

theorem entries_congr (h : ∀ i < n, u i = t i) : entries u n = entries t n := by
  ext a
  constructor
  · rintro ⟨i, hi, rfl⟩
    exact ⟨i, hi, (h i hi).symm⟩
  · rintro ⟨i, hi, rfl⟩
    exact ⟨i, hi, h i hi⟩

theorem Increasing.congr (ht : Increasing key t n) (h : ∀ i < n, u i = t i) :
    Increasing key u n := by
  intro i j hij hj
  rw [h i (hij.trans hj), h j hj]
  exact ht i j hij hj

theorem Increasing.ascending (ht : Increasing key t n) : Ascending key t n :=
  fun i j hij hj => (ht i j hij hj).le

theorem Ascending.congr (ht : Ascending key t n) (h : ∀ i < n, u i = t i) :
    Ascending key u n := by
  intro i j hij hj
  rw [h i (hij.trans hj), h j hj]
  exact ht i j hij hj

theorem Increasing.ne (ht : Increasing key t n) {i k : ℕ} (hik : i < k) (hk : k < n) :
    t i ≠ t k := fun he => (ht i k hik hk).ne (congrArg key he)

theorem Increasing.injOn (ht : Increasing key t n) : Set.InjOn t {i | i < n} := by
  intro i hi j hj hij
  rcases Nat.lt_trichotomy i j with h | h | h
  · exact absurd hij (ht.ne h hj)
  · exact h
  · exact absurd hij.symm (ht.ne h hi)

/-- As many values as entries. -/
theorem Increasing.ncard_entries (ht : Increasing key t n) : (entries t n).ncard = n := by
  have himage : entries t n = t '' {i | i < n} := rfl
  rw [himage, ht.injOn.ncard_image]
  have hfin : {i | i < n} = (Finset.range n : Set ℕ) := by
    ext i
    simp
  rw [hfin, Set.ncard_coe_finset, Finset.card_range]

/-- The table with `a` put in at index `j`. -/
def insertAt (t : ℕ → α) (j : ℕ) (a : α) (i : ℕ) : α :=
  if i < j then t i else if i = j then a else t (i - 1)

/-- A relation between the entries in their order is kept where it holds of `a` and its place. -/
theorem insertAt_ordered {r : α → α → Prop} (ht : ∀ i k, i < k → k < n → r (t i) (t k))
    (hj : j ≤ n) (hbelow : ∀ i < j, r (t i) a) (habove : ∀ i, j ≤ i → i < n → r a (t i)) :
    ∀ i k, i < k → k < n + 1 → r (insertAt t j a i) (insertAt t j a k) := by
  intro i k hik hk
  -- The two indices lie on the same side of `j`, or `j` is between them or one of them.
  unfold Lib.insertAt
  rcases Nat.lt_trichotomy i j with hi | rfl | hi
  · rw [if_pos hi]
    rcases Nat.lt_trichotomy k j with hkj | rfl | hkj
    · rw [if_pos hkj]
      exact ht i k hik (by omega)
    · rw [if_neg (Nat.lt_irrefl _), if_pos rfl]
      exact hbelow i hi
    · rw [if_neg (by omega), if_neg (by omega)]
      exact ht i (k - 1) (by omega) (by omega)
  · rw [if_neg (Nat.lt_irrefl _), if_pos rfl, if_neg (by omega), if_neg (by omega)]
    exact habove (k - 1) (by omega) (by omega)
  · rw [if_neg (by omega), if_neg (by omega), if_neg (by omega), if_neg (by omega)]
    exact ht (i - 1) (k - 1) (by omega) (by omega)

theorem Increasing.insertAt (ht : Increasing key t n) (hj : j ≤ n)
    (hbelow : ∀ i < j, key (t i) < key a) (habove : ∀ i, j ≤ i → i < n → key a < key (t i)) :
    Increasing key (insertAt t j a) (n + 1) :=
  insertAt_ordered (r := fun x y => key x < key y) ht hj hbelow habove

theorem Ascending.insertAt (ht : Ascending key t n) (hj : j ≤ n)
    (hbelow : ∀ i < j, key (t i) ≤ key a) (habove : ∀ i, j ≤ i → i < n → key a ≤ key (t i)) :
    Ascending key (insertAt t j a) (n + 1) :=
  insertAt_ordered (r := fun x y => key x ≤ key y) ht hj hbelow habove

theorem entries_insertAt (hj : j ≤ n) :
    entries (insertAt t j a) (n + 1) = insert a (entries t n) := by
  ext b
  constructor
  · rintro ⟨i, hi, rfl⟩
    unfold insertAt
    split
    · exact Or.inr ⟨i, by omega, rfl⟩
    · split
      · exact Or.inl rfl
      · exact Or.inr ⟨i - 1, by omega, rfl⟩
  · rintro (rfl | ⟨i, hi, rfl⟩)
    · refine ⟨j, by omega, ?_⟩
      unfold insertAt
      rw [if_neg (Nat.lt_irrefl _), if_pos rfl]
    · by_cases hij : i < j
      · refine ⟨i, by omega, ?_⟩
        unfold insertAt
        rw [if_pos hij]
      · refine ⟨i + 1, by omega, ?_⟩
        unfold insertAt
        rw [if_neg (by omega), if_neg (by omega), Nat.add_sub_cancel]

/-- The table without the entry at index `j`. -/
def removeAt (t : ℕ → α) (j : ℕ) (i : ℕ) : α := if i < j then t i else t (i + 1)

theorem Increasing.removeAt (ht : Increasing key t n) (hj : j < n) :
    Increasing key (removeAt t j) (n - 1) := by
  intro i k hik hk
  unfold Lib.removeAt
  by_cases hi : i < j
  · by_cases hkj : k < j
    · rw [if_pos hi, if_pos hkj]
      exact ht i k hik (by omega)
    · rw [if_pos hi, if_neg hkj]
      exact ht i (k + 1) (by omega) (by omega)
  · rw [if_neg hi, if_neg (by omega)]
    exact ht (i + 1) (k + 1) (by omega) (by omega)

theorem Increasing.entries_removeAt (ht : Increasing key t n) (hj : j < n) :
    entries (Lib.removeAt t j) (n - 1) = entries t n \ {t j} := by
  ext b
  constructor
  · rintro ⟨i, hi, rfl⟩
    unfold Lib.removeAt
    by_cases hij : i < j
    · rw [if_pos hij]
      exact ⟨⟨i, by omega, rfl⟩, ht.ne hij hj⟩
    · rw [if_neg hij]
      exact ⟨⟨i + 1, by omega, rfl⟩, (ht.ne (show j < i + 1 by omega) (by omega)).symm⟩
  · rintro ⟨⟨i, hi, rfl⟩, hne⟩
    have hij : i ≠ j := by
      rintro rfl
      exact hne rfl
    by_cases hlt : i < j
    · refine ⟨i, by omega, ?_⟩
      unfold Lib.removeAt
      rw [if_pos hlt]
    · refine ⟨i - 1, by omega, ?_⟩
      unfold Lib.removeAt
      rw [if_neg (by omega), Nat.sub_add_cancel (by omega)]

/-- Every index that holds `a` lies in `[lo, hi)`: the invariant of a binary search. -/
def Confined (t : ℕ → α) (n : ℕ) (a : α) (lo hi : ℕ) : Prop :=
  ∀ i < n, t i = a → lo ≤ i ∧ i < hi

theorem confined_all (t : ℕ → α) (n : ℕ) (a : α) : Confined t n a 0 n :=
  fun i hi _ => ⟨Nat.zero_le i, hi⟩

variable {lo hi m : ℕ}

theorem Ascending.confined_left (ht : Ascending key t n) (h : Confined t n a lo hi)
    (hgt : key a < key (t m)) : Confined t n a lo m := by
  intro i hi hia
  subst hia
  refine ⟨(h i hi rfl).1, ?_⟩
  by_contra hmi
  rcases Nat.eq_or_lt_of_le (Nat.le_of_not_lt hmi) with rfl | hlt
  · exact hgt.ne rfl
  · exact (ht m i hlt hi).not_gt hgt

theorem Ascending.confined_right (ht : Ascending key t n) (h : Confined t n a lo hi) (hm : m < n)
    (hlt : key (t m) < key a) : Confined t n a (m + 1) hi := by
  intro i hi' hia
  subst hia
  refine ⟨?_, (h i hi' rfl).2⟩
  by_contra hmi
  rcases Nat.eq_or_lt_of_le (Nat.le_of_lt_succ (Nat.lt_of_not_le hmi)) with rfl | hlt'
  · exact hlt.ne rfl
  · exact (ht i m hlt' hm).not_gt hlt

theorem Confined.left (h : Confined t n a lo hi) (ht : Increasing key t n)
    (hgt : key a < key (t m)) : Confined t n a lo m := ht.ascending.confined_left h hgt

theorem Confined.right (h : Confined t n a lo hi) (ht : Increasing key t n) (hm : m < n)
    (hlt : key (t m) < key a) : Confined t n a (m + 1) hi := ht.ascending.confined_right h hm hlt

theorem Confined.notMem (h : Confined t n a lo hi) (hle : hi ≤ lo) : a ∉ entries t n := by
  rintro ⟨i, hi', hia⟩
  have hc := h i hi' hia
  omega

end ArmSim.Lib
