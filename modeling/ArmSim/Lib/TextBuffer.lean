import ArmSim.Lib.Ends

/-! Text in a buffer: consecutive contents as a list, and stores that stay below a size. -/
namespace ArmSim.Lib
variable {α ε : Type}

/-- The `n` contents from index `i` on. -/
def slice (b : ℕ → α) (i n : ℕ) : List α := (List.range n).map (fun k => b (i + k))

@[simp] theorem slice_zero (b : ℕ → α) (i : ℕ) : slice b i 0 = [] := rfl

@[simp] theorem length_slice (b : ℕ → α) (i n : ℕ) : (slice b i n).length = n := by
  simp [slice]

theorem slice_add (b : ℕ → α) (i m n : ℕ) :
    slice b i (m + n) = slice b i m ++ slice b (i + m) n := by
  simp only [slice, List.range_add, List.map_append, List.map_map, Function.comp_def, Nat.add_assoc]

theorem slice_one (b : ℕ → α) (i : ℕ) : slice b i 1 = [b i] := rfl

theorem slice_cons (b : ℕ → α) (i n : ℕ) : slice b i (n + 1) = b i :: slice b (i + 1) n := by
  rw [Nat.add_comm n 1, slice_add, slice_one, List.singleton_append]

theorem slice_congr {b b' : ℕ → α} {i n : ℕ} (h : ∀ k, i ≤ k → k < i + n → b' k = b k) :
    slice b' i n = slice b i n := by
  apply List.map_congr_left
  intro k hk
  have hlt := List.mem_range.mp hk
  exact h (i + k) (by omega) (by omega)

theorem slice_lead {b : ℕ → α} {i m : ℕ} {s t : List α} (h : slice b i m = s ++ t) :
    slice b i s.length = s := by
  have hlen := congrArg List.length h
  rw [length_slice, List.length_append] at hlen
  rw [hlen, slice_add] at h
  exact (List.append_inj h (length_slice _ _ _)).1

/-- Store a text from index `i` on, in a buffer of `size` contents. -/
def storeText (fault : ε) (size : ℕ) (b : ℕ → α) (i : ℕ) : List α → Except ε (ℕ → α)
  | [] => return b
  | c :: s => if i < size then storeText fault size (Function.update b i c) (i + 1) s
    else throw fault

/-- A stored text is inside the buffer and found where it was stored, and nothing else changes. -/
theorem storeText_ends (fault : ε) (size : ℕ) (b : ℕ → α) (i : ℕ) (s : List α) :
    Ends (storeText fault size b i s)
      (fun b' => slice b' i s.length = s ∧ (∀ k, k < i ∨ i + s.length ≤ k → b' k = b k) ∧
        (s ≠ [] → i + s.length ≤ size))
      (fun e => e = fault ∧ size < i + s.length) := by
  induction s generalizing b i with
  | nil => exact ⟨rfl, fun _ _ => rfl, fun hne => absurd rfl hne⟩
  | cons c s ih =>
    unfold storeText
    apply ends_ite
    · intro hi
      apply (ih (Function.update b i c) (i + 1)).mono
      · rintro b' ⟨hs, hframe, hfit⟩
        have hb : b' i = c := by
          rw [hframe i (Or.inl (Nat.lt_succ_self i)), Function.update_self]
        refine ⟨?_, ?_, ?_⟩
        · rw [List.length_cons, slice_cons, hs, hb]
        · intro k hk
          rw [List.length_cons] at hk
          rw [hframe k (by omega), Function.update_of_ne (by omega)]
        · intro _
          rw [List.length_cons]
          cases s with
          | nil => exact hi
          | cons d s =>
            have hle := hfit (List.cons_ne_nil d s)
            omega
      · rintro e ⟨he, hlt⟩
        rw [List.length_cons]
        exact ⟨he, by omega⟩
    · intro hi
      rw [List.length_cons]
      exact ⟨rfl, by omega⟩

/-- Text stored at the end of a text appends to it. -/
theorem slice_append_of_frame {b b' : ℕ → α} {i : ℕ} {s t : List α}
    (hs : slice b i s.length = s) (ht : slice b' (i + s.length) t.length = t)
    (hframe : ∀ k, k < i + s.length → b' k = b k) :
    slice b' i (s ++ t).length = s ++ t := by
  rw [List.length_append, slice_add, ht, slice_congr (fun k _ hk => hframe k hk), hs]

section field
variable (w i : ℕ) {s : List α}

/-- The `i`-th of the consecutive fields of width `w`. -/
def field (s : List α) : List α := (s.drop (w * i)).take w

theorem length_field (h : w * i + w ≤ s.length) : (field w i s).length = w := by
  rw [field, List.length_take, List.length_drop]
  omega

theorem field_append_left (t : List α) (h : w * i + w ≤ s.length) :
    field w i (s ++ t) = field w i s := by
  rw [field, field, List.drop_append_of_le_length (by omega), List.take_append_of_le_length]
  rw [List.length_drop]
  omega

theorem field_append_right {k : ℕ} (t : List α) (h : s.length = w * k) :
    field w (k + i) (s ++ t) = field w i t := by
  have hdrop : (s ++ t).drop (w * (k + i)) = t.drop (w * i) := by
    rw [Nat.mul_add, ← h, List.drop_append]
    simp
  rw [field, hdrop, field]

/-- From the start of a field the text is that field and the rest. -/
theorem drop_eq_field_append (s : List α) :
    s.drop (w * i) = field w i s ++ s.drop (w * (i + 1)) := by
  have hrest : (s.drop (w * i)).drop w = s.drop (w * (i + 1)) := by
    rw [List.drop_drop, Nat.mul_succ]
  rw [← hrest]
  exact (List.take_append_drop w (s.drop (w * i))).symm

end field

end ArmSim.Lib
