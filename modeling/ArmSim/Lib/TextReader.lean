import ArmSim.Lib.Ends

/-! Programs that read a text from its start and fault where they run out of it: what follows the
text cannot matter to one that does not. -/
namespace ArmSim.Lib
variable {α β γ ε : Type} {e : ε}

/-- `f` needs no more than a text on which it does not end in the fault `e`. -/
def ReadsPrefix (e : ε) (f : List α → Except ε β) : Prop :=
  ∀ s t, f s ≠ .error e → f (s ++ t) = f s

theorem readsPrefix_const (x : Except ε β) : ReadsPrefix e (fun _ : List α => x) :=
  fun _ _ _ => rfl

/-- Two readers one after the other, at places that do not depend on the text. -/
theorem ReadsPrefix.bind {f : List α → Except ε β} {g : β → List α → Except ε γ}
    (hf : ReadsPrefix e f) (hg : ∀ b, ReadsPrefix e (g b)) :
    ReadsPrefix e (fun s => f s >>= fun b => g b s) := by
  intro s t hne
  dsimp only at hne ⊢
  -- The fault of the first reader would be that of both.
  have hfirst : f s ≠ .error e := by
    intro hs
    rw [hs] at hne
    exact hne rfl
  rw [hf s t hfirst]
  cases hs : f s with
  | error e' => rfl
  | ok b =>
    rw [hs] at hne
    exact hg b s t hne

theorem ReadsPrefix.ite {c : Prop} [Decidable c] {f g : List α → Except ε β}
    (hf : ReadsPrefix e f) (hg : ReadsPrefix e g) :
    ReadsPrefix e (fun s => if c then f s else g s) := by
  split
  · exact hf
  · exact hg

/-- A reader that looks at the first character. -/
theorem readsPrefix_cons {f : List α → Except ε β} (hnil : f [] = .error e)
    (hcons : ∀ c, ReadsPrefix e (fun s => f (c :: s))) : ReadsPrefix e f := by
  intro s t hne
  cases s with
  | nil => exact absurd hnil hne
  | cons c s => exact hcons c s t hne

/-- A reader that starts at an offset. -/
theorem ReadsPrefix.drop {f : List α → Except ε β} (hf : ReadsPrefix e f) (hnil : f [] = .error e)
    (n : ℕ) : ReadsPrefix e (fun s => f (s.drop n)) := by
  intro s t hne
  dsimp only at hne ⊢
  rcases Nat.le_total n s.length with hle | hle
  · rw [List.drop_append_of_le_length hle]
    exact hf _ t hne
  · rw [List.drop_eq_nil_of_le hle] at hne
    exact absurd hnil hne

theorem readsPrefix_foldlM {f : List α → γ → β → Except ε γ}
    (hf : ∀ c b, ReadsPrefix e (fun s => f s c b)) (l : List β) (c : γ) :
    ReadsPrefix e (fun s => l.foldlM (f s) c) := by
  induction l generalizing c with
  | nil => exact readsPrefix_const _
  | cons b l ih =>
    simp only [List.foldlM_cons]
    exact (hf c b).bind ih

/-- A loop that carries its place along reads at the multiples of its step. -/
theorem foldlM_fields (f : γ → ℕ → List α → Except ε γ) (w : ℕ) (s : List α) (c : γ) (n : ℕ) :
    (List.range n).foldlM (fun (r : γ × List α) i =>
      (f r.1 i r.2 >>= fun c => pure (c, r.2.drop w))) (c, s) =
      ((List.range n).foldlM (fun c i => f c i (s.drop (w * i))) c >>= fun c =>
        pure (c, s.drop (w * n))) := by
  induction n with
  | zero => rfl
  | succ n ih =>
    rw [List.range_succ, List.foldlM_append, List.foldlM_append, ih]
    cases (List.range n).foldlM (fun c i => f c i (s.drop (w * i))) c with
    | error e => rfl
    | ok c' => simp [List.drop_drop, Nat.mul_succ]

end ArmSim.Lib
