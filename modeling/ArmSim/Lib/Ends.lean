import Mathlib.Data.Nat.Notation
import Mathlib.Tactic.Common

/-! Two-sided postconditions for computations that end in a value or in a fault.
Both exits are specified at once, so that one pass over a program settles what
it returns and which faults it can raise. -/
namespace ArmSim.Lib
variable {ε α β : Type}

@[simp] theorem ok_bind (a : α) (f : α → Except ε β) : (Except.ok a >>= f) = f a := rfl

@[simp] theorem error_bind (e : ε) (f : α → Except ε β) :
    ((Except.error e : Except ε α) >>= f) = Except.error e := rfl

@[simp] theorem pure_eq_ok (a : α) : (pure a : Except ε α) = Except.ok a := rfl

@[simp] theorem throw_eq_error (e : ε) : (throw e : Except ε α) = Except.error e := rfl

/-- A computation has one value. -/
theorem ok_unique {x : Except ε α} {a b : α} (h : x = .ok a) (h' : x = .ok b) : a = b :=
  Except.ok.inj (h.symm.trans h')

theorem ok_unique_snd {x : Except ε (α × β)} {a a' : α} {b b' : β} (h : x = .ok (a, b))
    (h' : x = .ok (a', b')) : b = b' :=
  congrArg Prod.snd (ok_unique h h')

/-- A successful sequence is a success of each part. -/
theorem bind_eq_ok {x : Except ε α} {f : α → Except ε β} {b : β} :
    (x >>= f) = .ok b ↔ ∃ a, x = .ok a ∧ f a = .ok b := by
  cases x with
  | error e => simp
  | ok a => simp

theorem map_eq_ok {x : Except ε α} {f : α → β} {b : β} :
    x.map f = .ok b ↔ ∃ a, x = .ok a ∧ f a = b := by
  cases x with
  | error e => simp [Except.map]
  | ok a => simp [Except.map]

/-- The first component of a result tells that there is one. -/
theorem exists_of_map_fst {x : Except ε (α × β)} {a : α} (h : x.map Prod.fst = .ok a) :
    ∃ b, x = .ok (a, b) := by
  cases x with
  | error e => cases h
  | ok r =>
    have hr : r.1 = a := Except.ok.inj h
    exact ⟨r.2, by rw [← hr]⟩

theorem eq_error_of_map_fst {x : Except ε (α × β)} {e : ε} (h : x.map Prod.fst = .error e) :
    x = .error e := by
  cases x with
  | error e' => exact congrArg Except.error (Except.error.inj h)
  | ok r => cases h

/-- `x` ends in a value satisfying `P` or in a fault satisfying `E`. -/
def Ends (x : Except ε α) (P : α → Prop) (E : ε → Prop) : Prop :=
  match x with
  | .ok a => P a
  | .error e => E e

variable {P Q : α → Prop} {E F : ε → Prop}

@[simp] theorem ends_ok (a : α) : Ends (.ok a) P E ↔ P a := Iff.rfl

@[simp] theorem ends_error (e : ε) : Ends (.error e) P E ↔ E e := Iff.rfl

theorem Ends.value {x : Except ε α} (h : Ends x P E) {a : α} (hx : x = .ok a) : P a := by
  subst hx
  exact h

theorem Ends.fault {x : Except ε α} (h : Ends x P E) {e : ε} (hx : x = .error e) : E e := by
  subst hx
  exact h

theorem ends_trivial (x : Except ε α) : Ends x (fun _ => True) (fun _ => True) := by
  cases x <;> trivial

theorem Ends.mono {x : Except ε α} (h : Ends x P E) (hP : ∀ a, P a → Q a)
    (hE : ∀ e, E e → F e) : Ends x Q F := by
  cases x with
  | ok a => exact hP a h
  | error e => exact hE e h

theorem Ends.imp {x : Except ε α} (h : Ends x P E) (hP : ∀ a, P a → Q a) : Ends x Q E :=
  h.mono hP (fun _ he => he)

/-- Faults that cannot be leave a value. -/
theorem Ends.safe {x : Except ε α} (h : Ends x P E) (hE : ∀ e, ¬E e) :
    Ends x P (fun _ => False) :=
  h.mono (fun _ hP => hP) hE

/-- Two specifications of one computation hold together. -/
theorem Ends.both {x : Except ε α} (h : Ends x P E) (h' : Ends x Q F) :
    Ends x (fun a => P a ∧ Q a) (fun e => E e ∧ F e) := by
  cases x with
  | ok a => exact ⟨h, h'⟩
  | error e => exact ⟨h, h'⟩

theorem ends_of_value {x : Except ε α} (hP : ∀ a, x = .ok a → P a)
    (hE : ∀ e, x = .error e → E e) : Ends x P E := by
  cases x with
  | ok a => exact hP a rfl
  | error e => exact hE e rfl

/-- A computation without faults ends in a value. -/
theorem Ends.exists_ok {x : Except ε α} (h : Ends x P (fun _ => False)) :
    ∃ a, x = .ok a ∧ P a := by
  cases x with
  | ok a => exact ⟨a, rfl, h⟩
  | error e => exact h.elim

/-- Sequencing: the first part leads to a state from which the second part ends well. -/
theorem Ends.bind {x : Except ε α} {f : α → Except ε β} {R : β → Prop} (h : Ends x P E)
    (hf : ∀ a, P a → Ends (f a) R E) : Ends (x >>= f) R E := by
  cases x with
  | ok a => exact hf a h
  | error e => exact h

theorem Ends.map {x : Except ε α} {f : α → β} {R : β → Prop} (h : Ends x (fun a => R (f a)) E) :
    Ends (x.map f) R E := by
  cases x with
  | ok a => exact h
  | error e => exact h

theorem ends_ite {c : Prop} [Decidable c] {x y : Except ε α} (hx : c → Ends x P E)
    (hy : ¬c → Ends y P E) : Ends (if c then x else y) P E := by
  split
  · exact hx ‹_›
  · exact hy ‹_›

/-- The loop rule: an invariant of the counter, kept by every iteration, holds of the
last counter when the loop ends. -/
theorem ends_foldlM_range {σ : Type} (I : ℕ → σ → Prop) (f : σ → ℕ → Except ε σ) (n : ℕ) (s : σ)
    (hs : I 0 s) (step : ∀ i < n, ∀ s, I i s → Ends (f s i) (I (i + 1)) E) :
    Ends ((List.range n).foldlM f s) (I n) E := by
  induction n with
  | zero => exact hs
  | succ n ih =>
    rw [List.range_succ, List.foldlM_append]
    apply (ih (fun i hi => step i (by omega))).bind
    intro s' hs'
    exact (step n (by omega) s' hs').bind (fun _ h => h)

/-- The loop rule for a counter that starts at `a`. -/
theorem ends_foldlM_range' {σ : Type} (I : ℕ → σ → Prop) (f : σ → ℕ → Except ε σ) (a n : ℕ) (s : σ)
    (hs : I a s) (step : ∀ i, a ≤ i → i < a + n → ∀ s, I i s → Ends (f s i) (I (i + 1)) E) :
    Ends ((List.range' a n).foldlM f s) (I (a + n)) E := by
  induction n generalizing a s with
  | zero => exact hs
  | succ n ih =>
    rw [List.range'_succ, List.foldlM_cons]
    apply (step a (Nat.le_refl a) (by omega) s hs).bind
    intro s' hs'
    have hrest := ih (a + 1) s' hs' (fun i hi hlt => step i (by omega) (by omega))
    rwa [Nat.add_right_comm] at hrest

/-- A computation known to end in a value raises no fault. -/
theorem Ends.total {x : Except ε α} (h : Ends x P E) (hx : ∃ a, x = .ok a) :
    Ends x P (fun _ => False) := by
  obtain ⟨a, rfl⟩ := hx
  exact h

/-- A traversal raises only the faults of its elements. -/
theorem ends_mapM {f : α → Except ε β} {as : List α}
    (h : ∀ a ∈ as, Ends (f a) (fun _ => True) E) : Ends (as.mapM f) (fun _ => True) E := by
  induction as with
  | nil => trivial
  | cons a as ih =>
    rw [List.mapM_cons]
    apply (h a List.mem_cons_self).bind
    intro b _
    exact (ih (fun a ha => h a (List.mem_cons_of_mem _ ha))).bind (fun _ _ => trivial)

/-- A traversal that ends in a value has one of each element. -/
theorem exists_ok_of_mapM {f : α → Except ε β} {as : List α} {bs : List β}
    (h : as.mapM f = .ok bs) {a : α} (ha : a ∈ as) : ∃ b, f a = .ok b := by
  induction as generalizing bs with
  | nil => exact absurd ha List.not_mem_nil
  | cons a' as ih =>
    rw [List.mapM_cons] at h
    obtain ⟨b, hb, hlater⟩ := bind_eq_ok.mp h
    obtain ⟨bs', hbs', -⟩ := bind_eq_ok.mp hlater
    rcases List.mem_cons.mp ha with rfl | ha
    · exact ⟨b, hb⟩
    · exact ih hbs' ha

end ArmSim.Lib
