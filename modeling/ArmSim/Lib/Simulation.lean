import Mathlib.Data.List.Basic
import Mathlib.Tactic.Common

/-! Systems whose steps carry labels: their runs, what an invariant says of a run, and
what a step of one system that is matched by another says of the runs of both. -/
namespace ArmSim.Lib
variable {σ τ L M : Type}

/-- A run: the labels of its steps lead from the first state to the last. -/
inductive Runs (step : L → σ → σ → Prop) : List L → σ → σ → Prop
  | nil (s : σ) : Runs step [] s s
  | cons {l : L} {ls : List L} {s t u : σ} (head : step l s t) (tail : Runs step ls t u) :
      Runs step (l :: ls) s u

variable {step : L → σ → σ → Prop} {ls ls' : List L} {s t u : σ}

theorem Runs.single {l : L} (h : step l s t) : Runs step [l] s t := .cons h (.nil t)

/-- Two runs, the second from where the first ends, make one. -/
theorem Runs.append (h : Runs step ls s t) (h' : Runs step ls' t u) :
    Runs step (ls ++ ls') s u := by
  induction h with
  | nil s => exact h'
  | cons head _ ih => exact .cons head (ih h')

/-- What every step of a run keeps holds at its end. -/
theorem Runs.invariant {I : σ → Prop} (keep : ∀ l ∈ ls, ∀ s t, I s → step l s t → I t)
    (h : Runs step ls s t) (hs : I s) : I t := by
  induction h with
  | nil s => exact hs
  | cons head _ ih =>
    have hnext := keep _ List.mem_cons_self _ _ hs head
    exact ih (fun l hl => keep l (List.mem_cons_of_mem _ hl)) hnext

/-- What the labels of steps from within an invariant have, all labels of a run have. -/
theorem Runs.labels {I : σ → Prop} {P : L → Prop}
    (keep : ∀ l s t, I s → step l s t → I t ∧ P l) (h : Runs step ls s t) (hs : I s) :
    ∀ l ∈ ls, P l := by
  induction h with
  | nil s => exact fun l hl => absurd hl List.not_mem_nil
  | cons head _ ih =>
    obtain ⟨hnext, hlabel⟩ := keep _ _ _ hs head
    intro k hk
    rcases List.mem_cons.mp hk with rfl | hk
    · exact hlabel
    · exact ih hnext k hk

/-- The steps that are no exits. -/
def Without (step exit : L → σ → σ → Prop) (l : L) (s t : σ) : Prop := step l s t ∧ ¬exit l s t

/-- Where each step that is no exit keeps an invariant, a run without exits keeps it, and any other
has a first exit, up to which it is kept. -/
theorem Runs.keeps_or_exits {I : σ → Prop} {exit : L → σ → σ → Prop}
    (keep : ∀ l ∈ ls, ∀ s t, I s → step l s t → ¬exit l s t → I t) (h : Runs step ls s t)
    (hs : I s) :
    Runs (Without step exit) ls s t ∧ I t ∨
      ∃ ks l ks' u v, ls = ks ++ l :: ks' ∧ Runs (Without step exit) ks s u ∧ I u ∧ step l u v ∧
        exit l u v ∧ Runs step ks' v t := by
  induction h with
  | nil s => exact Or.inl ⟨.nil s, hs⟩
  | @cons l ls s t u head tail ih =>
    by_cases hexit : exit l s t
    · exact Or.inr ⟨[], l, ls, s, t, rfl, .nil s, hs, head, hexit, tail⟩
    have hinside : Without step exit l s t := ⟨head, hexit⟩
    have ht := keep l List.mem_cons_self s t hs head hexit
    rcases ih (fun k hk => keep k (List.mem_cons_of_mem l hk)) ht with hrest | hlater
    · exact Or.inl ⟨.cons hinside hrest.1, hrest.2⟩
    · obtain ⟨ks, k, ks', v, w, rfl, hbefore, hlater⟩ := hlater
      exact Or.inr ⟨l :: ks, k, ks', v, w, rfl, .cons hinside hbefore, hlater⟩

/-- A preorder between the ends of every step is one between the ends of every run. -/
theorem Runs.related {R : σ → σ → Prop} (refl : ∀ s, R s s)
    (trans : ∀ s t u, R s t → R t u → R s u)
    (keep : ∀ l ∈ ls, ∀ s t, step l s t → R s t) (h : Runs step ls s t) : R s t := by
  -- The invariant is the relation to where the run starts.
  refine h.invariant (I := R s) (fun l hl t u ht hstep => ?_) (refl s)
  exact trans s t u ht (keep l hl t u hstep)

/-- The steps of another relation with the same labels make the same runs. -/
theorem Runs.mono {step' : L → σ → σ → Prop} (h : Runs step ls s t)
    (hstep : ∀ l ∈ ls, ∀ s t, step l s t → step' l s t) : Runs step' ls s t := by
  induction h with
  | nil s => exact .nil s
  | cons head _ ih =>
    exact .cons (hstep _ List.mem_cons_self _ _ head)
      (ih (fun l hl => hstep l (List.mem_cons_of_mem _ hl)))

section simulation
variable {stepB : M → τ → τ → Prop}

/-- Every step of the first system that a label of the second stands for is matched there. -/
def Simulates (step : L → σ → σ → Prop) (stepB : M → τ → τ → Prop) (label : M → L)
    (R : σ → τ → Prop) : Prop :=
  ∀ m s s' t, R s t → step (label m) s s' → ∃ t', stepB m t t' ∧ R s' t'

/-- A simulation of steps is one of runs. -/
theorem Simulates.runs {label : M → L} {R : σ → τ → Prop}
    (hsim : Simulates step stepB label R) {ms : List M} {s' : σ} {t : τ}
    (h : Runs step (ms.map label) s s') (hR : R s t) :
    ∃ t', Runs stepB ms t t' ∧ R s' t' := by
  induction ms generalizing s t with
  | nil =>
    cases h with
    | nil => exact ⟨t, .nil t, hR⟩
  | cons m ms ih =>
    cases h with
    | cons head tail =>
      obtain ⟨t₁, hstep, hR₁⟩ := hsim m _ _ t hR head
      obtain ⟨t', hruns, hR'⟩ := ih tail hR₁
      exact ⟨t', .cons hstep hruns, hR'⟩

end simulation

/-- A list with some of the labels in `drop` left out; all that stay are in `keep`. -/
inductive Erases (keep drop : L → Prop) : List L → List L → Prop
  | nil : Erases keep drop [] []
  | keep {l : L} {ls ks : List L} (h : keep l) (rest : Erases keep drop ls ks) :
      Erases keep drop (l :: ls) (l :: ks)
  | drop {l : L} {ls ks : List L} (h : drop l) (rest : Erases keep drop ls ks) :
      Erases keep drop (l :: ls) ks

/-- What passes a test stays, and what fails it is left out. -/
theorem erases_filter {keep drop p : L → Prop} [DecidablePred p] {ls : List L}
    (hkeep : ∀ l ∈ ls, p l → keep l) (hdrop : ∀ l ∈ ls, ¬p l → drop l) :
    Erases keep drop ls (ls.filter fun l => p l) := by
  induction ls with
  | nil => exact .nil
  | cons l ls ih =>
    have hrest := ih (fun k hk => hkeep k (List.mem_cons_of_mem l hk))
      (fun k hk => hdrop k (List.mem_cons_of_mem l hk))
    by_cases hl : p l
    · rw [List.filter_cons_of_pos (by simpa using hl)]
      exact .keep (hkeep l List.mem_cons_self hl) hrest
    · rw [List.filter_cons_of_neg (by simpa using hl)]
      exact .drop (hdrop l List.mem_cons_self hl) hrest

/-- Where related states match the steps that are kept, and the others do not leave the relation,
the run without them is one of the same system. -/
theorem Erases.runs {keep drop : L → Prop} {R : σ → σ → Prop} {ls ks : List L}
    (h : Erases keep drop ls ks)
    (hkeep : ∀ l, keep l → ∀ s s' t, R s t → step l s s' → ∃ t', step l t t' ∧ R s' t')
    (hdrop : ∀ l, drop l → ∀ s s' t, R s t → step l s s' → R s' t)
    {s s' t : σ} (hrun : Runs step ls s s') (hR : R s t) :
    ∃ t', Runs step ks t t' ∧ R s' t' := by
  induction h generalizing s t with
  | nil =>
    cases hrun with
    | nil => exact ⟨t, .nil t, hR⟩
  | keep hl _ ih =>
    cases hrun with
    | cons head tail =>
      obtain ⟨t₁, hstep, hR₁⟩ := hkeep _ hl _ _ t hR head
      obtain ⟨t', hruns, hR'⟩ := ih tail hR₁
      exact ⟨t', .cons hstep hruns, hR'⟩
  | drop hl _ ih =>
    cases hrun with
    | cons head tail => exact ih tail (hdrop _ hl _ _ t hR head)

end ArmSim.Lib
