import Mathlib.Data.List.Infix
import Mathlib.Data.Nat.Notation

/-! Longest-match tokenisation: at each point of the input the longest nonempty prefix
that a rule matches is taken, by the earliest of the rules that match it, and a
character that no rule can start with is a token of its own. -/
namespace ArmSim.Lib
variable {α : Type} (rules : List (List α → Bool))

/-- The earliest rule that matches the whole of `w`. -/
def earliestRule (w : List α) : Option ℕ := rules.findIdx? (fun rule => rule w)

/-- The longest match among the nonempty prefixes of `s` of length at most `n`. -/
def longestUpTo (s : List α) : ℕ → Option (ℕ × List α)
  | 0 => none
  | n + 1 =>
    match earliestRule rules (s.take (n + 1)) with
    | some rule => some (rule, s.take (n + 1))
    | none => longestUpTo s n

def longestMatch (s : List α) : Option (ℕ × List α) := longestUpTo rules s s.length

/-- The rule of a token, none for the default rule, and its text. -/
structure Token (α : Type) where
  rule : Option ℕ
  text : List α
deriving DecidableEq, Repr

/-- The first `n` tokens of an input. -/
def tokensUpTo : ℕ → List α → List (Token α)
  | 0, _ => []
  | _ + 1, [] => []
  | n + 1, c :: s =>
    match longestMatch rules (c :: s) with
    | some (rule, text) => ⟨some rule, text⟩ :: tokensUpTo n ((c :: s).drop text.length)
    | none => ⟨none, [c]⟩ :: tokensUpTo n s

/-- The tokens of an input: as many as it has characters are enough. -/
def tokens (s : List α) : List (Token α) := tokensUpTo rules s.length s

variable {rules}

/-- A match that no longer prefix exceeds is the longest. -/
theorem longestMatch_append {w rest : List α} {rule : ℕ} (hw : w ≠ [])
    (hrule : earliestRule rules w = some rule)
    (hmax : ∀ v, v <+: w ++ rest → w.length < v.length → earliestRule rules v = none) :
    longestMatch rules (w ++ rest) = some (rule, w) := by
  -- The search comes down from the whole input, past prefixes no rule matches.
  have hle : ∀ n, w.length ≤ n → n ≤ (w ++ rest).length →
      longestUpTo rules (w ++ rest) n = some (rule, w) := by
    intro n hn
    induction n with
    | zero => exact absurd (List.length_eq_zero_iff.mp (Nat.le_zero.mp hn)) hw
    | succ n ih =>
      intro hlen
      unfold longestUpTo
      rcases Nat.eq_or_lt_of_le hn with heq | hlt
      · rw [← heq, List.take_left, hrule]
      · have hnone : earliestRule rules ((w ++ rest).take (n + 1)) = none := by
          refine hmax _ (List.take_prefix _ _) ?_
          rw [List.length_take]
          omega
        rw [hnone]
        exact ih (by omega) (by omega)
  exact hle _ (by rw [List.length_append]; omega) (Nat.le_refl _)

/-- There is no longest match when no rule matches a nonempty prefix. -/
theorem longestMatch_none {s : List α}
    (h : ∀ v, v <+: s → v ≠ [] → earliestRule rules v = none) : longestMatch rules s = none := by
  have hall : ∀ n, n ≤ s.length → longestUpTo rules s n = none := by
    intro n
    induction n with
    | zero => exact fun _ => rfl
    | succ n ih =>
      intro hlen
      have hne : s.take (n + 1) ≠ [] := by
        intro he
        have hz : (s.take (n + 1)).length = 0 := by rw [he]; rfl
        rw [List.length_take] at hz
        omega
      unfold longestUpTo
      rw [h _ (List.take_prefix _ _) hne]
      exact ih (by omega)
  exact hall _ (Nat.le_refl _)

theorem longestUpTo_length {s text : List α} {rule n : ℕ} (hn : n ≤ s.length)
    (h : longestUpTo rules s n = some (rule, text)) : 0 < text.length := by
  induction n with
  | zero => cases h
  | succ n ih =>
    unfold longestUpTo at h
    split at h
    · cases h
      rw [List.length_take]
      omega
    · exact ih (by omega) h

/-- The number of tokens asked for does not matter once it covers the input. -/
theorem tokensUpTo_eq {s : List α} {n m : ℕ} (hn : s.length ≤ n) (hm : s.length ≤ m) :
    tokensUpTo rules n s = tokensUpTo rules m s := by
  induction n generalizing s m with
  | zero =>
    have hs : s = [] := List.length_eq_zero_iff.mp (Nat.le_zero.mp hn)
    subst hs
    cases m <;> rfl
  | succ n ih =>
    cases s with
    | nil => cases m <;> rfl
    | cons c s =>
      cases m with
      | zero => exact absurd hm (by simp)
      | succ m =>
        simp only [List.length_cons] at hn hm
        unfold tokensUpTo
        cases hl : longestMatch rules (c :: s) with
        | none =>
          dsimp only
          rw [ih (m := m) (by omega) (by omega)]
        | some r =>
          have hpos := longestUpTo_length (Nat.le_refl _) hl
          have hdrop : ((c :: s).drop r.2.length).length ≤ s.length := by
            rw [List.length_drop, List.length_cons]
            omega
          dsimp only
          rw [ih (m := m) (by omega) (by omega)]

@[simp] theorem tokens_nil : tokens rules [] = [] := rfl

theorem tokens_match {w rest : List α} {rule : ℕ} (hw : w ≠ [])
    (h : longestMatch rules (w ++ rest) = some (rule, w)) :
    tokens rules (w ++ rest) = ⟨some rule, w⟩ :: tokens rules rest := by
  cases w with
  | nil => exact absurd rfl hw
  | cons c w =>
    have hdrop : (c :: (w ++ rest)).drop (c :: w).length = rest := by simp
    unfold tokens
    rw [List.cons_append, List.length_cons, tokensUpTo, ← List.cons_append, h]
    dsimp only
    rw [List.cons_append, hdrop, tokensUpTo_eq (by simp) (Nat.le_refl _)]

theorem tokens_default {c : α} {s : List α} (h : longestMatch rules (c :: s) = none) :
    tokens rules (c :: s) = ⟨none, [c]⟩ :: tokens rules s := by
  unfold tokens
  rw [List.length_cons, tokensUpTo, h]

/-- The only selected prefix is the only one left. -/
theorem filter_inits_eq {s w : List α} {P : List α → Bool} (hw : w <+: s) (hP : P w = true)
    (huniq : ∀ v, v <+: s → P v = true → v = w) : s.inits.filter P = [w] := by
  induction s generalizing w P with
  | nil =>
    have hnil : w = [] := List.prefix_nil.mp hw
    subst hnil
    simp [hP]
  | cons c s ih =>
    rw [List.inits_cons]
    cases w with
    | nil =>
      rw [List.filter_cons_of_pos hP, List.filter_eq_nil_iff.mpr]
      intro v hv hPv
      obtain ⟨u, hu, rfl⟩ := List.mem_map.mp hv
      have hpre : c :: u <+: c :: s := List.cons_prefix_cons.mpr ⟨rfl, (List.mem_inits _ _).mp hu⟩
      exact absurd (huniq _ hpre hPv) (List.cons_ne_nil _ _)
    | cons d w =>
      obtain ⟨rfl, hws⟩ := List.cons_prefix_cons.mp hw
      have hnil : P [] = false := by
        rw [← Bool.not_eq_true]
        exact fun hPnil => absurd (huniq [] List.nil_prefix hPnil).symm (List.cons_ne_nil _ _)
      rw [List.filter_cons_of_neg (by simp [hnil]), List.filter_map]
      have hrest := ih (w := w) (P := fun u => P (d :: u)) hws hP (fun v hv hPv => by
        have hd := huniq (d :: v) (List.cons_prefix_cons.mpr ⟨rfl, hv⟩) hPv
        exact (List.cons.inj hd).2)
      exact congrArg (List.map (fun u => d :: u)) hrest

end ArmSim.Lib
