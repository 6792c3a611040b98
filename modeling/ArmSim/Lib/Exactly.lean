import ArmSim.Lib.Ends

/-! Computations that end in a value exactly under a condition.  The condition of a sequence is the
conjunction of those of its parts, each stated of what is there before the first. -/
namespace ArmSim.Lib
variable {ε α β : Type}

/-- `x` ends in a value if and only if `c` holds, and the value satisfies `P`. -/
def Exactly (x : Except ε α) (c : Prop) (P : α → Prop) : Prop :=
  Ends x (fun a => c ∧ P a) (fun _ => ¬c)

variable {x y : Except ε α} {c d : Prop} {P Q : α → Prop} {R : β → Prop}

/-- `x` ends in a value if and only if `c` holds. -/
abbrev ReturnsIff (x : Except ε α) (c : Prop) : Prop := Exactly x c (fun _ => True)

theorem Exactly.exists_iff (h : Exactly x c P) : (∃ a, x = .ok a) ↔ c := by
  constructor
  · intro hx
    obtain ⟨a, ha⟩ := hx
    exact (h.value ha).1
  · intro hc
    obtain ⟨a, ha, -⟩ := (h.safe (fun _ hnot => hnot hc)).exists_ok
    exact ⟨a, ha⟩

theorem exactly_ok {a : α} (h : P a) : Exactly (.ok a : Except ε α) True P := ⟨trivial, h⟩

theorem exactly_of_eq_ok {a : α} (hx : c → x = .ok a) (hP : c → P a)
    (hnot : ¬c → ∃ e, x = .error e) : Exactly x c P := by
  by_cases hc : c
  · rw [hx hc]
    exact ⟨hc, hP hc⟩
  · obtain ⟨e, he⟩ := hnot hc
    rw [he]
    exact hc

theorem Exactly.congr (h : Exactly x c P) (hcd : c ↔ d) : Exactly x d P :=
  h.mono (fun _ ha => ⟨hcd.mp ha.1, ha.2⟩) (fun _ hnot hd => hnot (hcd.mpr hd))

theorem Exactly.imp (h : Exactly x c P) (hPQ : c → ∀ a, P a → Q a) : Exactly x c Q :=
  h.mono (fun a ha => ⟨ha.1, hPQ ha.1 a ha.2⟩) (fun _ hnot => hnot)

theorem Exactly.returns (h : Exactly x c P) : ReturnsIff x c := h.imp (fun _ _ _ => trivial)

theorem returns_ok (a : α) : ReturnsIff (.ok a : Except ε α) True := exactly_ok trivial

/-- When a computation returns, and what it returns, can be shown apart. -/
theorem Exactly.and_ends {E : ε → Prop} (h : Exactly x c P) (h' : Ends x Q E) :
    Exactly x c (fun a => P a ∧ Q a) :=
  (h.both h').mono (fun _ ha => ⟨ha.1.1, ha.1.2, ha.2⟩) (fun _ he => he.1)

/-- Sequencing: the second part has one condition for all values of the first. -/
theorem Exactly.bind {f : α → Except ε β} (h : Exactly x c P)
    (hf : c → ∀ a, P a → Exactly (f a) d R) : Exactly (x >>= f) (c ∧ d) R := by
  unfold Exactly at h
  cases x with
  | ok a =>
    obtain ⟨hc, ha⟩ := h
    exact (hf hc a ha).congr (and_iff_right hc).symm
  | error e =>
    -- The error refutes the first condition already.
    exact fun hcd => h hcd.1

/-- A last part without a condition of its own. -/
theorem Exactly.bind_ok {f : α → β} (h : Exactly x c P) (hf : c → ∀ a, P a → R (f a)) :
    Exactly (x >>= fun a => .ok (f a)) c R :=
  (h.bind (d := True) (fun hc a ha => exactly_ok (hf hc a ha))).congr (and_iff_left trivial)

theorem exactly_ite {b : Prop} [Decidable b] (hx : b → Exactly x c P) (hy : ¬b → Exactly y c P) :
    Exactly (if b then x else y) c P :=
  ends_ite hx hy

/-- A part that is left out asks nothing. -/
theorem exactly_when {b : Prop} [Decidable b] {a : α} (hx : b → Exactly x c P) (ha : ¬b → P a) :
    Exactly (if b then x else .ok a) (b → c) P := by
  by_cases h : b
  · rw [if_pos h]
    exact (hx h).congr (imp_iff_right h).symm
  · rw [if_neg h]
    exact ⟨fun hb => absurd hb h, ha h⟩

/-- The loop rule: the loop ends if and only if every round does. -/
theorem exactly_foldlM_range {σ : Type} (I : ℕ → σ → Prop) (c : ℕ → Prop) (f : σ → ℕ → Except ε σ)
    (n : ℕ) (s : σ) (hs : I 0 s)
    (step : ∀ i < n, ∀ s, I i s → Exactly (f s i) (c i) (I (i + 1))) :
    Exactly ((List.range n).foldlM f s) (∀ i < n, c i) (I n) := by
  -- Induction on the number of rounds: the last one starts in what `I` says of those before.
  induction n with
  | zero => exact ⟨fun i hi => absurd hi (Nat.not_lt_zero i), hs⟩
  | succ n ih =>
    rw [List.range_succ, List.foldlM_append]
    have hbefore := ih (fun i hi => step i (Nat.lt_succ_of_lt hi))
    have hlast : ∀ s, I n s → Exactly ([n].foldlM f s) (c n) (I (n + 1)) := by
      intro s hs
      have hone : [n].foldlM f s = f s n := bind_pure (f s n)
      rw [hone]
      exact step n (Nat.lt_succ_self n) s hs
    refine (hbefore.bind (fun _ s hs => hlast s hs)).congr ?_
    exact Nat.forall_lt_succ_right.symm

end ArmSim.Lib
