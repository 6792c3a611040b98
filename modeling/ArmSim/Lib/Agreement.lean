import ArmSim.Lib.Ends

/-! Two computations side by side: they end in related values, or in the same fault.  One of
them can then stand for the other in whatever follows. -/
namespace ArmSim.Lib
variable {ε α α' β β' : Type}

/-- `x` and `y` both end in a value, and the values are in the relation `R`; or both in the same
fault. -/
def Agree (R : α → α' → Prop) (x : Except ε α) (y : Except ε α') : Prop :=
  match x, y with
  | .ok a, .ok b => R a b
  | .error e, .error f => e = f
  | .ok _, .error _ => False
  | .error _, .ok _ => False

variable {R : α → α' → Prop} {S : β → β' → Prop} {x : Except ε α} {y : Except ε α'}

@[simp] theorem agree_ok {a : α} {b : α'} :
    Agree R (.ok a : Except ε α) (.ok b) ↔ R a b := Iff.rfl

@[simp] theorem agree_error {e f : ε} :
    Agree R (.error e) (.error f) ↔ e = f := Iff.rfl

/-- One computation agrees with itself where its values are related to themselves. -/
theorem agree_self {R : α → α → Prop} (x : Except ε α) (hR : ∀ a, x = .ok a → R a a) :
    Agree R x x := by
  cases x with
  | ok a => exact hR a rfl
  | error e => rfl

/-- A value of the first is matched by one of the second. -/
theorem Agree.exists_ok (h : Agree R x y) {a : α} (hx : x = .ok a) : ∃ b, y = .ok b ∧ R a b := by
  subst hx
  cases y with
  | ok b => exact ⟨b, rfl, h⟩
  | error e => exact h.elim

theorem Agree.fault (h : Agree R x y) {e : ε} (hx : x = .error e) : y = .error e := by
  subst hx
  cases y with
  | ok b => exact h.elim
  | error f => exact congrArg Except.error (agree_error.mp h).symm

theorem Agree.imp {R' : α → α' → Prop} (h : Agree R x y) (hR : ∀ a b, R a b → R' a b) :
    Agree R' x y := by
  match x, y, h with
  | .ok a, .ok b, h => exact hR a b h
  | .error _, .error _, h => exact h

/-- Sequencing: related values lead to computations that agree. -/
theorem Agree.bind (h : Agree R x y) {f : α → Except ε β} {g : α' → Except ε β'}
    (hfg : ∀ a b, x = .ok a → y = .ok b → R a b → Agree S (f a) (g b)) :
    Agree S (x >>= f) (y >>= g) := by
  match x, y, h with
  | .ok a, .ok b, h => exact hfg a b rfl rfl h
  | .error _, .error _, h => exact h

/-- The same computation in front of two. -/
theorem agree_bind (x : Except ε α) {f : α → Except ε β} {g : α → Except ε β'}
    (hfg : ∀ a, x = .ok a → Agree S (f a) (g a)) : Agree S (x >>= f) (x >>= g) := by
  cases x with
  | ok a => exact hfg a rfl
  | error e => rfl

theorem agree_ite {c c' : Prop} [Decidable c] [Decidable c'] (hc : c ↔ c')
    {x' : Except ε α} {y' : Except ε α'} (ht : c → c' → Agree R x y)
    (hf : ¬c → ¬c' → Agree R x' y') :
    Agree R (if c then x else x') (if c' then y else y') := by
  by_cases h : c
  · rw [if_pos h, if_pos (hc.mp h)]
    exact ht h (hc.mp h)
  · rw [if_neg h, if_neg (fun h' => h (hc.mpr h'))]
    exact hf h (fun h' => h (hc.mpr h'))

/-- Two computations of which each ends in its own way agree where the ways go together. -/
theorem agree_of_ends {P : α → Prop} {Q : α' → Prop} {E F : ε → Prop} (hx : Ends x P E)
    (hy : Ends y Q F) (hvalue : ∀ a b, P a → Q b → R a b) (hfault : ∀ e f, E e → F f → e = f)
    (hone : ∀ a f, P a → ¬F f) (hother : ∀ e b, E e → ¬Q b) : Agree R x y := by
  match x, y with
  | .ok a, .ok b => exact hvalue a b hx hy
  | .error e, .error f => exact hfault e f hx hy
  | .ok a, .error f => exact hone a f hx hy
  | .error e, .ok b => exact hother e b hx hy

/-- A loop over the same list, whose two bodies keep a relation. -/
theorem agree_foldlM {ι : Type} {f : α → ι → Except ε α} {g : α' → ι → Except ε α'} {is : List ι}
    {a : α} {b : α'} (hR : R a b)
    (hbody : ∀ i ∈ is, ∀ a b, R a b → Agree R (f a i) (g b i)) :
    Agree R (is.foldlM f a) (is.foldlM g b) := by
  induction is generalizing a b with
  | nil => exact hR
  | cons i is ih =>
    rw [List.foldlM_cons, List.foldlM_cons]
    apply (hbody i List.mem_cons_self a b hR).bind
    intro a' b' _ _ hR'
    exact ih hR' (fun i hi => hbody i (List.mem_cons_of_mem _ hi))

/-- A traversal whose elements are computed alike. -/
theorem mapM_congr {ι : Type} {f g : ι → Except ε α} {is : List ι} (h : ∀ i ∈ is, f i = g i) :
    is.mapM f = is.mapM g := by
  induction is with
  | nil => rfl
  | cons i is ih =>
    rw [List.mapM_cons, List.mapM_cons, h i List.mem_cons_self,
      ih (fun j hj => h j (List.mem_cons_of_mem _ hj))]

/-- To agree in equal values is to be equal. -/
theorem Agree.eq {x y : Except ε α} (h : Agree (· = ·) x y) : x = y := by
  match x, y, h with
  | .ok a, .ok b, h => exact congrArg Except.ok h
  | .error _, .error _, h => exact congrArg Except.error h

/-- To agree in the values of a function is to be its image. -/
theorem Agree.eq_map {f : α → α'} (h : Agree (fun a b => b = f a) x y) : y = x.map f := by
  cases x with
  | ok a =>
    obtain ⟨b, hb, rfl⟩ := h.exists_ok rfl
    exact hb
  | error e => exact h.fault rfl

end ArmSim.Lib
