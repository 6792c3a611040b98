import ArmSim.Lib.Ends

/-! Computations that record events on their way to a value or a fault.  The events are what an
instrumented program tells about its run; the result is what is left when they are erased. -/
namespace ArmSim.Lib
variable {ω ε α β : Type}

/-- The events recorded up to the end, also where the end is a fault. -/
structure Recorded (ω ε α : Type) where
  events : List ω
  result : Except ε α

namespace Recorded

protected def pure (a : α) : Recorded ω ε α := ⟨[], .ok a⟩

protected def bind (x : Recorded ω ε α) (f : α → Recorded ω ε β) : Recorded ω ε β :=
  match x.result with
  | .ok a => ⟨x.events ++ (f a).events, (f a).result⟩
  | .error e => ⟨x.events, .error e⟩

instance : Monad (Recorded ω ε) where
  pure := Recorded.pure
  bind := Recorded.bind

def record (w : ω) : Recorded ω ε Unit := ⟨[w], .ok ()⟩

/-- A computation that records nothing. -/
def silent (x : Except ε α) : Recorded ω ε α := ⟨[], x⟩

variable {P : ω → Prop} {x : Recorded ω ε α} {f : α → Recorded ω ε β}

theorem bind_ok {a : α} (h : x.result = .ok a) :
    x >>= f = ⟨x.events ++ (f a).events, (f a).result⟩ := by
  change Recorded.bind x f = _
  unfold Recorded.bind
  rw [h]

theorem bind_error {e : ε} (h : x.result = .error e) : x >>= f = ⟨x.events, .error e⟩ := by
  change Recorded.bind x f = _
  unfold Recorded.bind
  rw [h]

/-- Every event of the run satisfies `P`. -/
def Always (P : ω → Prop) (x : Recorded ω ε α) : Prop := ∀ w ∈ x.events, P w

theorem Always.first (h : Always P (x >>= f)) : Always P x := by
  cases hx : x.result with
  | ok a =>
    rw [bind_ok hx] at h
    exact fun w hw => h w (List.mem_append_left _ hw)
  | error e =>
    rw [bind_error hx] at h
    exact h

/-- What holds always holds in the rest of the run. -/
theorem Always.rest (h : Always P (x >>= f)) {a : α} (hx : x.result = .ok a) : Always P (f a) := by
  rw [bind_ok hx] at h
  exact fun w hw => h w (List.mem_append_right _ hw)

/-- The run satisfies `P` throughout, and erasing its events leaves `r`. -/
structure Erases (P : ω → Prop) (x : Recorded ω ε α) (r : Except ε α) : Prop where
  always : Always P x
  result : x.result = r

theorem erases_pure (a : α) : Erases P (pure a : Recorded ω ε α) (.ok a) :=
  ⟨fun _ hw => absurd hw List.not_mem_nil, rfl⟩

theorem erases_record {w : ω} (h : P w) : Erases P (record w : Recorded ω ε Unit) (.ok ()) :=
  ⟨fun _ hv => List.mem_singleton.mp hv ▸ h, rfl⟩

theorem erases_silent (r : Except ε α) : Erases P (silent r : Recorded ω ε α) r :=
  ⟨fun _ hw => absurd hw List.not_mem_nil, rfl⟩

/-- Sequencing: the second part is looked at only where the first one returns. -/
theorem Erases.bind {r : Except ε α} {g : α → Except ε β} (hx : Erases P x r)
    (hf : ∀ a, r = .ok a → Erases P (f a) (g a)) : Erases P (x >>= f) (r >>= g) := by
  obtain ⟨halways, hresult⟩ := hx
  cases r with
  | error e =>
    rw [bind_error hresult]
    exact ⟨halways, rfl⟩
  | ok a =>
    obtain ⟨hrest, hlast⟩ := hf a rfl
    rw [bind_ok hresult]
    refine ⟨?_, hlast⟩
    intro w hw
    rcases List.mem_append.mp hw with hw | hw
    · exact halways w hw
    · exact hrest w hw

/-- Sequencing behind a part whose value is known. -/
theorem Erases.then {a : α} {r : Except ε β} (hx : Erases P x (.ok a)) (hf : Erases P (f a) r) :
    Erases P (x >>= f) r :=
  hx.bind (g := fun _ => r) (fun _ ha => Except.ok.inj ha ▸ hf)

theorem erases_ite {c : Prop} [Decidable c] {x y : Recorded ω ε α} {a b : α}
    (hx : c → Erases P x (.ok a)) (hy : ¬c → Erases P y (.ok b)) :
    Erases P (if c then x else y) (.ok (if c then a else b)) := by
  by_cases h : c
  · rw [if_pos h, if_pos h]
    exact hx h
  · rw [if_neg h, if_neg h]
    exact hy h

end Recorded

end ArmSim.Lib
