import Scbl.Lib.Panic

/-!
# Request handlers

A handler reads who calls, changes a state, and answers or fails; a failure keeps the changes made before it. It may also panic.
`Ends` says that a handler ends in a state and with an outcome as wanted, and not in a panic; it is computed along the handler, with
one rule for each way of composing handlers. `Total` handlers end from every state.
-/

namespace Scbl.Lib

/-- A handler for callers in `C`, on states in `σ`, with failures in `ε`. -/
def Handler (C σ ε α : Type) : Type := C → σ → Except Panic (σ × Except ε α)

namespace Handler

variable {C σ ε α β : Type}

instance : Monad (Handler C σ ε) where
  pure a := fun _ s => .ok (s, .ok a)
  bind h f := fun c s =>
    match h c s with
    | .ok (s', .ok a) => f a c s'
    | .ok (s', .error e) => .ok (s', .error e)
    | .error p => .error p

/-- Fail. -/
def fail (e : ε) : Handler C σ ε α := fun _ s => .ok (s, .error e)

/-- Who calls. -/
def caller : Handler C σ ε C := fun c s => .ok (s, .ok c)

/-- Change the state, and answer or fail. -/
def operate (f : σ → σ × Except ε α) : Handler C σ ε α := fun _ s => .ok (f s)

/-- Read from the state. -/
def inspect (f : σ → α) : Handler C σ ε α := operate (fun s => (s, .ok (f s)))

/-- Change the state. -/
def change (f : σ → σ) : Handler C σ ε Unit := operate (fun s => (f s, .ok ()))

/-- The result of a computation that fails or not. -/
def orFail (x : Except ε α) : Handler C σ ε α := operate (fun s => (s, x))

/-- The result of a computation that panics or not. -/
def orPanic (x : Except Panic α) : Handler C σ ε α := fun _ s =>
  match x with
  | .ok a => .ok (s, .ok a)
  | .error p => .error p

/-- A sequence goes on with what its first part answers. -/
theorem bind_of_ok {h : Handler C σ ε β} {f : β → Handler C σ ε α} {c : C} {s s' : σ} {b : β} (hb : h c s = .ok (s', .ok b)) :
    (h >>= f) c s = f b c s' := by
  simp only [bind, hb]

/-- A sequence panics when its first part does. -/
theorem bind_of_error {h : Handler C σ ε β} {f : β → Handler C σ ε α} {c : C} {s : σ} {p : Panic} (hp : h c s = .error p) :
    (h >>= f) c s = .error p := by
  simp only [bind, hp]

/-- A sequence ends when its first part fails, or when it answers and the second part ends. -/
theorem bind_ends {h : Handler C σ ε β} {f : β → Handler C σ ε α} {c : C} {s s' : σ} {r : Except ε α}
    (hend : (h >>= f) c s = .ok (s', r)) :
    (∃ s₁ b, h c s = .ok (s₁, .ok b) ∧ f b c s₁ = .ok (s', r)) ∨ ∃ e, h c s = .ok (s', .error e) ∧ r = .error e := by
  simp only [bind] at hend
  cases hh : h c s with
  | error p =>
    rw [hh] at hend
    nomatch hend
  | ok first =>
    obtain ⟨s₁, outcome⟩ := first
    rw [hh] at hend
    cases outcome with
    | ok b => exact Or.inl ⟨s₁, b, rfl, hend⟩
    | error e =>
      obtain ⟨rfl, hr⟩ := Prod.mk.inj (Except.ok.inj hend)
      exact Or.inr ⟨e, rfl, hr.symm⟩

/-- The handler ends, in a state and with an outcome that meet `Q`. -/
def Ends (h : Handler C σ ε α) (c : C) (s : σ) (Q : σ → Except ε α → Prop) : Prop := ∃ s' r, h c s = .ok (s', r) ∧ Q s' r

/-- The handler ends for every caller and from every state. -/
def Total (h : Handler C σ ε α) : Prop := ∀ c s, h.Ends c s (fun _ _ => True)

variable {c : C} {s : σ} {Q : σ → Except ε α → Prop}

theorem ends_pure {a : α} (h : Q s (.ok a)) : (pure a : Handler C σ ε α).Ends c s Q := ⟨s, .ok a, rfl, h⟩

theorem ends_fail {e : ε} (h : Q s (.error e)) : (fail e : Handler C σ ε α).Ends c s Q := ⟨s, .error e, rfl, h⟩

theorem ends_operate {f : σ → σ × Except ε α} (h : Q (f s).1 (f s).2) : (operate f : Handler C σ ε α).Ends c s Q :=
  ⟨(f s).1, (f s).2, rfl, h⟩

/-- A sequence ends as its second part does after the first, or as the first does when that fails. -/
theorem ends_bind {h : Handler C σ ε β} {f : β → Handler C σ ε α}
    (hh : h.Ends c s (fun s' r => match r with | .ok b => (f b).Ends c s' Q | .error e => Q s' (.error e))) :
    (h >>= f).Ends c s Q := by
  obtain ⟨s', r, hr, hq⟩ := hh
  cases r with
  | ok b =>
    obtain ⟨s'', r', hr', hq'⟩ := hq
    exact ⟨s'', r', by simp only [bind, hr, hr'], hq'⟩
  | error e => exact ⟨s', .error e, by simp only [bind, hr], hq⟩

/-- A stronger postcondition serves a weaker one. -/
theorem Ends.mono {h : Handler C σ ε α} {Q' : σ → Except ε α → Prop} (hh : h.Ends c s Q') (hq : ∀ s' r, Q' s' r → Q s' r) :
    h.Ends c s Q := by
  obtain ⟨s', r, hr, hq'⟩ := hh
  exact ⟨s', r, hr, hq s' r hq'⟩

/-! ## Handlers that never panic -/

theorem total_pure (a : α) : (pure a : Handler C σ ε α).Total := fun _ _ => ends_pure trivial

theorem total_fail (e : ε) : (fail e : Handler C σ ε α).Total := fun _ _ => ends_fail trivial

theorem total_operate (f : σ → σ × Except ε α) : (operate f : Handler C σ ε α).Total := fun _ _ => ends_operate trivial

theorem total_inspect (f : σ → α) : (inspect f : Handler C σ ε α).Total := total_operate _

/-- A sequence of handlers that never panic never panics. -/
theorem Total.bind {h : Handler C σ ε β} {f : β → Handler C σ ε α} (hh : h.Total) (hf : ∀ b, (f b).Total) : (h >>= f).Total :=
  fun c s => ends_bind ((hh c s).mono (fun s' r _ => by
    cases r with
    | ok b => exact hf b c s'
    | error e => trivial))

end Handler

end Scbl.Lib
