import Mathlib.Order.Defs.PartialOrder
import Mathlib.Order.RelClasses

/-!
# Transactions

A transaction is a sequence of statements on a state. It ends by committing its changes with a result, by rolling them back with
a result, or by failing, which also undoes them. `wp` is the condition on the state under which a part of a transaction goes on
with `Q` and breaks off with `E`; it is computed along the sequence, with one rule for each way of composing statements. `Moves R`
says that every part of a transaction that goes on is a step of the relation `R`.
-/

namespace Scbl.Lib

/-- How a transaction breaks off: it fails, or it is rolled back with a result. -/
inductive Abort (ε ρ : Type) where
  | failed (e : ε)
  | rolledBack (r : ρ)
  deriving DecidableEq, Repr

/-- A part of a transaction with a result of type `ρ`. -/
abbrev Tx (σ ε ρ : Type) := StateT σ (Except (Abort ε ρ))

section Transaction

variable {σ ε ρ α β : Type}

/-- Read from the state. -/
def select (f : σ → α) : Tx σ ε ρ α := fun s => .ok (f s, s)

/-- Change the state, or fail. -/
def execute (f : σ → Except ε σ) : Tx σ ε ρ Unit := fun s =>
  match f s with
  | .ok s' => .ok ((), s')
  | .error e => .error (.failed e)

/-- Fail. -/
def abort (e : ε) : Tx σ ε ρ α := fun _ => .error (.failed e)

/-- Undo all changes and end with a result. -/
def rollback (r : ρ) : Tx σ ε ρ α := fun _ => .error (.rolledBack r)

/-- Run a transaction: its answer, and the state after it. -/
def transaction (m : Tx σ ε ρ ρ) (s : σ) : σ × Except ε ρ :=
  match m s with
  | .ok (r, s') => (s', .ok r)
  | .error (.rolledBack r) => (s, .ok r)
  | .error (.failed e) => (s, .error e)

/-! ## The condition for a postcondition -/

/-- The transaction goes on to a result and a state that meet `Q`, or breaks off as `E` says. -/
def wp (m : Tx σ ε ρ α) (Q : α → σ → Prop) (E : Abort ε ρ → Prop) (s : σ) : Prop :=
  match m s with
  | .ok (a, s') => Q a s'
  | .error e => E e

variable {Q : α → σ → Prop} {E : Abort ε ρ → Prop} {s : σ}

@[simp] theorem wp_pure (a : α) : wp (pure a : Tx σ ε ρ α) Q E s ↔ Q a s := Iff.rfl

@[simp] theorem wp_bind {m : Tx σ ε ρ β} {f : β → Tx σ ε ρ α} :
    wp (m >>= f) Q E s ↔ wp m (fun b => wp (f b) Q E) E s := by
  unfold wp
  simp only [bind, StateT.bind, Except.bind]
  cases m s <;> rfl

@[simp] theorem wp_select (f : σ → α) : wp (select f : Tx σ ε ρ α) Q E s ↔ Q (f s) s := Iff.rfl

@[simp] theorem wp_abort (e : ε) : wp (abort e : Tx σ ε ρ α) Q E s ↔ E (.failed e) := Iff.rfl

@[simp] theorem wp_rollback (r : ρ) : wp (rollback r : Tx σ ε ρ α) Q E s ↔ E (.rolledBack r) := Iff.rfl

/-- A statement meets the postcondition in both its outcomes. -/
theorem wp_execute {f : σ → Except ε σ} {Q : Unit → σ → Prop} (hok : ∀ s', f s = .ok s' → Q () s')
    (herr : ∀ e, f s = .error e → E (.failed e)) : wp (execute f : Tx σ ε ρ Unit) Q E s := by
  unfold wp execute
  cases h : f s with
  | ok s' => exact hok s' h
  | error e => exact herr e h

/-- A statement that succeeds. -/
theorem wp_execute_ok {f : σ → Except ε σ} {Q : Unit → σ → Prop} {s' : σ} (h : f s = .ok s') (hq : Q () s') :
    wp (execute f : Tx σ ε ρ Unit) Q E s :=
  wp_execute (fun s'' h' => by rw [h] at h'; cases h'; exact hq) (fun e h' => by rw [h] at h'; cases h')

/-- Stronger postconditions serve weaker ones. -/
theorem wp_weaken {m : Tx σ ε ρ α} {Q' : α → σ → Prop} {E' : Abort ε ρ → Prop} (h : wp m Q' E' s)
    (hq : ∀ a s', Q' a s' → Q a s') (he : ∀ e, E' e → E e) : wp m Q E s := by
  unfold wp at h ⊢
  cases hm : m s with
  | ok r => rw [hm] at h; exact hq _ _ h
  | error e => rw [hm] at h; exact he _ h

/-- A stronger postcondition serves a weaker one. -/
theorem wp_mono {m : Tx σ ε ρ α} {Q' : α → σ → Prop} (h : wp m Q' E s) (hq : ∀ a s', Q' a s' → Q a s') : wp m Q E s :=
  wp_weaken h hq (fun _ he => he)

/-- Where a part of a transaction goes on, two postconditions hold together. -/
theorem wp_and {m : Tx σ ε ρ α} {Q' : α → σ → Prop} (h : wp m Q E s) (h' : wp m Q' (fun _ => True) s) :
    wp m (fun a s' => Q a s' ∧ Q' a s') E s := by
  unfold wp at h h' ⊢
  cases hm : m s with
  | ok r => rw [hm] at h h'; exact ⟨h, h'⟩
  | error e => rw [hm] at h; exact h

/-- A loop that adds up keeps an assertion about the elements still to come. -/
theorem wp_foldlM {γ : Type} (I : List γ → β → σ → Prop) {f : β → γ → Tx σ ε ρ β}
    (hstep : ∀ c l b s, I (c :: l) b s → wp (f b c) (fun b' s' => I l b' s') E s) {l : List γ} {b : β} (h : I l b s) :
    wp (l.foldlM f b) (fun b' s' => I [] b' s') E s := by
  induction l generalizing b s with
  | nil => exact h
  | cons c l ih =>
    rw [List.foldlM_cons, wp_bind]
    exact wp_mono (hstep c l b s h) (fun _ _ h' => ih h')

/-- A loop keeps an assertion about the elements still to come. -/
theorem wp_forM {γ : Type} (I : List γ → σ → Prop) {f : γ → Tx σ ε ρ PUnit}
    (hstep : ∀ c l s, I (c :: l) s → wp (f c) (fun _ s' => I l s') E s) {l : List γ} (h : I l s) :
    wp (l.forM f) (fun _ s' => I [] s') E s := by
  induction l generalizing s with
  | nil => exact h
  | cons c l ih =>
    change wp (f c >>= fun _ => l.forM f) _ E s
    rw [wp_bind]
    exact wp_mono (hstep c l s h) (fun _ _ h' => ih h')

/-- A loop builds up an assertion about the elements done, which are those before the one at hand. -/
theorem wp_forM_done {γ : Type} (I : List γ → σ → Prop) {f : γ → Tx σ ε ρ PUnit} {l : List γ}
    (hstep : ∀ done c rest s, done ++ c :: rest = l → I done s → wp (f c) (fun _ s' => I (done ++ [c]) s') E s) (h : I [] s) :
    wp (l.forM f) (fun _ s' => I l s') E s := by
  refine wp_mono (wp_forM (fun rest s' => ∃ done, done ++ rest = l ∧ I done s') ?_ ⟨[], rfl, h⟩) ?_
  · rintro c rest s' ⟨done, hl, hi⟩
    refine wp_mono (hstep done c rest s' hl hi) fun _ s'' hi' => ⟨done ++ [c], ?_, hi'⟩
    rw [List.append_assoc]
    exact hl
  · rintro - s' ⟨done, hl, hi⟩
    rw [List.append_nil] at hl
    exact hl ▸ hi

/-- A loop that adds up builds up an assertion about the elements done; those are the elements before the one at hand. -/
theorem wp_foldlM_done {γ : Type} (I : List γ → β → σ → Prop) {f : β → γ → Tx σ ε ρ β} {l : List γ} {b : β}
    (hstep : ∀ done c rest b s, done ++ c :: rest = l → I done b s → wp (f b c) (fun b' s' => I (done ++ [c]) b' s') E s)
    (h : I [] b s) : wp (l.foldlM f b) (fun b' s' => I l b' s') E s := by
  refine wp_mono (wp_foldlM (fun rest b' s' => ∃ done, done ++ rest = l ∧ I done b' s') ?_ ⟨[], rfl, h⟩) ?_
  · rintro c rest b' s' ⟨done, hl, hi⟩
    refine wp_mono (hstep done c rest b' s' hl hi) fun _ s'' hi' => ⟨done ++ [c], ?_, hi'⟩
    rw [List.append_assoc]
    exact hl
  · rintro b' s' ⟨done, hl, hi⟩
    rw [List.append_nil] at hl
    exact hl ▸ hi

/-- What a transaction leaves: its committed state and result, or the state it began with. -/
theorem transaction_of_wp {m : Tx σ ε ρ ρ} {P : σ × Except ε ρ → Prop}
    (h : wp m (fun r s' => P (s', .ok r))
      (fun | .rolledBack r => P (s, .ok r) | .failed e => P (s, .error e)) s) : P (transaction m s) := by
  unfold transaction
  unfold wp at h
  cases hm : m s with
  | ok r => rw [hm] at h; exact h
  | error e =>
    rw [hm] at h
    cases e <;> exact h

/-- A transaction whose commit keeps an invariant keeps it however it ends. -/
theorem transaction_inv {I : σ → Prop} {m : Tx σ ε ρ ρ} (hs : I s) (h : wp m (fun _ s' => I s') (fun _ => True) s) :
    I (transaction m s).1 := by
  refine transaction_of_wp (P := fun r => I r.1) ?_
  unfold wp at h ⊢
  cases hm : m s with
  | ok r => rw [hm] at h; exact h
  | error e => cases e <;> exact hs

/-! ## Transactions that move along a relation -/

/-- Wherever a part of a transaction goes on, the state moved along `R`. -/
def Moves (R : σ → σ → Prop) (m : Tx σ ε ρ α) : Prop := ∀ s, wp m (fun _ s' => R s s') (fun _ => True) s

variable {R : σ → σ → Prop}

/-- A relation that only speaks of the states that meet an invariant is proved from these. -/
theorem Moves.of_inv {I : σ → Prop} {m : Tx σ ε ρ α} (h : ∀ s, I s → wp m (fun _ s' => R s s') (fun _ => True) s) :
    Moves (fun s s' => I s → R s s') m := by
  intro s
  by_cases hi : I s
  · exact wp_mono (h s hi) (fun _ _ h' _ => h')
  · unfold wp
    split
    · exact fun hi' => absurd hi' hi
    · trivial

/-- A coarser relation does as well. -/
theorem Moves.mono {R' : σ → σ → Prop} {m : Tx σ ε ρ α} (h : Moves R m) (hR : ∀ s s', R s s' → R' s s') : Moves R' m :=
  fun s => wp_mono (h s) (fun _ s' => hR s s')

/-- Two relations hold together. -/
theorem Moves.and {R' : σ → σ → Prop} {m : Tx σ ε ρ α} (h : Moves R m) (h' : Moves R' m) : Moves (fun s s' => R s s' ∧ R' s s') m :=
  fun s => wp_and (h s) (h' s)

theorem Moves.pure [IsPreorder σ R] (a : α) : Moves R (Pure.pure a : Tx σ ε ρ α) := fun s => refl_of R s

theorem Moves.select [IsPreorder σ R] (f : σ → α) : Moves R (select f : Tx σ ε ρ α) := fun s => refl_of R s

theorem Moves.abort (e : ε) : Moves R (abort e : Tx σ ε ρ α) := fun _ => trivial

theorem Moves.rollback (r : ρ) : Moves R (rollback r : Tx σ ε ρ α) := fun _ => trivial

theorem Moves.execute {f : σ → Except ε σ} (h : ∀ s s', f s = .ok s' → R s s') : Moves R (execute f : Tx σ ε ρ Unit) :=
  fun s => wp_execute (h s) (fun _ _ => trivial)

theorem Moves.bind [IsPreorder σ R] {m : Tx σ ε ρ β} {f : β → Tx σ ε ρ α} (hm : Moves R m) (hf : ∀ b, Moves R (f b)) :
    Moves R (m >>= f) := by
  intro s
  rw [wp_bind]
  exact wp_mono (hm s) (fun b s' h => wp_mono (hf b s') (fun _ _ h' => trans_of R h h'))

/-- Two parts that belong together, and what follows them. -/
theorem Moves.assoc {γ : Type} {m : Tx σ ε ρ γ} {g : γ → Tx σ ε ρ β} {f : β → Tx σ ε ρ α} (h : Moves R (m >>= g >>= f)) :
    Moves R (m >>= fun c => g c >>= f) := by
  rwa [bind_assoc] at h

theorem Moves.forM [IsPreorder σ R] {γ : Type} {f : γ → Tx σ ε ρ PUnit} (hf : ∀ c, Moves R (f c)) (l : List γ) :
    Moves R (l.forM f) :=
  fun s => wp_forM (fun _ s' => R s s') (fun c _ s' h => wp_mono (hf c s') (fun _ _ h' => trans_of R h h')) (refl_of R s)

theorem Moves.foldlM [IsPreorder σ R] {γ : Type} {f : β → γ → Tx σ ε ρ β} (hf : ∀ b c, Moves R (f b c)) (l : List γ) (b : β) :
    Moves R (l.foldlM f b) :=
  fun s => wp_foldlM (fun _ _ s' => R s s') (fun c _ b s' h => wp_mono (hf b c s') (fun _ _ h' => trans_of R h h')) (refl_of R s)

/-- An invariant is not lost. -/
def Keeps (I : σ → Prop) (s s' : σ) : Prop := I s → I s'

instance (I : σ → Prop) : IsPreorder σ (Keeps I) where
  refl _ h := h
  trans _ _ _ h h' hi := h' (h hi)

/-- A transaction moves along the relation, however it ends. -/
theorem Moves.transaction [IsPreorder σ R] {m : Tx σ ε ρ ρ} (h : Moves R m) (s : σ) : R s (transaction m s).1 :=
  transaction_inv (refl_of R s) (h s)

end Transaction

end Scbl.Lib
