import Scbl.Lib.Panic
import Mathlib.Data.List.Basic

/-!
# Runs of a step function

A system takes an input in a state, answers and moves on: `step : S → A → S × O`. `run` is the state after a list of inputs and
`trace` the transitions on the way. An invariant is proved for one step and holds along the trace (`trace_inv`), also when a
step keeps it only under a condition (`trace_inv_of`). A potential bounds how often a run spends by how often it is paid
(`countP_spends_le`). `liveStep` makes a step that may panic one on the states that still run.
-/

namespace Scbl.Lib

section Run

variable {S A O : Type}

/-- One transition of a run. -/
structure Transition (S A O : Type) where
  before : S
  input : A
  output : O
  after : S

/-- The state after a list of inputs. -/
def run (step : S → A → S × O) : S → List A → S
  | s, [] => s
  | s, a :: as => run step (step s a).1 as

/-- The transitions of a run, in order. -/
def trace (step : S → A → S × O) : S → List A → List (Transition S A O)
  | _, [] => []
  | s, a :: as => { before := s, input := a, output := (step s a).2, after := (step s a).1 } :: trace step (step s a).1 as

variable {step : S → A → S × O}

@[simp] theorem run_nil (s : S) : run step s [] = s := rfl

@[simp] theorem run_cons (s : S) (a : A) (as : List A) : run step s (a :: as) = run step (step s a).1 as := rfl

@[simp] theorem trace_nil (s : S) : trace step s [] = [] := rfl

/-- The trace over one input is its transition. -/
theorem trace_singleton (step : S → A → S × O) (s : S) (a : A) :
    trace step s [a] = [{ before := s, input := a, output := (step s a).2, after := (step s a).1 }] := rfl

/-- A run over two lists of inputs is a run over the first and then over the second. -/
theorem run_append (s : S) (as bs : List A) : run step s (as ++ bs) = run step (run step s as) bs := by
  induction as generalizing s with
  | nil => rfl
  | cons a as ih => exact ih _

/-- The trace over two lists of inputs is the trace over the first followed by the trace over the second. -/
theorem trace_append (s : S) (as bs : List A) :
    trace step s (as ++ bs) = trace step s as ++ trace step (run step s as) bs := by
  induction as generalizing s with
  | nil => rfl
  | cons a as ih => rw [List.cons_append, trace, trace, ih, List.cons_append, run_cons]

/-- The transitions take the inputs in their order. -/
theorem trace_inputs (s : S) (as : List A) : (trace step s as).map (·.input) = as := by
  induction as generalizing s with
  | nil => rfl
  | cons a as ih => rw [trace, List.map_cons, ih]

/-- Every transition of a trace is a step on one of the inputs. -/
theorem mem_trace {s : S} {as : List A} {t : Transition S A O} (h : t ∈ trace step s as) :
    t.input ∈ as ∧ step t.before t.input = (t.after, t.output) := by
  induction as generalizing s with
  | nil => nomatch h
  | cons a as ih =>
    rcases List.mem_cons.mp h with rfl | h
    · exact ⟨List.mem_cons_self, rfl⟩
    · exact ⟨List.mem_cons_of_mem a (ih h).1, (ih h).2⟩

/-- A transition begins where the one before it ended. -/
theorem trace_chain {s : S} {as : List A} {past future : List (Transition S A O)} {t t' : Transition S A O}
    (h : trace step s as = past ++ t :: t' :: future) : t.after = t'.before := by
  induction as generalizing s past with
  | nil => exact absurd h (by simp)
  | cons a as ih =>
    rw [trace] at h
    cases past with
    | nil =>
      obtain ⟨rfl, hnext⟩ := List.cons.inj h
      cases as with
      | nil => nomatch hnext
      | cons b bs =>
        obtain ⟨rfl, -⟩ := List.cons.inj hnext
        rfl
    | cons first past => exact ih (List.cons.inj h).2

/-- What follows a transition is a run from where it ended. -/
theorem trace_rest {s : S} {as : List A} {past rest : List (Transition S A O)} {t : Transition S A O}
    (h : trace step s as = past ++ t :: rest) : ∃ bs, rest = trace step t.after bs := by
  induction past generalizing s as with
  | nil =>
    cases as with
    | nil => cases h
    | cons a as =>
      obtain ⟨rfl, hrest⟩ := List.cons.inj h
      exact ⟨as, hrest.symm⟩
  | cons first past ih =>
    cases as with
    | nil => cases h
    | cons a as => exact ih (List.cons.inj h).2

/-- What a step keeps under a condition holds along every run whose steps meet the condition. -/
theorem trace_inv_of {I : S → Prop} (Cond : S → A → Prop) (hstep : ∀ s a, I s → Cond s a → I (step s a).1) {s : S}
    {as : List A} (h0 : I s) (hc : ∀ t ∈ trace step s as, Cond t.before t.input) :
    (∀ t ∈ trace step s as, I t.before ∧ I t.after) ∧ I (run step s as) := by
  induction as generalizing s with
  | nil => exact ⟨fun t ht => (nomatch ht), h0⟩
  | cons a as ih =>
    have h1 := hstep s a h0 (hc _ List.mem_cons_self)
    obtain ⟨ht, hr⟩ := ih h1 (fun t ht => hc t (List.mem_cons_of_mem _ ht))
    refine ⟨fun t hm => ?_, hr⟩
    rcases List.mem_cons.mp hm with rfl | hm
    · exact ⟨h0, h1⟩
    · exact ht t hm

/-- What a step keeps of the history and the state, under a condition on both, holds at every transition of a run whose transitions
all meet the condition. -/
theorem trace_history_of {P : List (Transition S A O) → S → Prop} (C : List (Transition S A O) → Transition S A O → Prop)
    (hstep : ∀ past s a, P past s → C past ⟨s, a, (step s a).2, (step s a).1⟩ →
      P (past ++ [⟨s, a, (step s a).2, (step s a).1⟩]) (step s a).1)
    {s : S} {as : List A} (h0 : P [] s) (hc : ∀ past t rest, trace step s as = past ++ t :: rest → C past t) :
    ∀ past t rest, trace step s as = past ++ t :: rest → P past t.before ∧ P (past ++ [t]) t.after := by
  induction as generalizing s P C with
  | nil => exact fun past t rest h => absurd h (by simp)
  | cons a as ih =>
    have h1 := hstep [] s a h0 (hc [] _ _ rfl)
    intro past t rest h
    rw [trace] at h
    cases past with
    | nil =>
      obtain ⟨rfl, -⟩ := List.cons.inj h
      exact ⟨h0, h1⟩
    | cons first past =>
      obtain ⟨hfirst, htail⟩ := List.cons.inj h
      subst hfirst
      -- the history of the rest of the run begins with the first transition
      let first : Transition S A O := ⟨s, a, (step s a).2, (step s a).1⟩
      exact ih (P := fun past s' => P (first :: past) s') (fun past t => C (first :: past) t)
        (fun past s' a' hp hc' => hstep (first :: past) s' a' hp hc') h1
        (fun past t rest h => hc (first :: past) t rest (by rw [trace, h]; rfl)) past t rest htail

/-- What a step keeps of the history and the state, under a condition on the transition, holds of the trace of a run whose transitions
all meet the condition and the state after it. -/
theorem run_history_of {P : List (Transition S A O) → S → Prop} (C : Transition S A O → Prop)
    (hstep : ∀ past s a, P past s → C ⟨s, a, (step s a).2, (step s a).1⟩ → P (past ++ [⟨s, a, (step s a).2, (step s a).1⟩]) (step s a).1)
    {s : S} (h0 : P [] s) {as : List A} (hc : ∀ t ∈ trace step s as, C t) : P (trace step s as) (run step s as) := by
  induction as generalizing s P with
  | nil => exact h0
  | cons a as ih =>
    let first : Transition S A O := ⟨s, a, (step s a).2, (step s a).1⟩
    have h1 := hstep [] s a h0 (hc first List.mem_cons_self)
    exact ih (P := fun past s' => P (first :: past) s') (fun past s' a' hp => hstep (first :: past) s' a' hp) h1
      fun t ht => hc t (List.mem_cons_of_mem _ ht)

/-- What a step keeps of the history and the state holds of the trace of a run and the state after it. -/
theorem run_history {P : List (Transition S A O) → S → Prop}
    (hstep : ∀ past s a, P past s → P (past ++ [⟨s, a, (step s a).2, (step s a).1⟩]) (step s a).1) {s : S} (h0 : P [] s)
    (as : List A) : P (trace step s as) (run step s as) :=
  run_history_of (fun _ => True) (fun past s a hp _ => hstep past s a hp) h0 fun _ _ => trivial

/-- What every step on an input of the list keeps holds along the run. -/
theorem trace_inv {I : S → Prop} {as : List A} (hstep : ∀ s, ∀ a ∈ as, I s → I (step s a).1) {s : S} (h0 : I s) :
    (∀ t ∈ trace step s as, I t.before ∧ I t.after) ∧ I (run step s as) :=
  trace_inv_of (fun _ a => a ∈ as) (fun s a hi ha => hstep s a ha hi) h0 (fun _ ht => (mem_trace ht).1)

/-- When a step that spends takes one from the potential or is paid for, and no step adds to the potential more than it is paid,
a run spends at most the initial potential and what it is paid. -/
theorem countP_spends_le {potential : S → Nat} {paid : A → Bool} {spends : Transition S A O → Bool}
    (hstep : ∀ s a, potential (step s a).1 + (if spends ⟨s, a, (step s a).2, (step s a).1⟩ then 1 else 0) ≤
      potential s + (if paid a then 1 else 0)) (s : S) (as : List A) :
    (trace step s as).countP spends ≤ potential s + as.countP paid := by
  induction as generalizing s with
  | nil => exact Nat.zero_le _
  | cons a as ih =>
    have h1 := ih (step s a).1
    have h2 := hstep s a
    rw [trace, List.countP_cons, List.countP_cons]
    omega

/-! ## Steps that may panic -/

/-- A step that may panic, on a state that still runs or the panic that ended it. -/
def liveStep [Inhabited O] (f : S → A → Except Panic (S × O)) (s : Except Panic S) (a : A) : Except Panic S × O :=
  match s with
  | .error p => (.error p, default)
  | .ok s =>
    match f s a with
    | .error p => (.error p, default)
    | .ok (s', o) => (.ok s', o)

/-- A live step on a state that runs, when it does not panic. -/
theorem liveStep_eq [Inhabited O] {f : S → A → Except Panic (S × O)} {s s' : S} {a : A} {o : O} (h : f s a = .ok (s', o)) :
    liveStep f (.ok s) a = (.ok s', o) := by
  simp only [liveStep, h]

/-- What a live step left when it did not panic. -/
theorem liveStep_ok [Inhabited O] {f : S → A → Except Panic (S × O)} {s : Except Panic S} {a : A} {s' : S}
    (h : (liveStep f s a).1 = .ok s') : ∃ s0 o, s = .ok s0 ∧ f s0 a = .ok (s', o) ∧ (liveStep f s a).2 = o := by
  cases s with
  | error p => nomatch h
  | ok s0 =>
    unfold liveStep at h ⊢
    dsimp only at h ⊢
    split at h
    · nomatch h
    · rename_i s1 o hf
      rw [Except.ok.inj h] at hf
      exact ⟨s0, o, rfl, hf, rfl⟩

/-- A state that panicked stays. -/
@[simp] theorem run_live_error [Inhabited O] (f : S → A → Except Panic (S × O)) (p : Panic) (as : List A) :
    run (liveStep f) (.error p) as = .error p := by
  induction as with
  | nil => rfl
  | cons a as ih => exact ih

/-- What a step keeps under a condition holds after every run that did not panic and whose steps all meet the condition. -/
theorem run_live_inv_of [Inhabited O] {f : S → A → Except Panic (S × O)} {I : S → Prop} (Cond : S → A → Prop)
    (hstep : ∀ s a s' o, I s → Cond s a → f s a = .ok (s', o) → I s') {s : S} {as : List A} (h0 : I s)
    (hc : ∀ t ∈ trace (liveStep f) (.ok s) as, ∀ s', t.before = .ok s' → Cond s' t.input) {s' : S}
    (h : run (liveStep f) (.ok s) as = .ok s') : I s' := by
  let J : Except Panic S → Prop := fun s => ∀ s', s = .ok s' → I s'
  have hinit : J (.ok s) := fun s' h => Except.ok.inj h ▸ h0
  have hlive : ∀ s a, J s → (∀ s', s = .ok s' → Cond s' a) → J (liveStep f s a).1 := by
    intro s a hi ha s1 h1
    obtain ⟨s0, o, rfl, hf, -⟩ := liveStep_ok h1
    exact hstep s0 a s1 o (hi s0 rfl) (ha s0 rfl) hf
  exact (trace_inv_of _ hlive hinit hc).2 s' h

end Run

end Scbl.Lib
