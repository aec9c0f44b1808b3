import Mathlib.Data.List.Basic

/-!
# Programs whose operations can fail

A program changes a state by operations, and something may befall each of them: it fails, or the process is killed, and either leaves
one of the states in which the operation can stop. A failure can be caught; after a kill nothing runs. `Meets` says where a program
may start and how it then ends, with one rule for each way of composing programs.
-/

namespace Scbl.Lib

/-- What befalls an operation, and where it stops. -/
inductive Mishap where
  | fail (stop : Nat)
  | kill (stop : Nat)
  deriving DecidableEq, Repr

/-- What befalls the operations to come, in their order; nothing befalls those after the last. -/
abbrev Mishaps := List (Option Mishap)

/-- The end of a program, with what is still to befall: with a result, by an exception, or killed. -/
inductive Execution (σ ε α : Type) where
  | done (a : α) (mishaps : Mishaps) (s : σ)
  | raised (e : ε) (mishaps : Mishaps) (s : σ)
  | killed (s : σ)

namespace Execution

variable {σ ε α β : Type}

/-- Go on with the result. -/
def andThen (f : β → Mishaps → σ → Execution σ ε α) : Execution σ ε β → Execution σ ε α
  | done b mishaps s => f b mishaps s
  | raised e mishaps s => raised e mishaps s
  | killed s => killed s

/-- Go on after an exception. -/
def orElse (f : ε → Mishaps → σ → Execution σ ε α) : Execution σ ε α → Execution σ ε α
  | done a mishaps s => done a mishaps s
  | raised e mishaps s => f e mishaps s
  | killed s => killed s

/-- The state in the end. -/
def state : Execution σ ε α → σ
  | done _ _ s => s
  | raised _ _ s => s
  | killed s => s

/-- Whether there is a result. -/
def isDone : Execution σ ε α → Bool
  | done .. => true
  | _ => false

/-- How an execution is to end: with a result, by an exception, or killed. -/
def Ends (Q : α → Mishaps → σ → Prop) (E : ε → Mishaps → σ → Prop) (K : σ → Prop) : Execution σ ε α → Prop
  | done a mishaps s => Q a mishaps s
  | raised e mishaps s => E e mishaps s
  | killed s => K s

/-- A program that ends in some states however it ends. -/
theorem Ends.state_any {x : Execution σ ε α} {P : σ → Prop} (h : x.Ends (fun _ _ => P) (fun _ _ => P) P) : P x.state := by
  cases x with
  | done a mishaps s => exact h
  | raised e mishaps s => exact h
  | killed s => exact h

/-- A program that is not killed, and ends in some states. -/
theorem Ends.state {x : Execution σ ε α} {P : σ → Prop} (h : x.Ends (fun _ _ => P) (fun _ _ => P) (fun _ => False)) : P x.state := by
  cases x with
  | done a mishaps s => exact h
  | raised e mishaps s => exact h
  | killed s => exact h.elim

end Execution

/-- A program on states in `σ`, with exceptions in `ε`. -/
structure Program (σ ε α : Type) where
  run : Mishaps → σ → Execution σ ε α

namespace Program

variable {σ ε α β : Type}

instance : Monad (Program σ ε) where
  pure a := ⟨.done a⟩
  bind m f := ⟨fun mishaps s => (m.run mishaps s).andThen (fun b => (f b).run)⟩

/-- Raise an exception. -/
def raise (e : ε) : Program σ ε α := ⟨.raised e⟩

/-- Go on with a handler after an exception. -/
def tryCatch (m : Program σ ε α) (handler : ε → Program σ ε α) : Program σ ε α :=
  ⟨fun mishaps s => (m.run mishaps s).orElse (fun e => (handler e).run)⟩

/-- Run the last part whether or not the first part raised. -/
def tryFinally (m : Program σ ε α) (last : Program σ ε Unit) : Program σ ε α := do
  let a ← m.tryCatch (fun e => do
    last
    raise e)
  last
  pure a

/-- Read from the state, which does not fail. -/
def query (f : σ → α) : Program σ ε α := ⟨fun mishaps s => .done (f s) mishaps s⟩

/-- Change a local variable, which does not fail. -/
def assign (f : σ → σ) : Program σ ε Unit := ⟨fun mishaps s => .done () mishaps (f s)⟩

/-- A result or an exception. -/
def ofExcept (x : Except ε α) : Program σ ε α :=
  match x with
  | .ok a => pure a
  | .error e => raise e

/-- A part of a program that is left out when a condition does not hold. -/
def when (condition : Bool) (m : Program σ ε Unit) : Program σ ε Unit := if condition then m else pure ()

/-- An operation: what it does or raises, what it raises when it fails, and the states in which it can stop. -/
def operation (failure : ε) (stop : Nat → σ → σ) (step : σ → Except ε (α × σ)) : Program σ ε α :=
  ⟨fun mishaps s =>
    match mishaps.head?.join with
    | some (.fail k) => .raised failure mishaps.tail (stop k s)
    | some (.kill k) => .killed (stop k s)
    | none =>
      match step s with
      | .ok (a, s') => .done a mishaps.tail s'
      | .error e => .raised e mishaps.tail s⟩

/-- Where the program may start, and how it ends then. -/
def Meets (m : Program σ ε α) (P : Mishaps → σ → Prop) (Q : α → Mishaps → σ → Prop) (E : ε → Mishaps → σ → Prop)
    (K : σ → Prop) : Prop :=
  ∀ mishaps s, P mishaps s → (m.run mishaps s).Ends Q E K

section Rules

variable {P P' : Mishaps → σ → Prop} {Q Q' : α → Mishaps → σ → Prop} {E E' : ε → Mishaps → σ → Prop} {K K' : σ → Prop}

theorem meets_pure {a : α} (h : ∀ mishaps s, P mishaps s → Q a mishaps s) : (pure a : Program σ ε α).Meets P Q E K := h

theorem meets_raise {e : ε} (h : ∀ mishaps s, P mishaps s → E e mishaps s) : (raise e : Program σ ε α).Meets P Q E K := h

theorem meets_query {f : σ → α} (h : ∀ mishaps s, P mishaps s → Q (f s) mishaps s) : (query f : Program σ ε α).Meets P Q E K := h

theorem meets_assign {f : σ → σ} {Q : Unit → Mishaps → σ → Prop} (h : ∀ mishaps s, P mishaps s → Q () mishaps (f s)) :
    (assign f : Program σ ε Unit).Meets P Q E K := h

/-- A result or an exception, each as wanted. -/
theorem meets_ofExcept {x : Except ε α} (hok : ∀ a mishaps s, x = .ok a → P mishaps s → Q a mishaps s)
    (herror : ∀ e mishaps s, x = .error e → P mishaps s → E e mishaps s) : (ofExcept x : Program σ ε α).Meets P Q E K := by
  cases x with
  | ok a => exact fun mishaps s hs => hok a mishaps s rfl hs
  | error e => exact fun mishaps s hs => herror e mishaps s rfl hs

/-- A part that is run or left out. -/
theorem meets_when {condition : Bool} {m : Program σ ε Unit} {Q : Unit → Mishaps → σ → Prop}
    (hm : condition = true → m.Meets P Q E K) (hskip : condition = false → ∀ mishaps s, P mishaps s → Q () mishaps s) :
    (when condition m).Meets P Q E K := by
  cases condition with
  | true => exact hm rfl
  | false => exact meets_pure (hskip rfl)

/-- A program that meets more, from more. -/
theorem Meets.weaken {m : Program σ ε α} (h : m.Meets P Q E K) (hP : ∀ mishaps s, P' mishaps s → P mishaps s)
    (hQ : ∀ a mishaps s, Q a mishaps s → Q' a mishaps s) (hE : ∀ e mishaps s, E e mishaps s → E' e mishaps s)
    (hK : ∀ s, K s → K' s) : m.Meets P' Q' E' K' := by
  intro mishaps s hs
  have hm := h mishaps s (hP mishaps s hs)
  cases hrun : m.run mishaps s with
  | done a mishaps' s' =>
    rw [hrun] at hm
    exact hQ a mishaps' s' hm
  | raised e mishaps' s' =>
    rw [hrun] at hm
    exact hE e mishaps' s' hm
  | killed s' =>
    rw [hrun] at hm
    exact hK s' hm

/-- A program that starts from less. -/
theorem Meets.from {m : Program σ ε α} (h : m.Meets P Q E K) (hP : ∀ mishaps s, P' mishaps s → P mishaps s) : m.Meets P' Q E K :=
  h.weaken hP (fun _ _ _ hQ => hQ) (fun _ _ _ hE => hE) (fun _ hK => hK)

/-- What holds where a program starts may be used of it. -/
theorem meets_of_imp {m : Program σ ε α} {φ : Prop} (hφ : ∀ mishaps s, P mishaps s → φ) (h : φ → m.Meets P Q E K) :
    m.Meets P Q E K := fun mishaps s hs => h (hφ mishaps s hs) mishaps s hs

/-- A sequence: the second part starts where the first is done. -/
theorem meets_bind {m : Program σ ε β} {f : β → Program σ ε α} {R : β → Mishaps → σ → Prop} (hm : m.Meets P R E K)
    (hf : ∀ b, (f b).Meets (R b) Q E K) : (m >>= f).Meets P Q E K := by
  intro mishaps s hs
  have h := hm mishaps s hs
  show ((m.run mishaps s).andThen (fun b => (f b).run)).Ends Q E K
  cases hrun : m.run mishaps s with
  | done b mishaps' s' =>
    rw [hrun] at h
    exact hf b mishaps' s' h
  | raised e mishaps' s' =>
    rw [hrun] at h
    exact h
  | killed s' =>
    rw [hrun] at h
    exact h

/-- A handler starts where the program raised. -/
theorem meets_tryCatch {m : Program σ ε α} {handler : ε → Program σ ε α} {F : ε → Mishaps → σ → Prop} (hm : m.Meets P Q F K)
    (hhandler : ∀ e, (handler e).Meets (F e) Q E K) : (m.tryCatch handler).Meets P Q E K := by
  intro mishaps s hs
  have h := hm mishaps s hs
  show ((m.run mishaps s).orElse (fun e => (handler e).run)).Ends Q E K
  cases hrun : m.run mishaps s with
  | done a mishaps' s' =>
    rw [hrun] at h
    exact h
  | raised e mishaps' s' =>
    rw [hrun] at h
    exact hhandler e mishaps' s' h
  | killed s' =>
    rw [hrun] at h
    exact h

/-- An operation that is done, raises, fails or is killed. -/
theorem meets_operation {failure : ε} {stop : Nat → σ → σ} {step : σ → Except ε (α × σ)}
    (hdone : ∀ mishaps s a s', P mishaps s → mishaps.head?.join = none → step s = .ok (a, s') → Q a mishaps.tail s')
    (hraise : ∀ mishaps s e, P mishaps s → mishaps.head?.join = none → step s = .error e → E e mishaps.tail s)
    (hfail : ∀ mishaps s k, P mishaps s → mishaps.head?.join = some (.fail k) → E failure mishaps.tail (stop k s))
    (hkill : ∀ mishaps s k, P mishaps s → mishaps.head?.join = some (.kill k) → K (stop k s)) :
    (operation failure stop step).Meets P Q E K := by
  intro mishaps s hs
  show (match mishaps.head?.join with
    | some (.fail k) => Execution.raised failure mishaps.tail (stop k s)
    | some (.kill k) => .killed (stop k s)
    | none =>
      match step s with
      | .ok (a, s') => .done a mishaps.tail s'
      | .error e => .raised e mishaps.tail s).Ends Q E K
  cases hhead : mishaps.head?.join with
  | some mishap =>
    cases mishap with
    | fail k => exact hfail mishaps s k hs hhead
    | kill k => exact hkill mishaps s k hs hhead
  | none =>
    cases hstep : step s with
    | ok r => exact hdone mishaps s r.1 r.2 hs hhead hstep
    | error e => exact hraise mishaps s e hs hhead hstep

/-- A loop: its invariant, for the elements that are done and those to come. -/
theorem meets_forM {β : Type} {xs : List β} {body : β → Program σ ε PUnit} {I : List β → List β → Mishaps → σ → Prop}
    {Q : PUnit → Mishaps → σ → Prop} (hP : ∀ mishaps s, P mishaps s → I [] xs mishaps s)
    (hbody : ∀ before x after, before ++ x :: after = xs →
      (body x).Meets (I before (x :: after)) (fun _ => I (before ++ [x]) after) E K)
    (hQ : ∀ mishaps s, I xs [] mishaps s → Q ⟨⟩ mishaps s) : (xs.forM body).Meets P Q E K := by
  have hloop : ∀ after before, before ++ after = xs →
      (after.forM body).Meets (I before after) (fun _ => I xs []) E K := by
    intro after
    induction after with
    | nil =>
      intro before hxs
      rw [List.append_nil] at hxs
      subst hxs
      exact meets_pure fun mishaps s hs => hs
    | cons x after ih =>
      intro before hxs
      show (body x >>= fun _ => after.forM body).Meets (I before (x :: after)) (fun _ => I xs []) E K
      exact meets_bind (hbody before x after hxs) fun _ => ih (before ++ [x]) (by rw [List.append_assoc]; exact hxs)
  exact (hloop xs [] rfl).weaken hP (fun _ => hQ) (fun _ _ _ hE => hE) (fun _ hK => hK)

end Rules

/-! ## A single failure -/

end Program

/-- Nothing befalls the operations. -/
def NoFailure (mishaps : Mishaps) : Prop := ∀ mishap ∈ mishaps, mishap = none

/-- One operation fails, or none. -/
def FailsAtMostOnce : Mishaps → Prop
  | [] => True
  | none :: mishaps => FailsAtMostOnce mishaps
  | some (.fail _) :: mishaps => NoFailure mishaps
  | some (.kill _) :: _ => False

theorem NoFailure.tail {mishaps : Mishaps} (h : NoFailure mishaps) : NoFailure mishaps.tail :=
  fun mishap hmem => h mishap (List.mem_of_mem_tail hmem)

theorem NoFailure.head {mishaps : Mishaps} (h : NoFailure mishaps) : mishaps.head?.join = none := by
  cases mishaps with
  | nil => rfl
  | cons mishap mishaps =>
    rw [h mishap List.mem_cons_self]
    rfl

theorem NoFailure.failsAtMostOnce {mishaps : Mishaps} (h : NoFailure mishaps) : FailsAtMostOnce mishaps := by
  induction mishaps with
  | nil => trivial
  | cons mishap mishaps ih =>
    rw [h mishap List.mem_cons_self]
    exact ih h.tail

theorem FailsAtMostOnce.tail {mishaps : Mishaps} (h : FailsAtMostOnce mishaps) : FailsAtMostOnce mishaps.tail := by
  cases mishaps with
  | nil => trivial
  | cons mishap mishaps =>
    cases mishap with
    | none => exact h
    | some mishap =>
      cases mishap with
      | fail k => exact NoFailure.failsAtMostOnce h
      | kill k => exact h.elim

/-- After the failure there is none. -/
theorem FailsAtMostOnce.noFailure {mishaps : Mishaps} {mishap : Mishap} (h : FailsAtMostOnce mishaps)
    (hhead : mishaps.head?.join = some mishap) : NoFailure mishaps.tail := by
  cases mishaps with
  | nil => nomatch hhead
  | cons first mishaps =>
    cases first with
    | none => nomatch hhead
    | some first =>
      cases first with
      | fail k => exact h
      | kill k => exact h.elim

/-- Nothing is killed. -/
theorem FailsAtMostOnce.not_kill {mishaps : Mishaps} {k : Nat} (h : FailsAtMostOnce mishaps) :
    mishaps.head?.join ≠ some (.kill k) := by
  cases mishaps with
  | nil => exact nofun
  | cons first mishaps =>
    cases first with
    | none => exact nofun
    | some first =>
      cases first with
      | fail k => exact nofun
      | kill k => exact h.elim

namespace Program

variable {σ ε α : Type} {failure : ε} {stop : Nat → σ → σ} {step : σ → Except ε (α × σ)}
variable {I : σ → Prop} {J : α → σ → Prop} {E : ε → Mishaps → σ → Prop} {K : σ → Prop}

/-- An operation where at most one fails. -/
theorem meets_operation_once (hdone : ∀ s a s', I s → step s = .ok (a, s') → J a s')
    (hraise : ∀ mishaps s e, FailsAtMostOnce mishaps → I s → step s = .error e → E e mishaps s)
    (hfail : ∀ mishaps s k, NoFailure mishaps → I s → E failure mishaps (stop k s)) :
    (operation failure stop step).Meets (fun mishaps s => FailsAtMostOnce mishaps ∧ I s)
      (fun a mishaps s => FailsAtMostOnce mishaps ∧ J a s) E K := by
  refine meets_operation ?_ ?_ ?_ ?_
  · intro mishaps s a s' hs _ hstep
    exact ⟨hs.1.tail, hdone s a s' hs.2 hstep⟩
  · intro mishaps s e hs _ hstep
    exact hraise _ s e hs.1.tail hs.2 hstep
  · intro mishaps s k hs hhead
    exact hfail _ s k (hs.1.noFailure hhead) hs.2
  · intro mishaps s k hs hhead
    exact absurd hhead hs.1.not_kill

/-- An operation whatever befalls it. -/
theorem meets_operation_any (hdone : ∀ s a s', I s → step s = .ok (a, s') → J a s')
    (hraise : ∀ mishaps s e, I s → step s = .error e → E e mishaps s) (hfail : ∀ mishaps s k, I s → E failure mishaps (stop k s))
    (hkill : ∀ s k, I s → K (stop k s)) :
    (operation failure stop step).Meets (fun _ s => I s) (fun a _ s => J a s) E K :=
  meets_operation (fun _ s a s' hI _ hstep => hdone s a s' hI hstep) (fun _ s e hI _ hstep => hraise _ s e hI hstep)
    (fun _ s k hI _ => hfail _ s k hI) (fun _ s k hI _ => hkill s k hI)

/-- A program that ends in some states however it ends. -/
theorem Meets.state {m : Program σ ε α} {G : σ → Prop} (h : m.Meets (fun _ s => I s) (fun _ _ s => G s) (fun _ _ s => G s) G)
    (mishaps : Mishaps) {s : σ} (hI : I s) : G (m.run mishaps s).state := (h mishaps s hI).state_any

/-! ## What is kept whatever befalls -/

section Keeps

variable {β γ : Type} {G : σ → Prop} {F F' : σ → Prop} {J J' : α → σ → Prop}

/-- The program keeps an invariant whatever befalls its operations; where it also starts from a fact, its result is as wanted. -/
def Keeps (G : σ → Prop) (m : Program σ ε α) (F : σ → Prop) (J : α → σ → Prop) : Prop :=
  m.Meets (fun _ s => G s ∧ F s) (fun a _ s => G s ∧ J a s) (fun _ _ s => G s) G

theorem keeps_pure {a : α} (h : ∀ s, G s → F s → J a s) : (pure a : Program σ ε α).Keeps G F J :=
  meets_pure fun _ s hs => ⟨hs.1, h s hs.1 hs.2⟩

theorem keeps_raise {e : ε} : (raise e : Program σ ε α).Keeps G F J := meets_raise fun _ _ hs => hs.1

theorem keeps_query {f : σ → α} (h : ∀ s, G s → F s → J (f s) s) : (query f : Program σ ε α).Keeps G F J :=
  meets_query fun _ s hs => ⟨hs.1, h s hs.1 hs.2⟩

theorem keeps_ofExcept {x : Except ε α} (h : ∀ a s, x = .ok a → G s → F s → J a s) : (ofExcept x : Program σ ε α).Keeps G F J :=
  meets_ofExcept (fun a _ s hx hs => ⟨hs.1, h a s hx hs.1 hs.2⟩) (fun _ _ _ _ hs => hs.1)

theorem keeps_bind {m : Program σ ε β} {f : β → Program σ ε α} {R : β → σ → Prop} (hm : m.Keeps G F R)
    (hf : ∀ b, (f b).Keeps G (R b) J) : (m >>= f).Keeps G F J := meets_bind hm hf

theorem keeps_when {condition : Bool} {m : Program σ ε Unit} {J : Unit → σ → Prop} (hm : condition = true → m.Keeps G F J)
    (hskip : condition = false → ∀ s, G s → F s → J () s) : (when condition m).Keeps G F J :=
  meets_when hm fun h _ s hs => ⟨hs.1, hskip h s hs.1 hs.2⟩

theorem keeps_tryCatch {m : Program σ ε α} {handler : ε → Program σ ε α} (hm : m.Keeps G F J)
    (hhandler : ∀ e, (handler e).Keeps G (fun _ => True) J) : (m.tryCatch handler).Keeps G F J :=
  meets_tryCatch hm fun e => (hhandler e).from fun _ _ hs => ⟨hs, trivial⟩

theorem Keeps.mono {m : Program σ ε α} (h : m.Keeps G F J) (hF : ∀ s, G s → F' s → F s) (hJ : ∀ a s, G s → J a s → J' a s) :
    m.Keeps G F' J' :=
  h.weaken (fun _ s hs => ⟨hs.1, hF s hs.1 hs.2⟩) (fun a _ s hs => ⟨hs.1, hJ a s hs.1 hs.2⟩) (fun _ _ _ hs => hs) (fun _ hs => hs)

/-- The last part keeps what the first one gives. -/
theorem keeps_tryFinally {m : Program σ ε α} {last : Program σ ε Unit} (hm : m.Keeps G F J)
    (hlast : ∀ F : σ → Prop, last.Keeps G F (fun _ => F)) : (tryFinally m last).Keeps G F J := by
  refine keeps_bind (R := J) (keeps_tryCatch hm fun e => keeps_bind (hlast _) fun _ => keeps_raise) fun a => ?_
  exact keeps_bind (hlast _) fun _ => keeps_pure fun _ _ hs => hs

/-- An operation that stops where it started. -/
theorem keeps_operation (h : ∀ s a s', G s → F s → step s = .ok (a, s') → G s' ∧ J a s') :
    (operation failure (fun _ s => s) step).Keeps G F J :=
  meets_operation_any (J := fun a s => G s ∧ J a s) (fun s a s' hs hstep => h s a s' hs.1 hs.2 hstep) (fun _ _ _ hs _ => hs.1)
    (fun _ _ _ hs => hs.1) (fun _ _ hs => hs.1)

/-- What holds where a program starts may be used of it. -/
theorem keeps_of_imp {m : Program σ ε α} {φ : Prop} (hφ : ∀ s, G s → F s → φ) (h : φ → m.Keeps G F J) : m.Keeps G F J :=
  meets_of_imp (fun _ s hs => hφ s hs.1 hs.2) h

/-- A loop whose turns keep a fact. -/
theorem keeps_forM {xs : List γ} {body : γ → Program σ ε PUnit} (h : ∀ x ∈ xs, (body x).Keeps G F (fun _ => F)) :
    (xs.forM body).Keeps G F (fun _ => F) := by
  refine meets_forM (I := fun _ _ _ s => G s ∧ F s) (fun _ _ hs => hs) ?_ (fun _ _ hs => hs)
  intro before x after hsplit
  exact h x (by rw [← hsplit]; exact List.mem_append_right _ List.mem_cons_self)

/-- A loop whose turns add to a fact about those that are done. -/
theorem keeps_forM_steps {xs : List γ} {body : γ → Program σ ε PUnit} (I : List γ → σ → Prop)
    (h : ∀ done x rest, done ++ x :: rest = xs → (body x).Keeps G (I done) (fun _ => I (done ++ [x]))) :
    (xs.forM body).Keeps G (I []) (fun _ => I xs) :=
  meets_forM (I := fun done _ _ s => G s ∧ I done s) (fun _ _ hs => hs) (fun done x rest hsplit => h done x rest hsplit) fun _ _ hs => hs

/-- A program that keeps an invariant ends in it. -/
theorem Keeps.state {m : Program σ ε α} (h : m.Keeps G F J) (mishaps : Mishaps) {s : σ} (hG : G s) (hF : F s) :
    G (m.run mishaps s).state :=
  Meets.state (I := fun s => G s ∧ F s) (h.weaken (fun _ _ hs => hs) (fun _ _ _ hs => hs.1) (fun _ _ _ hs => hs) fun _ hs => hs)
    mishaps ⟨hG, hF⟩

end Keeps

/-! ## Without failures -/

variable {β : Type} {s : σ} {Q : α → σ → Prop}

/-- The program ends with a result when nothing befalls its operations. -/
def Completes (m : Program σ ε α) (s : σ) (Q : α → σ → Prop) : Prop :=
  ∃ n a s', Q a s' ∧ ∀ mishaps : Mishaps, NoFailure (mishaps.take n) → m.run mishaps s = .done a (mishaps.drop n) s'

theorem completes_pure {a : α} (h : Q a s) : (pure a : Program σ ε α).Completes s Q := ⟨0, a, s, h, fun _ _ => rfl⟩

theorem completes_query {f : σ → α} (h : Q (f s) s) : (query f : Program σ ε α).Completes s Q := ⟨0, f s, s, h, fun _ _ => rfl⟩

theorem completes_operation {a : α} {s' : σ} (hstep : step s = .ok (a, s')) (h : Q a s') :
    (operation failure stop step).Completes s Q := by
  refine ⟨1, a, s', h, ?_⟩
  intro mishaps hnone
  have hhead : mishaps.head?.join = none := by
    have hjoin := hnone.head
    rwa [List.head?_take, if_neg (by decide)] at hjoin
  simp only [operation, hhead, hstep, List.drop_one]

theorem Completes.mono {m : Program σ ε α} {Q' : α → σ → Prop} (h : m.Completes s Q) (hQ : ∀ a s', Q a s' → Q' a s') :
    m.Completes s Q' := by
  obtain ⟨n, a, s', hs', hrun⟩ := h
  exact ⟨n, a, s', hQ a s' hs', hrun⟩

theorem completes_bind {m : Program σ ε β} {f : β → Program σ ε α}
    (h : m.Completes s (fun b s' => (f b).Completes s' Q)) : (m >>= f).Completes s Q := by
  obtain ⟨n, b, s', ⟨n', a, s'', hs'', hrun'⟩, hrun⟩ := h
  refine ⟨n + n', a, s'', hs'', ?_⟩
  intro mishaps hnone
  rw [List.take_add] at hnone
  have hfirst : NoFailure (mishaps.take n) := fun mishap hmem => hnone mishap (List.mem_append_left _ hmem)
  have hsecond : NoFailure ((mishaps.drop n).take n') := fun mishap hmem => hnone mishap (List.mem_append_right _ hmem)
  show ((m.run mishaps s).andThen (fun b => (f b).run)) = _
  rw [hrun mishaps hfirst, ← List.drop_drop]
  exact hrun' _ hsecond

theorem completes_tryCatch {m : Program σ ε α} {handler : ε → Program σ ε α} (h : m.Completes s Q) :
    (m.tryCatch handler).Completes s Q := by
  obtain ⟨n, a, s', hs', hrun⟩ := h
  refine ⟨n, a, s', hs', ?_⟩
  intro mishaps hnone
  show ((m.run mishaps s).orElse (fun e => (handler e).run)) = _
  rw [hrun mishaps hnone]
  rfl

theorem completes_when {condition : Bool} {m : Program σ ε Unit} {Q : Unit → σ → Prop}
    (hm : condition = true → m.Completes s Q) (hskip : condition = false → Q () s) : (when condition m).Completes s Q := by
  cases condition with
  | true => exact hm rfl
  | false => exact completes_pure (hskip rfl)

/-- A loop of which each turn is completed. -/
theorem completes_forM {xs : List β} {body : β → Program σ ε PUnit} {I : List β → List β → σ → Prop}
    (hs : I [] xs s) (hbody : ∀ before x after s, before ++ x :: after = xs → I before (x :: after) s →
      (body x).Completes s (fun _ => I (before ++ [x]) after)) : (xs.forM body).Completes s (fun _ => I xs []) := by
  have hloop : ∀ after before s, before ++ after = xs → I before after s → (after.forM body).Completes s (fun _ => I xs []) := by
    intro after
    induction after with
    | nil =>
      intro before s hxs hI
      rw [List.append_nil] at hxs
      subst hxs
      exact completes_pure hI
    | cons x after ih =>
      intro before s hxs hI
      show (body x >>= fun _ => after.forM body).Completes s (fun _ => I xs [])
      refine completes_bind ((hbody before x after s hxs hI).mono ?_)
      exact fun _ s' hI' => ih (before ++ [x]) s' (by rw [List.append_assoc]; exact hxs) hI'
  exact hloop xs [] s rfl hs

/-- What a program meets holds where it is completed. -/
theorem Completes.and_meets {m : Program σ ε α} (h : m.Completes s (fun _ _ => True))
    (hm : m.Meets (fun _ s => I s) (fun a _ s => J a s) E K) (hI : I s) : m.Completes s J := by
  obtain ⟨n, a, s', -, hrun⟩ := h
  refine ⟨n, a, s', ?_, hrun⟩
  have hmeets := hm [] s hI
  rw [hrun [] (by rw [List.take_nil]; exact nofun)] at hmeets
  exact hmeets

/-- A program that is completed ends with a result where nothing fails. -/
theorem meets_of_completes {m : Program σ ε α} (h : ∀ s, I s → m.Completes s J) :
    m.Meets (fun mishaps s => NoFailure mishaps ∧ I s) (fun a mishaps s => NoFailure mishaps ∧ J a s) E K := by
  rintro mishaps s ⟨hm, hI⟩
  obtain ⟨n, a, s', hs', hrun⟩ := h s hI
  rw [hrun mishaps (fun mishap hmem => hm mishap (List.mem_of_mem_take hmem))]
  exact ⟨fun mishap hmem => hm mishap (List.mem_of_mem_drop hmem), hs'⟩

/-! ## What may befall -/

/-- The end of a program with a result or an exception. -/
def ended (r : Except ε α) (mishaps : Mishaps) (s : σ) : Execution σ ε α :=
  match r with
  | .ok a => .done a mishaps s
  | .error e => .raised e mishaps s

/-- Something may befall the operations of the program so that it ends as wanted. -/
def May (m : Program σ ε α) (s : σ) (Q : Except ε α → σ → Prop) : Prop :=
  ∃ befalls r s', Q r s' ∧ ∀ mishaps : Mishaps, m.run (befalls ++ mishaps) s = ended r mishaps s'

section May

variable {R : Except ε α → σ → Prop}

theorem Completes.may {m : Program σ ε α} (h : m.Completes s (fun a => R (.ok a))) : m.May s R := by
  obtain ⟨n, a, s', hs', hrun⟩ := h
  refine ⟨List.replicate n none, .ok a, s', hs', ?_⟩
  intro mishaps
  rw [hrun]
  · rw [List.drop_left' List.length_replicate]
    rfl
  · rw [List.take_left' List.length_replicate]
    exact fun mishap hmem => List.eq_of_mem_replicate hmem

theorem May.mono {m : Program σ ε α} {R' : Except ε α → σ → Prop} (h : m.May s R) (hR : ∀ r s', R r s' → R' r s') : m.May s R' := by
  obtain ⟨befalls, r, s', hs', hrun⟩ := h
  exact ⟨befalls, r, s', hR r s' hs', hrun⟩

/-- What a program meets when it raises holds where it may raise. -/
theorem May.and_meets {m : Program σ ε α} (h : m.May s (fun r s' => (∃ e, r = .error e) ∧ R r s')) {E : ε → σ → Prop}
    (hm : m.Meets (fun _ s => I s) (fun a _ s => J a s) (fun e _ s => E e s) K) (hI : I s) :
    m.May s (fun r s' => ∃ e, r = .error e ∧ R r s' ∧ E e s') := by
  obtain ⟨befalls, _, s', ⟨⟨e, rfl⟩, hs'⟩, hrun⟩ := h
  refine ⟨befalls, .error e, s', ⟨e, rfl, hs', ?_⟩, hrun⟩
  have hmeets := hm (befalls ++ []) s hI
  rw [hrun []] at hmeets
  exact hmeets

theorem may_raise {e : ε} (h : R (.error e) s) : (raise e : Program σ ε α).May s R := ⟨[], .error e, s, h, fun _ => rfl⟩

/-- An operation may fail. -/
theorem may_fail (k : Nat) (h : R (.error failure) (stop k s)) : (operation failure stop step).May s R :=
  ⟨[some (.fail k)], .error failure, stop k s, h, fun _ => rfl⟩

theorem may_bind {m : Program σ ε β} {f : β → Program σ ε α}
    (h : m.May s (fun r s' => match r with | .ok b => (f b).May s' R | .error e => R (.error e) s')) : (m >>= f).May s R := by
  obtain ⟨befalls, r, s', hs', hrun⟩ := h
  cases r with
  | ok b =>
    obtain ⟨befalls', r', s'', hs'', hrun'⟩ := hs'
    refine ⟨befalls ++ befalls', r', s'', hs'', ?_⟩
    intro mishaps
    show ((m.run (befalls ++ befalls' ++ mishaps) s).andThen (fun b => (f b).run)) = _
    rw [List.append_assoc, hrun]
    exact hrun' mishaps
  | error e =>
    refine ⟨befalls, .error e, s', hs', ?_⟩
    intro mishaps
    show ((m.run (befalls ++ mishaps) s).andThen (fun b => (f b).run)) = _
    rw [hrun]
    rfl

theorem may_tryCatch {m : Program σ ε α} {handler : ε → Program σ ε α}
    (h : m.May s (fun r s' => match r with | .ok a => R (.ok a) s' | .error e => (handler e).May s' R)) :
    (m.tryCatch handler).May s R := by
  obtain ⟨befalls, r, s', hs', hrun⟩ := h
  cases r with
  | ok a =>
    refine ⟨befalls, .ok a, s', hs', ?_⟩
    intro mishaps
    show ((m.run (befalls ++ mishaps) s).orElse (fun e => (handler e).run)) = _
    rw [hrun]
    rfl
  | error e =>
    obtain ⟨befalls', r', s'', hs'', hrun'⟩ := hs'
    refine ⟨befalls ++ befalls', r', s'', hs'', ?_⟩
    intro mishaps
    show ((m.run (befalls ++ befalls' ++ mishaps) s).orElse (fun e => (handler e).run)) = _
    rw [List.append_assoc, hrun]
    exact hrun' mishaps

/-- In a loop the turns before one may be completed, and that one raise. -/
theorem may_forM {xs before after : List β} {x : β} {body : β → Program σ ε PUnit} {R : Except ε PUnit → σ → Prop}
    (hsplit : before ++ x :: after = xs) (hI : I s)
    (hbefore : ∀ y ∈ before, ∀ s, I s → (body y).Completes s (fun _ => I))
    (hx : ∀ s, I s → (body x).May s (fun r s' => ∃ e, r = .error e ∧ R (.error e) s')) : (xs.forM body).May s R := by
  subst hsplit
  induction before generalizing s with
  | nil =>
    show (body x >>= fun _ => after.forM body).May s R
    refine may_bind ?_
    obtain ⟨befalls, r, s', ⟨e, rfl, hs'⟩, hrun⟩ := hx s hI
    exact ⟨befalls, .error e, s', hs', hrun⟩
  | cons y before ih =>
    show (body y >>= fun _ => (before ++ x :: after).forM body).May s R
    refine may_bind (Completes.may ((hbefore y List.mem_cons_self s hI).mono ?_))
    exact fun _ s' hI' => ih hI' (fun z hz => hbefore z (List.mem_cons_of_mem y hz))

end May

/-! ## The end of a program -/

theorem run_pure (a : α) (mishaps : Mishaps) (s : σ) : (pure a : Program σ ε α).run mishaps s = .done a mishaps s := rfl

theorem run_bind (m : Program σ ε β) (f : β → Program σ ε α) (mishaps : Mishaps) (s : σ) :
    (m >>= f).run mishaps s = (m.run mishaps s).andThen (fun b => (f b).run) := rfl

theorem run_tryCatch (m : Program σ ε α) (handler : ε → Program σ ε α) (mishaps : Mishaps) (s : σ) :
    (m.tryCatch handler).run mishaps s = (m.run mishaps s).orElse (fun e => (handler e).run) := rfl

theorem run_query (f : σ → α) (mishaps : Mishaps) (s : σ) : (query f : Program σ ε α).run mishaps s = .done (f s) mishaps s := rfl

section Operation

variable {mishaps : Mishaps}

theorem run_operation_fail {k : Nat} (h : mishaps.head?.join = some (.fail k)) :
    (operation failure stop step).run mishaps s = .raised failure mishaps.tail (stop k s) := by
  simp only [operation, h]

theorem run_operation_kill {k : Nat} (h : mishaps.head?.join = some (.kill k)) :
    (operation failure stop step).run mishaps s = .killed (stop k s) := by
  simp only [operation, h]

theorem run_operation_done {a : α} {s' : σ} (h : mishaps.head?.join = none) (hstep : step s = .ok (a, s')) :
    (operation failure stop step).run mishaps s = .done a mishaps.tail s' := by
  simp only [operation, h, hstep]

end Operation

/-! ## What a program does when nothing befalls -/

/-- The program goes on as another one, when nothing befalls its first operations. -/
def Becomes (m : Program σ ε α) (s : σ) (m' : Program σ ε α) (s' : σ) : Prop :=
  ∃ n, ∀ mishaps : Mishaps, NoFailure (mishaps.take n) → m.run mishaps s = m'.run (mishaps.drop n) s'

/-- The program ends so, when nothing befalls its operations. -/
def Runs (m : Program σ ε α) (s : σ) (r : Except ε α) (s' : σ) : Prop :=
  ∃ n, ∀ mishaps : Mishaps, NoFailure (mishaps.take n) → m.run mishaps s = ended r (mishaps.drop n) s'

section Runs

variable {s' s'' : σ} {r : Except ε α}

theorem noFailure_nil : NoFailure [] := fun _ hmem => nomatch hmem

theorem Runs.run {m : Program σ ε α} (h : m.Runs s r s') : m.run [] s = ended r [] s' := by
  obtain ⟨n, hrun⟩ := h
  rw [hrun [] (by rw [List.take_nil]; exact noFailure_nil), List.drop_nil]

/-- A program ends in one way when nothing befalls. -/
theorem Runs.unique {m : Program σ ε α} {r' : Except ε α} (h : m.Runs s r s') (h' : m.Runs s r' s'') : r = r' ∧ s' = s'' := by
  have heq := h.run.symm.trans h'.run
  cases r with
  | ok a =>
    cases r' with
    | ok a' =>
      injection heq with ha _ hs
      exact ⟨congrArg Except.ok ha, hs⟩
    | error e' => nomatch heq
  | error e =>
    cases r' with
    | ok a' => nomatch heq
    | error e' =>
      injection heq with he _ hs
      exact ⟨congrArg Except.error he, hs⟩

theorem Becomes.trans {m m' m'' : Program σ ε α} (h : m.Becomes s m' s') (h' : m'.Becomes s' m'' s'') : m.Becomes s m'' s'' := by
  obtain ⟨n, hrun⟩ := h
  obtain ⟨n', hrun'⟩ := h'
  refine ⟨n + n', fun mishaps hnone => ?_⟩
  rw [List.take_add] at hnone
  rw [hrun mishaps (fun mishap hmem => hnone mishap (List.mem_append_left _ hmem)),
    hrun' _ (fun mishap hmem => hnone mishap (List.mem_append_right _ hmem)), List.drop_drop]

theorem Becomes.runs {m m' : Program σ ε α} (h : m.Becomes s m' s') (h' : m'.Runs s' r s'') : m.Runs s r s'' := by
  obtain ⟨n, hrun⟩ := h
  obtain ⟨n', hrun'⟩ := h'
  refine ⟨n + n', fun mishaps hnone => ?_⟩
  rw [List.take_add] at hnone
  rw [hrun mishaps (fun mishap hmem => hnone mishap (List.mem_append_left _ hmem)),
    hrun' _ (fun mishap hmem => hnone mishap (List.mem_append_right _ hmem)), List.drop_drop]

theorem noFailure_take_replicate (n : Nat) (mishaps : Mishaps) : NoFailure ((List.replicate n none ++ mishaps).take n) := by
  rw [List.take_left' List.length_replicate]
  exact fun mishap hmem => List.eq_of_mem_replicate hmem

theorem Runs.may {m : Program σ ε α} {R : Except ε α → σ → Prop} (h : m.Runs s r s') (hR : R r s') : m.May s R := by
  obtain ⟨n, hrun⟩ := h
  refine ⟨List.replicate n none, r, s', hR, fun mishaps => ?_⟩
  rw [hrun _ (noFailure_take_replicate n _), List.drop_left' List.length_replicate]

theorem Becomes.may {m m' : Program σ ε α} {R : Except ε α → σ → Prop} (h : m.Becomes s m' s') (h' : m'.May s' R) : m.May s R := by
  obtain ⟨n, hrun⟩ := h
  obtain ⟨befalls, r, s'', hs'', hrun'⟩ := h'
  refine ⟨List.replicate n none ++ befalls, r, s'', hs'', fun mishaps => ?_⟩
  rw [List.append_assoc, hrun _ (noFailure_take_replicate n _), List.drop_left' List.length_replicate, hrun']

theorem runs_pure {a : α} : (pure a : Program σ ε α).Runs s (.ok a) s := ⟨0, fun _ _ => rfl⟩

theorem runs_raise {e : ε} : (raise e : Program σ ε α).Runs s (.error e) s := ⟨0, fun _ _ => rfl⟩

theorem runs_query {f : σ → α} : (query f : Program σ ε α).Runs s (.ok (f s)) s := ⟨0, fun _ _ => rfl⟩

theorem runs_ofExcept {x : Except ε α} : (ofExcept x : Program σ ε α).Runs s x s := by
  cases x with
  | ok a => exact runs_pure
  | error e => exact runs_raise

/-- What an operation does when it does not fail. -/
theorem run_operation {mishaps : Mishaps} (hnone : NoFailure (mishaps.take 1)) :
    (operation failure stop step).run mishaps s =
      match step s with
      | .ok (a, s') => .done a (mishaps.drop 1) s'
      | .error e => .raised e (mishaps.drop 1) s := by
  have hhead : mishaps.head?.join = none := by
    have hjoin := hnone.head
    rwa [List.head?_take, if_neg (by decide)] at hjoin
  simp only [operation, hhead, List.drop_one]

theorem runs_operation {a : α} (h : step s = .ok (a, s')) : (operation failure stop step).Runs s (.ok a) s' :=
  ⟨1, fun mishaps hnone => by rw [run_operation hnone, h]; rfl⟩

theorem runs_operation_error {e : ε} (h : step s = .error e) : (operation failure stop step).Runs s (.error e) s :=
  ⟨1, fun mishaps hnone => by rw [run_operation hnone, h]; rfl⟩

/-- After its first part a sequence is the second. -/
theorem becomes_bind {m : Program σ ε β} {f : β → Program σ ε α} {b : β} (hm : m.Runs s (.ok b) s') : (m >>= f).Becomes s (f b) s' := by
  obtain ⟨n, hrun⟩ := hm
  refine ⟨n, fun mishaps hnone => ?_⟩
  show ((m.run mishaps s).andThen (fun b => (f b).run)) = _
  rw [hrun mishaps hnone]
  rfl

theorem runs_bind {m : Program σ ε β} {f : β → Program σ ε α} {b : β} (hm : m.Runs s (.ok b) s') (hf : (f b).Runs s' r s'') :
    (m >>= f).Runs s r s'' :=
  (becomes_bind hm).runs hf

theorem runs_bind_error {m : Program σ ε β} {f : β → Program σ ε α} {e : ε} (hm : m.Runs s (.error e) s') :
    (m >>= f).Runs s (.error e) s' := by
  obtain ⟨n, hrun⟩ := hm
  refine ⟨n, fun mishaps hnone => ?_⟩
  show ((m.run mishaps s).andThen (fun b => (f b).run)) = _
  rw [hrun mishaps hnone]
  rfl

theorem runs_tryCatch {m : Program σ ε α} {handler : ε → Program σ ε α} {a : α} (hm : m.Runs s (.ok a) s') :
    (m.tryCatch handler).Runs s (.ok a) s' := by
  obtain ⟨n, hrun⟩ := hm
  refine ⟨n, fun mishaps hnone => ?_⟩
  show ((m.run mishaps s).orElse (fun e => (handler e).run)) = _
  rw [hrun mishaps hnone]
  rfl

theorem runs_tryCatch_error {m : Program σ ε α} {handler : ε → Program σ ε α} {e : ε} (hm : m.Runs s (.error e) s')
    (hhandler : (handler e).Runs s' r s'') : (m.tryCatch handler).Runs s r s'' := by
  have hbecomes : (m.tryCatch handler).Becomes s (handler e) s' := by
    obtain ⟨n, hrun⟩ := hm
    refine ⟨n, fun mishaps hnone => ?_⟩
    show ((m.run mishaps s).orElse (fun e => (handler e).run)) = _
    rw [hrun mishaps hnone]
    rfl
  exact hbecomes.runs hhandler

/-- A first part that is done, and a last part that is. -/
theorem runs_tryFinally {m : Program σ ε α} {last : Program σ ε Unit} {a : α} (hm : m.Runs s (.ok a) s')
    (hlast : last.Runs s' (.ok ()) s'') : (tryFinally m last).Runs s (.ok a) s'' :=
  runs_bind (runs_tryCatch hm) (runs_bind hlast runs_pure)

end Runs

end Program

end Scbl.Lib
