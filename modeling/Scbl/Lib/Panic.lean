import Mathlib.Data.UInt

/-!
# Code that can panic

A computation that may end in a panic is an `Except Panic`; one that may also return an error of its own is an
`Except (Fault ε)`, where an error is an answer the caller sees and a panic is not. `NoPanic` says that a computation ends
without one.

Integer addition depends on the build: a debug build panics when it overflows, a release build wraps.
-/

namespace Scbl.Lib

/-- The ways a computation panics. -/
inductive Panic where
  | todo | assertion | overflow | divisionByZero | unwrap | borrow | explicit
  deriving DecidableEq, Repr

/-- How a fallible computation ends without a result: it panics, or it fails with an error of its own. -/
inductive Fault (ε : Type) where
  | panic (p : Panic)
  | fail (e : ε)
  deriving DecidableEq, Repr

/-- `assert!`: panic when the condition is false. -/
def assert (c : Bool) : Except Panic Unit :=
  if c then .ok () else .error .assertion

/-- `unwrap` and `expect`: panic when there is no value. -/
def unwrap {α : Type} : Option α → Except Panic α
  | some a => .ok a
  | none => .error .unwrap

/-- A computation that only panics, seen as a fallible one. -/
def liftPanic {ε α : Type} : Except Panic α → Except (Fault ε) α
  | .ok a => .ok a
  | .error p => .error (.panic p)

/-- A computation that only fails, seen as one that could also panic. -/
def liftFail {ε α : Type} : Except ε α → Except (Fault ε) α
  | .ok a => .ok a
  | .error e => .error (.fail e)

/-- What the caller of a fallible computation sees: a result or an error, unless the computation panicked. -/
def answer {ε α : Type} : Except (Fault ε) α → Except Panic (Except ε α)
  | .ok a => .ok (.ok a)
  | .error (.fail e) => .ok (.error e)
  | .error (.panic p) => .error p

/-- The build of the program, which decides what an overflowing addition does. -/
inductive Build where
  | debug | release
  deriving DecidableEq, Repr

/-- `x + y` on `u16`. -/
def Build.addU16 (build : Build) (x y : UInt16) : Except Panic UInt16 :=
  match build with
  | .release => .ok (x + y)
  | .debug => if x.toNat + y.toNat < 2 ^ 16 then .ok (x + y) else .error .overflow

/-- `x + y` on `u32`. -/
def Build.addU32 (build : Build) (x y : UInt32) : Except Panic UInt32 :=
  match build with
  | .release => .ok (x + y)
  | .debug => if x.toNat + y.toNat < 2 ^ 32 then .ok (x + y) else .error .overflow

/-- An addition that does not overflow gives the sum. -/
theorem Build.addU16_ok (build : Build) {x y : UInt16} (h : x.toNat + y.toNat < 2 ^ 16) : build.addU16 x y = .ok (x + y) := by
  cases build with
  | debug => exact if_pos h
  | release => rfl

/-! ## Sequencing -/

/-- A result whose errors are replaced is a success if it was one. -/
theorem ok_of_mapError {ε ε' α : Type} {x : Except ε α} {f : ε → ε'} {a : α} (h : x.mapError f = .ok a) : x = .ok a := by
  cases x with
  | error e => nomatch h
  | ok a' => exact congrArg Except.ok (Except.ok.inj h)

/-- A sequence goes on with the result. -/
theorem ok_bind {ε α β : Type} (a : α) (f : α → Except ε β) : ((.ok a : Except ε α) >>= f) = f a := rfl

/-- A sequence ends with a result when both parts do. -/
theorem bind_eq_ok {ε α β : Type} {x : Except ε α} {f : α → Except ε β} {b : β} :
    (x >>= f) = .ok b ↔ ∃ a, x = .ok a ∧ f a = .ok b := by
  cases x with
  | error e => exact ⟨fun h => (nomatch h), fun ⟨_, h, _⟩ => (nomatch h)⟩
  | ok a =>
    constructor
    · exact fun h => ⟨a, rfl, h⟩
    · rintro ⟨a', h, hf⟩
      cases h
      exact hf

/-- What every step of a loop keeps holds of its result. -/
theorem foldlM_induction {ε α β : Type} {f : β → α → Except ε β} {I : β → Prop} (hstep : ∀ b a b', I b → f b a = .ok b' → I b')
    {l : List α} {b b' : β} (h : l.foldlM f b = .ok b') (hb : I b) : I b' := by
  induction l generalizing b with
  | nil =>
    obtain rfl := Except.ok.inj h
    exact hb
  | cons a l ih =>
    rw [List.foldlM_cons] at h
    obtain ⟨b1, hf, h⟩ := bind_eq_ok.1 h
    exact ih h (hstep b a b1 hb hf)

/-- A computation ends without a panic. -/
def NoPanic {ε α : Type} (x : Except (Fault ε) α) : Prop := ∀ p, x ≠ .error (.panic p)

/-- A sequence ends without a panic when both parts do. -/
theorem NoPanic.bind {ε α β : Type} {x : Except (Fault ε) α} {f : α → Except (Fault ε) β} (hx : NoPanic x)
    (hf : ∀ a, x = .ok a → NoPanic (f a)) : NoPanic (x >>= f) := by
  cases x with
  | error e => exact fun p h => hx p (congrArg Except.error (Except.error.inj h))
  | ok a => exact hf a rfl

/-- A result is no panic. -/
theorem noPanic_ok {ε α : Type} (a : α) : NoPanic (.ok a : Except (Fault ε) α) := fun _ h => nomatch h

/-- An error is no panic. -/
theorem noPanic_fail {ε α : Type} (e : ε) : NoPanic (.error (.fail e) : Except (Fault ε) α) := fun _ h => nomatch h

/-- A computation of whose result something is known has a result. -/
theorem exists_ok_of_toOption {ε α β : Type} {x : Except ε α} {f : α → β} {b : β} (h : x.toOption.map f = some b) :
    ∃ a, x = .ok a ∧ f a = b := by
  cases x with
  | error e => nomatch h
  | ok a => exact ⟨a, rfl, Option.some.inj h⟩

end Scbl.Lib
