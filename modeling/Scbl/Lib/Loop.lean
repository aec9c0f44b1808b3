import Mathlib.Order.Basic

/-!
# Loops that may not end

A loop runs its body until that gives a result, and gives the result `out` when it has run out of fuel. `loop_ends` is the rule of total
correctness: where a round keeps an invariant and decreases a measure, enough fuel gives a result of the body.
-/

namespace Scbl.Lib

variable {σ ρ : Type}

/-- Run a body on a state until it gives a result, for as many rounds as there is fuel. -/
def loop (out : ρ) (body : σ → σ ⊕ ρ) : Nat → σ → ρ
  | 0, _ => out
  | fuel + 1, s =>
    match body s with
    | .inl s' => loop out body fuel s'
    | .inr r => r

/-- A loop whose rounds keep an invariant and decrease a measure ends with a result of its body. -/
theorem loop_ends {out : ρ} {body : σ → σ ⊕ ρ} (measure : σ → Nat) (I : σ → Prop) {P : ρ → Prop}
    (hround : ∀ s s', I s → body s = .inl s' → I s' ∧ measure s' < measure s) (hend : ∀ s r, I s → body s = .inr r → P r)
    {fuel : Nat} {s : σ} (hs : I s) (hfuel : measure s < fuel) : P (loop out body fuel s) := by
  induction fuel generalizing s with
  | zero => exact absurd hfuel (Nat.not_lt_zero _)
  | succ fuel ih =>
    rw [loop]
    split
    · rename_i s' hbody
      obtain ⟨hs', hless⟩ := hround s s' hs hbody
      exact ih hs' (Nat.lt_of_lt_of_le hless (Nat.lt_succ_iff.mp hfuel))
    · rename_i r hbody
      exact hend s r hs hbody

end Scbl.Lib
