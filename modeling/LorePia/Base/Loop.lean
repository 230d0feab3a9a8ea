/-!
# Loops without a bound

A turn of a loop gives its next state or its result. `Halts turn s r` says that the loop from `s` ends with
`r`, and `turns turn n s` is what it ends with within `n` turns.
-/

namespace Base

section
variable {σ ρ : Type} (turn : σ → σ ⊕ ρ)

/-- The loop from a state ends with a result. -/
inductive Halts : σ → ρ → Prop
  | stop {s : σ} {r : ρ} : turn s = .inr r → Halts s r
  | again {s t : σ} {r : ρ} : turn s = .inl t → Halts t r → Halts s r

/-- The result of a loop that ends within a number of turns. -/
def turns : Nat → σ → Option ρ
  | 0, _ => none
  | n + 1, s =>
    match turn s with
    | .inr r => some r
    | .inl t => turns n t

end

variable {σ ρ : Type} {turn : σ → σ ⊕ ρ}

theorem Halts.unique {s : σ} {r r' : ρ} (h : Halts turn s r) (h' : Halts turn s r') : r = r' := by
  induction h with
  | stop hs =>
    cases h' with
    | stop hs' =>
      rw [hs] at hs'
      exact Sum.inr.inj hs'
    | again hs' _ =>
      rw [hs] at hs'
      cases hs'
  | again hs _ ih =>
    cases h' with
    | stop hs' =>
      rw [hs] at hs'
      cases hs'
    | again hs' h' =>
      rw [hs] at hs'
      cases hs'
      exact ih h'

end Base
