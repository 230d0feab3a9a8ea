import Mathlib.Logic.Relation

/-!
# Runs of a transition system

A run is a sequence of steps (`Relation.ReflTransGen`). An invariant that every step keeps holds in
every state of a run (`run_inv`), and a preorder that every step from an invariant state goes along
relates its first state to its last (`run_rel`).

A run of a machine that answers requests is written down as its `history`: each request with the state
that it meets. A preorder that every request goes along relates any two of its moments
(`history_pairwise`).
-/

namespace Base

open Relation

variable {σ : Type} {step : σ → σ → Prop} {I : σ → Prop} {R : σ → σ → Prop}

theorem run_inv (hstep : ∀ s t, I s → step s t → I t) {s t : σ} (h : ReflTransGen step s t)
    (hs : I s) : I t := by
  induction h with
  | refl => exact hs
  | tail _ hlast ih => exact hstep _ _ ih hlast

theorem run_rel (hstep : ∀ s t, I s → step s t → I t) (hrefl : ∀ s, R s s)
    (htrans : ∀ s t u, R s t → R t u → R s u) (hrel : ∀ s t, I s → step s t → R s t) {s t : σ}
    (h : ReflTransGen step s t) (hs : I s) : R s t := by
  induction h with
  | refl => exact hrefl s
  | tail hrun hlast ih => exact htrans _ _ _ ih (hrel _ _ (run_inv hstep hrun hs) hlast)

/-! ## Histories -/

variable {ρ : Type} {next : σ → ρ → σ}

/-- The requests of a run, each with the state that it meets. -/
def history (next : σ → ρ → σ) : σ → List ρ → List (σ × ρ)
  | _, [] => []
  | s, r :: rest => (s, r) :: history next (next s r) rest

theorem history_inv (hnext : ∀ s r, I s → I (next s r)) : ∀ {requests : List ρ} {s : σ}, I s →
    ∀ e ∈ history next s requests, I e.1
  | [], s, _, e, he => by cases he
  | r :: rest, s, hs, e, he => by
    rcases List.mem_cons.1 he with rfl | he
    · exact hs
    · exact history_inv hnext (hnext s r hs) e he

theorem history_from (hrefl : ∀ s, R s s) (htrans : ∀ s t u, R s t → R t u → R s u)
    (hnext : ∀ s r, R s (next s r)) : ∀ {requests : List ρ} {s : σ},
    ∀ e ∈ history next s requests, R s e.1
  | [], s, e, he => by cases he
  | r :: rest, s, e, he => by
    rcases List.mem_cons.1 he with rfl | he
    · exact hrefl s
    · exact htrans _ _ _ (hnext s r) (history_from hrefl htrans hnext e he)

/-- **Any two moments of a history** are related by what every request goes along. -/
theorem history_pairwise (hrefl : ∀ s, R s s) (htrans : ∀ s t u, R s t → R t u → R s u)
    (hnext : ∀ s r, R s (next s r)) : ∀ (s : σ) (requests : List ρ),
    (history next s requests).Pairwise fun e f => R (next e.1 e.2) f.1
  | _, [] => .nil
  | s, r :: rest =>
    .cons (history_from hrefl htrans hnext) (history_pairwise hrefl htrans hnext (next s r) rest)

end Base
