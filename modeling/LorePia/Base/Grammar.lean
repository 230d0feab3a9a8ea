import LorePia.Base.Result
import Mathlib.Algebra.BigOperators.Group.List.Basic

/-!
# Decoders and grammars

A decoder changes a state or fails. A `Trace` labels what happens to the state by a monoid: the extents that
are consumed. A grammar says which extents mean which value; a decoder is sound for it when what it returns
was derived from what it consumed (`Sound`), and complete when it consumes every extent of the grammar
(`Complete`). Both are closed under sequencing (`andThen`) and repetition (`times`).
-/

namespace Base

/-- A decoder over a state. -/
abbrev Decoder (σ ε α : Type) := StateT σ (Except ε) α

section
variable {σ ε α β : Type}

theorem run_bind_eq_ok {p : Decoder σ ε α} {f : α → Decoder σ ε β} {s s' : σ} {b : β} :
    (p >>= f).run s = .ok (b, s') ↔ ∃ a t, p.run s = .ok (a, t) ∧ (f a).run t = .ok (b, s') := by
  rw [StateT.run_bind, bind_eq_ok]
  exact Prod.exists

theorem run_pure_eq_ok {a b : α} {s s' : σ} :
    (pure a : Decoder σ ε α).run s = .ok (b, s') ↔ a = b ∧ s = s' := by
  rw [StateT.run_pure, pure_eq_ok, Prod.mk.injEq]

/-- `n` results in a row. -/
def times (p : Decoder σ ε α) : Nat → Decoder σ ε (List α)
  | 0 => pure []
  | n + 1 => do
    let a ← p
    let rest ← times p n
    pure (a :: rest)

end

/-- The extents between states. -/
structure Trace (σ ω : Type) [Monoid ω] where
  Good : σ → Prop
  Step : σ → ω → σ → Prop
  step_one : ∀ {s s'}, Step s 1 s' ↔ Good s ∧ s = s'
  step_mul : ∀ {s u v s'}, Step s (u * v) s' ↔ ∃ t, Step s u t ∧ Step t v s'

section
variable {σ ω ε α β : Type} [Monoid ω] (T : Trace σ ω)

theorem Trace.good_right {s s' : σ} {w : ω} (h : T.Step s w s') : T.Good s' := by
  rw [← mul_one w, T.step_mul] at h
  obtain ⟨t, -, hone⟩ := h
  obtain ⟨hgood, rfl⟩ := T.step_one.1 hone
  exact hgood

/-- What is returned was derived from what was consumed. -/
def Sound (p : Decoder σ ε α) (G : ω → α → Prop) : Prop :=
  ∀ ⦃s a s'⦄, T.Good s → p.run s = .ok (a, s') → ∃ w, G w a ∧ T.Step s w s'

/-- What the grammar derives is consumed and returned. -/
def Complete (p : Decoder σ ε α) (G : ω → α → Prop) : Prop :=
  ∀ ⦃s w a s'⦄, G w a → T.Step s w s' → p.run s = .ok (a, s')

/-- No extent, for one value. -/
def NoExtent (a : α) (w : ω) (b : α) : Prop := w = 1 ∧ b = a

/-- One extent, then another that depends on its value. -/
def AndThen (G : ω → α → Prop) (H : α → ω → β → Prop) (w : ω) (b : β) : Prop :=
  ∃ a u v, G u a ∧ H a v b ∧ w = u * v

/-- As many extents as values. -/
def Times (G : ω → α → Prop) (n : Nat) (w : ω) (as : List α) : Prop :=
  as.length = n ∧ ∃ ws, List.Forall₂ G ws as ∧ w = ws.prod

variable {T}

theorem Sound.mono {p : Decoder σ ε α} {G H : ω → α → Prop} (h : Sound T p G)
    (hGH : ∀ w a, G w a → H w a) : Sound T p H := by
  intro s a s' hgood hrun
  obtain ⟨w, hw, hstep⟩ := h hgood hrun
  exact ⟨w, hGH w a hw, hstep⟩

theorem Sound.pure (a : α) : Sound T (pure a : Decoder σ ε α) (NoExtent a) := by
  intro s b s' hgood hrun
  obtain ⟨rfl, rfl⟩ := run_pure_eq_ok.1 hrun
  exact ⟨1, ⟨rfl, rfl⟩, T.step_one.2 ⟨hgood, rfl⟩⟩

theorem Complete.pure (a : α) : Complete T (pure a : Decoder σ ε α) (NoExtent a) := by
  rintro s w b s' ⟨rfl, rfl⟩ hstep
  obtain ⟨-, rfl⟩ := T.step_one.1 hstep
  rfl

theorem Sound.bind {p : Decoder σ ε α} {f : α → Decoder σ ε β} {G : ω → α → Prop} {H : α → ω → β → Prop}
    (hp : Sound T p G) (hf : ∀ a, Sound T (f a) (H a)) : Sound T (p >>= f) (AndThen G H) := by
  intro s b s' hgood hrun
  obtain ⟨a, t, hrun, hrest⟩ := run_bind_eq_ok.1 hrun
  obtain ⟨u, hu, hstep⟩ := hp hgood hrun
  obtain ⟨v, hv, hstep'⟩ := hf a (T.good_right hstep) hrest
  exact ⟨u * v, ⟨a, u, v, hu, hv, rfl⟩, T.step_mul.2 ⟨t, hstep, hstep'⟩⟩

theorem Complete.bind {p : Decoder σ ε α} {f : α → Decoder σ ε β} {G : ω → α → Prop} {H : α → ω → β → Prop}
    (hp : Complete T p G) (hf : ∀ a, Complete T (f a) (H a)) : Complete T (p >>= f) (AndThen G H) := by
  rintro s w b s' ⟨a, u, v, hu, hv, rfl⟩ hstep
  obtain ⟨t, hstep, hstep'⟩ := T.step_mul.1 hstep
  exact run_bind_eq_ok.2 ⟨a, t, hp hu hstep, hf a hv hstep'⟩

theorem Times.zero {G : ω → α → Prop} {w : ω} {as : List α} : Times G 0 w as ↔ NoExtent [] w as := by
  constructor
  · rintro ⟨hlength, ws, hws, rfl⟩
    cases List.length_eq_zero_iff.1 hlength
    cases hws
    exact ⟨rfl, rfl⟩
  · rintro ⟨rfl, rfl⟩
    exact ⟨rfl, [], .nil, rfl⟩

theorem Times.succ {G : ω → α → Prop} {n : Nat} {w : ω} {as : List α} :
    Times G (n + 1) w as ↔ AndThen G (fun a => AndThen (Times G n) fun rest => NoExtent (a :: rest)) w as := by
  constructor
  · rintro ⟨hlength, ws, hws, rfl⟩
    cases hws with
    | nil => cases hlength
    | cons hhead htail =>
      exact ⟨_, _, _, hhead, ⟨_, _, 1, ⟨Nat.succ.inj hlength, _, htail, rfl⟩, ⟨rfl, rfl⟩, (mul_one _).symm⟩,
        List.prod_cons⟩
  · rintro ⟨a, u, v, hu, ⟨rest, v, _, ⟨rfl, ws, hws, rfl⟩, ⟨rfl, rfl⟩, rfl⟩, rfl⟩
    refine ⟨rfl, u :: ws, .cons hu hws, ?_⟩
    rw [mul_one, List.prod_cons]

theorem Sound.times {p : Decoder σ ε α} {G : ω → α → Prop} (hp : Sound T p G) :
    ∀ n, Sound T (times p n) (Times G n)
  | 0 => (Sound.pure []).mono fun _ _ => Times.zero.2
  | n + 1 => (hp.bind fun a => (Sound.times hp n).bind fun rest => .pure (a :: rest)).mono
      fun _ _ => Times.succ.2

theorem Complete.times {p : Decoder σ ε α} {G : ω → α → Prop} (hp : Complete T p G) :
    ∀ n, Complete T (times p n) (Times G n)
  | 0 => fun _ _ _ _ h => Complete.pure [] (Times.zero.1 h)
  | n + 1 => fun _ _ _ _ h =>
      (hp.bind fun a => (Complete.times hp n).bind fun rest => .pure (a :: rest)) (Times.succ.1 h)

end

end Base
