import LorePia.Base.Result

/-!
# Computations over a state that a failure keeps

`Stateful σ ε α` is a function that reads and changes a state of its own and may fail; unlike in a
`StateT` over `Except`, the state after a failure is not lost. `Refines I x r` says that from every
state of the invariant `I` the computation gives the result `r` and keeps `I`: it is closed under
sequencing, so a program refines its pure counterpart when its primitive steps do. `Always x a` is the
special case of a computation that succeeds whatever the state is. `Triple P x Q E` is a specification with
a postcondition `Q` for success and one `E` for failure.
-/

namespace Base

variable {σ ε α β : Type}

/-- A computation over a state that is kept when it fails. -/
def Stateful (σ ε α : Type) := σ → Except ε α × σ

namespace Stateful

/-- The result and the state after it. -/
def run (x : Stateful σ ε α) (s : σ) : Except ε α × σ := x s

/-- A computation that leaves the state alone. -/
def lift (x : Except ε α) : Stateful σ ε α := fun s => (x, s)

/-- Sequencing. -/
def andThen (x : Stateful σ ε α) (f : α → Stateful σ ε β) : Stateful σ ε β := fun s =>
  match x s with
  | (.ok a, s') => f a s'
  | (.error e, s') => (.error e, s')

instance : Monad (Stateful σ ε) where
  pure a := lift (.ok a)
  bind := andThen

@[simp] theorem run_lift (x : Except ε α) (s : σ) : (lift x : Stateful σ ε α).run s = (x, s) := rfl

@[simp] theorem run_pure (a : α) (s : σ) : (pure a : Stateful σ ε α).run s = (.ok a, s) := rfl

theorem run_bind (x : Stateful σ ε α) (f : α → Stateful σ ε β) (s : σ) :
    (x >>= f).run s = match x.run s with
      | (.ok a, s') => (f a).run s'
      | (.error e, s') => (.error e, s') := rfl

theorem run_bind_eq_ok {x : Stateful σ ε α} {f : α → Stateful σ ε β} {s s' : σ} {b : β} :
    (x >>= f).run s = (.ok b, s') ↔ ∃ a t, x.run s = (.ok a, t) ∧ (f a).run t = (.ok b, s') := by
  rw [run_bind]
  constructor
  · intro h
    split at h
    · rename_i a t hx
      exact ⟨a, t, hx, h⟩
    · cases h
  · rintro ⟨a, t, hx, hf⟩
    rw [hx]
    exact hf

/-- A step without a state succeeds with its result. -/
theorem run_lift_eq_ok {x : Except ε α} {s s' : σ} {a : α} :
    (lift x : Stateful σ ε α).run s = (.ok a, s') ↔ x = .ok a ∧ s = s' := by
  rw [run_lift, Prod.mk.injEq]

theorem andThen_pure (x : Stateful σ ε α) : andThen x (fun a => lift (.ok a)) = x := by
  funext s
  unfold andThen lift
  cases x s with
  | mk r t => cases r <;> rfl

theorem andThen_assoc {γ : Type} (x : Stateful σ ε α) (f : α → Stateful σ ε β)
    (g : β → Stateful σ ε γ) : andThen (andThen x f) g = andThen x fun a => andThen (f a) g := by
  funext s
  unfold andThen
  cases x s with
  | mk r t => cases r <;> rfl

instance : LawfulMonad (Stateful σ ε) :=
  LawfulMonad.mk' _ andThen_pure (fun _ _ => rfl) andThen_assoc

@[simp] theorem lift_error_bind (e : ε) (f : α → Stateful σ ε β) :
    ((lift (.error e) : Stateful σ ε α) >>= f) = lift (.error e) := rfl

@[simp] theorem lift_ok_bind (a : α) (f : α → Stateful σ ε β) : (lift (.ok a) >>= f) = f a := rfl

/-! ## Refinement of a pure result -/

/-- From every state of `I` the result is `r`, and `I` is kept. -/
def Refines (I : σ → Prop) (x : Stateful σ ε α) (r : Except ε α) : Prop :=
  ∀ s, I s → (x.run s).1 = r ∧ I (x.run s).2

theorem refines_lift {I : σ → Prop} (r : Except ε α) : Refines I (lift r) r :=
  fun _ hs => ⟨rfl, hs⟩

theorem Refines.bind {I : σ → Prop} {x : Stateful σ ε α} {r : Except ε α}
    {f : α → Stateful σ ε β} {g : α → Except ε β} (hx : Refines I x r)
    (hf : ∀ a, r = .ok a → Refines I (f a) (g a)) : Refines I (x >>= f) (r >>= g) := by
  intro s hs
  obtain ⟨hr, hI⟩ := hx s hs
  rw [run_bind]
  cases hrun : x.run s with
  | mk result t =>
    rw [hrun] at hr hI
    cases result with
    | error e =>
      rw [← hr]
      exact ⟨rfl, hI⟩
    | ok a =>
      rw [← hr]
      exact hf a hr.symm t hI

/-- The computation succeeds with `a` whatever the state is. -/
def Always (x : Stateful σ ε α) (a : α) : Prop := ∀ s, (x.run s).1 = .ok a

theorem always_lift {r : Except ε α} {a : α} (h : r = .ok a) : Always (lift r : Stateful σ ε α) a :=
  fun _ => h

theorem Always.bind {x : Stateful σ ε α} {a : α} {f : α → Stateful σ ε β} {b : β} (hx : Always x a)
    (hf : Always (f a) b) : Always (x >>= f) b := by
  intro s
  rw [run_bind]
  have ha := hx s
  cases hrun : x.run s with
  | mk result t =>
    rw [hrun] at ha
    cases ha
    exact hf t

/-! ## State operations -/

/-- The state. -/
def get : Stateful σ ε σ := fun s => (.ok s, s)

/-- A change of the state. -/
def modify (f : σ → σ) : Stateful σ ε Unit := fun s => (.ok (), f s)

/-- A failure that keeps the state. -/
def fail (e : ε) : Stateful σ ε α := lift (.error e)

/-- A computation on a part of the state. -/
def zoom {τ : Type} (view : σ → τ) (put : τ → σ → σ) (x : Stateful τ ε α) : Stateful σ ε α := fun s =>
  ((x.run (view s)).1, put (x.run (view s)).2 s)

@[simp] theorem run_get_bind (f : σ → Stateful σ ε β) (s : σ) : (get >>= f).run s = (f s).run s := rfl

@[simp] theorem run_modify (g : σ → σ) (s : σ) : (modify g : Stateful σ ε Unit).run s = (.ok (), g s) := rfl

@[simp] theorem run_modify_bind (g : σ → σ) (f : Unit → Stateful σ ε β) (s : σ) :
    (modify g >>= f).run s = (f ()).run (g s) := rfl

@[simp] theorem run_fail (e : ε) (s : σ) : (fail e : Stateful σ ε α).run s = (.error e, s) := rfl

/-- A failing step before a computation. -/
theorem run_lift_bind (x : Except ε α) (f : α → Stateful σ ε β) (s : σ) : (lift x >>= f).run s =
    match x with
    | .ok a => (f a).run s
    | .error e => (.error e, s) := by
  cases x <;> rfl

/-- A check before a computation. -/
theorem run_rejectIf_bind {bad : Prop} [Decidable bad] {e : ε} (f : Unit → Stateful σ ε β) (s : σ) :
    (lift (rejectIf bad e) >>= f).run s = if bad then (.error e, s) else (f ()).run s := by
  unfold rejectIf
  split <;> rfl

theorem run_zoom {τ : Type} (view : σ → τ) (put : τ → σ → σ) (x : Stateful τ ε α) (s : σ) :
    (zoom view put x).run s = ((x.run (view s)).1, put (x.run (view s)).2 s) := rfl

theorem run_zoom_bind {τ : Type} {view : σ → τ} {put : τ → σ → σ} {x : Stateful τ ε α} {s : σ} {t₀ t : τ}
    {a : α} {f : α → Stateful σ ε β} (hx : x.run t₀ = (.ok a, t)) (hview : view s = t₀) :
    (zoom view put x >>= f).run s = (f a).run (put t s) := by
  rw [run_bind, run_zoom, hview, hx]

theorem run_zoom_bind_error {τ : Type} {view : σ → τ} {put : τ → σ → σ} {x : Stateful τ ε α} {s : σ}
    {t₀ t : τ} {e : ε} {f : α → Stateful σ ε β} (hx : x.run t₀ = (.error e, t)) (hview : view s = t₀) :
    (zoom view put x >>= f).run s = (.error e, put t s) := by
  rw [run_bind, run_zoom, hview, hx]

/-! ## Specifications -/

/-- A success ends in `Q` and a failure in `E`. -/
def Ends (Q : α → σ → Prop) (E : ε → σ → Prop) : Except ε α × σ → Prop
  | (.ok a, s) => Q a s
  | (.error e, s) => E e s

/-- From every state of `P`, a success ends in `Q` and a failure in `E`. -/
def Triple (P : σ → Prop) (x : Stateful σ ε α) (Q : α → σ → Prop) (E : ε → σ → Prop) : Prop :=
  ∀ s, P s → Ends Q E (x.run s)

section
variable {P P' : σ → Prop} {Q Q' : α → σ → Prop} {R : β → σ → Prop} {E E' : ε → σ → Prop}

theorem Triple.pure {a : α} (h : ∀ s, P s → Q a s) : Triple P (pure a : Stateful σ ε α) Q E := h

theorem Triple.modify {f : σ → σ} {Q : Unit → σ → Prop} (h : ∀ s, P s → Q () (f s)) :
    Triple P (modify f : Stateful σ ε Unit) Q E := h

theorem Triple.bind {x : Stateful σ ε α} {f : α → Stateful σ ε β} (hx : Triple P x Q E)
    (hf : ∀ a, Triple (Q a) (f a) R E) : Triple P (x >>= f) R E := by
  intro s hs
  have h := hx s hs
  rw [run_bind]
  cases hrun : x.run s with
  | mk r t =>
    rw [hrun] at h
    cases r with
    | ok a => exact hf a t h
    | error e => exact h

/-- The continuation may use the state that was read. -/
theorem Triple.get_bind {f : σ → Stateful σ ε β}
    (hf : ∀ s, P s → Triple (fun s' => s' = s) (f s) R E) : Triple P (get >>= f) R E :=
  fun s hs => hf s hs s rfl

theorem Triple.mono {x : Stateful σ ε α} (h : Triple P x Q E) (hP : ∀ s, P' s → P s)
    (hQ : ∀ a s, Q a s → Q' a s) (hE : ∀ e s, E e s → E' e s) : Triple P' x Q' E' := by
  intro s hs
  have hx := h s (hP s hs)
  cases hrun : x.run s with
  | mk r t =>
    rw [hrun] at hx
    cases r with
    | ok a => exact hQ a t hx
    | error e => exact hE e t hx

/-- A loop over a list keeps an invariant that may speak of the items done. -/
theorem Triple.forM {γ : Type} {f : γ → Stateful σ ε PUnit} {I : List γ → σ → Prop} {all : List γ}
    (hf : ∀ done c rest, all = done ++ c :: rest →
      Triple (I done) (f c) (fun _ => I (done ++ [c])) E) :
    Triple (I []) (all.forM f) (fun _ => I all) E := by
  have hloop : ∀ rest done, all = done ++ rest → Triple (I done) (rest.forM f) (fun _ => I all) E := by
    intro rest
    induction rest with
    | nil =>
      rintro done rfl s hs
      rw [List.append_nil]
      exact hs
    | cons c rest ih =>
      intro done hall
      refine (hf done c rest hall).bind fun _ => ih (done ++ [c]) ?_
      rw [hall, List.append_assoc, List.singleton_append]
  exact hloop all [] rfl

end

/-! ## Two computations -/

/-- Two ends with the same result, in states of `Q`, or with the same error, in states of `E`. -/
def EndAlike {τ : Type} (Q E : σ → τ → Prop) : Except ε α × σ → Except ε α × τ → Prop
  | (.ok a, s), (.ok b, t) => a = b ∧ Q s t
  | (.error e, s), (.error e', t) => e = e' ∧ E s t
  | _, _ => False

/-- From states of `R` the computations end alike. -/
def Relates {τ : Type} (R : σ → τ → Prop) (x : Stateful σ ε α) (y : Stateful τ ε α) (Q E : σ → τ → Prop) : Prop :=
  ∀ s t, R s t → EndAlike Q E (x.run s) (y.run t)

section
variable {τ : Type} {R R' Q Q' E E' : σ → τ → Prop}

theorem Relates.pure {a : α} (h : ∀ s t, R s t → Q s t) :
    Relates R (pure a : Stateful σ ε α) (pure a : Stateful τ ε α) Q E := fun s t hR => ⟨rfl, h s t hR⟩

theorem Relates.lift {x : Except ε α} (hQ : ∀ s t, R s t → Q s t) (hE : ∀ s t, R s t → E s t) :
    Relates R (lift x : Stateful σ ε α) (lift x : Stateful τ ε α) Q E := by
  intro s t hR
  cases x with
  | ok a => exact ⟨rfl, hQ s t hR⟩
  | error e => exact ⟨rfl, hE s t hR⟩

theorem Relates.modify {f : σ → σ} {g : τ → τ} (h : ∀ s t, R s t → Q (f s) (g t)) :
    Relates R (modify f : Stateful σ ε Unit) (modify g : Stateful τ ε Unit) Q E :=
  fun s t hR => ⟨rfl, h s t hR⟩

theorem Relates.bind {x : Stateful σ ε α} {y : Stateful τ ε α} {f : α → Stateful σ ε β} {g : α → Stateful τ ε β}
    (h : Relates R x y Q E) (hf : ∀ a, Relates Q (f a) (g a) Q' E) : Relates R (x >>= f) (y >>= g) Q' E := by
  intro s t hR
  have hxy := h s t hR
  rw [run_bind, run_bind]
  cases hx : x.run s with
  | mk r s' =>
    cases hy : y.run t with
    | mk r' t' =>
      rw [hx, hy] at hxy
      cases r with
      | ok a =>
        cases r' with
        | ok b =>
          obtain ⟨rfl, hQ⟩ := hxy
          exact hf a s' t' hQ
        | error e => exact hxy.elim
      | error e =>
        cases r' with
        | ok b => exact hxy.elim
        | error e' => exact hxy

theorem Relates.mono {x : Stateful σ ε α} {y : Stateful τ ε α} (h : Relates R x y Q E)
    (hR : ∀ s t, R' s t → R s t) (hQ : ∀ s t, Q s t → Q' s t) (hE : ∀ s t, E s t → E' s t) :
    Relates R' x y Q' E' := by
  intro s t hR'
  have hxy := h s t (hR s t hR')
  cases hx : x.run s with
  | mk r s' =>
    cases hy : y.run t with
    | mk r' t' =>
      rw [hx, hy] at hxy
      cases r <;> cases r' <;> first
        | exact ⟨hxy.1, hQ _ _ hxy.2⟩
        | exact ⟨hxy.1, hE _ _ hxy.2⟩
        | exact hxy.elim

/-- The same loop on both sides. -/
theorem Relates.forM {γ : Type} {f : γ → Stateful σ ε PUnit} {g : γ → Stateful τ ε PUnit} {l : List γ}
    (h : ∀ c ∈ l, Relates R (f c) (g c) R E) : Relates R (l.forM f) (l.forM g) R E := by
  induction l with
  | nil => exact Relates.pure fun _ _ hR => hR
  | cons c l ih =>
    exact (h c List.mem_cons_self).bind fun _ => ih fun c' hc' => h c' (List.mem_cons_of_mem _ hc')

end

end Stateful

end Base
