import Mathlib.Data.List.Basic

/-!
# Fallible computations

Inversion lemmas for `Except` and the two loop shapes every validator is written with:
`forIdx` (`for (index, item) in items.iter().enumerate()` with `?` inside) and `mapIdx` (the same
loop collecting its results). A loop succeeds exactly when every iteration does (`forIdx_eq_ok`,
`mapIdx_eq_ok`), so a validator's specification is the conjunction of its checks.

`SameOk` compares two computations up to their errors: validators that differ only in the field
path they report are `SameOk`, and the relation is closed under everything they are built from.
-/

namespace Base

variable {ε ε' α β γ : Type}

/-! ## Inversion -/

theorem bind_eq_ok {x : Except ε α} {f : α → Except ε β} {b : β} :
    (x >>= f) = .ok b ↔ ∃ a, x = .ok a ∧ f a = .ok b := by
  match x with
  | .ok a => exact ⟨fun h => ⟨a, rfl, h⟩, fun ⟨_, ha, h⟩ => by cases ha; exact h⟩
  | .error e => exact ⟨nofun, fun ⟨_, ha, _⟩ => by cases ha⟩

theorem seq_eq_ok {x : Except ε Unit} {y : Except ε β} {b : β} :
    (x >>= fun _ => y) = .ok b ↔ x = .ok () ∧ y = .ok b := by
  rw [bind_eq_ok]
  constructor
  · rintro ⟨⟨⟩, hx, hy⟩; exact ⟨hx, hy⟩
  · rintro ⟨hx, hy⟩; exact ⟨(), hx, hy⟩

theorem bind_eq_error {x : Except ε α} {f : α → Except ε β} {e : ε} :
    (x >>= f) = .error e ↔ x = .error e ∨ ∃ a, x = .ok a ∧ f a = .error e := by
  cases x with
  | error e' => exact ⟨fun h => .inl (by cases h; rfl), fun h => by
      rcases h with h | ⟨_, h, _⟩
      · cases h; rfl
      · cases h⟩
  | ok a => exact ⟨fun h => .inr ⟨a, rfl, h⟩, fun h => by
      rcases h with h | ⟨_, h, hf⟩
      · cases h
      · cases h; exact hf⟩

@[simp] theorem ok_bind (a : α) (f : α → Except ε β) : (Except.ok a >>= f) = f a := rfl

@[simp] theorem error_bind (e : ε) (f : α → Except ε β) :
    ((Except.error e : Except ε α) >>= f) = .error e := rfl

@[simp] theorem pure_eq_ok {a b : α} : (pure a : Except ε α) = .ok b ↔ a = b := by
  simp [pure, Except.pure]

/-- `if bad { return Err(error) }`. -/
def rejectIf (bad : Prop) [Decidable bad] (error : ε) : Except ε Unit :=
  if bad then .error error else .ok ()

@[simp] theorem rejectIf_eq_ok {bad : Prop} [Decidable bad] {e : ε} {u : Unit} :
    rejectIf bad e = .ok u ↔ ¬ bad := by
  unfold rejectIf
  split <;> simp [*]

@[simp] theorem rejectIf_eq_error {bad : Prop} [Decidable bad] {e e' : ε} :
    rejectIf bad e = .error e' ↔ bad ∧ e = e' := by
  unfold rejectIf
  split <;> simp [*]

/-- `value.ok_or(error)`. -/
def okOr (value : Option α) (error : ε) : Except ε α :=
  match value with
  | some a => .ok a
  | none => .error error

@[simp] theorem okOr_eq_ok {value : Option α} {e : ε} {a : α} :
    okOr value e = .ok a ↔ value = some a := by
  cases value <;> simp [okOr]

@[simp] theorem okOr_eq_error {value : Option α} {e e' : ε} :
    okOr value e = .error e' ↔ value = none ∧ e = e' := by
  cases value <;> simp [okOr]

/-- `result.map_err(f)`. -/
def mapErr (f : ε → ε') : Except ε α → Except ε' α
  | .ok a => .ok a
  | .error e => .error (f e)

@[simp] theorem mapErr_eq_ok {f : ε → ε'} {x : Except ε α} {a : α} :
    mapErr f x = .ok a ↔ x = .ok a := by
  cases x <;> simp [mapErr]

/-- `if let Some(value) = value { f(value)? }`. -/
def forSome (value : Option α) (f : α → Except ε Unit) : Except ε Unit :=
  match value with
  | some a => f a
  | none => .ok ()

@[simp] theorem forSome_eq_ok {value : Option α} {f : α → Except ε Unit} {u : Unit} :
    forSome value f = .ok u ↔ ∀ a, value = some a → f a = .ok () := by
  cases value <;> simp [forSome]

/-- `for item in items { f(item)? }`. -/
theorem forM_eq_ok {f : α → Except ε Unit} : ∀ {l : List α} {u : Unit},
    l.forM f = .ok u ↔ ∀ a ∈ l, f a = .ok ()
  | [], u => by simp [List.forM]
  | a :: l, u => by
    rw [List.forM, seq_eq_ok, forM_eq_ok, List.forall_mem_cons]

/-! ## Evaluated results -/

theorem exists_ok {x : Except ε α} (h : x.isOk = true) : ∃ a, x = .ok a := by
  cases x with
  | ok a => exact ⟨a, rfl⟩
  | error e => cases h

theorem exists_ok_of_map {x : Except ε α} {f : α → β} {b : β}
    (h : x.toOption.map f = some b) : ∃ a, x = .ok a ∧ f a = b := by
  cases x with
  | ok a => exact ⟨a, rfl, by simpa [Except.toOption] using h⟩
  | error e => cases h

/-! ## Indexed loops -/

/-- The loop `forIdx` from index `i` on. -/
def forIdxFrom (f : Nat → α → Except ε Unit) : Nat → List α → Except ε Unit
  | _, [] => .ok ()
  | i, a :: l => f i a >>= fun _ => forIdxFrom f (i + 1) l

/-- `for (index, item) in items.iter().enumerate() { f(index, item)? }`. -/
def forIdx (f : Nat → α → Except ε Unit) (l : List α) : Except ε Unit := forIdxFrom f 0 l

theorem forIdxFrom_eq_ok {f : Nat → α → Except ε Unit} :
    ∀ {l : List α} {i : Nat} {u : Unit},
      forIdxFrom f i l = .ok u ↔ ∀ j a, l[j]? = some a → f (i + j) a = .ok ()
  | [], i, u => by simp [forIdxFrom]
  | a :: l, i, u => by
    rw [forIdxFrom, seq_eq_ok, forIdxFrom_eq_ok]
    constructor
    · rintro ⟨h0, h⟩ j b hb
      cases j with
      | zero => simp only [List.getElem?_cons_zero, Option.some.injEq] at hb; rw [← hb]; exact h0
      | succ j =>
        have := h j b (by simpa using hb)
        rwa [show i + 1 + j = i + (j + 1) by omega] at this
    · intro h
      refine ⟨h 0 a (by simp), fun j b hb => ?_⟩
      have := h (j + 1) b (by simpa using hb)
      rwa [show i + (j + 1) = i + 1 + j by omega] at this

/-- **A loop of checks succeeds exactly when every check does.** -/
theorem forIdx_eq_ok {f : Nat → α → Except ε Unit} {l : List α} {u : Unit} :
    forIdx f l = .ok u ↔ ∀ j a, l[j]? = some a → f j a = .ok () := by
  unfold forIdx
  rw [forIdxFrom_eq_ok]
  simp only [Nat.zero_add]

/-- A loop of checks that passed, at one of its items. -/
theorem forIdx_mem {f : Nat → α → Except ε Unit} {l : List α} {u : Unit}
    (h : forIdx f l = .ok u) {a : α} (ha : a ∈ l) : ∃ j, f j a = .ok () := by
  obtain ⟨j, hj⟩ := List.mem_iff_getElem?.1 ha
  exact ⟨j, forIdx_eq_ok.1 h j a hj⟩

/-- The loop `mapIdx` from index `i` on. -/
def mapIdxFrom (f : Nat → α → Except ε β) : Nat → List α → Except ε (List β)
  | _, [] => .ok []
  | i, a :: l => f i a >>= fun b => mapIdxFrom f (i + 1) l >>= fun bs => .ok (b :: bs)

/-- `items.iter().enumerate().map(|(index, item)| f(index, item)).collect::<Result<Vec<_>, _>>()`. -/
def mapIdx (f : Nat → α → Except ε β) (l : List α) : Except ε (List β) := mapIdxFrom f 0 l

theorem mapIdxFrom_eq_ok {f : Nat → α → Except ε β} :
    ∀ {l : List α} {i : Nat} {bs : List β},
      mapIdxFrom f i l = .ok bs ↔
        bs.length = l.length ∧
          ∀ j a b, l[j]? = some a → bs[j]? = some b → f (i + j) a = .ok b
  | [], i, bs => by simp [mapIdxFrom, eq_comm]
  | a :: l, i, bs => by
    rw [mapIdxFrom, bind_eq_ok]
    constructor
    · rintro ⟨b, hb, h⟩
      rw [bind_eq_ok] at h
      obtain ⟨bs', hbs, h⟩ := h
      obtain ⟨hlen, hall⟩ := mapIdxFrom_eq_ok.1 hbs
      cases h
      refine ⟨by simp [hlen], fun j x y hx hy => ?_⟩
      cases j with
      | zero =>
        simp only [List.getElem?_cons_zero, Option.some.injEq] at hx hy
        rw [← hx, ← hy]; exact hb
      | succ j =>
        have := hall j x y (by simpa using hx) (by simpa using hy)
        rwa [show i + 1 + j = i + (j + 1) by omega] at this
    · rintro ⟨hlen, hall⟩
      match bs, hlen with
      | b :: bs, hlen =>
        refine ⟨b, hall 0 a b (by simp) (by simp), ?_⟩
        rw [bind_eq_ok]
        refine ⟨bs, mapIdxFrom_eq_ok.2 ⟨by simpa using hlen, fun j x y hx hy => ?_⟩, rfl⟩
        have := hall (j + 1) x y (by simpa using hx) (by simpa using hy)
        rwa [show i + (j + 1) = i + 1 + j by omega] at this

/-- **A collecting loop succeeds with `bs` exactly when every iteration gives its item of `bs`.** -/
theorem mapIdx_eq_ok {f : Nat → α → Except ε β} {l : List α} {bs : List β} :
    mapIdx f l = .ok bs ↔
      bs.length = l.length ∧ ∀ j a b, l[j]? = some a → bs[j]? = some b → f j a = .ok b := by
  unfold mapIdx
  rw [mapIdxFrom_eq_ok]
  simp only [Nat.zero_add]

/-! ## Loops over a state -/

/-- **The invariant rule of a loop**: `I done s` holds of the items folded so far. -/
theorem foldl_inv {g : β → α → β} {I : List α → β → Prop} {l : List α} {s : β} (hinit : I [] s)
    (hstep : ∀ done a rest s, l = done ++ a :: rest → I done s → I (done ++ [a]) (g s a)) :
    I l (l.foldl g s) := by
  suffices h : ∀ rest done s, l = done ++ rest → I done s → I l (rest.foldl g s) from
    h l [] s rfl hinit
  intro rest
  induction rest with
  | nil =>
    intro done s hl hs
    rw [List.append_nil] at hl
    subst hl
    exact hs
  | cons a rest ih =>
    intro done s hl hs
    exact ih (done ++ [a]) (g s a) (by simp [hl]) (hstep done a rest s hl hs)

/-- The invariant rule of a loop that succeeded. -/
theorem foldlM_ok_inv {g : β → α → Except ε β} {I : List α → β → Prop} {l : List α} {s r : β}
    (h : l.foldlM g s = .ok r) (hinit : I [] s)
    (hstep : ∀ done a rest s s', l = done ++ a :: rest → I done s → g s a = .ok s' →
      I (done ++ [a]) s') : I l r := by
  suffices hrun : ∀ rest done s, l = done ++ rest → I done s → rest.foldlM g s = .ok r → I l r from
    hrun l [] s rfl hinit h
  intro rest
  induction rest with
  | nil =>
    intro done s hl hs h
    rw [List.append_nil] at hl
    subst hl
    cases h
    exact hs
  | cons a rest ih =>
    intro done s hl hs h
    rw [List.foldlM_cons, bind_eq_ok] at h
    obtain ⟨s', hs', h⟩ := h
    exact ih (done ++ [a]) s' (by simp [hl]) (hstep done a rest s s' hl hs hs') h

/-- A loop that failed failed at one of its items, in a state that keeps the invariant. -/
theorem foldlM_error_inv {g : β → α → Except ε β} {I : List α → β → Prop} {l : List α} {s : β}
    {e : ε} (h : l.foldlM g s = .error e) (hinit : I [] s)
    (hstep : ∀ done a rest s s', l = done ++ a :: rest → I done s → g s a = .ok s' →
      I (done ++ [a]) s') :
    ∃ done a rest s', l = done ++ a :: rest ∧ I done s' ∧ g s' a = .error e := by
  suffices hrun : ∀ rest done s, l = done ++ rest → I done s → rest.foldlM g s = .error e →
      ∃ done a rest s', l = done ++ a :: rest ∧ I done s' ∧ g s' a = .error e from
    hrun l [] s rfl hinit h
  intro rest
  induction rest with
  | nil =>
    intro done s _ _ h
    cases h
  | cons a rest ih =>
    intro done s hl hs h
    rw [List.foldlM_cons] at h
    cases hs' : g s a with
    | error e' =>
      rw [hs'] at h
      cases h
      exact ⟨done, a, rest, s, hl, hs, hs'⟩
    | ok s' =>
      rw [hs'] at h
      exact ih (done ++ [a]) s' (by simp [hl]) (hstep done a rest s s' hl hs hs') h

/-- **A loop that compares every item with the items before it** succeeds exactly on the lists whose items
are pairwise compatible. -/
theorem exists_foldlM_ok_iff_pairwise {R : α → α → Prop} {g : β → α → Except ε β} {I : List α → β → Prop}
    (hok : ∀ done a s, I done s → ((∃ s', g s a = .ok s') ↔ ∀ b ∈ done, R b a))
    (hstep : ∀ done a s s', I done s → g s a = .ok s' → I (done ++ [a]) s') :
    ∀ {l done : List α} {s : β}, I done s → done.Pairwise R →
      ((∃ r, l.foldlM g s = .ok r) ↔ (done ++ l).Pairwise R)
  | [], done, s, hs, hdone => by
    rw [List.append_nil]
    exact ⟨fun _ => hdone, fun _ => ⟨s, rfl⟩⟩
  | a :: l, done, s, hs, hdone => by
    have hsingle : (done ++ [a]).Pairwise R ↔ ∀ b ∈ done, R b a := by
      simp [List.pairwise_append, hdone]
    have hsplit : done ++ a :: l = (done ++ [a]) ++ l := by simp
    constructor
    · rintro ⟨r, hr⟩
      rw [List.foldlM_cons, bind_eq_ok] at hr
      obtain ⟨s', hs', hr⟩ := hr
      have hcompat := hsingle.2 ((hok done a s hs).1 ⟨s', hs'⟩)
      rw [hsplit, ← exists_foldlM_ok_iff_pairwise hok hstep (hstep done a s s' hs hs') hcompat]
      exact ⟨r, hr⟩
    · intro h
      rw [hsplit] at h
      have hcompat := (List.pairwise_append.1 h).1
      obtain ⟨s', hs'⟩ := (hok done a s hs).2 (hsingle.1 hcompat)
      obtain ⟨r, hr⟩ := (exists_foldlM_ok_iff_pairwise hok hstep (hstep done a s s' hs hs') hcompat).2 h
      refine ⟨r, ?_⟩
      rw [List.foldlM_cons, bind_eq_ok]
      exact ⟨s', hs', hr⟩

/-- **A loop that collects distinct keys** succeeds exactly when every item passes its check and no key
comes twice. -/
theorem foldlM_seen_eq_ok {P : α → Prop} {key : α → γ} {g : List γ → α → Except ε (List γ)}
    (hg : ∀ seen a r, g seen a = .ok r ↔ P a ∧ key a ∉ seen ∧ r = seen ++ [key a]) :
    ∀ {l : List α} {seen r : List γ}, l.foldlM g seen = .ok r ↔
      (∀ a ∈ l, P a) ∧ (l.map key).Nodup ∧ (∀ a ∈ l, key a ∉ seen) ∧ r = seen ++ l.map key
  | [], seen, r => by
    simp only [List.foldlM_nil, List.map_nil, List.append_nil, List.nodup_nil, List.not_mem_nil,
      false_implies, implies_true, true_and]
    exact ⟨fun h => by cases h; rfl, fun h => by rw [h]; rfl⟩
  | a :: l, seen, r => by
    rw [List.foldlM_cons, bind_eq_ok]
    simp only [hg, foldlM_seen_eq_ok hg, List.map_cons, List.nodup_cons, List.forall_mem_cons]
    constructor
    · rintro ⟨_, ⟨ha, hna, rfl⟩, hl, hnd, hns, rfl⟩
      refine ⟨⟨ha, hl⟩, ⟨?_, hnd⟩, ⟨hna, fun b hb hm => hns b hb (by simp [hm])⟩, by simp⟩
      intro hm
      obtain ⟨b, hb, hk⟩ := List.mem_map.1 hm
      exact hns b hb (by simp [hk])
    · rintro ⟨⟨ha, hl⟩, ⟨hn, hnd⟩, ⟨hna, hns⟩, rfl⟩
      refine ⟨_, ⟨ha, hna, rfl⟩, hl, hnd, fun b hb hm => ?_, by simp⟩
      rcases List.mem_append.1 hm with hm | hm
      · exact hns b hb hm
      · exact hn (List.mem_map.2 ⟨b, hb, by simpa using hm⟩)

/-! ## Equality up to errors -/

/-- `x` and `y` succeed together, with the same value. -/
def SameOk (x : Except ε α) (y : Except ε' α) : Prop := ∀ a, x = .ok a ↔ y = .ok a

theorem SameOk.refl (x : Except ε α) : SameOk x x := fun _ => Iff.rfl

theorem sameOk_ok (a : α) : SameOk (.ok a : Except ε α) (.ok a : Except ε' α) := by
  intro b
  simp

theorem sameOk_error (e : ε) (e' : ε') : SameOk (.error e : Except ε α) (.error e' : Except ε' α) := by
  intro a
  simp

theorem sameOk_rejectIf (bad : Prop) [Decidable bad] (e : ε) (e' : ε') :
    SameOk (rejectIf bad e) (rejectIf bad e') := by
  intro u
  rw [rejectIf_eq_ok, rejectIf_eq_ok]

theorem SameOk.mapErr {ε'' : Type} {x : Except ε α} {y : Except ε' α} (h : SameOk x y) (f : ε → ε'')
    (g : ε' → ε'') : SameOk (mapErr f x) (mapErr g y) := by
  intro a
  rw [mapErr_eq_ok, mapErr_eq_ok]
  exact h a

theorem SameOk.bind {x : Except ε α} {y : Except ε' α} {f : α → Except ε β} {g : α → Except ε' β}
    (h : SameOk x y) (hf : ∀ a, SameOk (f a) (g a)) : SameOk (x >>= f) (y >>= g) := by
  intro b
  rw [bind_eq_ok, bind_eq_ok]
  constructor
  · rintro ⟨a, hx, ha⟩
    exact ⟨a, (h a).1 hx, (hf a b).1 ha⟩
  · rintro ⟨a, hy, ha⟩
    exact ⟨a, (h a).2 hy, (hf a b).2 ha⟩

theorem SameOk.foldlM {f : β → α → Except ε β} {g : β → α → Except ε' β}
    (h : ∀ s a, SameOk (f s a) (g s a)) (l : List α) (s : β) :
    SameOk (l.foldlM f s) (l.foldlM g s) := by
  induction l generalizing s with
  | nil => exact sameOk_ok s
  | cons a l ih =>
    rw [List.foldlM_cons, List.foldlM_cons]
    exact (h s a).bind ih

theorem SameOk.forIdx {f : Nat → α → Except ε Unit} {g : Nat → α → Except ε' Unit}
    (h : ∀ i a, SameOk (f i a) (g i a)) (l : List α) : SameOk (forIdx f l) (forIdx g l) := by
  intro u
  rw [forIdx_eq_ok, forIdx_eq_ok]
  exact forall_congr' fun i => forall_congr' fun a => imp_congr_right fun _ => h i a ()

/-- A loop of checks whose outcome does not depend on the index succeeds in every order. -/
theorem forIdx_ok_perm {f : Nat → α → Except ε Unit} (h : ∀ i j a, SameOk (f i a) (f j a))
    {l k : List α} (hp : l.Perm k) (hl : forIdx f l = .ok ()) : forIdx f k = .ok () := by
  rw [forIdx_eq_ok]
  intro j a hj
  obtain ⟨i, hi⟩ := forIdx_mem hl (hp.mem_iff.2 (List.mem_of_getElem? hj))
  exact (h i j a ()).1 hi

/-- A loop whose iterations commute when they succeed gives the same result in every order. -/
theorem foldlM_ok_perm {g : β → α → Except ε β}
    (hcomm : ∀ (s s₁ s₂ : β) (a b : α), g s a = .ok s₁ → g s₁ b = .ok s₂ →
      ∃ t, g s b = .ok t ∧ g t a = .ok s₂)
    {l k : List α} (hp : l.Perm k) {s r : β} (h : l.foldlM g s = .ok r) : k.foldlM g s = .ok r := by
  induction hp generalizing s with
  | nil => exact h
  | cons a _ ih =>
    rw [List.foldlM_cons, bind_eq_ok] at h ⊢
    obtain ⟨s₁, h₁, h₂⟩ := h
    exact ⟨s₁, h₁, ih h₂⟩
  | swap a b l =>
    simp only [List.foldlM_cons, bind_eq_ok] at h ⊢
    obtain ⟨s₁, h₁, s₂, h₂, h₃⟩ := h
    obtain ⟨t, ht, hts⟩ := hcomm _ _ _ _ _ h₁ h₂
    exact ⟨t, ht, s₂, hts, h₃⟩
  | trans _ _ ih₁ ih₂ => exact ih₂ (ih₁ h)

end Base
