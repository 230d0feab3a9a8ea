import Mathlib.Data.List.Basic
import Mathlib.Algebra.BigOperators.Group.List.Basic
import Mathlib.Algebra.Ring.Nat

/-!
# Metered computations

A computation that charges its work to a shared meter before it does it, and stops with an error at
the first charge the meter does not cover. The meter keeps what was charged before the error.

`Script` is the abstract view: a list of charges and a result, both fixed before the meter is known.
A computation is `Transparent` when it performs a script, so its control flow does not depend on the
meter. Everything built from pure steps and charges is (`Transparent.bind`, `Transparent.foldlM`),
and its outcome on one meter decides its outcome on every other (`Transparent.of_ok`).
`Costs m a c` says that `m` returns `a` for the work `c`; `Follows m m'` that `m'` returns whatever
`m` does, for the same work. `Returns m Q` forgets the meter: `Q` holds of what `m` returns. `Within m c` says that the
work `c` is enough for `m`.
-/

namespace Base

/-- A work meter whose limit is at most `cap`. -/
structure Meter (cap : Nat) where
  limit : Nat
  used : Nat
  limit_le : limit ≤ cap
  used_le : used ≤ limit

/-- A computation over a meter that may fail. -/
def Metered (cap : Nat) (ε α : Type) : Type := Meter cap → Except ε α × Meter cap

variable {cap : Nat} {ε α β : Type}

/-- The work that is left. -/
def Meter.remaining (b : Meter cap) : Nat := b.limit - b.used

/-- The meter after the work `n`, which it covers. -/
def Meter.add (b : Meter cap) (n : Nat) (h : b.used + n ≤ b.limit) : Meter cap :=
  { b with used := b.used + n, used_le := h }

theorem Meter.ext_used {b d : Meter cap} (hl : b.limit = d.limit) (hu : b.used = d.used) : b = d := by
  cases b
  cases d
  cases hl
  cases hu
  rfl

theorem Meter.le_remaining {b : Meter cap} {n : Nat} : n ≤ b.remaining ↔ b.used + n ≤ b.limit := by
  have := b.used_le
  unfold Meter.remaining
  omega

namespace Metered

/-- A step that does not touch the meter. -/
def lift (x : Except ε α) : Metered cap ε α := fun b => (x, b)

instance : Monad (Metered cap ε) where
  pure a := lift (.ok a)
  bind m f := fun b =>
    match m b with
    | (.ok a, b) => f a b
    | (.error e, b) => (.error e, b)

/-- Charges `n`, or fails with `e`. -/
def charge (n : Nat) (e : ε) : Metered cap ε Unit := fun b =>
  if h : b.used + n ≤ b.limit then (.ok (), b.add n h) else (.error e, b)

@[simp] theorem lift_run (x : Except ε α) (b : Meter cap) :
    (lift x : Metered cap ε α) b = (x, b) := rfl

/-- **Inversion of a sequence.** -/
theorem bind_run_eq_ok {m : Metered cap ε α} {f : α → Metered cap ε β} {b d : Meter cap} {v : β} :
    (m >>= f) b = (.ok v, d) ↔ ∃ a c, m b = (.ok a, c) ∧ f a c = (.ok v, d) := by
  show (match m b with
    | (.ok a, b) => f a b
    | (.error e, b) => (.error e, b)) = (.ok v, d) ↔ _
  match hm : m b with
  | (.ok a, c) =>
    constructor
    · intro h
      exact ⟨a, c, rfl, h⟩
    · rintro ⟨_, _, hac, h⟩
      cases hac
      exact h
  | (.error e, c) =>
    constructor
    · intro h
      cases h
    · rintro ⟨_, _, hac, _⟩
      cases hac

theorem bind_run_ok {m : Metered cap ε α} (f : α → Metered cap ε β) {b c : Meter cap} {a : α}
    (h : m b = (.ok a, c)) : (m >>= f) b = f a c := by
  show (match m b with
    | (.ok a, b) => f a b
    | (.error e, b) => (.error e, b)) = _
  rw [h]

theorem bind_run_error {m : Metered cap ε α} (f : α → Metered cap ε β) {b c : Meter cap} {e : ε}
    (h : m b = (.error e, c)) : (m >>= f) b = (.error e, c) := by
  show (match m b with
    | (.ok a, b) => f a b
    | (.error e, b) => (.error e, b)) = _
  rw [h]

theorem lift_run_eq_ok {x : Except ε α} {b d : Meter cap} {a : α} :
    (lift x : Metered cap ε α) b = (.ok a, d) ↔ x = .ok a ∧ d = b := by
  rw [lift_run, Prod.mk.injEq]
  exact and_congr_right fun _ => eq_comm

theorem charge_run_eq_ok {n : Nat} {e : ε} {b d : Meter cap} {u : Unit} :
    (charge n e : Metered cap ε Unit) b = (.ok u, d) ↔
      b.used + n ≤ b.limit ∧ d.limit = b.limit ∧ d.used = b.used + n := by
  unfold charge
  split
  · rename_i h
    simp only [Prod.mk.injEq, true_and, h]
    constructor
    · intro hd
      subst hd
      exact ⟨rfl, rfl⟩
    · intro hd
      exact Meter.ext_used hd.1.symm hd.2.symm
  · rename_i h
    simp [h]

/-! ## Scripts -/

/-- Charges and a result, fixed before the meter is known. -/
structure Script (ε α : Type) where
  charges : List (Nat × ε)
  result : Except ε α

/-- The whole work of a script. -/
def Script.cost (s : Script ε α) : Nat := (s.charges.map (·.1)).sum

/-- Performs some charges in order. -/
def play : List (Nat × ε) → Metered cap ε Unit
  | [] => pure ()
  | (n, e) :: rest => charge n e >>= fun _ => play rest

/-- Performs a script. -/
def Script.perform (s : Script ε α) : Metered cap ε α := play s.charges >>= fun _ => lift s.result

theorem bind_assoc {γ : Type} (m : Metered cap ε α) (f : α → Metered cap ε β)
    (g : β → Metered cap ε γ) : (m >>= f) >>= g = m >>= fun a => f a >>= g := by
  funext b
  match hm : m b with
  | (.ok a, c) =>
    rw [bind_run_ok _ hm]
    match hf : f a c with
    | (.ok v, d) => rw [bind_run_ok g ((bind_run_ok f hm).trans hf), bind_run_ok g hf]
    | (.error e, d) => rw [bind_run_error g ((bind_run_ok f hm).trans hf), bind_run_error g hf]
  | (.error e, c) => rw [bind_run_error g (bind_run_error f hm), bind_run_error _ hm]

theorem lift_ok_bind (a : α) (f : α → Metered cap ε β) : lift (.ok a) >>= f = f a := rfl

theorem lift_error_bind (e : ε) (f : α → Metered cap ε β) :
    (lift (.error e) : Metered cap ε α) >>= f = lift (.error e) := rfl

theorem play_append (l k : List (Nat × ε)) :
    (play (l ++ k) : Metered cap ε Unit) = play l >>= fun _ => play k := by
  induction l with
  | nil => rfl
  | cons c l ih =>
    rw [List.cons_append]
    simp only [play]
    rw [ih, bind_assoc]

/-- What performing charges does to a meter that covers them. -/
theorem play_run_of_le (l : List (Nat × ε)) (b : Meter cap)
    (h : b.used + (l.map (·.1)).sum ≤ b.limit) :
    play l b = (.ok (), b.add (l.map (·.1)).sum h) := by
  induction l generalizing b with
  | nil => rfl
  | cons c l ih =>
    obtain ⟨n, e⟩ := c
    simp only [List.map_cons, List.sum_cons] at h
    have hn : b.used + n ≤ b.limit := by omega
    have hstep : (charge n e : Metered cap ε Unit) b = (.ok (), b.add n hn) := by
      unfold charge
      rw [dif_pos hn]
    have hrest : (b.add n hn).used + (l.map (·.1)).sum ≤ (b.add n hn).limit := by
      simp only [Meter.add]
      omega
    rw [play, bind_run_ok _ hstep, ih (b.add n hn) hrest]
    congr 1
    refine Meter.ext_used rfl ?_
    simp only [Meter.add, List.map_cons, List.sum_cons]
    omega

/-- What performing charges does to a meter that does not cover them: one of them fails. -/
theorem play_run_of_lt (l : List (Nat × ε)) (b : Meter cap)
    (h : b.limit < b.used + (l.map (·.1)).sum) :
    ∃ c ∈ l, ∃ d, play l b = (.error c.2, d) ∧ b.used ≤ d.used ∧ d.limit = b.limit := by
  induction l generalizing b with
  | nil =>
    have := b.used_le
    simp at h
    omega
  | cons c l ih =>
    obtain ⟨n, e⟩ := c
    simp only [List.map_cons, List.sum_cons] at h
    by_cases hn : b.used + n ≤ b.limit
    · have hstep : (charge n e : Metered cap ε Unit) b = (.ok (), b.add n hn) := by
        unfold charge
        rw [dif_pos hn]
      have hrest : (b.add n hn).limit < (b.add n hn).used + (l.map (·.1)).sum := by
        simp only [Meter.add]
        omega
      obtain ⟨c, hc, d, hd, hu, hl⟩ := ih (b.add n hn) hrest
      refine ⟨c, List.mem_cons_of_mem _ hc, d, ?_, ?_, hl⟩
      · rw [play, bind_run_ok _ hstep, hd]
      · simp only [Meter.add] at hu
        omega
    · refine ⟨(n, e), List.mem_cons_self, b, ?_, Nat.le_refl _, rfl⟩
      have hstep : (charge n e : Metered cap ε Unit) b = (.error e, b) := by
        unfold charge
        rw [dif_neg hn]
      rw [play, bind_run_error _ hstep]

/-- **A script on a meter that covers it.** -/
theorem perform_run_of_le {s : Script ε α} {b : Meter cap} (h : b.used + s.cost ≤ b.limit) :
    s.perform b = (s.result, b.add s.cost h) := by
  rw [Script.perform, bind_run_ok _ (play_run_of_le s.charges b h)]
  rfl

/-- **A script on a meter that does not cover it.** -/
theorem perform_run_of_lt {s : Script ε α} {b : Meter cap} (h : b.limit < b.used + s.cost) :
    ∃ c ∈ s.charges, ∃ d, s.perform b = (.error c.2, d) ∧ b.used ≤ d.used ∧ d.limit = b.limit := by
  obtain ⟨c, hc, d, hd, hu, hl⟩ := play_run_of_lt s.charges b h
  exact ⟨c, hc, d, by rw [Script.perform, bind_run_error _ hd], hu, hl⟩

/-! ## Transparency -/

/-- `m` performs a script whose charges fail with errors in `P`. -/
def Transparent (P : ε → Prop) (m : Metered cap ε α) : Prop :=
  ∃ s : Script ε α, m = s.perform ∧ ∀ c ∈ s.charges, P c.2

variable {P : ε → Prop} {m : Metered cap ε α} {f : α → Metered cap ε β}

theorem transparent_lift (x : Except ε α) : Transparent P (lift x : Metered cap ε α) :=
  ⟨⟨[], x⟩, rfl, by simp⟩

theorem transparent_pure (a : α) : Transparent P (pure a : Metered cap ε α) := transparent_lift _

theorem transparent_charge {n : Nat} {e : ε} (h : P e) :
    Transparent P (charge n e : Metered cap ε Unit) := by
  refine ⟨⟨[(n, e)], .ok ()⟩, ?_, by simpa using h⟩
  funext b
  simp only [Script.perform, play]
  match hm : (charge n e : Metered cap ε Unit) b with
  | (.ok (), c) => rw [bind_run_ok _ ((bind_run_ok _ hm).trans rfl)]; rfl
  | (.error e, c) => rw [bind_run_error _ (bind_run_error _ hm)]

/-- **A sequence of transparent computations is transparent.** -/
theorem Transparent.bind (hm : Transparent P m) (hf : ∀ a, Transparent P (f a)) :
    Transparent P (m >>= f) := by
  obtain ⟨s, rfl, hs⟩ := hm
  cases hres : s.result with
  | error e =>
    refine ⟨⟨s.charges, .error e⟩, ?_, hs⟩
    simp only [Script.perform, hres, bind_assoc]
    rfl
  | ok a =>
    obtain ⟨t, ht, hts⟩ := hf a
    refine ⟨⟨s.charges ++ t.charges, t.result⟩, ?_, ?_⟩
    · simp only [Script.perform, hres, bind_assoc, play_append]
      rw [← Script.perform, ← ht]
      rfl
    · intro c hc
      rcases List.mem_append.1 hc with hc | hc
      · exact hs c hc
      · exact hts c hc

/-- `for item in items { g(item)? }`. -/
def forEach (g : α → Metered cap ε Unit) : List α → Metered cap ε Unit
  | [] => pure ()
  | a :: l => g a >>= fun _ => forEach g l

theorem Transparent.forEach {l : List α} {g : α → Metered cap ε Unit}
    (h : ∀ a ∈ l, Transparent P (g a)) : Transparent P (forEach g l) := by
  induction l with
  | nil => exact transparent_pure _
  | cons a l ih =>
    exact (h a List.mem_cons_self).bind fun _ => ih fun b hb => h b (List.mem_cons_of_mem _ hb)

theorem Transparent.foldlM {l : List α} {g : β → α → Metered cap ε β}
    (h : ∀ v, ∀ a ∈ l, Transparent P (g v a)) (v : β) : Transparent P (l.foldlM g v) := by
  induction l generalizing v with
  | nil => exact transparent_pure _
  | cons a l ih =>
    rw [List.foldlM_cons]
    exact (h v a List.mem_cons_self).bind fun w => ih (fun v b hb => h v b (List.mem_cons_of_mem _ hb)) w

/-- A transparent computation never gives work back and never moves the limit. -/
theorem Transparent.used_le (hm : Transparent P m) (b : Meter cap) :
    b.used ≤ (m b).2.used ∧ (m b).2.limit = b.limit := by
  obtain ⟨s, rfl, -⟩ := hm
  by_cases hc : b.used + s.cost ≤ b.limit
  · rw [perform_run_of_le hc]
    exact ⟨Nat.le_add_right _ _, rfl⟩
  · obtain ⟨c, -, d, hd, hu, hl⟩ := perform_run_of_lt (Nat.lt_of_not_le hc)
    rw [hd]
    exact ⟨hu, hl⟩

/-- **One successful run decides all**: with the same work left or more the computation returns the
same for the same charge, with less it fails at a charge. -/
theorem Transparent.of_ok (hm : Transparent P m) {b d : Meter cap} {a : α}
    (h : m b = (.ok a, d)) :
    d.limit = b.limit ∧ b.used ≤ d.used ∧
      (∀ b' : Meter cap, d.used - b.used ≤ b'.remaining →
        ∃ d', m b' = (.ok a, d') ∧ d'.limit = b'.limit ∧
          d'.used = b'.used + (d.used - b.used)) ∧
        ∀ b' : Meter cap, b'.remaining < d.used - b.used → ∃ e d', P e ∧ m b' = (.error e, d') := by
  obtain ⟨s, rfl, hs⟩ := hm
  have hc : b.used + s.cost ≤ b.limit := by
    by_contra hc
    obtain ⟨c, -, d', hd, -⟩ := perform_run_of_lt (Nat.lt_of_not_le hc)
    rw [hd] at h
    cases h
  rw [perform_run_of_le hc, Prod.mk.injEq] at h
  obtain ⟨hres, rfl⟩ := h
  have hcost : (b.add s.cost hc).used - b.used = s.cost := by
    simp only [Meter.add]
    omega
  rw [hcost]
  refine ⟨rfl, Nat.le_add_right _ _, fun b' hb' => ?_, fun b' hb' => ?_⟩
  · have hc' := Meter.le_remaining.1 hb'
    exact ⟨b'.add s.cost hc', by rw [perform_run_of_le hc', hres], rfl, rfl⟩
  · have hc' : b'.limit < b'.used + s.cost := by
      unfold Meter.remaining at hb'
      have := b'.used_le
      omega
    obtain ⟨c, hcs, d', hd, -⟩ := perform_run_of_lt hc'
    exact ⟨c.2, d', hs c hcs, hd⟩

/-! ## Costs -/

/-- `m` returns `a` for the work `c`, on some meter. -/
def Costs (m : Metered cap ε α) (a : α) (c : Nat) : Prop :=
  ∃ b d : Meter cap, m b = (.ok a, d) ∧ d.limit = b.limit ∧ d.used = b.used + c

theorem Costs.le_cap {a : α} {c : Nat} (h : Costs m a c) : c ≤ cap := by
  obtain ⟨b, d, -, hl, hu⟩ := h
  have := d.used_le
  have := b.limit_le
  omega

theorem Transparent.costs_of_run (hm : Transparent P m) {b d : Meter cap} {a : α}
    (h : m b = (.ok a, d)) : Costs m a (d.used - b.used) := by
  obtain ⟨hl, hu, -⟩ := hm.of_ok h
  exact ⟨b, d, h, hl, by omega⟩

/-- A computation of known cost, on any meter that covers it. -/
theorem Costs.run (hm : Transparent P m) {a : α} {c : Nat} (h : Costs m a c) {b : Meter cap}
    (hb : c ≤ b.remaining) : ∃ d, m b = (.ok a, d) ∧ d.limit = b.limit ∧ d.used = b.used + c := by
  obtain ⟨b₀, d₀, h₀, hl, hu⟩ := h
  obtain ⟨-, -, hall, -⟩ := hm.of_ok h₀
  have hc : d₀.used - b₀.used = c := by omega
  rw [hc] at hall
  exact hall b hb

/-- The meter that covers everything up to `cap`. -/
def Meter.full (cap : Nat) : Meter cap := ⟨cap, 0, Nat.le_refl _, Nat.zero_le _⟩

/-- **Costs add up along a sequence.** -/
theorem costs_bind (hm : Transparent P m) (hf : ∀ a, Transparent P (f a)) {v : β} {c : Nat} :
    Costs (m >>= f) v c ↔
      ∃ a c₁ c₂, Costs m a c₁ ∧ Costs (f a) v c₂ ∧ c = c₁ + c₂ ∧ c ≤ cap := by
  constructor
  · intro h
    have hcap := h.le_cap
    obtain ⟨b, d, hrun, hl, hu⟩ := h
    obtain ⟨a, e, h₁, h₂⟩ := bind_run_eq_ok.1 hrun
    obtain ⟨hl₁, hu₁, -⟩ := hm.of_ok h₁
    obtain ⟨hl₂, hu₂, -⟩ := (hf a).of_ok h₂
    exact ⟨a, _, _, hm.costs_of_run h₁, (hf a).costs_of_run h₂, by omega, hcap⟩
  · rintro ⟨a, c₁, c₂, h₁, h₂, rfl, hcap⟩
    have hfull : (Meter.full cap).remaining = cap := rfl
    obtain ⟨b₁, hb₁, hl₁, hu₁⟩ := h₁.run hm (show c₁ ≤ (Meter.full cap).remaining by omega)
    have hrem : c₂ ≤ b₁.remaining := by
      rw [Meter.le_remaining, hl₁, hu₁]
      simp only [Meter.full]
      omega
    obtain ⟨b₂, hb₂, hl₂, hu₂⟩ := h₂.run (hf a) hrem
    exact ⟨Meter.full cap, b₂, (bind_run_ok f hb₁).trans hb₂, hl₂.trans hl₁, by omega⟩

theorem costs_lift {x : Except ε α} {a : α} {c : Nat} :
    Costs (lift x : Metered cap ε α) a c ↔ x = .ok a ∧ c = 0 := by
  constructor
  · rintro ⟨b, d, h, -, hu⟩
    obtain ⟨hx, rfl⟩ := lift_run_eq_ok.1 h
    exact ⟨hx, by omega⟩
  · rintro ⟨hx, rfl⟩
    exact ⟨Meter.full cap, Meter.full cap, lift_run_eq_ok.2 ⟨hx, rfl⟩, rfl, rfl⟩

/-- **A loop of charges costs the same in every order.** -/
theorem costs_forEach_perm {l k : List α} {g : α → Metered cap ε Unit}
    (hg : ∀ a, Transparent P (g a)) (h : l.Perm k) {c : Nat} :
    Costs (forEach g l) () c → Costs (forEach g k) () c := by
  have hloop : ∀ l : List α, Transparent P (Metered.forEach g l) := fun l => .forEach fun a _ => hg a
  induction h generalizing c with
  | nil => exact id
  | cons a _ ih =>
    simp only [Metered.forEach]
    rw [costs_bind (hg a) fun _ => hloop _, costs_bind (hg a) fun _ => hloop _]
    rintro ⟨u, c₁, c₂, h₁, h₂, hc, hcap⟩
    exact ⟨u, c₁, c₂, h₁, ih h₂, hc, hcap⟩
  | swap a a' l =>
    have hpair : ∀ a, Transparent P (g a >>= fun _ => Metered.forEach g l) :=
      fun a => (hg a).bind fun _ => hloop _
    simp only [Metered.forEach]
    rw [costs_bind (hg a') fun _ => hpair a, costs_bind (hg a) fun _ => hpair a']
    rintro ⟨u, c₁, c₂, h₁, h₂, hc, hcap⟩
    rw [costs_bind (hg a) fun _ => hloop _] at h₂
    obtain ⟨w, c₃, c₄, h₃, h₄, hc', hcap'⟩ := h₂
    refine ⟨w, c₃, c₁ + c₄, h₃, ?_, by omega, hcap⟩
    rw [costs_bind (hg a') fun _ => hloop _]
    exact ⟨u, c₁, c₄, h₁, h₄, rfl, by omega⟩
  | trans _ _ ih₁ ih₂ => exact fun h => ih₂ (ih₁ h)

/-! ## Computations that follow each other -/

/-- `m'` returns whatever `m` returns, for the same work. -/
def Follows (m m' : Metered cap ε α) : Prop := ∀ a c, Costs m a c → Costs m' a c

theorem Follows.refl (m : Metered cap ε α) : Follows m m := fun _ _ h => h

theorem follows_lift {x y : Except ε α} (h : ∀ a, x = .ok a → y = .ok a) :
    Follows (lift x : Metered cap ε α) (lift y) := by
  intro a c hc
  rw [costs_lift] at hc ⊢
  exact ⟨h a hc.1, hc.2⟩

theorem follows_forEach_perm {l k : List α} {g : α → Metered cap ε Unit}
    (hg : ∀ a, Transparent P (g a)) (h : l.Perm k) : Follows (forEach g l) (forEach g k) :=
  fun _ _ hc => costs_forEach_perm hg h hc

theorem Follows.bind {m' : Metered cap ε α} {f' : α → Metered cap ε β} (hm : Transparent P m)
    (hm' : Transparent P m') (hf : ∀ a, Transparent P (f a)) (hf' : ∀ a, Transparent P (f' a))
    (h : Follows m m') (hstep : ∀ a, Follows (f a) (f' a)) : Follows (m >>= f) (m' >>= f') := by
  intro v c hc
  rw [costs_bind hm hf] at hc
  obtain ⟨a, c₁, c₂, h₁, h₂, hsum, hcap⟩ := hc
  rw [costs_bind hm' hf']
  exact ⟨a, c₁, c₂, h a c₁ h₁, hstep a v c₂ h₂, hsum, hcap⟩

/-- **Following runs**: on every meter the outcome and the meter left are the same. -/
theorem Follows.run {m' : Metered cap ε α} (h : Follows m m') (hm : Transparent P m)
    (hm' : Transparent P m') {b d : Meter cap} {a : α} (hrun : m b = (.ok a, d)) :
    m' b = (.ok a, d) := by
  obtain ⟨hlimit, hused, -⟩ := hm.of_ok hrun
  have hfit : d.used - b.used ≤ b.remaining := by
    have := d.used_le
    unfold Meter.remaining
    omega
  obtain ⟨d', hrun', hlimit', hused'⟩ := (h _ _ (hm.costs_of_run hrun)).run hm' hfit
  rw [hrun']
  congr 1
  exact Meter.ext_used (hlimit'.trans hlimit.symm) (by omega)

/-! ## What a computation returns -/

/-- When `m` returns, `Q` holds of what it returns. -/
def Returns (m : Metered cap ε α) (Q : α → Prop) : Prop := ∀ b a d, m b = (.ok a, d) → Q a

theorem returns_lift {x : Except ε α} {Q : α → Prop} (h : ∀ a, x = .ok a → Q a) :
    Returns (lift x : Metered cap ε α) Q := by
  intro b a d hrun
  exact h a (lift_run_eq_ok.1 hrun).1

theorem returns_pure {a : α} {Q : α → Prop} (h : Q a) : Returns (pure a : Metered cap ε α) Q := by
  refine returns_lift fun v hv => ?_
  cases hv
  exact h

theorem Returns.bind {R : α → Prop} {Q : β → Prop} (hm : Returns m R)
    (hf : ∀ a, R a → Returns (f a) Q) : Returns (m >>= f) Q := by
  intro b v d hrun
  obtain ⟨a, c, h₁, h₂⟩ := bind_run_eq_ok.1 hrun
  exact hf a (hm b a c h₁) c v d h₂

/-- A sequence whose first result does not matter. -/
theorem returns_bind {Q : β → Prop} (hf : ∀ a, Returns (f a) Q) : Returns (m >>= f) Q :=
  Returns.bind (fun _ _ _ _ => trivial) fun a (_ : True) => hf a

theorem returns_ite {p : Prop} [Decidable p] {m' : Metered cap ε α} {Q : α → Prop}
    (hm : p → Returns m Q) (hm' : ¬ p → Returns m' Q) : Returns (if p then m else m') Q := by
  by_cases h : p
  · rw [if_pos h]
    exact hm h
  · rw [if_neg h]
    exact hm' h

/-- **The invariant rule of a loop**: `I done v` holds of the items folded so far. -/
theorem Returns.foldlM {g : β → α → Metered cap ε β} {I : List α → β → Prop} {l : List α} {v : β}
    (hinit : I [] v)
    (hstep : ∀ done a rest v, l = done ++ a :: rest → I done v → Returns (g v a) (I (done ++ [a]))) :
    Returns (l.foldlM g v) (I l) := by
  suffices h : ∀ rest done v, l = done ++ rest → I done v →
      Returns (rest.foldlM g v) (I l) from h l [] v rfl hinit
  intro rest
  induction rest with
  | nil =>
    intro done v hl hv
    rw [List.append_nil] at hl
    subst hl
    exact returns_pure hv
  | cons a rest ih =>
    intro done v hl hv
    rw [List.foldlM_cons]
    refine (hstep done a rest v hl hv).bind fun w hw => ?_
    exact ih (done ++ [a]) w (by simp [hl]) hw

/-! ## Enough work -/

/-- With the work `c` left, `m` returns and charges no more than that. -/
def Within (m : Metered cap ε α) (c : Nat) : Prop :=
  ∀ b : Meter cap, c ≤ b.remaining → ∃ a d, m b = (.ok a, d) ∧ d.limit = b.limit ∧ d.used ≤ b.used + c

theorem within_pure (a : α) (c : Nat) : Within (pure a : Metered cap ε α) c :=
  fun b _ => ⟨a, b, rfl, rfl, Nat.le_add_right _ _⟩

theorem within_charge (n : Nat) (e : ε) : Within (charge n e : Metered cap ε Unit) n := by
  intro b hb
  have hfit := Meter.le_remaining.1 hb
  exact ⟨(), b.add n hfit, charge_run_eq_ok.2 ⟨hfit, rfl, rfl⟩, rfl, Nat.le_refl _⟩

theorem Within.mono {c c' : Nat} (h : Within m c) (hle : c ≤ c') : Within m c' := by
  intro b hb
  obtain ⟨a, d, hrun, hlimit, hused⟩ := h b (hle.trans hb)
  exact ⟨a, d, hrun, hlimit, hused.trans (Nat.add_le_add_left hle _)⟩

/-- **The work of a sequence.** -/
theorem Within.bind {c₁ c₂ : Nat} (hm : Within m c₁) (hf : ∀ a, Within (f a) c₂) :
    Within (m >>= f) (c₁ + c₂) := by
  intro b hb
  have hfit := Meter.le_remaining.1 hb
  obtain ⟨a, d, hrun, hlimit, hused⟩ := hm b (Meter.le_remaining.2 (by omega))
  obtain ⟨v, d', hrun', hlimit', hused'⟩ := hf a d (Meter.le_remaining.2 (by omega))
  exact ⟨v, d', (bind_run_ok f hrun).trans hrun', hlimit'.trans hlimit, by omega⟩

theorem within_ite {p : Prop} [Decidable p] {m' : Metered cap ε α} {c : Nat} (hm : Within m c)
    (hm' : Within m' c) : Within (if p then m else m') c := by
  split
  · exact hm
  · exact hm'

/-! ## Sequences -/

/-- Runs every computation of a list and collects what they return. -/
def inSequence : List (Metered cap ε α) → Metered cap ε (List α)
  | [] => pure []
  | m :: ms => m >>= fun a => inSequence ms >>= fun as => pure (a :: as)

/-- **A sequence succeeds exactly when the work of its parts fits.** -/
theorem inSequence_run_iff {ms : List (Metered cap ε α)} (h : ∀ m ∈ ms, Transparent P m)
    {b : Meter cap} :
    (∃ as d, inSequence ms b = (.ok as, d)) ↔
      ∃ cs, List.Forall₂ (fun m c => ∃ a, Costs m a c) ms cs ∧ cs.sum ≤ b.remaining := by
  induction ms generalizing b with
  | nil =>
    constructor
    · intro _
      exact ⟨[], .nil, Nat.zero_le _⟩
    · intro _
      exact ⟨[], b, rfl⟩
  | cons m ms ih =>
    have hm := h m List.mem_cons_self
    have hms : ∀ m' ∈ ms, Transparent P m' := fun m' hm' => h m' (List.mem_cons_of_mem _ hm')
    constructor
    · rintro ⟨as, d, hd⟩
      obtain ⟨a, b₁, h₁, hd⟩ := bind_run_eq_ok.1 hd
      obtain ⟨as', b₂, h₂, -⟩ := bind_run_eq_ok.1 hd
      obtain ⟨cs, hcs, hsum⟩ := (ih hms).1 ⟨as', b₂, h₂⟩
      obtain ⟨hl, hu, -⟩ := hm.of_ok h₁
      refine ⟨(b₁.used - b.used) :: cs, .cons ⟨a, hm.costs_of_run h₁⟩ hcs, ?_⟩
      rw [List.sum_cons]
      unfold Meter.remaining at hsum ⊢
      have := b₁.used_le
      omega
    · rintro ⟨cs, hcs, hsum⟩
      cases hcs with
      | @cons _ c _ cs hc hcs =>
        obtain ⟨a, hc⟩ := hc
        rw [List.sum_cons] at hsum
        obtain ⟨b₁, h₁, hl, hu⟩ := hc.run hm (show c ≤ b.remaining by omega)
        have hrest : cs.sum ≤ b₁.remaining := by
          have := Meter.le_remaining.1 hsum
          rw [Meter.le_remaining, hl, hu]
          omega
        obtain ⟨as, d, hd⟩ := (ih hms).2 ⟨cs, hcs, hrest⟩
        refine ⟨a :: as, d, ?_⟩
        rw [inSequence, bind_run_ok _ h₁, bind_run_ok _ hd]
        rfl

end Metered

end Base
