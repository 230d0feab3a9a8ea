import Mathlib.Data.List.Forall2
import Mathlib.Data.List.Perm.Basic
import LorePia.Base.Result

/-!
# Lists related item by item

Facts about `List.Forall₂` that the state comparisons use: it composes, carries membership across, and
identifies two projections that the relation identifies. A loop that maps a list succeeds when its
items do, with the related list (`mapM_eq_ok`), so it succeeds in every order (`mapM_ok_perm`).
-/

namespace Base

variable {α β γ : Type} {R : α → β → Prop}

theorem forall₂_trans {S : α → α → Prop} (hS : ∀ a b c, S a b → S b c → S a c) :
    ∀ {l k n : List α}, List.Forall₂ S l k → List.Forall₂ S k n → List.Forall₂ S l n
  | _, _, _, .nil, .nil => .nil
  | _, _, _, .cons h t, .cons h' t' => .cons (hS _ _ _ h h') (forall₂_trans hS t t')

theorem forall₂_mem_right {l : List α} {k : List β} (h : List.Forall₂ R l k) {b : β} (hb : b ∈ k) :
    ∃ a ∈ l, R a b := by
  induction h with
  | nil => cases hb
  | cons hab _ ih =>
    rcases List.mem_cons.1 hb with rfl | hb
    · exact ⟨_, by simp, hab⟩
    · obtain ⟨a, ha, hR⟩ := ih hb
      exact ⟨a, List.mem_cons_of_mem _ ha, hR⟩

theorem forall₂_mem_left {l : List α} {k : List β} (h : List.Forall₂ R l k) {a : α} (ha : a ∈ l) :
    ∃ b ∈ k, R a b :=
  forall₂_mem_right h.flip ha

theorem forall₂_imp_mem {S : α → β → Prop} {l : List α} {k : List β} (h : List.Forall₂ R l k)
    (himp : ∀ a ∈ l, ∀ b, R a b → S a b) : List.Forall₂ S l k := by
  induction h with
  | nil => exact .nil
  | @cons a b _ _ hab _ ih =>
    exact .cons (himp a (by simp) b hab) (ih fun c hc => himp c (List.mem_cons_of_mem _ hc))

theorem forall₂_getElem? {l : List α} {k : List β} (h : List.Forall₂ R l k) :
    ∀ {i : Nat} {a : α}, l[i]? = some a → ∃ b, k[i]? = some b ∧ R a b := by
  induction h with
  | nil => simp
  | @cons x y _ _ hab _ ih =>
    intro i a ha
    cases i with
    | zero =>
      cases ha
      exact ⟨y, rfl, hab⟩
    | succ i => exact ih ha

theorem forall₂_map_eq {f : α → γ} {g : β → γ} (hfg : ∀ a b, R a b → f a = g b) {l : List α}
    {k : List β} (h : List.Forall₂ R l k) : l.map f = k.map g := by
  induction h with
  | nil => rfl
  | cons hab _ ih => rw [List.map_cons, List.map_cons, hfg _ _ hab, ih]

/-- A list and the list with one item changed. -/
theorem forall₂_modify {S : α → α → Prop} (hrefl : ∀ a, S a a) {f : α → α} : ∀ {l : List α} {i : Nat},
    (∀ a, l[i]? = some a → S a (f a)) → List.Forall₂ S l (l.modify i f)
  | [], i, _ => by cases i <;> exact .nil
  | a :: l, 0, h => .cons (h a rfl) (List.forall₂_same.2 fun b _ => hrefl b)
  | a :: l, i + 1, h => .cons (hrefl a) (forall₂_modify hrefl fun b hb => h b (by simpa using hb))

/-- A list and its image. -/
theorem forall₂_map {f : α → β} {l : List α} (h : ∀ a ∈ l, R a (f a)) : List.Forall₂ R l (l.map f) :=
  List.forall₂_map_right_iff.2 (List.forall₂_same.2 h)

/-- Groups that keep some of their items, in any order, keep those of all items. -/
theorem flatMap_perm_filter {S : α → α → Prop} {f : α → List β} {p : β → Bool}
    (hS : ∀ a a', S a a' → (f a').Perm ((f a).filter p)) {l kept l' : List α}
    (hkept : List.Forall₂ S l kept) (hperm : kept.Perm l') :
    (l'.flatMap f).Perm ((l.flatMap f).filter p) := by
  refine ((hperm.flatMap_right f).symm).trans ?_
  clear hperm
  induction hkept with
  | nil => exact .refl _
  | cons ha _ ih =>
    rw [List.flatMap_cons, List.flatMap_cons, List.filter_append]
    exact (hS _ _ ha).append ih

/-! ## Mapping loops -/

section
variable {ε : Type}

/-- `items.map(f).collect::<Result<Vec<_>, _>>()`. -/
theorem mapM_eq_ok {f : α → Except ε β} : ∀ {l : List α} {r : List β},
    l.mapM f = .ok r ↔ List.Forall₂ (fun a b => f a = .ok b) l r
  | [], r => by
    rw [List.mapM_nil, pure_eq_ok, List.forall₂_nil_left_iff, eq_comm]
  | a :: l, r => by
    rw [List.mapM_cons, bind_eq_ok, List.forall₂_cons_left_iff]
    simp only [bind_eq_ok, mapM_eq_ok, pure_eq_ok]
    constructor
    · rintro ⟨b, hb, bs, hbs, rfl⟩
      exact ⟨b, bs, hb, hbs, rfl⟩
    · rintro ⟨b, bs, hb, hbs, rfl⟩
      exact ⟨b, hb, bs, hbs, rfl⟩

/-- A mapping loop succeeds when every item does. -/
theorem exists_mapM_ok {f : α → Except ε β} {l : List α} (h : ∀ a ∈ l, ∃ b, f a = .ok b) :
    ∃ r, l.mapM f = .ok r := by
  induction l with
  | nil => exact ⟨[], rfl⟩
  | cons a l ih =>
    obtain ⟨b, hb⟩ := h a (by simp)
    obtain ⟨r, hr⟩ := ih fun c hc => h c (by simp [hc])
    exact ⟨b :: r, mapM_eq_ok.2 (.cons hb (mapM_eq_ok.1 hr))⟩

/-- A mapping loop over the items in another order, with steps that succeed where those of the first do,
gives the same results in another order. -/
theorem mapM_ok_perm {f g : α → Except ε β} (hfg : ∀ a b, f a = .ok b → g a = .ok b) {l k : List α}
    (hp : l.Perm k) {r : List β} (h : l.mapM f = .ok r) :
    ∃ r', k.mapM g = .ok r' ∧ r'.Perm r := by
  obtain ⟨r', hr', hperm⟩ := List.perm_comp_forall₂ hp.symm (mapM_eq_ok.1 h)
  exact ⟨r', mapM_eq_ok.2 (hr'.imp fun a b => hfg a b), hperm⟩

theorem foldlM_ok_mono {f g : β → α → Except ε β} (hfg : ∀ s a r, f s a = .ok r → g s a = .ok r) :
    ∀ {l : List α} {s r : β}, l.foldlM f s = .ok r → l.foldlM g s = .ok r
  | [], _, _, h => h
  | a :: l, s, r, h => by
    rw [List.foldlM_cons, bind_eq_ok] at h ⊢
    obtain ⟨t, ht, h⟩ := h
    exact ⟨t, hfg s a t ht, foldlM_ok_mono hfg h⟩

end

end Base
