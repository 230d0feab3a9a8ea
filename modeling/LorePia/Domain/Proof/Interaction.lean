import LorePia.Base.Related
import LorePia.Domain.Interaction

/-!
# Variable maps and the equality of states

`VariableMap.insert` on a map with distinct references, and what the derived `PartialEq` of a state
says: `==` compares decimals as floating-point numbers, so it identifies two states exactly up to the
sign of a decimal zero (`InteractionState.Same`).
-/

namespace LorePia

open Base

/-! ## Maps -/

/-- The references that a map binds. -/
def VariableMap.refs (m : VariableMap) : List VariableRef := m.values.map (·.var)

theorem setBinding_refs (v : VariableRef) (x : VariableValue) : ∀ l : List VariableBinding,
    (setBinding v x l).map (·.var) = l.map (·.var)
  | [] => rfl
  | b :: l => by
    unfold setBinding
    split
    · rfl
    · rw [List.map_cons, setBinding_refs v x l, List.map_cons]

theorem mem_setBinding {v : VariableRef} {x : VariableValue} {b : VariableBinding} :
    ∀ {l : List VariableBinding}, b ∈ setBinding v x l → b ∈ l ∨ b = ⟨v, x⟩
  | [], h => by simp [setBinding] at h
  | c :: l, h => by
    unfold setBinding at h
    split at h
    · rename_i hc
      rcases List.mem_cons.1 h with rfl | h
      · exact .inr (by rw [hc])
      · exact .inl (List.mem_cons_of_mem _ h)
    · rcases List.mem_cons.1 h with rfl | h
      · exact .inl (by simp)
      · rcases mem_setBinding h with h | h
        · exact .inl (List.mem_cons_of_mem _ h)
        · exact .inr h

theorem find?_setBinding (v w : VariableRef) (x : VariableValue) : ∀ {l : List VariableBinding},
    v ∈ l.map (·.var) →
    ((setBinding v x l).find? fun b => b.var = w).map (·.value) =
      if w = v then some x else (l.find? fun b => b.var = w).map (·.value)
  | [], h => by simp at h
  | b :: l, h => by
    unfold setBinding
    by_cases hb : b.var = v
    · rw [if_pos hb]
      by_cases hw : w = v
      · simp [hb, hw]
      · simp [hb, hw, Ne.symm hw]
    · rw [if_neg hb]
      have hv : v ∈ l.map (·.var) := by
        rw [List.map_cons] at h
        exact List.mem_of_ne_of_mem (Ne.symm hb) h
      by_cases hbw : b.var = w
      · simp [hbw, show w ≠ v from hbw ▸ hb]
      · simp only [List.find?_cons, hbw, decide_false]
        exact find?_setBinding v w x hv

namespace VariableMap

theorem any_iff {m : VariableMap} {v : VariableRef} :
    (m.values.any fun b => b.var = v) = true ↔ v ∈ m.refs := by
  simp [refs]

theorem insert_of_mem {m : VariableMap} {v : VariableRef} (h : v ∈ m.refs) (x : VariableValue) :
    m.insert v x = ⟨setBinding v x m.values⟩ := by
  rw [insert, if_pos (any_iff.2 h)]

theorem insert_of_not_mem {m : VariableMap} {v : VariableRef} (h : v ∉ m.refs) (x : VariableValue) :
    m.insert v x =
      ⟨stableSort (fun left right => decide (left.var ≤ right.var)) (m.values ++ [⟨v, x⟩])⟩ := by
  rw [insert, if_neg (mt any_iff.1 h)]

theorem mem_insert {m : VariableMap} {v : VariableRef} {x : VariableValue} {b : VariableBinding}
    (h : b ∈ (m.insert v x).values) : b ∈ m.values ∨ b = ⟨v, x⟩ := by
  by_cases hv : v ∈ m.refs
  · rw [insert_of_mem hv] at h
    exact mem_setBinding h
  · rw [insert_of_not_mem hv] at h
    simpa using h

theorem refs_insert_perm (m : VariableMap) (v : VariableRef) (x : VariableValue) :
    (m.insert v x).refs.Perm (if v ∈ m.refs then m.refs else m.refs ++ [v]) := by
  split
  · rename_i hv
    rw [insert_of_mem hv]
    exact .of_eq (setBinding_refs v x m.values)
  · rename_i hv
    rw [insert_of_not_mem hv]
    have := (stableSort_perm (fun left right : VariableBinding => decide (left.var ≤ right.var))
      (m.values ++ [⟨v, x⟩])).map (·.var)
    simpa [refs] using this

theorem mem_refs_insert {m : VariableMap} {v w : VariableRef} {x : VariableValue} :
    w ∈ (m.insert v x).refs ↔ w = v ∨ w ∈ m.refs := by
  rw [(refs_insert_perm m v x).mem_iff]
  split
  · rename_i hv
    exact ⟨.inr, fun h => h.elim (fun h => h ▸ hv) id⟩
  · simp [or_comm]

theorem refs_insert_nodup {m : VariableMap} (h : m.refs.Nodup) (v : VariableRef) (x : VariableValue) :
    (m.insert v x).refs.Nodup := by
  rw [(refs_insert_perm m v x).nodup_iff]
  split
  · exact h
  · rename_i hv
    rw [List.nodup_append]
    exact ⟨h, by simp, fun a ha b hb => by
      have : b = v := by simpa using hb
      rintro rfl
      exact hv (this ▸ ha)⟩

theorem get_eq_some {m : VariableMap} (h : m.refs.Nodup) {v : VariableRef} {x : VariableValue} :
    m.get v = some x ↔ ⟨v, x⟩ ∈ m.values := by
  constructor
  · intro hg
    obtain ⟨b, hb, rfl⟩ := Option.map_eq_some_iff.1 hg
    have hv : b.var = v := by simpa using List.find?_some hb
    rw [← hv]
    exact List.mem_of_find?_eq_some hb
  · intro hm
    have := find?_key h hm
    rw [get, this]
    rfl

theorem mem_of_get {m : VariableMap} {v : VariableRef} {x : VariableValue} (h : m.get v = some x) :
    ∃ b ∈ m.values, b.var = v ∧ b.value = x := by
  obtain ⟨b, hb, rfl⟩ := Option.map_eq_some_iff.1 h
  exact ⟨b, List.mem_of_find?_eq_some hb, by simpa using List.find?_some hb, rfl⟩

theorem get_eq_none {m : VariableMap} {v : VariableRef} : m.get v = none ↔ v ∉ m.refs := by
  simp [get, refs]

/-- **A write is read back, and no other variable changes.** -/
theorem get_insert {m : VariableMap} (h : m.refs.Nodup) (v w : VariableRef) (x : VariableValue) :
    (m.insert v x).get w = if w = v then some x else m.get w := by
  by_cases hv : v ∈ m.refs
  · rw [insert_of_mem hv]
    exact find?_setBinding v w x hv
  · apply Option.ext
    intro y
    rw [get_eq_some (refs_insert_nodup h v x), insert_of_not_mem hv]
    simp only [mem_stableSort, List.mem_append, List.mem_singleton, VariableBinding.mk.injEq]
    by_cases hw : w = v
    · subst hw
      have hnone : (⟨w, y⟩ : VariableBinding) ∉ m.values := fun hm =>
        hv (List.mem_map.2 ⟨_, hm, rfl⟩)
      simp [hnone, eq_comm]
    · simp only [hw, false_and, or_false, if_false]
      exact (get_eq_some h).symm

end VariableMap

/-! ## Equality up to the sign of a zero -/

/-- The same value, or both a decimal zero. -/
def VariableValue.Same (a b : VariableValue) : Prop :=
  a = b ∨ ∃ x y : F64, a = .decimal x ∧ b = .decimal y ∧ x.magnitude = 0 ∧ y.magnitude = 0

theorem VariableValue.Same.refl (a : VariableValue) : a.Same a := .inl rfl

theorem VariableValue.Same.symm {a b : VariableValue} (h : a.Same b) : b.Same a := by
  rcases h with rfl | ⟨x, y, ha, hb, hx, hy⟩
  · exact .refl a
  · exact .inr ⟨y, x, hb, ha, hy, hx⟩

theorem VariableValue.Same.trans {a b c : VariableValue} (h : a.Same b) (h' : b.Same c) : a.Same c := by
  rcases h with rfl | ⟨x, y, rfl, rfl, hx, _⟩
  · exact h'
  · rcases h' with rfl | ⟨x', y', _, rfl, _, hy'⟩
    · exact .inr ⟨x, y, rfl, rfl, hx, ‹_›⟩
    · exact .inr ⟨x, y', rfl, rfl, hx, hy'⟩

/-- `==` on values identifies nothing else. -/
theorem VariableValue.same_of_eq {a b : VariableValue} (h : a.eq b = true) : a.Same b := by
  cases a <;> cases b <;> simp only [VariableValue.eq, beq_iff_eq, reduceCtorEq] at h
  case decimal.decimal x y =>
    rcases Ieee.eq_or_zero h with rfl | ⟨hx, hy⟩
    · exact .refl _
    · exact .inr ⟨x, y, rfl, rfl, hx, hy⟩
  all_goals exact .inl (by rw [h])

/-- The same binding up to the sign of a zero. -/
def VariableBinding.Same (a b : VariableBinding) : Prop := a.var = b.var ∧ a.value.Same b.value

/-- The same map up to the sign of its zeros. -/
def VariableMap.Same (m n : VariableMap) : Prop := List.Forall₂ VariableBinding.Same m.values n.values

namespace VariableMap

theorem Same.refl (m : VariableMap) : m.Same m :=
  List.forall₂_same.2 fun b _ => ⟨rfl, .refl b.value⟩

theorem Same.symm {m n : VariableMap} (h : m.Same n) : n.Same m :=
  List.Forall₂.flip (h.imp fun _ _ hb => ⟨hb.1.symm, hb.2.symm⟩)

theorem Same.trans {m n k : VariableMap} (h : m.Same n) (h' : n.Same k) : m.Same k :=
  forall₂_trans (fun _ _ _ hab hbc => ⟨hab.1.trans hbc.1, hab.2.trans hbc.2⟩) h h'

theorem Same.refs {m n : VariableMap} (h : m.Same n) : m.refs = n.refs :=
  forall₂_map_eq (fun _ _ hb => hb.1) h

theorem setBinding_same {l k : List VariableBinding} (h : List.Forall₂ VariableBinding.Same l k)
    (v : VariableRef) (x : VariableValue) :
    List.Forall₂ VariableBinding.Same (setBinding v x l) (setBinding v x k) := by
  induction h with
  | nil => exact .nil
  | cons hb ht ih =>
    unfold setBinding
    rw [hb.1]
    split
    · exact .cons ⟨rfl, .refl x⟩ ht
    · exact .cons hb ih

/-- A write keeps two maps the same. -/
theorem Same.insert {m n : VariableMap} (h : m.Same n) (v : VariableRef) (x : VariableValue) :
    (m.insert v x).Same (n.insert v x) := by
  by_cases hv : v ∈ m.refs
  · rw [insert_of_mem hv, insert_of_mem (h.refs ▸ hv)]
    exact setBinding_same h v x
  · rw [insert_of_not_mem hv, insert_of_not_mem (h.refs ▸ hv)]
    refine stableSort_forall₂ (fun a b a' b' ha hb => by rw [ha.1, hb.1]) ?_
    exact List.rel_append h (.cons ⟨rfl, .refl x⟩ .nil)

theorem setBinding_same_of_find {v : VariableRef} {x y : VariableValue} (hxy : x.Same y) :
    ∀ {l : List VariableBinding}, (l.find? fun b => b.var = v).map (·.value) = some x →
      List.Forall₂ VariableBinding.Same l (setBinding v y l)
  | [], h => by simp at h
  | b :: l, h => by
    unfold setBinding
    by_cases hb : b.var = v
    · rw [if_pos hb]
      have hx : b.value = x := by simpa [List.find?_cons, hb] using h
      exact .cons ⟨rfl, hx ▸ hxy⟩ (Same.refl ⟨l⟩)
    · rw [if_neg hb]
      refine .cons ⟨rfl, .refl _⟩ (setBinding_same_of_find hxy ?_)
      simpa [List.find?_cons, hb] using h

/-- A write of the same value keeps the map the same. -/
theorem same_insert_of_get {m : VariableMap} {v : VariableRef} {x y : VariableValue}
    (h : m.get v = some x) (hxy : x.Same y) : m.Same (m.insert v y) := by
  have hv : v ∈ m.refs := by
    by_contra hn
    rw [get_eq_none.2 hn] at h
    cases h
  rw [insert_of_mem hv]
  exact setBinding_same_of_find hxy h

end VariableMap

/-- The same state up to the sign of its decimal zeros. -/
structure InteractionState.Same (s t : InteractionState) : Prop where
  vars : s.vars.Same t.vars
  knowledge : s.manuallyActiveKnowledge = t.manuallyActiveKnowledge
  proposals : s.proposals = t.proposals
  revision : s.revision = t.revision

theorem forall₂_of_listEq {α : Type} {R : α → α → Prop} {eq : α → α → Bool}
    (hR : ∀ a b, eq a b = true → R a b) : ∀ {l k : List α}, listEq eq l k = true → List.Forall₂ R l k
  | [], [], _ => .nil
  | [], _ :: _, h => by simp [listEq] at h
  | _ :: _, [], h => by simp [listEq] at h
  | a :: l, b :: k, h => by
    simp only [listEq, Bool.and_eq_true] at h
    exact .cons (hR a b h.1) (forall₂_of_listEq hR h.2)

/-- **States that the code calls equal differ at most in the sign of a decimal zero.** -/
theorem InteractionState.same_of_eq {s t : InteractionState} (h : s.eq t = true) : s.Same t := by
  simp only [InteractionState.eq, Bool.and_eq_true, decide_eq_true_eq] at h
  obtain ⟨⟨⟨hv, hk⟩, hp⟩, hr⟩ := h
  refine ⟨forall₂_of_listEq (fun a b hab => ?_) hv, hk, hp, hr⟩
  simp only [VariableBinding.eq, Bool.and_eq_true, decide_eq_true_eq] at hab
  exact ⟨hab.1, VariableValue.same_of_eq hab.2⟩

/-- A value that equals itself. -/
def VariableValue.Number (value : VariableValue) : Prop := ∀ x, value = .decimal x → x.isNaN = false

theorem VariableValue.eq_of_same {a b : VariableValue} (ha : a.Number) (h : a.Same b) :
    a.eq b = true := by
  rcases h with rfl | ⟨x, y, rfl, rfl, hx, hy⟩
  · cases a <;> simp only [VariableValue.eq, beq_self_eq_true]
    exact Ieee.eq_of_same (ha _ rfl) (.inl rfl)
  · exact Ieee.eq_of_same (ha x rfl) (.inr ⟨hx, hy⟩)

theorem listEq_of_forall₂ {α : Type} {R : α → α → Prop} {eq : α → α → Bool} {l k : List α}
    (h : List.Forall₂ R l k) (hR : ∀ a ∈ l, ∀ b, R a b → eq a b = true) : listEq eq l k = true := by
  induction h with
  | nil => rfl
  | cons hab _ ih =>
    rw [listEq, hR _ (by simp) _ hab, ih fun a ha => hR a (List.mem_cons_of_mem _ ha), Bool.and_self]

/-- **The equality of states is `Same`** when no variable is a NaN. -/
theorem InteractionState.eq_iff_same {s t : InteractionState}
    (hs : ∀ b ∈ s.vars.values, b.value.Number) : s.eq t = true ↔ s.Same t := by
  refine ⟨InteractionState.same_of_eq, fun h => ?_⟩
  simp only [InteractionState.eq, Bool.and_eq_true, decide_eq_true_eq]
  refine ⟨⟨⟨listEq_of_forall₂ h.vars fun a ha b hab => ?_, h.knowledge⟩, h.proposals⟩, h.revision⟩
  simp only [VariableBinding.eq, Bool.and_eq_true, decide_eq_true_eq]
  exact ⟨hab.1, VariableValue.eq_of_same (hs a ha) hab.2⟩

end LorePia
