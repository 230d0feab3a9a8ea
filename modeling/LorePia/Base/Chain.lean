import Mathlib.Data.List.Nodup

/-!
# Chains of links

`next id` is the link that follows `id`: `none` where nothing is known of `id`, `some none` at the end of
the chain. `Follows next link ids rest` says that the ids of `ids` are followed one after another from
`link` and leave `rest`. A walk that never follows an id twice ends in one of three ways, which exclude
one another: it meets its goal (`Meets`), it comes to the end (`Ends`), or it is stuck at an id that is
unknown or was followed before (`Stuck`).
-/

namespace Base

variable {κ : Type} {next : κ → Option (Option κ)}

/-- The unvisited keys get fewer when a new one is visited. -/
theorem unvisited_lt [DecidableEq κ] {keys visited : List κ} {id : κ} (hid : id ∈ keys)
    (hnew : id ∉ visited) :
    (keys.filter fun key => key ∉ id :: visited).length <
      (keys.filter fun key => key ∉ visited).length := by
  have hfilter : (keys.filter fun key => key ∉ id :: visited) =
      (keys.filter fun key => key ∉ visited).filter (fun key => key ≠ id) := by
    rw [List.filter_filter]
    refine List.filter_congr fun key _ => ?_
    simp [not_or]
  rw [hfilter, List.length_filter_lt_length_iff_exists]
  exact ⟨id, by simp [hid, hnew], by simp⟩

/-- The ids are followed one after another from the link, and the rest is the link after them. -/
inductive Follows (next : κ → Option (Option κ)) : Option κ → List κ → Option κ → Prop
  | refl (link : Option κ) : Follows next link [] link
  | step {id : κ} {link rest : Option κ} {ids : List κ} (hnext : next id = some link)
      (h : Follows next link ids rest) : Follows next (some id) (id :: ids) rest

namespace Follows

variable {link rest rest' : Option κ} {ids ids' : List κ} {id : κ}

theorem snoc (h : Follows next link ids (some id)) (hnext : next id = some rest) :
    Follows next link (ids ++ [id]) rest := by
  generalize hmiddle : some id = middle at h
  induction h with
  | refl link =>
    subst hmiddle
    exact .step hnext (.refl _)
  | step hnext' _ ih => exact .step hnext' (ih hmiddle)

theorem known (h : Follows next link ids rest) : ∀ id ∈ ids, ∃ link', next id = some link' := by
  induction h with
  | refl => simp
  | step hnext _ ih =>
    intro id hid
    obtain rfl | hid := List.mem_cons.1 hid
    · exact ⟨_, hnext⟩
    · exact ih id hid

/-- The longer of two walks goes on where the shorter one stops. -/
theorem split (h : Follows next link ids rest) (h' : Follows next link ids' rest')
    (hlength : ids.length ≤ ids'.length) : ∃ more, ids' = ids ++ more ∧ Follows next rest more rest' := by
  induction h generalizing ids' with
  | refl => exact ⟨ids', rfl, h'⟩
  | step hnext _ ih =>
    cases h' with
    | refl => simp at hlength
    | step hnext' h' =>
      obtain rfl := Option.some.inj (hnext.symm.trans hnext')
      obtain ⟨more, hmore, hrest⟩ := ih h' (by simpa using hlength)
      exact ⟨more, by rw [hmore, List.cons_append], hrest⟩

theorem of_none (h : Follows next none ids rest) : ids = [] ∧ rest = none := by
  cases h
  exact ⟨rfl, rfl⟩

theorem of_some (h : Follows next (some id) ids rest) : (ids = [] ∧ rest = some id) ∨ id ∈ ids := by
  cases h with
  | refl => exact .inl ⟨rfl, rfl⟩
  | step => exact .inr List.mem_cons_self

end Follows

section Outcomes

variable {link : Option κ} {goal : κ}

/-- The walk meets the goal and follows no id twice. -/
def Meets (next : κ → Option (Option κ)) (link : Option κ) (goal : κ) : Prop :=
  ∃ ids, Follows next link ids (some goal) ∧ (ids ++ [goal]).Nodup

/-- The walk comes to the end without the goal and follows no id twice. -/
def Ends (next : κ → Option (Option κ)) (link : Option κ) (goal : κ) : Prop :=
  ∃ ids, Follows next link ids none ∧ ids.Nodup ∧ goal ∉ ids

/-- The walk comes, without the goal, to another id that is unknown or was followed before. -/
def Stuck (next : κ → Option (Option κ)) (link : Option κ) (goal : κ) : Prop :=
  ∃ ids id, Follows next link ids (some id) ∧ ids.Nodup ∧ goal ∉ ids ∧ id ≠ goal ∧
    (id ∈ ids ∨ next id = none)

theorem Meets.not_ends (h : Meets next link goal) : ¬ Ends next link goal := by
  rintro ⟨ids', hends, -, hgoal⟩
  obtain ⟨ids, hmeets, -⟩ := h
  obtain hlength | hlength := Nat.le_total ids.length ids'.length
  · obtain ⟨more, rfl, hmore⟩ := hmeets.split hends hlength
    obtain ⟨-, hrest⟩ | hmem := hmore.of_some
    · cases hrest
    · exact hgoal (List.mem_append_right _ hmem)
  · obtain ⟨more, -, hmore⟩ := hends.split hmeets hlength
    cases hmore.of_none.2

theorem Meets.not_stuck (h : Meets next link goal) : ¬ Stuck next link goal := by
  rintro ⟨ids', id, hstuck, -, hgoal, hne, hid⟩
  obtain ⟨ids, hmeets, hnodup⟩ := h
  obtain hlength | hlength := Nat.le_total ids.length ids'.length
  · obtain ⟨more, rfl, hmore⟩ := hmeets.split hstuck hlength
    obtain ⟨-, hrest⟩ | hmem := hmore.of_some
    · exact hne (Option.some.inj hrest)
    · exact hgoal (List.mem_append_right _ hmem)
  · obtain ⟨more, rfl, hmore⟩ := hstuck.split hmeets hlength
    obtain ⟨-, hrest⟩ | hmem := hmore.of_some
    · exact hne (Option.some.inj hrest).symm
    · obtain hseen | hunknown := hid
      · -- The id would be followed in both parts.
        rw [List.nodup_append, List.nodup_append] at hnodup
        exact hnodup.1.2.2 id hseen id hmem rfl
      · obtain ⟨link', hlink⟩ := hmore.known id hmem
        rw [hunknown] at hlink
        cases hlink

theorem Ends.not_stuck (h : Ends next link goal) : ¬ Stuck next link goal := by
  rintro ⟨ids', id, hstuck, -, -, -, hid⟩
  obtain ⟨ids, hends, hnodup, -⟩ := h
  obtain hlength | hlength := Nat.le_total ids.length ids'.length
  · obtain ⟨more, -, hmore⟩ := hends.split hstuck hlength
    cases hmore.of_none.2
  · obtain ⟨more, rfl, hmore⟩ := hstuck.split hends hlength
    obtain ⟨-, hrest⟩ | hmem := hmore.of_some
    · cases hrest
    · obtain hseen | hunknown := hid
      · rw [List.nodup_append] at hnodup
        exact hnodup.2.2 id hseen id hmem rfl
      · obtain ⟨link', hlink⟩ := hmore.known id hmem
        rw [hunknown] at hlink
        cases hlink

end Outcomes

end Base
