import Mathlib.Data.Finset.Card
import LorePia.Base.Loop
import LorePia.Domain.Proof.Knowledge

/-!
# The parent graph of a knowledge book

The walk from a root is a loop without a bound: every turn that goes on makes an unseen entry active, so it ends
(`walkParents_halts`). An entry is grounded exactly when no entry comes twice on the way up from it and every
parent on that way is in the book (`grounded_iff`).
-/

namespace LorePia

open Base

variable {entries : List KnowledgeEntry}

/-! ## Termination -/

/-- The colours, the path and the cursor of the walk from a root. -/
structure ParentWalk where
  visits : List KnowledgeParentVisit
  path : List Nat
  cursor : Option Nat

/-- A turn of the `while` loop from a root. -/
def walkTurn (entries : List KnowledgeEntry) (rootIndex : Nat) (walk : ParentWalk) :
    ParentWalk ⊕ Validation (List KnowledgeParentVisit × List Nat) :=
  match walk.cursor with
  | none => .inr (.ok (walk.visits, walk.path))
  | some index =>
    match walk.visits[index]?.getD .done with
    | .done => .inr (.ok (walk.visits, walk.path))
    | .active => .inr (.error ⟨s!"entries[{rootIndex}].parent_id", "parent graph contains a cycle"⟩)
    | .unseen =>
      match parentIndex entries rootIndex index with
      | .error error => .inr (.error error)
      | .ok cursor => .inl ⟨walk.visits.set index .active, walk.path ++ [index], cursor⟩

/-- **The walk ends**, with what `walkParents` computes. -/
theorem walkParents_halts {rootIndex : Nat} : ∀ {fuel : Nat} {visits : List KnowledgeParentVisit} {path : List Nat}
    {cursor : Option Nat}, visits.count .unseen < fuel →
    Halts (walkTurn entries rootIndex) ⟨visits, path, cursor⟩ (walkParents entries rootIndex fuel visits path cursor)
  | fuel, visits, path, none, _ => by
    rw [walkParents_none]
    exact .stop rfl
  | fuel + 1, visits, path, some index, hfuel => by
    rw [walkParents]
    cases hvisit : visits[index]?.getD .done with
    | done => exact .stop (by simp only [walkTurn, hvisit])
    | active => exact .stop (by simp only [walkTurn, hvisit])
    | unseen =>
      have hunseen : visits[index]? = some .unseen := by
        cases h : visits[index]? with
        | none =>
          rw [h] at hvisit
          cases hvisit
        | some visit =>
          rw [h] at hvisit
          exact congrArg some hvisit
      have hcount := count_set_active hunseen
      cases hcursor : parentIndex entries rootIndex index with
      | error error => exact .stop (by simp only [walkTurn, hvisit, hcursor]; rfl)
      | ok cursor =>
        have hturn : walkTurn entries rootIndex ⟨visits, path, some index⟩ =
            .inl ⟨visits.set index .active, path ++ [index], cursor⟩ := by
          simp only [walkTurn, hvisit, hcursor]
        exact .again hturn (walkParents_halts (by omega))

/-! ## Ancestors -/

/-- The parent of the entry of an id. -/
def parentOf (entries : List KnowledgeEntry) (id : KnowledgeEntryId) : Option KnowledgeEntryId :=
  (entries.find? fun entry => entry.id = id).bind (·.parentId)

/-- What following parents from `id` gives after a number of steps. -/
def ancestor (entries : List KnowledgeEntry) (id : KnowledgeEntryId) : Nat → Option KnowledgeEntryId
  | 0 => some id
  | n + 1 => (ancestor entries id n).bind (parentOf entries)

/-- Every parent is an entry of the list. -/
def ParentsListed (entries : List KnowledgeEntry) : Prop :=
  ∀ entry ∈ entries, ∀ parentId, entry.parentId = some parentId → ∃ parent ∈ entries, parent.id = parentId

/-- Following parents from an entry never comes to an entry again. -/
def NeverRevisits (entries : List KnowledgeEntry) : Prop :=
  ∀ entry ∈ entries, ∀ (i j : Nat) (id : KnowledgeEntryId), i < j → ancestor entries entry.id i = some id →
    ancestor entries entry.id j ≠ some id

theorem parentOf_eq (hnd : (entries.map (·.id)).Nodup) {entry : KnowledgeEntry} (h : entry ∈ entries) :
    parentOf entries entry.id = entry.parentId := by
  have hsome : (entries.find? fun e => e.id = entry.id).isSome = true := by
    rw [List.find?_isSome]
    exact ⟨entry, h, decide_eq_true rfl⟩
  obtain ⟨found, hfound⟩ := Option.isSome_iff_exists.1 hsome
  have hid : found.id = entry.id := by simpa using List.find?_some hfound
  rw [parentOf, hfound, entry_unique hnd (List.mem_of_find?_eq_some hfound) h hid, Option.bind_some]

/-- The way up from an entry goes down in height. -/
theorem AtHeight.ancestor (hnd : (entries.map (·.id)).Nodup) {n : Nat} {id : KnowledgeEntryId}
    (h : AtHeight entries n id) : ∀ {i : Nat} {a : KnowledgeEntryId}, LorePia.ancestor entries id i = some a →
      ∃ m, m + i = n ∧ AtHeight entries m a
  | 0, a, ha => by
    cases ha
    exact ⟨n, rfl, h⟩
  | i + 1, a, ha => by
    obtain ⟨b, hb, hparent⟩ := Option.bind_eq_some_iff.1 ha
    obtain ⟨m, hm, hheight⟩ := AtHeight.ancestor hnd h hb
    cases m with
    | zero =>
      obtain ⟨entry, hmem, rfl, hnone⟩ := hheight
      rw [parentOf_eq hnd hmem, hnone] at hparent
      cases hparent
    | succ m =>
      obtain ⟨entry, hmem, rfl, parentId, hsome, hheight⟩ := hheight
      rw [parentOf_eq hnd hmem, hsome] at hparent
      cases hparent
      exact ⟨m, by omega, hheight⟩

/-- The way up from an entry that is not grounded does not end. -/
theorem ancestor_of_not_grounded (hnd : (entries.map (·.id)).Nodup) (hlisted : ParentsListed entries)
    {entry : KnowledgeEntry} (hmem : entry ∈ entries) (hnot : ¬Grounded entries entry.id) :
    ∀ i, ∃ a ∈ entries, ancestor entries entry.id i = some a.id ∧ ¬Grounded entries a.id
  | 0 => ⟨entry, hmem, rfl, hnot⟩
  | i + 1 => by
    obtain ⟨a, ha, hancestor, hnota⟩ := ancestor_of_not_grounded hnd hlisted hmem hnot i
    cases hparent : a.parentId with
    | none => exact absurd ⟨0, a, ha, rfl, hparent⟩ hnota
    | some parentId =>
      obtain ⟨b, hb, rfl⟩ := hlisted a ha parentId hparent
      refine ⟨b, hb, ?_, ?_⟩
      · rw [ancestor, hancestor, Option.bind_some, parentOf_eq hnd ha, hparent]
      · rintro ⟨n, hn⟩
        exact hnota ⟨n + 1, a, ha, rfl, b.id, hparent, hn⟩

/-- A way up without a repetition ends: it has at most as many steps as there are entries. -/
theorem NeverRevisits.grounded (hnd : (entries.map (·.id)).Nodup) (hlisted : ParentsListed entries)
    (hnever : NeverRevisits entries) {entry : KnowledgeEntry} (hmem : entry ∈ entries) :
    Grounded entries entry.id := by
  by_contra hnot
  have hup := ancestor_of_not_grounded hnd hlisted hmem hnot
  have hmaps : ∀ i ∈ Finset.range (entries.length + 1),
      ancestor entries entry.id i ∈ (entries.map fun a => some a.id).toFinset := by
    intro i _
    obtain ⟨a, ha, hancestor, -⟩ := hup i
    rw [hancestor, List.mem_toFinset]
    exact List.mem_map.2 ⟨a, ha, rfl⟩
  have hcard : (entries.map fun a => some a.id).toFinset.card < (Finset.range (entries.length + 1)).card := by
    have hle := List.toFinset_card_le (entries.map fun a => some a.id)
    rw [List.length_map] at hle
    rw [Finset.card_range]
    omega
  obtain ⟨i, -, j, -, hne, heq⟩ := Finset.exists_ne_map_eq_of_card_lt_of_maps_to hcard hmaps
  obtain ⟨a, -, ha, -⟩ := hup i
  rcases Nat.lt_or_gt_of_ne hne with hlt | hlt
  · exact hnever entry hmem i j a.id hlt ha (heq ▸ ha)
  · exact hnever entry hmem j i a.id hlt (heq ▸ ha) ha

/-- **Every entry is grounded exactly when parents are listed and no way up comes to an entry again.** -/
theorem grounded_iff (hnd : (entries.map (·.id)).Nodup) :
    (∀ entry ∈ entries, Grounded entries entry.id) ↔ ParentsListed entries ∧ NeverRevisits entries := by
  constructor
  · intro h
    constructor
    · intro entry hmem parentId hparent
      obtain ⟨n, hn⟩ := h entry hmem
      have hup : ancestor entries entry.id 1 = some parentId := by
        rw [ancestor, ancestor, Option.bind_some, parentOf_eq hnd hmem, hparent]
      obtain ⟨m, -, hheight⟩ := hn.ancestor hnd hup
      cases m with
      | zero =>
        obtain ⟨parent, hparent, hid, -⟩ := hheight
        exact ⟨parent, hparent, hid⟩
      | succ m =>
        obtain ⟨parent, hparent, hid, -⟩ := hheight
        exact ⟨parent, hparent, hid⟩
    · intro entry hmem i j id hlt hi hj
      obtain ⟨n, hn⟩ := h entry hmem
      obtain ⟨m, hm, hheight⟩ := hn.ancestor hnd hi
      obtain ⟨m', hm', hheight'⟩ := hn.ancestor hnd hj
      have heq := hheight.unique hnd hheight'
      omega
  · rintro ⟨hlisted, hnever⟩ entry hmem
    exact hnever.grounded hnd hlisted hmem

/-- **The parent graph is accepted exactly when it is a forest**, and every walk through it ends. -/
theorem validateKnowledgeParentGraph_forest (hnd : (entries.map (·.id)).Nodup) :
    (∀ (rootIndex : Nat) (visits : List KnowledgeParentVisit), visits.length = entries.length →
      Halts (walkTurn entries rootIndex) ⟨visits, [], some rootIndex⟩
        (walkParents entries rootIndex (entries.length + 1) visits [] (some rootIndex))) ∧
      (validateKnowledgeParentGraph entries = .ok () ↔ ParentsListed entries ∧ NeverRevisits entries) := by
  refine ⟨fun rootIndex visits hlen => walkParents_halts ?_, ?_⟩
  · have hle : visits.count .unseen ≤ visits.length := List.count_le_length
    omega
  · rw [validateKnowledgeParentGraph_eq_ok hnd, grounded_iff hnd]

/-- An entry of a place within another one. -/
def placeEntry (id : String) (parentId : Option String) : KnowledgeEntry where
  id := id
  bookId := "places"
  name := id
  content := "A place by the sea."
  enabled := true
  activation := .always
  priority := 0
  importance := 0
  placement := .retrievedContext
  tokenPolicy := ⟨0, none, none, none⟩
  parentId := parentId
  activationProbabilityBasisPoints := 10000
  provenance := ⟨.userCreated, none, none, none, none, none⟩

theorem validateKnowledgeParentGraph_forest_places :
    validateKnowledgeParentGraph [placeEntry "pier" (some "harbor"), placeEntry "harbor" none] = .ok () ↔
      ParentsListed [placeEntry "pier" (some "harbor"), placeEntry "harbor" none] ∧
        NeverRevisits [placeEntry "pier" (some "harbor"), placeEntry "harbor" none] :=
  (validateKnowledgeParentGraph_forest (by decide)).2

end LorePia
