import LorePia.Domain.Knowledge
import LorePia.Domain.Proof.Validate

/-!
# Which knowledge books are accepted

Acceptance of a book does not depend on the order of its entries (`validate_perm`): the paths that
rule and condition checks carry only label errors, and the parent graph is accepted exactly when
following parents from every entry ends at an entry without one (`Grounded`), which is a property of
the set of entries.
-/

namespace LorePia

open Base

/-! ## Paths only label errors -/

theorem sameOk_validateText (path path' value : String) (lo hi : Nat) :
    SameOk (validateText path value lo hi) (validateText path' value lo hi) := by
  intro u
  rw [validateText_eq_ok, validateText_eq_ok]

theorem sameOk_validateVariableRef (v : VariableRef) (path path' : String) :
    SameOk (validateVariableRef v path) (validateVariableRef v path') := by
  unfold validateVariableRef
  refine (sameOk_validateText _ _ _ _ _).bind fun _ => ?_
  cases v.scope <;> cases v.ns <;>
    first | exact sameOk_validateText _ _ _ _ _ | exact sameOk_error _ _ | exact .refl _

theorem sameOk_validateVariableValue (value : VariableValue) (path path' : String) :
    SameOk (validateVariableValue value path) (validateVariableValue value path') := by
  cases value with
  | bool => exact .refl _
  | integer => exact .refl _
  | decimal => exact sameOk_rejectIf _ _ _
  | text => exact sameOk_validateText _ _ _ _ _
  | enum => exact sameOk_validateText _ _ _ _ _
  | stringList values =>
    refine (sameOk_rejectIf _ _ _).bind fun _ => ?_
    exact .forIdx (fun _ _ => sameOk_validateText _ _ _ _ _) values

mutual
theorem sameOk_visitCondition : ∀ (expression : ConditionExpr) (path path' : String)
    (depth nodes : Nat), SameOk (visitCondition expression path depth nodes)
      (visitCondition expression path' depth nodes)
  | expression, path, path', depth, nodes => by
    unfold visitCondition
    refine (sameOk_rejectIf _ _ _).bind fun _ => (sameOk_rejectIf _ _ _).bind fun _ => ?_
    match expression with
    | .true | .false | .modelSupports _ => exact .refl _
    | .equals v value | .notEquals v value =>
      refine (sameOk_validateVariableRef _ _ _).bind fun _ => ?_
      exact (sameOk_validateVariableValue _ _ _).bind fun _ => .refl _
    | .greaterThan v value =>
      refine (sameOk_validateVariableRef _ _ _).bind fun _ => ?_
      exact (sameOk_rejectIf _ _ _).bind fun _ => .refl _
    | .contains v value =>
      refine (sameOk_validateVariableRef _ _ _).bind fun _ => ?_
      exact (sameOk_validateText _ _ _ _ _).bind fun _ => .refl _
    | .existsVar v => exact (sameOk_validateVariableRef _ _ _).bind fun _ => .refl _
    | .all expressions | .any expressions =>
      refine (sameOk_rejectIf _ _ _).bind fun _ => ?_
      exact sameOk_visitConditions expressions path path' depth 0 (nodes + 1)
    | .not expression => exact sameOk_visitCondition expression _ _ _ _

theorem sameOk_visitConditions : ∀ (expressions : List ConditionExpr) (path path' : String)
    (depth index nodes : Nat), SameOk (visitConditions expressions path depth index nodes)
      (visitConditions expressions path' depth index nodes)
  | [], _, _, _, _, _ => .refl _
  | child :: rest, path, path', depth, index, nodes => by
    unfold visitConditions
    refine (sameOk_visitCondition child _ _ _ _).bind fun nodes => ?_
    exact sameOk_visitConditions rest path path' depth (index + 1) nodes
end

theorem sameOk_validateCondition (expression : ConditionExpr) (path path' : String) :
    SameOk (validateCondition expression path) (validateCondition expression path') :=
  (sameOk_visitCondition expression path path' 0 0).bind fun _ => .refl _

mutual
theorem sameOk_validateActivationRule : ∀ (rule : ActivationRule) (path path' : String)
    (depth nodes : Nat), SameOk (validateActivationRule rule path depth nodes)
      (validateActivationRule rule path' depth nodes)
  | rule, path, path', depth, nodes => by
    unfold validateActivationRule
    refine (sameOk_rejectIf _ _ _).bind fun _ => (sameOk_rejectIf _ _ _).bind fun _ => ?_
    match rule with
    | .always | .manual => exact .refl _
    | .keyword primary secondary _ _ _ =>
      refine (sameOk_rejectIf _ _ _).bind fun _ => ?_
      refine (SameOk.forIdx (fun _ _ => ?_) _).bind fun _ => .refl _
      exact sameOk_validateText _ _ _ _ _
    | .regex patterns =>
      refine (sameOk_rejectIf _ _ _).bind fun _ => ?_
      exact (SameOk.forIdx (fun _ _ => (SameOk.refl _).mapErr _ _) _).bind fun _ => .refl _
    | .semantic threshold topK => exact (sameOk_rejectIf _ _ _).bind fun _ => .refl _
    | .condition expression =>
      exact (sameOk_validateCondition expression path path').bind fun _ => .refl _
    | .any rules | .all rules =>
      refine (sameOk_rejectIf _ _ _).bind fun _ => ?_
      exact sameOk_validateActivationRules rules path path' depth 0 (nodes + 1)

theorem sameOk_validateActivationRules : ∀ (rules : List ActivationRule) (path path' : String)
    (depth index nodes : Nat), SameOk (validateActivationRules rules path depth index nodes)
      (validateActivationRules rules path' depth index nodes)
  | [], _, _, _, _, _ => .refl _
  | child :: rest, path, path', depth, index, nodes => by
    unfold validateActivationRules
    refine (sameOk_validateActivationRule child _ _ _ _).bind fun nodes => ?_
    exact sameOk_validateActivationRules rest path path' depth (index + 1) nodes
end

/-- The checks on an entry do not depend on its position. -/
theorem sameOk_validateKnowledgeEntry (bookId : KnowledgeBookId) (i j : Nat)
    (entry : KnowledgeEntry) :
    SameOk (validateKnowledgeEntry bookId i entry) (validateKnowledgeEntry bookId j entry) := by
  unfold validateKnowledgeEntry
  refine (sameOk_rejectIf _ _ _).bind fun _ => ?_
  refine (sameOk_validateText _ _ _ _ _).bind fun _ => ?_
  refine (sameOk_validateText _ _ _ _ _).bind fun _ => ?_
  refine (sameOk_rejectIf _ _ _).bind fun _ => ?_
  refine (sameOk_validateActivationRule _ _ _ _ _).bind fun _ => ?_
  exact sameOk_rejectIf _ _ _

/-! ## The parent graph -/

/-- Following parents from `id` ends after `n` steps at an entry without a parent. -/
def AtHeight (entries : List KnowledgeEntry) : Nat → KnowledgeEntryId → Prop
  | 0, id => ∃ entry ∈ entries, entry.id = id ∧ entry.parentId = none
  | n + 1, id => ∃ entry ∈ entries, entry.id = id ∧
      ∃ parentId, entry.parentId = some parentId ∧ AtHeight entries n parentId

/-- Following parents from `id` ends at an entry without a parent. -/
def Grounded (entries : List KnowledgeEntry) (id : KnowledgeEntryId) : Prop :=
  ∃ n, AtHeight entries n id

variable {entries : List KnowledgeEntry}

theorem AtHeight.perm {entries' : List KnowledgeEntry} (hp : entries.Perm entries') {n : Nat}
    {id : KnowledgeEntryId} (h : AtHeight entries n id) : AtHeight entries' n id := by
  induction n generalizing id with
  | zero =>
    obtain ⟨entry, hmem, hrest⟩ := h
    exact ⟨entry, hp.mem_iff.1 hmem, hrest⟩
  | succ n ih =>
    obtain ⟨entry, hmem, hid, parentId, hparent, h⟩ := h
    exact ⟨entry, hp.mem_iff.1 hmem, hid, parentId, hparent, ih h⟩

/-- Entries with unique ids: an id names one entry. -/
theorem entry_unique (hnd : (entries.map (·.id)).Nodup) {a b : KnowledgeEntry} (ha : a ∈ entries)
    (hb : b ∈ entries) (h : a.id = b.id) : a = b :=
  List.inj_on_of_nodup_map hnd ha hb h

/-- The height of an entry is unique. -/
theorem AtHeight.unique (hnd : (entries.map (·.id)).Nodup) {n m : Nat} {id : KnowledgeEntryId}
    (hn : AtHeight entries n id) (hm : AtHeight entries m id) : n = m := by
  induction n generalizing m id with
  | zero =>
    obtain ⟨a, ha, hid, hnone⟩ := hn
    cases m with
    | zero => rfl
    | succ m =>
      obtain ⟨b, hb, hid', parentId, hsome, -⟩ := hm
      have hab := entry_unique hnd ha hb (hid.trans hid'.symm)
      rw [hab, hsome] at hnone
      cases hnone
  | succ n ih =>
    obtain ⟨a, ha, hid, parentId, hsome, hn⟩ := hn
    cases m with
    | zero =>
      obtain ⟨b, hb, hid', hnone⟩ := hm
      have hab := entry_unique hnd ha hb (hid.trans hid'.symm)
      rw [hab, hnone] at hsome
      cases hsome
    | succ m =>
      obtain ⟨b, hb, hid', parentId', hsome', hm⟩ := hm
      have hab := entry_unique hnd ha hb (hid.trans hid'.symm)
      rw [hab, hsome'] at hsome
      cases hsome
      rw [ih hn hm]

/-- The entry at `index` is at height `n`. -/
def IndexHeight (entries : List KnowledgeEntry) (n index : Nat) : Prop :=
  ∃ entry, entries[index]? = some entry ∧ AtHeight entries n entry.id

theorem entryIndex_some {id : KnowledgeEntryId} {index : Nat}
    (h : entryIndex entries id = some index) : ∃ entry, entries[index]? = some entry ∧ entry.id = id := by
  unfold entryIndex at h
  obtain ⟨item, hfind, rfl⟩ := Option.map_eq_some_iff.1 h
  have hmem := List.mem_reverse.1 (List.mem_of_find?_eq_some hfind)
  have hid := List.find?_some hfind
  exact ⟨item.1, List.mem_zipIdx_iff_getElem?.1 hmem, by simpa using hid⟩

theorem entryIndex_isSome {entry : KnowledgeEntry} (h : entry ∈ entries) :
    ∃ index, entryIndex entries entry.id = some index := by
  obtain ⟨index, hindex⟩ := List.mem_iff_getElem?.1 h
  unfold entryIndex
  rw [← Option.isSome_iff_exists, Option.isSome_map, List.find?_isSome]
  exact ⟨(entry, index), List.mem_reverse.2 (List.mem_zipIdx_iff_getElem?.2 hindex), by simp⟩

/-- **The cursor after an entry**: nothing after a root, else the parent's index. -/
theorem parentIndex_eq_ok {rootIndex index : Nat} {entry : KnowledgeEntry} {cursor : Option Nat}
    (hentry : entries[index]? = some entry) :
    parentIndex entries rootIndex index = .ok cursor ↔
      (entry.parentId = none ∧ cursor = none) ∨ ∃ parentId parent,
        entry.parentId = some parentId ∧ entryIndex entries parentId = some parent ∧
          cursor = some parent := by
  unfold parentIndex
  rw [hentry, Option.bind_some]
  cases entry.parentId with
  | none => simp [eq_comm]
  | some parentId =>
    rw [bind_eq_ok]
    constructor
    · rintro ⟨parent, hparent, h⟩
      cases h
      exact .inr ⟨parentId, parent, rfl, okOr_eq_ok.1 hparent, rfl⟩
    · rintro (⟨h, -⟩ | ⟨parentId', parent, hid, hparent, rfl⟩)
      · cases h
      · cases hid
        exact ⟨parent, okOr_eq_ok.2 hparent, rfl⟩

theorem walkParents_none (rootIndex fuel : Nat) (visits : List KnowledgeParentVisit)
    (path : List Nat) : walkParents entries rootIndex fuel visits path none = .ok (visits, path) := by
  cases fuel with
  | zero => rfl
  | succ fuel => rfl

theorem count_set_active {visits : List KnowledgeParentVisit} {index : Nat}
    (h : visits[index]? = some .unseen) :
    (visits.set index .active).count .unseen + 1 = visits.count .unseen := by
  obtain ⟨hlt, hval⟩ := List.getElem?_eq_some_iff.1 h
  have hpos : 0 < visits.count .unseen := List.count_pos_iff.2 (hval ▸ List.getElem_mem hlt)
  rw [List.count_set hlt, hval]
  simp
  omega

/-- **A walk that ends well grounds its path.** The fuel exceeds the number of unseen entries, so
the walk does not stop for want of it. -/
theorem walkParents_sound {rootIndex fuel : Nat} {visits visits' : List KnowledgeParentVisit}
    {path path' : List Nat} {index : Nat} (hlen : visits.length = entries.length)
    (hindex : index < entries.length) (hfuel : visits.count .unseen < fuel)
    (hdone : ∀ k : Nat, visits[k]? = some .done → ∃ n, IndexHeight entries n k)
    (h : walkParents entries rootIndex fuel visits path (some index) = .ok (visits', path')) :
    (∃ n, IndexHeight entries n index) ∧ visits'.length = entries.length ∧
      (∀ k : Nat, visits'[k]? = some .done → visits[k]? = some .done) ∧
        ∃ new, path' = path ++ new ∧ ∀ k ∈ new, ∃ n, IndexHeight entries n k := by
  induction fuel generalizing visits path index with
  | zero => omega
  | succ fuel ih =>
    obtain ⟨visit, hvisit⟩ : ∃ visit, visits[index]? = some visit :=
      ⟨_, List.getElem?_eq_getElem (hlen ▸ hindex)⟩
    rw [walkParents, hvisit, Option.getD_some] at h
    cases visit with
    | active => cases h
    | done =>
      cases h
      exact ⟨hdone index hvisit, hlen, fun _ hk => hk, [], by simp, by simp⟩
    | unseen =>
      obtain ⟨cursor, hcursor, h⟩ := bind_eq_ok.1 h
      have hentry : entries[index]? = some entries[index] := List.getElem?_eq_getElem hindex
      have hcount := count_set_active hvisit
      have hkeep : ∀ k : Nat, (visits.set index .active)[k]? = some .done → visits[k]? = some .done := by
        intro k hk
        rw [List.getElem?_set] at hk
        split at hk
        · split at hk <;> cases hk
        · exact hk
      rcases (parentIndex_eq_ok hentry).1 hcursor with ⟨hnone, rfl⟩ | ⟨parentId, parent, hsome, hparent, rfl⟩
      · have hroot : IndexHeight entries 0 index :=
          ⟨_, hentry, _, List.getElem_mem hindex, rfl, hnone⟩
        rw [walkParents_none] at h
        cases h
        exact ⟨⟨0, hroot⟩, by simpa using hlen, hkeep, [index], rfl, by simpa using ⟨0, hroot⟩⟩
      · obtain ⟨parentEntry, hparentEntry, rfl⟩ := entryIndex_some hparent
        have hlt := (List.getElem?_eq_some_iff.1 hparentEntry).1
        obtain ⟨⟨n, hn⟩, hlen', hdone', new, rfl, hnew⟩ :=
          ih (by simpa using hlen) hlt (by omega) (fun k hk => hdone k (hkeep k hk)) h
        obtain ⟨entry', hentry', hheight⟩ := hn
        rw [hparentEntry] at hentry'
        cases hentry'
        have hstep : IndexHeight entries (n + 1) index :=
          ⟨_, hentry, _, List.getElem_mem hindex, rfl, _, hsome, hheight⟩
        refine ⟨⟨n + 1, hstep⟩, hlen', fun k hk => hkeep k (hdone' k hk), index :: new, by simp, ?_⟩
        intro k hk
        rcases List.mem_cons.1 hk with rfl | hk
        · exact ⟨n + 1, hstep⟩
        · exact hnew k hk

/-- **A walk from a grounded entry ends well**, when every active entry is higher. -/
theorem walkParents_complete (hnd : (entries.map (·.id)).Nodup) {rootIndex fuel n : Nat}
    {visits : List KnowledgeParentVisit} {path : List Nat} {index : Nat}
    (hheight : IndexHeight entries n index)
    (hactive : ∀ k : Nat, visits[k]? = some .active → k ∈ path ∧ ∃ m, n < m ∧ IndexHeight entries m k) :
    ∃ visits' path', walkParents entries rootIndex fuel visits path (some index) =
        .ok (visits', path') ∧ ∀ k : Nat, visits'[k]? = some .active → k ∈ path' := by
  induction fuel generalizing n visits path index with
  | zero => exact ⟨visits, path, by rw [walkParents], fun k hk => (hactive k hk).1⟩
  | succ fuel ih =>
    rw [walkParents]
    obtain ⟨entry, hentry, hn⟩ := hheight
    cases hvisit : visits[index]?.getD .done with
    | done => exact ⟨visits, path, rfl, fun k hk => (hactive k hk).1⟩
    | active =>
      -- the entry itself would be higher than it is
      have hvisit' : visits[index]? = some .active := by
        cases h : visits[index]? with
        | none => rw [h] at hvisit; cases hvisit
        | some visit => rw [h] at hvisit; exact congrArg some hvisit
      obtain ⟨-, m, hlt, entry', hentry', hm⟩ := hactive index hvisit'
      rw [hentry] at hentry'
      cases hentry'
      have := hn.unique hnd hm
      omega
    | unseen =>
      have hkeep : ∀ m, m < n → ∀ k : Nat, (visits.set index .active)[k]? = some .active →
          k ∈ path ++ [index] ∧ ∃ m', m < m' ∧ IndexHeight entries m' k := by
        intro m hm k hk
        by_cases hki : index = k
        · subst hki
          exact ⟨by simp, n, hm, entry, hentry, hn⟩
        · rw [List.getElem?_set_ne hki] at hk
          obtain ⟨hmem, m', hlt, hm'⟩ := hactive k hk
          exact ⟨by simp [hmem], m', by omega, hm'⟩
      have hpath : ∀ k : Nat, (visits.set index .active)[k]? = some .active → k ∈ path ++ [index] := by
        intro k hk
        by_cases hki : index = k
        · simp [hki]
        · rw [List.getElem?_set_ne hki] at hk
          simp [(hactive k hk).1]
      have hmem : entry ∈ entries := List.mem_of_getElem? hentry
      cases n with
      | zero =>
        obtain ⟨entry', hmem', hid, hnone⟩ := hn
        rw [entry_unique hnd hmem' hmem hid] at hnone
        have hcursor : parentIndex entries rootIndex index = .ok none :=
          (parentIndex_eq_ok hentry).2 (.inl ⟨hnone, rfl⟩)
        refine ⟨_, _, ?_, hpath⟩
        rw [hcursor, ok_bind, walkParents_none]
      | succ n =>
        obtain ⟨entry', hmem', hid, parentId, hsome, hn⟩ := id hn
        rw [entry_unique hnd hmem' hmem hid] at hsome
        obtain ⟨parentEntry, hparentMem, rfl⟩ : ∃ parent ∈ entries, parent.id = parentId := by
          cases n with
          | zero => obtain ⟨parent, hmem, hid, -⟩ := hn; exact ⟨parent, hmem, hid⟩
          | succ n => obtain ⟨parent, hmem, hid, -⟩ := hn; exact ⟨parent, hmem, hid⟩
        obtain ⟨parent, hparent⟩ := entryIndex_isSome hparentMem
        obtain ⟨parentEntry', hparentEntry, hid'⟩ := entryIndex_some hparent
        have hcursor : parentIndex entries rootIndex index = .ok (some parent) :=
          (parentIndex_eq_ok hentry).2 (.inr ⟨_, parent, hsome, hparent, rfl⟩)
        rw [hcursor]
        exact ih ⟨parentEntry', hparentEntry, hid' ▸ hn⟩ (hkeep n (by omega))

/-- Colours after a root is done. -/
theorem getElem?_foldl_set_done (path : List Nat) (visits : List KnowledgeParentVisit) (k : Nat) :
    (path.foldl (fun visits index => visits.set index .done) visits)[k]? =
      if k ∈ path then visits[k]?.map (fun _ => .done) else visits[k]? := by
  induction path generalizing visits with
  | nil => simp
  | cons index path ih =>
    rw [List.foldl_cons, ih]
    by_cases hk : index = k
    · subst hk
      by_cases hlt : index < visits.length
      · simp [hlt]
      · simp [hlt]
    · simp [List.getElem?_set_ne hk, Ne.symm hk]

theorem length_foldl_set_done (path : List Nat) (visits : List KnowledgeParentVisit) :
    (path.foldl (fun visits index => visits.set index .done) visits).length = visits.length := by
  induction path generalizing visits with
  | nil => rfl
  | cons index path ih => rw [List.foldl_cons, ih, List.length_set]

theorem visitRoots_sound {roots : List Nat} {visits visits' : List KnowledgeParentVisit}
    (hlen : visits.length = entries.length) (hroots : ∀ root ∈ roots, root < entries.length)
    (hdone : ∀ k : Nat, visits[k]? = some .done → ∃ n, IndexHeight entries n k)
    (h : visitRoots entries roots visits = .ok visits') :
    ∀ root ∈ roots, ∃ n, IndexHeight entries n root := by
  induction roots generalizing visits with
  | nil => simp
  | cons root rest ih =>
    have hrest : ∀ root ∈ rest, root < entries.length := fun r hr =>
      hroots r (List.mem_cons_of_mem _ hr)
    intro k hk
    rw [visitRoots] at h
    by_cases hseen : visits[root]? = some .done
    · rw [if_pos hseen] at h
      rcases List.mem_cons.1 hk with rfl | hk
      · exact hdone k hseen
      · exact ih hlen hrest hdone h k hk
    · rw [if_neg hseen] at h
      obtain ⟨⟨after, path⟩, hwalk, h⟩ := bind_eq_ok.1 h
      have hfuel : visits.count .unseen < entries.length + 1 := by
        have : visits.count .unseen ≤ visits.length := List.count_le_length
        omega
      obtain ⟨hroot, hlen', hkeep, new, rfl, hnew⟩ :=
        walkParents_sound hlen (hroots root List.mem_cons_self) hfuel hdone hwalk
      rcases List.mem_cons.1 hk with rfl | hk
      · exact hroot
      · refine ih (by rw [length_foldl_set_done, hlen']) hrest (fun k hk => ?_) h k hk
        rw [getElem?_foldl_set_done] at hk
        by_cases hmem : k ∈ path
        · exact hnew k hmem
        · rw [if_neg hmem] at hk
          exact hdone k (hkeep k hk)

theorem visitRoots_complete (hnd : (entries.map (·.id)).Nodup) {roots : List Nat}
    {visits : List KnowledgeParentVisit} (hroots : ∀ root ∈ roots, ∃ n, IndexHeight entries n root)
    (hactive : ∀ k : Nat, visits[k]? ≠ some .active) :
    ∃ visits', visitRoots entries roots visits = .ok visits' := by
  induction roots generalizing visits with
  | nil => exact ⟨visits, rfl⟩
  | cons root rest ih =>
    have hrest : ∀ root ∈ rest, ∃ n, IndexHeight entries n root := fun r hr =>
      hroots r (List.mem_cons_of_mem _ hr)
    rw [visitRoots]
    by_cases hseen : visits[root]? = some .done
    · rw [if_pos hseen]
      exact ih hrest hactive
    · rw [if_neg hseen]
      obtain ⟨n, hn⟩ := hroots root List.mem_cons_self
      obtain ⟨after, path, hwalk, hpath⟩ := walkParents_complete hnd hn
        (fun k hk => absurd hk (hactive k))
      rw [hwalk]
      refine ih hrest fun k hk => ?_
      rw [getElem?_foldl_set_done] at hk
      by_cases hmem : k ∈ path
      · rw [if_pos hmem] at hk
        obtain ⟨visit, -, hvisit⟩ := Option.map_eq_some_iff.1 hk
        cases hvisit
      · rw [if_neg hmem] at hk
        exact hmem (hpath k hk)

/-- **The parent graph is accepted exactly when every entry is grounded.** -/
theorem validateKnowledgeParentGraph_eq_ok (hnd : (entries.map (·.id)).Nodup) :
    validateKnowledgeParentGraph entries = .ok () ↔ ∀ entry ∈ entries, Grounded entries entry.id := by
  have hunseen : ∀ (visit : KnowledgeParentVisit) (k : Nat),
      (List.replicate entries.length KnowledgeParentVisit.unseen)[k]? = some visit →
        visit = .unseen := by
    intro visit k hk
    exact List.eq_of_mem_replicate (List.mem_of_getElem? hk)
  unfold validateKnowledgeParentGraph
  rw [bind_eq_ok]
  constructor
  · intro h entry hentry
    obtain ⟨visits, hvisits, -⟩ := h
    obtain ⟨index, hindex⟩ := List.mem_iff_getElem?.1 hentry
    have hlt := (List.getElem?_eq_some_iff.1 hindex).1
    obtain ⟨n, entry', hentry', hn⟩ := visitRoots_sound (by simp) (by simp)
      (fun k hk => by cases hunseen _ k hk) hvisits index (by simpa using hlt)
    rw [hindex] at hentry'
    cases hentry'
    exact ⟨n, hn⟩
  · intro h
    have hroots : ∀ root ∈ List.range entries.length, ∃ n, IndexHeight entries n root := by
      intro root hroot
      have hlt := List.mem_range.1 hroot
      obtain ⟨n, hn⟩ := h entries[root] (List.getElem_mem hlt)
      exact ⟨n, _, List.getElem?_eq_getElem hlt, hn⟩
    obtain ⟨visits, hvisits⟩ := visitRoots_complete hnd hroots
      (fun k hk => by cases hunseen _ k hk)
    exact ⟨visits, hvisits, rfl⟩

/-! ## Books -/

/-- **Acceptance does not depend on the order of the entries.** -/
theorem validate_perm (book : KnowledgeBook) {entries : List KnowledgeEntry}
    (hp : book.entries.Perm entries) (h : book.validate = .ok ()) :
    KnowledgeBook.validate { book with entries := entries } = .ok () := by
  unfold KnowledgeBook.validate at h ⊢
  simp only [seq_eq_ok] at h ⊢
  obtain ⟨hid, hname, hschema, hlimits, hrecursive, hentries, hunique, hgraph⟩ := h
  have hnd : (book.entries.map (·.id)).Nodup := by simpa using hunique
  have hnd' : (entries.map (·.id)).Nodup := (hp.map _).nodup_iff.1 hnd
  refine ⟨hid, hname, ?_, hlimits, hrecursive, ?_, ?_, ?_⟩
  · rw [← hp.length_eq]
    exact hschema
  · exact forIdx_ok_perm (fun i j entry => sameOk_validateKnowledgeEntry book.id i j entry) hp hentries
  · simpa using hnd'
  · rw [validateKnowledgeParentGraph_eq_ok hnd] at hgraph
    rw [validateKnowledgeParentGraph_eq_ok hnd']
    intro entry hentry
    obtain ⟨n, hn⟩ := hgraph entry (hp.mem_iff.2 hentry)
    exact ⟨n, hn.perm hp⟩

end LorePia
