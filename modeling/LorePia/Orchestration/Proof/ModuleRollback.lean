import LorePia.Orchestration.Proof.ModuleDiff

/-!
# Rollback lineage

`targetIsAncestor` follows the previous revisions of the current one. Its three results are the three ways
a walk that follows no id twice can end (`Meets`, `Ends`, `Stuck`), over the known revisions of the module
and only where no two of the revisions share an id with different contents (`targetIsAncestor_spec`). A
rollback review is eligible exactly when the target is such an ancestor, is another revision than the
current one, and nothing else blocks it (`reviewModuleRollback_eligible`).
-/

namespace LorePia

open Base

/-! ## The known revisions -/

/-- The revisions that the lineage is looked up in. -/
def lineageRevisions (current target : ModuleRevisionSnapshot)
    (knownRevisions : List ContentModuleRevision) : List ContentModuleRevision :=
  knownRevisions ++ [current.revision, target.revision]

/-- Two revisions share an id with different contents. -/
def ConflictingRevisions (revisions : List ContentModuleRevision) : Prop :=
  ∃ left ∈ revisions, ∃ right ∈ revisions, left.id = right.id ∧ left ≠ right

/-- The link after an id, through a known revision of the module. -/
def previousLink (revisions : List ContentModuleRevision) (moduleId : ContentModuleId)
    (id : ModuleRevisionId) : Option (Option ModuleRevisionId) :=
  (revisions.find? fun revision => revision.id = id ∧ revision.moduleId = moduleId).map
    (·.previousRevisionId)

theorem not_conflictingRevisions {revisions : List ContentModuleRevision} :
    ¬ ConflictingRevisions revisions ↔
      revisions.Pairwise fun left right => left.id = right.id → left = right := by
  constructor
  · intro h
    refine List.pairwise_iff_getElem.2 fun i j hi hj _ hid => ?_
    by_contra hne
    exact h ⟨_, List.getElem_mem hi, _, List.getElem_mem hj, hid, hne⟩
  · rintro h ⟨left, hleft, right, hright, hid, hne⟩
    have hsymm : Std.Symm fun left right : ContentModuleRevision => left.id = right.id → left = right :=
      ⟨fun left right h hid => (h hid.symm).symm⟩
    exact hne (List.Pairwise.forall_of_forall (fun _ _ _ => rfl) h hleft hright hid)

/-- The map holds the revisions under their ids. -/
def Indexes (map : OrdMap ModuleRevisionId ContentModuleRevision)
    (revisions : List ContentModuleRevision) : Prop :=
  ∀ id revision, map.get? id = some revision ↔ revision ∈ revisions ∧ revision.id = id

theorem insertKnownRevision_eq_ok {map result : OrdMap ModuleRevisionId ContentModuleRevision}
    {revision : ContentModuleRevision} :
    insertKnownRevision map revision = .ok result ↔
      (∀ existing, map.get? revision.id = some existing → existing = revision) ∧
        result = map.insert revision.id revision := by
  unfold insertKnownRevision
  simp only [seq_eq_ok, rejectIf_eq_ok, pure_eq_ok]
  refine and_congr ?_ eq_comm
  cases map.get? revision.id <;> simp

theorem Indexes.insertKnownRevision {map result : OrdMap ModuleRevisionId ContentModuleRevision}
    {revisions : List ContentModuleRevision} {revision : ContentModuleRevision}
    (hmap : Indexes map revisions) (h : insertKnownRevision map revision = .ok result) :
    Indexes result (revisions ++ [revision]) := by
  obtain ⟨hsame, rfl⟩ := insertKnownRevision_eq_ok.1 h
  intro id other
  rw [OrdMap.get?_insert, List.mem_append, List.mem_singleton]
  split
  · rename_i hid
    subst hid
    constructor
    · intro hother
      cases hother
      exact ⟨.inr rfl, rfl⟩
    · rintro ⟨hmem | rfl, hid⟩
      · rw [hsame other ((hmap revision.id other).2 ⟨hmem, hid⟩)]
      · rfl
  · rename_i hid
    rw [hmap]
    constructor
    · exact fun hother => ⟨.inl hother.1, hother.2⟩
    · rintro ⟨hmem | rfl, hother⟩
      · exact ⟨hmem, hother⟩
      · exact absurd hother hid

/-- The first loop fails exactly on conflicting revisions. -/
theorem exists_insertKnownRevisions {revisions : List ContentModuleRevision} :
    (∃ map, revisions.foldlM insertKnownRevision .empty = .ok map) ↔
      ¬ ConflictingRevisions revisions := by
  rw [not_conflictingRevisions]
  have hempty : Indexes .empty ([] : List ContentModuleRevision) := fun id revision => by simp
  refine exists_foldlM_ok_iff_pairwise (I := fun done map => Indexes map done) ?_ ?_ hempty .nil
  · intro done revision map hmap
    constructor
    · rintro ⟨result, hresult⟩ other hother hid
      exact (insertKnownRevision_eq_ok.1 hresult).1 other ((hmap revision.id other).2 ⟨hother, hid⟩)
    · intro hsame
      refine ⟨_, insertKnownRevision_eq_ok.2 ⟨fun existing hexisting => ?_, rfl⟩⟩
      obtain ⟨hmem, hid⟩ := (hmap revision.id existing).1 hexisting
      exact hsame existing hmem hid
  · exact fun done revision map result hmap h => hmap.insertKnownRevision h

theorem indexes_of_foldlM {revisions : List ContentModuleRevision}
    {map : OrdMap ModuleRevisionId ContentModuleRevision}
    (h : revisions.foldlM insertKnownRevision .empty = .ok map) : Indexes map revisions := by
  refine foldlM_ok_inv (I := fun done map => Indexes map done) h ?_ ?_
  · intro id revision
    simp
  · exact fun done revision rest map result _ hmap hstep => hmap.insertKnownRevision hstep

/-- With no conflict, the revision of the map is the one that is followed. -/
theorem Indexes.previousLink_eq {map : OrdMap ModuleRevisionId ContentModuleRevision}
    {revisions : List ContentModuleRevision} (hmap : Indexes map revisions) (moduleId : ContentModuleId)
    (id : ModuleRevisionId) :
    previousLink revisions moduleId id =
      ((map.get? id).filter fun revision => revision.moduleId = moduleId).map
        (·.previousRevisionId) := by
  unfold previousLink
  congr 1
  ext revision
  rw [Option.filter_eq_some_iff, hmap]
  constructor
  · intro hfind
    have hid := List.find?_some hfind
    simp only [decide_eq_true_eq] at hid
    exact ⟨⟨List.mem_of_find?_eq_some hfind, hid.1⟩, by simpa using hid.2⟩
  · rintro ⟨⟨hmem, hid⟩, hmodule⟩
    have hsome : (revisions.find? fun revision =>
        revision.id = id ∧ revision.moduleId = moduleId).isSome = true := by
      rw [List.find?_isSome]
      exact ⟨revision, hmem, by simpa [hid] using hmodule⟩
    obtain ⟨found, hfound⟩ := Option.isSome_iff_exists.1 hsome
    have hfoundId := List.find?_some hfound
    simp only [decide_eq_true_eq] at hfoundId
    -- The map holds one revision under the id.
    have hget := (hmap id found).2 ⟨List.mem_of_find?_eq_some hfound, hfoundId.1⟩
    rw [(hmap id revision).2 ⟨hmem, hid⟩] at hget
    rw [hfound, Option.some.inj hget]

/-! ## The walk -/

/-- **The loop is a walk**: its result says how the walk from the current revision ends. -/
theorem followRevisions_spec {map : OrdMap ModuleRevisionId ContentModuleRevision}
    {next : ModuleRevisionId → Option (Option ModuleRevisionId)} {moduleId : ContentModuleId}
    {target : ModuleRevisionId} {start : Option ModuleRevisionId}
    (hnext : ∀ id, next id =
      ((map.get? id).filter fun revision => revision.moduleId = moduleId).map (·.previousRevisionId))
    {visited : List ModuleRevisionId} {cursor : Option ModuleRevisionId}
    (hwalk : Follows next start visited.reverse cursor) (hnodup : visited.Nodup)
    (htarget : target ∉ visited) :
    match followRevisions map moduleId target visited cursor with
    | .ok true => Meets next start target
    | .ok false => Ends next start target
    | .error () => Stuck next start target := by
  fun_induction followRevisions map moduleId target visited cursor with
  | case1 => exact ⟨_, hwalk, by simpa using hnodup, by simpa using htarget⟩
  | case2 visited id hseen =>
    have hne : id ≠ target := fun hid => htarget (hid ▸ hseen)
    exact ⟨_, id, hwalk, by simpa using hnodup, by simpa using htarget, hne, .inl (by simpa using hseen)⟩
  | case3 visited hnew =>
    refine ⟨_, hwalk, nodup_snoc.2 ⟨by simpa using hnodup, by simpa using htarget⟩⟩
  | case4 visited id hseen hne hget =>
    refine ⟨_, id, hwalk, by simpa using hnodup, by simpa using htarget, hne, .inr ?_⟩
    rw [hnext, hget]
    rfl
  | case5 visited id hseen hne revision hget hmodule =>
    refine ⟨_, id, hwalk, by simpa using hnodup, by simpa using htarget, hne, .inr ?_⟩
    rw [hnext, hget, Option.filter_some, if_neg (by simpa using hmodule)]
    rfl
  | case6 visited id hseen hne revision hget hmodule ih =>
    refine ih ?_ (List.nodup_cons.2 ⟨hseen, hnodup⟩) ?_
    · rw [List.reverse_cons]
      refine hwalk.snoc ?_
      rw [hnext, hget, Option.filter_some, if_pos (by simpa using hmodule)]
      rfl
    · exact List.not_mem_cons_of_ne_of_not_mem (Ne.symm hne) htarget

section Lineage

variable {current target : ModuleRevisionSnapshot} {knownRevisions : List ContentModuleRevision}

/-- The walk that the lineage of the current revision takes. -/
def lineageNext (current target : ModuleRevisionSnapshot) (knownRevisions : List ContentModuleRevision) :
    ModuleRevisionId → Option (Option ModuleRevisionId) :=
  previousLink (lineageRevisions current target knownRevisions) current.revision.moduleId

theorem targetIsAncestor_of_conflict
    (h : ConflictingRevisions (lineageRevisions current target knownRevisions)) :
    targetIsAncestor current target knownRevisions = .error () := by
  unfold targetIsAncestor
  have hno : ¬ ∃ map, (lineageRevisions current target knownRevisions).foldlM insertKnownRevision .empty =
      .ok map := fun hex => exists_insertKnownRevisions.1 hex h
  cases hfold : (lineageRevisions current target knownRevisions).foldlM insertKnownRevision .empty with
  | error e =>
    unfold lineageRevisions at hfold
    rw [hfold]
    rfl
  | ok map => exact absurd ⟨map, hfold⟩ hno

theorem targetIsAncestor_spec
    (h : ¬ ConflictingRevisions (lineageRevisions current target knownRevisions)) :
    match targetIsAncestor current target knownRevisions with
    | .ok true =>
      Meets (lineageNext current target knownRevisions) current.revision.previousRevisionId
        target.revision.id
    | .ok false =>
      Ends (lineageNext current target knownRevisions) current.revision.previousRevisionId
        target.revision.id
    | .error () =>
      Stuck (lineageNext current target knownRevisions) current.revision.previousRevisionId
        target.revision.id := by
  obtain ⟨map, hmap⟩ := exists_insertKnownRevisions.2 h
  have hindexes := indexes_of_foldlM hmap
  unfold lineageRevisions at hmap
  unfold targetIsAncestor
  rw [hmap]
  exact followRevisions_spec (hindexes.previousLink_eq _) (.refl _) .nil (List.not_mem_nil)

/-- With no conflict, the results are the three ends of the walk. -/
theorem targetIsAncestor_iff
    (h : ¬ ConflictingRevisions (lineageRevisions current target knownRevisions)) :
    (targetIsAncestor current target knownRevisions = .ok true ↔
      Meets (lineageNext current target knownRevisions) current.revision.previousRevisionId
        target.revision.id) ∧
    (targetIsAncestor current target knownRevisions = .ok false ↔
      Ends (lineageNext current target knownRevisions) current.revision.previousRevisionId
        target.revision.id) ∧
    (targetIsAncestor current target knownRevisions = .error () ↔
      Stuck (lineageNext current target knownRevisions) current.revision.previousRevisionId
        target.revision.id) := by
  have hspec := targetIsAncestor_spec h
  match hresult : targetIsAncestor current target knownRevisions with
  | .ok true =>
    rw [hresult] at hspec
    exact ⟨iff_of_true rfl hspec, iff_of_false (by simp) hspec.not_ends,
      iff_of_false (by simp) hspec.not_stuck⟩
  | .ok false =>
    rw [hresult] at hspec
    exact ⟨iff_of_false (by simp) fun hmeets => hmeets.not_ends hspec, iff_of_true rfl hspec,
      iff_of_false (by simp) hspec.not_stuck⟩
  | .error () =>
    rw [hresult] at hspec
    exact ⟨iff_of_false (by simp) fun hmeets => hmeets.not_stuck hspec,
      iff_of_false (by simp) fun hends => hends.not_stuck hspec, iff_of_true rfl hspec⟩

end Lineage

/-! ## The review -/

/-- Nothing but the lineage stands against the rollback. -/
structure RollbackAllowed (lib : ModuleExternals) (binding : ModuleBinding)
    (current target : ModuleRevisionSnapshot) (policy : ModuleRollbackPolicy) : Prop where
  enabled : binding.enabled = true
  approved : binding.approved = true
  fresh : binding.revisionId = current.revision.id
  bindingModule : binding.moduleId = current.module.id
  sameModule : current.module.id = target.module.id
  sameRevisionModule : current.revision.moduleId = target.revision.moduleId
  scopeTarget : policy.scopeTargetExists = true
  schema : target.module.schemaVersion ≤ policy.maximumModuleSchemaVersion
  capabilities : ∀ capability ∈ target.module.requiredCapabilities,
    capability ∈ policy.supportedCapabilities
  assets : ∀ assetId ∈ target.module.assetIds, assetId ∈ policy.availableAssetIds
  notQuarantined : target.revision.id ∉ policy.quarantinedRevisionIds
  resolved : policy.unresolvedComponents = []
  currentValid : validateRevisionSnapshot lib current = .ok ()
  targetValid : validateRevisionSnapshot lib target = .ok ()
  diff : ∃ diff, diffModuleRevisions lib current target = .ok diff

theorem bindingBlockers_eq_nil {binding : ModuleBinding} {current target : ModuleRevisionSnapshot} :
    bindingBlockers binding current target = [] ↔
      (binding.enabled = true ∧ binding.approved = true ∧ binding.revisionId = current.revision.id) ∧
        (binding.moduleId = current.module.id ∧ current.module.id = target.module.id ∧
          current.revision.moduleId = target.revision.moduleId) ∧
        current.revision.id ≠ target.revision.id := by
  simp [bindingBlockers, and_assoc]

theorem policyBlockers_eq_nil {policy : ModuleRollbackPolicy} {target : ModuleRevisionSnapshot} :
    policyBlockers policy target = [] ↔
      (policy.scopeTargetExists = true ∧
        target.module.schemaVersion ≤ policy.maximumModuleSchemaVersion) ∧
      (∀ capability ∈ target.module.requiredCapabilities, capability ∈ policy.supportedCapabilities) ∧
      (∀ assetId ∈ target.module.assetIds, assetId ∈ policy.availableAssetIds) ∧
      target.revision.id ∉ policy.quarantinedRevisionIds ∧ policy.unresolvedComponents = [] := by
  simp [policyBlockers, and_assoc]

theorem lineageBlockers_eq_nil {lineage : Except Unit Bool} :
    lineageBlockers lineage = [] ↔ lineage = .ok true := by
  unfold lineageBlockers
  split <;> simp

section Review

variable {lib : ModuleExternals} {binding : ModuleBinding} {current target : ModuleRevisionSnapshot}
  {knownRevisions : List ContentModuleRevision} {policy : ModuleRollbackPolicy}

theorem rollbackDiff_eq_some {diff : ModuleRevisionDiff} :
    rollbackDiff lib current target = some diff ↔ diffModuleRevisions lib current target = .ok diff := by
  unfold rollbackDiff
  constructor
  · intro h
    split at h
    · match hresult : diffModuleRevisions lib current target with
      | .ok found =>
        rw [hresult] at h
        cases h
        rfl
      | .error e =>
        rw [hresult] at h
        cases h
    · cases h
  · intro h
    -- A diff exists only where all three conditions hold.
    obtain ⟨⟨hcurrent, htarget⟩, hid, -⟩ := diffModuleRevisions_eq_ok.1 h
    rw [if_pos ⟨by rw [hcurrent]; rfl, by rw [htarget]; rfl, hid.1⟩, h]
    rfl

/-- No blocker is left exactly where nothing stands against the rollback. -/
theorem rollbackBlockers_eq_nil :
    rollbackBlockers lib binding current target knownRevisions policy = [] ↔
      RollbackAllowed lib binding current target policy ∧
        current.revision.id ≠ target.revision.id ∧
        targetIsAncestor current target knownRevisions = .ok true := by
  unfold rollbackBlockers
  simp only [List.append_eq_nil_iff, bindingBlockers_eq_nil, policyBlockers_eq_nil,
    lineageBlockers_eq_nil]
  constructor
  · rintro ⟨⟨⟨⟨⟨⟨henabled, happroved, hfresh⟩, ⟨hbinding, hmodule, hrevision⟩, hne⟩,
      ⟨hscope, hschema⟩, hcapabilities, hassets, hquarantined, hresolved⟩, -⟩, hlineage⟩, hdiff⟩
    have hsome : ∃ diff, rollbackDiff lib current target = some diff := by
      cases hrollback : rollbackDiff lib current target with
      | some diff => exact ⟨diff, rfl⟩
      | none => simp [hrollback] at hdiff
    obtain ⟨diff, hrollback⟩ := hsome
    have hok := rollbackDiff_eq_some.1 hrollback
    obtain ⟨⟨hcurrent, htarget⟩, -⟩ := diffModuleRevisions_eq_ok.1 hok
    exact ⟨⟨henabled, happroved, hfresh, hbinding, hmodule, hrevision, hscope, hschema, hcapabilities,
      hassets, hquarantined, hresolved, hcurrent, htarget, diff, hok⟩, hne, hlineage⟩
  · rintro ⟨hallowed, hne, hlineage⟩
    obtain ⟨diff, hdiff⟩ := hallowed.diff
    refine ⟨⟨⟨⟨⟨⟨hallowed.enabled, hallowed.approved, hallowed.fresh⟩, ⟨hallowed.bindingModule,
      hallowed.sameModule, hallowed.sameRevisionModule⟩, hne⟩, ⟨hallowed.scopeTarget, hallowed.schema⟩,
      hallowed.capabilities, hallowed.assets, hallowed.notQuarantined, hallowed.resolved⟩, ?_⟩,
      hlineage⟩, ?_⟩
    · rw [hallowed.currentValid, hallowed.targetValid]
      rfl
    · rw [rollbackDiff_eq_some.2 hdiff]
      rfl

theorem reviewModuleRollback_eq_ok {review : ModuleRollbackReview}
    (h : reviewModuleRollback lib binding current target knownRevisions policy = .ok review) :
    review.diff = rollbackDiff lib current target ∧
      review.blockers = sortDedup (rollbackBlockers lib binding current target knownRevisions policy) ∧
      review.eligible = (review.blockers.isEmpty && review.diff.isSome) := by
  unfold reviewModuleRollback at h
  obtain ⟨sha256, -, h⟩ := bind_eq_ok.1 h
  cases h
  exact ⟨rfl, rfl, rfl⟩

theorem sortDedup_eq_nil {blockers : List ModuleRollbackBlocker} :
    sortDedup blockers = [] ↔ blockers = [] := by
  simp only [List.eq_nil_iff_forall_not_mem, mem_sortDedup]

/-- **A review is eligible exactly** where the target is a proper ancestor and nothing else stands against
it. -/
theorem reviewModuleRollback_eligible {review : ModuleRollbackReview}
    (h : reviewModuleRollback lib binding current target knownRevisions policy = .ok review) :
    review.eligible = true ↔
      RollbackAllowed lib binding current target policy ∧
        current.revision.id ≠ target.revision.id ∧
        targetIsAncestor current target knownRevisions = .ok true := by
  obtain ⟨hdiff, hblockers, heligible⟩ := reviewModuleRollback_eq_ok h
  rw [heligible, Bool.and_eq_true, List.isEmpty_iff, hblockers, sortDedup_eq_nil, rollbackBlockers_eq_nil,
    hdiff, and_iff_left_iff_imp]
  intro hallowed
  obtain ⟨diff, hok⟩ := hallowed.1.diff
  rw [rollbackDiff_eq_some.2 hok]
  rfl

end Review

/-- **Rollback lineage.** The results of `targetIsAncestor` are the ends of the walk along the previous
revisions, conflicting revisions apart; a review is eligible only for a proper ancestor that nothing else
blocks. -/
theorem moduleRollback_lineage (current target : ModuleRevisionSnapshot)
    (knownRevisions : List ContentModuleRevision) :
    (targetIsAncestor current target knownRevisions = .ok true ↔
      ¬ ConflictingRevisions (lineageRevisions current target knownRevisions) ∧
        Meets (lineageNext current target knownRevisions) current.revision.previousRevisionId
          target.revision.id) ∧
    (targetIsAncestor current target knownRevisions = .ok false ↔
      ¬ ConflictingRevisions (lineageRevisions current target knownRevisions) ∧
        Ends (lineageNext current target knownRevisions) current.revision.previousRevisionId
          target.revision.id) ∧
    (targetIsAncestor current target knownRevisions = .error () ↔
      ConflictingRevisions (lineageRevisions current target knownRevisions) ∨
        Stuck (lineageNext current target knownRevisions) current.revision.previousRevisionId
          target.revision.id) ∧
    ∀ (lib : ModuleExternals) (binding : ModuleBinding) (policy : ModuleRollbackPolicy)
      (review : ModuleRollbackReview),
      reviewModuleRollback lib binding current target knownRevisions policy = .ok review →
      (review.eligible = true ↔
        RollbackAllowed lib binding current target policy ∧
          current.revision.id ≠ target.revision.id ∧
          ¬ ConflictingRevisions (lineageRevisions current target knownRevisions) ∧
          Meets (lineageNext current target knownRevisions) current.revision.previousRevisionId
            target.revision.id) := by
  have htrue : targetIsAncestor current target knownRevisions = .ok true ↔
      ¬ ConflictingRevisions (lineageRevisions current target knownRevisions) ∧
        Meets (lineageNext current target knownRevisions) current.revision.previousRevisionId
          target.revision.id := by
    by_cases hconflict : ConflictingRevisions (lineageRevisions current target knownRevisions)
    · simp [targetIsAncestor_of_conflict hconflict, hconflict]
    · simp [targetIsAncestor_iff hconflict, hconflict]
  refine ⟨htrue, ?_, ?_, fun lib binding policy review h => ?_⟩
  · by_cases hconflict : ConflictingRevisions (lineageRevisions current target knownRevisions)
    · simp [targetIsAncestor_of_conflict hconflict, hconflict]
    · simp [targetIsAncestor_iff hconflict, hconflict]
  · by_cases hconflict : ConflictingRevisions (lineageRevisions current target knownRevisions)
    · simp [targetIsAncestor_of_conflict hconflict, hconflict]
    · simp [targetIsAncestor_iff hconflict, hconflict]
  · rw [reviewModuleRollback_eligible h, htrue]

/-- A binding of the second revision. -/
def tideBinding : ModuleBinding := { harborBinding "b" "tide" .user [] with revisionId := "tide-2" }

def tidePolicy : ModuleRollbackPolicy := ⟨7, 1, true, [], [.portableRuntime], [], []⟩

/-- Every rollback review has a hash under the sample serializer. -/
theorem exists_sampleReview (binding : ModuleBinding) (current target : ModuleRevisionSnapshot)
    (knownRevisions : List ContentModuleRevision) (policy : ModuleRollbackPolicy) :
    ∃ review, reviewModuleRollback sampleModuleExternals binding current target knownRevisions policy =
      .ok review := by
  obtain ⟨sha256, hsha⟩ := exists_ok (x := canonicalSha256 sampleModuleExternals
    (.rollbackDigest 0 "" "" (repeatedDigest 'a' isLowerHexDigit_a) ""
      (repeatedDigest 'a' isLowerHexDigit_a) none [] false)) (by decide +kernel)
  unfold reviewModuleRollback
  exact ⟨_, bind_eq_ok.2 ⟨sha256, hsha, rfl⟩⟩

/-- The second revision may be rolled back to the first. -/
theorem moduleRollback_lineage_tide : ∃ review, reviewModuleRollback sampleModuleExternals tideBinding
    (tideRevision "tide-2" (some "tide-1") true "flow()") (tideRevision "tide-1" none false "ebb()") []
      tidePolicy = .ok review ∧ review.eligible = true := by
  obtain ⟨review, hreview⟩ := exists_sampleReview tideBinding
    (tideRevision "tide-2" (some "tide-1") true "flow()") (tideRevision "tide-1" none false "ebb()") []
    tidePolicy
  obtain ⟨diff, hdiff⟩ := exists_ok (x := diffModuleRevisions sampleModuleExternals
    (tideRevision "tide-2" (some "tide-1") true "flow()") (tideRevision "tide-1" none false "ebb()"))
    (by decide +kernel)
  obtain ⟨⟨hcurrent, htarget⟩, -⟩ := diffModuleRevisions_eq_ok.1 hdiff
  refine ⟨review, hreview, ((moduleRollback_lineage _ _ _).2.2.2 _ _ _ _ hreview).2 ⟨?_, by decide, ?_, ?_⟩⟩
  · exact ⟨rfl, rfl, rfl, rfl, rfl, rfl, rfl, by decide, by decide, by decide, by decide, rfl, hcurrent,
      htarget, diff, hdiff⟩
  · rw [not_conflictingRevisions]
    decide
  · exact ⟨[], .refl _, List.nodup_singleton _⟩

end LorePia
