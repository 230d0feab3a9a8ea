import LorePia.Orchestration.ModuleRuntime
import LorePia.Orchestration.Proof.ModuleReview

/-!
# A resolution covers its review

The reviews that `review_module_merge` makes have a shape (`ModuleMergeReview.Shaped`): distinct
components, candidates that have a source, and conflicts that are exactly the components with several
candidates (`reviewModuleMergeInternal_shaped`). On such reviews the checks that `resolve_module_merge`
spreads over its loops amount to one statement about the resolution set (`Covers`), and the plan it
returns splits the reviewed components into chosen and omitted ones (`resolveReviewed_eq_ok`,
`resolveReviewed_plan`).
-/

namespace LorePia

open Base

variable {lib : ModuleExternals} {review : ModuleMergeReview} {resolutionSet : ModuleMergeResolutionSet}

/-! ## Hashing succeeds -/

/-- `serde_json::to_vec` succeeds: a module document has no map and no fallible field. -/
def Serializes (lib : ModuleExternals) : Prop := ∀ document, ∃ bytes, lib.toVec document = .ok bytes

theorem Sha256Digest.exists_parse (digest : Vector UInt8 32) :
    ∃ parsed, Sha256Digest.parse (hexEncode digest.toList) = .ok parsed := by
  unfold Sha256Digest.parse
  rw [dif_pos ⟨utf8ByteSize_hexEncode digest, isHexDigit_hexEncode digest⟩]
  exact ⟨_, rfl⟩

theorem Serializes.canonicalSha256 (h : Serializes lib) (document : ModuleDocument) :
    ∃ digest, canonicalSha256 lib document = .ok digest := by
  obtain ⟨bytes, hbytes⟩ := h document
  obtain ⟨digest, hdigest⟩ := Sha256Digest.exists_parse (lib.sha256 bytes)
  exact ⟨digest, bind_eq_ok.2 ⟨bytes, mapErr_eq_ok.2 hbytes, mapErr_eq_ok.2 hdigest⟩⟩

/-! ## The shape of a review -/

/-- What a review made by `review_module_merge` looks like. -/
structure ModuleMergeReview.Shaped (review : ModuleMergeReview) : Prop where
  /-- Each component is reviewed once. -/
  components : (review.components.map (·.component)).Nodup
  /-- It has a candidate. -/
  candidates : ∀ reviewed ∈ review.components, reviewed.candidates ≠ []
  /-- Each candidate has a source, the last of which it names. -/
  sources : ∀ reviewed ∈ review.components, ∀ candidate ∈ reviewed.candidates,
    ∃ source, candidate.sources.getLast? = some source ∧
      candidate.candidate.moduleId = source.moduleId ∧ candidate.candidate.revisionId = source.revisionId
  /-- The conflicts are the components with several candidates. -/
  conflicts : review.conflicts = review.components.filterMap componentConflict

theorem reviewCandidate_eq_ok {entry : Sha256Digest × List ModuleCandidateSource}
    {candidate : ReviewedModuleCandidate} (h : reviewCandidate entry = .ok candidate) :
    ∃ source, candidate.sources.getLast? = some source ∧
      candidate.candidate.moduleId = source.moduleId ∧
      candidate.candidate.revisionId = source.revisionId := by
  obtain ⟨source, hsource, h⟩ := bind_eq_ok.1 h
  rw [← pure_eq_ok.1 h]
  exact ⟨source, okOr_eq_ok.1 hsource, rfl, rfl⟩

theorem reviewComponent_eq_ok
    {entry : ModuleComponentRef × OrdMap Sha256Digest (List ModuleCandidateSource)}
    {reviewed : ReviewedModuleComponent} (h : reviewComponent entry = .ok reviewed) :
    reviewed.component = entry.1 ∧ reviewed.candidates.length = entry.2.entries.length ∧
      ∀ candidate ∈ reviewed.candidates, ∃ source, candidate.sources.getLast? = some source ∧
        candidate.candidate.moduleId = source.moduleId ∧
        candidate.candidate.revisionId = source.revisionId := by
  obtain ⟨candidates, hcandidates, h⟩ := bind_eq_ok.1 h
  rw [mapM_eq_ok] at hcandidates
  rw [← pure_eq_ok.1 h]
  refine ⟨rfl, ?_, fun candidate hc => ?_⟩
  · rw [length_stableSort, ← hcandidates.length_eq]
  · obtain ⟨entry', -, hentry⟩ := forall₂_mem_right hcandidates (mem_stableSort.1 hc)
    exact reviewCandidate_eq_ok hentry

/-- A group holds a candidate: it is made for the first one. -/
theorem pushSource_nonempty {grouped : GroupedCandidates} {component : ModuleComponentRef}
    {sha256 : Sha256Digest} {source : ModuleCandidateSource}
    (h : ∀ c hashes, grouped.get? c = some hashes → hashes.entries ≠ []) :
    ∀ c hashes, (pushSource grouped component sha256 source).get? c = some hashes →
      hashes.entries ≠ [] := by
  intro c hashes hget
  unfold pushSource at hget
  dsimp only at hget
  rw [OrdMap.get?_insert] at hget
  split at hget
  · intro hempty
    have hmem := OrdMap.mem_entries.2 (by rw [← Option.some.inj hget, OrdMap.get?_insert, if_pos rfl] :
      hashes.get? sha256 = some _)
    rw [hempty] at hmem
    cases hmem
  · exact h c hashes hget

theorem groupBindings_nonempty {map : OrdMap ModuleRevisionId ModuleRevisionSnapshot}
    {ordered : List ModuleBinding} {grouped : GroupedCandidates}
    (h : ordered.foldlM (groupBinding map) .empty = .ok grouped) :
    ∀ c hashes, grouped.get? c = some hashes → hashes.entries ≠ [] := by
  refine foldlM_ok_inv (I := fun _ g => ∀ c hashes, g.get? c = some hashes → hashes.entries ≠ []) h
    (by simp) ?_
  intro _ binding _ g g' _ hg hstep
  obtain ⟨snapshot, -, hstep⟩ := bind_eq_ok.1 hstep
  obtain ⟨ordinals, -, hstep⟩ := bind_eq_ok.1 hstep
  obtain ⟨hashes, -, hstep⟩ := bind_eq_ok.1 hstep
  refine foldlM_ok_inv (I := fun _ g => ∀ c hashes, g.get? c = some hashes → hashes.entries ≠ []) hstep
    hg ?_
  intro _ component _ g g' _ hg hstep
  obtain ⟨ordinal, -, hstep⟩ := bind_eq_ok.1 hstep
  rw [← pure_eq_ok.1 hstep]
  exact pushSource_nonempty hg

theorem componentConflict_component {reviewed : ReviewedModuleComponent} {conflict : ModuleConflict}
    (h : componentConflict reviewed = some conflict) :
    conflict.component = reviewed.component ∧ 1 < reviewed.candidates.length ∧
      conflict.candidates = reviewed.candidates.map (·.candidate) := by
  unfold componentConflict at h
  split at h
  · rename_i hlength
    rw [← Option.some.inj h]
    exact ⟨rfl, hlength, rfl⟩
  · cases h

theorem componentConflict_isSome {reviewed : ReviewedModuleComponent} :
    (componentConflict reviewed).isSome = true ↔ 1 < reviewed.candidates.length := by
  unfold componentConflict
  split <;> simp_all

/-- The components are reviewed in the order of their keys, so sorting them changes nothing. -/
theorem reviewOrdered_shaped {stateRevision : UInt64} {context : ModuleResolutionContext}
    {activation : List ModuleBindingId} {map : OrdMap ModuleRevisionId ModuleRevisionSnapshot}
    {ordered : List ModuleBinding} {approvals : List ReviewedModuleImportApproval}
    {ignored : List IgnoredModuleBinding}
    (h : reviewOrdered lib stateRevision context activation map ordered approvals ignored = .ok review) :
    review.Shaped := by
  obtain ⟨grouped, hgrouped, h⟩ := bind_eq_ok.1 h
  obtain ⟨components, hcomponents, h⟩ := bind_eq_ok.1 h
  obtain ⟨sha256, -, h⟩ := bind_eq_ok.1 h
  rw [← pure_eq_ok.1 h]
  rw [mapM_eq_ok] at hcomponents
  have hkeys : components.map (·.component) = grouped.keys :=
    (forall₂_map_eq (f := Prod.fst) (g := (·.component))
      (fun entry reviewed h => (reviewComponent_eq_ok h).1.symm) hcomponents).symm
  have hsorted : components.Pairwise fun a b => a.component < b.component := by
    have hpairwise := grouped.keys_pairwise
    rw [← hkeys] at hpairwise
    exact List.pairwise_map.1 hpairwise
  have hsort : stableSort (fun left right : ReviewedModuleComponent =>
      decide (left.component ≤ right.component)) components = components :=
    stableSort_of_pairwise (hsorted.imp fun hlt => by simpa using le_of_lt hlt)
  have hconflicts : stableSort (fun left right : ModuleConflict =>
      decide (left.component ≤ right.component)) (components.filterMap componentConflict) =
        components.filterMap componentConflict := by
    refine stableSort_of_pairwise (List.Pairwise.filterMap _ ?_ hsorted)
    intro a b hlt c hc d hd
    rw [(componentConflict_component hc).1, (componentConflict_component hd).1]
    simpa using le_of_lt hlt
  refine ⟨?_, ?_, ?_, ?_⟩
  · rw [hsort, hkeys]
    exact grouped.keys_nodup
  · intro reviewed hreviewed hempty
    obtain ⟨entry, hentry, hok⟩ := forall₂_mem_right hcomponents (mem_stableSort.1 hreviewed)
    have hlength := (reviewComponent_eq_ok hok).2.1
    rw [hempty, List.length_nil, eq_comm, List.length_eq_zero_iff] at hlength
    exact groupBindings_nonempty hgrouped entry.1 entry.2 (OrdMap.mem_entries.1 hentry) hlength
  · intro reviewed hreviewed candidate hcandidate
    obtain ⟨entry, -, hok⟩ := forall₂_mem_right hcomponents (mem_stableSort.1 hreviewed)
    exact (reviewComponent_eq_ok hok).2.2 candidate hcandidate
  · simp only [hsort, hconflicts]

/-- **Reviews have the shape**, and their hash is the hash of their contents. -/
theorem reviewModuleMergeInternal_shaped {stateRevision : UInt64} {context : ModuleResolutionContext}
    {bindings : List ModuleBinding} {revisions : List ModuleRevisionSnapshot}
    {activation : List ModuleBindingId}
    (h : reviewModuleMergeInternal lib stateRevision context bindings revisions activation = .ok review) :
    review.Shaped ∧ review.verifyUncached lib = .ok () := by
  obtain ⟨-, -, -, -, -, map, -, verdicts, -, h⟩ := reviewModuleMergeInternal_eq_ok.1 h
  refine ⟨reviewOrdered_shaped h, ?_⟩
  obtain ⟨grouped, -, h⟩ := bind_eq_ok.1 h
  obtain ⟨components, -, h⟩ := bind_eq_ok.1 h
  obtain ⟨sha256, hsha256, h⟩ := bind_eq_ok.1 h
  rw [← pure_eq_ok.1 h]
  exact bind_eq_ok.2 ⟨sha256, hsha256, rejectIf_eq_ok.2 fun hne => hne rfl⟩

theorem ModuleMergeReview.Shaped.conflict_components (h : review.Shaped) :
    review.conflicts.map (·.component) =
      (review.components.filter fun reviewed => 1 < reviewed.candidates.length).map (·.component) := by
  rw [h.conflicts]
  induction review.components with
  | nil => rfl
  | cons reviewed rest ih =>
    rw [List.filterMap_cons, List.filter_cons]
    by_cases hlength : 1 < reviewed.candidates.length
    · rw [show componentConflict reviewed = some _ from if_pos hlength]
      simpa [hlength] using ih
    · rw [show componentConflict reviewed = none from if_neg hlength]
      simpa [hlength] using ih

theorem ModuleMergeReview.Shaped.conflicts_nodup (h : review.Shaped) :
    (review.conflicts.map (·.component)).Nodup := by
  rw [h.conflict_components]
  exact h.components.sublist (List.filter_sublist.map _)

/-- The conflict of a component is found under its name. -/
theorem ModuleMergeReview.Shaped.get?_conflictMapOf (h : review.Shaped) {reviewed : ReviewedModuleComponent}
    (hreviewed : reviewed ∈ review.components) :
    (conflictMapOf review.conflicts).get? reviewed.component = componentConflict reviewed := by
  unfold conflictMapOf
  rw [OrdMap.get?_ofList_map h.conflicts_nodup]
  cases hconflict : componentConflict reviewed with
  | none =>
    rw [List.find?_eq_none]
    intro conflict hmem hname
    rw [h.conflicts] at hmem
    obtain ⟨other, hother, hsome⟩ := List.mem_filterMap.1 hmem
    have hsame : other = reviewed := by
      refine List.inj_on_of_nodup_map h.components hother hreviewed ?_
      rw [← (componentConflict_component hsome).1]
      simpa using hname
    rw [hsame, hconflict] at hsome
    cases hsome
  | some conflict =>
    have hmem : conflict ∈ review.conflicts := by
      rw [h.conflicts]
      exact List.mem_filterMap.2 ⟨reviewed, hreviewed, hconflict⟩
    rw [← (componentConflict_component hconflict).1]
    convert find?_key h.conflicts_nodup hmem

/-! ## One resolution for each conflict -/

/-- The resolution set answers the review. -/
structure Covers (review : ModuleMergeReview) (resolutionSet : ModuleMergeResolutionSet) : Prop where
  /-- It names the review's hash. -/
  hash : resolutionSet.expectedReviewSha256 = review.reviewSha256
  /-- It resolves every conflicting component once, and no other. -/
  components : (resolutionSet.resolutions.map (·.component)).Perm (review.conflicts.map (·.component))
  /-- Every resolution expects the reviewed candidates. -/
  expected : ∀ resolution ∈ resolutionSet.resolutions, ∀ conflict ∈ review.conflicts,
    conflict.component = resolution.component → resolution.expectedCandidates.Perm conflict.candidates
  /-- It chooses none of them or one. -/
  selected : ∀ resolution ∈ resolutionSet.resolutions, ∀ conflict ∈ review.conflicts,
    conflict.component = resolution.component →
      ∀ candidate, resolution.selected = some candidate → candidate ∈ conflict.candidates

/-- The resolutions by their component. -/
def resolutionMapOf (resolutions : List ModuleConflictResolution) :
    OrdMap ModuleComponentRef ModuleConflictResolution :=
  .ofList (resolutions.map fun resolution => (resolution.component, resolution))

theorem contains_conflictMapOf {conflicts : List ModuleConflict}
    (h : (conflicts.map (·.component)).Nodup) {component : ModuleComponentRef} :
    (conflictMapOf conflicts).contains component = true ↔ component ∈ conflicts.map (·.component) := by
  unfold OrdMap.contains conflictMapOf
  rw [OrdMap.get?_ofList_map h, List.find?_isSome]
  simp

/-- The first loop accepts distinct resolutions of conflicts. -/
theorem collectResolutions_eq_ok {conflictMap : OrdMap ModuleComponentRef ModuleConflict}
    {list : List ModuleConflictResolution} {resolutions : OrdMap ModuleComponentRef ModuleConflictResolution} :
    list.foldlM (collectResolution conflictMap) .empty = .ok resolutions ↔
      (∀ resolution ∈ list, conflictMap.contains resolution.component = true) ∧
        (list.map (·.component)).Nodup ∧ resolutions = resolutionMapOf list := by
  have hstep : ∀ m resolution r, collectResolution conflictMap m resolution = .ok r ↔
      conflictMap.contains resolution.component = true ∧ m.contains resolution.component = false ∧
        r = m.insert resolution.component resolution := by
    intro m resolution r
    unfold collectResolution
    rw [seq_eq_ok, seq_eq_ok, rejectIf_eq_ok, rejectIf_eq_ok, pure_eq_ok, eq_comm (a := r)]
    simp only [Bool.not_eq_true, Bool.not_eq_false]
    tauto
  rw [OrdMap.foldlM_insert_eq_ok hstep]
  simp [resolutionMapOf, OrdMap.ofList, OrdMap.contains]

/-- What a resolution picks among the candidates of its component. -/
inductive Picks (resolution : ModuleConflictResolution) (reviewed : ReviewedModuleComponent) :
    Option ReviewedModuleCandidate → Prop
  | omitted (h : resolution.selected = none) : Picks resolution reviewed none
  | chosen {selected : ModuleConflictCandidate} {candidate : ReviewedModuleCandidate}
      (h : resolution.selected = some selected)
      (hfind : reviewed.candidates.find? (fun candidate => candidate.candidate = selected) =
        some candidate) : Picks resolution reviewed (some candidate)

/-- The chosen candidate of a reviewed component: its only one, or what its resolution picks. -/
theorem selectCandidate_eq_ok (h : review.Shaped) {reviewed : ReviewedModuleComponent}
    (hreviewed : reviewed ∈ review.components)
    {resolutions : OrdMap ModuleComponentRef ModuleConflictResolution}
    {selected : Option ReviewedModuleCandidate} :
    selectCandidate (conflictMapOf review.conflicts) resolutions reviewed = .ok selected ↔
      (reviewed.candidates.length = 1 ∧ selected = reviewed.candidates.head?) ∨
        1 < reviewed.candidates.length ∧ ∃ resolution,
          resolutions.get? reviewed.component = some resolution ∧
            resolution.expectedCandidates.Perm (reviewed.candidates.map (·.candidate)) ∧
            Picks resolution reviewed selected := by
  unfold selectCandidate
  have hpos : 0 < reviewed.candidates.length :=
    List.length_pos_iff.2 (h.candidates reviewed hreviewed)
  by_cases hone : reviewed.candidates.length = 1
  · rw [if_pos hone, Except.ok.injEq, eq_comm]
    simp [hone]
  · have hmany : 1 < reviewed.candidates.length := by omega
    obtain ⟨conflict, hconflict⟩ := Option.isSome_iff_exists.1 (componentConflict_isSome.2 hmany)
    rw [if_neg hone]
    unfold selectConflicting
    rw [h.get?_conflictMapOf hreviewed, hconflict]
    simp only [okOr, ok_bind, hone, hmany, false_and, false_or, true_and,
      (componentConflict_component hconflict).2.2]
    cases hget : resolutions.get? reviewed.component with
    | none => simp
    | some resolution =>
      simp only [ok_bind, Option.some.injEq, exists_eq_left']
      rw [seq_eq_ok, rejectIf_eq_ok, not_not, insertionSort_eq_iff]
      refine and_congr_right fun _ => ?_
      constructor
      · intro hpick
        split at hpick
        · rename_i hnone
          rw [← pure_eq_ok.1 hpick]
          exact .omitted hnone
        · rename_i hsome
          obtain ⟨candidate, hcandidate, hpick⟩ := bind_eq_ok.1 hpick
          rw [← pure_eq_ok.1 hpick]
          exact .chosen hsome (okOr_eq_ok.1 hcandidate)
      · intro hpick
        cases hpick with
        | omitted hnone => simp [hnone]
        | chosen hsome hfind => simp [hsome, hfind]

theorem selectCandidate_mem (h : review.Shaped) {reviewed : ReviewedModuleComponent}
    (hreviewed : reviewed ∈ review.components)
    {resolutions : OrdMap ModuleComponentRef ModuleConflictResolution}
    {candidate : ReviewedModuleCandidate}
    (hselected : selectCandidate (conflictMapOf review.conflicts) resolutions reviewed =
      .ok (some candidate)) : candidate ∈ reviewed.candidates := by
  obtain ⟨-, hhead⟩ | ⟨-, resolution, -, -, hpick⟩ := (selectCandidate_eq_ok h hreviewed).1 hselected
  · exact List.mem_of_head? hhead.symm
  · cases hpick with
    | chosen _ hfind => exact List.mem_of_find?_eq_some hfind

/-- What the loop records of a component: its chosen candidate with the last of the sources, or that its
resolution omits it. -/
theorem resolveComponent_eq_ok {conflictMap : OrdMap ModuleComponentRef ModuleConflict}
    {resolutions : OrdMap ModuleComponentRef ModuleConflictResolution}
    {reviewed : ReviewedModuleComponent} {choice : ComponentChoice} :
    resolveComponent conflictMap resolutions reviewed = .ok choice ↔
      (selectCandidate conflictMap resolutions reviewed = .ok none ∧
        choice = .omitted reviewed.component) ∨
      ∃ candidate source, selectCandidate conflictMap resolutions reviewed = .ok (some candidate) ∧
        candidate.sources.getLast? = some source ∧
        choice = .resolved (resolvedComponent reviewed.component candidate source) := by
  unfold resolveComponent
  rw [bind_eq_ok]
  constructor
  · intro h
    obtain ⟨selected, hselected, h⟩ := h
    cases selected with
    | none => exact .inl ⟨hselected, (Except.ok.inj h).symm⟩
    | some candidate =>
      obtain ⟨source, hsource, h⟩ := bind_eq_ok.1 h
      exact .inr ⟨candidate, source, hselected, okOr_eq_ok.1 hsource, (pure_eq_ok.1 h).symm⟩
  · intro h
    obtain ⟨hselected, hchoice⟩ | ⟨candidate, source, hselected, hsource, hchoice⟩ := h
    · exact ⟨none, hselected, by rw [hchoice]; rfl⟩
    · exact ⟨some candidate, hselected, bind_eq_ok.2 ⟨source, okOr_eq_ok.2 hsource, by rw [hchoice]; rfl⟩⟩

theorem resolveReviewed_eq_ok {plan : ResolvedModulePlan} (h : review.Shaped) :
    resolveReviewed lib review resolutionSet = .ok plan ↔
      resolutionSet.expectedReviewSha256 = review.reviewSha256 ∧
      (∀ resolution ∈ resolutionSet.resolutions,
        resolution.component ∈ review.conflicts.map (·.component)) ∧
      (resolutionSet.resolutions.map (·.component)).Nodup ∧
      ∃ choices, List.Forall₂ (fun reviewed choice => resolveComponent (conflictMapOf review.conflicts)
          (resolutionMapOf resolutionSet.resolutions) reviewed = .ok choice) review.components choices ∧
        checkResolutionCount review.conflicts (resolutionMapOf resolutionSet.resolutions) = .ok () ∧
        planOfChoices lib review choices = .ok plan := by
  unfold resolveReviewed
  rw [seq_eq_ok, rejectIf_eq_ok, not_not]
  refine and_congr_right fun _ => ?_
  simp only [bind_eq_ok, collectResolutions_eq_ok, mapM_eq_ok, contains_conflictMapOf h.conflicts_nodup]
  constructor
  · intro hok
    obtain ⟨_, ⟨hknown, hnodup, rfl⟩, choices, hchoices, ⟨⟩, hcount, hplan⟩ := hok
    exact ⟨hknown, hnodup, choices, hchoices, hcount, hplan⟩
  · intro hok
    obtain ⟨hknown, hnodup, choices, hchoices, hcount, hplan⟩ := hok
    exact ⟨_, ⟨hknown, hnodup, rfl⟩, choices, hchoices, (), hcount, hplan⟩

theorem get?_resolutionMapOf {list : List ModuleConflictResolution} (h : (list.map (·.component)).Nodup)
    {component : ModuleComponentRef} {resolution : ModuleConflictResolution} :
    (resolutionMapOf list).get? component = some resolution ↔
      resolution ∈ list ∧ resolution.component = component :=
  OrdMap.get?_ofList_map_eq_some h

/-- With one resolution for each conflict the counts agree. -/
theorem checkResolutionCount_eq_ok {conflicts : List ModuleConflict} {list : List ModuleConflictResolution}
    (h : (list.map (·.component)).Nodup)
    (hperm : (list.map (·.component)).Perm (conflicts.map (·.component))) :
    checkResolutionCount conflicts (resolutionMapOf list) = .ok () := by
  have hlength : (resolutionMapOf list).entries.length = conflicts.length := by
    have hkeys := ((OrdMap.keys_ofList_map h).trans hperm).length_eq
    rwa [OrdMap.keys, List.length_map, List.length_map] at hkeys
  exact if_pos hlength

/-- A resolution that resolves covers the review. -/
theorem covers_of_resolveReviewed (h : review.Shaped) {plan : ResolvedModulePlan}
    (hok : resolveReviewed lib review resolutionSet = .ok plan) : Covers review resolutionSet := by
  obtain ⟨hhash, hknown, hnodup, choices, hchoices, -, -⟩ := (resolveReviewed_eq_ok h).1 hok
  have hresolution : ∀ conflict ∈ review.conflicts, ∃ resolution ∈ resolutionSet.resolutions,
      resolution.component = conflict.component ∧
        resolution.expectedCandidates.Perm conflict.candidates ∧
        ∀ candidate, resolution.selected = some candidate → candidate ∈ conflict.candidates := by
    intro conflict hconflict
    rw [h.conflicts] at hconflict
    obtain ⟨reviewed, hreviewed, hsome⟩ := List.mem_filterMap.1 hconflict
    obtain ⟨hname, hmany, hcandidates⟩ := componentConflict_component hsome
    obtain ⟨choice, hchoice⟩ : ∃ choice, resolveComponent (conflictMapOf review.conflicts)
        (resolutionMapOf resolutionSet.resolutions) reviewed = .ok choice := by
      obtain ⟨choice, -, hchoice⟩ := forall₂_mem_left hchoices hreviewed
      exact ⟨choice, hchoice⟩
    obtain ⟨selected, hselected, -⟩ := bind_eq_ok.1 hchoice
    obtain ⟨hone, -⟩ | ⟨-, resolution, hget, hexpected, hpicks⟩ :=
      (selectCandidate_eq_ok h hreviewed).1 hselected
    · omega
    · obtain ⟨hmem, hcomponent⟩ := (get?_resolutionMapOf hnodup).1 hget
      refine ⟨resolution, hmem, hcomponent.trans hname.symm, hcandidates ▸ hexpected, ?_⟩
      intro candidate hcandidate
      cases hpicks with
      | omitted hnone =>
        rw [hnone] at hcandidate
        cases hcandidate
      | chosen hsome hfind =>
        rw [hcandidate] at hsome
        rw [hcandidates, List.mem_map]
        refine ⟨_, List.mem_of_find?_eq_some hfind, ?_⟩
        rw [Option.some.inj hsome]
        simpa using List.find?_some hfind
  have hunique : ∀ resolution ∈ resolutionSet.resolutions, ∀ other ∈ resolutionSet.resolutions,
      resolution.component = other.component → resolution = other :=
    fun resolution hr other ho hname => List.inj_on_of_nodup_map hnodup hr ho hname
  refine ⟨hhash, ?_, ?_, ?_⟩
  · rw [List.perm_ext_iff_of_nodup hnodup h.conflicts_nodup]
    intro component
    constructor
    · intro hmem
      obtain ⟨resolution, hr, hname⟩ := List.mem_map.1 hmem
      exact hname ▸ hknown resolution hr
    · intro hmem
      obtain ⟨conflict, hc, hname⟩ := List.mem_map.1 hmem
      obtain ⟨resolution, hr, hname', -⟩ := hresolution conflict hc
      exact List.mem_map.2 ⟨resolution, hr, hname'.trans hname⟩
  · intro resolution hr conflict hc hname
    obtain ⟨other, ho, hname', hexpected, -⟩ := hresolution conflict hc
    rwa [hunique resolution hr other ho (hname.symm.trans hname'.symm)]
  · intro resolution hr conflict hc hname
    obtain ⟨other, ho, hname', -, hselected⟩ := hresolution conflict hc
    rwa [hunique resolution hr other ho (hname.symm.trans hname'.symm)]

/-- A covering set has a choice for every component. -/
theorem Covers.resolveComponent (hcovers : Covers review resolutionSet) (h : review.Shaped)
    {reviewed : ReviewedModuleComponent} (hreviewed : reviewed ∈ review.components) :
    ∃ choice, resolveComponent (conflictMapOf review.conflicts)
      (resolutionMapOf resolutionSet.resolutions) reviewed = .ok choice := by
  have hnodup := hcovers.components.nodup_iff.2 h.conflicts_nodup
  have hpos := List.length_pos_iff.2 (h.candidates reviewed hreviewed)
  obtain ⟨selected, hselected⟩ : ∃ selected, selectCandidate (conflictMapOf review.conflicts)
      (resolutionMapOf resolutionSet.resolutions) reviewed = .ok selected := by
    by_cases hone : reviewed.candidates.length = 1
    · exact ⟨_, (selectCandidate_eq_ok h hreviewed).2 (.inl ⟨hone, rfl⟩)⟩
    have hmany : 1 < reviewed.candidates.length := by omega
    obtain ⟨conflict, hsome⟩ := Option.isSome_iff_exists.1 (componentConflict_isSome.2 hmany)
    obtain ⟨hname, -, hcandidates⟩ := componentConflict_component hsome
    have hconflict : conflict ∈ review.conflicts := by
      rw [h.conflicts]
      exact List.mem_filterMap.2 ⟨reviewed, hreviewed, hsome⟩
    obtain ⟨resolution, hr, hcomponent⟩ :=
      List.mem_map.1 (hcovers.components.mem_iff.2 (List.mem_map_of_mem hconflict))
    have hget := (get?_resolutionMapOf hnodup).2 ⟨hr, hcomponent.trans hname⟩
    have hexpected := hcovers.expected resolution hr conflict hconflict hcomponent.symm
    rw [hcandidates] at hexpected
    have hpick : ∃ selected, Picks resolution reviewed selected := by
      cases hchoice : resolution.selected with
      | none => exact ⟨none, .omitted hchoice⟩
      | some candidate =>
        have hmem := hcovers.selected resolution hr conflict hconflict hcomponent.symm candidate hchoice
        rw [hcandidates] at hmem
        obtain ⟨found, hfound⟩ : ∃ found, reviewed.candidates.find?
            (fun found => found.candidate = candidate) = some found := by
          rw [← Option.isSome_iff_exists, List.find?_isSome]
          simpa using hmem
        exact ⟨some found, .chosen hchoice hfound⟩
    obtain ⟨selected, hpick⟩ := hpick
    exact ⟨selected, (selectCandidate_eq_ok h hreviewed).2 (.inr ⟨hmany, resolution, hget, hexpected, hpick⟩)⟩
  cases hchosen : selected with
  | none => exact ⟨_, resolveComponent_eq_ok.2 (.inl ⟨hchosen ▸ hselected, rfl⟩)⟩
  | some candidate =>
    rw [hchosen] at hselected
    obtain ⟨source, hsource, -⟩ := h.sources reviewed hreviewed candidate
      (selectCandidate_mem h hreviewed hselected)
    exact ⟨_, resolveComponent_eq_ok.2 (.inr ⟨candidate, source, hselected, hsource, rfl⟩)⟩

theorem Covers.resolveReviewed (hcovers : Covers review resolutionSet) (hlib : Serializes lib)
    (h : review.Shaped) : ∃ plan, resolveReviewed lib review resolutionSet = .ok plan := by
  have hnodup := hcovers.components.nodup_iff.2 h.conflicts_nodup
  obtain ⟨choices, hchoices⟩ := exists_mapM_ok fun reviewed hreviewed =>
    hcovers.resolveComponent h hreviewed
  obtain ⟨sha256, hsha256⟩ := hlib.canonicalSha256 _
  refine ⟨_, (resolveReviewed_eq_ok h).2 ⟨hcovers.hash, ?_, hnodup, choices, mapM_eq_ok.1 hchoices,
    checkResolutionCount_eq_ok hnodup hcovers.components, bind_eq_ok.2 ⟨sha256, hsha256, rfl⟩⟩⟩
  intro resolution hr
  exact hcovers.components.mem_iff.1 (List.mem_map_of_mem hr)

/-! ## What the plan selects -/

/-- The component of a choice. -/
def ComponentChoice.component : ComponentChoice → ModuleComponentRef
  | .resolved component => component.component
  | .omitted component => component

/-- A choice is resolved or omitted. -/
theorem choices_perm (choices : List ComponentChoice) :
    ((choices.filterMap (·.resolved?)).map (·.component) ++ choices.filterMap (·.omitted?)).Perm
      (choices.map (·.component)) := by
  induction choices with
  | nil => exact .nil
  | cons choice rest ih =>
    cases choice with
    | resolved component => exact ih.cons _
    | omitted component => exact List.perm_middle.trans (ih.cons _)

theorem resolveComponent_component {conflictMap : OrdMap ModuleComponentRef ModuleConflict}
    {resolutions : OrdMap ModuleComponentRef ModuleConflictResolution}
    {reviewed : ReviewedModuleComponent} {choice : ComponentChoice}
    (h : resolveComponent conflictMap resolutions reviewed = .ok choice) :
    choice.component = reviewed.component := by
  obtain ⟨-, hchoice⟩ | ⟨candidate, source, -, -, hchoice⟩ := resolveComponent_eq_ok.1 h
  · rw [hchoice]
    rfl
  · rw [hchoice]
    rfl

/-- The plan lists the choices, sorted. -/
theorem planOfChoices_eq_ok {choices : List ComponentChoice} {plan : ResolvedModulePlan}
    (h : planOfChoices lib review choices = .ok plan) :
    plan.components = stableSort resolvedComponentOrder (choices.filterMap (·.resolved?)) ∧
      plan.omittedComponents = (choices.filterMap (·.omitted?)).insertionSort (· ≤ ·) ∧
      plan.reviewSha256 = review.reviewSha256 ∧ plan.expectedStateRevision = review.stateRevision ∧
      plan.activationBindingIds = review.activationBindingIds ∧
      plan.effectiveVariableOverrides = review.effectiveVariableOverrides ∧
      plan.verifyUncached lib = .ok () := by
  obtain ⟨sha256, hsha256, h⟩ := bind_eq_ok.1 h
  rw [← pure_eq_ok.1 h]
  exact ⟨rfl, rfl, rfl, rfl, rfl, rfl, bind_eq_ok.2 ⟨sha256, hsha256, rejectIf_eq_ok.2 fun hne => hne rfl⟩⟩

/-- The plan resolves the review as the set says. -/
structure Resolves (review : ModuleMergeReview) (resolutionSet : ModuleMergeResolutionSet)
    (plan : ResolvedModulePlan) : Prop where
  /-- Every reviewed component is chosen or omitted, and no other. -/
  reviewed : (plan.components.map (·.component) ++ plan.omittedComponents).Perm
    (review.components.map (·.component))
  /-- None is in both lists, or twice in one. -/
  once : (plan.components.map (·.component) ++ plan.omittedComponents).Nodup
  /-- A component is omitted by its resolution. -/
  omitted : ∀ component ∈ plan.omittedComponents, ∃ resolution ∈ resolutionSet.resolutions,
    resolution.component = component ∧ resolution.selected = none
  /-- What is chosen is a reviewed candidate of the component. -/
  selected : ∀ chosen ∈ plan.components, ∃ reviewed ∈ review.components,
    reviewed.component = chosen.component ∧ ∃ candidate ∈ reviewed.candidates,
      candidate.candidate = ⟨chosen.selectedSource.moduleId, chosen.selectedSource.revisionId,
        chosen.sha256⟩ ∧ chosen.selectedSource ∈ candidate.sources

theorem resolves_of_resolveReviewed (h : review.Shaped) {plan : ResolvedModulePlan}
    (hok : resolveReviewed lib review resolutionSet = .ok plan) : Resolves review resolutionSet plan := by
  obtain ⟨-, -, hnodup, choices, hchoices, -, hplan⟩ := (resolveReviewed_eq_ok h).1 hok
  obtain ⟨hcomponents, homitted, -⟩ := planOfChoices_eq_ok hplan
  have hnames : choices.map (·.component) = review.components.map (·.component) :=
    (forall₂_map_eq (f := (·.component)) (g := (·.component))
      (fun reviewed choice hchoice => (resolveComponent_component hchoice).symm) hchoices).symm
  have hperm : (plan.components.map (·.component) ++ plan.omittedComponents).Perm
      (review.components.map (·.component)) := by
    rw [hcomponents, homitted, ← hnames]
    exact (((stableSort_perm _ _).map _).append (List.perm_insertionSort _ _)).trans (choices_perm choices)
  refine ⟨hperm, hperm.nodup_iff.2 h.components, ?_, ?_⟩
  · intro component hcomponent
    rw [homitted, List.mem_insertionSort] at hcomponent
    obtain ⟨choice, hchoice, hsome⟩ := List.mem_filterMap.1 hcomponent
    obtain ⟨reviewed, hreviewed, hresolve⟩ := forall₂_mem_right hchoices hchoice
    obtain ⟨hselected, rfl⟩ | ⟨candidate, source, -, -, rfl⟩ := resolveComponent_eq_ok.1 hresolve
    · rw [← Option.some.inj hsome]
      obtain ⟨hone, hhead⟩ | ⟨-, resolution, hget, -, hpick⟩ :=
        (selectCandidate_eq_ok h hreviewed).1 hselected
      · rw [eq_comm, List.head?_eq_none_iff] at hhead
        exact absurd hhead (h.candidates reviewed hreviewed)
      · obtain ⟨hmem, hname⟩ := (get?_resolutionMapOf hnodup).1 hget
        cases hpick with
        | omitted hnone => exact ⟨resolution, hmem, hname, hnone⟩
    · cases hsome
  · intro chosen hchosen
    rw [hcomponents, mem_stableSort] at hchosen
    obtain ⟨choice, hchoice, hsome⟩ := List.mem_filterMap.1 hchosen
    obtain ⟨reviewed, hreviewed, hresolve⟩ := forall₂_mem_right hchoices hchoice
    obtain ⟨-, rfl⟩ | ⟨candidate, source, hselected, hsource, rfl⟩ := resolveComponent_eq_ok.1 hresolve
    · cases hsome
    · rw [← Option.some.inj hsome]
      have hmem := selectCandidate_mem h hreviewed hselected
      obtain ⟨source', hsource', hmodule, hrevision⟩ := h.sources reviewed hreviewed candidate hmem
      rw [hsource, Option.some.injEq] at hsource'
      refine ⟨reviewed, hreviewed, rfl, candidate, hmem, ?_, List.mem_of_getLast? hsource⟩
      rw [← hsource'] at hmodule hrevision
      simp only [resolvedComponent, ← hmodule, ← hrevision]

/-- A value that verifies without the memo verifies with it. -/
theorem memoize_always {value : VerifiedValue} {compute : Verifying Unit} (h : compute.Always ()) :
    (memoize lib value compute).Always () := by
  intro memo
  unfold Stateful.run memoize
  split
  · rfl
  · have hrun := h memo
    cases hcompute : compute.run memo with
    | mk result memo' =>
      rw [hcompute] at hrun
      rw [show result = .ok () from hrun]

theorem ModuleMergeReview.verify_always (h : review.verifyUncached lib = .ok ()) :
    (review.verify lib).Always () :=
  memoize_always (Stateful.always_lift h)

/-- A verified review is resolved as its contents say. -/
theorem run_resolveModuleMerge {memo : Memo} (h : ((review.verify lib).run memo).1 = .ok ()) :
    ((resolveModuleMerge lib review resolutionSet).run memo).1 =
      resolveReviewed lib review resolutionSet := by
  unfold resolveModuleMerge
  rw [Stateful.run_bind]
  cases hrun : (review.verify lib).run memo with
  | mk result memo' =>
    rw [hrun] at h
    rw [show result = .ok () from h]
    rfl

/-- **A resolution covers its review**: a verified review of the shape that `review_module_merge` gives
is resolved exactly by the sets that answer each of its conflicts once, and the plan chooses a reviewed
candidate of every component that no resolution omits. -/
theorem resolveModuleMerge_covers (hlib : Serializes lib) :
    (∀ stateRevision context bindings revisions activation review,
      reviewModuleMergeInternal lib stateRevision context bindings revisions activation = .ok review →
        review.Shaped) ∧
    ∀ review : ModuleMergeReview, review.Shaped → ∀ memo, ((review.verify lib).run memo).1 = .ok () →
      ∀ resolutionSet,
        ((∃ plan, ((resolveModuleMerge lib review resolutionSet).run memo).1 = .ok plan) ↔
          Covers review resolutionSet) ∧
        ∀ plan, ((resolveModuleMerge lib review resolutionSet).run memo).1 = .ok plan →
          Resolves review resolutionSet plan := by
  refine ⟨fun _ _ _ _ _ review hreview => (reviewModuleMergeInternal_shaped hreview).1, ?_⟩
  intro review h memo hverify resolutionSet
  rw [run_resolveModuleMerge hverify]
  refine ⟨⟨?_, fun hcovers => hcovers.resolveReviewed hlib h⟩, fun plan => resolves_of_resolveReviewed h⟩
  intro hok
  obtain ⟨plan, hplan⟩ := hok
  exact covers_of_resolveReviewed h hplan

theorem sampleModuleExternals_serializes : Serializes sampleModuleExternals := by
  intro document
  cases document <;> exact ⟨_, rfl⟩

/-- The first candidate of every conflict. -/
def firstCandidates (review : ModuleMergeReview) : ModuleMergeResolutionSet :=
  ⟨review.reviewSha256, review.conflicts.map fun conflict =>
    ⟨conflict.component, conflict.candidates, conflict.candidates.head?⟩⟩

theorem firstCandidates_covers (h : review.Shaped) : Covers review (firstCandidates review) := by
  have hresolution : ∀ resolution ∈ (firstCandidates review).resolutions, ∀ conflict ∈ review.conflicts,
      conflict.component = resolution.component →
        resolution = ⟨conflict.component, conflict.candidates, conflict.candidates.head?⟩ := by
    intro resolution hr conflict hc hname
    obtain ⟨other, hother, rfl⟩ := List.mem_map.1 hr
    rw [List.inj_on_of_nodup_map h.conflicts_nodup hc hother hname]
  refine ⟨rfl, ?_, fun resolution hr conflict hc hname => ?_, fun resolution hr conflict hc hname => ?_⟩
  · simp [firstCandidates, Function.comp_def]
  · rw [hresolution resolution hr conflict hc hname]
  · rw [hresolution resolution hr conflict hc hname]
    exact fun candidate hcandidate => List.mem_of_head? hcandidate

/-- Two modules that disagree about a book, resolved by the first candidate. -/
theorem resolveModuleMerge_covers_harbor : ∃ review plan,
    reviewModuleMergeInternal sampleModuleExternals 7 harborContext harborBindings harborRevisions [] =
        .ok review ∧
      ((resolveModuleMerge sampleModuleExternals review (firstCandidates review)).run .empty).1 =
        .ok plan ∧
      Covers review (firstCandidates review) ∧ Resolves review (firstCandidates review) plan := by
  obtain ⟨review, hreview, -⟩ := exists_harborReview
  obtain ⟨hshaped, hverified⟩ := reviewModuleMergeInternal_shaped hreview
  obtain ⟨hiff, hresolves⟩ := (resolveModuleMerge_covers sampleModuleExternals_serializes).2 review hshaped
    .empty (ModuleMergeReview.verify_always hverified .empty) (firstCandidates review)
  have hcovers := firstCandidates_covers hshaped
  obtain ⟨plan, hplan⟩ := hiff.2 hcovers
  exact ⟨review, plan, hreview, hplan, hcovers, hresolves plan hplan⟩

/-- A review that was not made by `review_module_merge`: the only candidate of a component has no
source. Its hash is the hash of its contents. -/
def sourcelessReview : ModuleMergeReview where
  reviewSha256 := ⟨"01" ++ String.ofList (List.replicate 62 '0'), by decide +kernel⟩
  stateRevision := 0
  context := harborContext
  activationBindingIds := []
  orderedBindings := []
  ignoredBindings := []
  components := [⟨.asset "lamp", [⟨⟨"tide", "tide-1", repeatedDigest 'a' isLowerHexDigit_a⟩, []⟩]⟩]
  conflicts := []
  importApprovals := []
  effectiveVariableOverrides := ⟨[]⟩

/-- It verifies and the empty set covers it, but it does not resolve. -/
theorem resolveModuleMerge_sourceless :
    ((sourcelessReview.verify sampleModuleExternals).run .empty).1 = .ok () ∧
      ¬ ((∃ plan, ((resolveModuleMerge sampleModuleExternals sourcelessReview
          (firstCandidates sourcelessReview)).run .empty).1 = .ok plan) ↔
        Covers sourcelessReview (firstCandidates sourcelessReview)) := by
  have hverify : ((sourcelessReview.verify sampleModuleExternals).run .empty).1 = .ok () := by
    decide +kernel
  refine ⟨hverify, fun hiff => ?_⟩
  have hcovers : Covers sourcelessReview (firstCandidates sourcelessReview) :=
    ⟨rfl, .nil, fun resolution hr => absurd hr List.not_mem_nil,
      fun resolution hr => absurd hr List.not_mem_nil⟩
  obtain ⟨plan, hplan⟩ := hiff.2 hcovers
  rw [run_resolveModuleMerge hverify] at hplan
  have herror : resolveReviewed sampleModuleExternals sourcelessReview
      (firstCandidates sourcelessReview) =
        .error (.invalidReview "reviewed candidate has no binding source") := rfl
  rw [herror] at hplan
  cases hplan

end LorePia
