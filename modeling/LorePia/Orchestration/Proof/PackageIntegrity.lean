import LorePia.Base.Related
import LorePia.Orchestration.Proof.Package

/-!
# The integrity gate of packages

`Intact` says what a package is when it may be imported: its payloads are exactly those of the manifest,
its paths stay inside it, components and assets have their digests in the manifest, ids are distinct, the
dependencies are closed and acyclic, and no raw extension is importable. A review that allows the import
was made of an intact package, and reordering the lists of such a package gives the same review
(`validatePackageSnapshot_integrity`).
-/

namespace LorePia

open Base

variable {lib : PackageExternals} {policy : PackageValidationPolicy}
  {snapshot snapshot' : PackageInspectionSnapshot}

/-! ## Intact packages -/

/-- A relative path that stays inside the package. -/
structure RelativePath (path : String) : Prop where
  nonempty : path.toList ≠ []
  relative : path.toList.head? ≠ some '/'
  noBackslash : '\\' ∉ path.toList
  noNul : '\x00' ∉ path.toList
  noDrive : hasDrivePrefix path.toList = false
  segments : ∀ segment ∈ path.toList.splitOn '/', segment ≠ [] ∧ segment ≠ ['.'] ∧ segment ≠ ['.', '.']

theorem relativePath_of_valid {path : String} (h : isInvalidPath path = false) : RelativePath path := by
  simp only [isInvalidPath, Bool.or_eq_false_iff, List.isEmpty_eq_false_iff, decide_eq_false_iff_not,
    List.contains_eq_mem, List.any_eq_false, Bool.or_eq_true, decide_eq_true_eq, not_or, and_assoc] at h
  obtain ⟨hempty, -, hslash, -, hbackslash, hnul, hsegments, hdrive⟩ := h
  exact ⟨hempty, hslash, hbackslash, hnul, hdrive, hsegments⟩

/-- A component needs another one. -/
def DependsOn (components : List PackageComponentDescriptor) (id dependency : String) : Prop :=
  ∃ component ∈ components, component.id = id ∧ dependency ∈ component.dependencies

/-- A package whose parts agree. -/
structure Intact (snapshot : PackageInspectionSnapshot) : Prop where
  /-- The observed entries but the manifest and the content hashes are the same map. -/
  payloads : ((snapshot.observedEntries.filter (·.isPayload)).map (·.payload)).Perm
    (snapshot.manifest.contentHashes.map (·.payload))
  observedPaths : ((snapshot.observedEntries.filter (·.isPayload)).map (·.logicalPath)).Nodup
  hashPaths : (snapshot.manifest.contentHashes.map (·.logicalPath)).Nodup
  /-- Every path is relative. -/
  paths : (∀ entry ∈ snapshot.observedEntries, RelativePath entry.logicalPath) ∧
    (∀ entry ∈ snapshot.manifest.contentHashes, RelativePath entry.logicalPath) ∧
    (∀ component ∈ snapshot.components, RelativePath component.logicalPath) ∧
    ∀ asset ∈ snapshot.assets, ∀ path ∈ asset.source.logicalPath, RelativePath path
  /-- Components and assets are covered with their own digest. -/
  components : ∀ component ∈ snapshot.components, ∃ entry ∈ snapshot.manifest.contentHashes,
    entry.logicalPath = component.logicalPath ∧ entry.sha256 = component.sha256
  assets : ∀ asset ∈ snapshot.assets, ∃ entry ∈ snapshot.manifest.contentHashes,
    asset.source.logicalPath = some entry.logicalPath ∧ entry.sha256 = asset.sha256
  componentIds : (snapshot.components.map (·.id)).Nodup
  assetIds : (snapshot.assets.map (·.id)).Nodup
  /-- The dependency graph is closed and acyclic. -/
  closed : ∀ id dependency, DependsOn snapshot.components id dependency →
    dependency ∈ snapshot.components.map (·.id)
  acyclic : ∀ id, ¬ Relation.TransGen (DependsOn snapshot.components) id id
  rawExtensions : ∀ component ∈ snapshot.components, component.kind = .rawExtension →
    component.disposition ≠ .importable

theorem get?_manifestHashMap {hashes : List PackageContentHash}
    (h : (hashes.map (·.logicalPath)).Nodup) {path : String} {sha256 : Sha256Digest} :
    (manifestHashMap hashes).get? path = some sha256 ↔
      ∃ entry ∈ hashes, entry.logicalPath = path ∧ entry.sha256 = sha256 := by
  unfold manifestHashMap
  rw [OrdMap.get?_ofList_eq_some (by simpa [List.map_map, Function.comp_def] using h), List.mem_map]
  simp

/-- The dependencies of distinct components that are all known have no cycle. -/
theorem acyclic_of_topological {components : List PackageComponentDescriptor} {order : List String}
    (hids : (components.map (·.id)).Nodup)
    (hclosed : ∀ id dependency, DependsOn components id dependency → dependency ∈ components.map (·.id))
    (horder : Topological (knownChildren (.ofList (components.map fun component =>
      (component.id, component.dependencies)))) order)
    (hmem : ∀ component ∈ components, component.id ∈ order) (id : String) :
    ¬ Relation.TransGen (DependsOn components) id id := by
  intro hcycle
  have hkeys : ((components.map fun component => (component.id, component.dependencies)).map
      (·.1)).Nodup := by simpa [List.map_map, Function.comp_def] using hids
  have hchild : ∀ a b, DependsOn components a b → b ∈ knownChildren (.ofList (components.map
      fun component => (component.id, component.dependencies))) a := by
    intro a b hab
    have hknown := hclosed a b hab
    obtain ⟨component, hcomponent, rfl, hb⟩ := hab
    obtain ⟨target, htarget, rfl⟩ := List.mem_map.1 hknown
    have hget := (OrdMap.get?_ofList_eq_some hkeys).2 (List.mem_map_of_mem hcomponent)
    have hget' := (OrdMap.get?_ofList_eq_some hkeys).2 (List.mem_map_of_mem htarget)
    unfold knownChildren
    rw [hget, List.mem_filter]
    exact ⟨hb, by simp [OrdMap.contains, hget']⟩
  obtain ⟨child, hfirst, -⟩ := Relation.TransGen.head'_iff.1 hcycle
  obtain ⟨component, hcomponent, rfl, -⟩ := hfirst
  exact horder.acyclic (hmem component hcomponent) (Relation.TransGen.mono hchild _ _ hcycle)

theorem Accepted.intact (h : Accepted snapshot policy) : Intact snapshot := by
  have hclosed : ∀ id dependency, DependsOn snapshot.components id dependency →
      dependency ∈ snapshot.components.map (·.id) := by
    intro id dependency hdepends
    obtain ⟨component, hcomponent, -, hmem⟩ := hdepends
    exact (h.components component hcomponent).dependencies dependency hmem
  have hpayloads : ((snapshot.observedEntries.filter (·.isPayload)).map (·.payload)).Perm
      (snapshot.manifest.contentHashes.map (·.payload)) := by
    refine (List.perm_ext_iff_of_nodup ?_ ?_).2 h.observed.payloads
    · refine List.Nodup.of_map Prod.fst ?_
      rw [List.map_map]
      exact h.observed.nodup
    · refine List.Nodup.of_map Prod.fst ?_
      rw [List.map_map]
      exact h.hashPaths
  obtain ⟨order, horder, hmem⟩ := h.order
  refine {
    payloads := hpayloads
    observedPaths := h.observed.nodup
    hashPaths := h.hashPaths
    paths := ⟨fun entry hentry => relativePath_of_valid (h.observed.paths entry hentry),
      fun entry hentry => relativePath_of_valid (h.hashes entry hentry).1,
      fun component hcomponent => relativePath_of_valid (h.components component hcomponent).path, ?_⟩
    components := fun component hcomponent =>
      (get?_manifestHashMap h.hashPaths).1 (h.components component hcomponent).hash
    assets := ?_
    componentIds := h.componentIds
    assetIds := h.assetIds
    closed := hclosed
    acyclic := acyclic_of_topological h.componentIds hclosed horder hmem
    rawExtensions := fun component hcomponent => (h.components component hcomponent).raw }
  · intro asset hasset path hpath
    obtain ⟨path', hpath', hvalid, -⟩ := (h.assets asset hasset).path
    rw [Option.mem_def, hpath', Option.some.injEq] at hpath
    exact hpath ▸ relativePath_of_valid hvalid
  · intro asset hasset
    obtain ⟨path, hpath, -, hget⟩ := (h.assets asset hasset).path
    obtain ⟨entry, hentry, rfl, hhash⟩ := (get?_manifestHashMap h.hashPaths).1 hget
    exact ⟨entry, hentry, hpath, hhash⟩

/-! ## The canonical order -/

section
variable (snapshot)

theorem canonical_hashes_perm : (canonicalizeSnapshot snapshot).manifest.contentHashes.Perm
    snapshot.manifest.contentHashes := stableSort_perm _ _

theorem canonical_observed_perm : (canonicalizeSnapshot snapshot).observedEntries.Perm
    snapshot.observedEntries := stableSort_perm _ _

theorem canonical_assets_perm : (canonicalizeSnapshot snapshot).assets.Perm snapshot.assets :=
  stableSort_perm _ _

theorem canonical_components_perm : (canonicalizeSnapshot snapshot).components.Perm
    (snapshot.components.map canonicalComponent) := stableSort_perm _ _

theorem canonical_ids_perm : ((canonicalizeSnapshot snapshot).components.map (·.id)).Perm
    (snapshot.components.map (·.id)) := by
  have hperm := (canonical_components_perm snapshot).map (·.id)
  rwa [List.map_map] at hperm

theorem canonical_hashes_sorted :
    ((canonicalizeSnapshot snapshot).manifest.contentHashes.map (·.logicalPath)).Pairwise (· ≤ ·) := by
  rw [List.pairwise_map]
  refine (stableSort_key_pairwise (fun entry : PackageContentHash =>
    toLex (entry.logicalPath, entry.sha256)) snapshot.manifest.contentHashes).imp ?_
  intro a b hle
  obtain hlt | ⟨heq, -⟩ := Prod.Lex.toLex_le_toLex.1 hle
  · exact le_of_lt hlt
  · exact le_of_eq heq

theorem canonical_dependsOn (id dependency : String) :
    DependsOn (canonicalizeSnapshot snapshot).components id dependency ↔
      DependsOn snapshot.components id dependency := by
  unfold DependsOn
  simp only [(canonical_components_perm snapshot).mem_iff, List.mem_map, exists_exists_and_eq_and,
    canonicalComponent, mem_sortDedup]

end

/-- Sorting the lists of a package changes nothing of what it holds. -/
theorem Intact.of_canonical (h : Intact (canonicalizeSnapshot snapshot)) : Intact snapshot := by
  have hobserved := canonical_observed_perm snapshot
  have hhashes := canonical_hashes_perm snapshot
  have hassets := canonical_assets_perm snapshot
  have hcomponent : ∀ component ∈ snapshot.components,
      canonicalComponent component ∈ (canonicalizeSnapshot snapshot).components :=
    fun component hcomponent =>
      (canonical_components_perm snapshot).mem_iff.2 (List.mem_map_of_mem hcomponent)
  have hids := canonical_ids_perm snapshot
  refine {
    payloads := (((hobserved.filter _).map _).symm.trans h.payloads).trans (hhashes.map _)
    observedPaths := ((hobserved.filter _).map _).nodup_iff.1 h.observedPaths
    hashPaths := (hhashes.map _).nodup_iff.1 h.hashPaths
    paths := ⟨fun entry hentry => h.paths.1 entry (hobserved.mem_iff.2 hentry),
      fun entry hentry => h.paths.2.1 entry (hhashes.mem_iff.2 hentry),
      fun component hmem => h.paths.2.2.1 (canonicalComponent component) (hcomponent component hmem),
      fun asset hasset => h.paths.2.2.2 asset (hassets.mem_iff.2 hasset)⟩
    components := fun component hmem => ?_
    assets := fun asset hasset => ?_
    componentIds := hids.nodup_iff.1 h.componentIds
    assetIds := (hassets.map _).nodup_iff.1 h.assetIds
    closed := fun id dependency hdepends => ?_
    acyclic := fun id hcycle => h.acyclic id (Relation.TransGen.mono (fun a b hab => ?_) _ _ hcycle)
    rawExtensions := fun component hmem => h.rawExtensions (canonicalComponent component)
      (hcomponent component hmem) }
  · obtain ⟨entry, hentry, hpath, hhash⟩ := h.components _ (hcomponent component hmem)
    exact ⟨entry, hhashes.mem_iff.1 hentry, hpath, hhash⟩
  · obtain ⟨entry, hentry, hpath, hhash⟩ := h.assets asset (hassets.mem_iff.2 hasset)
    exact ⟨entry, hhashes.mem_iff.1 hentry, hpath, hhash⟩
  · exact hids.mem_iff.1 (h.closed id dependency ((canonical_dependsOn snapshot id dependency).2 hdepends))
  · exact (canonical_dependsOn snapshot a b).2 hab

/-- A review that allows the import is one of an accepted snapshot. -/
theorem accepted_of_review {review : PackageReview}
    (h : validatePackageSnapshot lib snapshot policy = .ok review)
    (hallowed : review.localImportAllowed = true) : Accepted (canonicalizeSnapshot snapshot) policy := by
  obtain ⟨sha256, -, h⟩ := bind_eq_ok.1 h
  rw [← pure_eq_ok.1 h] at hallowed
  refine accepted_of_not_blocked (canonical_hashes_sorted snapshot) ?_
  have hsorted : hasBlocker (sortDedup (snapshotIssues (canonicalizeSnapshot snapshot) policy)) = false := by
    simpa using hallowed
  unfold hasBlocker at hsorted ⊢
  rw [List.any_eq_false] at hsorted ⊢
  exact fun issue hissue => hsorted issue (mem_sortDedup.2 hissue)

/-! ## Reordered packages -/

/-- The same component with its lists in another order. -/
structure SameComponent (a b : PackageComponentDescriptor) : Prop where
  dependencies : a.dependencies.Perm b.dependencies
  conflictsWith : a.conflictsWith.Perm b.conflictsWith
  requiredCapabilities : a.requiredCapabilities.Perm b.requiredCapabilities
  assetIds : a.assetIds.Perm b.assetIds
  rest : { a with
    dependencies := b.dependencies
    conflictsWith := b.conflictsWith
    requiredCapabilities := b.requiredCapabilities
    assetIds := b.assetIds } = b

/-- The same package with its lists in another order. -/
structure SamePackage (snapshot snapshot' : PackageInspectionSnapshot) : Prop where
  components : ∃ components, snapshot.components.Perm components ∧
    List.Forall₂ SameComponent components snapshot'.components
  assets : snapshot.assets.Perm snapshot'.assets
  observedEntries : snapshot.observedEntries.Perm snapshot'.observedEntries
  contentHashes : snapshot.manifest.contentHashes.Perm snapshot'.manifest.contentHashes
  requiredCapabilities : snapshot.manifest.requiredCapabilities.Perm snapshot'.manifest.requiredCapabilities
  rest : { snapshot with
    manifest :=
      { snapshot.manifest with
        requiredCapabilities := snapshot'.manifest.requiredCapabilities
        contentHashes := snapshot'.manifest.contentHashes }
    components := snapshot'.components
    assets := snapshot'.assets
    observedEntries := snapshot'.observedEntries } = snapshot'

/-- `sort_by_key(capability_rank)` is the derived order. -/
theorem canonicalCapabilities_eq (capabilities : List ContentCapability) :
    canonicalCapabilities capabilities = sortDedup capabilities := by
  have hrank : ∀ a b : ContentCapability, (decide (capabilityRank a ≤ capabilityRank b) = true) = (a ≤ b) := by
    intro a b
    rw [decide_eq_true_eq]
    cases a <;> cases b <;> rfl
  unfold canonicalCapabilities sortDedup stableSort
  simp only [hrank]
  congr!

theorem SameComponent.canonical {a b : PackageComponentDescriptor} (h : SameComponent a b) :
    canonicalComponent a = canonicalComponent b := by
  rw [← h.rest]
  unfold canonicalComponent
  rw [sortDedup_eq_of_perm h.dependencies, sortDedup_eq_of_perm h.conflictsWith,
    sortDedup_eq_of_perm h.assetIds, canonicalCapabilities_eq, canonicalCapabilities_eq,
    sortDedup_eq_of_perm h.requiredCapabilities]

theorem SamePackage.canonical_components (h : SamePackage snapshot snapshot') :
    (snapshot.components.map canonicalComponent).Perm (snapshot'.components.map canonicalComponent) := by
  obtain ⟨components, hperm, hsame⟩ := h.components
  refine (hperm.map _).trans ?_
  rw [forall₂_map_eq (fun _ _ h => h.canonical) hsame]

/-- An intact package has one canonical order, but for repeated entries of the manifest file. -/
theorem SamePackage.canonical (h : SamePackage snapshot snapshot') (hintact : Intact snapshot) :
    { canonicalizeSnapshot snapshot with
      observedEntries := (canonicalizeSnapshot snapshot').observedEntries } =
        canonicalizeSnapshot snapshot' := by
  have hhashes := stableSort_key_congr (fun entry : PackageContentHash =>
    toLex (entry.logicalPath, entry.sha256)) h.contentHashes fun a ha b hb hab =>
      List.inj_on_of_nodup_map hintact.hashPaths ha hb (Prod.mk.inj (toLex_inj.1 hab)).1
  have hassets := stableSort_key_congr (fun asset : AssetDescriptor => asset.id) h.assets
    fun a ha b hb hab => List.inj_on_of_nodup_map hintact.assetIds ha hb hab
  have hcomponents := stableSort_key_congr componentKey h.canonical_components fun a ha b hb hab => by
    obtain ⟨component, hcomponent, rfl⟩ := List.mem_map.1 ha
    obtain ⟨component', hcomponent', rfl⟩ := List.mem_map.1 hb
    rw [List.inj_on_of_nodup_map hintact.componentIds hcomponent hcomponent'
      (Prod.mk.inj (toLex_inj.1 hab)).2]
  have hcapabilities := sortDedup_eq_of_perm h.requiredCapabilities
  rw [← canonicalCapabilities_eq, ← canonicalCapabilities_eq] at hcapabilities
  unfold canonicalizeSnapshot
  rw [hhashes, hassets, hcomponents, hcapabilities, PackageInspectionSnapshot.mk.injEq]
  refine ⟨congrArg (·.sourceSha256) h.rest, congrArg (·.sourceSizeBytes) h.rest, ?_,
    congrArg (·.signatureVerification) h.rest, rfl, rfl, rfl⟩
  have hmanifest := congrArg (·.manifest) h.rest
  dsimp only at hmanifest ⊢
  rw [← hmanifest]

/-! ## The same review -/

theorem ObservedOk.perm {observed observed' : List ObservedPackageEntry} {hashes : List PackageContentHash}
    (h : ObservedOk observed hashes policy) (hperm : observed.Perm observed') :
    ObservedOk observed' hashes policy := by
  have hbytes : observedBytes observed' = observedBytes observed := (hperm.map _).sum_nat.symm
  have hpayloads := hperm.filter (·.isPayload)
  exact {
    count := hperm.length_eq ▸ h.count
    bytes := hbytes ▸ h.bytes
    paths := fun entry hentry => h.paths entry (hperm.mem_iff.2 hentry)
    nodup := (hpayloads.map _).nodup_iff.1 h.nodup
    payloads := fun payload => by
      rw [← h.payloads payload]
      exact (hpayloads.map _).mem_iff.symm }

theorem eq_nil_of_blockers {issues : List PackageValidationIssue}
    (hall : ∀ issue ∈ issues, issue.severity = .blocker) (h : hasBlocker issues = false) : issues = [] := by
  refine List.eq_nil_iff_forall_not_mem.2 fun issue hissue => ?_
  have hnot := List.any_eq_false.1 h issue hissue
  simp [hall issue hissue] at hnot

theorem severity_of_issueIf {condition : Prop} [Decidable condition] {issue other : PackageValidationIssue}
    (h : other ∈ issueIf condition issue) : other = issue := by
  unfold issueIf at h
  split at h
  · exact List.mem_singleton.1 h
  · cases h

/-- Every issue of the observed entries is a blocker. -/
theorem validateObservedHashes_all {issue : PackageValidationIssue}
    (h : issue ∈ validateObservedHashes snapshot policy) : issue.severity = .blocker := by
  have hif : ∀ {condition : Prop} [Decidable condition] {code target message : String},
      issue ∈ issueIf condition (blocker code target message) → issue.severity = .blocker :=
    fun hmem => by rw [severity_of_issueIf hmem]; rfl
  have hscan : ∀ (entries : List ObservedPackageEntry),
      issue ∈ (entries.foldl scanObserved ⟨.empty, 0, []⟩).issues → issue.severity = .blocker := by
    intro entries
    refine foldl_inv (I := fun _ (scan : ObservedScan) => issue ∈ scan.issues → issue.severity = .blocker)
      (by simp) ?_
    intro _ entry _ scan _ hscan hmem
    unfold scanObserved at hmem
    split at hmem
    · simp only [List.mem_append] at hmem
      obtain (hmem | hmem) | hmem := hmem
      · exact hscan hmem
      · exact hif hmem
      · exact hif hmem
    · simp only [List.mem_append] at hmem
      obtain ((hmem | hmem) | hmem) | hmem := hmem
      · exact hscan hmem
      · exact hif hmem
      · exact hif hmem
      · exact hif hmem
  unfold validateObservedHashes at h
  simp only [List.mem_append, List.mem_flatMap] at h
  obtain (((h | h) | h) | ⟨entry, -, h⟩) | ⟨path, -, h⟩ := h
  · exact hif h
  · exact hscan _ h
  · exact hif h
  · unfold checkPayload at h
    split at h
    · rw [List.mem_singleton.1 h]
      rfl
    · split at h
      · rw [List.mem_singleton.1 h]
        rfl
      · exact hif h
  · exact hif h

/-- The entry of a path that only one entry has is found in any order. -/
theorem find?_perm {observed observed' : List ObservedPackageEntry} (hperm : observed.Perm observed')
    {path : String}
    (hunique : ∀ a ∈ observed, ∀ b ∈ observed, a.logicalPath = path → b.logicalPath = path → a = b) :
    observed.find? (fun entry => entry.logicalPath = path) =
      observed'.find? (fun entry => entry.logicalPath = path) := by
  cases hfind : observed.find? (fun entry => entry.logicalPath = path) with
  | none =>
    rw [List.find?_eq_none] at hfind
    exact (List.find?_eq_none.2 fun entry hentry => hfind entry (hperm.mem_iff.2 hentry)).symm
  | some entry =>
    have hmem := List.mem_of_find?_eq_some hfind
    have hpath : entry.logicalPath = path := by simpa using List.find?_some hfind
    obtain ⟨other, hother⟩ : ∃ other, observed'.find? (fun entry => entry.logicalPath = path) = some other := by
      rw [← Option.isSome_iff_exists, List.find?_isSome]
      exact ⟨entry, hperm.mem_iff.1 hmem, by simpa using hpath⟩
    rw [hother, hunique entry hmem other (hperm.mem_iff.2 (List.mem_of_find?_eq_some hother)) hpath
      (by simpa using List.find?_some hother)]

theorem checkAsset_observed (h : Accepted snapshot policy) {observed : List ObservedPackageEntry}
    (hperm : snapshot.observedEntries.Perm observed) {asset : AssetDescriptor}
    (hasset : asset ∈ snapshot.assets) (map : OrdMap String Sha256Digest) :
    checkAsset { snapshot with observedEntries := observed } map asset = checkAsset snapshot map asset := by
  obtain ⟨path, hpath, -, hget⟩ := (h.assets asset hasset).path
  obtain ⟨entry, hentry, rfl, -⟩ := (get?_manifestHashMap h.hashPaths).1 hget
  -- A hashed path is not the manifest's, so at most one entry has it.
  have hmanifest := (h.hashes entry hentry).2.2
  have hunique : ∀ a ∈ snapshot.observedEntries, ∀ b ∈ snapshot.observedEntries,
      a.logicalPath = entry.logicalPath → b.logicalPath = entry.logicalPath → a = b :=
    fun a ha b hb hpa hpb => List.inj_on_of_nodup_map h.observed.nodup
      (List.mem_filter.2 ⟨ha, by simpa [ObservedPackageEntry.isPayload, hpa] using hmanifest⟩)
      (List.mem_filter.2 ⟨hb, by simpa [ObservedPackageEntry.isPayload, hpb] using hmanifest⟩)
      (hpa.trans hpb.symm)
  have hfind := find?_perm hperm hunique
  unfold checkAsset checkAssetPath
  simp only [hpath, hfind]

/-- Only the order of the observed entries changes: the issues stay. -/
theorem snapshotIssues_observed (h : Accepted snapshot policy) {observed : List ObservedPackageEntry}
    (hperm : snapshot.observedEntries.Perm observed) :
    snapshotIssues { snapshot with observedEntries := observed } policy = snapshotIssues snapshot policy := by
  have hobserved : ∀ entries, ObservedOk entries snapshot.manifest.contentHashes policy →
      validateObservedHashes { snapshot with observedEntries := entries } policy = [] := by
    intro entries hok
    refine eq_nil_of_blockers (fun issue hissue => validateObservedHashes_all hissue) ?_
    exact (@validateObservedHashes_blocker { snapshot with observedEntries := entries } _ h.hashPaths).2 hok
  have hassets : validateAssets { snapshot with observedEntries := observed } policy =
      validateAssets snapshot policy := by
    have hscan : snapshot.assets.foldl (scanAsset { snapshot with observedEntries := observed }
        (manifestHashMap snapshot.manifest.contentHashes)) ⟨[], 0, []⟩ =
          snapshot.assets.foldl (scanAsset snapshot (manifestHashMap snapshot.manifest.contentHashes))
            ⟨[], 0, []⟩ := by
      refine List.foldl_ext _ _ _ fun scan asset hasset => ?_
      unfold scanAsset
      rw [checkAsset_observed h hperm hasset]
    unfold validateAssets
    rw [hscan]
  have hsame := hobserved snapshot.observedEntries h.observed
  unfold snapshotIssues
  rw [hassets, hobserved observed (h.observed.perm hperm), show validateObservedHashes snapshot policy = []
    from hsame]
  rfl

/-- **The integrity gate**: a review that allows the import is one of an intact package, and every
reordering of it has the same review. -/
theorem validatePackageSnapshot_integrity {review : PackageReview}
    (h : validatePackageSnapshot lib snapshot policy = .ok review)
    (hallowed : review.localImportAllowed = true) :
    Intact snapshot ∧ ∀ snapshot', SamePackage snapshot snapshot' →
      validatePackageSnapshot lib snapshot' policy = .ok review := by
  have haccepted := accepted_of_review h hallowed
  have hintact := haccepted.intact.of_canonical
  refine ⟨hintact, fun snapshot' hsame => ?_⟩
  have hcanonical := hsame.canonical hintact
  have hperm : (canonicalizeSnapshot snapshot).observedEntries.Perm
      (canonicalizeSnapshot snapshot').observedEntries :=
    ((canonical_observed_perm snapshot).trans hsame.observedEntries).trans
      (canonical_observed_perm snapshot').symm
  unfold validatePackageSnapshot reviewCanonical at h ⊢
  rw [← hcanonical, snapshotIssues_observed haccepted hperm]
  exact h

/-! ## A small package -/

/-- The digest of one repeated digit. -/
def packageDigest (c : Char) (h : isLowerHexDigit c = true) : Sha256Digest :=
  ⟨String.ofList (List.replicate sha256HexLength c), repeated_canonical h⟩

/-- A serializer that writes the kind of a document, and a digest of the first bytes. -/
def samplePackageExternals : PackageExternals where
  sha256 bytes := Vector.ofFn fun i => bytes.getD i 0
  toVec
    | .review .. => .ok [1]
    | .plan .. => .ok [2]
    | .approval .. => .ok [3]

/-- A book that needs a preset. -/
def bookComponent : PackageComponentDescriptor where
  id := "b"
  kind := .knowledgeBook
  logicalPath := "b"
  sha256 := packageDigest 'b' isLowerHexDigit_b
  dependencies := ["p"]
  conflictsWith := []
  requiredCapabilities := [.knowledge]
  assetIds := []
  disposition := .importable

def presetComponent : PackageComponentDescriptor where
  id := "p"
  kind := .promptPreset
  logicalPath := "p"
  sha256 := packageDigest 'c' isLowerHexDigit_c
  dependencies := []
  conflictsWith := []
  requiredCapabilities := []
  assetIds := []
  disposition := .importable

def tideManifest : PackageManifest where
  format := lorepiaPackageFormat
  formatVersion := 1
  packageId := "t"
  name := "T"
  version := "1"
  author := some "K"
  license := "MIT"
  redistributionAllowed := true
  requiredAppVersion := none
  requiredCapabilities := [.knowledge]
  contentHashes := [⟨"p", packageDigest 'c' isLowerHexDigit_c, 1⟩, ⟨"b", packageDigest 'b' isLowerHexDigit_b, 2⟩]
  signature := none
  provenance := ⟨.importedPackage, some "t", some (packageDigest 'a' isLowerHexDigit_a).value, some "K", some "MIT", some 0⟩

def tidePackage : PackageInspectionSnapshot where
  sourceSha256 := packageDigest 'a' isLowerHexDigit_a
  sourceSizeBytes := 10
  manifest := tideManifest
  signatureVerification := .absent
  components := [bookComponent, presetComponent]
  assets := []
  observedEntries := [⟨"b", packageDigest 'b' isLowerHexDigit_b, 2⟩, ⟨"p", packageDigest 'c' isLowerHexDigit_c, 1⟩]

theorem exists_tideReview : ∃ review, validatePackageSnapshot samplePackageExternals tidePackage
    (.default "1.0.0") = .ok review ∧ review.localImportAllowed = true := by
  obtain ⟨review, hreview, hallowed⟩ := exists_ok_of_map
    (x := validatePackageSnapshot samplePackageExternals tidePackage (.default "1.0.0"))
    (f := (·.localImportAllowed)) (b := true) (by decide +kernel)
  exact ⟨review, hreview, hallowed⟩

/-- The package with its lists in the other order. -/
def tidePackage' : PackageInspectionSnapshot :=
  { tidePackage with
    manifest := { tideManifest with contentHashes := tideManifest.contentHashes.reverse }
    components := tidePackage.components.reverse
    observedEntries := tidePackage.observedEntries.reverse }

theorem SameComponent.refl (component : PackageComponentDescriptor) : SameComponent component component :=
  ⟨.refl _, .refl _, .refl _, .refl _, rfl⟩

/-- Both orders give the review of an intact package. -/
theorem validatePackageSnapshot_integrity_tide : ∃ review,
    validatePackageSnapshot samplePackageExternals tidePackage (.default "1.0.0") = .ok review ∧
      Intact tidePackage ∧
      validatePackageSnapshot samplePackageExternals tidePackage' (.default "1.0.0") = .ok review := by
  obtain ⟨review, hreview, hallowed⟩ := exists_tideReview
  obtain ⟨hintact, hsame⟩ := validatePackageSnapshot_integrity hreview hallowed
  refine ⟨review, hreview, hintact, hsame tidePackage' ?_⟩
  exact {
    components := ⟨tidePackage.components.reverse, (List.reverse_perm _).symm,
      .cons (.refl _) (.cons (.refl _) .nil)⟩
    assets := .refl _
    observedEntries := (List.reverse_perm _).symm
    contentHashes := (List.reverse_perm _).symm
    requiredCapabilities := .refl _
    rest := rfl }

end LorePia
