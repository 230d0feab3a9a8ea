import LorePia.Orchestration.PackagePlan
import LorePia.Orchestration.Proof.PackageIntegrity

/-!
# Package plans are self-consistent

`PayloadOk` is what `validate_selected_payload` checks (`validateSelectedPayload_eq_ok`). A plan built from
an accepted review satisfies it: the closure of the selection holds every dependency
(`dependencyClosure_closed`), and counts and sizes of a selection are within those of the package. An
approval only changes which components are enabled, so its payload passes too.
-/

namespace LorePia

open Base

variable {lib : PackageExternals} {policy : PackageValidationPolicy}
  {snapshot : PackageInspectionSnapshot} {review : PackageReview} {request : PackageSelectionRequest}

/-! ## The payload of a plan -/

/-- What the durable check of a plan asks of its payload. -/
structure PayloadOk (components : List PlannedPackageComponent) (assets : List AssetDescriptor)
    (sourceSha256 : Sha256Digest) (requiredCapabilities : List ContentCapability) : Prop where
  nonempty : ¬ (components = [] ∧ assets = [])
  componentCount : components.length ≤ maxPackageComponents
  assetCount : assets.length ≤ maxPackageAssets
  dependencyCount : (components.map (·.component.dependencies.length)).sum ≤ maxPackageDependencies
  componentIds : (components.map (·.component.id)).Nodup
  importable : ∀ component ∈ components, component.component.disposition = .importable
  dependencies : ∀ component ∈ components, ∀ dependency ∈ component.component.dependencies,
    dependency ∈ components.map (·.component.id)
  conflicts : ∀ component ∈ components, ∀ conflict ∈ component.component.conflictsWith,
    conflict ∉ components.map (·.component.id)
  capabilities : sortDedup (components.flatMap (·.component.requiredCapabilities)) = requiredCapabilities
  assetBytes : assetBytes assets ≤ maxPackageTotalAssetBytes.toNat
  assetIds : (assets.map (·.id)).Nodup
  eachAsset : ∀ asset ∈ assets, isHighRiskMediaType asset.mediaType = false ∧
    asset.source.kind = .lorepiaPackage ∧ asset.source.sourceSha256 = some sourceSha256
  componentAssets : ∀ component ∈ components, ∀ id ∈ component.component.assetIds, id ∈ assets.map (·.id)

theorem ensureUnique_eq_ok {duplicate : String → PackageValidationError} {values seen : List String} :
    ensureUnique duplicate values = .ok seen ↔ values.Nodup ∧ seen = values := by
  have hstep : ∀ seen value r, (do
      rejectIf (value ∈ seen) (duplicate value)
      pure (seen ++ [value]) : Packaging (List String)) = .ok r ↔
        True ∧ id value ∉ seen ∧ r = seen ++ [id value] := by
    intro seen value r
    rw [seq_eq_ok, rejectIf_eq_ok, pure_eq_ok, eq_comm (a := r)]
    simp
  unfold ensureUnique
  rw [foldlM_seen_eq_ok hstep]
  simp

theorem checkPlanned_eq_ok {approved : Bool} {components : List PlannedPackageComponent}
    {ids : List String} :
    components.foldlM (checkPlanned approved) [] = .ok ids ↔
      (∀ component ∈ components, component.component.disposition = .importable ∧
        (approved = false → component.enabled = false)) ∧
      (components.map (·.component.id)).Nodup ∧ ids = components.map (·.component.id) := by
  have hstep : ∀ seen component r, checkPlanned approved seen component = .ok r ↔
      (component.component.disposition = .importable ∧ (approved = false → component.enabled = false)) ∧
        component.component.id ∉ seen ∧ r = seen ++ [component.component.id] := by
    intro seen component r
    unfold checkPlanned
    rw [seq_eq_ok, seq_eq_ok, seq_eq_ok, rejectIf_eq_ok, rejectIf_eq_ok, rejectIf_eq_ok, pure_eq_ok,
      eq_comm (a := r), not_not, not_and, Bool.not_eq_true]
    tauto
  rw [foldlM_seen_eq_ok hstep]
  simp

theorem checkPlannedReferences_eq_ok {ids : List String} {component : PlannedPackageComponent} :
    checkPlannedReferences ids component = .ok () ↔
      (∀ dependency ∈ component.component.dependencies, dependency ∈ ids) ∧
        ∀ conflict ∈ component.component.conflictsWith, conflict ∉ ids := by
  unfold checkPlannedReferences
  simp only [seq_eq_ok, rejectIf_eq_ok, not_not, forM_eq_ok, List.filter_eq_nil_iff, decide_eq_true_eq]

theorem maxPackageTotalAssetBytes_le : maxPackageTotalAssetBytes.toNat ≤ usizeMax := by decide

theorem checkPlannedAsset_eq_ok {sourceSha256 : Sha256Digest} {state state' : List AssetId × Nat}
    {asset : AssetDescriptor} :
    checkPlannedAsset sourceSha256 state asset = .ok state' ↔
      state.2 + asset.sizeBytes.toNat ≤ maxPackageTotalAssetBytes.toNat ∧ asset.id ∉ state.1 ∧
        (isHighRiskMediaType asset.mediaType = false ∧ asset.source.kind = .lorepiaPackage ∧
          asset.source.sourceSha256 = some sourceSha256) ∧
        state' = (state.1 ++ [asset.id], state.2 + asset.sizeBytes.toNat) := by
  have hmax := maxPackageTotalAssetBytes_le
  unfold checkPlannedAsset
  simp only [bind_eq_ok, okOr_eq_ok, checkedAdd_eq_some, rejectIf_eq_ok, pure_eq_ok, not_or, not_not,
    Bool.not_eq_true, not_lt, gt_iff_lt]
  constructor
  · intro h
    obtain ⟨_, ⟨-, rfl⟩, _, hle, _, hnew, _, hasset, rfl⟩ := h
    exact ⟨hle, hnew, hasset, rfl⟩
  · intro h
    obtain ⟨hle, hnew, hasset, rfl⟩ := h
    exact ⟨_, ⟨by omega, rfl⟩, (), hle, (), hnew, (), hasset, rfl⟩

theorem foldlM_checkPlannedAsset {sourceSha256 : Sha256Digest} :
    ∀ {assets : List AssetDescriptor} {state state' : List AssetId × Nat},
      state.2 ≤ maxPackageTotalAssetBytes.toNat →
      (assets.foldlM (checkPlannedAsset sourceSha256) state = .ok state' ↔
        state.2 + assetBytes assets ≤ maxPackageTotalAssetBytes.toNat ∧ (assets.map (·.id)).Nodup ∧
          (∀ asset ∈ assets, asset.id ∉ state.1) ∧
          (∀ asset ∈ assets, isHighRiskMediaType asset.mediaType = false ∧
            asset.source.kind = .lorepiaPackage ∧ asset.source.sourceSha256 = some sourceSha256) ∧
          state' = (state.1 ++ assets.map (·.id), state.2 + assetBytes assets))
  | [], state, state', hstate => by
    rw [List.foldlM_nil, pure_eq_ok, eq_comm]
    simp [assetBytes, hstate]
  | asset :: rest, state, state', hstate => by
    rw [List.foldlM_cons, bind_eq_ok]
    simp only [checkPlannedAsset_eq_ok, assetBytes, List.map_cons, List.sum_cons, List.nodup_cons,
      List.forall_mem_cons]
    constructor
    · intro h
      obtain ⟨_, ⟨hle, hnew, hasset, rfl⟩, hrest⟩ := h
      obtain ⟨htotal, hnodup, hseen, hassets, rfl⟩ := (foldlM_checkPlannedAsset hle).1 hrest
      simp only [List.mem_append, List.mem_singleton, not_or] at hseen
      refine ⟨by rw [← Nat.add_assoc]; exact htotal, ⟨?_, hnodup⟩, ⟨hnew, fun other ho => (hseen other ho).1⟩,
        ⟨hasset, hassets⟩, by simp [assetBytes, Nat.add_assoc]⟩
      intro hmem
      obtain ⟨other, ho, hsame⟩ := List.mem_map.1 hmem
      exact (hseen other ho).2 hsame
    · intro h
      obtain ⟨htotal, ⟨hfirst, hnodup⟩, ⟨hnew, hseen⟩, ⟨hasset, hassets⟩, rfl⟩ := h
      have hle : state.2 + asset.sizeBytes.toNat ≤ maxPackageTotalAssetBytes.toNat := by omega
      refine ⟨_, ⟨hle, hnew, hasset, rfl⟩, (foldlM_checkPlannedAsset hle).2 ⟨?_, hnodup, ?_, hassets, ?_⟩⟩
      · rw [assetBytes, Nat.add_assoc]
        exact htotal
      · intro other ho hmem
        obtain hmem | hmem := List.mem_append.1 hmem
        · exact hseen other ho hmem
        · exact hfirst (List.mem_singleton.1 hmem ▸ List.mem_map_of_mem ho)
      · simp [assetBytes, Nat.add_assoc]

theorem missingAsset_eq_ok {component : PlannedPackageComponent} {ids : List AssetId} :
    (forSome (component.component.assetIds.find? (· ∉ ids)) fun missing =>
      (.error (.unknownAsset missing) : Packaging Unit)) = .ok () ↔
        ∀ id ∈ component.component.assetIds, id ∈ ids := by
  cases hfind : component.component.assetIds.find? (· ∉ ids) with
  | none =>
    rw [List.find?_eq_none] at hfind
    simpa [forSome] using hfind
  | some missing =>
    have hmissing : missing ∉ ids := by simpa using List.find?_some hfind
    simp only [forSome, reduceCtorEq, false_iff]
    exact fun h => hmissing (h missing (List.mem_of_find?_eq_some hfind))

theorem maxPackageDependencies_le : maxPackageDependencies ≤ usizeMax := by decide

/-- **The durable check accepts exactly the payloads that are in order.** -/
theorem validateSelectedPayload_eq_ok {components : List PlannedPackageComponent}
    {assets : List AssetDescriptor} {sourceSha256 : Sha256Digest}
    {requiredCapabilities : List ContentCapability} {approved : Bool} :
    validateSelectedPayload components assets sourceSha256 requiredCapabilities approved = .ok () ↔
      PayloadOk components assets sourceSha256 requiredCapabilities ∧
        (approved = false → ∀ component ∈ components, component.enabled = false) := by
  have hmax := maxPackageDependencies_le
  have hcount : ∀ total, components.foldlM (fun total component =>
      checkedAdd total component.component.dependencies.length) 0 = some total ↔
        (components.map (·.component.dependencies.length)).sum ≤ usizeMax ∧
          total = (components.map (·.component.dependencies.length)).sum := fun total => by
    rw [foldlM_checkedAdd (fun component : PlannedPackageComponent =>
      component.component.dependencies.length) (Nat.zero_le _), Nat.zero_add]
  have hassets : ∀ state : List AssetId × Nat,
      assets.foldlM (checkPlannedAsset sourceSha256) ([], 0) = .ok state ↔
        assetBytes assets ≤ maxPackageTotalAssetBytes.toNat ∧ (assets.map (·.id)).Nodup ∧
          (∀ asset ∈ assets, isHighRiskMediaType asset.mediaType = false ∧
            asset.source.kind = .lorepiaPackage ∧ asset.source.sourceSha256 = some sourceSha256) ∧
          state = (assets.map (·.id), assetBytes assets) := fun state => by
    rw [foldlM_checkPlannedAsset (Nat.zero_le _)]
    simp
  unfold validateSelectedPayload
  rw [seq_eq_ok, seq_eq_ok, rejectIf_eq_ok, rejectIf_eq_ok]
  simp only [bind_eq_ok, okOr_eq_ok, hcount, rejectIf_eq_ok, checkPlanned_eq_ok, forM_eq_ok,
    checkPlannedReferences_eq_ok, hassets, missingAsset_eq_ok, not_or, not_lt, not_not, gt_iff_lt]
  constructor
  · intro h
    obtain ⟨hnonempty, ⟨hlength, hlength'⟩, _, ⟨-, rfl⟩, _, hdependencies, _, ⟨heach, hids, rfl⟩, _,
      hreferences, _, hcapabilities, _, ⟨hbytes, hassetIds, heachAsset, rfl⟩, hcomponentAssets⟩ := h
    exact ⟨{
      nonempty := hnonempty
      componentCount := hlength
      assetCount := hlength'
      dependencyCount := hdependencies
      componentIds := hids
      importable := fun component hc => (heach component hc).1
      dependencies := fun component hc => (hreferences component hc).1
      conflicts := fun component hc => (hreferences component hc).2
      capabilities := hcapabilities
      assetBytes := hbytes
      assetIds := hassetIds
      eachAsset := heachAsset
      componentAssets := hcomponentAssets },
      fun happroved component hc => (heach component hc).2 happroved⟩
  · intro h
    obtain ⟨h, henabled⟩ := h
    exact ⟨h.nonempty, ⟨h.componentCount, h.assetCount⟩, _, ⟨h.dependencyCount.trans hmax, rfl⟩, (),
      h.dependencyCount, _, ⟨fun component hc => ⟨h.importable component hc,
        fun happroved => henabled happroved component hc⟩, h.componentIds, rfl⟩, (),
      fun component hc => ⟨h.dependencies component hc, h.conflicts component hc⟩, (), h.capabilities, _,
      ⟨h.assetBytes, h.assetIds, h.eachAsset, rfl⟩, h.componentAssets⟩

/-! ## The closure of a selection -/

/-- The dependencies of the components that are not in the closure yet. -/
def remainingDependencies (entries : List (String × PackageComponentDescriptor)) (closure : List String) :
    Nat :=
  (entries.map fun entry => if entry.1 ∈ closure then 0 else entry.2.dependencies.length).sum

theorem remainingDependencies_cons (entries : List (String × PackageComponentDescriptor))
    (closure : List String) (id : String) :
    remainingDependencies entries (id :: closure) ≤ remainingDependencies entries closure := by
  unfold remainingDependencies
  refine List.sum_le_sum fun entry _ => ?_
  simp only [List.mem_cons]
  split_ifs <;> simp_all

/-- A component that enters the closure gives up its dependencies. -/
theorem remainingDependencies_mem : ∀ {entries : List (String × PackageComponentDescriptor)}
    {closure : List String} {id : String} {component : PackageComponentDescriptor},
    (id, component) ∈ entries → id ∉ closure →
      component.dependencies.length + remainingDependencies entries (id :: closure) ≤
        remainingDependencies entries closure
  | entry :: rest, closure, id, component, hmem, hid => by
    have hle := remainingDependencies_cons rest closure id
    obtain rfl | hmem := List.mem_cons.1 hmem
    · simp only [remainingDependencies, List.map_cons, List.sum_cons] at hle ⊢
      simpa [hid] using hle
    · have ih := remainingDependencies_mem hmem hid
      have hentry : (if entry.1 ∈ id :: closure then 0 else entry.2.dependencies.length) ≤
          if entry.1 ∈ closure then 0 else entry.2.dependencies.length := by
        simp only [List.mem_cons]
        split_ifs <;> simp_all
      simp only [remainingDependencies, List.map_cons, List.sum_cons] at ih ⊢
      omega

/-- The loop from a stack and a closure so far: nothing is lost, and the result is closed. -/
def ClosesFrom (components : OrdMap String PackageComponentDescriptor) (pending closure result : List String) :
    Prop :=
  (∀ id, id ∈ closure ∨ id ∈ pending → id ∈ result) ∧
    ∀ id ∈ result, ∀ component, components.get? id = some component →
      ∀ dependency ∈ component.dependencies, dependency ∈ result

/-- **The closure is closed**: with the fuel of its pushes the loop empties its stack. -/
theorem dependencyClosureFrom_closed {components : OrdMap String PackageComponentDescriptor} :
    ∀ {fuel : Nat} {pending closure : List String},
      pending.length + remainingDependencies components.entries closure < fuel →
      (∀ id ∈ closure, ∀ component, components.get? id = some component →
        ∀ dependency ∈ component.dependencies, dependency ∈ closure ∨ dependency ∈ pending) →
      ClosesFrom components pending closure (dependencyClosureFrom components fuel pending closure)
  | 0, _, _, hfuel, _ => absurd hfuel (Nat.not_lt_zero _)
  | fuel + 1, [], closure, _, hclosed => by
    unfold dependencyClosureFrom
    refine ⟨by simp, fun id hid component hget dependency hd => ?_⟩
    simpa using hclosed id hid component hget dependency hd
  | fuel + 1, id :: pending, closure, hfuel, hclosed => by
    rw [List.length_cons] at hfuel
    unfold dependencyClosureFrom
    by_cases hid : id ∈ closure
    · rw [if_pos hid]
      -- The id was there before: the stack gets shorter.
      have hsame : ∀ other, other ∈ closure ∨ other ∈ id :: pending → other ∈ closure ∨ other ∈ pending := by
        intro other hother
        obtain hother | hother := hother
        · exact .inl hother
        · obtain rfl | hother := List.mem_cons.1 hother
          · exact .inl hid
          · exact .inr hother
      obtain ⟨hsub, hresult⟩ := @dependencyClosureFrom_closed components fuel pending closure (by omega)
        fun other hother component hget dependency hd =>
          hsame dependency (hclosed other hother component hget dependency hd)
      exact ⟨fun other hother => hsub other (hsame other hother), hresult⟩
    · rw [if_neg hid]
      have hmoved : ∀ {added : List String} {other : String}, other ∈ closure ∨ other ∈ id :: pending →
          other ∈ id :: closure ∨ other ∈ added ++ pending := by
        intro added other hother
        obtain hother | hother := hother
        · exact .inl (List.mem_cons_of_mem _ hother)
        · obtain rfl | hother := List.mem_cons.1 hother
          · exact .inl List.mem_cons_self
          · exact .inr (List.mem_append_right _ hother)
      cases hget : components.get? id with
      | none =>
        have hless := remainingDependencies_cons components.entries closure id
        obtain ⟨hsub, hresult⟩ := @dependencyClosureFrom_closed components fuel pending (id :: closure)
          (by omega) fun other hother component hcomponent dependency hd => by
            obtain rfl | hother := List.mem_cons.1 hother
            · rw [hget] at hcomponent
              cases hcomponent
            · exact @hmoved [] _ (hclosed other hother component hcomponent dependency hd)
        exact ⟨fun other hother => hsub other (@hmoved [] _ hother), hresult⟩
      | some added =>
        have hless := remainingDependencies_mem (OrdMap.mem_entries.2 hget) hid
        obtain ⟨hsub, hresult⟩ := @dependencyClosureFrom_closed components fuel
          (added.dependencies.reverse ++ pending) (id :: closure)
          (by rw [List.length_append, List.length_reverse]; omega)
          fun other hother component hcomponent dependency hd => by
            obtain rfl | hother := List.mem_cons.1 hother
            · rw [hget, Option.some.injEq] at hcomponent
              rw [← hcomponent] at hd
              exact .inr (List.mem_append_left _ (List.mem_reverse.2 hd))
            · exact hmoved (hclosed other hother component hcomponent dependency hd)
        exact ⟨fun other hother => hsub other (hmoved hother), hresult⟩

theorem dependencyClosure_closed (roots : List String)
    (components : OrdMap String PackageComponentDescriptor) :
    (∀ id ∈ roots, id ∈ dependencyClosure roots components) ∧
      ∀ id ∈ dependencyClosure roots components, ∀ component, components.get? id = some component →
        ∀ dependency ∈ component.dependencies, dependency ∈ dependencyClosure roots components := by
  have hfuel : roots.reverse.length + remainingDependencies components.entries [] <
      closureFuel roots components := by
    rw [List.length_reverse, closureFuel, remainingDependencies, OrdMap.values, List.map_map]
    simp [Function.comp_def]
  obtain ⟨hsub, hclosed⟩ := dependencyClosureFrom_closed hfuel (by simp)
  exact ⟨fun id hid => hsub id (.inr (List.mem_reverse.2 hid)), hclosed⟩

/-! ## The built plan -/

/-- What a selection that became a plan went through. -/
structure Selected (review : PackageReview) (request : PackageSelectionRequest)
    (requested : List PackageComponentDescriptor) (assets : List AssetDescriptor) : Prop where
  allowed : review.localImportAllowed = true
  nonempty : ¬ (request.componentIds = [] ∧ request.standaloneAssetIds = [])
  unique : request.componentIds.Nodup
  found : List.Forall₂ (fun id component => (componentMap review.components).get? id = some component)
    request.componentIds requested
  importable : ∀ component ∈ requested, component.disposition = .importable
  closed : ∀ id ∈ dependencyClosure request.componentIds (componentMap review.components),
    id ∈ request.componentIds
  conflicts : ∀ component ∈ requested, ∀ conflict ∈ component.conflictsWith,
    conflict ∉ request.componentIds
  foundAssets : List.Forall₂ (fun id asset => selectAsset review id = .ok asset)
    (selectedAssetIds request requested) assets

theorem checkSelection_eq_ok {ids : List String} {requested : List PackageComponentDescriptor} :
    checkSelection review ids requested = .ok () ↔
      (∀ id ∈ dependencyClosure ids (componentMap review.components), id ∈ ids) ∧
        ∀ component ∈ requested, ∀ conflict ∈ component.conflictsWith, conflict ∉ ids := by
  have hempty : ∀ {κ : Type} [LinearOrder κ] {l : List κ},
      (∀ a, (sortedSet l).head? ≠ some a) ↔ l = [] := by
    intro κ _ l
    rw [List.eq_nil_iff_forall_not_mem]
    constructor
    · intro h a ha
      cases hset : sortedSet l with
      | nil =>
        rw [← mem_sortedSet, hset] at ha
        cases ha
      | cons first rest => exact h first (by rw [hset]; rfl)
    · intro h a ha
      exact h a (mem_sortedSet.1 (List.mem_of_head? ha))
  unfold checkSelection
  simp only [seq_eq_ok, rejectIf_eq_ok, not_not, List.filter_eq_nil_iff, decide_eq_true_eq, mem_sortedSet,
    forSome_eq_ok, reduceCtorEq, imp_false, hempty, List.flatMap_eq_nil_iff, List.map_eq_nil_iff]

theorem requestedComponents_eq_ok {ids : List String} {requested : List PackageComponentDescriptor} :
    requestedComponents review ids = .ok requested ↔
      List.Forall₂ (fun id component => (componentMap review.components).get? id = some component)
        ids requested ∧ ∀ component ∈ requested, component.disposition = .importable := by
  unfold requestedComponents
  simp only [bind_eq_ok, mapM_eq_ok, okOr_eq_ok, forM_eq_ok, rejectIf_eq_ok, not_not, pure_eq_ok]
  constructor
  · intro h
    obtain ⟨_, hrequested, _, himportable, rfl⟩ := h
    exact ⟨hrequested, himportable⟩
  · intro h
    exact ⟨requested, h.1, (), h.2, rfl⟩

theorem buildSelectiveImportPlan_eq_ok {plan : SelectiveImportPlan}
    (h : buildSelectiveImportPlan lib review request = .ok plan) :
    ∃ requested selected, Selected review request requested selected ∧
      plan.sourceSha256 = review.sourceSha256 ∧ plan.state = .awaitingApproval ∧
      plan.components = stableSort (fun left right => componentKey left.component ≤
        componentKey right.component) (requested.map fun component => ⟨component, false⟩) ∧
      plan.assets = stableSort (fun left right => left.id ≤ right.id) selected ∧
      plan.requiredCapabilities =
        canonicalCapabilities (plan.components.flatMap (·.component.requiredCapabilities)) ∧
      packageSha256 lib (.plan plan.reviewSha256 plan.sourceSha256 plan.packageId plan.state
        plan.components plan.assets plan.requiredCapabilities plan.redistributionStatus) =
          .ok plan.planSha256 := by
  obtain ⟨-, h⟩ := seq_eq_ok.1 h
  obtain ⟨-, h⟩ := seq_eq_ok.1 h
  obtain ⟨hallowed, h⟩ := seq_eq_ok.1 h
  obtain ⟨hnonempty, h⟩ := seq_eq_ok.1 h
  obtain ⟨_, hunique, h⟩ := bind_eq_ok.1 h
  obtain ⟨_, -, h⟩ := bind_eq_ok.1 h
  obtain ⟨requested, hrequested, h⟩ := bind_eq_ok.1 h
  obtain ⟨hselection, h⟩ := seq_eq_ok.1 h
  obtain ⟨selected, hselected, h⟩ := bind_eq_ok.1 h
  obtain ⟨sha256, hsha256, h⟩ := bind_eq_ok.1 h
  obtain ⟨hrequested, himportable⟩ := requestedComponents_eq_ok.1 hrequested
  obtain ⟨hclosed, hconflicts⟩ := checkSelection_eq_ok.1 hselection
  rw [← pure_eq_ok.1 h]
  refine ⟨requested, selected, ⟨?_, rejectIf_eq_ok.1 hnonempty, (ensureUnique_eq_ok.1 hunique).1,
    hrequested, himportable, hclosed, hconflicts, mapM_eq_ok.1 hselected⟩, rfl, rfl, rfl, rfl, rfl,
    hsha256⟩
  simpa using hallowed

/-- The requested components are distinct components of the review. -/
theorem Selected.components {requested : List PackageComponentDescriptor} {assets : List AssetDescriptor}
    (h : Selected review request requested assets) (hids : (review.components.map (·.id)).Nodup) :
    requested.map (·.id) = request.componentIds ∧ requested ⊆ review.components := by
  have hget : ∀ id component, (componentMap review.components).get? id = some component →
      component ∈ review.components ∧ component.id = id :=
    fun id component hget => (OrdMap.get?_ofList_map_eq_some hids).1 hget
  constructor
  · have hmap := forall₂_map_eq (f := id) (g := PackageComponentDescriptor.id)
      (fun name component h => (hget name component h).2.symm) h.found
    rw [List.map_id] at hmap
    exact hmap.symm
  · intro component hcomponent
    obtain ⟨id, -, hgot⟩ := forall₂_mem_right h.found hcomponent
    exact (hget id component hgot).1

theorem selectAsset_eq_ok {id : AssetId} {asset : AssetDescriptor}
    (hids : (review.assets.map (·.descriptor.id)).Nodup) (h : selectAsset review id = .ok asset) :
    ∃ reviewed ∈ review.assets, reviewed.descriptor = asset ∧ asset.id = id ∧
      reviewed.disposition = .importable := by
  obtain ⟨reviewed, hget, h⟩ := bind_eq_ok.1 h
  obtain ⟨hdisposition, h⟩ := seq_eq_ok.1 h
  rw [rejectIf_eq_ok, not_not] at hdisposition
  obtain ⟨hmem, hid⟩ := (OrdMap.get?_ofList_map_eq_some hids).1 (okOr_eq_ok.1 hget)
  rw [← pure_eq_ok.1 h]
  exact ⟨reviewed, hmem, rfl, hid, hdisposition⟩

/-- The selected assets are distinct assets of the review that may be imported. -/
theorem Selected.assets {requested : List PackageComponentDescriptor} {assets : List AssetDescriptor}
    (h : Selected review request requested assets)
    (hids : (review.assets.map (·.descriptor.id)).Nodup) :
    assets.map (·.id) = selectedAssetIds request requested ∧
      ∀ asset ∈ assets, ∃ reviewed ∈ review.assets, reviewed.descriptor = asset ∧
        reviewed.disposition = .importable := by
  constructor
  · have hmap := forall₂_map_eq (f := id) (g := (·.id)) (fun name asset h => by
      obtain ⟨reviewed, -, -, hid, -⟩ := selectAsset_eq_ok hids h
      exact hid.symm) h.foundAssets
    rw [List.map_id] at hmap
    exact hmap.symm
  · intro asset hasset
    obtain ⟨id, -, hgot⟩ := forall₂_mem_right h.foundAssets hasset
    obtain ⟨reviewed, hmem, hdescriptor, -, hdisposition⟩ := selectAsset_eq_ok hids hgot
    exact ⟨reviewed, hmem, hdescriptor, hdisposition⟩

/-- The limits of a policy do not exceed those of the durable check. -/
structure PolicyWithinLimits (policy : PackageValidationPolicy) : Prop where
  components : policy.maxComponents ≤ maxPackageComponents
  assets : policy.maxAssets ≤ maxPackageAssets
  contentHashes : policy.maxContentHashes ≤ maxPackageContentHashes
  dependencies : policy.maxDependencies ≤ maxPackageDependencies
  sourceBytes : policy.maxSourceBytes ≤ maxPackageSourceBytes
  observedBytes : policy.maxTotalObservedBytes ≤ maxPackageTotalObservedBytes
  assetBytes : policy.maxTotalAssetBytes ≤ maxPackageTotalAssetBytes

theorem policyWithinLimits_default (version : String) : PolicyWithinLimits (.default version) :=
  ⟨le_refl _, le_refl _, le_refl _, le_refl _, UInt64.le_refl _, UInt64.le_refl _, UInt64.le_refl _⟩

/-- Distinct items of a list weigh no more than the list. -/
theorem sum_le_of_subset {α : Type} {l k : List α} (hnodup : l.Nodup) (hsub : l ⊆ k) (weight : α → Nat) :
    (l.map weight).sum ≤ (k.map weight).sum := by
  obtain ⟨l', hperm, hsublist⟩ := List.subperm_of_subset hnodup hsub
  rw [← (hperm.map weight).sum_nat]
  exact (hsublist.map weight).sum_le_sum fun _ _ => Nat.zero_le _

theorem review_fields (h : validatePackageSnapshot lib snapshot policy = .ok review) :
    review.sourceSha256 = (canonicalizeSnapshot snapshot).sourceSha256 ∧
      review.components = (canonicalizeSnapshot snapshot).components ∧
      review.assets = reviewedAssets (canonicalizeSnapshot snapshot) := by
  obtain ⟨sha256, -, h⟩ := bind_eq_ok.1 h
  rw [← pure_eq_ok.1 h]
  exact ⟨rfl, rfl, rfl⟩

/-- A selection of an accepted package has a payload in order. -/
theorem Selected.payloadOk (hpolicy : PolicyWithinLimits policy)
    (hreview : validatePackageSnapshot lib snapshot policy = .ok review)
    {requested : List PackageComponentDescriptor} {assets : List AssetDescriptor}
    (h : Selected review request requested assets) :
    PayloadOk (requested.map fun component => ⟨component, false⟩) assets review.sourceSha256
      (sortDedup (requested.flatMap (·.requiredCapabilities))) := by
  have haccepted := accepted_of_review hreview h.allowed
  obtain ⟨hsource, hcomponents, hassets⟩ := review_fields hreview
  have hreviewed : review.assets.map (·.descriptor) = (canonicalizeSnapshot snapshot).assets := by
    rw [hassets, reviewedAssets, List.map_map]
    exact List.map_id _
  have hreviewedIds : review.assets.map (·.descriptor.id) =
      (canonicalizeSnapshot snapshot).assets.map (·.id) := by
    rw [← hreviewed, List.map_map]
    rfl
  obtain ⟨hids, hsub⟩ := h.components (hcomponents ▸ haccepted.componentIds)
  obtain ⟨hassetIds, heachAsset⟩ := h.assets (hreviewedIds ▸ haccepted.assetIds)
  rw [hcomponents] at hsub
  have hassetSub : assets ⊆ (canonicalizeSnapshot snapshot).assets := by
    intro asset hasset
    obtain ⟨reviewed, hmem, rfl, -⟩ := heachAsset asset hasset
    rw [← hreviewed]
    exact List.mem_map_of_mem hmem
  have hnodup : requested.Nodup := List.Nodup.of_map (·.id) (hids ▸ h.unique)
  have hassetIdsNodup : (assets.map (·.id)).Nodup := hassetIds ▸ sortedSet_nodup _
  have hassetNodup : assets.Nodup := List.Nodup.of_map (·.id) hassetIdsNodup
  have hplannedIds : (requested.map fun component => (⟨component, false⟩ : PlannedPackageComponent)).map
      (·.component.id) = request.componentIds := by
    rw [List.map_map, ← hids]
    rfl
  have hclosure := dependencyClosure_closed request.componentIds (componentMap review.components)
  have hmaxAsset : policy.maxTotalAssetBytes.toNat ≤ maxPackageTotalAssetBytes.toNat :=
    UInt64.le_iff_toNat_le.1 hpolicy.assetBytes
  refine {
    nonempty := fun hempty => h.nonempty ?_
    componentCount := ?_
    assetCount := ?_
    dependencyCount := ?_
    componentIds := hplannedIds ▸ h.unique
    importable := fun planned hplanned => ?_
    dependencies := fun planned hplanned dependency hdependency => ?_
    conflicts := fun planned hplanned conflict hconflict => ?_
    capabilities := by rw [List.flatMap_map]
    assetBytes := ?_
    assetIds := hassetIdsNodup
    eachAsset := fun asset hasset => ?_
    componentAssets := fun planned hplanned id hid => ?_ }
  · obtain ⟨hnone, hnoAssets⟩ := hempty
    rw [List.map_eq_nil_iff] at hnone
    rw [hnone, List.map_nil] at hids
    rw [hnoAssets, List.map_nil, eq_comm, List.eq_nil_iff_forall_not_mem] at hassetIds
    refine ⟨hids.symm, List.eq_nil_iff_forall_not_mem.2 fun id hid => hassetIds id ?_⟩
    exact mem_sortedSet.2 (List.mem_append_left _ hid)
  · rw [List.length_map]
    exact ((List.subperm_of_subset hnodup hsub).length_le.trans haccepted.componentCount).trans
      hpolicy.components
  · exact ((List.subperm_of_subset hassetNodup hassetSub).length_le.trans haccepted.assetCount).trans
      hpolicy.assets
  · have hle := sum_le_of_subset hnodup hsub (·.dependencies.length)
    have hcount := haccepted.dependencyCount.trans hpolicy.dependencies
    have hmax : maxPackageDependencies < usizeMax := by decide
    rw [List.map_map]
    refine hle.trans ?_
    omega
  · obtain ⟨component, hcomponent, rfl⟩ := List.mem_map.1 hplanned
    exact h.importable component hcomponent
  · obtain ⟨component, hcomponent, rfl⟩ := List.mem_map.1 hplanned
    rw [hplannedIds]
    refine h.closed dependency (hclosure.2 component.id ?_ component ?_ dependency hdependency)
    · exact hclosure.1 _ (hids ▸ List.mem_map_of_mem hcomponent)
    · refine (OrdMap.get?_ofList_map_eq_some (hcomponents ▸ haccepted.componentIds)).2 ⟨?_, rfl⟩
      rw [hcomponents]
      exact hsub hcomponent
  · obtain ⟨component, hcomponent, rfl⟩ := List.mem_map.1 hplanned
    rw [hplannedIds]
    exact h.conflicts component hcomponent conflict hconflict
  · exact ((sum_le_of_subset hassetNodup hassetSub (·.sizeBytes.toNat)).trans haccepted.assetBytes).trans
      hmaxAsset
  · obtain ⟨reviewed, hmem, rfl, hdisposition⟩ := heachAsset asset hasset
    have hok := haccepted.assets reviewed.descriptor (hassetSub hasset)
    refine ⟨?_, hok.kind, hsource ▸ hok.source⟩
    rw [hassets, reviewedAssets] at hmem
    obtain ⟨descriptor, -, rfl⟩ := List.mem_map.1 hmem
    cases hrisk : isHighRiskMediaType descriptor.mediaType with
    | false => rfl
    | true => simp [hrisk] at hdisposition
  · obtain ⟨component, hcomponent, rfl⟩ := List.mem_map.1 hplanned
    rw [hassetIds]
    exact mem_sortedSet.2 (List.mem_append_right _ (List.mem_flatMap.2 ⟨component, hcomponent, hid⟩))

/-! ## The plan passes its own check -/

/-- The order of components and assets does not matter. -/
theorem PayloadOk.perm {components components' : List PlannedPackageComponent}
    {assets assets' : List AssetDescriptor} {sourceSha256 : Sha256Digest}
    {requiredCapabilities : List ContentCapability}
    (h : PayloadOk components assets sourceSha256 requiredCapabilities)
    (hcomponents : components'.Perm components) (hassets : assets'.Perm assets) :
    PayloadOk components' assets' sourceSha256 requiredCapabilities := by
  have hids : ∀ id, id ∈ components'.map (·.component.id) ↔ id ∈ components.map (·.component.id) :=
    fun _ => (hcomponents.map _).mem_iff
  refine {
    nonempty := fun hempty => h.nonempty ⟨?_, ?_⟩
    componentCount := hcomponents.length_eq ▸ h.componentCount
    assetCount := hassets.length_eq ▸ h.assetCount
    dependencyCount := (hcomponents.map _).sum_nat ▸ h.dependencyCount
    componentIds := (hcomponents.map _).nodup_iff.2 h.componentIds
    importable := fun component hc => h.importable component (hcomponents.mem_iff.1 hc)
    dependencies := fun component hc dependency hd => (hids _).2
      (h.dependencies component (hcomponents.mem_iff.1 hc) dependency hd)
    conflicts := fun component hc conflict hconflict hmem =>
      h.conflicts component (hcomponents.mem_iff.1 hc) conflict hconflict ((hids _).1 hmem)
    capabilities := (sortDedup_eq_of_perm (hcomponents.flatMap_right _)).trans h.capabilities
    assetBytes := (hassets.map _).sum_nat.le.trans h.assetBytes
    assetIds := (hassets.map _).nodup_iff.2 h.assetIds
    eachAsset := fun asset hasset => h.eachAsset asset (hassets.mem_iff.1 hasset)
    componentAssets := fun component hc id hid => (hassets.map _).mem_iff.2
      (h.componentAssets component (hcomponents.mem_iff.1 hc) id hid) }
  · rw [hempty.1] at hcomponents
    exact hcomponents.nil_eq.symm
  · rw [hempty.2] at hassets
    exact hassets.nil_eq.symm

/-- Which components are enabled does not matter either. -/
theorem PayloadOk.congr {components components' : List PlannedPackageComponent}
    {assets : List AssetDescriptor} {sourceSha256 : Sha256Digest}
    {requiredCapabilities : List ContentCapability}
    (h : PayloadOk components assets sourceSha256 requiredCapabilities)
    (hsame : components'.map (·.component) = components.map (·.component)) :
    PayloadOk components' assets sourceSha256 requiredCapabilities := by
  have hmap : ∀ {β : Type} (f : PackageComponentDescriptor → β),
      components'.map (fun planned => f planned.component) =
        components.map fun planned => f planned.component := by
    intro β f
    have hcomp := congrArg (List.map f) hsame
    rwa [List.map_map, List.map_map] at hcomp
  have hmem : ∀ planned ∈ components', ∃ planned' ∈ components,
      planned'.component = planned.component := fun planned hplanned =>
    List.mem_map.1 (hsame ▸ List.mem_map_of_mem hplanned)
  have hlength : components'.length = components.length := by
    have := congrArg List.length hsame
    rwa [List.length_map, List.length_map] at this
  refine {
    nonempty := fun hempty => h.nonempty ⟨?_, hempty.2⟩
    componentCount := hlength ▸ h.componentCount
    assetCount := h.assetCount
    dependencyCount := hmap (·.dependencies.length) ▸ h.dependencyCount
    componentIds := hmap (·.id) ▸ h.componentIds
    importable := fun planned hplanned => ?_
    dependencies := fun planned hplanned => ?_
    conflicts := fun planned hplanned => ?_
    capabilities := ?_
    assetBytes := h.assetBytes
    assetIds := h.assetIds
    eachAsset := h.eachAsset
    componentAssets := fun planned hplanned => ?_ }
  · rw [hempty.1] at hlength
    exact List.length_eq_zero_iff.1 hlength.symm
  · obtain ⟨planned', hmem', hsame'⟩ := hmem planned hplanned
    exact hsame' ▸ h.importable planned' hmem'
  · obtain ⟨planned', hmem', hsame'⟩ := hmem planned hplanned
    rw [hmap (·.id), ← hsame']
    exact h.dependencies planned' hmem'
  · obtain ⟨planned', hmem', hsame'⟩ := hmem planned hplanned
    rw [hmap (·.id), ← hsame']
    exact h.conflicts planned' hmem'
  · rw [← h.capabilities, List.flatMap_def, List.flatMap_def, hmap (·.requiredCapabilities)]
  · obtain ⟨planned', hmem', hsame'⟩ := hmem planned hplanned
    exact hsame' ▸ h.componentAssets planned' hmem'

theorem planVerify_eq_ok {plan : SelectiveImportPlan} :
    plan.verify lib = .ok () ↔
      (PayloadOk plan.components plan.assets plan.sourceSha256 plan.requiredCapabilities ∧
        ∀ component ∈ plan.components, component.enabled = false) ∧
      plan.state = .awaitingApproval ∧
      packageSha256 lib (.plan plan.reviewSha256 plan.sourceSha256 plan.packageId plan.state
        plan.components plan.assets plan.requiredCapabilities plan.redistributionStatus) =
          .ok plan.planSha256 := by
  unfold SelectiveImportPlan.verify
  rw [seq_eq_ok, seq_eq_ok, validateSelectedPayload_eq_ok, rejectIf_eq_ok, not_not]
  simp only [bind_eq_ok, rejectIf_eq_ok, not_not, forall_const, exists_eq_right]

/-- What a plan promises of its components. -/
structure ConsistentPlan (plan : SelectiveImportPlan) : Prop where
  dependencies : ∀ component ∈ plan.components, ∀ dependency ∈ component.component.dependencies,
    ∃ other ∈ plan.components, other.component.id = dependency
  conflicts : ∀ left ∈ plan.components, ∀ right ∈ plan.components,
    right.component.id ∉ left.component.conflictsWith ∧
      left.component.id ∉ right.component.conflictsWith
  importable : ∀ component ∈ plan.components, component.component.disposition = .importable
  disabled : ∀ component ∈ plan.components, component.enabled = false

theorem consistentPlan_of_verify {plan : SelectiveImportPlan} (h : plan.verify lib = .ok ()) :
    ConsistentPlan plan := by
  obtain ⟨⟨hpayload, hdisabled⟩, -, -⟩ := planVerify_eq_ok.1 h
  have hconflict : ∀ left ∈ plan.components, ∀ right ∈ plan.components,
      right.component.id ∉ left.component.conflictsWith := fun left hleft right hright hconflict =>
    hpayload.conflicts left hleft _ hconflict (List.mem_map_of_mem hright)
  exact {
    dependencies := fun component hc dependency hd =>
      List.mem_map.1 (hpayload.dependencies component hc dependency hd)
    conflicts := fun left hleft right hright =>
      ⟨hconflict left hleft right hright, hconflict right hright left hleft⟩
    importable := hpayload.importable
    disabled := hdisabled }

/-- The plan built from an accepted package passes the durable check. -/
theorem buildSelectiveImportPlan_verify (hpolicy : PolicyWithinLimits policy)
    (hreview : validatePackageSnapshot lib snapshot policy = .ok review) {plan : SelectiveImportPlan}
    (hplan : buildSelectiveImportPlan lib review request = .ok plan) : plan.verify lib = .ok () := by
  obtain ⟨requested, selected, hselected, hsource, hstate, hcomponents, hassets, hcapabilities, hsha256⟩ :=
    buildSelectiveImportPlan_eq_ok hplan
  have hperm : plan.components.Perm (requested.map fun component => ⟨component, false⟩) :=
    hcomponents ▸ stableSort_perm _ _
  have hpayload := (hselected.payloadOk hpolicy hreview).perm hperm (hassets ▸ stableSort_perm _ _)
  refine planVerify_eq_ok.2 ⟨⟨?_, fun component hc => ?_⟩, hstate, hsha256⟩
  · rwa [hsource, hcapabilities, canonicalCapabilities_eq, hpayload.capabilities]
  · obtain ⟨descriptor, -, rfl⟩ := List.mem_map.1 (hperm.mem_iff.1 hc)
    rfl

/-! ## Approval -/

/-- An approval enables its ids and leaves the rest of the plan. -/
structure ApprovesOnly (plan : SelectiveImportPlan) (approval : PackageImportApproval)
    (approved : ApprovedPackageImportPlan) : Prop where
  enabled : ∀ component ∈ approved.components,
    component.enabled = true ↔ component.component.id ∈ approval.enableComponentIds
  covered : ∀ id ∈ approval.enableComponentIds, ∃ component ∈ approved.components,
    component.component.id = id
  components : approved.components.map (·.component) = plan.components.map (·.component)
  originalPlan : approved.originalPlan = plan

theorem approveSelectiveImportPlan_eq_ok {plan : SelectiveImportPlan} {approval : PackageImportApproval}
    {approved : ApprovedPackageImportPlan}
    (h : approveSelectiveImportPlan lib plan approval = .ok approved) :
    approved.verify lib = .ok () ∧ ApprovesOnly plan approval approved := by
  obtain ⟨hverify, h⟩ := seq_eq_ok.1 h
  obtain ⟨hid, h⟩ := seq_eq_ok.1 h
  obtain ⟨-, h⟩ := seq_eq_ok.1 h
  obtain ⟨-, h⟩ := seq_eq_ok.1 h
  obtain ⟨_, -, h⟩ := bind_eq_ok.1 h
  obtain ⟨hknown, h⟩ := seq_eq_ok.1 h
  obtain ⟨sha256, hsha256, h⟩ := bind_eq_ok.1 h
  simp only [forM_eq_ok, rejectIf_eq_ok, not_not] at hknown
  obtain ⟨⟨hpayload, hdisabled⟩, hstate, -⟩ := planVerify_eq_ok.1 hverify
  obtain rfl := pure_eq_ok.1 h
  have hcomponents : (plan.components.map fun component : PlannedPackageComponent =>
      { component with enabled := approval.enableComponentIds.contains component.component.id }).map
        (·.component) = plan.components.map (·.component) := by
    rw [List.map_map]
    rfl
  have horiginal : ApprovedPackageImportPlan.originalPlan ⟨sha256, plan.planSha256, plan.reviewSha256,
      plan.sourceSha256, plan.packageId, .approved, approval.approvalId, approval.targetReviewSha256,
      approval.updateTargetConfirmationsSha256, plan.components.map fun component =>
        { component with enabled := approval.enableComponentIds.contains component.component.id },
      plan.assets, plan.requiredCapabilities, plan.redistributionStatus⟩ = plan := by
    -- disabling every component again gives the components of the plan, which were all disabled
    have hback : (plan.components.map fun component : PlannedPackageComponent =>
        { component with enabled := approval.enableComponentIds.contains component.component.id }).map
          (fun component => { component with enabled := false }) = plan.components := by
      rw [List.map_map]
      refine (List.map_congr_left fun component hc => ?_).trans (List.map_id _)
      simp [← hdisabled component hc]
    unfold ApprovedPackageImportPlan.originalPlan
    rw [hback, ← hstate]
  refine ⟨?_, ?_⟩
  · unfold ApprovedPackageImportPlan.verify
    rw [horiginal, seq_eq_ok, seq_eq_ok, seq_eq_ok, seq_eq_ok, bind_eq_ok]
    refine ⟨rejectIf_eq_ok.2 (not_not.2 rfl), hid, ?_, hverify, sha256, hsha256,
      rejectIf_eq_ok.2 (not_not.2 rfl)⟩
    exact validateSelectedPayload_eq_ok.2 ⟨hpayload.congr hcomponents, by simp⟩
  · refine ⟨fun component hc => ?_, fun id hmem => ?_, hcomponents, horiginal⟩
    · obtain ⟨planned, -, rfl⟩ := List.mem_map.1 hc
      exact List.contains_iff_mem
    · obtain ⟨planned, hplanned, rfl⟩ := List.mem_map.1 (hknown id hmem)
      exact ⟨_, List.mem_map_of_mem hplanned, rfl⟩

/-- **Plans are self-consistent**: the plan of an accepted package passes its durable check and is closed,
free of conflicts, importable and disabled; an approval of it passes its own check and enables exactly the
approved ids. -/
theorem buildSelectiveImportPlan_consistent (hpolicy : PolicyWithinLimits policy)
    (hreview : validatePackageSnapshot lib snapshot policy = .ok review) {plan : SelectiveImportPlan}
    (hplan : buildSelectiveImportPlan lib review request = .ok plan) :
    plan.verify lib = .ok () ∧ ConsistentPlan plan ∧
      ∀ approval approved, approveSelectiveImportPlan lib plan approval = .ok approved →
        approved.verify lib = .ok () ∧ ApprovesOnly plan approval approved := by
  have hverify := buildSelectiveImportPlan_verify hpolicy hreview hplan
  exact ⟨hverify, consistentPlan_of_verify hverify,
    fun approval approved h => approveSelectiveImportPlan_eq_ok h⟩

/-- A request for the book and its preset. -/
def tideRequest (review : PackageReview) : PackageSelectionRequest :=
  ⟨review.reviewSha256, ["b", "p"], []⟩

/-- An approval of the preset. -/
def tideApproval (plan : SelectiveImportPlan) : PackageImportApproval :=
  ⟨"a", plan.reviewSha256, plan.planSha256, packageDigest 'a' isLowerHexDigit_a, packageDigest 'b' isLowerHexDigit_b, ["p"]⟩

theorem exists_tidePlan : ∃ review plan approved,
    validatePackageSnapshot samplePackageExternals tidePackage (.default "1.0.0") = .ok review ∧
      buildSelectiveImportPlan samplePackageExternals review (tideRequest review) = .ok plan ∧
      approveSelectiveImportPlan samplePackageExternals plan (tideApproval plan) = .ok approved := by
  obtain ⟨approved, happroved, -⟩ := exists_ok_of_map
    (x := do
      let review ← validatePackageSnapshot samplePackageExternals tidePackage (.default "1.0.0")
      let plan ← buildSelectiveImportPlan samplePackageExternals review (tideRequest review)
      approveSelectiveImportPlan samplePackageExternals plan (tideApproval plan))
    (f := fun _ => ()) (b := ()) (by decide +kernel)
  obtain ⟨review, hreview, h⟩ := bind_eq_ok.1 happroved
  obtain ⟨plan, hplan, h⟩ := bind_eq_ok.1 h
  exact ⟨review, plan, approved, hreview, hplan, h⟩

/-- The book and its preset are planned, and an approval of the preset enables only the preset. -/
theorem buildSelectiveImportPlan_consistent_tide : ∃ review plan approved,
    buildSelectiveImportPlan samplePackageExternals review (tideRequest review) = .ok plan ∧
      plan.verify samplePackageExternals = .ok () ∧ ConsistentPlan plan ∧
      approved.verify samplePackageExternals = .ok () ∧
      ApprovesOnly plan (tideApproval plan) approved := by
  obtain ⟨review, plan, approved, hreview, hplan, happroved⟩ := exists_tidePlan
  obtain ⟨hverify, hconsistent, happroves⟩ :=
    buildSelectiveImportPlan_consistent (policyWithinLimits_default "1.0.0") hreview hplan
  exact ⟨review, plan, approved, hplan, hverify, hconsistent, happroves _ _ happroved⟩

end LorePia
