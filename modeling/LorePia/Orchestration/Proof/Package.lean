import LorePia.Base.Graph
import LorePia.Orchestration.Package

/-!
# What a package review establishes

A review without a blocker has passed every check of `validate_package_snapshot`. The checks are collected
in `Accepted`, a statement about the canonical snapshot: the observed payloads are the manifest's
(`ObservedOk`), every component and asset has its digest there, ids are distinct, and the search for
dependency cycles found none (`hasDependencyCycle_topological`).
-/

namespace LorePia

open Base

/-! ## Blockers -/

@[simp] theorem hasBlocker_nil : hasBlocker [] = false := rfl

@[simp] theorem hasBlocker_append (a b : List PackageValidationIssue) :
    hasBlocker (a ++ b) = (hasBlocker a || hasBlocker b) := List.any_append

@[simp] theorem hasBlocker_blocker (code target message : String) :
    hasBlocker [blocker code target message] = true := rfl

@[simp] theorem hasBlocker_warning (code target message : String) :
    hasBlocker [warning code target message] = false := rfl

@[simp] theorem hasBlocker_issueIf_blocker {condition : Prop} [Decidable condition]
    (code target message : String) :
    hasBlocker (issueIf condition (blocker code target message)) = decide condition := by
  unfold issueIf
  split <;> simp_all

@[simp] theorem hasBlocker_issueIf_warning {condition : Prop} [Decidable condition]
    (code target message : String) :
    hasBlocker (issueIf condition (warning code target message)) = false := by
  unfold issueIf
  split <;> simp

theorem hasBlocker_flatMap {α : Type} {f : α → List PackageValidationIssue} {l : List α} :
    hasBlocker (l.flatMap f) = false ↔ ∀ a ∈ l, hasBlocker (f a) = false := by
  unfold hasBlocker
  rw [List.any_flatMap, List.any_eq_false]
  simp

@[simp] theorem hasBlocker_validateLogicalPath {path target : String} :
    hasBlocker (validateLogicalPath path target) = isInvalidPath path := by
  simp [validateLogicalPath]

/-! ## Dependency cycles -/

section
variable {dependencies : OrdMap String (List String)}

/-- The dependencies that the search follows. -/
def knownChildren (dependencies : OrdMap String (List String)) (id : String) : List String :=
  ((dependencies.get? id).getD []).filter dependencies.contains

/-- A search that finds no cycle finishes its nodes in topological order. -/
theorem anyChildCycle_topological
    {visit : String → List String → List String → Bool × List String × List String}
    (hvisit : ∀ id visiting complete visiting' complete',
      visit id visiting complete = (false, visiting', complete') →
        Topological (knownChildren dependencies) complete →
          Topological (knownChildren dependencies) complete' ∧ id ∈ complete' ∧
            complete ⊆ complete') :
    ∀ {children visiting complete visiting' complete' : List String},
      anyChildCycle dependencies.contains visit children visiting complete =
        (false, visiting', complete') →
      Topological (knownChildren dependencies) complete →
        Topological (knownChildren dependencies) complete' ∧
          (∀ child ∈ children, dependencies.contains child = true → child ∈ complete') ∧
          complete ⊆ complete'
  | [], visiting, complete, visiting', complete', h, hcomplete => by
    cases h
    exact ⟨hcomplete, by simp, fun _ hid => hid⟩
  | child :: rest, visiting, complete, visiting', complete', h, hcomplete => by
    unfold anyChildCycle at h
    split at h
    · split at h
      · cases h
      · rename_i hchild
        obtain ⟨htopological, hmem, hsub⟩ := hvisit _ _ _ _ _ hchild hcomplete
        obtain ⟨htopological', hrest, hsub'⟩ := anyChildCycle_topological hvisit h htopological
        refine ⟨htopological', fun other hother hknown => ?_, fun _ hid => hsub' (hsub hid)⟩
        obtain rfl | hother := List.mem_cons.1 hother
        · exact hsub' hmem
        · exact hrest other hother hknown
    · rename_i hunknown
      obtain ⟨htopological, hrest, hsub⟩ := anyChildCycle_topological hvisit h hcomplete
      refine ⟨htopological, fun other hother hknown => ?_, hsub⟩
      obtain rfl | hother := List.mem_cons.1 hother
      · exact absurd hknown hunknown
      · exact hrest other hother hknown

theorem hasDependencyCycle_topological : ∀ {fuel : Nat} {id : String}
    {visiting complete visiting' complete' : List String},
    hasDependencyCycle dependencies fuel id visiting complete = (false, visiting', complete') →
      Topological (knownChildren dependencies) complete →
        Topological (knownChildren dependencies) complete' ∧ id ∈ complete' ∧ complete ⊆ complete'
  | 0, _, _, _, _, _, h, _ => by cases h
  | fuel + 1, id, visiting, complete, visiting', complete', h, hcomplete => by
    unfold hasDependencyCycle at h
    split at h
    · rename_i hdone
      cases h
      exact ⟨hcomplete, hdone, fun _ hid => hid⟩
    · split at h
      · cases h
      · split at h
        · cases h
        · rename_i hchildren
          cases h
          obtain ⟨htopological, hmem, hsub⟩ := anyChildCycle_topological
            (fun _ _ _ _ _ h => hasDependencyCycle_topological h) hchildren hcomplete
          refine ⟨.cons (fun child hchild => ?_) htopological, by simp, fun other hother => ?_⟩
          · obtain ⟨hmember, hknown⟩ := List.mem_filter.1 hchild
            exact hmem child hmember hknown
          · exact List.mem_cons_of_mem _ (hsub hother)

/-! The search has enough fuel: each call visits one more node that has dependencies. -/

theorem anyChildCycle_visiting {known : String → Bool}
    {visit : String → List String → List String → Bool × List String × List String}
    (hvisit : ∀ id visiting complete visiting' complete',
      visit id visiting complete = (false, visiting', complete') → visiting' = visiting) :
    ∀ {children visiting complete visiting' complete' : List String},
      anyChildCycle known visit children visiting complete = (false, visiting', complete') →
        visiting' = visiting
  | [], visiting, complete, visiting', complete', h => by
    cases h
    rfl
  | child :: rest, visiting, complete, visiting', complete', h => by
    unfold anyChildCycle at h
    split at h
    · split at h
      · cases h
      · rename_i hchild
        rw [anyChildCycle_visiting hvisit h, hvisit _ _ _ _ _ hchild]
    · exact anyChildCycle_visiting hvisit h

/-- A node without a cycle is not left among the visited ones. -/
theorem hasDependencyCycle_visiting : ∀ {fuel : Nat} {id : String}
    {visiting complete visiting' complete' : List String},
    hasDependencyCycle dependencies fuel id visiting complete = (false, visiting', complete') →
      visiting' = visiting
  | 0, _, _, _, _, _, h => by cases h
  | fuel + 1, id, visiting, complete, visiting', complete', h => by
    unfold hasDependencyCycle at h
    split at h
    · cases h
      rfl
    · split at h
      · cases h
      · split at h
        · cases h
        · rename_i hchildren
          cases h
          rw [anyChildCycle_visiting (fun _ _ _ _ _ h => hasDependencyCycle_visiting h) hchildren]
          exact List.erase_cons_head ..

theorem anyChildCycle_congr {known : String → Bool}
    {visit visit' : String → List String → List String → Bool × List String × List String}
    {visiting : List String} (hsame : ∀ id complete, visit id visiting complete = visit' id visiting complete)
    (hvisit : ∀ id complete visiting' complete',
      visit id visiting complete = (false, visiting', complete') → visiting' = visiting) :
    ∀ (children complete : List String), anyChildCycle known visit children visiting complete =
      anyChildCycle known visit' children visiting complete
  | [], _ => rfl
  | child :: rest, complete => by
    unfold anyChildCycle
    rw [← hsame]
    split
    · cases hresult : visit child visiting complete with
      | mk found state =>
        obtain ⟨visiting', complete'⟩ := state
        cases found with
        | true => rfl
        | false =>
          rw [hvisit _ _ _ _ hresult]
          exact anyChildCycle_congr hsame hvisit rest complete'
    · exact anyChildCycle_congr hsame hvisit rest complete

/-- A visit leaves one node with dependencies fewer to visit. -/
theorem length_unvisited_lt {id : String} {visiting : List String} (hknown : dependencies.contains id = true)
    (hvisiting : id ∉ visiting) :
    (dependencies.keys.filter (· ∉ id :: visiting)).length < (dependencies.keys.filter (· ∉ visiting)).length := by
  have hfilter : dependencies.keys.filter (· ∉ id :: visiting) =
      (dependencies.keys.filter (· ∉ visiting)).filter (· ≠ id) := by
    rw [List.filter_filter]
    refine List.filter_congr fun other _ => ?_
    simp
  rw [hfilter]
  refine List.length_filter_lt_length_iff_exists.2 ⟨id, ?_, by simp⟩
  exact List.mem_filter.2 ⟨OrdMap.mem_keys.2 hknown, by simpa using hvisiting⟩

/-- **The fuel of the search is enough**: more of it changes nothing. -/
theorem hasDependencyCycle_fuel : ∀ {fuel : Nat} {id : String} {visiting complete : List String},
    (dependencies.keys.filter (· ∉ visiting)).length < fuel →
      hasDependencyCycle dependencies fuel id visiting complete =
        hasDependencyCycle dependencies (fuel + 1) id visiting complete
  | 0, _, _, _, h => absurd h (Nat.not_lt_zero _)
  | fuel + 1, id, visiting, complete, h => by
    unfold hasDependencyCycle
    split
    · rfl
    split
    · rfl
    rename_i hvisiting
    have hchildren : anyChildCycle dependencies.contains (hasDependencyCycle dependencies fuel)
        ((dependencies.get? id).getD []) (id :: visiting) complete =
          anyChildCycle dependencies.contains (hasDependencyCycle dependencies (fuel + 1))
            ((dependencies.get? id).getD []) (id :: visiting) complete := by
      by_cases hknown : dependencies.contains id = true
      · have hless : (dependencies.keys.filter (· ∉ id :: visiting)).length < fuel := by
          have hlt := length_unvisited_lt hknown hvisiting
          omega
        exact anyChildCycle_congr (fun other complete => hasDependencyCycle_fuel hless)
          (fun _ _ _ _ h => hasDependencyCycle_visiting h) _ complete
      · have hnone : dependencies.get? id = none := by
          simpa [OrdMap.contains] using hknown
        rw [hnone]
        rfl
    rw [hchildren]

/-- Without a blocker, every component was finished. -/
theorem detectCyclesFrom_topological {fuel : Nat} : ∀ {components : List PackageComponentDescriptor}
    {complete : List String}, hasBlocker (detectCyclesFrom dependencies fuel components complete) = false →
      Topological (knownChildren dependencies) complete →
        ∃ complete', Topological (knownChildren dependencies) complete' ∧ complete ⊆ complete' ∧
          ∀ component ∈ components, component.id ∈ complete'
  | [], complete, _, hcomplete => ⟨complete, hcomplete, fun _ hid => hid, by simp⟩
  | component :: rest, complete, h, hcomplete => by
    simp only [detectCyclesFrom, hasBlocker_append, hasBlocker_issueIf_blocker, Bool.or_eq_false_iff,
      decide_eq_false_iff_not, Bool.not_eq_true] at h
    cases hresult : hasDependencyCycle dependencies fuel component.id [] complete with
    | mk found state =>
      obtain ⟨visiting, complete'⟩ := state
      rw [hresult] at h
      obtain ⟨hfound, h⟩ := h
      rw [show found = false from hfound] at hresult
      obtain ⟨htopological, hmem, hsub⟩ := hasDependencyCycle_topological hresult hcomplete
      obtain ⟨complete'', htopological', hsub', hrest⟩ := detectCyclesFrom_topological h htopological
      refine ⟨complete'', htopological', fun _ hid => hsub' (hsub hid), fun other hother => ?_⟩
      obtain rfl | hother := List.mem_cons.1 hother
      · exact hsub' hmem
      · exact hrest other hother

end

/-! ## Observed payloads -/

/-- Every entry but the manifest is a payload. -/
def ObservedPackageEntry.isPayload (entry : ObservedPackageEntry) : Bool :=
  entry.logicalPath ≠ "manifest.json"

/-- The path, digest and size of an entry. -/
def ObservedPackageEntry.payload (entry : ObservedPackageEntry) : String × Sha256Digest × UInt64 :=
  (entry.logicalPath, entry.sha256, entry.sizeBytes)

/-- The path, digest and size of a content hash. -/
def PackageContentHash.payload (entry : PackageContentHash) : String × Sha256Digest × UInt64 :=
  (entry.logicalPath, entry.sha256, entry.sizeBytes)

/-- The bytes of the observed entries. -/
def observedBytes (entries : List ObservedPackageEntry) : Nat :=
  (entries.map (·.sizeBytes.toNat)).sum

theorem foldl_scanObserved_observed : ∀ (entries : List ObservedPackageEntry) (scan : ObservedScan),
    (entries.foldl scanObserved scan).observed =
      ((entries.filter (·.isPayload)).map (·.payload)).foldl (fun m e => m.insert e.1 e.2) scan.observed
  | [], _ => rfl
  | entry :: rest, scan => by
    rw [List.foldl_cons, foldl_scanObserved_observed rest]
    by_cases hmanifest : entry.logicalPath = "manifest.json"
    · simp [scanObserved, ObservedPackageEntry.isPayload, hmanifest]
    · simp [scanObserved, ObservedPackageEntry.isPayload, ObservedPackageEntry.payload, hmanifest]

theorem scanObserved_total {scan : ObservedScan} {entry : ObservedPackageEntry}
    (h : scan.totalObservedBytes + entry.sizeBytes.toNat ≤ usizeMax) :
    (scanObserved scan entry).totalObservedBytes = scan.totalObservedBytes + entry.sizeBytes.toNat := by
  have hadd : checkedAdd scan.totalObservedBytes entry.sizeBytes.toNat =
      some (scan.totalObservedBytes + entry.sizeBytes.toNat) := if_pos h
  unfold scanObserved
  split <;> simp [hadd]

theorem foldl_scanObserved_total : ∀ {entries : List ObservedPackageEntry} {scan : ObservedScan},
    scan.totalObservedBytes + observedBytes entries ≤ usizeMax →
      (entries.foldl scanObserved scan).totalObservedBytes =
        scan.totalObservedBytes + observedBytes entries
  | [], _, _ => rfl
  | entry :: rest, scan, h => by
    simp only [observedBytes, List.map_cons, List.sum_cons] at h ⊢
    have htotal : (scanObserved scan entry).totalObservedBytes =
        scan.totalObservedBytes + entry.sizeBytes.toNat := scanObserved_total (by omega)
    have hrest : (scanObserved scan entry).totalObservedBytes + observedBytes rest ≤ usizeMax := by
      rw [htotal, observedBytes]
      omega
    rw [List.foldl_cons, foldl_scanObserved_total hrest, htotal, observedBytes]
    omega

theorem scanObserved_contains (scan : ObservedScan) (entry : ObservedPackageEntry) (path : String) :
    (scanObserved scan entry).observed.contains path = false ↔
      scan.observed.contains path = false ∧ (entry.isPayload = true → entry.logicalPath ≠ path) := by
  by_cases hmanifest : entry.logicalPath = "manifest.json"
  · simp [scanObserved, ObservedPackageEntry.isPayload, hmanifest]
  · by_cases hpath : entry.logicalPath = path
    · rw [← hpath]
      simp [scanObserved, ObservedPackageEntry.isPayload, hmanifest, OrdMap.contains]
    · simp [scanObserved, ObservedPackageEntry.isPayload, hmanifest, hpath, OrdMap.contains]

/-- One entry adds no blocker exactly when the total still fits, its path is valid and a payload's path
is new. -/
theorem scanObserved_blocker {scan : ObservedScan} {entry : ObservedPackageEntry} :
    hasBlocker (scanObserved scan entry).issues = false ↔ hasBlocker scan.issues = false ∧
      scan.totalObservedBytes + entry.sizeBytes.toNat ≤ usizeMax ∧
      isInvalidPath entry.logicalPath = false ∧
      (entry.isPayload = true → scan.observed.contains entry.logicalPath = false) := by
  have hadd : checkedAdd scan.totalObservedBytes entry.sizeBytes.toNat = none ↔
      ¬ scan.totalObservedBytes + entry.sizeBytes.toNat ≤ usizeMax := by
    unfold checkedAdd
    split <;> simp_all
  unfold scanObserved
  split
  · rename_i hmanifest
    simp [ObservedPackageEntry.isPayload, hmanifest, hadd]
  · rename_i hmanifest
    simp [ObservedPackageEntry.isPayload, hmanifest, hadd]

/-- The loop adds no blocker exactly when the bytes fit, the paths are valid and no payload's path comes
twice. -/
theorem foldl_scanObserved_blocker : ∀ {entries : List ObservedPackageEntry} {scan : ObservedScan},
    hasBlocker (entries.foldl scanObserved scan).issues = false ↔ hasBlocker scan.issues = false ∧
      (entries ≠ [] → scan.totalObservedBytes + observedBytes entries ≤ usizeMax) ∧
      (∀ entry ∈ entries, isInvalidPath entry.logicalPath = false) ∧
      ((entries.filter (·.isPayload)).map (·.logicalPath)).Nodup ∧
      ∀ entry ∈ entries, entry.isPayload = true → scan.observed.contains entry.logicalPath = false
  | [], scan => by simp
  | entry :: rest, scan => by
    rw [List.foldl_cons, foldl_scanObserved_blocker, scanObserved_blocker]
    simp only [scanObserved_contains, observedBytes, List.map_cons, List.sum_cons, List.forall_mem_cons]
    constructor
    · intro h
      obtain ⟨⟨hissues, hfits, hpath, hnew⟩, htotal, hpaths, hnodup, hrest⟩ := h
      rw [scanObserved_total hfits] at htotal
      refine ⟨hissues, fun _ => ?_, ⟨hpath, hpaths⟩, ?_, hnew, fun other hother hp => (hrest other hother hp).1⟩
      · cases rest with
        | nil => simpa using hfits
        | cons next rest =>
          have := htotal (by simp)
          omega
      · rw [List.filter_cons]
        split
        · rename_i hpayload
          rw [List.map_cons, List.nodup_cons]
          refine ⟨fun hmem => ?_, hnodup⟩
          obtain ⟨other, hother, hsame⟩ := List.mem_map.1 hmem
          rw [List.mem_filter] at hother
          exact (hrest other hother.1 hother.2).2 hpayload hsame.symm
        · exact hnodup
    · intro h
      obtain ⟨hissues, htotal, ⟨hpath, hpaths⟩, hnodup, hnew, hrest⟩ := h
      have htotal := htotal (by simp)
      have hfits : scan.totalObservedBytes + entry.sizeBytes.toNat ≤ usizeMax := by omega
      rw [scanObserved_total hfits]
      rw [List.filter_cons] at hnodup
      refine ⟨⟨hissues, hfits, hpath, hnew⟩, fun _ => by omega, hpaths, ?_, ?_⟩
      · split at hnodup
        · exact (List.nodup_cons.1 hnodup).2
        · exact hnodup
      · intro other hother hp
        refine ⟨hrest other hother hp, fun hpayload hsame => ?_⟩
        rw [if_pos hpayload, List.map_cons, List.nodup_cons] at hnodup
        exact hnodup.1 (hsame ▸ List.mem_map_of_mem (List.mem_filter.2 ⟨hother, hp⟩))

/-- The observed payloads are the manifest's. -/
structure ObservedOk (observed : List ObservedPackageEntry) (hashes : List PackageContentHash)
    (policy : PackageValidationPolicy) : Prop where
  count : observed.length ≤ policy.maxContentHashes
  bytes : observedBytes observed ≤ usizeMax ∧ observedBytes observed ≤ policy.maxTotalObservedBytes.toNat
  paths : ∀ entry ∈ observed, isInvalidPath entry.logicalPath = false
  nodup : ((observed.filter (·.isPayload)).map (·.logicalPath)).Nodup
  payloads : ∀ payload, payload ∈ (observed.filter (·.isPayload)).map (·.payload) ↔
    payload ∈ hashes.map (·.payload)

theorem checkPayload_blocker {observed : OrdMap String (Sha256Digest × UInt64)}
    {entry : String × Sha256Digest × UInt64} :
    hasBlocker (checkPayload observed entry) = false ↔ observed.get? entry.1 = some entry.2 := by
  unfold checkPayload
  cases hget : observed.get? entry.1 with
  | none => simp
  | some actual =>
    by_cases hhash : actual.1 = entry.2.1
    · simp [hhash, Prod.ext_iff]
    · simp [hhash, Prod.ext_iff]

/-- Two maps collected from lists with distinct keys agree exactly when the lists have the same items. -/
theorem checkPayloads_blocker {observed manifest : List (String × Sha256Digest × UInt64)}
    (hobserved : (observed.map (·.1)).Nodup) (hmanifest : (manifest.map (·.1)).Nodup) :
    ((∀ entry ∈ (OrdMap.ofList manifest).entries,
        hasBlocker (checkPayload (.ofList observed) entry) = false) ∧
      ∀ path ∈ (OrdMap.ofList observed).keys, (OrdMap.ofList manifest).contains path = true) ↔
        ∀ payload, payload ∈ observed ↔ payload ∈ manifest := by
  simp only [checkPayload_blocker, OrdMap.mem_keys]
  have hentries : ∀ entry, entry ∈ (OrdMap.ofList manifest).entries ↔ entry ∈ manifest := fun entry => by
    rw [← OrdMap.get?_ofList_eq_some hmanifest, ← OrdMap.mem_entries]
  constructor
  · intro h payload
    obtain ⟨hchecked, hcovered⟩ := h
    constructor
    · intro hmem
      have hget := (OrdMap.get?_ofList_eq_some hobserved).2 hmem
      obtain ⟨value, hvalue⟩ := Option.isSome_iff_exists.1 (hcovered payload.1 (by simp [OrdMap.contains, hget]))
      have hentry := hchecked (payload.1, value) (OrdMap.mem_entries.2 hvalue)
      rw [hget, Option.some.injEq] at hentry
      rw [show payload = (payload.1, value) from Prod.ext rfl hentry]
      exact (OrdMap.get?_ofList_eq_some hmanifest).1 hvalue
    · intro hmem
      exact (OrdMap.get?_ofList_eq_some hobserved).1 (hchecked payload ((hentries payload).2 hmem))
  · intro h
    refine ⟨fun entry hentry => ?_, fun path hpath => ?_⟩
    · exact (OrdMap.get?_ofList_eq_some hobserved).2 ((h entry).2 ((hentries entry).1 hentry))
    · obtain ⟨value, hvalue⟩ := Option.isSome_iff_exists.1 hpath
      have hmem := (h _).1 ((OrdMap.get?_ofList_eq_some hobserved).1 hvalue)
      simp [OrdMap.contains, (OrdMap.get?_ofList_eq_some hmanifest).2 hmem]

/-- **The observed entries are checked exactly**, whatever their order is. -/
theorem validateObservedHashes_blocker {snapshot : PackageInspectionSnapshot}
    {policy : PackageValidationPolicy}
    (hhashes : (snapshot.manifest.contentHashes.map (·.logicalPath)).Nodup) :
    hasBlocker (validateObservedHashes snapshot policy) = false ↔
      ObservedOk snapshot.observedEntries snapshot.manifest.contentHashes policy := by
  have hmanifest : ((snapshot.manifest.contentHashes.map (·.payload)).map (·.1)).Nodup := by
    simpa [List.map_map, Function.comp_def, PackageContentHash.payload] using hhashes
  have hkeys : ∀ entries : List ObservedPackageEntry,
      ((entries.filter (·.isPayload)).map (·.payload)).map (·.1) =
        (entries.filter (·.isPayload)).map (·.logicalPath) := fun entries => by
    rw [List.map_map]
    rfl
  unfold validateObservedHashes
  simp only [hasBlocker_append, Bool.or_eq_false_iff, hasBlocker_issueIf_blocker, decide_eq_false_iff_not,
    not_lt, gt_iff_lt, hasBlocker_flatMap, foldl_scanObserved_blocker, hasBlocker_nil, true_and,
    Bool.not_eq_false, foldl_scanObserved_observed, zero_add]
  constructor
  · intro h
    obtain ⟨⟨⟨⟨hcount, hfits, hpaths, hnodup, -⟩, htotal⟩, hchecked⟩, hcovered⟩ := h
    have hfits' : observedBytes snapshot.observedEntries ≤ usizeMax := by
      cases hempty : snapshot.observedEntries with
      | nil => exact Nat.zero_le _
      | cons entry rest =>
        rw [hempty] at hfits
        exact hfits (by simp)
    rw [foldl_scanObserved_total (by simpa using hfits')] at htotal
    refine ⟨hcount, ⟨hfits', by simpa using htotal⟩, hpaths, hnodup, ?_⟩
    refine (checkPayloads_blocker ?_ hmanifest).1 ⟨hchecked, hcovered⟩
    rwa [hkeys]
  · intro h
    obtain ⟨hchecked, hcovered⟩ := (checkPayloads_blocker ((hkeys _).symm ▸ h.nodup) hmanifest).2 h.payloads
    rw [foldl_scanObserved_total (by simpa using h.bytes.1)]
    exact ⟨⟨⟨⟨h.count, fun _ => h.bytes.1, h.paths, h.nodup, by simp [OrdMap.contains]⟩,
      by simpa using h.bytes.2⟩, hchecked⟩, hcovered⟩

/-! ## Content hashes -/

theorem adjacentEq_cons_cons {κ : Type} [DecidableEq κ] (a b : κ) (l : List κ) :
    adjacentEq (a :: b :: l) = false ↔ a ≠ b ∧ adjacentEq (b :: l) = false := by
  simp [adjacentEq]

/-- The content hashes raise no blocker exactly when each is valid and no path repeats the one before. -/
theorem validateContentHashes_blocker : ∀ {hashes : List PackageContentHash} {previous : Option String},
    hasBlocker (validateContentHashes previous hashes) = false ↔
      (∀ entry ∈ hashes, isInvalidPath entry.logicalPath = false ∧ entry.sizeBytes ≠ 0 ∧
        entry.logicalPath ≠ "manifest.json") ∧
      adjacentEq (previous.toList ++ hashes.map (·.logicalPath)) = false
  | [], previous => by cases previous <;> simp [validateContentHashes, adjacentEq]
  | entry :: rest, previous => by
    unfold validateContentHashes
    simp only [hasBlocker_append, Bool.or_eq_false_iff, hasBlocker_validateLogicalPath,
      hasBlocker_issueIf_blocker, decide_eq_false_iff_not, validateContentHashes_blocker,
      List.forall_mem_cons, Option.toList_some, List.singleton_append, List.map_cons]
    cases previous with
    | none => simp [and_assoc]
    | some path =>
      simp only [Option.toList_some, List.singleton_append, Option.some.injEq, adjacentEq_cons_cons]
      tauto

/-! ## Components -/

/-- What is established of a component. -/
structure ComponentOk (snapshot : PackageInspectionSnapshot) (component : PackageComponentDescriptor) :
    Prop where
  path : isInvalidPath component.logicalPath = false
  hash : (manifestHashMap snapshot.manifest.contentHashes).get? component.logicalPath =
    some component.sha256
  dependencies : ∀ dependency ∈ component.dependencies, dependency ∈ snapshot.components.map (·.id)
  assets : ∀ id ∈ component.assetIds, id ∈ snapshot.assets.map (·.id)
  raw : component.kind = .rawExtension → component.disposition ≠ .importable

theorem checkComponentHash_blocker {map : OrdMap String Sha256Digest}
    {component : PackageComponentDescriptor} :
    hasBlocker (checkComponentHash map component) = false ↔
      map.get? component.logicalPath = some component.sha256 := by
  unfold checkComponentHash
  cases map.get? component.logicalPath <;> simp

theorem checkReferences_blocker {ids references : List String} {component : PackageComponentDescriptor}
    {code target message code' target' message' : String} :
    hasBlocker (checkReferences ids component (blocker code target message)
        (blocker code' target' message') references) = false ↔
      ∀ reference ∈ references, reference ≠ component.id ∧ reference ∈ ids := by
  unfold checkReferences
  rw [hasBlocker_flatMap]
  refine forall₂_congr fun reference _ => ?_
  split <;> simp_all

theorem validateComponent_ok {snapshot : PackageInspectionSnapshot} {component : PackageComponentDescriptor}
    (h : hasBlocker (validateComponent snapshot (manifestHashMap snapshot.manifest.contentHashes)
      (sortedSet (snapshot.assets.map (·.id))) (sortedSet (snapshot.components.map (·.id)))
      component) = false) : ComponentOk snapshot component := by
  unfold validateComponent at h
  simp only [hasBlocker_append, Bool.or_eq_false_iff, hasBlocker_validateLogicalPath,
    checkComponentHash_blocker, checkReferences_blocker, hasBlocker_flatMap, hasBlocker_issueIf_blocker,
    decide_eq_false_iff_not, mem_sortedSet, not_not, not_and, and_assoc] at h
  obtain ⟨-, hpath, hhash, hdependencies, -, -, hassets, -, hraw⟩ := h
  exact ⟨hpath, hhash, fun d hd => (hdependencies d hd).2, hassets, hraw⟩

/-! ## Assets -/

/-- What is established of an asset. -/
structure AssetOk (snapshot : PackageInspectionSnapshot) (asset : AssetDescriptor) : Prop where
  kind : asset.source.kind = .lorepiaPackage
  source : asset.source.sourceSha256 = some snapshot.sourceSha256
  path : ∃ path, asset.source.logicalPath = some path ∧ isInvalidPath path = false ∧
    (manifestHashMap snapshot.manifest.contentHashes).get? path = some asset.sha256

theorem checkAsset_ok {snapshot : PackageInspectionSnapshot} {asset : AssetDescriptor}
    (h : hasBlocker (checkAsset snapshot (manifestHashMap snapshot.manifest.contentHashes) asset) =
      false) : AssetOk snapshot asset := by
  unfold checkAsset at h
  simp only [hasBlocker_append, Bool.or_eq_false_iff, hasBlocker_issueIf_blocker,
    decide_eq_false_iff_not, not_not, and_assoc] at h
  obtain ⟨-, hkind, hsource, -, hpath⟩ := h
  refine ⟨hkind, hsource, ?_⟩
  cases hlogical : asset.source.logicalPath with
  | none => simp [hlogical] at hpath
  | some path =>
    simp only [hlogical, checkAssetPath, hasBlocker_append, Bool.or_eq_false_iff,
      hasBlocker_validateLogicalPath, and_assoc] at hpath
    obtain ⟨hvalid, -, hhash, -⟩ := hpath
    refine ⟨path, rfl, hvalid, ?_⟩
    cases hget : (manifestHashMap snapshot.manifest.contentHashes).get? path with
    | none => simp [hget] at hhash
    | some hash =>
      rw [hget] at hhash
      rw [Option.some.injEq]
      simpa using hhash

/-- The bytes of the assets. -/
def assetBytes (assets : List AssetDescriptor) : Nat := (assets.map (·.sizeBytes.toNat)).sum

theorem foldl_scanAsset {snapshot : PackageInspectionSnapshot} {map : OrdMap String Sha256Digest} :
    ∀ {assets : List AssetDescriptor} {scan : AssetScan},
      hasBlocker (assets.foldl (scanAsset snapshot map) scan).issues = false →
        hasBlocker scan.issues = false ∧
          (assets.foldl (scanAsset snapshot map) scan).totalSize = scan.totalSize + assetBytes assets ∧
          (assets.map (·.id)).Nodup ∧ (∀ asset ∈ assets, asset.id ∉ scan.seenIds) ∧
          ∀ asset ∈ assets, hasBlocker (checkAsset snapshot map asset) = false
  | [], scan, h => by simpa [assetBytes] using h
  | asset :: rest, scan, h => by
    rw [List.foldl_cons] at h ⊢
    obtain ⟨hissues, htotal, hnodup, hnew, hrest⟩ := foldl_scanAsset h
    simp only [scanAsset, hasBlocker_append, Bool.or_eq_false_iff, hasBlocker_issueIf_blocker,
      decide_eq_false_iff_not, and_assoc] at hissues
    obtain ⟨hissues, hseen, -, -, hfits, hasset⟩ := hissues
    obtain ⟨total, hadd⟩ := Option.ne_none_iff_exists'.1 hfits
    have hstep : (scanAsset snapshot map scan asset).totalSize =
        scan.totalSize + asset.sizeBytes.toNat := by
      simp [scanAsset, hadd, (checkedAdd_eq_some.1 hadd).2]
    have hcons : ∀ other ∈ rest, other.id ≠ asset.id ∧ other.id ∉ scan.seenIds := fun other hother => by
      simpa [scanAsset] using hnew other hother
    refine ⟨hissues, ?_, ?_, ?_, ?_⟩
    · rw [htotal, hstep, assetBytes, assetBytes, List.map_cons, List.sum_cons, Nat.add_assoc]
    · rw [List.map_cons, List.nodup_cons]
      refine ⟨fun hmem => ?_, hnodup⟩
      obtain ⟨other, hother, hsame⟩ := List.mem_map.1 hmem
      exact (hcons other hother).1 hsame
    · rw [List.forall_mem_cons]
      exact ⟨hseen, fun other hother => (hcons other hother).2⟩
    · rw [List.forall_mem_cons]
      exact ⟨hasset, hrest⟩

/-! ## The accepted snapshot -/

/-- What a canonical snapshot without a blocker satisfies. -/
structure Accepted (snapshot : PackageInspectionSnapshot) (policy : PackageValidationPolicy) : Prop where
  hashes : ∀ entry ∈ snapshot.manifest.contentHashes, isInvalidPath entry.logicalPath = false ∧
    entry.sizeBytes ≠ 0 ∧ entry.logicalPath ≠ "manifest.json"
  hashPaths : (snapshot.manifest.contentHashes.map (·.logicalPath)).Nodup
  observed : ObservedOk snapshot.observedEntries snapshot.manifest.contentHashes policy
  componentCount : snapshot.components.length ≤ policy.maxComponents
  componentIds : (snapshot.components.map (·.id)).Nodup
  components : ∀ component ∈ snapshot.components, ComponentOk snapshot component
  dependencyCount : min (snapshot.components.map (·.dependencies.length)).sum usizeMax ≤
    policy.maxDependencies
  order : ∃ order, Topological (knownChildren (.ofList (snapshot.components.map fun component =>
    (component.id, component.dependencies)))) order ∧ ∀ component ∈ snapshot.components,
      component.id ∈ order
  assetCount : snapshot.assets.length ≤ policy.maxAssets
  assetIds : (snapshot.assets.map (·.id)).Nodup
  assets : ∀ asset ∈ snapshot.assets, AssetOk snapshot asset
  assetBytes : assetBytes snapshot.assets ≤ policy.maxTotalAssetBytes.toNat

theorem foldl_dependencyCount : ∀ (components : List PackageComponentDescriptor) {count : Nat},
    count ≤ usizeMax → components.foldl (fun count component =>
      min (count + component.dependencies.length) usizeMax) count =
        min (count + (components.map (·.dependencies.length)).sum) usizeMax
  | [], count, h => by simp [h]
  | component :: rest, count, h => by
    rw [List.foldl_cons, foldl_dependencyCount rest (Nat.min_le_right _ _), List.map_cons, List.sum_cons]
    omega

/-- **A canonical snapshot without a blocker is accepted.** -/
theorem accepted_of_not_blocked {snapshot : PackageInspectionSnapshot} {policy : PackageValidationPolicy}
    (hsorted : (snapshot.manifest.contentHashes.map (·.logicalPath)).Pairwise (· ≤ ·))
    (h : hasBlocker (snapshotIssues snapshot policy) = false) : Accepted snapshot policy := by
  simp only [snapshotIssues, hasBlocker_append, Bool.or_eq_false_iff, and_assoc] at h
  obtain ⟨hmanifest, hobserved, hcomponents, hassets, -, -⟩ := h
  simp only [validateManifest, hasBlocker_append, Bool.or_eq_false_iff, and_assoc] at hmanifest
  obtain ⟨-, -, -, -, -, -, -, -, -, -, hhashes, -⟩ := hmanifest
  rw [validateContentHashes_blocker, Option.toList_none, List.nil_append,
    adjacentEq_of_sorted hsorted] at hhashes
  simp only [validateComponents, hasBlocker_append, Bool.or_eq_false_iff, hasBlocker_issueIf_blocker,
    decide_eq_false_iff_not, not_lt, gt_iff_lt, not_not, hasBlocker_flatMap, and_assoc] at hcomponents
  obtain ⟨hcount, hids, heach, hdependencies, hcycles⟩ := hcomponents
  rw [foldl_dependencyCount _ (Nat.zero_le _), Nat.zero_add] at hdependencies
  simp only [validateAssets, hasBlocker_append, Bool.or_eq_false_iff, hasBlocker_issueIf_blocker,
    decide_eq_false_iff_not, not_lt, gt_iff_lt, and_assoc] at hassets
  obtain ⟨hassetCount, hscan, hbytes⟩ := hassets
  obtain ⟨-, htotal, hassetIds, -, heachAsset⟩ := foldl_scanAsset hscan
  rw [htotal, Nat.zero_add] at hbytes
  obtain ⟨order, horder, -, hmem⟩ := detectCyclesFrom_topological hcycles .nil
  exact {
    hashes := hhashes.1
    hashPaths := hhashes.2
    observed := (validateObservedHashes_blocker hhashes.2).1 hobserved
    componentCount := hcount
    componentIds := length_sortedSet.1 (by rwa [List.length_map])
    components := fun component hcomponent => validateComponent_ok (heach component hcomponent)
    dependencyCount := hdependencies
    order := ⟨order, horder, hmem⟩
    assetCount := hassetCount
    assetIds := hassetIds
    assets := fun asset hasset => checkAsset_ok (heachAsset asset hasset)
    assetBytes := hbytes }

end LorePia
