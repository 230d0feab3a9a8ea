import LorePia.Orchestration.ModuleRevisions
import LorePia.Orchestration.Proof.ModuleReview

/-!
# Diffs of module revisions

What a diff says about its two revisions. Its component changes turn the hashes of the first revision into
those of the second (`applyComponentChanges_eq`), and the diff the other way has the swapped changes
(`componentChanges_swap`). An empty diff says that the two agree on what the diff compares
(`diff_empty_iff`), which leaves out the contents of the module, the portable runtime and
`imported_components_enabled`; so a diff tells every change that affects the runtime exactly where the
revisions do not differ in these alone (`diffModuleRevisions_faithful_iff`).
-/

namespace LorePia

open Base

/-! ## Changes -/

/-- One change of a component map. -/
def ModuleComponentChange.apply (change : ModuleComponentChange)
    (hashes : OrdMap ModuleComponentRef Sha256Digest) : OrdMap ModuleComponentRef Sha256Digest :=
  match change.nextSha256 with
  | some next => hashes.insert change.component next
  | none => hashes.erase change.component

/-- A component map with every change made. -/
def applyComponentChanges (hashes : OrdMap ModuleComponentRef Sha256Digest)
    (changes : List ModuleComponentChange) : OrdMap ModuleComponentRef Sha256Digest :=
  changes.foldl (fun hashes change => change.apply hashes) hashes

def ModuleComponentChangeKind.swap : ModuleComponentChangeKind → ModuleComponentChangeKind
  | .added => .removed
  | .modified => .modified
  | .removed => .added

/-- The change the other way. -/
def ModuleComponentChange.swap (change : ModuleComponentChange) : ModuleComponentChange :=
  ⟨change.component, change.kind.swap, change.nextSha256, change.previousSha256⟩

def ModuleCapabilityDiff.swap (diff : ModuleCapabilityDiff) : ModuleCapabilityDiff :=
  ⟨diff.removed, diff.added⟩

section Changes

variable {fromHashes toHashes : OrdMap ModuleComponentRef Sha256Digest}

theorem componentChange_component {component : ModuleComponentRef} {change : ModuleComponentChange}
    (h : componentChange fromHashes toHashes component = some change) :
    change.component = component ∧ change.nextSha256 = toHashes.get? component := by
  unfold componentChange at h
  split at h
  · rename_i hnext
    cases h
    exact ⟨rfl, hnext.symm⟩
  · rename_i hnext
    cases h
    exact ⟨rfl, hnext.symm⟩
  · rename_i hnext
    split at h
    · cases h
      exact ⟨rfl, hnext.symm⟩
    · cases h
  · cases h

theorem componentChange_eq_none {component : ModuleComponentRef} :
    componentChange fromHashes toHashes component = none ↔
      fromHashes.get? component = toHashes.get? component := by
  unfold componentChange
  split
  all_goals rename_i hfrom hto
  · simp [hfrom, hto]
  · simp [hfrom, hto]
  · simp [hfrom, hto]
  · simp [hfrom, hto]

theorem ModuleComponentChange.get?_apply (change : ModuleComponentChange)
    (hashes : OrdMap ModuleComponentRef Sha256Digest) (component : ModuleComponentRef) :
    (change.apply hashes).get? component =
      if change.component = component then change.nextSha256 else hashes.get? component := by
  unfold ModuleComponentChange.apply
  split
  · rename_i next hnext
    rw [OrdMap.get?_insert, hnext]
    congr
  · rename_i hnext
    rw [OrdMap.get?_erase, hnext]
    congr

/-- The changes of distinct components, made on a map that agrees with the first one there. -/
theorem get?_applyComponentChanges {components : List ModuleComponentRef} (hnodup : components.Nodup)
    {hashes : OrdMap ModuleComponentRef Sha256Digest}
    (hhashes : ∀ component ∈ components, hashes.get? component = fromHashes.get? component)
    (component : ModuleComponentRef) :
    (applyComponentChanges hashes (components.filterMap (componentChange fromHashes toHashes))).get?
        component =
      if component ∈ components then toHashes.get? component else hashes.get? component := by
  induction components generalizing hashes with
  | nil => simp [applyComponentChanges]
  | cons first rest ih =>
    obtain ⟨hfirst, hnodup⟩ := List.nodup_cons.1 hnodup
    have hrest : ∀ component ∈ rest, hashes.get? component = fromHashes.get? component :=
      fun component hmem => hhashes component (List.mem_cons_of_mem _ hmem)
    cases hchange : componentChange fromHashes toHashes first with
    | none =>
      rw [List.filterMap_cons_none hchange, ih hnodup hrest]
      by_cases hsame : component = first
      · subst hsame
        rw [if_neg hfirst, if_pos List.mem_cons_self, hhashes component List.mem_cons_self,
          componentChange_eq_none.1 hchange]
      · simp [hsame]
    | some change =>
      obtain ⟨hcomponent, hnext⟩ := componentChange_component hchange
      have happlied : ∀ component ∈ rest,
          (change.apply hashes).get? component = fromHashes.get? component := by
        intro component hmem
        rw [change.get?_apply, hcomponent, if_neg (ne_of_mem_of_not_mem hmem hfirst).symm]
        exact hrest component hmem
      have hfold : applyComponentChanges hashes
            ((first :: rest).filterMap (componentChange fromHashes toHashes)) =
          applyComponentChanges (change.apply hashes)
            (rest.filterMap (componentChange fromHashes toHashes)) := by
        rw [List.filterMap_cons_some hchange]
        rfl
      rw [hfold, ih hnodup happlied, change.get?_apply, hcomponent, hnext]
      by_cases hsame : component = first
      · subst hsame
        simp [hfirst]
      · simp [hsame, Ne.symm hsame]

/-- **The changes turn the first map into the second.** -/
theorem applyComponentChanges_eq :
    applyComponentChanges fromHashes (componentChanges fromHashes toHashes) = toHashes := by
  refine OrdMap.ext_get? fun component => ?_
  unfold componentChanges
  rw [get?_applyComponentChanges (sortedSet_nodup _) (fun _ _ => rfl)]
  split
  · rfl
  · rename_i hmem
    rw [mem_sortedSet, List.mem_append, not_or, OrdMap.mem_keys, OrdMap.mem_keys] at hmem
    have hfrom : fromHashes.get? component = none := by simpa [OrdMap.contains] using hmem.1
    have hto : toHashes.get? component = none := by simpa [OrdMap.contains] using hmem.2
    rw [hfrom, hto]

theorem componentChange_swap (component : ModuleComponentRef) :
    componentChange toHashes fromHashes component =
      (componentChange fromHashes toHashes component).map ModuleComponentChange.swap := by
  unfold componentChange
  cases fromHashes.get? component with
  | none => cases toHashes.get? component <;> rfl
  | some previous =>
    cases toHashes.get? component with
    | none => rfl
    | some next =>
      by_cases hsame : previous = next
      · simp [hsame]
      · simp [hsame, Ne.symm hsame, ModuleComponentChange.swap, ModuleComponentChangeKind.swap]

/-- The changes the other way are the swapped ones. -/
theorem componentChanges_swap :
    componentChanges toHashes fromHashes =
      (componentChanges fromHashes toHashes).map ModuleComponentChange.swap := by
  unfold componentChanges
  have hkeys : sortedSet (toHashes.keys ++ fromHashes.keys) =
      sortedSet (fromHashes.keys ++ toHashes.keys) :=
    sortedSet_eq_of_perm List.perm_append_comm
  rw [hkeys, List.map_filterMap]
  exact List.filterMap_congr fun component _ => componentChange_swap component

/-- No change means the same map. -/
theorem componentChanges_eq_nil : componentChanges fromHashes toHashes = [] ↔ fromHashes = toHashes := by
  constructor
  · intro hchanges
    have happlied : applyComponentChanges fromHashes (componentChanges fromHashes toHashes) = toHashes :=
      applyComponentChanges_eq
    rw [hchanges] at happlied
    exact happlied
  · rintro rfl
    rw [componentChanges, List.filterMap_eq_nil_iff]
    exact fun component _ => componentChange_eq_none.2 rfl

end Changes

/-! ## What a diff says -/

theorem diffModuleRevisions_eq_ok {lib : ModuleExternals} {source target : ModuleRevisionSnapshot}
    {diff : ModuleRevisionDiff} :
    diffModuleRevisions lib source target = .ok diff ↔
      (validateRevisionSnapshot lib source = .ok () ∧ validateRevisionSnapshot lib target = .ok ()) ∧
      (source.module.id = target.module.id ∧ source.revision.moduleId = target.revision.moduleId) ∧
      (source.revision.id = target.revision.id → source.eq target = true) ∧
      ∃ fromHashes toHashes sha256, componentHashMap source = .ok fromHashes ∧
        componentHashMap target = .ok toHashes ∧
        canonicalSha256 lib (.diffDigest source.module.id source.revision.id target.revision.id
          source.revision.sourceHash target.revision.sourceHash (componentChanges fromHashes toHashes)
          (capabilityChanges source.module target.module)
          (metadataChangedFields source.module target.module)) = .ok sha256 ∧
        diff = ⟨sha256, source.module.id, source.revision.id, target.revision.id,
          source.revision.sourceHash, target.revision.sourceHash, componentChanges fromHashes toHashes,
          capabilityChanges source.module target.module,
          metadataChangedFields source.module target.module⟩ := by
  unfold diffModuleRevisions
  rw [seq_eq_ok, seq_eq_ok, seq_eq_ok, seq_eq_ok, rejectIf_eq_ok, rejectIf_eq_ok, not_or, not_not, not_not,
    not_and, Bool.not_eq_false, bind_eq_ok]
  constructor
  · rintro ⟨hsource, htarget, hid, hcorrupt, fromHashes, hfrom, h⟩
    obtain ⟨toHashes, hto, h⟩ := bind_eq_ok.1 h
    obtain ⟨sha256, hsha, h⟩ := bind_eq_ok.1 h
    exact ⟨⟨hsource, htarget⟩, hid, hcorrupt, fromHashes, toHashes, sha256, hfrom, hto, hsha,
      (pure_eq_ok.1 h).symm⟩
  · rintro ⟨⟨hsource, htarget⟩, hid, hcorrupt, fromHashes, toHashes, sha256, hfrom, hto, hsha, rfl⟩
    exact ⟨hsource, htarget, hid, hcorrupt, fromHashes, hfrom,
      bind_eq_ok.2 ⟨toHashes, hto, bind_eq_ok.2 ⟨sha256, hsha, rfl⟩⟩⟩

theorem componentHashMap_eq_ok {snapshot : ModuleRevisionSnapshot}
    {hashes : OrdMap ModuleComponentRef Sha256Digest} (h : componentHashMap snapshot = .ok hashes)
    (component : ModuleComponentRef) (sha256 : Sha256Digest) :
    hashes.get? component = some sha256 ↔ ⟨component, sha256⟩ ∈ snapshot.revision.componentHashes := by
  unfold componentHashMap at h
  obtain ⟨sorted, hsorted, h⟩ := bind_eq_ok.1 h
  obtain ⟨hnodup, rfl⟩ := canonicalComponentHashes_eq_ok.1 hsorted
  cases h
  have hperm := stableSort_perm (fun left right : ComponentHash => left.component ≤ right.component)
    snapshot.revision.componentHashes
  rw [OrdMap.get?_ofList_eq_some, List.mem_map]
  · constructor
    · rintro ⟨hash, hmem, hpair⟩
      cases hpair
      exact hperm.mem_iff.1 hmem
    · exact fun hmem => ⟨⟨component, sha256⟩, hperm.mem_iff.2 hmem, rfl⟩
  · rw [List.map_map]
    exact (hperm.map _).nodup_iff.2 hnodup

/-- The two revisions agree on everything that the diff compares. -/
structure SameCompared (source target : ModuleRevisionSnapshot) : Prop where
  hashes : ∀ hash, hash ∈ source.revision.componentHashes ↔ hash ∈ target.revision.componentHashes
  capabilities : ∀ capability,
    capability ∈ source.module.requiredCapabilities ↔ capability ∈ target.module.requiredCapabilities
  name : source.module.name = target.module.name
  version : source.module.version = target.module.version
  schemaVersion : source.module.schemaVersion = target.module.schemaVersion
  metadata : source.module.metadata = target.module.metadata

/-- The fields of a module that the diff does not compare. -/
structure ContentModule.SameUncompared (source target : ContentModule) : Prop where
  promptFragments : listEq PromptBlock.eq source.promptFragments target.promptFragments = true
  knowledgeBookIds : source.knowledgeBookIds = target.knowledgeBookIds
  controlSpecs : listEq ControlSpec.eq source.controlSpecs target.controlSpecs = true
  transformSetIds : source.transformSetIds = target.transformSetIds
  interactionRuleSetIds : source.interactionRuleSetIds = target.interactionRuleSetIds
  assetIds : source.assetIds = target.assetIds
  portableRuntime : source.portableRuntime = target.portableRuntime
  importedComponentsEnabled : source.importedComponentsEnabled = target.importedComponentsEnabled

/-- The fields of a module that affect its runtime behaviour; of the capabilities only the set does. -/
structure ContentModule.SameRuntime (source target : ContentModule) : Prop extends
    source.SameUncompared target where
  schemaVersion : source.schemaVersion = target.schemaVersion
  capabilities : ∀ capability,
    capability ∈ source.requiredCapabilities ↔ capability ∈ target.requiredCapabilities

/-- A diff changes nothing. -/
def ModuleRevisionDiff.IsEmpty (diff : ModuleRevisionDiff) : Prop :=
  diff.componentChanges = [] ∧ diff.capabilityChanges = ⟨[], []⟩ ∧ diff.metadataChangedFields = []

theorem capabilityChanges_eq_nil {source target : ContentModule} :
    capabilityChanges source target = ⟨[], []⟩ ↔ ∀ capability,
      capability ∈ source.requiredCapabilities ↔ capability ∈ target.requiredCapabilities := by
  unfold capabilityChanges
  simp only [ModuleCapabilityDiff.mk.injEq, List.filter_eq_nil_iff, mem_sortedSet, decide_eq_true_eq,
    not_not]
  constructor
  · exact fun h capability => ⟨h.2 capability, h.1 capability⟩
  · exact fun h => ⟨fun capability => (h capability).2, fun capability => (h capability).1⟩

theorem metadataChangedFields_eq_nil {source target : ContentModule} :
    metadataChangedFields source target = [] ↔
      source.name = target.name ∧ source.version = target.version ∧
        source.schemaVersion = target.schemaVersion ∧ source.metadata = target.metadata := by
  simp [metadataChangedFields]

section Diff

variable {lib : ModuleExternals} {source target : ModuleRevisionSnapshot} {diff : ModuleRevisionDiff}

/-- **An empty diff** says that the revisions agree on what it compares. -/
theorem diff_empty_iff (h : diffModuleRevisions lib source target = .ok diff) :
    diff.IsEmpty ↔ SameCompared source target := by
  obtain ⟨-, -, -, fromHashes, toHashes, sha256, hfrom, hto, -, rfl⟩ := diffModuleRevisions_eq_ok.1 h
  have hmaps : fromHashes = toHashes ↔
      ∀ hash, hash ∈ source.revision.componentHashes ↔ hash ∈ target.revision.componentHashes := by
    constructor
    · rintro rfl ⟨component, sha256⟩
      rw [← componentHashMap_eq_ok hfrom, componentHashMap_eq_ok hto]
    · intro hhashes
      refine OrdMap.ext_get? fun component => Option.ext fun sha256 => ?_
      rw [componentHashMap_eq_ok hfrom, componentHashMap_eq_ok hto]
      exact hhashes ⟨component, sha256⟩
  unfold ModuleRevisionDiff.IsEmpty
  rw [componentChanges_eq_nil, hmaps, capabilityChanges_eq_nil, metadataChangedFields_eq_nil]
  constructor
  · rintro ⟨hhashes, hcapabilities, hname, hversion, hschema, hmetadata⟩
    exact ⟨hhashes, hcapabilities, hname, hversion, hschema, hmetadata⟩
  · intro hsame
    exact ⟨hsame.hashes, hsame.capabilities, hsame.name, hsame.version, hsame.schemaVersion,
      hsame.metadata⟩

/-- The diff is faithful and complete. -/
structure DiffFaithful (lib : ModuleExternals) (source target : ModuleRevisionSnapshot)
    (diff : ModuleRevisionDiff) : Prop where
  applied : ∀ fromHashes toHashes, componentHashMap source = .ok fromHashes →
    componentHashMap target = .ok toHashes →
    applyComponentChanges fromHashes diff.componentChanges = toHashes
  swapped : ∀ other, diffModuleRevisions lib target source = .ok other →
    other.componentChanges = diff.componentChanges.map ModuleComponentChange.swap ∧
      other.capabilityChanges = diff.capabilityChanges.swap
  complete : diff.IsEmpty → source.module.SameRuntime target.module

theorem diff_applied (h : diffModuleRevisions lib source target = .ok diff)
    {fromHashes toHashes : OrdMap ModuleComponentRef Sha256Digest}
    (hfrom : componentHashMap source = .ok fromHashes) (hto : componentHashMap target = .ok toHashes) :
    applyComponentChanges fromHashes diff.componentChanges = toHashes := by
  obtain ⟨-, -, -, fromHashes', toHashes', sha256, hfrom', hto', -, rfl⟩ := diffModuleRevisions_eq_ok.1 h
  obtain rfl := Except.ok.inj (hfrom.symm.trans hfrom')
  obtain rfl := Except.ok.inj (hto.symm.trans hto')
  exact applyComponentChanges_eq

theorem diff_swapped (h : diffModuleRevisions lib source target = .ok diff) {other : ModuleRevisionDiff}
    (hother : diffModuleRevisions lib target source = .ok other) :
    other.componentChanges = diff.componentChanges.map ModuleComponentChange.swap ∧
      other.capabilityChanges = diff.capabilityChanges.swap := by
  obtain ⟨-, -, -, fromHashes, toHashes, sha256, hfrom, hto, -, rfl⟩ := diffModuleRevisions_eq_ok.1 h
  obtain ⟨-, -, -, toHashes', fromHashes', sha256', hto', hfrom', -, rfl⟩ :=
    diffModuleRevisions_eq_ok.1 hother
  obtain rfl := Except.ok.inj (hfrom.symm.trans hfrom')
  obtain rfl := Except.ok.inj (hto.symm.trans hto')
  exact ⟨componentChanges_swap, rfl⟩

/-- **A diff is faithful, and complete exactly** where the revisions differ in something that it compares
or agree on the rest. -/
theorem diffModuleRevisions_faithful_iff (h : diffModuleRevisions lib source target = .ok diff) :
    DiffFaithful lib source target diff ↔
      (SameCompared source target → source.module.SameUncompared target.module) := by
  constructor
  · intro hfaithful hsame
    exact (hfaithful.complete ((diff_empty_iff h).2 hsame)).toSameUncompared
  · intro hcovered
    refine ⟨fun _ _ => diff_applied h, fun _ => diff_swapped h, fun hempty => ?_⟩
    have hsame := (diff_empty_iff h).1 hempty
    exact ⟨hcovered hsame, hsame.schemaVersion, hsame.capabilities⟩

end Diff

/-- A runtime with one script. -/
def tideRuntime (script : String) : CharacterRuntimeProfile where
  sourceId := none
  transformSetId := none
  transforms := []
  scripts := [⟨"tide", "Tide", "start", "lua", script, true, .empty⟩]
  requiredCapabilities := none
  backgroundMarkup := ""
  additionalText := ""
  toggleSchema := ""
  initialVariables := .empty
  metadata := .empty

/-- A revision of a module with a transform set and a runtime. -/
def tideRevision (id : ModuleRevisionId) (previous : Option ModuleRevisionId) (enabled : Bool)
    (script : String) : ModuleRevisionSnapshot where
  module :=
    { harborModule "tide" with
      knowledgeBookIds := []
      portableRuntime := some (tideRuntime script)
      importedComponentsEnabled := enabled
      requiredCapabilities := [.portableRuntime] }
  revision :=
    { id := id
      moduleId := "tide"
      version := "1.0.0"
      sourceHash := repeatedDigest 'a' isLowerHexDigit_a
      previousRevisionId := previous
      componentHashes := [⟨.transformSet "quotes", repeatedDigest 'c' isLowerHexDigit_c⟩]
      createdAt := 0 }
  importApproval := none

theorem exists_tideDiff : ∃ diff, diffModuleRevisions sampleModuleExternals
    (tideRevision "tide-1" none false "ebb()") (tideRevision "tide-2" (some "tide-1") true "flow()") =
      .ok diff :=
  exists_ok (by decide +kernel)

/-- The second revision runs another script and its components are enabled. -/
theorem diffModuleRevisions_faithful_iff_tide : ∃ diff, diffModuleRevisions sampleModuleExternals
    (tideRevision "tide-1" none false "ebb()") (tideRevision "tide-2" (some "tide-1") true "flow()") =
      .ok diff ∧
    (DiffFaithful sampleModuleExternals (tideRevision "tide-1" none false "ebb()")
        (tideRevision "tide-2" (some "tide-1") true "flow()") diff ↔
      (SameCompared (tideRevision "tide-1" none false "ebb()")
          (tideRevision "tide-2" (some "tide-1") true "flow()") →
        (tideRevision "tide-1" none false "ebb()").module.SameUncompared
          (tideRevision "tide-2" (some "tide-1") true "flow()").module)) := by
  obtain ⟨diff, hdiff⟩ := exists_tideDiff
  exact ⟨diff, hdiff, diffModuleRevisions_faithful_iff hdiff⟩

/-- Its diff is empty all the same. -/
theorem diffModuleRevisions_misses_runtime : ¬ ∀ (lib : ModuleExternals)
    (source target : ModuleRevisionSnapshot) (diff : ModuleRevisionDiff),
    diffModuleRevisions lib source target = .ok diff → DiffFaithful lib source target diff := by
  intro hclaim
  obtain ⟨diff, hdiff⟩ := exists_tideDiff
  have hsame : SameCompared (tideRevision "tide-1" none false "ebb()")
      (tideRevision "tide-2" (some "tide-1") true "flow()") :=
    ⟨fun _ => Iff.rfl, fun _ => Iff.rfl, rfl, rfl, rfl, rfl⟩
  have hruntime := (hclaim _ _ _ diff hdiff).complete ((diff_empty_iff hdiff).2 hsame)
  exact absurd hruntime.importedComponentsEnabled (by decide)

end LorePia
