import LorePia.Base.Related
import LorePia.Base.Utf8Bytes
import LorePia.Content.Package

/-!
# Imported content is inert

What a prepared document may be is `Inert`, a predicate on the document alone; `ImportedFrom` relates it to the
document as the package has it. Every kind of component is prepared so (`prepareComponent_imported`), and the
records of the transformations are the flags of the documents as they were (`flags`). The envelopes that pass
`validate_prepared_document_envelopes` are told by the invariant of its loop.
-/

namespace LorePia.ContentPackage

open Base

/-! ## Documents -/

/-- A flag that makes a set or a rule live. -/
structure Flag where
  objectId : String
  field : String
  value : Bool
deriving DecidableEq

namespace PreparedContentDocument

/-- All provenances of a document. -/
def provenances : PreparedContentDocument → List Provenance
  | .promptPreset preset => preset.metadata.provenance :: preset.blocks.map (·.provenance)
  | .knowledgeBook book => book.provenance :: book.entries.map (·.provenance)
  | .memoryProfile profile => [profile.provenance]
  | .transformSet set => set.provenance :: set.rules.map (·.provenance)
  | .interactionRuleSet set => set.provenance :: set.rules.map (·.provenance)
  | .contentModule m => m.metadata.provenance :: m.promptFragments.map (·.provenance)

/-- The prompt fragments of a module. -/
def moduleFragments : PreparedContentDocument → List PromptBlock
  | .contentModule m => m.promptFragments
  | _ => []

/-- All prompt blocks of a document. -/
def promptBlocks : PreparedContentDocument → List PromptBlock
  | .promptPreset preset => preset.blocks
  | document => document.moduleFragments

/-- All flags of a document, in order. -/
def flags : PreparedContentDocument → List Flag
  | .transformSet set => ⟨set.id, "enabled", set.enabled⟩ :: set.rules.flatMap fun rule =>
      [⟨rule.id, "enabled", rule.enabled⟩, ⟨rule.id, "imported_enabled", rule.importedEnabled⟩]
  | .interactionRuleSet set => set.rules.map fun rule => ⟨rule.id, "enabled", rule.enabled⟩
  | _ => []

/-- What the author enabled. -/
def enabledFlags : PreparedContentDocument → List Bool
  | .transformSet set => set.enabled :: set.rules.map (·.enabled)
  | .interactionRuleSet set => set.rules.map (·.enabled)
  | _ => []

/-- What is kept of the author's flags. -/
def authorFlags : PreparedContentDocument → List Bool
  | .transformSet set => set.importedAuthorEnabled :: set.rules.map (·.importedAuthorEnabled)
  | .interactionRuleSet set => set.rules.map (·.importedAuthorEnabled)
  | _ => []

end PreparedContentDocument

/-- A fragment that reads nothing of the live conversation and stands in no protected zone. -/
structure ConversationFree (block : PromptBlock) : Prop where
  notLatestUser : block.source ≠ .latestUser
  notHistory : block.source ≠ .history
  kind : block.kind ≠ .latestUserTurn
  notPolicy : block.placementZone ≠ .applicationPolicy
  notUserZone : block.placementZone ≠ .latestUser

/-- A document without authority and without anything live. -/
structure Inert (packageProvenance : Provenance) (document : PreparedContentDocument) : Prop where
  provenance : ∀ provenance ∈ document.provenances, provenance = packageProvenance
  authority : ∀ block ∈ document.promptBlocks, block.authority = .importedContent
  disabled : ∀ flag ∈ document.flags, flag.value = false
  fragments : ∀ block ∈ document.moduleFragments, ConversationFree block

/-- The prepared document comes from the other, whose author's flags it keeps. -/
structure ImportedFrom (packageProvenance : Provenance) (decoded prepared : PreparedContentDocument) : Prop where
  identity : preparedDocumentIdentity prepared = preparedDocumentIdentity decoded
  authors : prepared.authorFlags = decoded.enabledFlags
  inert : Inert packageProvenance prepared

/-! ## Modules -/

/-- A fragment that the normalisation leaves as it is. -/
structure Normal (block : PromptBlock) : Prop where
  authority : block.authority = .importedContent
  free : ConversationFree block
  template : block.source = .template → block.template.isNone = false

theorem inertSource_eq_ok {index : Nat} {block inert : PromptBlock} (h : inertSource index block = .ok inert) :
    inert.source ≠ .latestUser ∧ inert.source ≠ .history ∧ (block.kind ≠ .latestUserTurn → inert.kind ≠ .latestUserTurn) ∧
      inert.authority = block.authority ∧ inert.provenance = block.provenance := by
  unfold inertSource at h
  split at h
  · obtain ⟨-, h⟩ := seq_eq_ok.1 h
    cases h
    refine ⟨fun heq => ?_, fun heq => ?_, fun _ heq => ?_, rfl, rfl⟩ <;> cases heq
  · rename_i hlive
    cases h
    exact ⟨fun h => hlive (.inl h), fun h => hlive (.inr h), id, rfl, rfl⟩

theorem inertZone_free (zone : PlacementZone) :
    inertZone zone ≠ .applicationPolicy ∧ inertZone zone ≠ .latestUser := by
  cases zone <;> decide

theorem normalizeFragment_eq_ok {index : Nat} {block normalized : PromptBlock}
    (h : normalizeFragment index block = .ok normalized) :
    Normal normalized ∧ normalized.provenance = block.provenance := by
  obtain ⟨hkind, h⟩ := seq_eq_ok.1 h
  obtain ⟨inert, hinert, h⟩ := bind_eq_ok.1 h
  obtain ⟨htemplate, h⟩ := seq_eq_ok.1 h
  cases h
  obtain ⟨huser, hhistory, hturn, hauthority, hprovenance⟩ := inertSource_eq_ok hinert
  obtain ⟨hpolicy, hzone⟩ := inertZone_free inert.placementZone
  refine ⟨⟨hauthority, ⟨huser, hhistory, hturn (rejectIf_eq_ok.1 hkind), hpolicy, hzone⟩, fun hsource => ?_⟩, hprovenance⟩
  exact Bool.not_eq_true _ ▸ fun hnone => rejectIf_eq_ok.1 htemplate ⟨hsource, hnone⟩

theorem Normal.unchanged {block : PromptBlock} (h : Normal block) (index : Nat) :
    normalizeFragment index block = .ok block := by
  have hauthority : ({ block with authority := .importedContent } : PromptBlock) = block := by
    rw [← h.authority]
  have hzone : inertZone block.placementZone = block.placementZone := by
    rw [inertZone, if_neg]
    rintro (hzone | hzone)
    · exact h.free.notPolicy hzone
    · exact h.free.notUserZone hzone
  have hsource : inertSource index block = .ok block := by
    rw [inertSource, if_neg]
    · rfl
    · rintro (hsource | hsource)
      · exact h.free.notLatestUser hsource
      · exact h.free.notHistory hsource
  unfold normalizeFragment
  rw [hauthority, hsource]
  refine seq_eq_ok.2 ⟨rejectIf_eq_ok.2 h.free.kind, bind_eq_ok.2 ⟨block, rfl, ?_⟩⟩
  rw [hzone]
  refine seq_eq_ok.2 ⟨rejectIf_eq_ok.2 fun ⟨hsource, hnone⟩ => ?_, rfl⟩
  exact absurd ((h.template hsource).symm.trans hnone) (by decide)

theorem normalizeFragments_eq_ok : ∀ {blocks normalized : List PromptBlock} {index : Nat},
    normalizeFragments index blocks = .ok normalized →
    List.Forall₂ (fun block normal => Normal normal ∧ normal.provenance = block.provenance) blocks normalized
  | [], normalized, index, h => by
    cases h
    exact .nil
  | block :: blocks, normalized, index, h => by
    obtain ⟨head, hhead, h⟩ := bind_eq_ok.1 h
    obtain ⟨rest, hrest, h⟩ := bind_eq_ok.1 h
    cases h
    exact .cons (normalizeFragment_eq_ok hhead) (normalizeFragments_eq_ok hrest)

theorem normalizeFragments_unchanged : ∀ {blocks : List PromptBlock} (index : Nat), (∀ block ∈ blocks, Normal block) →
    normalizeFragments index blocks = .ok blocks
  | [], _, _ => rfl
  | block :: blocks, index, h => by
    refine bind_eq_ok.2 ⟨block, (h block List.mem_cons_self).unchanged index, bind_eq_ok.2 ⟨blocks, ?_, rfl⟩⟩
    exact normalizeFragments_unchanged (index + 1) fun b hb => h b (List.mem_cons_of_mem _ hb)

/-- What the normalisation of a module does. -/
theorem normalize_eq_ok {contentModule normalized : ContentModule}
    (h : normalizeImportedModulePromptBlocks contentModule = .ok normalized) :
    checkModuleSchema contentModule = .ok () ∧ List.Forall₂
        (fun block normal => Normal normal ∧ normal.provenance = block.provenance) contentModule.promptFragments
        normalized.promptFragments ∧
      normalized = { contentModule with promptFragments := normalized.promptFragments } := by
  obtain ⟨hschema, h⟩ := seq_eq_ok.1 h
  obtain ⟨fragments, hfragments, h⟩ := bind_eq_ok.1 h
  cases h
  exact ⟨hschema, normalizeFragments_eq_ok hfragments, rfl⟩

theorem forall₂_right {α β : Type} {R : α → β → Prop} {P : β → Prop} {l : List α} {r : List β}
    (h : List.Forall₂ R l r) (hR : ∀ a ∈ l, ∀ b, R a b → P b) : ∀ b ∈ r, P b := by
  induction h with
  | nil => exact nofun
  | cons hab _ ih =>
    intro b hb
    rcases List.mem_cons.1 hb with rfl | hb
    · exact hR _ List.mem_cons_self _ hab
    · exact ih (fun a ha => hR a (List.mem_cons_of_mem _ ha)) b hb

/-- **The normalisation of a normalised module changes nothing.** -/
theorem normalize_again {contentModule normalized : ContentModule}
    (h : normalizeImportedModulePromptBlocks contentModule = .ok normalized) :
    normalizeImportedModulePromptBlocks normalized = .ok normalized := by
  obtain ⟨hschema, hfragments, hmodule⟩ := normalize_eq_ok h
  have hnormal := forall₂_right hfragments fun _ _ _ hblock => hblock.1
  have hschema' : checkModuleSchema normalized = .ok () := by
    rw [hmodule]
    exact hschema
  exact seq_eq_ok.2 ⟨hschema', bind_eq_ok.2 ⟨_, normalizeFragments_unchanged 0 hnormal, rfl⟩⟩

/-! ## Documents as they are imported -/

section
variable {codec : PackageCodec} {packageProvenance : Provenance} {packageRedistributionAllowed : Bool}

theorem importPromptPreset_imported (preset : PromptPreset) : ImportedFrom packageProvenance (.promptPreset preset)
    (.promptPreset (importPromptPreset packageProvenance preset)) := by
  refine ⟨rfl, rfl, ⟨fun provenance hprovenance => ?_, fun block hblock => ?_, List.forall_mem_nil _, List.forall_mem_nil _⟩⟩
  · rcases List.mem_cons.1 hprovenance with rfl | hprovenance
    · rfl
    · obtain ⟨block, hblock, rfl⟩ := List.mem_map.1 hprovenance
      obtain ⟨original, -, rfl⟩ := List.mem_map.1 hblock
      rfl
  · obtain ⟨original, -, rfl⟩ := List.mem_map.1 hblock
    rfl

theorem importKnowledgeBook_imported {book imported : KnowledgeBook}
    (h : importKnowledgeBook packageProvenance book = .ok imported) :
    ImportedFrom packageProvenance (.knowledgeBook book) (.knowledgeBook imported) := by
  obtain ⟨-, h⟩ := seq_eq_ok.1 h
  cases h
  refine ⟨rfl, rfl, ⟨fun provenance hprovenance => ?_, List.forall_mem_nil _, List.forall_mem_nil _,
    List.forall_mem_nil _⟩⟩
  rcases List.mem_cons.1 hprovenance with rfl | hprovenance
  · rfl
  · obtain ⟨entry, hentry, rfl⟩ := List.mem_map.1 hprovenance
    obtain ⟨original, -, rfl⟩ := List.mem_map.1 hentry
    rfl

theorem importMemoryProfile_imported {profile imported : MemoryProfile}
    (h : importMemoryProfile packageProvenance profile = .ok imported) :
    ImportedFrom packageProvenance (.memoryProfile profile) (.memoryProfile imported) := by
  obtain ⟨-, h⟩ := seq_eq_ok.1 h
  cases h
  exact ⟨rfl, rfl, ⟨fun _ hprovenance => List.mem_singleton.1 hprovenance, List.forall_mem_nil _,
    List.forall_mem_nil _, List.forall_mem_nil _⟩⟩

theorem importTransformSet_imported (set : TransformSet) : ImportedFrom packageProvenance (.transformSet set)
    (.transformSet (importTransformSet packageProvenance set)) := by
  refine ⟨rfl, ?_, ⟨fun provenance hprovenance => ?_, List.forall_mem_nil _, fun flag hflag => ?_,
    List.forall_mem_nil _⟩⟩
  · show set.enabled :: (set.rules.map (importTransformRule packageProvenance)).map _ = set.enabled :: _
    rw [List.map_map]
    rfl
  · rcases List.mem_cons.1 hprovenance with rfl | hprovenance
    · rfl
    · obtain ⟨rule, hrule, rfl⟩ := List.mem_map.1 hprovenance
      obtain ⟨original, -, rfl⟩ := List.mem_map.1 hrule
      rfl
  · rcases List.mem_cons.1 hflag with rfl | hflag
    · rfl
    · obtain ⟨rule, hrule, hflag⟩ := List.mem_flatMap.1 hflag
      obtain ⟨original, -, rfl⟩ := List.mem_map.1 hrule
      rcases List.mem_cons.1 hflag with rfl | hflag
      · rfl
      · rw [List.mem_singleton.1 hflag]
        rfl

theorem importInteractionRuleSet_imported (set : InteractionRuleSet) : ImportedFrom packageProvenance
    (.interactionRuleSet set) (.interactionRuleSet (importInteractionRuleSet packageProvenance set)) := by
  refine ⟨rfl, ?_, ⟨fun provenance hprovenance => ?_, List.forall_mem_nil _, fun flag hflag => ?_,
    List.forall_mem_nil _⟩⟩
  · show (set.rules.map (importInteractionRule packageProvenance)).map _ = _
    rw [List.map_map]
    rfl
  · rcases List.mem_cons.1 hprovenance with rfl | hprovenance
    · rfl
    · obtain ⟨rule, hrule, rfl⟩ := List.mem_map.1 hprovenance
      obtain ⟨original, -, rfl⟩ := List.mem_map.1 hrule
      rfl
  · obtain ⟨rule, hrule, rfl⟩ := List.mem_map.1 hflag
    obtain ⟨original, -, rfl⟩ := List.mem_map.1 hrule
    rfl

theorem importContentModule_imported {contentModule imported : ContentModule}
    (h : importContentModule codec packageProvenance packageRedistributionAllowed contentModule = .ok imported) :
    ImportedFrom packageProvenance (.contentModule contentModule) (.contentModule imported) := by
  obtain ⟨normalized, hnormalized, h⟩ := bind_eq_ok.1 h
  obtain ⟨-, h⟩ := seq_eq_ok.1 h
  cases h
  obtain ⟨-, hfragments, hmodule⟩ := normalize_eq_ok hnormalized
  have hnormal := forall₂_right hfragments fun _ _ _ hblock => hblock.1
  have hprovenance : ∀ block ∈ imported.promptFragments, block.provenance = packageProvenance := by
    refine forall₂_right hfragments fun original horiginal block hblock => ?_
    obtain ⟨written, -, rfl⟩ := List.mem_map.1 horiginal
    exact hblock.2
  refine ⟨?_, rfl, ⟨fun provenance hmem => ?_, fun block hblock => (hnormal block hblock).authority,
    List.forall_mem_nil _, fun block hblock => (hnormal block hblock).free⟩⟩
  · rw [hmodule]
    rfl
  · rcases List.mem_cons.1 hmem with rfl | hmem
    · rw [hmodule]
    · obtain ⟨block, hblock, rfl⟩ := List.mem_map.1 hmem
      exact hprovenance block hblock

/-! ## Components -/

/-- The documents of a component as the package has them. -/
def decodedDocuments (codec : PackageCodec) (component : ContentPackageComponent) (bytes : List UInt8) :
    Except CoreError (List PreparedContentDocument) :=
  match component.kind with
  | .prompt => do
    let presets ← decodeDocumentList codec codec.promptPreset bytes ["presets"]
    pure (presets.map .promptPreset)
  | .knowledge => do
    let books ← decodeDocumentList codec codec.knowledgeBook bytes ["books"]
    pure (books.map .knowledgeBook)
  | .memory => do
    let profiles ← decodeDocumentList codec codec.memoryProfile bytes ["profiles"]
    pure (profiles.map .memoryProfile)
  | .transform => do
    let sets ← decodeDocumentList codec codec.transformSet bytes ["sets", "transform_sets"]
    pure (sets.map .transformSet)
  | .interaction => do
    let sets ← decodeDocumentList codec codec.interactionRuleSet bytes ["sets", "interaction_rule_sets"]
    pure (sets.map .interactionRuleSet)
  | .contentModule => do
    let modules ← decodeDocumentList codec codec.contentModule bytes ["modules", "content_modules"]
    pure (modules.map .contentModule)
  | .asset | .unsupported => .error (unsafePackage "non-JSON component reached typed document preparation")

/-- The component and the flag that a transformation records. -/
def ContentPackageTransformation.recorded (transformation : ContentPackageTransformation) : String × Flag :=
  (transformation.componentId, ⟨transformation.objectId, transformation.field, transformation.before⟩)

/-- The flags of the documents of a component. -/
def componentFlags (componentId : String) (documents : List PreparedContentDocument) : List (String × Flag) :=
  documents.flatMap fun document => document.flags.map fun flag => (componentId, flag)

/-- The records are those of the flags of the documents, which are set to false. -/
structure Records (componentId : String) (decoded : List PreparedContentDocument)
    (transformations : List ContentPackageTransformation) : Prop where
  recorded : transformations.map (·.recorded) = componentFlags componentId decoded
  disabled : ∀ transformation ∈ transformations, transformation.after = false

theorem records_none {componentId : String} {α : Type} {documents : List α} {document : α → PreparedContentDocument}
    (h : ∀ a, (document a).flags = []) : Records componentId (documents.map document) [] := by
  refine ⟨Eq.symm (List.flatMap_eq_nil_iff.2 fun d hd => ?_), List.forall_mem_nil _⟩
  obtain ⟨a, -, rfl⟩ := List.mem_map.1 hd
  rw [h]
  rfl

theorem records_flatMap {componentId : String} {α : Type} {documents : List α} {document : α → PreparedContentDocument}
    {records : α → List ContentPackageTransformation} (h : ∀ a, Records componentId [document a] (records a)) :
    Records componentId (documents.map document) (documents.flatMap records) := by
  constructor
  · rw [componentFlags, List.flatMap_map, List.map_flatMap]
    refine List.flatMap_congr fun a _ => ?_
    rw [(h a).recorded, componentFlags, List.flatMap_singleton]
  · intro transformation hmem
    obtain ⟨a, -, hmem⟩ := List.mem_flatMap.1 hmem
    exact (h a).disabled transformation hmem

theorem transformSetRecords_records (componentId : String) (set : TransformSet) :
    Records componentId [.transformSet set] (transformSetRecords componentId set) := by
  constructor
  · rw [componentFlags, List.flatMap_singleton]
    simp only [transformSetRecords, PreparedContentDocument.flags, List.map_cons, List.map_flatMap]
    rfl
  · intro transformation hmem
    rcases List.mem_cons.1 hmem with rfl | hmem
    · rfl
    · obtain ⟨rule, -, hmem⟩ := List.mem_flatMap.1 hmem
      rcases List.mem_cons.1 hmem with rfl | hmem
      · rfl
      · rw [List.mem_singleton.1 hmem]
        rfl

theorem interactionRuleSetRecords_records (componentId : String) (set : InteractionRuleSet) :
    Records componentId [.interactionRuleSet set] (interactionRuleSetRecords componentId set) := by
  constructor
  · rw [componentFlags, List.flatMap_singleton]
    simp only [interactionRuleSetRecords, PreparedContentDocument.flags, List.map_map]
    rfl
  · intro transformation hmem
    obtain ⟨rule, -, rfl⟩ := List.mem_map.1 hmem
    rfl

theorem forall₂_map_map {α β γ δ : Type} {R : γ → δ → Prop} {S : α → β → Prop} {f : α → γ} {g : β → δ} {l : List α}
    {r : List β} (h : List.Forall₂ S l r) (hR : ∀ a b, S a b → R (f a) (g b)) :
    List.Forall₂ R (l.map f) (r.map g) :=
  List.forall₂_map_left_iff.2 (List.forall₂_map_right_iff.2 (h.imp hR))

theorem forall₂_map_self {α γ δ : Type} {R : γ → δ → Prop} {f : α → γ} {g : α → δ} (l : List α)
    (hR : ∀ a, R (f a) (g a)) : List.Forall₂ R (l.map f) (l.map g) :=
  List.forall₂_map_left_iff.2 (List.forall₂_map_right_iff.2 (List.forall₂_same.2 fun a _ => hR a))

/-- **Every component is prepared inert**, and what is disabled is recorded. -/
theorem prepareComponent_imported {component : ContentPackageComponent} {bytes : List UInt8}
    {prepared : List PreparedContentDocument × List ContentPackageTransformation}
    (h : prepareComponent codec component bytes packageProvenance packageRedistributionAllowed = .ok prepared) :
    ∃ decoded, decodedDocuments codec component bytes = .ok decoded ∧
      List.Forall₂ (ImportedFrom packageProvenance) decoded prepared.1 ∧
      Records component.id decoded prepared.2 := by
  cases hkind : component.kind with
  | prompt =>
    rw [prepareComponent, hkind] at h
    obtain ⟨presets, hpresets, h⟩ := bind_eq_ok.1 h
    cases h
    have hflags : ∀ preset : PromptPreset, (PreparedContentDocument.promptPreset preset).flags = [] := fun _ => rfl
    refine ⟨presets.map .promptPreset, ?_, forall₂_map_self presets importPromptPreset_imported,
      records_none hflags⟩
    rw [decodedDocuments, hkind]
    exact bind_eq_ok.2 ⟨presets, hpresets, rfl⟩
  | knowledge =>
    rw [prepareComponent, hkind] at h
    obtain ⟨books, hbooks, h⟩ := bind_eq_ok.1 h
    obtain ⟨imported, himported, h⟩ := bind_eq_ok.1 h
    cases h
    have hflags : ∀ document : KnowledgeBook, (PreparedContentDocument.knowledgeBook document).flags = [] := fun _ => rfl
    refine ⟨books.map .knowledgeBook, ?_, forall₂_map_map (mapM_eq_ok.1 himported) fun _ _ => importKnowledgeBook_imported,
      records_none hflags⟩
    rw [decodedDocuments, hkind]
    exact bind_eq_ok.2 ⟨books, hbooks, rfl⟩
  | memory =>
    rw [prepareComponent, hkind] at h
    obtain ⟨profiles, hprofiles, h⟩ := bind_eq_ok.1 h
    obtain ⟨imported, himported, h⟩ := bind_eq_ok.1 h
    cases h
    have hflags : ∀ document : MemoryProfile, (PreparedContentDocument.memoryProfile document).flags = [] := fun _ => rfl
    refine ⟨profiles.map .memoryProfile, ?_, forall₂_map_map (mapM_eq_ok.1 himported) fun _ _ => importMemoryProfile_imported,
      records_none hflags⟩
    rw [decodedDocuments, hkind]
    exact bind_eq_ok.2 ⟨profiles, hprofiles, rfl⟩
  | transform =>
    rw [prepareComponent, hkind] at h
    obtain ⟨sets, hsets, h⟩ := bind_eq_ok.1 h
    cases h
    refine ⟨sets.map .transformSet, ?_, forall₂_map_self sets importTransformSet_imported,
      records_flatMap (transformSetRecords_records component.id)⟩
    rw [decodedDocuments, hkind]
    exact bind_eq_ok.2 ⟨sets, hsets, rfl⟩
  | interaction =>
    rw [prepareComponent, hkind] at h
    obtain ⟨sets, hsets, h⟩ := bind_eq_ok.1 h
    cases h
    refine ⟨sets.map .interactionRuleSet, ?_, forall₂_map_self sets importInteractionRuleSet_imported,
      records_flatMap (interactionRuleSetRecords_records component.id)⟩
    rw [decodedDocuments, hkind]
    exact bind_eq_ok.2 ⟨sets, hsets, rfl⟩
  | contentModule =>
    rw [prepareComponent, hkind] at h
    obtain ⟨modules, hmodules, h⟩ := bind_eq_ok.1 h
    obtain ⟨imported, himported, h⟩ := bind_eq_ok.1 h
    cases h
    have hflags : ∀ document : ContentModule, (PreparedContentDocument.contentModule document).flags = [] := fun _ => rfl
    refine ⟨modules.map .contentModule, ?_, forall₂_map_map (mapM_eq_ok.1 himported) fun _ _ => importContentModule_imported,
      records_none hflags⟩
    rw [decodedDocuments, hkind]
    exact bind_eq_ok.2 ⟨modules, hmodules, rfl⟩
  | asset | unsupported =>
    rw [prepareComponent, hkind] at h
    cases h

theorem envelopesFrom_documents {ordinal : UInt32} {component : ContentPackageComponent} :
    ∀ {documents : List PreparedContentDocument} {envelopes : List PreparedContentDocumentEnvelope} {first : Nat},
      envelopesFrom codec ordinal component first documents = .ok envelopes → envelopes.map (·.document) = documents
  | [], envelopes, first, h => by
    cases h
    rfl
  | document :: documents, envelopes, first, h => by
    obtain ⟨envelope, henvelope, h⟩ := bind_eq_ok.1 h
    obtain ⟨rest, hrest, h⟩ := bind_eq_ok.1 h
    cases h
    obtain ⟨documentOrdinal, -, henvelope⟩ := bind_eq_ok.1 henvelope
    obtain ⟨documentSha256, -, henvelope⟩ := bind_eq_ok.1 henvelope
    cases henvelope
    rw [List.map_cons, envelopesFrom_documents hrest]

/-- What the preparation of components does: documents and records come in order from the documents as the package
has them. -/
structure InertImport (codec : PackageCodec) (packageProvenance : Provenance) (components : List SelectedComponent)
    (documents : List PreparedContentDocumentEnvelope) (transformations : List ContentPackageTransformation) :
    Prop where
  imported : ∃ decoded, List.Forall₂ (fun (selected : SelectedComponent) written =>
      decodedDocuments codec selected.component selected.bytes = .ok written) components decoded ∧
    List.Forall₂ (ImportedFrom packageProvenance) decoded.flatten (documents.map (·.document)) ∧
    transformations.map (·.recorded) =
      (components.zip decoded).flatMap fun part => componentFlags part.1.component.id part.2
  disabled : ∀ transformation ∈ transformations, transformation.after = false

theorem decodeComponents_inert : ∀ {components : List SelectedComponent}
    {prepared : List PreparedContentDocumentEnvelope × List ContentPackageTransformation},
    decodeComponents codec packageProvenance packageRedistributionAllowed components = .ok prepared →
    InertImport codec packageProvenance components prepared.1 prepared.2
  | [], prepared, h => by
    cases h
    exact ⟨⟨[], .nil, .nil, rfl⟩, List.forall_mem_nil _⟩
  | selected :: components, prepared, h => by
    obtain ⟨added, hadded, h⟩ := bind_eq_ok.1 h
    obtain ⟨rest, hrest, h⟩ := bind_eq_ok.1 h
    cases h
    obtain ⟨component, hcomponent, hadded⟩ := bind_eq_ok.1 hadded
    obtain ⟨envelopes, henvelopes, hadded⟩ := bind_eq_ok.1 hadded
    cases hadded
    obtain ⟨written, hwritten, hfrom, hrecords⟩ := prepareComponent_imported hcomponent
    obtain ⟨⟨decoded, hdecoded, hall, hrecorded⟩, hdisabled⟩ := decodeComponents_inert hrest
    refine ⟨⟨written :: decoded, .cons hwritten hdecoded, ?_, ?_⟩, fun transformation hmem => ?_⟩
    · rw [List.flatten_cons, List.map_append, envelopesFrom_documents henvelopes]
      exact List.rel_append hfrom hall
    · rw [List.zip_cons_cons, List.flatMap_cons, List.map_append, hrecords.recorded, hrecorded]
    · exact (List.mem_append.1 hmem).elim (hrecords.disabled transformation) (hdisabled transformation)

/-! ## The prepared documents -/

/-- The ordinals of the documents of a component, in order. -/
def ordinalsOf (component : String ×ₗ Nat) (documents : List PreparedContentDocumentEnvelope) : List Nat :=
  (documents.filter fun envelope => envelope.component = component).map fun envelope => envelope.documentOrdinal.toNat

/-- Documents that are told apart. -/
structure Identified (documents : List PreparedContentDocumentEnvelope) : Prop where
  identity : ∀ envelope ∈ documents,
    (envelope.documentKind, envelope.documentId) = preparedDocumentIdentity envelope.document
  distinct : (documents.map (·.documentId)).Nodup
  contiguous : ∀ component, ordinalsOf component documents = List.range (ordinalsOf component documents).length

/-- The invariant of the loop of `validate_prepared_document_envelopes`. -/
structure Scanned (done : List PreparedContentDocumentEnvelope) (scan : EnvelopeScan) : Prop where
  identified : Identified done
  ids : ∀ envelope ∈ done, envelope.documentId ∈ scan.documentIds
  ordinals : ∀ component, ((scan.componentOrdinals.get? component).getD 0).toNat = (ordinalsOf component done).length

theorem ordinalsOf_concat (component : String ×ₗ Nat) (documents : List PreparedContentDocumentEnvelope)
    (envelope : PreparedContentDocumentEnvelope) : ordinalsOf component (documents ++ [envelope]) =
      ordinalsOf component documents ++
        if envelope.component = component then [envelope.documentOrdinal.toNat] else [] := by
  rw [ordinalsOf, List.filter_append, List.map_append, ← ordinalsOf]
  by_cases h : envelope.component = component <;> simp [h]

theorem Scanned.step {done : List PreparedContentDocumentEnvelope} {scan scan' : EnvelopeScan}
    {envelope : PreparedContentDocumentEnvelope} (h : Scanned done scan)
    (hscan : scanEnvelope codec scan envelope = .ok scan') : Scanned (done ++ [envelope]) scan' := by
  obtain ⟨digest, -, hscan⟩ := bind_eq_ok.1 hscan
  obtain ⟨hsame, hscan⟩ := seq_eq_ok.1 hscan
  obtain ⟨hid, hscan⟩ := seq_eq_ok.1 hscan
  obtain ⟨-, hscan⟩ := seq_eq_ok.1 hscan
  obtain ⟨hordinal, hscan⟩ := seq_eq_ok.1 hscan
  obtain ⟨following, hfollowing, hscan⟩ := bind_eq_ok.1 hscan
  cases hscan
  have hid := rejectIf_eq_ok.1 hid
  have hsame := rejectIf_eq_ok.1 hsame
  have hordinal := not_not.1 (rejectIf_eq_ok.1 hordinal)
  have hfollowing := u32TryFrom_eq_some.1 (okOr_eq_ok.1 hfollowing)
  have hcount := h.ordinals envelope.component
  refine ⟨⟨fun other hother => ?_, ?_, fun component => ?_⟩, fun other hother => ?_, fun component => ?_⟩
  · rcases List.mem_append.1 hother with hother | hother
    · exact h.identified.identity other hother
    · rw [List.mem_singleton.1 hother]
      exact Prod.ext (not_not.1 fun hne => hsame (.inl hne)) (not_not.1 fun hne => hsame (.inr (.inl hne)))
  · rw [List.map_append, List.nodup_append]
    refine ⟨h.identified.distinct, List.nodup_singleton _, fun id hdone last hlast heq => ?_⟩
    obtain ⟨other, hother, rfl⟩ := List.mem_map.1 hdone
    rw [List.map_singleton, List.mem_singleton] at hlast
    exact hid (hlast ▸ heq ▸ h.ids other hother)
  · rw [ordinalsOf_concat]
    split
    · rename_i hcomponent
      rw [List.length_append, List.length_singleton, List.range_succ, ← h.identified.contiguous, hordinal, hcount,
        hcomponent]
    · rw [List.append_nil]
      exact h.identified.contiguous component
  · rcases List.mem_append.1 hother with hother | hother
    · exact Finset.mem_insert_of_mem (h.ids other hother)
    · rw [List.mem_singleton.1 hother]
      exact Finset.mem_insert_self _ _
  · show (((scan.componentOrdinals.insert envelope.component following).get? component).getD 0).toNat = _
    rw [ordinalsOf_concat, OrdMap.get?_insert]
    split
    · rename_i hcomponent
      rw [Option.getD_some, hfollowing, hcount, List.length_append, List.length_singleton, hcomponent]
    · rw [List.append_nil]
      exact h.ordinals component

/-- **Documents that pass the validation are told apart.** -/
theorem validatePreparedDocumentEnvelopes_identified {documents : List PreparedContentDocumentEnvelope} {u : Unit}
    (h : validatePreparedDocumentEnvelopes codec documents = .ok u) : Identified documents := by
  obtain ⟨scan, hscan, -⟩ := bind_eq_ok.1 h
  have hstart : Scanned [] ⟨∅, ∅, .empty⟩ :=
    ⟨⟨List.forall_mem_nil _, List.nodup_nil, fun _ => rfl⟩, List.forall_mem_nil _, fun _ => rfl⟩
  exact (foldlM_ok_inv hscan hstart fun done envelope rest s s' _ hdone => hdone.step).identified

theorem prepareDocuments_eq_ok {components : List SelectedComponent}
    {result : List PreparedContentDocumentEnvelope × List ContentPackageTransformation}
    (h : prepareDocuments codec packageProvenance packageRedistributionAllowed components = .ok result) :
    ∃ prepared, decodeComponents codec packageProvenance packageRedistributionAllowed components = .ok prepared ∧
      result.1.Perm prepared.1 ∧ result.2.Perm prepared.2 ∧ Identified result.1 := by
  obtain ⟨prepared, hprepared, h⟩ := bind_eq_ok.1 h
  obtain ⟨hvalid, h⟩ := seq_eq_ok.1 h
  cases h
  exact ⟨prepared, hprepared, stableSort_perm _ _, stableSort_perm _ _,
    validatePreparedDocumentEnvelopes_identified hvalid⟩

end

/-- **Imported package content is inert and labelled**: whatever the components are, what `decode_prepared_documents`
accepts is inert, with the author's flags kept and each flag recorded once; the documents that are returned are
those, told apart; and the normalisation of a module can be repeated. -/
theorem imported_content_inert (codec : PackageCodec) (packageProvenance : Provenance)
    (packageRedistributionAllowed : Bool) :
    (∀ components documents transformations,
      decodeComponents codec packageProvenance packageRedistributionAllowed components =
        .ok (documents, transformations) →
      InertImport codec packageProvenance components documents transformations) ∧
    (∀ components documents transformations,
      prepareDocuments codec packageProvenance packageRedistributionAllowed components =
        .ok (documents, transformations) →
      ∃ prepared, decodeComponents codec packageProvenance packageRedistributionAllowed components = .ok prepared ∧
        documents.Perm prepared.1 ∧ transformations.Perm prepared.2 ∧ Identified documents) ∧
    ∀ contentModule normalized, normalizeImportedModulePromptBlocks contentModule = .ok normalized →
      normalizeImportedModulePromptBlocks normalized = .ok normalized :=
  ⟨fun _ _ _ h => decodeComponents_inert h, fun _ _ _ h => prepareDocuments_eq_ok h, fun _ _ h => normalize_again h⟩

/-! ## A transform set -/

def quotesProvenance : Provenance := ⟨.userCreated, none, none, none, none, none⟩

def packageSource : Provenance := ⟨.importedPackage, some "quotes-package", none, some "Mira", some "MIT", none⟩

/-- A live transform set without rules. -/
def quotesSet : TransformSet where
  id := "quotes"
  name := "Quotes"
  schemaVersion := 1
  enabled := true
  importedAuthorEnabled := false
  rules := []
  maxRulesPerPhase := 1
  maxOutputChars := 1
  provenance := quotesProvenance

/-- Its JSON. -/
def quotesJson : Json :=
  .object [("enabled", .bool true), ("id", .string "quotes"), ("max_output_chars", .number (.posInt 1)),
    ("max_rules_per_phase", .number (.posInt 1)), ("name", .string "Quotes"),
    ("provenance", .object [("source_kind", .string "user_created")]), ("rules", .array []),
    ("schema_version", .number (.posInt 1))]

/-- A codec that reads this set. -/
def quotesCodec : PackageCodec where
  externals :=
    { sha256 _ := Vector.replicate 32 0
      planToVec _ := .ok []
      snapshotToVec _ := .ok []
      variableValueToString _ := .ok ""
      memoryReasonsFromStr _ := none
      displayF64 _ := "0"
      renderPortableText text _ := text }
  parseValue _ := .ok quotesJson
  promptPreset _ := .error "missing field"
  knowledgeBook _ := .error "missing field"
  memoryProfile _ := .error "missing field"
  transformSet _ := .ok quotesSet
  interactionRuleSet _ := .error "missing field"
  contentModule _ := .error "missing field"
  documentToVec _ := .ok (utf8Bytes "\x7b\"kind\":\"transform_set\"\x7d")

def quotesComponent : SelectedComponent where
  ordinal := 3
  component := ⟨"transforms/quotes", .transform⟩
  bytes := utf8Bytes "\x7b\"id\":\"quotes\",\"enabled\":true\x7d"

/-- The set as it is prepared. -/
def quotesEnvelope : PreparedContentDocumentEnvelope where
  sourceComponentId := "transforms/quotes"
  sourceComponentOrdinal := 3
  documentOrdinal := 0
  documentKind := "transform_set"
  documentId := "quotes"
  documentSha256 := hexEncode (quotesCodec.externals.sha256 []).toList
  document := .transformSet (importTransformSet packageSource quotesSet)

theorem imported_content_inert_quotes :
    InertImport quotesCodec packageSource [quotesComponent] [quotesEnvelope]
        (transformSetRecords "transforms/quotes" quotesSet) ∧
      ∃ prepared, decodeComponents quotesCodec packageSource false [quotesComponent] = .ok prepared ∧
        [quotesEnvelope].Perm prepared.1 ∧
        (transformSetRecords "transforms/quotes" quotesSet).Perm prepared.2 ∧ Identified [quotesEnvelope] :=
  ⟨(imported_content_inert quotesCodec packageSource false).1 _ _ _ rfl,
    (imported_content_inert quotesCodec packageSource false).2.1 [quotesComponent] _ _ rfl⟩

end LorePia.ContentPackage
