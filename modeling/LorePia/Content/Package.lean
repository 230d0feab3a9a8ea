import Mathlib.Data.Finset.Insert
import LorePia.Base.Json
import LorePia.Domain.Error
import LorePia.Domain.Memory
import LorePia.Domain.Module
import LorePia.Domain.Transform

/-!
# Content packages (`crates/content/src/package.rs`)

The preparation of the selected JSON components of a package: `decode_prepared_documents` on each, with the
inactive-import normalisation, and what `prepare_content_package_import` does with the documents. The components
come with their bytes, as they are read from the archive that was inspected again. The JSON of the documents, which
is read by derived deserializers and written by derived serializers, is a parameter.
-/

namespace LorePia.ContentPackage

open Base

def contentModuleSchemaVersion : UInt32 := 1
def maxModuleMetadataTags : Nat := 64
def maxModuleMetadataTagChars : Nat := 128
def maxModuleHomepageChars : Nat := 2048

def unsupported (message : String) : CoreError := ⟨.unsupportedContent, message, false⟩

def unsafePackage (message : String) : CoreError := ⟨.unsafeArchive, message, false⟩

/-! ## Data -/

inductive ContentPackageComponentKind
  | prompt | knowledge | memory | transform | interaction | contentModule | asset | unsupported
deriving DecidableEq

/-- Of a component what the preparation reads. -/
structure ContentPackageComponent where
  id : String
  kind : ContentPackageComponentKind
deriving DecidableEq

inductive PreparedContentDocument
  | promptPreset (preset : PromptPreset)
  | knowledgeBook (book : KnowledgeBook)
  | memoryProfile (profile : MemoryProfile)
  | transformSet (set : TransformSet)
  | interactionRuleSet (set : InteractionRuleSet)
  | contentModule (contentModule : ContentModule)

structure PreparedContentDocumentEnvelope where
  sourceComponentId : String
  sourceComponentOrdinal : UInt32
  documentOrdinal : UInt32
  documentKind : String
  documentId : String
  documentSha256 : String
  document : PreparedContentDocument

structure ContentPackageTransformation where
  componentId : String
  objectId : String
  field : String
  before : Bool
  after : Bool
  reason : String
deriving DecidableEq

/-- What is used of the `serde_json` and `sha2` crates. -/
structure PackageCodec where
  externals : Externals
  parseValue : List UInt8 → Except String Json
  promptPreset : Json → Except String PromptPreset
  knowledgeBook : Json → Except String KnowledgeBook
  memoryProfile : Json → Except String MemoryProfile
  transformSet : Json → Except String TransformSet
  interactionRuleSet : Json → Except String InteractionRuleSet
  contentModule : Json → Except String ContentModule
  documentToVec : PreparedContentDocument → Except String (List UInt8)

variable (codec : PackageCodec)

/-! ## Reading -/

/-- The value under the first of the wrapper keys that an object has. -/
def unwrapDocuments (wrapperKeys : List String) (value : Json) : Json :=
  (wrapperKeys.findSome? fun key => value.get? key).getD value

/-- One typed document. -/
def typedDocument {α : Type} (fromValue : Json → Except String α) (value : Json) : Except CoreError α :=
  mapErr (fun error => unsupported s!"invalid typed package document: {error}") (fromValue value)

def decodeDocumentList {α : Type} (fromValue : Json → Except String α) (bytes : List UInt8)
    (wrapperKeys : List String) : Except CoreError (List α) := do
  let value ← mapErr (fun error => unsupported s!"invalid selected component JSON: {error}") (codec.parseValue bytes)
  match unwrapDocuments wrapperKeys value with
  | .array values => values.mapM (typedDocument fromValue)
  | value => do
    let document ← typedDocument fromValue value
    pure [document]

/-! ## Modules -/

/-- The source of a fragment: imported modules cannot read live conversation state. -/
def inertSource (index : Nat) (block : PromptBlock) : Except CoreError PromptBlock :=
  if block.source = .latestUser ∨ block.source = .history then do
    rejectIf (block.template.isNone = true) (unsupported
      s!"content module prompt_fragments[{index}] cannot read conversation messages without a safe template")
    pure { block with source := .template, kind := .staticInstruction, historySelector := none }
  else pure block

/-- The zone of a fragment. -/
def inertZone (zone : PlacementZone) : PlacementZone :=
  if zone = .applicationPolicy ∨ zone = .latestUser then .presetInstruction else zone

/-- One round of the loop of `normalize_imported_module_prompt_blocks`. -/
def normalizeFragment (index : Nat) (block : PromptBlock) : Except CoreError PromptBlock := do
  rejectIf (block.kind = .latestUserTurn)
    (unsupported s!"content module prompt_fragments[{index}] cannot replace the latest user turn")
  let inert ← inertSource index { block with authority := .importedContent }
  let zoned := { inert with placementZone := inertZone inert.placementZone }
  rejectIf (zoned.source = .template ∧ zoned.template.isNone = true)
    (unsupported s!"content module prompt_fragments[{index}] template source is empty")
  pure zoned

/-- The loop from a fragment on. -/
def normalizeFragments : Nat → List PromptBlock → Except CoreError (List PromptBlock)
  | _, [] => .ok []
  | index, block :: blocks => do
    let normalized ← normalizeFragment index block
    let rest ← normalizeFragments (index + 1) blocks
    pure (normalized :: rest)

/-- The check of the schema version. -/
def checkModuleSchema (contentModule : ContentModule) : Except CoreError Unit :=
  rejectIf (contentModule.schemaVersion ≠ contentModuleSchemaVersion)
    (unsupported s!"unsupported content module schema version: {contentModule.schemaVersion}")

def normalizeImportedModulePromptBlocks (contentModule : ContentModule) : Except CoreError ContentModule := do
  checkModuleSchema contentModule
  let promptFragments ← normalizeFragments 0 contentModule.promptFragments
  pure { contentModule with promptFragments }

/-- `validate_module_identifier_list`, after some identifiers. -/
def validateModuleIdentifiersFrom (label : String) : Finset String → List String → Except CoreError Unit
  | _, [] => .ok ()
  | seen, value :: values => do
    rejectIf (value = "" ∨ value.length > maxIdentifierChars ∨ '\x00' ∈ value.toList)
      (unsupported s!"content module {label} contains an invalid identifier")
    rejectIf (value ∈ seen) (unsupported s!"content module {label} contains duplicate identifiers")
    validateModuleIdentifiersFrom label (insert value seen) values

def validateModuleIdentifierList (label : String) (values : List String) : Except CoreError Unit :=
  validateModuleIdentifiersFrom label ∅ values

def validateModuleMetadataText (label value : String) (minimumChars maximumChars : Nat) : Except CoreError Unit :=
  rejectIf (value.length < minimumChars ∨ value.length > maximumChars ∨ '\x00' ∈ value.toList)
    (unsupported
      s!"content module metadata {label} must contain between {minimumChars} and {maximumChars} characters and no NUL")

/-- The tags of the metadata, after some. -/
def validateTagsFrom : Finset String → List String → Except CoreError Unit
  | _, [] => .ok ()
  | seen, tag :: tags => do
    validateModuleMetadataText "tag" tag 1 maxModuleMetadataTagChars
    rejectIf (tag ∈ seen) (unsupported "content module metadata contains duplicate tags")
    validateTagsFrom (insert tag seen) tags

def validateContentModuleMetadata (contentModule : ContentModule) : Except CoreError Unit := do
  forSome contentModule.metadata.author fun author => validateModuleMetadataText "author" author 0 maxNameChars
  forSome contentModule.metadata.homepage fun homepage =>
    validateModuleMetadataText "homepage" homepage 0 maxModuleHomepageChars
  rejectIf (contentModule.metadata.tags.length > maxModuleMetadataTags)
    (unsupported s!"content module metadata contains more than {maxModuleMetadataTags} tags")
  validateTagsFrom ∅ contentModule.metadata.tags

def contentModuleCapabilityName : ContentCapability → String
  | .promptFragments => "prompt_fragments"
  | .knowledge => "knowledge"
  | .variables => "variables"
  | .transforms => "transforms"
  | .declarativeInteractions => "declarative_interactions"
  | .portableRuntime => "portable_runtime"
  | .imageAssets => "image_assets"
  | .audioAssets => "audio_assets"
  | .videoAssets => "video_assets"
  | .attachmentAssets => "attachment_assets"
  | .highRiskAssets => "high_risk_assets"

/-- The capabilities that the components of a module require, in order. -/
def requiredModuleCapabilities (contentModule : ContentModule) : List ContentCapability :=
  (if contentModule.promptFragments = [] then [] else [ContentCapability.promptFragments]) ++
    (if contentModule.knowledgeBookIds = [] then [] else [ContentCapability.knowledge]) ++
    (if contentModule.controlSpecs = [] then [] else [ContentCapability.variables]) ++
    (if contentModule.transformSetIds = [] then [] else [ContentCapability.transforms]) ++
    (if contentModule.interactionRuleSetIds = [] then [] else [ContentCapability.declarativeInteractions]) ++
    (if contentModule.hasPortableRuntime then [ContentCapability.portableRuntime] else [])

def validateContentModuleCapabilityContract (contentModule : ContentModule) : Except CoreError Unit := do
  rejectIf (contentModule.assetIds ≠ [] ∧ ∀ capability ∈ contentModule.requiredCapabilities, capability ∉
      [ContentCapability.imageAssets, .audioAssets, .videoAssets, .attachmentAssets, .highRiskAssets])
    (unsupported "content module asset references require an explicit asset capability")
  match (requiredModuleCapabilities contentModule).find? (· ∉ contentModule.requiredCapabilities) with
  | some missing => .error (unsupported
      s!"content module omits required capability: {contentModuleCapabilityName missing}")
  | none => pure ()

def validateContentModuleImportContract (contentModule : ContentModule) : Except CoreError Unit := do
  checkModuleSchema contentModule
  mapErr (fun error => unsupported s!"invalid declarative content module: {error.display}")
    (contentModule.validate codec.externals)
  validateModuleIdentifierList "knowledge_book_ids" contentModule.knowledgeBookIds
  validateModuleIdentifierList "transform_set_ids" contentModule.transformSetIds
  validateModuleIdentifierList "interaction_rule_set_ids" contentModule.interactionRuleSetIds
  validateModuleIdentifierList "asset_ids" contentModule.assetIds
  validateModuleIdentifierList "control_specs.id" (contentModule.controlSpecs.map (·.id))
  validateContentModuleMetadata contentModule
  validateContentModuleCapabilityContract contentModule

/-! ## Documents as they are imported -/

section
variable (packageProvenance : Provenance)

/-- A prompt preset. -/
def importPromptPreset (preset : PromptPreset) : PromptPreset :=
  { preset with
    metadata := { preset.metadata with provenance := packageProvenance }
    blocks := preset.blocks.map fun block =>
      { block with provenance := packageProvenance, authority := .importedContent } }

/-- A knowledge book. -/
def importKnowledgeBook (book : KnowledgeBook) : Except CoreError KnowledgeBook := do
  let imported : KnowledgeBook :=
    { book with
      provenance := packageProvenance
      entries := book.entries.map fun entry => { entry with provenance := packageProvenance } }
  mapErr (fun error => unsupported s!"invalid imported knowledge book: {error.display}") imported.validate
  pure imported

/-- A memory profile. -/
def importMemoryProfile (profile : MemoryProfile) : Except CoreError MemoryProfile := do
  let imported : MemoryProfile := { profile with provenance := packageProvenance }
  mapErr (fun error => unsupported s!"invalid imported memory profile: {error.display}") imported.validate
  pure imported

/-- A rule of a transform set. -/
def importTransformRule (rule : TransformRule) : TransformRule :=
  { rule with
    provenance := packageProvenance
    importedAuthorEnabled := rule.enabled
    enabled := false
    importedEnabled := false }

/-- A transform set. -/
def importTransformSet (set : TransformSet) : TransformSet :=
  { set with
    provenance := packageProvenance
    importedAuthorEnabled := set.enabled
    enabled := false
    rules := set.rules.map (importTransformRule packageProvenance) }

/-- A rule of an interaction rule set. -/
def importInteractionRule (rule : InteractionRule) : InteractionRule :=
  { rule with
    provenance := packageProvenance
    importedAuthorEnabled := rule.enabled
    enabled := false }

/-- An interaction rule set. -/
def importInteractionRuleSet (set : InteractionRuleSet) : InteractionRuleSet :=
  { set with
    provenance := packageProvenance
    rules := set.rules.map (importInteractionRule packageProvenance) }

def unknownLicense : String := "LicenseRef-Unknown"

/-- A content module. -/
def importContentModule (packageRedistributionAllowed : Bool) (contentModule : ContentModule) :
    Except CoreError ContentModule := do
  let metadata : PackageMetadata :=
    { contentModule.metadata with
      provenance := packageProvenance
      author := packageProvenance.author
      license := packageProvenance.license.getD unknownLicense
      redistributionAllowed := packageRedistributionAllowed }
  let promptFragments := contentModule.promptFragments.map fun block => { block with provenance := packageProvenance }
  let normalized ← normalizeImportedModulePromptBlocks { contentModule with metadata, promptFragments }
  validateContentModuleImportContract codec normalized
  pure normalized

end

/-! ## Transformations -/

/-- The record of a flag that is set to false. -/
def disabledFlag (componentId objectId field reason : String) (before : Bool) : ContentPackageTransformation where
  componentId := componentId
  objectId := objectId
  field := field
  before := before
  after := false
  reason := reason

/-- The records of a transform rule. -/
def transformRuleRecords (componentId : String) (rule : TransformRule) : List ContentPackageTransformation :=
  [disabledFlag componentId rule.id "enabled" "imported transform rules default inactive" rule.enabled,
    disabledFlag componentId rule.id "imported_enabled" "package input cannot pre-approve a transform rule"
      rule.importedEnabled]

/-- The records of a transform set. -/
def transformSetRecords (componentId : String) (set : TransformSet) : List ContentPackageTransformation :=
  disabledFlag componentId set.id "enabled" "imported transform sets require explicit activation" set.enabled ::
    set.rules.flatMap (transformRuleRecords componentId)

/-- The records of an interaction rule set. -/
def interactionRuleSetRecords (componentId : String) (set : InteractionRuleSet) : List ContentPackageTransformation :=
  set.rules.map fun rule =>
    disabledFlag componentId rule.id "enabled" "imported interaction rules require explicit activation" rule.enabled

/-! ## Components -/

/-- The `match` of `decode_prepared_documents`. -/
def prepareComponent (component : ContentPackageComponent) (bytes : List UInt8) (packageProvenance : Provenance)
    (packageRedistributionAllowed : Bool) :
    Except CoreError (List PreparedContentDocument × List ContentPackageTransformation) :=
  match component.kind with
  | .prompt => do
    let presets ← decodeDocumentList codec codec.promptPreset bytes ["presets"]
    pure (presets.map fun preset => .promptPreset (importPromptPreset packageProvenance preset), [])
  | .knowledge => do
    let books ← decodeDocumentList codec codec.knowledgeBook bytes ["books"]
    let imported ← books.mapM (importKnowledgeBook packageProvenance)
    pure (imported.map .knowledgeBook, [])
  | .memory => do
    let profiles ← decodeDocumentList codec codec.memoryProfile bytes ["profiles"]
    let imported ← profiles.mapM (importMemoryProfile packageProvenance)
    pure (imported.map .memoryProfile, [])
  | .transform => do
    let sets ← decodeDocumentList codec codec.transformSet bytes ["sets", "transform_sets"]
    pure (sets.map fun set => .transformSet (importTransformSet packageProvenance set),
      sets.flatMap (transformSetRecords component.id))
  | .interaction => do
    let sets ← decodeDocumentList codec codec.interactionRuleSet bytes ["sets", "interaction_rule_sets"]
    pure (sets.map fun set => .interactionRuleSet (importInteractionRuleSet packageProvenance set),
      sets.flatMap (interactionRuleSetRecords component.id))
  | .contentModule => do
    let modules ← decodeDocumentList codec codec.contentModule bytes ["modules", "content_modules"]
    let imported ← modules.mapM (importContentModule codec packageProvenance packageRedistributionAllowed)
    pure (imported.map .contentModule, [])
  | .asset | .unsupported => .error (unsafePackage "non-JSON component reached typed document preparation")

def preparedDocumentIdentity : PreparedContentDocument → String × String
  | .promptPreset value => ("prompt_preset", value.id)
  | .knowledgeBook value => ("knowledge_book", value.id)
  | .memoryProfile value => ("memory_profile", value.id)
  | .transformSet value => ("transform_set", value.id)
  | .interactionRuleSet value => ("interaction_rule_set", value.id)
  | .contentModule value => ("content_module", value.id)

/-- The digest of a document. -/
def documentDigest (document : PreparedContentDocument) : Except CoreError String := do
  let encoded ← mapErr (fun error => unsupported s!"prepared document cannot be encoded: {error}")
    (codec.documentToVec document)
  pure (hexEncode (codec.externals.sha256 encoded).toList)

/-- The envelope of a document of a component. -/
def envelopeOf (sourceComponentOrdinal : UInt32) (component : ContentPackageComponent) (ordinal : Nat)
    (document : PreparedContentDocument) : Except CoreError PreparedContentDocumentEnvelope := do
  let documentOrdinal ← okOr (u32TryFrom ordinal) (unsupported "selected component contains too many documents")
  let documentSha256 ← documentDigest codec document
  pure
    { sourceComponentId := component.id
      sourceComponentOrdinal
      documentOrdinal
      documentKind := (preparedDocumentIdentity document).1
      documentId := (preparedDocumentIdentity document).2
      documentSha256
      document }

/-- The envelopes of the documents of a component, from an ordinal on. -/
def envelopesFrom (sourceComponentOrdinal : UInt32) (component : ContentPackageComponent) :
    Nat → List PreparedContentDocument → Except CoreError (List PreparedContentDocumentEnvelope)
  | _, [] => .ok []
  | ordinal, document :: documents => do
    let envelope ← envelopeOf codec sourceComponentOrdinal component ordinal document
    let rest ← envelopesFrom sourceComponentOrdinal component (ordinal + 1) documents
    pure (envelope :: rest)

/-- A selected JSON component with its place in the package and its bytes. -/
structure SelectedComponent where
  ordinal : UInt32
  component : ContentPackageComponent
  bytes : List UInt8

/-- `decode_prepared_documents`: the documents and the transformations that it adds. -/
def decodePreparedDocuments (selected : SelectedComponent) (packageProvenance : Provenance)
    (packageRedistributionAllowed : Bool) :
    Except CoreError (List PreparedContentDocumentEnvelope × List ContentPackageTransformation) := do
  let prepared ← prepareComponent codec selected.component selected.bytes packageProvenance
    packageRedistributionAllowed
  let envelopes ← envelopesFrom codec selected.ordinal selected.component 0 prepared.1
  pure (envelopes, prepared.2)

/-- The loop of `prepare_content_package_import` over the selected JSON components. -/
def decodeComponents (packageProvenance : Provenance) (packageRedistributionAllowed : Bool) :
    List SelectedComponent →
    Except CoreError (List PreparedContentDocumentEnvelope × List ContentPackageTransformation)
  | [] => .ok ([], [])
  | selected :: components => do
    let added ← decodePreparedDocuments codec selected packageProvenance packageRedistributionAllowed
    let rest ← decodeComponents packageProvenance packageRedistributionAllowed components
    pure (added.1 ++ rest.1, added.2 ++ rest.2)

/-! ## The prepared documents -/

/-- The state of the loop of `validate_prepared_document_envelopes`. -/
structure EnvelopeScan where
  documentIds : Finset String
  documentHashes : Finset String
  componentOrdinals : OrdMap (String ×ₗ Nat) UInt32

/-- The component that an envelope is counted under. -/
def PreparedContentDocumentEnvelope.component (envelope : PreparedContentDocumentEnvelope) : String ×ₗ Nat :=
  toLex (envelope.sourceComponentId, envelope.sourceComponentOrdinal.toNat)

/-- One round of the loop. -/
def scanEnvelope (scan : EnvelopeScan) (envelope : PreparedContentDocumentEnvelope) : Except CoreError EnvelopeScan := do
  let expectedSha256 ← documentDigest codec envelope.document
  rejectIf (envelope.documentKind ≠ (preparedDocumentIdentity envelope.document).1 ∨
      envelope.documentId ≠ (preparedDocumentIdentity envelope.document).2 ∨
      envelope.documentSha256 ≠ expectedSha256)
    (unsafePackage "prepared document envelope differs from its typed document")
  rejectIf (envelope.documentId ∈ scan.documentIds) (.invalid
    s!"selected package documents contain a duplicate object id: {envelope.documentId}")
  rejectIf (envelope.documentSha256 ∈ scan.documentHashes)
    (.invalid "selected package documents contain duplicate canonical content")
  let next := (scan.componentOrdinals.get? envelope.component).getD 0
  rejectIf (envelope.documentOrdinal ≠ next)
    (unsafePackage "prepared package document ordinals are not contiguous")
  let following ← okOr (u32TryFrom (next.toNat + 1)) (unsupported "selected component contains too many documents")
  pure
    { documentIds := insert envelope.documentId scan.documentIds
      documentHashes := insert envelope.documentSha256 scan.documentHashes
      componentOrdinals := scan.componentOrdinals.insert envelope.component following }

def validatePreparedDocumentEnvelopes (documents : List PreparedContentDocumentEnvelope) : Except CoreError Unit := do
  let _ ← documents.foldlM (scanEnvelope codec) ⟨∅, ∅, .empty⟩
  pure ()

/-- The key of the order of the documents. -/
def PreparedContentDocumentEnvelope.key (envelope : PreparedContentDocumentEnvelope) : Nat ×ₗ Nat ×ₗ String :=
  toLex (envelope.sourceComponentOrdinal.toNat, toLex (envelope.documentOrdinal.toNat, envelope.sourceComponentId))

/-- The key of the order of the transformations. -/
def ContentPackageTransformation.key (transformation : ContentPackageTransformation) : String ×ₗ String ×ₗ String :=
  toLex (transformation.componentId, toLex (transformation.objectId, transformation.field))

/-- The end of `prepare_content_package_import`, from the selected JSON components on. -/
def prepareDocuments (packageProvenance : Provenance) (packageRedistributionAllowed : Bool)
    (components : List SelectedComponent) :
    Except CoreError (List PreparedContentDocumentEnvelope × List ContentPackageTransformation) := do
  let prepared ← decodeComponents codec packageProvenance packageRedistributionAllowed components
  let documents := stableSort (fun left right => decide (left.key ≤ right.key)) prepared.1
  validatePreparedDocumentEnvelopes codec documents
  pure (documents, stableSort (fun left right => decide (left.key ≤ right.key)) prepared.2)

end LorePia.ContentPackage
