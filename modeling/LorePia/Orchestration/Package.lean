import LorePia.Base.OrdMap
import LorePia.Domain.Content

/-!
# Package validation (`crates/orchestration/src/package.rs`, `package/capabilities.rs`)

`validate_package_snapshot` puts an inspected package into canonical order, collects the issues of every
check and binds the review with a hash. A validator that pushes to `issues` is the list of the issues it
pushes; a `BTreeMap` is an `OrdMap`; `sort` followed by `dedup` is `sortedSet`. The depth-first search for
cycles runs on a fuel that it does not use up (`hasDependencyCycle_fuel`).
-/

namespace LorePia

open Base

def lorepiaPackageFormat : String := "lorepia_content_package"
def lorepiaPackageFormatVersion : UInt32 := 1
def maxPackageComponents : Nat := 4096
def maxPackageAssets : Nat := 16384
def maxPackageContentHashes : Nat := 32768
def maxPackageDependencies : Nat := 16384
def maxPackageSourceBytes : UInt64 := 512 * 1024 * 1024
def maxPackageTotalObservedBytes : UInt64 := 2 * 1024 * 1024 * 1024
def maxPackageTotalAssetBytes : UInt64 := 2 * 1024 * 1024 * 1024
def maxLabelBytes : Nat := 1024
def maxPathBytes : Nat := 2048

/-! ## Data -/

inductive SignatureVerification
  | absent | verified | invalid | unsupported
deriving DecidableEq

inductive PackageComponentKind
  | promptPreset | memoryProfile | knowledgeBook | transformSet | interactionRuleSet | contentModule
  | assetIndex | rawExtension
deriving DecidableEq

/-- The declaration order. -/
def PackageComponentKind.rank : PackageComponentKind → Nat
  | .promptPreset => 0 | .memoryProfile => 1 | .knowledgeBook => 2 | .transformSet => 3
  | .interactionRuleSet => 4 | .contentModule => 5 | .assetIndex => 6 | .rawExtension => 7

inductive PackageComponentDisposition
  | importable | unsupported | quarantined
deriving DecidableEq

structure PackageComponentDescriptor where
  id : String
  kind : PackageComponentKind
  logicalPath : String
  sha256 : Sha256Digest
  dependencies : List String
  conflictsWith : List String
  requiredCapabilities : List ContentCapability
  assetIds : List AssetId
  disposition : PackageComponentDisposition
deriving DecidableEq

structure ObservedPackageEntry where
  logicalPath : String
  sha256 : Sha256Digest
  sizeBytes : UInt64
deriving DecidableEq

structure PackageInspectionSnapshot where
  sourceSha256 : Sha256Digest
  sourceSizeBytes : UInt64
  manifest : PackageManifest
  signatureVerification : SignatureVerification
  components : List PackageComponentDescriptor
  assets : List AssetDescriptor
  observedEntries : List ObservedPackageEntry

structure PackageValidationPolicy where
  supportedCapabilities : List ContentCapability
  redistributableLicenses : List String
  allowUnsignedPackages : Bool
  maxComponents : Nat
  maxAssets : Nat
  maxContentHashes : Nat
  maxDependencies : Nat
  maxSourceBytes : UInt64
  maxTotalObservedBytes : UInt64
  maxTotalAssetBytes : UInt64
  currentAppVersion : String

inductive PackageIssueSeverity
  | warning | blocker
deriving DecidableEq

/-- The declaration order. -/
def PackageIssueSeverity.rank : PackageIssueSeverity → Nat
  | .warning => 0 | .blocker => 1

structure PackageValidationIssue where
  severity : PackageIssueSeverity
  code : String
  target : String
  message : String
deriving DecidableEq

/-- The key of the derived `Ord`. -/
def PackageValidationIssue.key (issue : PackageValidationIssue) :
    ℕ ×ₗ String ×ₗ String ×ₗ String :=
  toLex (issue.severity.rank, toLex (issue.code, toLex (issue.target, issue.message)))

theorem PackageValidationIssue.key_injective : Function.Injective PackageValidationIssue.key := by
  intro a b h
  obtain ⟨severity, code, target, message⟩ := a
  obtain ⟨severity', code', target', message'⟩ := b
  simp only [PackageValidationIssue.key, toLex_inj, Prod.mk.injEq] at h
  obtain ⟨hrank, rfl, rfl, rfl⟩ := h
  cases severity <;> cases severity' <;> first | rfl | cases hrank

instance : LinearOrder PackageValidationIssue :=
  LinearOrder.lift' PackageValidationIssue.key PackageValidationIssue.key_injective

inductive AssetImportDisposition
  | importable | quarantined
deriving DecidableEq

structure ReviewedPackageAsset where
  descriptor : AssetDescriptor
  disposition : AssetImportDisposition
deriving DecidableEq

inductive RedistributionStatus
  | allowed | deniedByManifest | licenseUnclear | provenanceIncomplete | validationBlocked
deriving DecidableEq

structure PackageReview where
  reviewSha256 : Sha256Digest
  sourceSha256 : Sha256Digest
  manifest : PackageManifest
  components : List PackageComponentDescriptor
  assets : List ReviewedPackageAsset
  issues : List PackageValidationIssue
  localImportAllowed : Bool
  redistributionStatus : RedistributionStatus
deriving DecidableEq

inductive ImportPlanState
  | awaitingApproval | approved
deriving DecidableEq

structure PlannedPackageComponent where
  component : PackageComponentDescriptor
  /-- Imported components are always disabled until an exact plan is approved. -/
  enabled : Bool
deriving DecidableEq

inductive PackageValidationError
  | canonicalEncoding (message : String)
  | reviewHashMismatch
  | staleReview
  | importBlocked
  | emptySelection
  | duplicateSelection (id : String)
  | unknownComponent (id : String)
  | unknownAsset (id : String)
  | componentNotImportable (id : String)
  | assetNotImportable (id : String)
  | dependencyConfirmationRequired (ids : List String)
  | selectedComponentsConflict (left right : String)
  | planHashMismatch
  | invalidPlanState
  | invalidPlanCapabilities
  | stalePlan
  | unknownApprovedComponent (id : String)
  | duplicateApprovalDecision (id : String)
  | missingApprovalId
  | approvalHashMismatch
deriving DecidableEq

abbrev Packaging := Except PackageValidationError

/-- What is serialized to be hashed: `PackageReviewDigest`, `SelectiveImportPlanDigest` and
`ApprovedPackageImportDigest`. -/
inductive PackageDocument
  | review (sourceSha256 : Sha256Digest) (manifest : PackageManifest)
      (components : List PackageComponentDescriptor) (assets : List ReviewedPackageAsset)
      (issues : List PackageValidationIssue) (localImportAllowed : Bool)
      (redistributionStatus : RedistributionStatus)
  | plan (reviewSha256 sourceSha256 : Sha256Digest) (packageId : PackageId) (state : ImportPlanState)
      (components : List PlannedPackageComponent) (assets : List AssetDescriptor)
      (requiredCapabilities : List ContentCapability) (redistributionStatus : RedistributionStatus)
  | approval (planSha256 reviewSha256 sourceSha256 : Sha256Digest) (packageId : PackageId)
      (state : ImportPlanState) (approvalId : String)
      (targetReviewSha256 updateTargetConfirmationsSha256 : Sha256Digest)
      (components : List PlannedPackageComponent) (assets : List AssetDescriptor)
      (requiredCapabilities : List ContentCapability) (redistributionStatus : RedistributionStatus)

/-- The external functions of the package code. -/
structure PackageExternals where
  /-- `Sha256::digest`. -/
  sha256 : List UInt8 → Vector UInt8 32
  /-- `serde_json::to_vec`. -/
  toVec : PackageDocument → Except String (List UInt8)

/-- `canonical_sha256`. -/
def packageSha256 (lib : PackageExternals) (document : PackageDocument) : Packaging Sha256Digest := do
  let bytes ← mapErr .canonicalEncoding (lib.toVec document)
  mapErr .canonicalEncoding (Sha256Digest.parse (hexEncode (lib.sha256 bytes).toList))

/-! ## Capabilities -/

def capabilityRank : ContentCapability → Nat
  | .promptFragments => 0 | .knowledge => 1 | .variables => 2 | .transforms => 3
  | .declarativeInteractions => 4 | .portableRuntime => 5 | .imageAssets => 6 | .audioAssets => 7
  | .videoAssets => 8 | .attachmentAssets => 9 | .highRiskAssets => 10

def supportedCapabilities : List ContentCapability :=
  [.promptFragments, .knowledge, .variables, .transforms, .declarativeInteractions, .portableRuntime,
    .imageAssets, .audioAssets, .videoAssets, .attachmentAssets]

/-- `PackageValidationPolicy::default`; the version is that of the build. -/
def PackageValidationPolicy.default (version : String) : PackageValidationPolicy where
  supportedCapabilities := LorePia.supportedCapabilities
  redistributableLicenses :=
    ["Apache-2.0", "BSD-2-Clause", "BSD-3-Clause", "CC-BY-4.0", "CC0-1.0", "ISC", "MIT", "Zlib"]
  allowUnsignedPackages := true
  maxComponents := maxPackageComponents
  maxAssets := maxPackageAssets
  maxContentHashes := maxPackageContentHashes
  maxDependencies := maxPackageDependencies
  maxSourceBytes := maxPackageSourceBytes
  maxTotalObservedBytes := maxPackageTotalObservedBytes
  maxTotalAssetBytes := maxPackageTotalAssetBytes
  currentAppVersion := version

/-- `{capability:?}`. -/
def capabilityDebug : ContentCapability → String
  | .promptFragments => "PromptFragments" | .knowledge => "Knowledge" | .variables => "Variables"
  | .transforms => "Transforms" | .declarativeInteractions => "DeclarativeInteractions"
  | .portableRuntime => "PortableRuntime" | .imageAssets => "ImageAssets" | .audioAssets => "AudioAssets"
  | .videoAssets => "VideoAssets" | .attachmentAssets => "AttachmentAssets"
  | .highRiskAssets => "HighRiskAssets"

/-- `sort_by_key(capability_rank)` and `dedup()`. -/
def canonicalCapabilities (capabilities : List ContentCapability) : List ContentCapability :=
  (stableSort (fun left right => capabilityRank left ≤ capabilityRank right) capabilities).destutter
    (· ≠ ·)

/-! ## Issues -/

def blocker (code target message : String) : PackageValidationIssue := ⟨.blocker, code, target, message⟩

def warning (code target message : String) : PackageValidationIssue := ⟨.warning, code, target, message⟩

/-- The issue, if the condition holds. -/
def issueIf (condition : Prop) [Decidable condition] (issue : PackageValidationIssue) :
    List PackageValidationIssue :=
  if condition then [issue] else []

/-- `issues.iter().any(|issue| issue.severity == PackageIssueSeverity::Blocker)`. -/
def hasBlocker (issues : List PackageValidationIssue) : Bool :=
  issues.any fun issue => issue.severity = .blocker

def validateLabel (value target : String) : List PackageValidationIssue :=
  issueIf (isBlank value = true ∨ value.utf8ByteSize > maxLabelBytes ∨ hasControl value = true)
    (blocker "package.invalid_label" target
      "value must be non-empty, bounded, and free of control characters")

/-- `byte.is_ascii_alphabetic()` of a character. -/
def isAsciiAlphabetic (c : Char) : Bool :=
  (65 ≤ c.toNat && c.toNat ≤ 90) || (97 ≤ c.toNat && c.toNat ≤ 122)

/-- A drive prefix: the second byte is `b':'` and the first is a letter. -/
def hasDrivePrefix : List Char → Bool
  | letter :: ':' :: _ => isAsciiAlphabetic letter
  | _ => false

/-- The condition of `validate_logical_path`. -/
def isInvalidPath (path : String) : Bool :=
  path.toList.isEmpty || path.utf8ByteSize > maxPathBytes || path.toList.head? = some '/' ||
    path.toList.head? = some '\\' || path.toList.contains '\\' || path.toList.contains '\x00' ||
    (path.toList.splitOn '/').any (fun segment => segment = [] || segment = ['.'] || segment = ['.', '.']) ||
    hasDrivePrefix path.toList

def validateLogicalPath (path target : String) : List PackageValidationIssue :=
  issueIf (isInvalidPath path = true) (blocker "package.invalid_logical_path" target
    "logical path must be normalized, relative, and traversal-free")

/-! ## The manifest -/

/-- `text.parse::<u64>()`: an optional sign and decimal digits. -/
def parseU64 (text : List Char) : Option Nat :=
  let digits := if text.head? = some '+' then text.tail else text
  if digits = [] ∨ digits.all (fun c => 48 ≤ c.toNat && c.toNat ≤ 57) = false then none
  else
    let value := digits.foldl (fun value c => 10 * value + (c.toNat - 48)) 0
    if value ≤ usizeMax then some value else none

def parseVersionTriplet (version : String) : Option (ℕ ×ₗ ℕ ×ₗ ℕ) :=
  match ((trim version).toList.takeWhile (· ≠ '-')).splitOn '.' with
  | [major, minor, patch] => do
    let major ← parseU64 major
    let minor ← parseU64 minor
    let patch ← parseU64 patch
    pure (toLex (major, toLex (minor, patch)))
  | _ => none

/-- The check of the application version. -/
def validateAppVersion (policy : PackageValidationPolicy) (version : String) :
    List PackageValidationIssue :=
  match parseVersionTriplet version, parseVersionTriplet policy.currentAppVersion with
  | some required, some current =>
    issueIf (current < required) (blocker "package.app_version_too_old" "manifest.required_app_version"
      "package requires a newer LorePia application version")
  | _, _ => [blocker "package.invalid_app_version" "manifest.required_app_version"
      "application versions must use major.minor.patch numeric form"]

/-- The content hashes, each compared with the path before it. -/
def validateContentHashes : Option String → List PackageContentHash → List PackageValidationIssue
  | _, [] => []
  | previousPath, entry :: rest =>
    validateLogicalPath entry.logicalPath "manifest.content_hashes" ++
      issueIf (entry.sizeBytes = 0) (blocker "package.empty_payload" entry.logicalPath
        "manifest payload size must be positive") ++
      issueIf (entry.logicalPath = "manifest.json") (blocker "package.recursive_manifest_hash"
        "manifest.content_hashes" "manifest.json cannot hash itself") ++
      issueIf (previousPath = some entry.logicalPath) (blocker "package.duplicate_hash_path"
        entry.logicalPath "content hash paths must be unique") ++
      validateContentHashes (some entry.logicalPath) rest

def validateManifest (snapshot : PackageInspectionSnapshot) (policy : PackageValidationPolicy) :
    List PackageValidationIssue :=
  let manifest := snapshot.manifest
  issueIf (snapshot.sourceSizeBytes = 0 ∨ snapshot.sourceSizeBytes > policy.maxSourceBytes)
      (blocker "package.invalid_source_size" "source_size_bytes"
        "source byte size must be positive and within the configured limit") ++
    issueIf (manifest.format ≠ lorepiaPackageFormat) (blocker "package.format" "manifest.format"
      "manifest format is not LorePia's package format") ++
    issueIf (manifest.formatVersion ≠ lorepiaPackageFormatVersion) (blocker "package.format_version"
      "manifest.format_version" "manifest format version is unsupported") ++
    validateLabel manifest.packageId "manifest.package_id" ++
    validateLabel manifest.name "manifest.name" ++
    validateLabel manifest.version "manifest.version" ++
    validateLabel manifest.license "manifest.license" ++
    (match manifest.author with
      | some author => validateLabel author "manifest.author"
      | none => [warning "package.author_missing" "manifest.author" "package author is not declared"]) ++
    (match manifest.requiredAppVersion with
      | some version =>
        validateLabel version "manifest.required_app_version" ++ validateAppVersion policy version
      | none => []) ++
    issueIf (manifest.contentHashes.length > policy.maxContentHashes) (blocker "package.too_many_hashes"
      "manifest.content_hashes" "content hash count exceeds the configured limit") ++
    validateContentHashes none manifest.contentHashes ++
    manifest.requiredCapabilities.flatMap fun capability =>
      issueIf (capability ∉ policy.supportedCapabilities) (blocker "package.unsupported_capability"
        s!"capability:{capabilityDebug capability}"
        "package requires a capability unavailable in this application")

/-! ## Observed entries -/

/-- The state of the loop over the observed entries. -/
structure ObservedScan where
  observed : OrdMap String (Sha256Digest × UInt64)
  totalObservedBytes : Nat
  issues : List PackageValidationIssue

/-- One observed entry. -/
def scanObserved (scan : ObservedScan) (entry : ObservedPackageEntry) : ObservedScan :=
  let total := checkedAdd scan.totalObservedBytes entry.sizeBytes.toNat
  let issues := scan.issues ++
    issueIf (total = none) (blocker "package.observed_size_overflow" "observed_entries"
      "observed entry byte total overflowed") ++
    validateLogicalPath entry.logicalPath "observed_entries"
  if entry.logicalPath = "manifest.json" then
    { scan with
      totalObservedBytes := total.getD usizeMax
      issues := issues }
  else
    { observed := scan.observed.insert entry.logicalPath (entry.sha256, entry.sizeBytes)
      totalObservedBytes := total.getD usizeMax
      issues := issues ++
        issueIf (scan.observed.contains entry.logicalPath = true) (blocker
          "package.duplicate_observed_path" entry.logicalPath
          "the inspection contains duplicate normalized paths") }

/-- `manifest`: the content hashes by their path. -/
def manifestMap (hashes : List PackageContentHash) : OrdMap String (Sha256Digest × UInt64) :=
  .ofList (hashes.map fun entry => (entry.logicalPath, (entry.sha256, entry.sizeBytes)))

/-- One expected payload. -/
def checkPayload (observed : OrdMap String (Sha256Digest × UInt64))
    (entry : String × Sha256Digest × UInt64) : List PackageValidationIssue :=
  match observed.get? entry.1 with
  | none => [blocker "package.hash_missing_payload" entry.1 "manifest hash has no observed payload"]
  | some actual =>
    if actual.1 ≠ entry.2.1 then
      [blocker "package.hash_mismatch" entry.1 "observed payload digest does not match manifest"]
    else
      issueIf (actual.2 ≠ entry.2.2) (blocker "package.size_mismatch" entry.1
        "observed payload size does not match manifest")

def validateObservedHashes (snapshot : PackageInspectionSnapshot) (policy : PackageValidationPolicy) :
    List PackageValidationIssue :=
  let scan := snapshot.observedEntries.foldl scanObserved ⟨.empty, 0, []⟩
  let manifest := manifestMap snapshot.manifest.contentHashes
  issueIf (snapshot.observedEntries.length > policy.maxContentHashes) (blocker "package.too_many_entries"
      "observed_entries" "observed entry count exceeds the configured limit") ++
    scan.issues ++
    issueIf (scan.totalObservedBytes > policy.maxTotalObservedBytes.toNat) (blocker
      "package.observed_payload_too_large" "observed_entries"
      "observed payload bytes exceed the configured limit") ++
    manifest.entries.flatMap (checkPayload scan.observed) ++
    scan.observed.keys.flatMap fun path =>
      issueIf (manifest.contains path = false) (blocker "package.unhashed_payload" path
        "observed payload is not covered by the manifest")

/-! ## Components -/

/-- `for child in children`: whether a child is on a cycle, with the nodes being visited and those that
are complete. -/
def anyChildCycle (known : String → Bool)
    (visit : String → List String → List String → Bool × List String × List String) :
    List String → List String → List String → Bool × List String × List String
  | [], visiting, complete => (false, visiting, complete)
  | child :: rest, visiting, complete =>
    if known child then
      match visit child visiting complete with
      | (true, visiting', complete') => (true, visiting', complete')
      | (false, visiting', complete') => anyChildCycle known visit rest visiting' complete'
    else anyChildCycle known visit rest visiting complete

def hasDependencyCycle (dependencies : OrdMap String (List String)) :
    Nat → String → List String → List String → Bool × List String × List String
  | 0, _, visiting, complete => (true, visiting, complete)
  | fuel + 1, id, visiting, complete =>
    if id ∈ complete then (false, visiting, complete)
    else if id ∈ visiting then (true, visiting, complete)
    else
      match anyChildCycle dependencies.contains (hasDependencyCycle dependencies fuel)
        ((dependencies.get? id).getD []) (id :: visiting) complete with
      | (true, visiting', complete') => (true, visiting', complete')
      | (false, visiting', complete') => (false, visiting'.erase id, id :: complete')

/-- The loop of `detect_dependency_cycles`. -/
def detectCyclesFrom (dependencies : OrdMap String (List String)) (fuel : Nat) :
    List PackageComponentDescriptor → List String → List PackageValidationIssue
  | [], _ => []
  | component :: rest, complete =>
    let result := hasDependencyCycle dependencies fuel component.id [] complete
    issueIf (result.1 = true) (blocker "package.dependency_cycle" component.id
      "component dependency graph contains a cycle") ++
      detectCyclesFrom dependencies fuel rest result.2.2

def detectDependencyCycles (components : List PackageComponentDescriptor) : List PackageValidationIssue :=
  detectCyclesFrom
    (.ofList (components.map fun component => (component.id, component.dependencies)))
    (components.length + 1) components []

/-- A component's path in the manifest. -/
def checkComponentHash (manifestHashes : OrdMap String Sha256Digest)
    (component : PackageComponentDescriptor) : List PackageValidationIssue :=
  match manifestHashes.get? component.logicalPath with
  | some hash =>
    issueIf (hash ≠ component.sha256) (blocker "package.component_hash_mismatch" component.id
      "component digest does not match the manifest")
  | none => [blocker "package.component_hash_missing" component.id
      "component path is not covered by the manifest"]

/-- The dependencies or conflicts of a component: other components that exist. -/
def checkReferences (componentIds : List String) (component : PackageComponentDescriptor)
    (selfIssue unknownIssue : PackageValidationIssue) (references : List String) :
    List PackageValidationIssue :=
  references.flatMap fun reference =>
    if reference = component.id then [selfIssue] else issueIf (reference ∉ componentIds) unknownIssue

/-- One component. -/
def validateComponent (snapshot : PackageInspectionSnapshot)
    (manifestHashes : OrdMap String Sha256Digest) (assetIds : List AssetId) (componentIds : List String)
    (component : PackageComponentDescriptor) : List PackageValidationIssue :=
  validateLabel component.id "component.id" ++
    validateLogicalPath component.logicalPath component.id ++
    checkComponentHash manifestHashes component ++
    checkReferences componentIds component
      (blocker "package.self_dependency" component.id "component cannot depend on itself")
      (blocker "package.unknown_dependency" component.id "component dependency does not exist")
      component.dependencies ++
    checkReferences componentIds component
      (blocker "package.self_conflict" component.id "component cannot conflict with itself")
      (blocker "package.unknown_conflict" component.id "component conflict target does not exist")
      component.conflictsWith ++
    component.requiredCapabilities.flatMap (fun capability =>
      issueIf (capability ∉ snapshot.manifest.requiredCapabilities)
        (blocker "package.undeclared_component_capability" component.id
          "component requires a capability not declared by the manifest")) ++
    component.assetIds.flatMap (fun assetId =>
      issueIf (assetId ∉ assetIds) (blocker "package.unknown_component_asset" component.id
        "component references an asset that is absent")) ++
    issueIf (component.disposition ≠ .importable) (warning "package.inert_component" component.id
      "unsupported or quarantined component will remain inert") ++
    issueIf (component.kind = .rawExtension ∧ component.disposition = .importable)
      (blocker "package.raw_extension_not_quarantined" component.id
        "raw extension content cannot be marked importable")

/-- `manifest_hashes`. -/
def manifestHashMap (hashes : List PackageContentHash) : OrdMap String Sha256Digest :=
  .ofList (hashes.map fun entry => (entry.logicalPath, entry.sha256))

def validateComponents (snapshot : PackageInspectionSnapshot) (policy : PackageValidationPolicy) :
    List PackageValidationIssue :=
  let manifestHashes := manifestHashMap snapshot.manifest.contentHashes
  let assetIds := sortedSet (snapshot.assets.map (·.id))
  let componentIds := sortedSet (snapshot.components.map (·.id))
  let dependencyCount := snapshot.components.foldl
    (fun count component => min (count + component.dependencies.length) usizeMax) 0
  issueIf (snapshot.components.length > policy.maxComponents) (blocker "package.too_many_components"
      "components" "component count exceeds the configured limit") ++
    issueIf (componentIds.length ≠ snapshot.components.length) (blocker "package.duplicate_component_id"
      "components" "component identifiers must be unique across component kinds") ++
    snapshot.components.flatMap (validateComponent snapshot manifestHashes assetIds componentIds) ++
    issueIf (dependencyCount > policy.maxDependencies) (blocker "package.too_many_dependencies"
      "components" "dependency count exceeds the configured limit") ++
    detectDependencyCycles snapshot.components

/-! ## Assets -/

def isHighRiskMediaType (mediaType : String) : Bool :=
  let lower := toAsciiLowercase (trim mediaType)
  ["application/javascript", "application/wasm", "application/xhtml+xml", "application/x-executable",
    "image/svg+xml", "text/css", "text/html", "text/javascript"].contains lower ||
    "font/".toList.isPrefixOf lower.toList

def allowedAssetExtensions (mediaType : String) : List String :=
  match toAsciiLowercase (trim mediaType) with
  | "image/png" => ["png"]
  | "image/jpeg" => ["jpg", "jpeg"]
  | "image/gif" => ["gif"]
  | "image/webp" => ["webp"]
  | "image/avif" => ["avif"]
  | "audio/mpeg" => ["mp3"]
  | "audio/wav" => ["wav"]
  | "audio/ogg" => ["ogg"]
  | "video/mp4" => ["mp4"]
  | "video/webm" => ["webm"]
  | "application/pdf" => ["pdf"]
  | "text/plain" => ["txt"]
  | "application/javascript" | "text/javascript" => ["js"]
  | "application/wasm" => ["wasm"]
  | "application/xhtml+xml" => ["xhtml"]
  | "application/x-executable" => ["exe"]
  | "image/svg+xml" => ["svg"]
  | "text/css" => ["css"]
  | "text/html" => ["html", "htm"]
  | "font/woff" => ["woff"]
  | "font/woff2" => ["woff2"]
  | "font/ttf" => ["ttf"]
  | "font/otf" => ["otf"]
  | _ => []

/-- `text.strip_prefix(start)`. -/
def stripStart : List Char → List Char → Option (List Char)
  | [], text => some text
  | c :: start, d :: text => if c = d then stripStart start text else none
  | _ :: _, [] => none

def assetPathMatchesDigestAndMediaType (path : String) (digest : Sha256Digest) (mediaType : String) :
    Bool :=
  match stripStart ("assets/sha256/" ++ digest.value).toList path.toList with
  | none => false
  | some [] => true
  | some ('.' :: extension) => (allowedAssetExtensions mediaType).contains (String.ofList extension)
  | some _ => false

/-- The path of an asset in the manifest and among the observed entries. -/
def checkAssetPath (snapshot : PackageInspectionSnapshot) (manifestHashes : OrdMap String Sha256Digest)
    (asset : AssetDescriptor) (path : String) : List PackageValidationIssue :=
  validateLogicalPath path asset.id ++
    issueIf (assetPathMatchesDigestAndMediaType path asset.sha256 asset.mediaType = false)
      (blocker "package.asset_content_address_mismatch" asset.id
        "asset path must contain its exact SHA-256 digest and only an optional media-type extension") ++
    (match manifestHashes.get? path with
      | some hash =>
        issueIf (hash ≠ asset.sha256) (blocker "package.asset_hash_mismatch" asset.id
          "asset digest does not match the manifest")
      | none => [blocker "package.asset_hash_missing" asset.id
          "asset path is not covered by the manifest"]) ++
    (match snapshot.observedEntries.find? fun entry => entry.logicalPath = path with
      | some observed =>
        issueIf (observed.sizeBytes ≠ asset.sizeBytes) (blocker "package.asset_size_mismatch" asset.id
          "asset byte size does not match the inspected payload")
      | none => [])

/-- The checks of one asset that read nothing of the loop's state. -/
def checkAsset (snapshot : PackageInspectionSnapshot) (manifestHashes : OrdMap String Sha256Digest)
    (asset : AssetDescriptor) : List PackageValidationIssue :=
  issueIf (asset.width.isSome ≠ asset.height.isSome) (blocker "package.incomplete_asset_dimensions"
      asset.id "asset width and height must be present together") ++
    issueIf (asset.source.kind ≠ .lorepiaPackage) (blocker "package.asset_provenance_kind_mismatch"
      asset.id "package assets must identify LorePia package provenance") ++
    issueIf (asset.source.sourceSha256 ≠ some snapshot.sourceSha256)
      (blocker "package.asset_provenance_hash_mismatch" asset.id
        "asset provenance must bind the inspected package source hash") ++
    issueIf (isHighRiskMediaType asset.mediaType = true) (warning "package.high_risk_asset" asset.id
      "code, HTML, SVG, font, or executable assets are quarantined") ++
    (match asset.source.logicalPath with
      | some path => checkAssetPath snapshot manifestHashes asset path
      | none => [blocker "package.asset_path_missing" asset.id
          "package asset must have a logical package path"])

/-- The state of the loop over the assets. -/
structure AssetScan where
  seenIds : List AssetId
  totalSize : Nat
  issues : List PackageValidationIssue

/-- One asset. -/
def scanAsset (snapshot : PackageInspectionSnapshot) (manifestHashes : OrdMap String Sha256Digest)
    (scan : AssetScan) (asset : AssetDescriptor) : AssetScan :=
  let total := checkedAdd scan.totalSize asset.sizeBytes.toNat
  { seenIds := asset.id :: scan.seenIds
    totalSize := total.getD usizeMax
    issues := scan.issues ++
      issueIf (asset.id ∈ scan.seenIds) (blocker "package.duplicate_asset_id" asset.id
        "asset identifiers must be unique") ++
      validateLabel asset.name "asset.name" ++
      validateLabel asset.mediaType "asset.media_type" ++
      issueIf (total = none) (blocker "package.asset_size_overflow" asset.id
        "asset size total overflowed") ++
      checkAsset snapshot manifestHashes asset }

/-- The issues of `validate_assets`. -/
def validateAssets (snapshot : PackageInspectionSnapshot) (policy : PackageValidationPolicy) :
    List PackageValidationIssue :=
  let scan := snapshot.assets.foldl
    (scanAsset snapshot (manifestHashMap snapshot.manifest.contentHashes)) ⟨[], 0, []⟩
  issueIf (snapshot.assets.length > policy.maxAssets) (blocker "package.too_many_assets" "assets"
      "asset count exceeds the configured limit") ++
    scan.issues ++
    issueIf (scan.totalSize > policy.maxTotalAssetBytes.toNat) (blocker "package.assets_too_large"
      "assets" "total asset bytes exceed the configured limit")

/-- The assets that `validate_assets` returns. -/
def reviewedAssets (snapshot : PackageInspectionSnapshot) : List ReviewedPackageAsset :=
  snapshot.assets.map fun asset =>
    ⟨asset, if isHighRiskMediaType asset.mediaType then .quarantined else .importable⟩

/-! ## Provenance and signature -/

/-- The source hash of the provenance. -/
def validateProvenanceHash (sourceSha256 : Sha256Digest) : Option String → List PackageValidationIssue
  | none => [blocker "package.provenance_hash_missing" "manifest.provenance.source_hash"
      "imported package provenance requires a source hash"]
  | some hash =>
    match Sha256Digest.parse hash with
    | .ok hash =>
      issueIf (hash ≠ sourceSha256) (blocker "package.provenance_hash_mismatch"
        "manifest.provenance.source_hash" "provenance source hash must match inspected source bytes")
    | .error _ => [blocker "package.provenance_hash_invalid" "manifest.provenance.source_hash"
        "provenance source hash is not a SHA-256 digest"]

/-- `validate_provenance`. -/
def validatePackageProvenance (snapshot : PackageInspectionSnapshot) : List PackageValidationIssue :=
  let manifest := snapshot.manifest
  let provenance := manifest.provenance
  issueIf (provenance.sourceKind ≠ .importedPackage) (blocker "package.invalid_provenance_kind"
      "manifest.provenance.source_kind"
      "an inspected import must be marked as imported package content") ++
    issueIf (provenance.sourceId ≠ some manifest.packageId) (blocker
      "package.provenance_source_id_mismatch" "manifest.provenance.source_id"
      "provenance source identifier must match package_id") ++
    validateProvenanceHash snapshot.sourceSha256 provenance.sourceHash ++
    issueIf (provenance.author ≠ manifest.author) (blocker "package.provenance_author_mismatch"
      "manifest.provenance.author" "provenance author must match manifest author") ++
    issueIf (provenance.license ≠ some manifest.license) (blocker "package.provenance_license_mismatch"
      "manifest.provenance.license" "provenance license must match manifest license") ++
    issueIf (provenance.importedAt = none) (blocker "package.provenance_time_missing"
      "manifest.provenance.imported_at" "imported package provenance requires an import timestamp")

/-- The signature and its verification. -/
def validateSignatureState (policy : PackageValidationPolicy) :
    Bool → SignatureVerification → List PackageValidationIssue
  | false, .absent =>
    if policy.allowUnsignedPackages then
      [warning "package.unsigned" "manifest.signature" "package has no verified signature"]
    else
      [blocker "package.signature_required" "manifest.signature"
        "policy requires a verified package signature"]
  | true, .verified => []
  | true, .invalid => [blocker "package.signature_invalid" "manifest.signature"
      "package signature verification failed"]
  | true, .unsupported => [blocker "package.signature_unsupported" "manifest.signature"
      "package signature algorithm is unsupported"]
  | _, _ => [blocker "package.signature_state_mismatch" "manifest.signature"
      "manifest signature and verification state disagree"]

def validateSignature (snapshot : PackageInspectionSnapshot) (policy : PackageValidationPolicy) :
    List PackageValidationIssue :=
  (match snapshot.manifest.signature with
    | some signature =>
      validateLabel signature.algorithm "manifest.signature.algorithm" ++
        validateLabel signature.keyId "manifest.signature.key_id" ++
        validateLabel signature.signatureBase64 "manifest.signature.signature_base64"
    | none => []) ++
    validateSignatureState policy snapshot.manifest.signature.isSome snapshot.signatureVerification

/-! ## The review -/

/-- `text.to_ascii_uppercase()`. -/
def toAsciiUppercase (text : String) : String :=
  String.ofList (text.toList.map fun c =>
    if 97 ≤ c.toNat && c.toNat ≤ 122 then Char.ofNat (c.toNat - 32) else c)

def isUnclearLicense (license : String) : Bool :=
  let upper := toAsciiUppercase (trim license)
  ["", "UNKNOWN", "NOASSERTION", "UNLICENSED", "LICENSE-UNKNOWN", "LICENSEREF-UNKNOWN"].contains upper ||
    "LICENSEREF-".toList.isPrefixOf upper.toList

def redistributionStatus (snapshot : PackageInspectionSnapshot) (policy : PackageValidationPolicy)
    (issues : List PackageValidationIssue) : RedistributionStatus :=
  if hasBlocker issues then .validationBlocked
  else if !snapshot.manifest.redistributionAllowed then .deniedByManifest
  else if issues.any fun issue => "package.provenance_".toList.isPrefixOf issue.code.toList ||
      issue.code = "package.author_missing" then .provenanceIncomplete
  else if isUnclearLicense snapshot.manifest.license ||
      !policy.redistributableLicenses.any fun license =>
        toAsciiLowercase license = toAsciiLowercase snapshot.manifest.license then .licenseUnclear
  else .allowed

/-- The lists of a component in canonical order. -/
def canonicalComponent (component : PackageComponentDescriptor) : PackageComponentDescriptor :=
  { component with
    dependencies := sortDedup component.dependencies
    conflictsWith := sortDedup component.conflictsWith
    requiredCapabilities := canonicalCapabilities component.requiredCapabilities
    assetIds := sortDedup component.assetIds }

/-- What the components are sorted by. -/
def componentKey (component : PackageComponentDescriptor) : ℕ ×ₗ String :=
  toLex (component.kind.rank, component.id)

def canonicalizeSnapshot (snapshot : PackageInspectionSnapshot) : PackageInspectionSnapshot :=
  { snapshot with
    manifest :=
      { snapshot.manifest with
        requiredCapabilities := canonicalCapabilities snapshot.manifest.requiredCapabilities
        contentHashes := stableSort (fun left right =>
          toLex (left.logicalPath, left.sha256) ≤ toLex (right.logicalPath, right.sha256))
          snapshot.manifest.contentHashes }
    components := stableSort (fun left right => componentKey left ≤ componentKey right)
      (snapshot.components.map canonicalComponent)
    assets := stableSort (fun left right => left.id ≤ right.id) snapshot.assets
    observedEntries := stableSort (fun left right =>
      toLex (left.logicalPath, left.sha256) ≤ toLex (right.logicalPath, right.sha256))
      snapshot.observedEntries }

/-- Every issue of a canonical snapshot, in the order of the checks. -/
def snapshotIssues (canonical : PackageInspectionSnapshot) (policy : PackageValidationPolicy) :
    List PackageValidationIssue :=
  validateManifest canonical policy ++ validateObservedHashes canonical policy ++
    validateComponents canonical policy ++ validateAssets canonical policy ++
    validatePackageProvenance canonical ++ validateSignature canonical policy

/-- The review of a canonical snapshot. -/
def reviewCanonical (lib : PackageExternals) (canonical : PackageInspectionSnapshot)
    (policy : PackageValidationPolicy) : Packaging PackageReview := do
  let assets := reviewedAssets canonical
  let issues := sortDedup (snapshotIssues canonical policy)
  let localImportAllowed := !hasBlocker issues
  let status := redistributionStatus canonical policy issues
  let reviewSha256 ← packageSha256 lib (.review canonical.sourceSha256 canonical.manifest
    canonical.components assets issues localImportAllowed status)
  pure ⟨reviewSha256, canonical.sourceSha256, canonical.manifest, canonical.components, assets, issues,
    localImportAllowed, status⟩

def validatePackageSnapshot (lib : PackageExternals) (snapshot : PackageInspectionSnapshot)
    (policy : PackageValidationPolicy) : Packaging PackageReview :=
  reviewCanonical lib (canonicalizeSnapshot snapshot) policy

def PackageReview.verify (lib : PackageExternals) (review : PackageReview) : Packaging Unit := do
  let expected ← packageSha256 lib (.review review.sourceSha256 review.manifest review.components
    review.assets review.issues review.localImportAllowed review.redistributionStatus)
  rejectIf (expected ≠ review.reviewSha256) .reviewHashMismatch

end LorePia
