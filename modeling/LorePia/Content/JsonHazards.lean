import LorePia.Content.Package
import LorePia.Domain.Discovery
import Mathlib.Data.Finset.Lattice.Basic

/-!
# Hazards of JSON components (`crates/content/src/package/json_hazards.rs`)

`inspect_json_component` looks for active content in the untyped JSON of a component,
`inspect_content_module_contract` (`package.rs`) decodes the modules of the same JSON. `read_package_entry` runs
both on a module component, and lets the scan skip the runtimes.
-/

namespace LorePia.ContentPackage

open Base

def maxJsonScanNodes : Nat := 100000

inductive HazardKind
  | code | script | html | externalUrl | unsafeAction
deriving DecidableEq

structure HazardScan where
  kinds : Finset HazardKind
  nodeCount : Nat

/-! ## What is a hazard -/

def portableRuntimeKey : String := "portable_runtime"

/-- `child_key.to_ascii_lowercase() == "portable_runtime"`. -/
def isRuntimeKey (key : String) : Bool := toAsciiLowercase key = portableRuntimeKey

/-- The kind if the condition holds. -/
def kindIf (found : Bool) (kind : HazardKind) : Finset HazardKind := if found then {kind} else ∅

/-- The kinds that a key shows, in lower case. -/
def keyHazards (lower : String) : Finset HazardKind :=
  kindIf (["script", "scripts", "javascript"].contains lower || Discovery.textStartsWith lower "script_" ||
      Discovery.textEndsWith lower "_script" || Discovery.textEndsWith lower "_scripts") .script ∪
    kindIf (lower = "html" || Discovery.textEndsWith lower "_html") .html ∪
    kindIf (lower = "code" || Discovery.textEndsWith lower "_code") .code ∪
    kindIf (["shell", "command", "exec", "network_request", "filesystem"].contains lower) .unsafeAction

/-- The keys whose value names an action. -/
def actionKeys : List String := ["action", "action_type", "kind", "type", "operation"]

/-- The actions that are a hazard. -/
def unsafeActions : List String :=
  ["execute", "exec", "shell", "run_script", "network_request", "fetch", "open_url", "read_file", "write_file",
    "javascript", "html"]

/-- The kinds that a text shows under a key. -/
def textHazards (key : Option String) (text : String) : Finset HazardKind :=
  let lower := toAsciiLowercase text
  kindIf (["http://", "https://", "//"].any (Discovery.textStartsWith lower)) .externalUrl ∪
    kindIf (["<script", "<iframe", "javascript:", "data:text/html"].any (containsText lower)) .html ∪
    kindIf (key.any actionKeys.contains && unsafeActions.contains lower) .unsafeAction

/-! ## The scan -/

/-- The count of one more node. -/
def countNode (scan : HazardScan) : Except CoreError HazardScan := do
  let nodeCount ← okOr (checkedAdd scan.nodeCount 1) (unsupported "component JSON node count overflow")
  rejectIf (nodeCount > maxJsonScanNodes) (unsupported "component JSON exceeds the structural node limit")
  return { scan with nodeCount }

mutual
def scanJsonHazards (skip : Bool) (key : Option String) : Json → HazardScan → Except CoreError HazardScan
  | .object fields, scan => do
    let scan ← countNode scan
    scanFields skip fields scan
  | .array items, scan => do
    let scan ← countNode scan
    scanItems skip key items scan
  | .string text, scan => do
    let scan ← countNode scan
    return { scan with kinds := scan.kinds ∪ textHazards key text }
  | .null, scan | .bool _, scan | .number _, scan => countNode scan

/-- The entries of an object. -/
def scanFields (skip : Bool) : List (String × Json) → HazardScan → Except CoreError HazardScan
  | [], scan => .ok scan
  | (childKey, child) :: rest, scan =>
    if skip && isRuntimeKey childKey then scanFields skip rest scan
    else do
      let lower := toAsciiLowercase childKey
      let scan ← scanJsonHazards skip (some lower) child { scan with kinds := scan.kinds ∪ keyHazards lower }
      scanFields skip rest scan

/-- The items of an array. -/
def scanItems (skip : Bool) (key : Option String) : List Json → HazardScan → Except CoreError HazardScan
  | [], scan => .ok scan
  | child :: rest, scan => do
    let scan ← scanJsonHazards skip key child scan
    scanItems skip key rest scan
end

/-- `value.is_array()`. -/
def isArray : Json → Bool
  | .array _ => true
  | _ => false

/-- `inspect_json_component`, from the parsed value on. -/
def inspectJsonValue (skip : Bool) (value : Json) : Except CoreError HazardScan := do
  rejectIf (value.isObject = false ∧ isArray value = false)
    (unsupported "component JSON must contain an object or array")
  scanJsonHazards skip none value ⟨∅, 0⟩

variable (codec : PackageCodec)

def inspectJsonComponent (bytes : List UInt8) (skip : Bool) : Except CoreError HazardScan := do
  let value ← mapErr (fun error => unsupported s!"invalid component JSON: {error}") (codec.parseValue bytes)
  inspectJsonValue skip value

/-! ## The module contract -/

def contentModuleCapability : ContentCapability → String
  | .promptFragments => "prompt_presets"
  | .knowledge => "knowledge_books"
  | .variables => "variables"
  | .transforms => "safe_transforms"
  | .declarativeInteractions => "declarative_interactions"
  | .portableRuntime => "portable_runtime"
  | .imageAssets => "image_assets"
  | .audioAssets => "audio_assets"
  | .videoAssets => "video_assets"
  | .attachmentAssets => "attachment_assets"
  | .highRiskAssets => "high_risk_assets"

/-- The keys under which a component may hold its modules. -/
def moduleWrapperKeys : List String := ["modules", "content_modules"]

/-- One module of a component. -/
def inspectModule (contentModule : ContentModule) : Except CoreError ContentModule := do
  let contentModule ← normalizeImportedModulePromptBlocks contentModule
  validateContentModuleImportContract codec contentModule
  return contentModule

def inspectContentModuleContract (bytes : List UInt8) : Except CoreError (List AssetId × List String) := do
  let modules ← decodeDocumentList codec codec.contentModule bytes moduleWrapperKeys
  rejectIf (modules = []) (unsupported "content module component must contain at least one module")
  let modules ← modules.mapM (inspectModule codec)
  return (sortDedup (modules.flatMap (·.assetIds)),
    sortDedup (modules.flatMap (fun contentModule => contentModule.requiredCapabilities.map contentModuleCapability) ++
      ["content_modules"]))

/-- What `read_package_entry` keeps of a JSON component. -/
structure ScannedJson where
  hazards : Finset HazardKind
  error : Option String
  referencedAssetIds : List AssetId
  moduleRequiredCapabilities : List String

/-- The hazard scan of `read_package_entry`. -/
def scanEntryJson (bytes : List UInt8) (kind : ContentPackageComponentKind) : ScannedJson :=
  match inspectJsonComponent codec bytes (kind = .contentModule) with
  | .error error => ⟨∅, some error.message, [], []⟩
  | .ok scan =>
    if kind = .contentModule then
      match inspectContentModuleContract codec bytes with
      | .ok (assetIds, requiredCapabilities) => ⟨scan.kinds, none, assetIds, requiredCapabilities⟩
      | .error error => ⟨scan.kinds, some error.message, [], []⟩
    else ⟨scan.kinds, none, [], []⟩

end LorePia.ContentPackage
