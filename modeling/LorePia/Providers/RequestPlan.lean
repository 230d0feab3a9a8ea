import LorePia.Base.Json
import LorePia.Providers.Credentials

/-!
# Request previews (`crates/providers/src/request_plan.rs`)

`build_request_preview` describes a request without its values: the destination split into an origin and a
path, the decoded names of the query parameters, the names of the headers, and the shape of the body within a
budget of nodes. The `url` crate's reading of a destination is its input.
-/

namespace LorePia.RequestPlan

open Base Discovery Credentials

def maxPreviewOriginBytes : Nat := 512
def maxPreviewPathBytes : Nat := 2048
def maxPreviewPathSegmentBytes : Nat := 256
def maxPreviewQueryBytes : Nat := 16 * 1024
def maxPreviewQueryParameters : Nat := 64
def maxPreviewQueryNameBytes : Nat := 128
def maxPreviewEncodedQueryNameBytes : Nat := 512
def maxPreviewHeaderNames : Nat := 64
def maxPreviewHeaderNameBytes : Nat := 128
def maxPreviewBodyDepth : Nat := 16
def maxPreviewBodyNodes : Nat := 256
def maxPreviewObjectFields : Nat := 32
def maxPreviewArrayItems : Nat := 8
def maxPreviewBodyFieldNameBytes : Nat := 128
def redactedPathSegment : String := "__redacted__"
def redactedBodyFieldName : String := "__redacted_field__"

/-- The parts of other crates and of floating-point arithmetic. -/
structure PreviewLibrary extends DiscoveryLibrary where
  highEntropy : EntropyTest

inductive RequestPreviewErrorKind
  | invalidDestination
  | embeddedCredential
  | destinationTooLarge
  | invalidPath
  | queryTooLarge
  | tooManyQueryParameters
  | invalidQueryName
  | tooManyHeaderNames
  | invalidHeaderName
deriving DecidableEq

abbrev Preview := Except RequestPreviewErrorKind

/-! ## Names -/

def normalizeName (value : String) : String :=
  toAsciiLowercase (String.ofList (value.toList.filter isAsciiAlphanumeric))

def isSensitiveLocationName (value : String) : Bool :=
  normalizeName value ∈ ["key", "apikey", "token", "accesstoken", "refreshtoken", "idtoken", "signature", "sig",
    "signed", "credential", "secret", "password", "auth", "authorization", "cookie", "session", "sessionid"]

def bodyFieldRequiresRedaction (value : String) : Bool :=
  normalizeName value ∈ ["authorization", "proxyauthorization", "apikey", "xapikey", "xgoogapikey",
    "accesstoken", "refreshtoken", "idtoken", "credential", "credentials", "secret", "password", "cookie",
    "setcookie", "messages", "message", "content", "contents", "text", "prompt", "input", "instructions",
    "system", "systeminstruction", "signature", "thoughtsignature", "encryptedcontent", "reasoningsignature",
    "reasoningstate", "opaquereasoningstate", "previousresponseid", "continuationtoken", "sessionid",
    "conversationid"]

/-- A byte that `safe_body_field_name` keeps. -/
def isFieldNameByte (c : Char) : Bool :=
  isAsciiAlphanumeric c || c = '_' || c = '-' || c = '.' || c = ':' || c = '$' || c = '[' || c = ']'

def safeBodyFieldName (lib : PreviewLibrary) (value : String) : String :=
  if value ≠ "" && value.utf8ByteSize ≤ maxPreviewBodyFieldNameBytes && value.toList.all isFieldNameByte &&
    !containsCredentialLikeToken lib.highEntropy value then value else redactedBodyFieldName

/-! ## Percent decoding -/

def hexValue (byte : UInt8) : Option UInt8 :=
  if 48 ≤ byte && byte ≤ 57 then some (byte - 48)
  else if 97 ≤ byte && byte ≤ 102 then some (byte - 97 + 10)
  else if 65 ≤ byte && byte ≤ 70 then some (byte - 65 + 10)
  else none

/-- The byte loop of `percent_decode_once`. -/
def percentDecodeBytes : List UInt8 → Option (List UInt8)
  | [] => some []
  | byte :: rest =>
    if byte = 37 then
      match rest with
      | high :: low :: rest => do
        let high ← hexValue high
        let low ← hexValue low
        let decoded ← percentDecodeBytes rest
        some ((high <<< 4 ||| low) :: decoded)
      | _ => none
    else do
      let decoded ← percentDecodeBytes rest
      some (byte :: decoded)

def percentDecodeOnce (value : String) : Option String := do
  let decoded ← percentDecodeBytes (utf8Bytes value)
  String.fromUTF8? ⟨decoded.toArray⟩

/-- `percent_decode` with so many passes left. -/
def percentDecodePasses : Nat → String → Option String
  | 0, decoded => if '%' ∈ decoded.toList then none else some decoded
  | passes + 1, decoded =>
    if '%' ∈ decoded.toList then do percentDecodePasses passes (← percentDecodeOnce decoded)
    else some decoded

def percentDecode (value : String) : Option String := percentDecodePasses 4 value

/-! ## Destinations -/

/-- A decimal number below 256 without a leading zero. -/
def isIpv4Octet (octet : List Char) : Bool :=
  octet ≠ [] && octet.length ≤ 3 && octet.all isAsciiDigit && (octet.length = 1 || octet.head? ≠ some '0') &&
    octet.foldl (fun value c => value * 10 + (c.toNat - 48)) 0 ≤ 255

/-- A text that `Ipv4Addr` parses. -/
def parsesAsIpv4 (value : List Char) : Bool :=
  let octets := value.splitOn '.'
  octets.length = 4 && octets.all isIpv4Octet

/-- The 16-bit pieces of a side of an IPv6 text; only the last group may be an IPv4 address. -/
def ipv6Pieces (allowIpv4 : Bool) : List (List Char) → Option Nat
  | [] => some 0
  | group :: rest =>
    if group ≠ [] ∧ group.length ≤ 4 ∧ group.all isHexDigit = true then (ipv6Pieces allowIpv4 rest).map (· + 1)
    else if allowIpv4 = true ∧ rest = [] ∧ parsesAsIpv4 group = true then some 2 else none

/-- The groups between the colons. -/
def ipv6Groups (side : List Char) : List (List Char) := if side = [] then [] else side.splitOn ':'

/-- The text around the first `::`. -/
def splitDoubleColon : List Char → Option (List Char × List Char)
  | ':' :: ':' :: rest => some ([], rest)
  | c :: rest => (splitDoubleColon rest).map fun sides => (c :: sides.1, sides.2)
  | [] => none

/-- A text that `Ipv6Addr` parses. -/
def parsesAsIpv6 (value : List Char) : Bool :=
  match splitDoubleColon value with
  | none => ipv6Pieces true (value.splitOn ':') = some 8
  | some (head, tail) =>
    match ipv6Pieces false (ipv6Groups head), ipv6Pieces true (ipv6Groups tail) with
    | some head, some tail => head + tail ≤ 7
    | _, _ => false

def unsafeOriginHost (lib : PreviewLibrary) (value : String) : Bool :=
  let value := trimMatches (fun c => c = '[' || c = ']') value.toList
  if parsesAsIpv4 value || parsesAsIpv6 value then false
  else containsCredentialLikeToken lib.highEntropy (String.ofList value) ||
    (value.splitOn '.').any fun label => containsCredentialLikeToken lib.highEntropy (String.ofList label)

def previewOrigin (lib : PreviewLibrary) (destination : ParsedUrl) : Preview Discovery.CanonicalOrigin := do
  rejectIf ((destination.scheme ≠ "http" ∧ destination.scheme ≠ "https") ∨ destination.host = none)
    .invalidDestination
  rejectIf (destination.username ≠ "" ∨ destination.password ≠ none) .embeddedCredential
  rejectIf (destination.host.any (unsafeOriginHost lib)) .invalidDestination
  rejectIf (destination.origin.utf8ByteSize > maxPreviewOriginBytes) .destinationTooLarge
  mapErr (fun _ => .invalidDestination) (Discovery.CanonicalOrigin.parse lib.toDiscoveryLibrary destination.origin)

def containsInlineSecretLocation (value : String) : Bool :=
  ['=', ':'].any fun separator => value.toList.contains separator &&
    isSensitiveLocationName (String.ofList (value.toList.takeWhile (· ≠ separator)))

def unsafePathSegment (lib : PreviewLibrary) (raw decoded : String) : Bool :=
  raw.utf8ByteSize > maxPreviewPathSegmentBytes || decoded.utf8ByteSize > maxPreviewPathSegmentBytes ||
    decoded.toList.contains '@' || hasControl decoded || containsInlineSecretLocation decoded ||
      containsCredentialLikeToken lib.highEntropy decoded

/-- `EndpointPath`, by its text. -/
structure EndpointPath where
  value : String
deriving DecidableEq

def EndpointPath.parse (value : String) : Except String EndpointPath := do
  let lower := toAsciiLowercase value
  rejectIf (textStartsWith value "/" = false ∨ textStartsWith value "//" = true ∨ '\\' ∈ value.toList ∨
    '?' ∈ value.toList ∨ '#' ∈ value.toList ∨
    (value.toList.splitOn '/').any (fun segment => String.ofList segment = "..") = true ∨
    containsText lower "%2e" = true ∨ containsText lower "%2f" = true ∨ containsText lower "%5c" = true)
    "endpoint must be a normalized absolute path"
  pure ⟨value⟩

/-- The segment loop of `preview_path`, from `index` on. -/
def previewSegments (lib : PreviewLibrary) : Nat → Bool → String → List (List Char) → Preview String
  | _, _, path, [] => .ok path
  | index, redactNext, path, segment :: rest => do
    let path := if index > 0 then path ++ "/" else path
    if segment = [] then previewSegments lib (index + 1) redactNext path rest
    else
      let rawSegment := String.ofList segment
      let decoded ← okOr (percentDecode rawSegment) .invalidPath
      let shown := if redactNext || unsafePathSegment lib rawSegment decoded then redactedPathSegment
        else rawSegment
      previewSegments lib (index + 1) (isSensitiveLocationName decoded) (path ++ shown) rest

def previewPath (lib : PreviewLibrary) (destination : ParsedUrl) : Preview EndpointPath := do
  rejectIf (destination.path.utf8ByteSize > maxPreviewPathBytes) .destinationTooLarge
  let path ← previewSegments lib 0 false "" (destination.path.toList.splitOn '/')
  mapErr (fun _ => .invalidPath) (EndpointPath.parse path)

/-- The name of a query parameter before it is decoded. -/
def rawQueryName (parameter : List Char) : List Char := parameter.takeWhile (· ≠ '=')

/-- The decoded name of a query parameter. -/
def queryName (parameter : List Char) : Option String :=
  percentDecode (String.ofList ((rawQueryName parameter).map fun c => if c = '+' then ' ' else c))

/-- A name that a preview refuses. -/
def unsafeQueryName (lib : PreviewLibrary) (name : String) : Bool :=
  name = "" || name.utf8ByteSize > maxPreviewQueryNameBytes ||
    name.toList.any (fun c => isControl c || isWhitespace c || c = '&' || c = '=' || c = '?' || c = '#') ||
      containsCredentialLikeToken lib.highEntropy name

/-- The parameter loop of `preview_query_parameter_names`. -/
def previewQueryNames (lib : PreviewLibrary) : List String → List (List Char) → Preview (List String)
  | names, [] => .ok names
  | names, parameter :: rest => do
    rejectIf (names.length ≥ maxPreviewQueryParameters) .tooManyQueryParameters
    let rawName := rawQueryName parameter
    rejectIf (rawName = [] ∨ String.utf8Len rawName > maxPreviewEncodedQueryNameBytes) .invalidQueryName
    let name ← okOr (queryName parameter) .invalidQueryName
    rejectIf (unsafeQueryName lib name = true) .invalidQueryName
    previewQueryNames lib (names ++ [name]) rest

/-- The parameters of a query. -/
def queryParameters : Option String → List (List Char)
  | none | some "" => []
  | some query => query.toList.splitOn '&'

def previewQueryParameterNames (lib : PreviewLibrary) (destination : ParsedUrl) : Preview (List String) := do
  rejectIf (destination.query.any fun query => query.utf8ByteSize > maxPreviewQueryBytes) .queryTooLarge
  let names ← previewQueryNames lib [] (queryParameters destination.query)
  return sortDedup names

/-! ## Headers -/

/-- A character of a canonical header name. -/
def isHeaderNameByte (c : Char) : Bool :=
  isAsciiLowercase c || isAsciiDigit c || c ∈ "!#$%&'*+-.^_`|~".toList

/-- A `HeaderName`: a non-empty token in lower case. -/
structure HeaderName where
  value : String
  token : value ≠ "" ∧ value.toList.all isHeaderNameByte = true
deriving DecidableEq

theorem HeaderName.value_injective : Function.Injective HeaderName.value := by
  rintro ⟨a, ha⟩ ⟨b, hb⟩ rfl
  rfl

/-- The order of the texts. -/
instance : LinearOrder HeaderName := LinearOrder.lift' HeaderName.value HeaderName.value_injective

def previewHeaderNames (lib : PreviewLibrary) (headerNames : List HeaderName) : Preview (List HeaderName) := do
  rejectIf (headerNames.length > maxPreviewHeaderNames) .tooManyHeaderNames
  rejectIf (headerNames.any fun name => name.value.utf8ByteSize > maxPreviewHeaderNameBytes ||
    containsCredentialLikeToken lib.highEntropy name.value) .invalidHeaderName
  return sortDedup headerNames

/-! ## Bodies -/

mutual
inductive RequestBodyShape
  | null
  | boolean
  | number
  | string
  | array (items : List RequestBodyShape) (truncated : Bool)
  | object (fields : List RequestBodyField) (truncated : Bool)
  | redacted
  | truncated

structure RequestBodyField where
  name : String
  shape : RequestBodyShape
end

structure BodyShapeBudget where
  remainingNodes : Nat
  truncated : Bool
deriving DecidableEq

def BodyShapeBudget.new : BodyShapeBudget := ⟨maxPreviewBodyNodes, false⟩

def BodyShapeBudget.consume (budget : BodyShapeBudget) : Bool × BodyShapeBudget :=
  if budget.remainingNodes = 0 then (false, { budget with truncated := true })
  else (true, { budget with remainingNodes := budget.remainingNodes - 1 })

/-- `BodyShapeBudget::mark_truncated`, if a condition holds. -/
def BodyShapeBudget.markTruncatedIf (budget : BodyShapeBudget) (condition : Bool) : BodyShapeBudget :=
  { budget with truncated := budget.truncated || condition }

mutual
def requestBodyShape (lib : PreviewLibrary) :
    Json → Option String → Nat → BodyShapeBudget → RequestBodyShape × BodyShapeBudget
  | value, fieldName, depth, budget =>
    let (consumed, budget) := budget.consume
    if !consumed then (.truncated, budget)
    else if fieldName.any bodyFieldRequiresRedaction then (.redacted, budget)
    else if depth ≥ maxPreviewBodyDepth then (.truncated, budget.markTruncatedIf true)
    else
      match value with
      | .null => (.null, budget)
      | .bool _ => (.boolean, budget)
      | .number _ => (.number, budget)
      | .string _ => (.string, budget)
      | .array values =>
        let (items, budget) := requestBodyItems lib values maxPreviewArrayItems (depth + 1) budget
        let truncated := items.length < values.length
        (.array items truncated, budget.markTruncatedIf truncated)
      | .object values =>
        let (fields, budget) := requestBodyFields lib values maxPreviewObjectFields (depth + 1) budget
        let truncated := fields.length < values.length
        (.object fields truncated, budget.markTruncatedIf truncated)

/-- The loop over the first `left` items of an array. -/
def requestBodyItems (lib : PreviewLibrary) :
    List Json → Nat → Nat → BodyShapeBudget → List RequestBodyShape × BodyShapeBudget
  | [], _, _, budget | _ :: _, 0, _, budget => ([], budget)
  | value :: rest, left + 1, depth, budget =>
    if budget.remainingNodes = 0 then ([], budget.markTruncatedIf true)
    else
      let (shape, budget) := requestBodyShape lib value none depth budget
      let (items, budget) := requestBodyItems lib rest left depth budget
      (shape :: items, budget)

/-- The loop over the first `left` fields of an object. -/
def requestBodyFields (lib : PreviewLibrary) :
    List (String × Json) → Nat → Nat → BodyShapeBudget → List RequestBodyField × BodyShapeBudget
  | [], _, _, budget | _ :: _, 0, _, budget => ([], budget)
  | (name, value) :: rest, left + 1, depth, budget =>
    if budget.remainingNodes = 0 then ([], budget.markTruncatedIf true)
    else
      let (shape, budget) := requestBodyShape lib value (some name) depth budget
      let (fields, budget) := requestBodyFields lib rest left depth budget
      (⟨safeBodyFieldName lib name, shape⟩ :: fields, budget)
end

/-! ## Previews -/

inductive HttpMethod
  | get
  | post
deriving DecidableEq

/-- The arguments of `build_request_preview`. -/
structure PreviewRequest where
  method : HttpMethod
  destination : ParsedUrl
  headerNames : List HeaderName
  body : Option Json

structure RequestPreview where
  method : HttpMethod
  origin : Discovery.CanonicalOrigin
  path : EndpointPath
  queryParameterNames : List String
  headerNames : List HeaderName
  body : Option RequestBodyShape
  bodyTruncated : Bool

/-- The shape of the body and the budget after it. -/
def previewBody (lib : PreviewLibrary) : Option Json → Option RequestBodyShape × BodyShapeBudget
  | none => (none, .new)
  | some value =>
    let (shape, budget) := requestBodyShape lib value none 0 .new
    (some shape, budget)

def buildRequestPreview (lib : PreviewLibrary) (request : PreviewRequest) : Preview RequestPreview := do
  let origin ← previewOrigin lib request.destination
  let path ← previewPath lib request.destination
  let queryParameterNames ← previewQueryParameterNames lib request.destination
  let headerNames ← previewHeaderNames lib request.headerNames
  let (body, budget) := previewBody lib request.body
  return {
    method := request.method
    origin := origin
    path := path
    queryParameterNames := queryParameterNames
    headerNames := headerNames
    body := body
    bodyTruncated := budget.truncated }

end LorePia.RequestPlan
