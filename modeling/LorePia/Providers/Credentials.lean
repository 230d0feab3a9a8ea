import LorePia.Base.Utf8Bytes
import LorePia.Domain.Discovery

/-!
# Credential-like tokens (`crates/providers/src/discovery/evidence.rs`)

The detectors that keep credentials out of what is shown: known prefixes, web tokens, long hexadecimal values
and opaque values of high entropy. The entropy is a sum of floating-point numbers, and its comparison with the
threshold a parameter.
-/

namespace LorePia.Credentials

open Base Discovery

/-- `shannon_entropy_bits_per_byte(value) >= 4.0`. -/
abbrev EntropyTest := String → Bool

def isAscii (c : Char) : Bool := c.toNat < 128

def isAsciiDigit (c : Char) : Bool := 48 ≤ c.toNat && c.toNat ≤ 57

def isAsciiLowercase (c : Char) : Bool := 97 ≤ c.toNat && c.toNat ≤ 122

def isAsciiPunctuation (c : Char) : Bool :=
  (33 ≤ c.toNat && c.toNat ≤ 47) || (58 ≤ c.toNat && c.toNat ≤ 64) ||
    (91 ≤ c.toNat && c.toNat ≤ 96) || (123 ≤ c.toNat && c.toNat ≤ 126)

/-- The separators inside an opaque token. -/
def isTokenSeparator (c : Char) : Bool :=
  c = '_' || c = '-' || c = '.' || c = '+' || c = '=' || c = '/'

def isOpaqueTokenByte (c : Char) : Bool := isAsciiAlphanumeric c || isTokenSeparator c

/-- `value.trim_matches(p)`. -/
def trimMatches (p : Char → Bool) (cs : List Char) : List Char :=
  ((cs.dropWhile p).reverse.dropWhile p).reverse

def knownCredentialPrefixes : List String := ["sk-", "sk_", "xoxb-", "xoxp-", "ghp_", "gho_", "github_pat_"]

def looksLikeKnownCredential (value : String) : Bool :=
  let lower := toAsciiLowercase value
  knownCredentialPrefixes.any (textStartsWith lower) ||
    ((textStartsWith lower "akia" || textStartsWith lower "asia") && value.utf8ByteSize = 20 &&
      value.toList.all isAsciiAlphanumeric) ||
    (textStartsWith lower "aiza" && value.utf8ByteSize ≥ 24 &&
      value.toList.all fun c => isAsciiAlphanumeric c || c = '-' || c = '_')

/-- A segment of a web token. -/
def isJwtSegment (segment : List Char) : Bool :=
  String.utf8Len segment ≥ 8 && segment.all fun c => isAsciiAlphanumeric c || c = '_' || c = '-'

def looksLikeJwt (value : List Char) : Bool :=
  match value.splitOn '.' with
  | [header, payload, signature] => isJwtSegment header && isJwtSegment payload && isJwtSegment signature
  | _ => false

def distinctAsciiBytes (value : List Char) : Nat := (value.filter isAscii).dedup.length

def looksLikeOpaqueSecret (highEntropy : EntropyTest) (value : String) : Bool :=
  let value := trimMatches (fun c => isAsciiPunctuation c && !isTokenSeparator c) value.toList
  if value.length < 24 || !value.all isAscii then false
  else if looksLikeJwt value then true
  else if value.length ≥ 32 && value.all isHexDigit && distinctAsciiBytes value ≥ 8 then true
  else if value.length < 32 || !value.all isOpaqueTokenByte then false
  else if value.countP isTokenSeparator > 4 then false
  else
    (value.any isAsciiLowercase).toNat + (value.any isAsciiUppercase).toNat +
        (value.any isAsciiDigit).toNat ≥ 2 &&
      distinctAsciiBytes value ≥ 16 && highEntropy (String.ofList value)

/-- A known credential that starts a text or follows a character that is not alphanumeric. -/
def knownCredentialFrom : Option Char → List Char → Bool
  | _, [] => false
  | previous, c :: rest =>
    (!previous.any isAsciiAlphanumeric && looksLikeKnownCredential (String.ofList (c :: rest))) ||
      knownCredentialFrom (some c) rest

/-- The maximal runs of token bytes. -/
def opaqueTokens (value : String) : List (List Char) :=
  (value.toList.splitOnP fun c => !isOpaqueTokenByte c).filter (· ≠ [])

def containsCredentialLikeToken (highEntropy : EntropyTest) (value : String) : Bool :=
  knownCredentialFrom none value.toList ||
    (opaqueTokens value).any fun token => looksLikeKnownCredential (String.ofList token) ||
      looksLikeOpaqueSecret highEntropy (String.ofList token)

end LorePia.Credentials
