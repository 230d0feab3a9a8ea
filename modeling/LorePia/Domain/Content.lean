import LorePia.Domain.Interaction

/-!
# Content documents (`crates/domain/src/content.rs`, `crates/domain/src/orchestration.rs`)

Digests, content capabilities, asset descriptors and package manifests. A `Sha256Digest` can only be
built by `parse`, so it carries its canonical form. Derived `Ord`s are the orders of a key: an
enumeration compares by the declaration order of its variants, a structure field by field.
-/

namespace LorePia

open Base

abbrev PackageId := String

/-! ## Characters -/

/-- `character.is_whitespace()`: the property `White_Space`. -/
def isWhitespace (c : Char) : Bool :=
  (9 ≤ c.toNat && c.toNat ≤ 13) || c.toNat = 0x20 || c.toNat = 0x85 || c.toNat = 0xA0 ||
    c.toNat = 0x1680 || (0x2000 ≤ c.toNat && c.toNat ≤ 0x200A) || c.toNat = 0x2028 ||
    c.toNat = 0x2029 || c.toNat = 0x202F || c.toNat = 0x205F || c.toNat = 0x3000

/-- `value.trim()`. -/
def trim (value : String) : String :=
  String.ofList ((value.toList.dropWhile isWhitespace).reverse.dropWhile isWhitespace).reverse

/-- `value.trim().is_empty()`. -/
def isBlank (value : String) : Bool := value.toList.all isWhitespace

/-- `value.chars().any(char::is_control)`. -/
def hasControl (value : String) : Bool := value.toList.any isControl

/-! ## Digests -/

def sha256HexLength : Nat := 64

/-- A lowercase hexadecimal digit. -/
def isLowerHexDigit (c : Char) : Bool :=
  (48 ≤ c.toNat && c.toNat ≤ 57) || (97 ≤ c.toNat && c.toNat ≤ 102)

/-- A canonical, lowercase SHA-256 digest. -/
structure Sha256Digest where
  value : String
  canonical : value.length = sha256HexLength ∧ value.toList.all isLowerHexDigit = true
deriving DecidableEq

/-- A digest of one repeated digit. -/
theorem repeated_canonical {c : Char} (h : isLowerHexDigit c = true) :
    (String.ofList (List.replicate sha256HexLength c)).length = sha256HexLength ∧
      (String.ofList (List.replicate sha256HexLength c)).toList.all isLowerHexDigit = true := by
  simp [sha256HexLength, h]

theorem isLowerHexDigit_a : isLowerHexDigit 'a' = true := rfl

theorem isLowerHexDigit_b : isLowerHexDigit 'b' = true := rfl

theorem isLowerHexDigit_c : isLowerHexDigit 'c' = true := rfl

theorem Sha256Digest.value_injective : Function.Injective Sha256Digest.value := by
  rintro ⟨a, _⟩ ⟨b, _⟩ h
  cases h
  rfl

instance : LinearOrder Sha256Digest :=
  LinearOrder.lift' Sha256Digest.value Sha256Digest.value_injective

theorem utf8Size_of_isHexDigit {c : Char} (h : isHexDigit c = true) : c.utf8Size = 1 := by
  have hc : c.toNat ≤ 127 := by
    simp only [isHexDigit, Bool.or_eq_true, Bool.and_eq_true, decide_eq_true_eq] at h
    omega
  have hval : c.val ≤ 127 := UInt32.le_iff_toNat_le.2 hc
  simp [Char.utf8Size, hval]

theorem utf8Len_of_isHexDigit : ∀ {l : List Char}, l.all isHexDigit = true →
    String.utf8Len l = l.length
  | [], _ => rfl
  | c :: l, h => by
    rw [List.all_cons, Bool.and_eq_true] at h
    rw [String.utf8Len_cons, utf8Len_of_isHexDigit h.2, utf8Size_of_isHexDigit h.1, List.length_cons]

theorem isLowerHexDigit_lower {c : Char} (h : isHexDigit c = true) :
    isLowerHexDigit (if isAsciiUppercase c then Char.ofNat (c.toNat + 32) else c) = true := by
  simp only [isHexDigit, isLowerHexDigit, isAsciiUppercase, Bool.or_eq_true, Bool.and_eq_true,
    decide_eq_true_eq] at h ⊢
  split
  · rename_i hup
    have hvalid : (c.toNat + 32).isValidChar := .inl (by omega)
    have hn : (Char.ofNat (c.toNat + 32)).toNat = c.toNat + 32 := by
      rw [Char.ofNat, dif_pos hvalid]
      rfl
    rw [hn]
    omega
  · omega

theorem toAsciiLowercase_canonical {value : String} (hsize : value.utf8ByteSize = sha256HexLength)
    (hhex : value.toList.all isHexDigit = true) :
    (toAsciiLowercase value).length = sha256HexLength ∧
      (toAsciiLowercase value).toList.all isLowerHexDigit = true := by
  constructor
  · have hlen : value.toList.length = sha256HexLength := by
      rw [← utf8Len_of_isHexDigit hhex, ← hsize, ← String.utf8ByteSize_ofList, String.ofList_toList]
    simpa [toAsciiLowercase] using hlen
  · simp only [toAsciiLowercase, String.toList_ofList, List.all_map, List.all_eq_true]
    intro c hc
    exact isLowerHexDigit_lower (List.all_eq_true.1 hhex c hc)

def Sha256Digest.parse (value : String) : Except String Sha256Digest :=
  if h : value.utf8ByteSize = sha256HexLength ∧ value.toList.all isHexDigit = true then
    .ok ⟨toAsciiLowercase value, toAsciiLowercase_canonical h.1 h.2⟩
  else
    .error s!"SHA-256 digest must contain exactly {sha256HexLength} hexadecimal characters"

/-! ## Capabilities -/

inductive ContentCapability
  | promptFragments | knowledge | variables | transforms | declarativeInteractions | portableRuntime
  | imageAssets | audioAssets | videoAssets | attachmentAssets | highRiskAssets
deriving DecidableEq

/-- The declaration order. -/
def ContentCapability.rank : ContentCapability → Nat
  | .promptFragments => 0 | .knowledge => 1 | .variables => 2 | .transforms => 3
  | .declarativeInteractions => 4 | .portableRuntime => 5 | .imageAssets => 6 | .audioAssets => 7
  | .videoAssets => 8 | .attachmentAssets => 9 | .highRiskAssets => 10

theorem ContentCapability.rank_injective : Function.Injective ContentCapability.rank := by
  intro a b h
  cases a <;> cases b <;> first | rfl | cases h

instance : LinearOrder ContentCapability :=
  LinearOrder.lift' ContentCapability.rank ContentCapability.rank_injective

/-! ## Assets -/

inductive AssetRole
  | avatar | icon | background | userIcon | emotion | expression | illustration | audio | voice
  | video | statusPanel | attachment | other
deriving DecidableEq

inductive AssetSourceKind
  | characterCard | charxPackage | lorepiaPackage | contentModule | userSelected | generated | unknown
deriving DecidableEq

structure AssetSource where
  kind : AssetSourceKind
  sourceSha256 : Option Sha256Digest
  logicalPath : Option String
deriving DecidableEq

structure AssetDescriptor where
  id : AssetId
  sha256 : Sha256Digest
  mediaType : String
  role : AssetRole
  name : String
  sizeBytes : UInt64
  width : Option UInt32
  height : Option UInt32
  durationMs : Option UInt64
  source : AssetSource
deriving DecidableEq

/-! ## Packages -/

structure PackageContentHash where
  logicalPath : String
  sha256 : Sha256Digest
  sizeBytes : UInt64
deriving DecidableEq

structure PackageSignature where
  algorithm : String
  keyId : String
  signatureBase64 : String
deriving DecidableEq

structure PackageManifest where
  format : String
  formatVersion : UInt32
  packageId : PackageId
  name : String
  version : String
  author : Option String
  license : String
  redistributionAllowed : Bool
  requiredAppVersion : Option String
  requiredCapabilities : List ContentCapability
  contentHashes : List PackageContentHash
  signature : Option PackageSignature
  provenance : Provenance
deriving DecidableEq

end LorePia
