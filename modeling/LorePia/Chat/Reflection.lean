import LorePia.Base.Kmp
import LorePia.Base.Stateful
import LorePia.Base.Utf8Bytes
import LorePia.Domain.Error

/-!
# The credential reflection filter (`crates/chat/src/generation.rs`)

A stream releases what the provider sends except for a beginning of the credential at its end. A string that
is zeroized is empty. An index out of range, a cut off a character boundary and a missing table panic.
-/

namespace LorePia

open Base

inductive ChatStop
  | failed (error : CoreError)
  | panicked
deriving DecidableEq

def credentialReflectionErrorMessage : String := "provider response contained protected credential material"

def credentialReflectionError : CoreError := ⟨.providerUnavailable, credentialReflectionErrorMessage, false⟩

def buildCredentialPrefixTable (credential : String) : Option (List Nat) := Kmp.buildTable (utf8Bytes credential)

/-- `credential_suffix_after_linear_scan`; the inner `none` is a full match. -/
def credentialSuffixAfterLinearScan (value credential : String) (prefixTable : List Nat) :
    Option (Option Nat) :=
  Kmp.scan (utf8Bytes credential) prefixTable (utf8Bytes value) 0

structure CredentialReflectionGuard where
  credential : Option String
  prefixTable : Option (List Nat)

/-- `value.contains(credential)`. -/
def containsBytes (value credential : String) : Bool := decide (utf8Bytes credential <:+: utf8Bytes value)

namespace CredentialReflectionGuard

def new (credential : Option String) : Except ChatStop CredentialReflectionGuard :=
  match credential.filter (· ≠ "") with
  | none => .ok ⟨none, none⟩
  | some credential =>
    match buildCredentialPrefixTable credential with
    | none => .error .panicked
    | some table => .ok ⟨some credential, some table⟩

def isEnabled (guard : CredentialReflectionGuard) : Bool := guard.credential.isSome

def contains (guard : CredentialReflectionGuard) (value : String) : Bool :=
  guard.credential.any (containsBytes value)

end CredentialReflectionGuard

structure ReflectionStream where
  guard : CredentialReflectionGuard
  pending : String

namespace ReflectionStream

def new (guard : CredentialReflectionGuard) : ReflectionStream := ⟨guard, ""⟩

def push (fragment : String) : Stateful ReflectionStream ChatStop String := fun stream =>
  match stream.guard.credential with
  | none => (.ok fragment, stream)
  | some credential =>
    let pending := if stream.pending = "" then fragment else stream.pending ++ fragment
    match stream.guard.prefixTable with
    | none => (.error .panicked, { stream with pending })
    | some prefixTable =>
      match credentialSuffixAfterLinearScan pending credential prefixTable with
      | none => (.error .panicked, { stream with pending })
      | some none => (.error (.failed credentialReflectionError), { stream with pending := "" })
      | some (some retainedBytes) =>
        let releaseEnd := pending.utf8ByteSize - retainedBytes
        if releaseEnd = 0 then (.ok "", { stream with pending })
        else
          match splitOff pending releaseEnd with
          | none => (.error .panicked, { stream with pending })
          | some (released, retained) => (.ok released, { stream with pending := retained })

def finish (stream : ReflectionStream) : String × ReflectionStream := (stream.pending, { stream with pending := "" })

end ReflectionStream

end LorePia
