/-!
# Core errors (`crates/domain/src/error.rs`)

The operation id of an error is a fresh UUID that nothing reads back: it is left out.
-/

namespace LorePia

inductive CoreErrorCode
  | invalidInput
  | unsupportedContent
  | unsafeArchive
  | notFound
  | permissionDenied
  | storageUnavailable
  | storageCorrupted
  | providerAuthFailed
  | providerRateLimited
  | providerUnavailable
  | networkUnavailable
  | cancelled
  | internal
deriving DecidableEq, Repr

structure CoreError where
  code : CoreErrorCode
  message : String
  recoverable : Bool
deriving DecidableEq, Repr

def CoreError.invalid (message : String) : CoreError := ⟨.invalidInput, message, false⟩

/-- `streaming_error` of the providers. -/
def streamingError (message : String) : CoreError := ⟨.providerUnavailable, message, true⟩

end LorePia
