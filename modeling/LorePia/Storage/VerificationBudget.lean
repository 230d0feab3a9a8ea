import LorePia.Base.Bucket
import LorePia.Base.Stateful

/-!
# The verification budget (`crates/storage/src/verified_asset_cache/budget.rs`)

`VerificationBudget` bounds the bytes that are hashed to verify assets. An `Instant` is its number of nanoseconds.
-/

namespace LorePia

open Base

def burstBytes : Nat := 64 * 1024 * 1024
def bytesPerSecond : Nat := 8 * 1024 * 1024
def minChargeBytes : Nat := 128 * 1024
def nanosPerSecond : Nat := 1000000000

/-- `u128::MAX`. -/
def u128Max : Nat := 2 ^ 128 - 1

/-- `a.saturating_add(b)` of `u128` values. -/
def satAddU128 (a b : Nat) : Nat := min (a + b) u128Max

/-- `a.saturating_mul(b)` of `u128` values. -/
def satMulU128 (a b : Nat) : Nat := min (a * b) u128Max

/-- The kinds of `io::Error` that `admit` returns. -/
inductive AdmitErrorKind
  | invalidInput | wouldBlock
deriving DecidableEq

structure AdmitError where
  kind : AdmitErrorKind
  message : String
deriving DecidableEq

structure VerificationBudget where
  byteNanos : Nat
  updatedAt : Nat
deriving DecidableEq

def VerificationBudget.new (now : Nat) : VerificationBudget := ⟨burstBytes * nanosPerSecond, now⟩

/-- The bytes that a size is charged. -/
def chargeBytes (sizeBytes : UInt64) : Nat := max sizeBytes.toNat minChargeBytes

/-- The budget with its credit up to `now`. -/
def VerificationBudget.replenish (budget : VerificationBudget) (now : Nat) : VerificationBudget :=
  let now := max now budget.updatedAt
  let replenished := satMulU128 (now - budget.updatedAt) bytesPerSecond
  ⟨min (satAddU128 budget.byteNanos replenished) (burstBytes * nanosPerSecond), now⟩

/-- `VerificationBudget::admit`. -/
def admitSize (sizeBytes : UInt64) (now : Nat) : Stateful VerificationBudget AdmitError Unit := fun budget =>
  if sizeBytes.toNat > burstBytes then
    (.error ⟨.invalidInput, "asset exceeds the bounded verification size"⟩, budget)
  else
    let budget := budget.replenish now
    let charge := chargeBytes sizeBytes * nanosPerSecond
    if charge > budget.byteNanos then
      (.error ⟨.wouldBlock, "verified asset hash budget is temporarily exhausted"⟩, budget)
    else (.ok (), { budget with byteNanos := budget.byteNanos - charge })

end LorePia
