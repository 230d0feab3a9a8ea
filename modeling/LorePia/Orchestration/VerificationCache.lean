import LorePia.Base.Loop
import LorePia.Orchestration.ModuleRuntime

/-!
# The verification cache (`crates/orchestration/src/modules/verification_cache.rs`)

The cache of the process as `verify` finds and leaves it, for values of any type and their comparison. The lock is
not held while a value is verified, so other calls may look up and insert in between: `CacheStep` is a change under
one lock. The byte total is a field of its own here; `Memo` is a cache whose total is right.
-/

namespace LorePia

open Base

variable {α : Type}

/-- `Entry`. -/
structure CacheEntry (α : Type) where
  value : α
  bytes : Nat

/-- `Cache`. -/
structure VerificationCache (α : Type) where
  entries : List (CacheEntry α)
  bytes : Nat

/-- `Cache::default()`. -/
def VerificationCache.empty : VerificationCache α := ⟨[], 0⟩

/-- A hit: the first entry with the value goes to the back. -/
def VerificationCache.hit (same : α → α → Bool) (cache : VerificationCache α) (value : α) :
    Option (VerificationCache α) :=
  (cache.entries.findIdx? fun entry => same entry.value value).bind fun index =>
    (cache.entries[index]?).map fun entry => ⟨cache.entries.eraseIdx index ++ [entry], cache.bytes⟩

/-- A turn of the eviction loop before `size` bytes are added; no result is an underflow of the subtraction. -/
def evictTurn (size : Nat) (cache : VerificationCache α) : VerificationCache α ⊕ Option (VerificationCache α) :=
  if cache.entries.length ≥ maxMemoEntries ∨ cache.bytes + size > maxMemoBytes then
    match cache.entries with
    -- `pop_front` finds nothing, and the loop goes on with the same cache
    | [] => .inl cache
    | oldest :: rest =>
      if oldest.bytes ≤ cache.bytes then .inl ⟨rest, cache.bytes - oldest.bytes⟩ else .inr none
  else .inr (some cache)

/-- `push_back` with the bytes of the value. -/
def VerificationCache.push (cache : VerificationCache α) (value : α) (size : Nat) : VerificationCache α :=
  ⟨cache.entries ++ [⟨value, size⟩], cache.bytes + size⟩

/-- What `verify` does to the cache while it holds the lock. -/
inductive CacheStep (same : α → α → Bool) : VerificationCache α → VerificationCache α → Prop
  | hit {cache cache' : VerificationCache α} {value : α} :
    cache.hit same value = some cache' → CacheStep same cache cache'
  | insert {cache evicted : VerificationCache α} {value : α} {size : Nat} :
    size ≤ maxMemoBytes → Halts (evictTurn size) cache (some evicted) →
      CacheStep same cache (evicted.push value size)

end LorePia
