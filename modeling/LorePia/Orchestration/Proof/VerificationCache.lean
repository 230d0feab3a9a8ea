import LorePia.Base.Run
import LorePia.Orchestration.VerificationCache

/-!
# The accounting of the verification cache

`Counted` is the invariant of the cache: its total is the sum of its entries, which are few and small. Under it the
eviction loop loses an entry with each turn and ends before it runs out of them, because an empty cache has a total
of zero (`Counted.evict`). The memo of the module operations is such a cache.
-/

namespace LorePia

open Base

variable {α : Type} {same : α → α → Bool} {cache cache' : VerificationCache α} {size : Nat}

/-- The sizes of the entries. -/
def VerificationCache.sizes (cache : VerificationCache α) : List Nat := cache.entries.map (·.bytes)

/-- The total is the sum of the sizes, and both limits hold. -/
structure VerificationCache.Counted (cache : VerificationCache α) : Prop where
  total : cache.bytes = cache.sizes.sum
  count : cache.entries.length ≤ maxMemoEntries
  limit : cache.bytes ≤ maxMemoBytes

theorem counted_empty : (VerificationCache.empty : VerificationCache α).Counted :=
  ⟨rfl, Nat.zero_le _, Nat.zero_le _⟩

namespace VerificationCache

/-- The entries of a hit are the entries of the cache in another order. -/
theorem hit_perm {value : α} (h : cache.hit same value = some cache') :
    cache'.entries.Perm cache.entries ∧ cache'.bytes = cache.bytes := by
  obtain ⟨index, -, h⟩ := Option.bind_eq_some_iff.1 h
  obtain ⟨entry, hentry, rfl⟩ := Option.map_eq_some_iff.1 h
  obtain ⟨hlt, rfl⟩ := List.getElem?_eq_some_iff.1 hentry
  exact ⟨(List.perm_append_singleton _ _).trans (List.getElem_cons_eraseIdx_perm hlt), rfl⟩

theorem Counted.hit {value : α} (hc : cache.Counted) (h : cache.hit same value = some cache') : cache'.Counted := by
  obtain ⟨hperm, hbytes⟩ := hit_perm h
  have hsizes : cache'.sizes.Perm cache.sizes := hperm.map _
  refine ⟨?_, ?_, ?_⟩
  · rw [hbytes, hsizes.sum_nat]
    exact hc.total
  · rw [hperm.length_eq]
    exact hc.count
  · rw [hbytes]
    exact hc.limit

theorem maxMemoEntries_pos : 0 < maxMemoEntries := by decide

/-- The loop stops where there is room. -/
theorem evictTurn_room {entries : List (CacheEntry α)} {bytes : Nat}
    (h : ¬(entries.length ≥ maxMemoEntries ∨ bytes + size > maxMemoBytes)) :
    evictTurn size ⟨entries, bytes⟩ = .inr (some ⟨entries, bytes⟩) := by
  unfold evictTurn
  rw [if_neg h]

/-- The loop removes the oldest entry where there is none. -/
theorem evictTurn_full {oldest : CacheEntry α} {rest : List (CacheEntry α)} {bytes : Nat}
    (h : rest.length + 1 ≥ maxMemoEntries ∨ bytes + size > maxMemoBytes) (hle : oldest.bytes ≤ bytes) :
    evictTurn size ⟨oldest :: rest, bytes⟩ = .inl ⟨rest, bytes - oldest.bytes⟩ := by
  unfold evictTurn
  rw [List.length_cons, if_pos h]
  exact if_pos hle

/-- An empty cache has room, because its total is zero. -/
theorem evictTurn_nil (hsize : size ≤ maxMemoBytes) :
    evictTurn size (⟨[], 0⟩ : VerificationCache α) = .inr (some ⟨[], 0⟩) := by
  refine evictTurn_room ?_
  rintro (hcount | hbytes)
  · exact absurd maxMemoEntries_pos (Nat.not_lt.2 hcount)
  · omega

/-- **The eviction loop ends**, without an underflow and with room for the new bytes. -/
theorem Counted.evict (hsize : size ≤ maxMemoBytes) : ∀ {cache : VerificationCache α}, cache.Counted →
    ∃ evicted, Halts (evictTurn size) cache (some evicted) ∧ evicted.Counted ∧
      evicted.entries.length < maxMemoEntries ∧ evicted.bytes + size ≤ maxMemoBytes
  | ⟨[], bytes⟩, hc => by
    obtain rfl : bytes = 0 := hc.total
    refine ⟨⟨[], 0⟩, .stop (evictTurn_nil hsize), hc, maxMemoEntries_pos, ?_⟩
    rw [Nat.zero_add]
    exact hsize
  | ⟨oldest :: rest, bytes⟩, hc => by
    have htotal : bytes = oldest.bytes + (rest.map (·.bytes)).sum := hc.total
    have hlimit : bytes ≤ maxMemoBytes := hc.limit
    have hcount : rest.length + 1 ≤ maxMemoEntries := hc.count
    by_cases hfull : rest.length + 1 ≥ maxMemoEntries ∨ bytes + size > maxMemoBytes
    · have hnext : (⟨rest, bytes - oldest.bytes⟩ : VerificationCache α).Counted := by
        refine ⟨?_, ?_, ?_⟩
        · show bytes - oldest.bytes = (rest.map (·.bytes)).sum
          omega
        · show rest.length ≤ maxMemoEntries
          omega
        · show bytes - oldest.bytes ≤ maxMemoBytes
          omega
      obtain ⟨evicted, hhalts, hevicted⟩ := Counted.evict hsize hnext
      exact ⟨evicted, .again (evictTurn_full hfull (by omega)) hhalts, hevicted⟩
    · refine ⟨⟨oldest :: rest, bytes⟩, .stop (evictTurn_room hfull), hc, ?_, ?_⟩
      · exact Nat.lt_of_not_le fun hge => hfull (.inl hge)
      · exact Nat.le_of_not_lt fun hgt => hfull (.inr hgt)

theorem Counted.push {value : α} (hc : cache.Counted) (hcount : cache.entries.length < maxMemoEntries)
    (hlimit : cache.bytes + size ≤ maxMemoBytes) : (cache.push value size).Counted := by
  refine ⟨?_, ?_, hlimit⟩
  · simp [VerificationCache.push, sizes, hc.total]
  · simp only [VerificationCache.push, List.length_append, List.length_singleton]
    omega

/-- **A step keeps the accounting.** -/
theorem Counted.step (hc : cache.Counted) (h : CacheStep same cache cache') : cache'.Counted := by
  cases h with
  | hit h => exact hc.hit h
  | insert hsize hhalts =>
    obtain ⟨evicted, hevict, hevicted, hcount, hlimit⟩ := Counted.evict hsize hc
    cases hhalts.unique hevict
    exact hevicted.push hcount hlimit

/-- **The accounting of every reachable cache**: the total is the sum of the sizes within both limits, and the
eviction loop ends without an underflow for every value that is inserted. -/
theorem reachable_counted (same : α → α → Bool) {cache : VerificationCache α}
    (h : Relation.ReflTransGen (CacheStep same) .empty cache) :
    cache.bytes = cache.sizes.sum ∧ cache.entries.length ≤ 12 ∧ cache.bytes ≤ 64 * 1024 * 1024 ∧
      ∀ size, size ≤ maxMemoBytes → ∃ evicted, Halts (evictTurn size) cache (some evicted) := by
  have hc : cache.Counted := run_inv (fun _ _ hc hstep => hc.step hstep) h counted_empty
  refine ⟨hc.total, hc.count, hc.limit, fun size hsize => ?_⟩
  obtain ⟨evicted, hhalts, -⟩ := Counted.evict hsize hc
  exact ⟨evicted, hhalts⟩

theorem reachable_counted_pair : ∃ cache : VerificationCache String, cache.entries.length = 2 ∧
    cache.bytes = cache.sizes.sum ∧ cache.entries.length ≤ 12 := by
  have hfirst : CacheStep (fun a b : String => a = b) .empty (VerificationCache.empty.push "review" 40) :=
    .insert (by decide) (.stop rfl)
  have hsecond : CacheStep (fun a b : String => a = b) (VerificationCache.empty.push "review" 40)
      ((VerificationCache.empty.push "review" 40).push "plan" 25) := .insert (by decide) (.stop rfl)
  obtain ⟨htotal, hcount, -⟩ := reachable_counted _ (.tail (.single hfirst) hsecond)
  exact ⟨_, rfl, htotal, hcount⟩

end VerificationCache

/-! ## The memo -/

/-- The entries of the memo as entries of a cache. -/
def cacheEntries (entries : List MemoEntry) : List (CacheEntry VerifiedValue) :=
  entries.map fun entry => ⟨entry.value, entry.bytes⟩

/-- The memo as a cache. -/
def Memo.toCache (memo : Memo) : VerificationCache VerifiedValue := ⟨cacheEntries memo.entries, memo.bytes⟩

/-- `evict` and `evictBytes` are what the loop ends with. -/
theorem evict_halts (hsize : size ≤ maxMemoBytes) : ∀ {entries : List MemoEntry} {bytes : Nat},
    bytes = (entries.map (·.bytes)).sum → Halts (evictTurn size) ⟨cacheEntries entries, bytes⟩
      (some ⟨cacheEntries (evict size entries bytes), evictBytes size entries bytes⟩)
  | [], bytes, hbytes => by
    obtain rfl : bytes = 0 := hbytes
    exact .stop (VerificationCache.evictTurn_nil hsize)
  | entry :: rest, bytes, hbytes => by
    have htotal : bytes = entry.bytes + (rest.map (·.bytes)).sum := hbytes
    have hlength : (cacheEntries rest).length = rest.length := List.length_map _
    unfold evict evictBytes
    by_cases hfull : rest.length + 1 ≥ maxMemoEntries ∨ bytes + size > maxMemoBytes
    · rw [if_pos hfull, if_pos hfull]
      have hturn : evictTurn size ⟨cacheEntries (entry :: rest), bytes⟩ =
          .inl ⟨cacheEntries rest, bytes - entry.bytes⟩ :=
        VerificationCache.evictTurn_full (hlength ▸ hfull) (Nat.le.intro htotal.symm)
      exact .again hturn (evict_halts hsize (by omega))
    · rw [if_neg hfull, if_neg hfull]
      refine .stop (VerificationCache.evictTurn_room ?_)
      rw [cacheEntries, List.length_map, List.length_cons]
      exact hfull

/-- What the memo stores is inserted into the cache. -/
theorem Memo.push_step (same : VerifiedValue → VerifiedValue → Bool) (memo : Memo) (value : VerifiedValue)
    (hsize : size ≤ maxMemoBytes) : CacheStep same memo.toCache (memo.push value size).toCache := by
  have hcache : (memo.push value size).toCache =
      (⟨cacheEntries (evict size memo.entries memo.bytes), evictBytes size memo.entries memo.bytes⟩ :
        VerificationCache VerifiedValue).push value size := by
    simp [Memo.toCache, Memo.push, VerificationCache.push, cacheEntries]
  rw [hcache]
  exact .insert hsize (evict_halts hsize memo.counted)

end LorePia
