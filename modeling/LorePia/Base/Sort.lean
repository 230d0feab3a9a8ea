import Mathlib.Data.List.Sort
import Mathlib.Data.List.Nodup
import Mathlib.Data.List.Dedup
import Mathlib.Data.List.Destutter
import Mathlib.Data.String.Basic

/-!
# Stable sorting and duplicate detection

`stableSort le` is the order `slice::sort_by` gives: a permutation of its input, sorted, with equal
items in their input order. Over a linear order its result depends on the input's items only
(`stableSort_congr`). `hasDuplicate` is the validators' duplicate test: sort, then look for two
equal neighbours (`windows(2)`); it finds exactly the lists that are not duplicate-free. `sortedSet`
lists the items of a `BTreeSet`.
-/

namespace Base

variable {α κ : Type}

/-- `items.sort_by(..)` for the comparison `le` ("not greater"). -/
def stableSort (le : α → α → Bool) (l : List α) : List α := l.insertionSort (fun a b => le a b)

theorem stableSort_perm (le : α → α → Bool) (l : List α) : (stableSort le l).Perm l :=
  List.perm_insertionSort _ _

@[simp] theorem mem_stableSort {le : α → α → Bool} {l : List α} {a : α} :
    a ∈ stableSort le l ↔ a ∈ l := (stableSort_perm le l).mem_iff

@[simp] theorem length_stableSort (le : α → α → Bool) (l : List α) :
    (stableSort le l).length = l.length := (stableSort_perm le l).length_eq

theorem stableSort_pairwise {le : α → α → Bool} (total : ∀ a b, le a b ∨ le b a)
    (trans : ∀ a b c, le a b → le b c → le a c) (l : List α) :
    (stableSort le l).Pairwise (fun a b => le a b) := by
  have : Std.Total (fun a b => (le a b : Prop)) := ⟨total⟩
  have : IsTrans α (fun a b => (le a b : Prop)) := ⟨trans⟩
  exact List.pairwise_insertionSort _ l

/-- A sorted list is left as it is. -/
theorem stableSort_of_pairwise {le : α → α → Bool} {l : List α}
    (h : l.Pairwise (fun a b => le a b)) : stableSort le l = l := h.insertionSort_eq

/-- **Sorting forgets the input's order**: permuted lists sort to the same list, when the comparison
decides every pair of their items. -/
theorem stableSort_congr {le : α → α → Bool} (total : ∀ a b, le a b ∨ le b a)
    (trans : ∀ a b c, le a b → le b c → le a c) {l k : List α} (h : l.Perm k)
    (anti : ∀ a ∈ l, ∀ b ∈ l, le a b → le b a → a = b) : stableSort le l = stableSort le k := by
  have hp : (stableSort le l).Perm (stableSort le k) :=
    (stableSort_perm le l).trans (h.trans (stableSort_perm le k).symm)
  refine hp.eq_of_pairwise ?_ (stableSort_pairwise total trans l) (stableSort_pairwise total trans k)
  intro a b ha hb hab hba
  exact anti a (mem_stableSort.1 ha) b (h.mem_iff.2 (mem_stableSort.1 hb)) hab hba

/-- Some of the items, in any order, sort to the same items of the sorted list. -/
theorem stableSort_filter {le : α → α → Bool} (total : ∀ a b, le a b ∨ le b a)
    (trans : ∀ a b c, le a b → le b c → le a c) {l k : List α} {p : α → Bool}
    (h : k.Perm (l.filter p)) (anti : ∀ a ∈ l, ∀ b ∈ l, le a b → le b a → a = b) :
    stableSort le k = (stableSort le l).filter p := by
  have hp : (stableSort le k).Perm ((stableSort le l).filter p) :=
    (stableSort_perm le k).trans (h.trans ((stableSort_perm le l).filter p).symm)
  refine hp.eq_of_pairwise ?_ (stableSort_pairwise total trans k)
    ((stableSort_pairwise total trans l).sublist List.filter_sublist)
  intro a b ha hb hab hba
  have ha := (List.mem_filter.1 (h.mem_iff.1 (mem_stableSort.1 ha))).1
  exact anti a ha b (mem_stableSort.1 (List.mem_filter.1 hb).1) hab hba

/-- Lists related item by item sort to related lists, when the relation decides the comparison. -/
theorem stableSort_forall₂ {R : α → α → Prop} {le : α → α → Bool}
    (hle : ∀ a b a' b', R a a' → R b b' → le a b = le a' b') {l k : List α}
    (h : List.Forall₂ R l k) : List.Forall₂ R (stableSort le l) (stableSort le k) := by
  have hinsert : ∀ {a a' : α} {l k : List α}, R a a' → List.Forall₂ R l k →
      List.Forall₂ R (l.orderedInsert (fun a b => le a b) a)
        (k.orderedInsert (fun a b => le a b) a') := by
    intro a a' l k ha h
    induction h with
    | nil => exact .cons ha .nil
    | cons hb ht ih =>
      simp only [List.orderedInsert, hle _ _ _ _ ha hb]
      split
      · exact .cons ha (.cons hb ht)
      · exact .cons hb ih
  induction h with
  | nil => exact .nil
  | cons ha _ ih => exact hinsert ha ih

/-! ## Duplicates -/

/-- `items.windows(2).any(|pair| pair[0] == pair[1])`. -/
def adjacentEq [DecidableEq κ] : List κ → Bool
  | a :: b :: l => a == b || adjacentEq (b :: l)
  | _ => false

/-- `items.sort(); items.windows(2).any(|pair| pair[0] == pair[1])`. -/
def hasDuplicate [LinearOrder κ] (l : List κ) : Bool := adjacentEq (l.insertionSort (· ≤ ·))

theorem adjacentEq_of_sorted [LinearOrder κ] [inst : DecidableEq κ] : ∀ {l : List κ},
    l.Pairwise (· ≤ ·) → (@adjacentEq κ inst l = false ↔ l.Nodup)
  | [], _ => by simp [adjacentEq]
  | [a], _ => by simp [adjacentEq]
  | a :: b :: l, h => by
    rw [adjacentEq, Bool.or_eq_false_iff, adjacentEq_of_sorted h.of_cons, beq_eq_false_iff_ne,
      List.nodup_cons (a := a)]
    constructor
    · rintro ⟨hne, hnd⟩
      refine ⟨fun hm => ?_, hnd⟩
      -- everything after `b` is at least `b`, so an `a` there would squeeze `b` to `a`
      have hab : a ≤ b := List.rel_of_pairwise_cons h (by simp)
      rcases List.mem_cons.1 hm with rfl | hm
      · exact hne rfl
      · exact hne (le_antisymm hab (List.rel_of_pairwise_cons h.of_cons hm))
    · rintro ⟨hn, hnd⟩
      exact ⟨fun he => hn (he ▸ by simp), hnd⟩

/-- **The duplicate test is exact.** -/
@[simp] theorem hasDuplicate_eq_false [LinearOrder κ] {l : List κ} :
    hasDuplicate l = false ↔ l.Nodup := by
  unfold hasDuplicate
  rw [adjacentEq_of_sorted (List.pairwise_insertionSort _ l)]
  exact (List.perm_insertionSort _ l).nodup_iff

theorem nodup_snoc {l : List α} {a : α} : (l ++ [a]).Nodup ↔ l.Nodup ∧ a ∉ l := by
  rw [List.nodup_append_comm, List.singleton_append, List.nodup_cons, and_comm]

/-! ## Sorted sets -/

/-- The items of a `BTreeSet` collected from a list. -/
def sortedSet [LinearOrder κ] (l : List κ) : List κ := l.dedup.insertionSort (· ≤ ·)

@[simp] theorem mem_sortedSet [LinearOrder κ] {l : List κ} {a : κ} : a ∈ sortedSet l ↔ a ∈ l := by
  rw [sortedSet, List.mem_insertionSort, List.mem_dedup]

theorem sortedSet_nodup [LinearOrder κ] (l : List κ) : (sortedSet l).Nodup :=
  (List.perm_insertionSort _ _).nodup_iff.2 (List.nodup_dedup l)

/-- A list is as long as the set of its items exactly when none comes twice. -/
theorem length_sortedSet [LinearOrder κ] {l : List κ} : (sortedSet l).length = l.length ↔ l.Nodup := by
  rw [sortedSet, List.length_insertionSort]
  constructor
  · intro h
    exact List.dedup_eq_self.1 ((List.dedup_sublist l).eq_of_length h)
  · intro h
    rw [List.dedup_eq_self.2 h]

/-- Permuted lists sort to the same list. -/
theorem insertionSort_eq_of_perm [LinearOrder κ] {l k : List κ} (h : l.Perm k) :
    l.insertionSort (· ≤ ·) = k.insertionSort (· ≤ ·) :=
  ((List.perm_insertionSort _ l).trans (h.trans (List.perm_insertionSort _ k).symm)).eq_of_pairwise
    (fun _ _ _ _ hab hba => le_antisymm hab hba) (List.pairwise_insertionSort _ l)
    (List.pairwise_insertionSort _ k)

theorem sortedSet_eq_of_perm [LinearOrder κ] {l k : List κ} (h : l.Perm k) : sortedSet l = sortedSet k :=
  insertionSort_eq_of_perm h.dedup

theorem insertionSort_eq_iff [LinearOrder κ] {l k : List κ} :
    l.insertionSort (· ≤ ·) = k.insertionSort (· ≤ ·) ↔ l.Perm k := by
  refine ⟨fun h => ?_, insertionSort_eq_of_perm⟩
  refine (List.perm_insertionSort (· ≤ ·) l).symm.trans ?_
  rw [h]
  exact List.perm_insertionSort _ k

/-- `items.sort()` and `items.dedup()`. -/
def sortDedup [LinearOrder κ] (l : List κ) : List κ := (l.insertionSort (· ≤ ·)).destutter (· ≠ ·)

@[simp] theorem mem_sortDedup [LinearOrder κ] {l : List κ} {a : κ} : a ∈ sortDedup l ↔ a ∈ l := by
  rw [sortDedup, (List.pairwise_insertionSort _ l).destutter_eq_dedup, List.mem_dedup,
    List.mem_insertionSort]

theorem sortDedup_eq_of_perm [LinearOrder κ] {l k : List κ} (h : l.Perm k) : sortDedup l = sortDedup k := by
  rw [sortDedup, sortDedup, insertionSort_eq_of_perm h]

theorem sortDedup_pairwise [LinearOrder κ] (l : List κ) : (sortDedup l).Pairwise (· < ·) := by
  have hsorted : (sortDedup l).Pairwise (· ≤ ·) :=
    (List.pairwise_insertionSort _ l).sublist (List.destutter_sublist _ _)
  have hnodup : (sortDedup l).Nodup := by
    rw [sortDedup, (List.pairwise_insertionSort _ l).destutter_eq_dedup]
    exact List.nodup_dedup _
  exact (hsorted.and hnodup).imp fun h => lt_of_le_of_ne h.1 h.2

/-- Strictly sorted lists with the same items are equal. -/
theorem eq_of_sorted_of_mem_iff [LinearOrder κ] {l k : List κ} (hl : l.Pairwise (· < ·))
    (hk : k.Pairwise (· < ·)) (h : ∀ a, a ∈ l ↔ a ∈ k) : l = k := by
  have hp : l.Perm k := (List.perm_ext_iff_of_nodup (hl.imp ne_of_lt) (hk.imp ne_of_lt)).2 h
  exact hp.eq_of_pairwise (fun a b _ _ hab hba => absurd hab hba.asymm) hl hk

/-- Only the items matter. -/
theorem sortDedup_eq_iff [LinearOrder κ] {l k : List κ} :
    sortDedup l = sortDedup k ↔ ∀ a, a ∈ l ↔ a ∈ k := by
  constructor
  · intro h a
    rw [← mem_sortDedup, h, mem_sortDedup]
  · intro h
    refine eq_of_sorted_of_mem_iff (sortDedup_pairwise l) (sortDedup_pairwise k) fun a => ?_
    rw [mem_sortDedup, mem_sortDedup, h]

/-! ## Binary search -/

/-- The loop of `slice::binary_search` on the `size` items from `base` on: the item it ends at. -/
def binarySearchLoop [LinearOrder κ] (l : List κ) (a : κ) : Nat → Nat → Nat → Nat
  | 0, base, _ => base
  | fuel + 1, base, size =>
    if size ≤ 1 then base
    else
      let half := size / 2
      let next := if ∃ b ∈ l[base + half]?, a < b then base else base + half
      binarySearchLoop l a fuel next (size - half)

/-- `items.binary_search(&item).is_ok()`. -/
def binarySearch [LinearOrder κ] (l : List κ) (a : κ) : Bool :=
  l[binarySearchLoop l a l.length 0 l.length]? = some a

/-- An item stays in the range that is left. -/
theorem binarySearchLoop_eq [LinearOrder κ] {l : List κ} (hl : l.Pairwise (· < ·)) {i : Nat}
    (hi : i < l.length) : ∀ {fuel base size : Nat}, size ≤ fuel + 1 → base ≤ i → i < base + size →
      base + size ≤ l.length → binarySearchLoop l l[i] fuel base size = i
  | 0, base, size, hsize, hbase, hlt, _ => by
    rw [binarySearchLoop]
    omega
  | fuel + 1, base, size, hsize, hbase, hlt, hrange => by
    rw [binarySearchLoop]
    by_cases hone : size ≤ 1
    · rw [if_pos hone]
      omega
    · have hmid : base + size / 2 < l.length := by omega
      have hgreater : (∃ b ∈ l[base + size / 2]?, l[i] < b) ↔ i < base + size / 2 := by
        rw [List.getElem?_eq_getElem hmid]
        simp only [Option.mem_def, Option.some.injEq, exists_eq_left']
        constructor
        · intro hless
          refine Nat.lt_of_not_le fun hle => ?_
          obtain heq | hlt' := Nat.eq_or_lt_of_le hle
          · simp only [heq, lt_self_iff_false] at hless
          · exact lt_asymm hless (List.pairwise_iff_getElem.1 hl _ _ hmid hi hlt')
        · exact fun hless => List.pairwise_iff_getElem.1 hl _ _ hi hmid hless
      rw [if_neg hone]
      simp only [hgreater]
      by_cases hhalf : i < base + size / 2
      · rw [if_pos hhalf]
        exact binarySearchLoop_eq hl hi (by omega) hbase (by omega) (by omega)
      · rw [if_neg hhalf]
        exact binarySearchLoop_eq hl hi (by omega) (by omega) (by omega) (by omega)

/-- **The search in a sorted list is exact.** -/
theorem binarySearch_iff [LinearOrder κ] {l : List κ} (hl : l.Pairwise (· < ·)) {a : κ} :
    binarySearch l a = true ↔ a ∈ l := by
  rw [binarySearch, decide_eq_true_eq]
  constructor
  · exact List.mem_of_getElem?
  · intro h
    obtain ⟨i, hi, rfl⟩ := List.getElem_of_mem h
    rw [binarySearchLoop_eq hl hi (by omega) (by omega) (by omega) (by omega), List.getElem?_eq_getElem hi]

/-! ## Sorting by a key -/

section
variable [LinearOrder κ] (key : α → κ)

theorem stableSort_key_pairwise (l : List α) :
    (stableSort (fun a b => decide (key a ≤ key b)) l).Pairwise (fun a b => key a ≤ key b) :=
  (stableSort_pairwise (fun a b => by simpa using le_total (key a) (key b))
    (fun a b c => by simpa using le_trans) l).imp (by simp)

/-- Permuted lists sort to the same list when the key tells their items apart. -/
theorem stableSort_key_congr {l k : List α} (h : l.Perm k)
    (hkey : ∀ a ∈ l, ∀ b ∈ l, key a = key b → a = b) :
    stableSort (fun a b => decide (key a ≤ key b)) l =
      stableSort (fun a b => decide (key a ≤ key b)) k := by
  refine stableSort_congr (fun a b => by simpa using le_total (key a) (key b))
    (fun a b c => by simpa using le_trans) h fun a ha b hb hab hba => ?_
  exact hkey a ha b hb (le_antisymm (by simpa using hab) (by simpa using hba))

/-- After sorting by a key, equal neighbours are exactly the duplicates. -/
theorem adjacentEq_stableSort_key [inst : DecidableEq κ] (l : List α) :
    @adjacentEq κ inst ((stableSort (fun a b => decide (key a ≤ key b)) l).map key) = false ↔
      (l.map key).Nodup := by
  rw [adjacentEq_of_sorted (List.pairwise_map.2 (stableSort_key_pairwise key l))]
  exact ((stableSort_perm _ l).map key).nodup_iff

end

/-- In a list with distinct keys a key finds its item. -/
theorem find?_key [DecidableEq κ] {key : α → κ} {l : List α} (hnd : (l.map key).Nodup) {a : α}
    (h : a ∈ l) : l.find? (fun b => key b = key a) = some a := by
  cases hfind : l.find? fun b => key b = key a with
  | none => simpa using List.find?_eq_none.1 hfind a h
  | some found =>
    have hkey : key found = key a := by simpa using List.find?_some hfind
    rw [List.inj_on_of_nodup_map hnd (List.mem_of_find?_eq_some hfind) h hkey]

end Base
