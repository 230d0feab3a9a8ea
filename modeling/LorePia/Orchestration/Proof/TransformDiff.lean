import LorePia.Orchestration.Transform

/-!
# The diff of two texts

`make_diff` keeps the longest common prefix and then as many common characters at the end as both texts have left,
so the two never overlap, and both texts are the prefix, their own middle and the suffix (`Diffs`). The counters
are saturating: they rebuild the texts exactly as long as the prefix and the suffix have a 32-bit length
(`makeDiff_rebuilds`).
-/

namespace LorePia

open Base

/-! ## The common prefix -/

theorem commonLength_le_left (l k : List Char) : commonLength l k ≤ l.length := by
  induction l generalizing k with
  | nil => simp [commonLength]
  | cons a l ih =>
    cases k with
    | nil => simp [commonLength]
    | cons b k =>
      unfold commonLength
      split
      · have := ih k
        simp only [List.length_cons]
        omega
      · exact Nat.zero_le _

theorem commonLength_comm (l k : List Char) : commonLength l k = commonLength k l := by
  induction l generalizing k with
  | nil => cases k <;> simp [commonLength]
  | cons a l ih =>
    cases k with
    | nil => simp [commonLength]
    | cons b k => simp [commonLength, ih k, eq_comm (a := a)]

theorem commonLength_le_right (l k : List Char) : commonLength l k ≤ k.length :=
  commonLength_comm l k ▸ commonLength_le_left k l

/-- The counted characters are common. -/
theorem take_commonLength (l k : List Char) : l.take (commonLength l k) = k.take (commonLength l k) := by
  induction l generalizing k with
  | nil => simp [commonLength]
  | cons a l ih =>
    cases k with
    | nil => simp [commonLength]
    | cons b k =>
      unfold commonLength
      split
      · rename_i heq
        simp [heq, ih k]
      · simp

/-- **No common prefix is longer.** -/
theorem length_le_commonLength {q l k : List Char} (hl : q <+: l) (hk : q <+: k) :
    q.length ≤ commonLength l k := by
  induction q generalizing l k with
  | nil => exact Nat.zero_le _
  | cons a q ih =>
    obtain ⟨l', rfl⟩ := hl
    obtain ⟨k', rfl⟩ := hk
    have hrest := ih (List.prefix_append q l') (List.prefix_append q k')
    simp only [List.cons_append, commonLength, if_true, List.length_cons]
    omega

theorem take_eq_of_le_commonLength {l k : List Char} {n : Nat} (h : n ≤ commonLength l k) : l.take n = k.take n := by
  have hcommon := congrArg (List.take n) (take_commonLength l k)
  rwa [List.take_take, List.take_take, Nat.min_eq_left h] at hcommon

/-- The common end of two texts. -/
theorem drop_eq_of_le_commonLength {l k : List Char} {n : Nat} (h : n ≤ commonLength l.reverse k.reverse) :
    l.drop (l.length - n) = k.drop (k.length - n) := by
  have htake := take_eq_of_le_commonLength h
  rwa [List.take_reverse, List.take_reverse, List.reverse_inj] at htake

/-! ## The parts of a diff -/

/-- The two texts are the prefix, their middles and the suffix that the diff tells. -/
structure Diffs (before after : String) (maxFragmentChars : Nat) (diff : TransformDiff)
    (pre beforeMiddle afterMiddle suffix : List Char) : Prop where
  beforeParts : before.toList = pre ++ beforeMiddle ++ suffix
  afterParts : after.toList = pre ++ afterMiddle ++ suffix
  longest : ∀ q, q <+: before.toList → q <+: after.toList → q.length ≤ pre.length
  prefixChars : diff.unchangedPrefixChars.toNat = min pre.length u32Max
  suffixChars : diff.unchangedSuffixChars.toNat = min suffix.length u32Max
  beforeFragment : diff.beforeFragment.toList = beforeMiddle.take maxFragmentChars
  afterFragment : diff.afterFragment.toList = afterMiddle.take maxFragmentChars
  truncated : diff.truncated = true ↔ maxFragmentChars < beforeMiddle.length ∨ maxFragmentChars < afterMiddle.length

theorem take_append_middle_append_drop {α : Type} (l : List α) {i j : Nat} (h : i ≤ j) :
    l = l.take i ++ (l.take j).drop i ++ l.drop j := by
  have htake : l.take i = (l.take j).take i := by rw [List.take_take, Nat.min_eq_left h]
  rw [htake, List.take_append_drop, List.take_append_drop]

/-- **Every diff tells its parts.** -/
theorem exists_diffs (before after : String) (maxFragmentChars : Nat) :
    ∃ pre beforeMiddle afterMiddle suffix, Diffs before after maxFragmentChars
      (makeDiff before after maxFragmentChars) pre beforeMiddle afterMiddle suffix := by
  generalize hdiff : makeDiff before after maxFragmentChars = diff
  unfold makeDiff at hdiff
  -- the two counters, of which the second leaves the prefix alone
  set common := commonLength before.toList after.toList with hcommon
  set suffix := min (min (before.toList.length - common) (after.toList.length - common))
    (commonLength before.toList.reverse after.toList.reverse) with hsuffix
  have hbefore : common ≤ before.toList.length := commonLength_le_left _ _
  have hafter : common ≤ after.toList.length := commonLength_le_right _ _
  have hends : before.toList.drop (before.toList.length - suffix) = after.toList.drop (after.toList.length - suffix) :=
    drop_eq_of_le_commonLength (Nat.min_le_right _ _)
  have hpre : (before.toList.take common).length = common := by
    rw [List.length_take]
    omega
  have hlength : (before.toList.drop (before.toList.length - suffix)).length = suffix := by
    rw [List.length_drop]
    omega
  refine ⟨before.toList.take common, (before.toList.take (before.toList.length - suffix)).drop common,
    (after.toList.take (after.toList.length - suffix)).drop common,
    before.toList.drop (before.toList.length - suffix), ?_⟩
  subst hdiff
  refine
    { beforeParts := take_append_middle_append_drop _ (by omega)
      afterParts := ?_
      longest := fun q hq hq' => ?_
      prefixChars := ?_
      suffixChars := ?_
      beforeFragment := String.toList_ofList
      afterFragment := String.toList_ofList
      truncated := ?_ }
  · rw [take_commonLength, hends]
    exact take_append_middle_append_drop _ (by omega)
  · rw [hpre]
    exact length_le_commonLength hq hq'
  · rw [hpre, toNat_u32FromSat]
  · rw [hlength, toNat_u32FromSat]
  · rw [Bool.or_eq_true, decide_eq_true_iff, decide_eq_true_iff]

/-! ## Rebuilding -/

/-- The unchanged characters of a text around a fragment. -/
def TransformDiff.rebuild (diff : TransformDiff) (text : List Char) (fragment : String) : List Char :=
  text.take diff.unchangedPrefixChars.toNat ++ fragment.toList ++
    text.drop (text.length - diff.unchangedSuffixChars.toNat)

section
variable {before after : String} {maxFragmentChars : Nat} {diff : TransformDiff}
  {pre beforeMiddle afterMiddle suffix : List Char}

theorem Diffs.separate (h : Diffs before after maxFragmentChars diff pre beforeMiddle afterMiddle suffix) :
    diff.unchangedPrefixChars.toNat + diff.unchangedSuffixChars.toNat ≤ before.length ∧
      diff.unchangedPrefixChars.toNat + diff.unchangedSuffixChars.toNat ≤ after.length := by
  have hbefore := congrArg List.length h.beforeParts
  have hafter := congrArg List.length h.afterParts
  simp only [String.length_toList, List.length_append] at hbefore hafter
  rw [h.prefixChars, h.suffixChars]
  omega

theorem Diffs.length_rebuild (h : Diffs before after maxFragmentChars diff pre beforeMiddle afterMiddle suffix)
    (fragment : String) :
    (diff.rebuild before.toList fragment).length = min pre.length u32Max + fragment.length + min suffix.length u32Max := by
  have hbefore := congrArg List.length h.beforeParts
  simp only [List.length_append] at hbefore
  simp only [TransformDiff.rebuild, List.length_append, List.length_take, List.length_drop, h.prefixChars,
    h.suffixChars, String.length_toList] at hbefore ⊢
  omega

/-- Exact counters rebuild a text around its fragment. -/
theorem Diffs.rebuild_eq (h : Diffs before after maxFragmentChars diff pre beforeMiddle afterMiddle suffix)
    (hpre : pre.length ≤ u32Max) (hsuffix : suffix.length ≤ u32Max) (fragment : String) :
    diff.rebuild before.toList fragment = pre ++ fragment.toList ++ suffix := by
  have htake : (pre ++ beforeMiddle ++ suffix).take pre.length = pre := by
    rw [List.append_assoc, List.take_left]
  have hdrop : (pre ++ beforeMiddle ++ suffix).drop (pre ++ beforeMiddle).length = suffix := List.drop_left
  have hlength : (pre ++ beforeMiddle ++ suffix).length - suffix.length = (pre ++ beforeMiddle).length := by
    rw [List.length_append]
    omega
  rw [TransformDiff.rebuild, h.beforeParts, h.prefixChars, h.suffixChars, Nat.min_eq_left hpre, Nat.min_eq_left hsuffix,
    htake, hlength, hdrop]

/-- **When the diff rebuilds both texts.** -/
theorem Diffs.rebuilds_iff (h : Diffs before after maxFragmentChars diff pre beforeMiddle afterMiddle suffix)
    (hwhole : diff.truncated = false) :
    diff.rebuild before.toList diff.beforeFragment = before.toList ∧
        diff.rebuild before.toList diff.afterFragment = after.toList ↔
      pre.length ≤ u32Max ∧ suffix.length ≤ u32Max := by
  have hfits : ¬ (maxFragmentChars < beforeMiddle.length ∨ maxFragmentChars < afterMiddle.length) := by
    rw [← h.truncated]
    simp [hwhole]
  have hbefore : diff.beforeFragment.toList = beforeMiddle := by
    rw [h.beforeFragment, List.take_of_length_le (by omega)]
  have hafter : diff.afterFragment.toList = afterMiddle := by
    rw [h.afterFragment, List.take_of_length_le (by omega)]
  constructor
  · rintro ⟨hrebuilt, -⟩
    -- a counter that saturates leaves out a character
    have hlength := congrArg List.length hrebuilt
    rw [h.length_rebuild, h.beforeParts, ← String.length_toList, hbefore] at hlength
    simp only [List.length_append] at hlength
    omega
  · rintro ⟨hpre, hsuffix⟩
    rw [h.rebuild_eq hpre hsuffix, h.rebuild_eq hpre hsuffix, hbefore, hafter]
    exact ⟨h.beforeParts.symm, h.afterParts.symm⟩

end

/-- **Diffs are exact**: the counted prefix and suffix do not overlap, no common prefix is longer than the one the
diff counts, the fragments begin the middles, and a diff that is not truncated rebuilds both texts exactly when
its counters can hold the lengths of the prefix and the suffix. -/
theorem makeDiff_rebuilds (before after : String) (maxFragmentChars : Nat) :
    ((makeDiff before after maxFragmentChars).unchangedPrefixChars.toNat +
          (makeDiff before after maxFragmentChars).unchangedSuffixChars.toNat ≤ before.length ∧
        (makeDiff before after maxFragmentChars).unchangedPrefixChars.toNat +
          (makeDiff before after maxFragmentChars).unchangedSuffixChars.toNat ≤ after.length) ∧
      ∃ pre beforeMiddle afterMiddle suffix,
        Diffs before after maxFragmentChars (makeDiff before after maxFragmentChars) pre beforeMiddle afterMiddle
            suffix ∧
          ((makeDiff before after maxFragmentChars).truncated = false →
            ((makeDiff before after maxFragmentChars).rebuild before.toList
                  (makeDiff before after maxFragmentChars).beforeFragment = before.toList ∧
                (makeDiff before after maxFragmentChars).rebuild before.toList
                  (makeDiff before after maxFragmentChars).afterFragment = after.toList ↔
              pre.length ≤ u32Max ∧ suffix.length ≤ u32Max)) := by
  obtain ⟨pre, beforeMiddle, afterMiddle, suffix, h⟩ := exists_diffs before after maxFragmentChars
  exact ⟨h.separate, pre, beforeMiddle, afterMiddle, suffix, h, h.rebuilds_iff⟩

example : makeDiff "가나다라마바사" "가나XYZ바사" 2 = ⟨2, "다라", "XY", 2, true⟩ := by decide +kernel

/-- A text of 4294967296 characters and itself. -/
theorem makeDiff_saturates : ¬ ∀ before after : String, ∀ maxFragmentChars : Nat,
    (makeDiff before after maxFragmentChars).truncated = false →
      (makeDiff before after maxFragmentChars).rebuild before.toList
        (makeDiff before after maxFragmentChars).beforeFragment = before.toList := by
  intro hall
  set text := String.ofList (List.replicate (u32Max + 1) 'a') with htext
  have hchars : text.toList.length = u32Max + 1 := by
    rw [htext, String.toList_ofList, List.length_replicate]
  obtain ⟨pre, beforeMiddle, afterMiddle, suffix, h⟩ := exists_diffs text text 1
  have hpre := h.longest text.toList (List.prefix_refl _) (List.prefix_refl _)
  have hlength := congrArg List.length h.beforeParts
  have hafter := congrArg List.length h.afterParts
  simp only [List.length_append] at hlength hafter
  have hwhole : (makeDiff text text 1).truncated = false := by
    rw [← Bool.not_eq_true, h.truncated]
    omega
  have hfragment : (makeDiff text text 1).beforeFragment.length = 0 := by
    rw [← String.length_toList, h.beforeFragment, List.length_take]
    omega
  have hrebuilt := congrArg List.length (hall text text 1 hwhole)
  rw [h.length_rebuild, hfragment] at hrebuilt
  omega

end LorePia
