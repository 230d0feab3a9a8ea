import Mathlib.Data.String.Basic

/-!
# Cutting text on UTF-8 boundaries

`takeBytes n` is the longest prefix of whole characters within `n` bytes, `dropBytes n` the suffix
that starts at the first character boundary at or after byte `n`. Both are bounded in bytes and
monotone in `n`; `keepUtf8Prefix` and `keepUtf8Suffix` are the corresponding cuts of a string.
-/

namespace Base

open String (utf8Len)

/-- The longest prefix of whole characters of at most `n` bytes. -/
def takeBytes : Nat → List Char → List Char
  | _, [] => []
  | n, c :: cs => if c.utf8Size ≤ n then c :: takeBytes (n - c.utf8Size) cs else []

/-- The suffix from the first character boundary at or after byte `n` on. -/
def dropBytes : Nat → List Char → List Char
  | _, [] => []
  | 0, cs => cs
  | n + 1, c :: cs => dropBytes (n + 1 - c.utf8Size) cs

theorem takeBytes_isPrefix : ∀ (n : Nat) (cs : List Char), takeBytes n cs <+: cs
  | _, [] => List.prefix_refl _
  | n, c :: cs => by
    unfold takeBytes
    split
    · exact List.cons_prefix_cons.2 ⟨rfl, takeBytes_isPrefix _ cs⟩
    · exact List.nil_prefix

theorem utf8Len_takeBytes_le : ∀ (n : Nat) (cs : List Char), utf8Len (takeBytes n cs) ≤ n
  | _, [] => Nat.zero_le _
  | n, c :: cs => by
    unfold takeBytes
    split
    · have := utf8Len_takeBytes_le (n - c.utf8Size) cs
      rw [String.utf8Len_cons]
      omega
    · exact Nat.zero_le _

/-- No longer prefix of whole characters is within the bytes. -/
theorem takeBytes_maximal : ∀ {n : Nat} {cs piece : List Char}, piece <+: cs → utf8Len piece ≤ n →
    piece <+: takeBytes n cs
  | _, _, [], _, _ => List.nil_prefix
  | n, [], _ :: _, h, _ => absurd h (by simp)
  | n, c :: cs, d :: piece, h, hle => by
    obtain ⟨rfl, htail⟩ := List.cons_prefix_cons.1 h
    rw [String.utf8Len_cons] at hle
    rw [takeBytes, if_pos (by omega)]
    exact List.cons_prefix_cons.2 ⟨rfl, takeBytes_maximal htail (by omega)⟩

/-- A cut leaves fewer than four bytes unused. -/
theorem utf8Len_takeBytes_ge : ∀ (n : Nat) (cs : List Char), n ≤ utf8Len cs →
    n ≤ utf8Len (takeBytes n cs) + 3
  | n, [], h => by
    rw [String.utf8Len_nil] at h
    omega
  | n, c :: cs, h => by
    rw [String.utf8Len_cons] at h
    unfold takeBytes
    split
    · have := utf8Len_takeBytes_ge (n - c.utf8Size) cs (by omega)
      rw [String.utf8Len_cons]
      omega
    · have := c.utf8Size_le_four
      omega

theorem utf8Len_takeBytes_mono : ∀ {n m : Nat} (cs : List Char), n ≤ m →
    utf8Len (takeBytes n cs) ≤ utf8Len (takeBytes m cs)
  | _, _, [], _ => Nat.le_refl _
  | n, m, c :: cs, h => by
    unfold takeBytes
    split
    · rw [if_pos (by omega)]
      have := utf8Len_takeBytes_mono (n := n - c.utf8Size) (m := m - c.utf8Size) cs (by omega)
      simp only [String.utf8Len_cons]
      omega
    · exact Nat.zero_le _

theorem dropBytes_suffix : ∀ (n : Nat) (cs : List Char), dropBytes n cs <:+ cs
  | _, [] => List.suffix_refl _
  | 0, _ :: _ => List.suffix_refl _
  | n + 1, c :: cs => (dropBytes_suffix (n + 1 - c.utf8Size) cs).trans (List.suffix_cons c cs)

@[simp] theorem dropBytes_zero (cs : List Char) : dropBytes 0 cs = cs := by
  cases cs <;> rfl

theorem utf8Len_dropBytes_le : ∀ (n : Nat) (cs : List Char), utf8Len (dropBytes n cs) ≤ utf8Len cs - n
  | _, [] => Nat.zero_le _
  | 0, _ :: _ => Nat.le_refl _
  | n + 1, c :: cs => by
    have := utf8Len_dropBytes_le (n + 1 - c.utf8Size) cs
    rw [dropBytes, String.utf8Len_cons]
    omega

/-- No longer suffix of whole characters is within the bytes that are left. -/
theorem dropBytes_maximal : ∀ {n : Nat} {cs piece : List Char}, piece <:+ cs →
    utf8Len piece ≤ utf8Len cs - n → piece <:+ dropBytes n cs
  | _, [], _, h, _ => by simpa [dropBytes] using h
  | 0, _ :: _, _, h, _ => h
  | n + 1, c :: cs, piece, h, hle => by
    have hpos := c.utf8Size_pos
    rw [String.utf8Len_cons] at hle
    rcases List.suffix_cons_iff.1 h with rfl | htail
    · rw [String.utf8Len_cons] at hle
      omega
    · have hlen := String.utf8Len_le_of_suffix htail
      rw [dropBytes]
      exact dropBytes_maximal htail (by omega)

/-- A cut leaves fewer than four bytes unused. -/
theorem utf8Len_dropBytes_ge : ∀ (n : Nat) (cs : List Char),
    utf8Len cs ≤ n + utf8Len (dropBytes n cs) + 3
  | n, [] => by
    rw [String.utf8Len_nil]
    omega
  | 0, c :: cs => by
    rw [dropBytes_zero]
    omega
  | n + 1, c :: cs => by
    have hfour := c.utf8Size_le_four
    have hrest := utf8Len_dropBytes_ge (n + 1 - c.utf8Size) cs
    rw [dropBytes, String.utf8Len_cons]
    by_cases hin : c.utf8Size ≤ n + 1
    · omega
    · rw [Nat.sub_eq_zero_of_le (by omega), dropBytes_zero]
      omega

theorem utf8Len_dropBytes_anti : ∀ {n m : Nat} (cs : List Char), n ≤ m →
    utf8Len (dropBytes m cs) ≤ utf8Len (dropBytes n cs)
  | _, _, [], _ => Nat.le_refl _
  | 0, m, c :: cs, _ => String.utf8Len_le_of_suffix (dropBytes_suffix m (c :: cs))
  | n + 1, m + 1, c :: cs, h => utf8Len_dropBytes_anti cs (by omega)

/-! ## Strings -/

/-- The longest prefix of `text` of at most `maximumBytes` bytes. -/
def keepUtf8Prefix (text : String) (maximumBytes : Nat) : String :=
  if text.utf8ByteSize ≤ maximumBytes then text
  else String.ofList (takeBytes maximumBytes text.toList)

/-- The suffix of `text` from the first boundary that leaves at most `maximumBytes` bytes. -/
def keepUtf8Suffix (text : String) (maximumBytes : Nat) : String :=
  if text.utf8ByteSize ≤ maximumBytes then text
  else String.ofList (dropBytes (text.utf8ByteSize - maximumBytes) text.toList)

theorem keepUtf8Prefix_le (text : String) (n : Nat) : (keepUtf8Prefix text n).utf8ByteSize ≤ n := by
  unfold keepUtf8Prefix
  split
  · assumption
  · rw [String.utf8ByteSize_ofList]
    exact utf8Len_takeBytes_le _ _

theorem keepUtf8Suffix_le (text : String) (n : Nat) : (keepUtf8Suffix text n).utf8ByteSize ≤ n := by
  unfold keepUtf8Suffix
  split
  · assumption
  · rw [String.utf8ByteSize_ofList]
    have := utf8Len_dropBytes_le (text.utf8ByteSize - n) text.toList
    rw [String.utf8Len_toList] at this
    omega

theorem keepUtf8Prefix_mono (text : String) {n m : Nat} (h : n ≤ m) :
    (keepUtf8Prefix text n).utf8ByteSize ≤ (keepUtf8Prefix text m).utf8ByteSize := by
  unfold keepUtf8Prefix
  split
  · rw [if_pos (by omega)]
  · split
    · rw [String.utf8ByteSize_ofList, ← String.utf8Len_toList]
      exact String.utf8Len_le_of_prefix (takeBytes_isPrefix _ _)
    · simp only [String.utf8ByteSize_ofList]
      exact utf8Len_takeBytes_mono _ h

theorem keepUtf8Suffix_mono (text : String) {n m : Nat} (h : n ≤ m) :
    (keepUtf8Suffix text n).utf8ByteSize ≤ (keepUtf8Suffix text m).utf8ByteSize := by
  unfold keepUtf8Suffix
  split
  · rw [if_pos (by omega)]
  · split
    · rw [String.utf8ByteSize_ofList, ← String.utf8Len_toList]
      exact String.utf8Len_le_of_suffix (dropBytes_suffix _ _)
    · simp only [String.utf8ByteSize_ofList]
      exact utf8Len_dropBytes_anti _ (by omega)

/-! ## Slices -/

/-- A text split at byte `n`; `none` off a character boundary. -/
def splitBytes : List Char → Nat → Option (List Char × List Char)
  | cs, 0 => some ([], cs)
  | [], _ + 1 => none
  | c :: cs, n + 1 =>
    if c.utf8Size ≤ n + 1 then
      (splitBytes cs (n + 1 - c.utf8Size)).map fun parts => (c :: parts.1, parts.2)
    else none

/-- `&text[start..stop]`; `none` where it panics. -/
def sliceBytes (text : String) (start stop : Nat) : Option String := do
  let parts ← splitBytes text.toList start
  if start ≤ stop then
    let parts ← splitBytes parts.2 (stop - start)
    return String.ofList parts.1
  else none

/-- `&text[start..]`; `none` where it panics. -/
def sliceBytesFrom (text : String) (start : Nat) : Option String := do
  let parts ← splitBytes text.toList start
  return String.ofList parts.2

/-- A byte offset between two characters of a text. -/
def IsBoundary (text : String) (n : Nat) : Prop :=
  ∃ before after, text.toList = before ++ after ∧ utf8Len before = n

theorem splitBytes_append (before after : List Char) :
    splitBytes (before ++ after) (utf8Len before) = some (before, after) := by
  induction before with
  | nil => cases after <;> rfl
  | cons c before ih =>
    have hpos := c.utf8Size_pos
    obtain ⟨n, hn⟩ : ∃ n, c.utf8Size + utf8Len before = n + 1 := ⟨c.utf8Size + utf8Len before - 1, by omega⟩
    have hrest : n + 1 - c.utf8Size = utf8Len before := by omega
    rw [List.cons_append, String.utf8Len_cons, Nat.add_comm, hn, splitBytes, if_pos (by omega), hrest, ih]
    rfl

/-- A slice from the end of a beginning to a later boundary. -/
theorem sliceBytes_split {text : String} {before after : List Char} (htext : text.toList = before ++ after)
    {stop : Nat} (hstop : IsBoundary text stop) (hle : utf8Len before ≤ stop) :
    ∃ middle rest, sliceBytes text (utf8Len before) stop = some (String.ofList middle) ∧
      after = middle ++ rest ∧ utf8Len (before ++ middle) = stop := by
  obtain ⟨before', after', htext', rfl⟩ := hstop
  -- the earlier beginning is a beginning of the later one
  obtain ⟨middle, rfl⟩ | ⟨middle, rfl⟩ : before <+: before' ∨ before' <+: before :=
    List.prefix_or_prefix_of_prefix (htext ▸ List.prefix_append _ _) (htext' ▸ List.prefix_append _ _)
  · have hafter : after = middle ++ after' := by
      rw [htext, List.append_assoc, List.append_cancel_left_eq] at htext'
      exact htext'
    refine ⟨middle, after', ?_, hafter, rfl⟩
    have hlen : utf8Len (before ++ middle) - utf8Len before = utf8Len middle := by
      rw [String.utf8Len_append]
      omega
    simp only [sliceBytes, htext, hafter, splitBytes_append, Option.bind_eq_bind, Option.bind_some,
      if_pos hle, hlen]
    rfl
  · have hnil : middle = [] := by
      rw [String.utf8Len_append] at hle
      exact String.utf8Len_eq_zero.1 (by omega)
    subst hnil
    rw [List.append_nil] at htext ⊢
    refine ⟨[], after, ?_, rfl, by rw [List.append_nil]⟩
    simp only [sliceBytes, htext', splitBytes_append, Option.bind_eq_bind, Option.bind_some, le_refl,
      if_true, Nat.sub_self]
    simp [splitBytes]

/-- **A slice between two boundaries in order does not panic.** -/
theorem sliceBytes_of_boundary {text : String} {start stop : Nat} (hstart : IsBoundary text start)
    (hstop : IsBoundary text stop) (hle : start ≤ stop) : ∃ slice, sliceBytes text start stop = some slice := by
  obtain ⟨before, after, htext, rfl⟩ := hstart
  obtain ⟨middle, _, hslice, -⟩ := sliceBytes_split htext hstop hle
  exact ⟨_, hslice⟩

theorem sliceBytesFrom_append {text : String} {before after : List Char}
    (htext : text.toList = before ++ after) :
    sliceBytesFrom text (utf8Len before) = some (String.ofList after) := by
  simp only [sliceBytesFrom, htext, splitBytes_append, Option.bind_eq_bind, Option.bind_some]
  rfl

theorem sliceBytesFrom_of_boundary {text : String} {start : Nat} (hstart : IsBoundary text start) :
    ∃ slice, sliceBytesFrom text start = some slice := by
  obtain ⟨before, after, htext, rfl⟩ := hstart
  exact ⟨_, sliceBytesFrom_append htext⟩

theorem sliceBytesFrom_zero (text : String) : sliceBytesFrom text 0 = some text := by
  have hsplit : splitBytes text.toList 0 = some ([], text.toList) := by
    cases text.toList <;> rfl
  simp [sliceBytesFrom, hsplit]

theorem isBoundary_zero (text : String) : IsBoundary text 0 := ⟨[], text.toList, rfl, rfl⟩

/-- A text has at least one byte for each character. -/
theorem length_le_utf8ByteSize (text : String) : text.length ≤ text.utf8ByteSize := by
  have hlist : ∀ cs : List Char, cs.length ≤ utf8Len cs := by
    intro cs
    induction cs with
    | nil => simp
    | cons c cs ih =>
      have := c.utf8Size_pos
      simp only [List.length_cons, String.utf8Len_cons]
      omega
  have h := hlist text.toList
  rwa [← String.utf8ByteSize_ofList, String.ofList_toList, String.length_toList] at h

end Base
