import LorePia.Base.Utf8Bytes
import Mathlib.Data.List.Infix

/-!
# Searching and cutting texts by a pattern

`find` and `rfind` give the byte offset of an occurrence of a pattern, `splitText`, `splitOnceText` and
`stripText` cut a text at its occurrences from left to right. What a search finds is an occurrence in the
text (`find_spec`), so both of its ends are character boundaries.
-/

namespace Base

section
variable {α : Type} [DecidableEq α]

/-- The offset of the first occurrence of a pattern. -/
def findSub (pattern : List α) : List α → Option Nat
  | [] => if pattern = [] then some 0 else none
  | a :: rest =>
    if pattern.isPrefixOf (a :: rest) then some 0 else (findSub pattern rest).map (· + 1)

/-- The offset of the last occurrence of a pattern. -/
def rfindSub (pattern : List α) : List α → Option Nat
  | [] => if pattern = [] then some 0 else none
  | a :: rest =>
    match rfindSub pattern rest with
    | some i => some (i + 1)
    | none => if pattern.isPrefixOf (a :: rest) then some 0 else none

/-- The pieces between the occurrences of a pattern; `skip` items belong to the last occurrence. -/
def splitSub (pattern : List α) : Nat → List α → List (List α)
  | _, [] => [[]]
  | skip + 1, _ :: rest => splitSub pattern skip rest
  | 0, a :: rest =>
    if pattern.isPrefixOf (a :: rest) then [] :: splitSub pattern (pattern.length - 1) rest
    else
      match splitSub pattern 0 rest with
      | [] => [[a]]
      | piece :: pieces => (a :: piece) :: pieces

/-- What stands before and after the first occurrence of a pattern. -/
def splitOnceSub (pattern : List α) : List α → Option (List α × List α)
  | [] => none
  | a :: rest =>
    if pattern.isPrefixOf (a :: rest) then some ([], (a :: rest).drop pattern.length)
    else (splitOnceSub pattern rest).map fun parts => (a :: parts.1, parts.2)

/-- The occurrences of a pattern replaced; `skip` items belong to the last occurrence. -/
def replaceSub (pattern value : List α) : Nat → List α → List α
  | _, [] => []
  | skip + 1, _ :: rest => replaceSub pattern value skip rest
  | 0, a :: rest =>
    if pattern.isPrefixOf (a :: rest) then value ++ replaceSub pattern value (pattern.length - 1) rest
    else a :: replaceSub pattern value 0 rest

theorem findSub_spec {pattern : List α} : ∀ {l : List α} {i : Nat}, findSub pattern l = some i →
    ∃ before after, l = before ++ pattern ++ after ∧ before.length = i
  | [], i, h => by
    unfold findSub at h
    split at h
    · rename_i hnil
      cases h
      exact ⟨[], [], by rw [hnil]; rfl, rfl⟩
    · cases h
  | a :: rest, i, h => by
    unfold findSub at h
    split at h
    · rename_i hpre
      cases h
      obtain ⟨after, hafter⟩ := List.isPrefixOf_iff_prefix.1 hpre
      exact ⟨[], after, hafter.symm, rfl⟩
    · obtain ⟨j, hj, rfl⟩ := Option.map_eq_some_iff.1 h
      obtain ⟨before, after, rfl, rfl⟩ := findSub_spec hj
      exact ⟨a :: before, after, rfl, rfl⟩

end

/-! ## Texts -/

/-- `text.find(pattern)`. -/
def find (text pattern : String) : Option Nat := findSub (utf8Bytes pattern) (utf8Bytes text)

/-- `text.rfind(pattern)`. -/
def rfind (text pattern : String) : Option Nat := rfindSub (utf8Bytes pattern) (utf8Bytes text)

/-- `text.split(pattern)` of a pattern that is not empty. -/
def splitText (text pattern : String) : List String :=
  (splitSub pattern.toList 0 text.toList).map String.ofList

/-- `text.split_once(pattern)` of a pattern that is not empty. -/
def splitOnceText (text pattern : String) : Option (String × String) :=
  (splitOnceSub pattern.toList text.toList).map fun parts => (String.ofList parts.1, String.ofList parts.2)

/-- `text.replace(pattern, value)` of a pattern that is not empty. -/
def replaceText (text pattern value : String) : String :=
  String.ofList (replaceSub pattern.toList value.toList 0 text.toList)

/-- `text.starts_with(start)`. -/
def beginsWith (text start : String) : Bool := start.toList.isPrefixOf text.toList

/-- `text.strip_prefix(start)`. -/
def stripText (text start : String) : Option String :=
  if beginsWith text start then some (String.ofList (text.toList.drop start.length)) else none

/-- `text.replace_range(start..stop, value)`; `none` where it panics. -/
def replaceRange (text : String) (start stop : Nat) (value : String) : Option String := do
  let before ← sliceBytes text 0 start
  let _ ← sliceBytes text start stop
  let after ← sliceBytesFrom text stop
  return before ++ value ++ after

/-- A range between two boundaries in order is replaced without a panic. -/
theorem replaceRange_of_boundary {text : String} {start stop : Nat} (hstart : IsBoundary text start)
    (hstop : IsBoundary text stop) (hle : start ≤ stop) (value : String) :
    ∃ before after, sliceBytes text 0 start = some before ∧ sliceBytesFrom text stop = some after ∧
      replaceRange text start stop value = some (before ++ value ++ after) := by
  obtain ⟨before, hbefore⟩ := sliceBytes_of_boundary (isBoundary_zero text) hstart (Nat.zero_le _)
  obtain ⟨middle, hmiddle⟩ := sliceBytes_of_boundary hstart hstop hle
  obtain ⟨after, hafter⟩ := sliceBytesFrom_of_boundary hstop
  refine ⟨before, after, hbefore, hafter, ?_⟩
  simp only [replaceRange, hbefore, hmiddle, hafter, Option.bind_eq_bind, Option.bind_some]
  rfl

/-- An occurrence of a pattern from one byte offset to another. -/
def FoundAt (text pattern : String) (start stop : Nat) : Prop :=
  ∃ front back, text = front ++ pattern ++ back ∧ front.utf8ByteSize = start ∧
    start + pattern.utf8ByteSize = stop

theorem find_spec {text pattern : String} (hpattern : pattern ≠ "") {i : Nat}
    (h : find text pattern = some i) : FoundAt text pattern i (i + pattern.utf8ByteSize) := by
  obtain ⟨before, after, hbytes, rfl⟩ := findSub_spec h
  obtain ⟨front, back, htext, rfl, -⟩ := exists_split_of_occurrence hpattern hbytes
  exact ⟨front, back, htext, rfl, rfl⟩

/-- A text cut at a boundary. -/
theorem sliceBytesFrom_split {text : String} {n : Nat} (h : IsBoundary text n) :
    ∃ front rest, text = front ++ rest ∧ front.utf8ByteSize = n ∧ sliceBytesFrom text n = some rest := by
  obtain ⟨before, after, htext, rfl⟩ := h
  refine ⟨String.ofList before, String.ofList after, ?_, String.utf8ByteSize_ofList _, sliceBytesFrom_append htext⟩
  rw [← String.ofList_append, ← htext, String.ofList_toList]

theorem IsBoundary.le {text : String} {n : Nat} (h : IsBoundary text n) : n ≤ text.utf8ByteSize := by
  obtain ⟨front, rest, rfl, rfl, -⟩ := sliceBytesFrom_split h
  rw [String.utf8ByteSize_append]
  exact Nat.le_add_right _ _

namespace FoundAt

variable {text pattern : String} {start stop : Nat}

theorem boundary_start (h : FoundAt text pattern start stop) : IsBoundary text start := by
  obtain ⟨front, back, rfl, rfl, -⟩ := h
  rw [String.append_assoc]
  exact isBoundary_append front _

theorem boundary_stop (h : FoundAt text pattern start stop) : IsBoundary text stop := by
  obtain ⟨front, back, rfl, rfl, rfl⟩ := h
  rw [← String.utf8ByteSize_append]
  exact isBoundary_append _ back

/-- An occurrence behind a beginning of the text. -/
theorem shift (h : FoundAt text pattern start stop) (front : String) :
    FoundAt (front ++ text) pattern (front.utf8ByteSize + start) (front.utf8ByteSize + stop) := by
  obtain ⟨before, back, rfl, rfl, rfl⟩ := h
  refine ⟨front ++ before, back, ?_, ?_, ?_⟩
  · simp only [String.append_assoc]
  · rw [String.utf8ByteSize_append]
  · rw [Nat.add_assoc]

end FoundAt

end Base
