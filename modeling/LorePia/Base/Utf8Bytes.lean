import LorePia.Base.Utf8

/-!
# The UTF-8 bytes of a text

Texts are equal when their bytes are (`utf8Bytes_inj`), and the bytes of a concatenation are concatenated. A
cut of the bytes before a byte that starts a character is a cut of the text (`exists_split_of_utf8Bytes`):
where a text ends in the beginning of another, it may be split there (`splitOff_of_suffix`), and where the
bytes of a text are those of another it occurs there (`exists_split_of_occurrence`).
-/

namespace Base

open String (utf8Len)

/-- `text.as_bytes()`. -/
def utf8Bytes (text : String) : List UInt8 := text.toByteArray.data.toList

theorem utf8Bytes_ofList (cs : List Char) :
    utf8Bytes (String.ofList cs) = cs.flatMap String.utf8EncodeChar := by
  rw [utf8Bytes, String.toByteArray_ofList, List.utf8Encode]
  exact List.toList_data_toByteArray

theorem utf8Bytes_eq (text : String) : utf8Bytes text = text.toList.flatMap String.utf8EncodeChar := by
  rw [← utf8Bytes_ofList, String.ofList_toList]

theorem utf8Bytes_append (a b : String) : utf8Bytes (a ++ b) = utf8Bytes a ++ utf8Bytes b := by
  rw [utf8Bytes_eq, String.toList_append, List.flatMap_append, ← utf8Bytes_eq, ← utf8Bytes_eq]

theorem utf8Bytes_inj {a b : String} (h : utf8Bytes a = utf8Bytes b) : a = b := by
  unfold utf8Bytes at h
  exact String.toByteArray_inj.1 (ByteArray.ext (Array.toList_inj.1 h))

theorem length_utf8Bytes (text : String) : (utf8Bytes text).length = text.utf8ByteSize := rfl

@[simp] theorem utf8Bytes_empty : utf8Bytes "" = [] := rfl

theorem utf8Bytes_ne_nil {text : String} (h : text ≠ "") : utf8Bytes text ≠ [] :=
  fun hnil => h (utf8Bytes_inj (hnil.trans utf8Bytes_empty.symm))

/-- Only the first byte of a character starts one. -/
theorem utf8EncodeChar_cons (c : Char) : ∃ byte rest, String.utf8EncodeChar c = byte :: rest ∧
    byte.IsUTF8FirstByte ∧ ∀ b ∈ rest, ¬ b.IsUTF8FirstByte := by
  have hfirst : ∀ i (hi : i < (String.utf8EncodeChar c).length),
      ((String.utf8EncodeChar c).get ⟨i, hi⟩).IsUTF8FirstByte ↔ i = 0 := fun i hi =>
    UInt8.isUTF8FirstByte_getElem_utf8EncodeChar
  obtain ⟨byte, rest, heq⟩ := List.exists_cons_of_ne_nil (String.utf8EncodeChar_ne_nil (c := c))
  rw [heq] at hfirst
  refine ⟨byte, rest, heq, (hfirst 0 (Nat.succ_pos _)).2 rfl, fun b hb hstart => ?_⟩
  obtain ⟨i, hi, rfl⟩ := List.getElem_of_mem hb
  exact absurd ((hfirst (i + 1) (Nat.succ_lt_succ hi)).1 hstart) (Nat.succ_ne_zero i)

theorem utf8Bytes_cons {text : String} (h : text ≠ "") : ∃ byte rest, utf8Bytes text = byte :: rest ∧
    byte.IsUTF8FirstByte := by
  rw [utf8Bytes_eq]
  cases hcs : text.toList with
  | nil => exact absurd (String.toList_eq_nil_iff.1 hcs) h
  | cons c cs =>
    obtain ⟨byte, rest, heq, hstart, -⟩ := utf8EncodeChar_cons c
    exact ⟨byte, rest ++ cs.flatMap String.utf8EncodeChar, by rw [List.flatMap_cons, heq]; rfl, hstart⟩

/-- The bytes start a character, or are none. -/
def AtBoundary (bytes : List UInt8) : Prop := ∀ byte ∈ bytes.head?, byte.IsUTF8FirstByte

/-- A cut before a byte that starts a character is between two characters. -/
theorem exists_split_of_flatMap : ∀ {cs : List Char} {before after : List UInt8},
    cs.flatMap String.utf8EncodeChar = before ++ after → AtBoundary after →
    ∃ front back, cs = front ++ back ∧ front.flatMap String.utf8EncodeChar = before ∧
      back.flatMap String.utf8EncodeChar = after
  | cs, [], after, h, _ => ⟨[], cs, rfl, rfl, h⟩
  | [], b :: before, after, h, _ => by cases h
  | c :: cs, b :: before, after, h, hafter => by
    obtain ⟨byte, rest, heq, -, hrest⟩ := utf8EncodeChar_cons c
    rw [List.flatMap_cons, heq, List.cons_append, List.cons_append, List.cons.injEq] at h
    obtain ⟨rfl, h⟩ := h
    -- the cut is not inside the first character
    obtain ⟨more, rfl, hmore⟩ : ∃ more, before = rest ++ more ∧
        cs.flatMap String.utf8EncodeChar = more ++ after := by
      obtain ⟨more, hbefore, hmore⟩ | ⟨more, hrest', hafter'⟩ := List.append_eq_append_iff.1 h
      · exact ⟨more, hbefore, hmore⟩
      · cases more with
        | nil => exact ⟨[], by simpa using hrest'.symm, hafter'.symm⟩
        | cons b more =>
          refine absurd (hafter b (by rw [hafter']; rfl)) (hrest b ?_)
          rw [hrest']
          exact List.mem_append_right _ (List.mem_cons_self ..)
    obtain ⟨front, back, rfl, hfront, hback⟩ := exists_split_of_flatMap hmore hafter
    refine ⟨c :: front, back, rfl, ?_, hback⟩
    rw [List.flatMap_cons, heq, hfront]
    rfl

theorem exists_split_of_utf8Bytes {text : String} {before after : List UInt8}
    (h : utf8Bytes text = before ++ after) (hafter : AtBoundary after) :
    ∃ front back, text = front ++ back ∧ utf8Bytes front = before ∧ utf8Bytes back = after := by
  rw [utf8Bytes_eq] at h
  obtain ⟨front, back, hcs, hfront, hback⟩ := exists_split_of_flatMap h hafter
  refine ⟨String.ofList front, String.ofList back, ?_, by rw [utf8Bytes_ofList, hfront],
    by rw [utf8Bytes_ofList, hback]⟩
  rw [← String.ofList_append, ← hcs, String.ofList_toList]

/-- The first bytes of a text determine its first character. -/
theorem utf8EncodeChar_append_inj {c d : Char} {x y : List UInt8}
    (h : String.utf8EncodeChar c ++ x = String.utf8EncodeChar d ++ y) : c = d ∧ x = y := by
  have hdecode : ∀ (c : Char) (x : List UInt8),
      (String.utf8EncodeChar c ++ x).toByteArray.utf8DecodeChar? 0 = some c := by
    intro c x
    rw [List.toByteArray_append]
    exact ByteArray.utf8DecodeChar?_utf8EncodeChar_append
  have hc : c = d := by
    have hd := hdecode c x
    rw [h, hdecode d y] at hd
    exact (Option.some.inj hd).symm
  subst hc
  exact ⟨rfl, List.append_cancel_left h⟩

theorem exists_split_of_beginning : ∀ {needle cs : List Char} {after : List UInt8},
    cs.flatMap String.utf8EncodeChar = needle.flatMap String.utf8EncodeChar ++ after →
    ∃ back, cs = needle ++ back ∧ back.flatMap String.utf8EncodeChar = after
  | [], cs, after, h => ⟨cs, rfl, h⟩
  | d :: needle, [], after, h => by
    obtain ⟨byte, rest, heq, -, -⟩ := utf8EncodeChar_cons d
    rw [List.flatMap_cons, heq] at h
    cases h
  | d :: needle, c :: cs, after, h => by
    rw [List.flatMap_cons, List.flatMap_cons, List.append_assoc] at h
    obtain ⟨rfl, htail⟩ := utf8EncodeChar_append_inj h
    obtain ⟨back, rfl, hback⟩ := exists_split_of_beginning htail
    exact ⟨back, rfl, hback⟩

/-- **Bytes of a text that are those of another text are an occurrence of it.** -/
theorem exists_split_of_occurrence {text needle : String} {before after : List UInt8}
    (hneedle : needle ≠ "") (h : utf8Bytes text = before ++ utf8Bytes needle ++ after) :
    ∃ front back, text = front ++ needle ++ back ∧ utf8Bytes front = before ∧ utf8Bytes back = after := by
  obtain ⟨byte, rest, heq, hstart⟩ := utf8Bytes_cons hneedle
  have hboundary : AtBoundary (utf8Bytes needle ++ after) := by
    intro b hb
    rw [heq, List.cons_append, List.head?_cons, Option.mem_some] at hb
    exact hb ▸ hstart
  rw [List.append_assoc] at h
  obtain ⟨front, tail, rfl, hfront, htail⟩ := exists_split_of_utf8Bytes h hboundary
  rw [utf8Bytes_eq, utf8Bytes_eq needle] at htail
  obtain ⟨back, hcs, hback⟩ := exists_split_of_beginning htail
  refine ⟨front, String.ofList back, ?_, hfront, by rw [utf8Bytes_ofList, hback]⟩
  rw [String.append_assoc, ← String.ofList_toList (s := needle), ← String.ofList_append, ← hcs,
    String.ofList_toList]

theorem isBoundary_append (front back : String) : IsBoundary (front ++ back) front.utf8ByteSize :=
  ⟨front.toList, back.toList, String.toList_append .., String.utf8Len_toList _⟩

/-- `text.split_off(at)`; `none` where it panics. -/
def splitOff (text : String) (n : Nat) : Option (String × String) :=
  (splitBytes text.toList n).map fun parts => (String.ofList parts.1, String.ofList parts.2)

theorem splitOff_append (front back : String) :
    splitOff (front ++ back) front.utf8ByteSize = some (front, back) := by
  rw [splitOff, String.toList_append, ← String.utf8Len_toList, splitBytes_append, Option.map_some,
    String.ofList_toList, String.ofList_toList]

/-- The beginning of another text at the end of a text is cut off. -/
theorem splitOff_of_suffix {text other : String} {k : Nat} (hother : other ≠ "")
    (h : (utf8Bytes other).take k <:+ utf8Bytes text) (hk : k ≤ (utf8Bytes other).length) :
    ∃ front back, text = front ++ back ∧ utf8Bytes back = (utf8Bytes other).take k ∧
      splitOff text (text.utf8ByteSize - k) = some (front, back) := by
  obtain ⟨before, hbefore⟩ := h
  have hboundary : AtBoundary ((utf8Bytes other).take k) := by
    obtain ⟨byte, rest, heq, hstart⟩ := utf8Bytes_cons hother
    intro b hb
    rw [heq] at hb
    cases k with
    | zero => cases hb
    | succ k =>
      rw [List.take_succ_cons, List.head?_cons, Option.mem_some] at hb
      exact hb ▸ hstart
  obtain ⟨front, back, rfl, hfront, hback⟩ := exists_split_of_utf8Bytes hbefore.symm hboundary
  refine ⟨front, back, rfl, hback, ?_⟩
  have hsize : (front ++ back).utf8ByteSize - k = front.utf8ByteSize := by
    rw [← length_utf8Bytes, utf8Bytes_append, List.length_append, hback, List.length_take,
      Nat.min_eq_left hk, Nat.add_sub_cancel, length_utf8Bytes]
  rw [hsize, splitOff_append]

end Base
