import LorePia.Base.Json
import LorePia.Base.Utf8

/-!
# Compact JSON texts

`print` is the compact text of a `serde_json::Value`, with the text of a float as a parameter, and `same` is
its equality.
-/

namespace Base

open String (utf8Len)

namespace Json

/-! ## Equality -/

/-- `a == b` of two numbers; a float is never NaN. -/
def sameNumber : JsonNumber → JsonNumber → Bool
  | .posInt m, .posInt n => m = n
  | .negInt m, .negInt n => m = n
  | .float x, .float y => x.eq y || x = y
  | _, _ => false

mutual
/-- `a == b` of two values. -/
def same : Json → Json → Bool
  | .null, .null => true
  | .bool a, .bool b => a = b
  | .number m, .number n => sameNumber m n
  | .string s, .string t => s = t
  | .array items, .array items' => sameItems items items'
  | .object fields, .object fields' => sameFields fields fields'
  | _, _ => false

/-- The items of two arrays. -/
def sameItems : List Json → List Json → Bool
  | [], [] => true
  | a :: items, b :: items' => same a b && sameItems items items'
  | _, _ => false

/-- The fields of two objects. -/
def sameFields : List (String × Json) → List (String × Json) → Bool
  | [], [] => true
  | (key, a) :: fields, (key', b) :: fields' => key = key' && same a b && sameFields fields fields'
  | _, _ => false
end

theorem sameNumber_refl (n : JsonNumber) : sameNumber n n = true := by
  cases n <;> simp [sameNumber]

mutual
theorem same_refl : ∀ value : Json, same value value = true
  | .null => by rw [same]
  | .bool b => by simp [same]
  | .number n => by rw [same, sameNumber_refl]
  | .string s => by simp [same]
  | .array items => by rw [same, sameItems_refl items]
  | .object fields => by rw [same, sameFields_refl fields]

theorem sameItems_refl : ∀ items : List Json, sameItems items items = true
  | [] => by rw [sameItems]
  | a :: items => by rw [sameItems, same_refl a, sameItems_refl items, Bool.and_self]

theorem sameFields_refl : ∀ fields : List (String × Json), sameFields fields fields = true
  | [] => by rw [sameFields]
  | (key, a) :: fields => by simp [sameFields, same_refl a, sameFields_refl fields]
end

theorem asU64_of_same {a b : Json} {n : Nat} (h : same a b = true) (hb : b.asU64 = some n) :
    a.asU64 = some n := by
  unfold asU64 at hb
  split at hb
  · rename_i m
    cases hb
    cases a with
    | number k =>
      rw [same] at h
      cases k with
      | posInt k =>
        rw [sameNumber, decide_eq_true_eq] at h
        rw [h]
        rfl
      | negInt k => cases h
      | float x => cases h
    | _ => simp [same] at h
  · cases hb

/-! ## Texts -/

/-- The last two digits of a `\u` escape. -/
def hexPair (n : Nat) : List Char := [(n / 16).digitChar, (n % 16).digitChar]

/-- A character of a string literal. -/
def escapeChar (c : Char) : List Char :=
  if c.toNat = 34 ∨ c.toNat = 92 then ['\\', c]
  else if c.toNat = 8 then ['\\', 'b']
  else if c.toNat = 9 then ['\\', 't']
  else if c.toNat = 10 then ['\\', 'n']
  else if c.toNat = 12 then ['\\', 'f']
  else if c.toNat = 13 then ['\\', 'r']
  else if c.toNat < 32 then ['\\', 'u', '0', '0'] ++ hexPair c.toNat
  else [c]

/-- A quotation mark. -/
def quote : Char := Char.ofNat 34

/-- A string literal. -/
def printString (s : String) : List Char := quote :: s.toList.flatMap escapeChar ++ [quote]

variable (floatText : F64 → String)

/-- The text of a number. -/
def printNumber : JsonNumber → List Char
  | .posInt n => (toString n).toList
  | .negInt n => (toString n).toList
  | .float x => (floatText x).toList

mutual
/-- The compact text of a value. -/
def print : Json → List Char
  | .null => "null".toList
  | .bool b => (if b then "true" else "false").toList
  | .number n => printNumber floatText n
  | .string s => printString s
  | .array items => '[' :: (printItems items).tail ++ [']']
  | .object fields => Char.ofNat 123 :: (printFields fields).tail ++ [Char.ofNat 125]

/-- The items of an array, each behind a comma. -/
def printItems : List Json → List Char
  | [] => []
  | item :: items => ',' :: print item ++ printItems items

/-- The fields of an object, each behind a comma. -/
def printFields : List (String × Json) → List Char
  | [] => []
  | (key, value) :: fields => ',' :: printString key ++ ':' :: print value ++ printFields fields
end

theorem utf8Len_printString_le (s t : String) :
    utf8Len (printString s) ≤ utf8Len (printString (s ++ t)) := by
  simp only [printString, String.toList_append, List.flatMap_append, List.cons_append, String.utf8Len_cons,
    String.utf8Len_append]
  omega

/-- A string that grows in a field of an object. -/
theorem utf8Len_printFields_insert_le (key s t : String) : ∀ fields : List (String × Json),
    utf8Len (printFields floatText (OrdMap.insertList key (.string s) fields)) ≤
      utf8Len (printFields floatText (OrdMap.insertList key (.string (s ++ t)) fields))
  | [] => by
    have hle := utf8Len_printString_le s t
    simp only [OrdMap.insertList, printFields, print, List.cons_append, String.utf8Len_cons,
      String.utf8Len_append]
    omega
  | (k, value) :: fields => by
    have hle := utf8Len_printString_le s t
    have hrest := utf8Len_printFields_insert_le key s t fields
    unfold OrdMap.insertList
    split
    · simp only [printFields, print, List.cons_append, String.utf8Len_cons, String.utf8Len_append]
      omega
    · split
      · simp only [printFields, print, List.cons_append, String.utf8Len_cons, String.utf8Len_append]
        omega
      · simp only [printFields, List.cons_append, String.utf8Len_cons, String.utf8Len_append]
        omega

theorem utf8Len_tail_printFields (fields : List (String × Json)) :
    utf8Len (printFields floatText fields).tail = utf8Len (printFields floatText fields) - 1 := by
  cases fields with
  | nil => rfl
  | cons field fields =>
    simp only [printFields, List.cons_append, List.tail_cons, String.utf8Len_cons]
    exact (Nat.add_sub_cancel _ 1).symm

/-- **A string that grows makes the text grow.** -/
theorem utf8Len_print_insert_le (key s t : String) (fields : List (String × Json)) :
    utf8Len (print floatText (.object (OrdMap.insertList key (.string s) fields))) ≤
      utf8Len (print floatText (.object (OrdMap.insertList key (.string (s ++ t)) fields))) := by
  have hle := utf8Len_printFields_insert_le floatText key s t fields
  simp only [print, List.cons_append, String.utf8Len_cons, String.utf8Len_append, utf8Len_tail_printFields]
  omega

end Json

end Base
