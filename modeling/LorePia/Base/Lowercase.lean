import Mathlib.Data.List.Basic

/-!
# Lowercase texts

`str::to_lowercase` maps every character by itself, except the capital sigma, which is lowered to a final sigma at
the end of a word. The tables of the Unicode database are a parameter. A character that is neither cased nor ignored
between letters breaks words, so a text is lowered piece by piece between such characters
(`lowercaseFrom_append_break`), and it is lowered character by character exactly when no capital sigma ends a word
(`lowercaseFrom_eq_flatMap`).
-/

namespace Base

/-- What the case mapping reads of the Unicode database. -/
structure CaseTables where
  /-- `char::to_lowercase`. -/
  lower : Char → List Char
  /-- The property `Cased`. -/
  cased : Char → Bool
  /-- The property `Case_Ignorable`. -/
  ignorable : Char → Bool

namespace CaseTables

variable (tables : CaseTables)

/-- `case_ignorable_then_cased`. -/
def ignorableThenCased (chars : List Char) : Bool := (chars.dropWhile tables.ignorable).head?.any tables.cased

/-- The condition `Final_Sigma` between the characters before, the last one first, and those after. -/
def isWordFinal (before after : List Char) : Bool :=
  tables.ignorableThenCased before && !tables.ignorableThenCased after

/-- One character of `str::to_lowercase`. -/
def lowerAt (before : List Char) (c : Char) (after : List Char) : List Char :=
  if c = 'Σ' then [if tables.isWordFinal before after then 'ς' else 'σ'] else tables.lower c

/-- `str::to_lowercase` behind some characters, the last one first. -/
def lowercaseFrom : List Char → List Char → List Char
  | _, [] => []
  | before, c :: rest => tables.lowerAt before c rest ++ lowercaseFrom (c :: before) rest

/-- `str::to_lowercase`. -/
def lowercase (text : List Char) : List Char := tables.lowercaseFrom [] text

/-- Neither cased nor ignored. -/
def Breaks (c : Char) : Prop := tables.ignorable c = false ∧ tables.cased c = false

/-- A capital sigma ends a word of the text. -/
def HasFinalSigma (before text : List Char) : Prop :=
  ∃ front after, text = front ++ 'Σ' :: after ∧ tables.isWordFinal (front.reverse ++ before) after = true

variable {tables}

/-! ## Words -/

/-- Nothing behind a break matters. -/
theorem ignorableThenCased_break {c : Char} (hc : tables.Breaks c) (rest : List Char) : ∀ chars : List Char,
    tables.ignorableThenCased (chars ++ c :: rest) = tables.ignorableThenCased chars
  | [] => by
    rw [List.nil_append, ignorableThenCased, List.dropWhile_cons_of_neg (by rw [hc.1]; decide), List.head?_cons,
      Option.any_some, hc.2]
    rfl
  | d :: chars => by
    cases hd : tables.ignorable d with
    | true =>
      rw [List.cons_append, ignorableThenCased, ignorableThenCased, List.dropWhile_cons_of_pos hd,
        List.dropWhile_cons_of_pos hd]
      exact ignorableThenCased_break hc rest chars
    | false =>
      have hneg : ¬ tables.ignorable d = true := by
        rw [hd]
        decide
      rw [List.cons_append, ignorableThenCased, ignorableThenCased, List.dropWhile_cons_of_neg hneg,
        List.dropWhile_cons_of_neg hneg]
      rfl

theorem isWordFinal_break_before {c : Char} (hc : tables.Breaks c) (before more after : List Char) :
    tables.isWordFinal (before ++ c :: more) after = tables.isWordFinal before after := by
  rw [isWordFinal, isWordFinal, ignorableThenCased_break hc]

theorem isWordFinal_break_after {c : Char} (hc : tables.Breaks c) (before after more : List Char) :
    tables.isWordFinal before (after ++ c :: more) = tables.isWordFinal before after := by
  rw [isWordFinal, isWordFinal, ignorableThenCased_break hc]

theorem lowercaseFrom_before {c : Char} (hc : tables.Breaks c) (more : List Char) :
    ∀ text before : List Char,
    tables.lowercaseFrom (before ++ c :: more) text = tables.lowercaseFrom before text
  | [], _ => rfl
  | d :: text, before => by
    rw [lowercaseFrom, lowercaseFrom, lowerAt, lowerAt, isWordFinal_break_before hc, ← List.cons_append,
      lowercaseFrom_before hc more text (d :: before)]

/-- **The pieces of a text between two breaks are lowered apart.** -/
theorem lowercaseFrom_append_break {c : Char} (hc : tables.Breaks c) (hsigma : c ≠ 'Σ') (rest : List Char) :
    ∀ text before : List Char, tables.lowercaseFrom before (text ++ c :: rest) =
      tables.lowercaseFrom before text ++ (tables.lower c ++ tables.lowercase rest)
  | [], before => by
    rw [List.nil_append, lowercaseFrom, lowercaseFrom, lowerAt, if_neg hsigma, List.nil_append, lowercase]
    exact congrArg _ (lowercaseFrom_before hc before rest [])
  | d :: text, before => by
    rw [List.cons_append, lowercaseFrom, lowercaseFrom, lowerAt, lowerAt, isWordFinal_break_after hc,
      lowercaseFrom_append_break hc hsigma rest text (d :: before), List.append_assoc]

/-! ## Character by character -/

/-- The sigma is lowered to one character in any place. -/
theorem length_lowercaseFrom (hsigma : tables.lower 'Σ' = ['σ']) : ∀ text before : List Char,
    (tables.lowercaseFrom before text).length = (text.flatMap tables.lower).length
  | [], _ => rfl
  | c :: text, before => by
    have hlength : (tables.lowerAt before c text).length = (tables.lower c).length := by
      rw [lowerAt]
      split
      · rename_i hc
        rw [hc, hsigma]
        rfl
      · rfl
    rw [lowercaseFrom, List.flatMap_cons, List.length_append, List.length_append, hlength,
      length_lowercaseFrom hsigma text]

theorem not_hasFinalSigma_cons {c : Char} {before text : List Char} :
    ¬ tables.HasFinalSigma before (c :: text) ↔
      ¬ (c = 'Σ' ∧ tables.isWordFinal before text = true) ∧ ¬ tables.HasFinalSigma (c :: before) text := by
  constructor
  · refine fun h => ⟨fun ⟨hc, hfinal⟩ => h ⟨[], text, by rw [hc]; rfl, hfinal⟩, ?_⟩
    rintro ⟨front, after, rfl, hfinal⟩
    refine h ⟨c :: front, after, rfl, ?_⟩
    rwa [List.reverse_cons, List.append_assoc, List.singleton_append]
  · rintro ⟨hhead, htail⟩ ⟨front, after, heq, hfinal⟩
    cases front with
    | nil =>
      cases heq
      exact hhead ⟨rfl, hfinal⟩
    | cons d front =>
      cases heq
      refine htail ⟨front, after, rfl, ?_⟩
      rwa [List.reverse_cons, List.append_assoc, List.singleton_append] at hfinal

/-- **A text is lowered character by character exactly when no capital sigma ends a word.** -/
theorem lowercaseFrom_eq_flatMap (hsigma : tables.lower 'Σ' = ['σ']) : ∀ text before : List Char,
    tables.lowercaseFrom before text = text.flatMap tables.lower ↔ ¬ tables.HasFinalSigma before text
  | [], before => by
    refine iff_of_true rfl ?_
    rintro ⟨front, after, heq, -⟩
    cases front <;> cases heq
  | c :: text, before => by
    rw [lowercaseFrom, List.flatMap_cons, not_hasFinalSigma_cons, ← lowercaseFrom_eq_flatMap hsigma text]
    have hhead : tables.lowerAt before c text = tables.lower c ↔
        ¬ (c = 'Σ' ∧ tables.isWordFinal before text = true) := by
      unfold lowerAt
      by_cases hc : c = 'Σ'
      · rw [if_pos hc, hc, hsigma]
        cases tables.isWordFinal before text <;> decide
      · rw [if_neg hc]
        exact iff_of_true rfl fun h => hc h.1
    rw [← hhead]
    constructor
    · intro h
      have htail := List.append_inj_right' h (length_lowercaseFrom hsigma text _)
      rw [htail] at h
      exact ⟨List.append_cancel_right h, htail⟩
    · intro ⟨hfirst, hrest⟩
      rw [hfirst, hrest]

end CaseTables

end Base
