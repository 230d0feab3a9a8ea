import Mathlib.Data.List.TakeWhile
import LorePia.Base.Decimal
import LorePia.Orchestration.Proof.Transform

/-!
# Replacement templates

The grammar of a replacement (`Generates`): characters other than `$`, `$$`, `$name` with the longest name
that stands there, and `${name}`, where every name is a capture of the regex. `parseReplacement` accepts
exactly what the grammar generates and its tokens print back to the source without its braces and
without leading zeros of capture numbers (`parseReplacement_spec`). The replacement
`$0` puts every match back (`replaceBounded_identity`).
-/

namespace LorePia

open Base
open String (utf8Len)

variable {regex : Regex}

/-! ## The grammar -/

inductive ReplacementItem
  | char (c : Char)
  | dollar
  | bare (name : List Char)
  | braced (name : List Char)

/-- The item as the source has it. -/
def ReplacementItem.source : ReplacementItem → List Char
  | .char c => [c]
  | .dollar => ['$', '$']
  | .bare name => '$' :: name
  | .braced name => '$' :: '{' :: (name ++ ['}'])

/-- The name of a capture, or its number without leading zeros. -/
def plainCapture (name : List Char) : List Char :=
  if name.all Char.isDigit then stripZeros name else name

/-- The item without braces and leading zeros. -/
def ReplacementItem.plain : ReplacementItem → List Char
  | .char c => [c]
  | .dollar => ['$', '$']
  | .bare name => '$' :: plainCapture name
  | .braced name => '$' :: plainCapture name

/-- The regex has the capture. -/
def CaptureExists (regex : Regex) (name : List Char) : Prop :=
  if name.all Char.isDigit then decimalValue name ≤ usizeMax ∧ decimalValue name < regex.capturesLen
  else some (String.ofList name) ∈ regex.captureNames

/-- The items generate the source. -/
inductive Generates (regex : Regex) : List Char → List ReplacementItem → Prop
  | nil : Generates regex [] []
  | char {c : Char} {cs : List Char} {items : List ReplacementItem} (hc : c ≠ '$')
      (h : Generates regex cs items) : Generates regex (c :: cs) (.char c :: items)
  | dollar {cs : List Char} {items : List ReplacementItem} (h : Generates regex cs items) :
      Generates regex ('$' :: '$' :: cs) (.dollar :: items)
  | bare {name cs : List Char} {items : List ReplacementItem} (hname : name ≠ [])
      (hchars : ∀ c ∈ name, isCaptureCharacter c = true)
      (hlongest : ∀ c ∈ cs.head?, isCaptureCharacter c = false) (hcapture : CaptureExists regex name)
      (h : Generates regex cs items) : Generates regex ('$' :: (name ++ cs)) (.bare name :: items)
  | braced {name cs : List Char} {items : List ReplacementItem} (hname : name ≠ [])
      (hchars : '}' ∉ name) (hcapture : CaptureExists regex name) (h : Generates regex cs items) :
      Generates regex ('$' :: '{' :: (name ++ '}' :: cs)) (.braced name :: items)

theorem Generates.source {cs : List Char} {items : List ReplacementItem} (h : Generates regex cs items) :
    items.flatMap ReplacementItem.source = cs := by
  induction h with
  | nil => rfl
  | char _ _ ih => simp [ReplacementItem.source, ih]
  | dollar _ ih => simp [ReplacementItem.source, ih]
  | bare _ _ _ _ _ ih => simp [ReplacementItem.source, ih]
  | braced _ _ _ _ ih => simp [ReplacementItem.source, ih]

/-! ## Tokens -/

/-- The token of a capture that exists. -/
def captureOf (name : List Char) : ReplacementToken :=
  if name.all Char.isDigit then .captureIndex (decimalValue name) else .captureName (String.ofList name)

/-- The tokens of the items, after other tokens and the characters of an open literal. -/
def itemTokensFrom (tokens : List ReplacementToken) (literal : List Char) :
    List ReplacementItem → List ReplacementToken
  | [] => flushLiteral tokens literal
  | .char c :: items => itemTokensFrom tokens (literal ++ [c]) items
  | .dollar :: items =>
    itemTokensFrom (flushLiteral tokens literal ++ [ReplacementToken.literal "$"]) [] items
  | .bare name :: items => itemTokensFrom (flushLiteral tokens literal ++ [captureOf name]) [] items
  | .braced name :: items => itemTokensFrom (flushLiteral tokens literal ++ [captureOf name]) [] items

/-- The tokens of the items: neighbouring characters are one literal. -/
def itemTokens (items : List ReplacementItem) : List ReplacementToken := itemTokensFrom [] [] items

theorem parseUsize_eq_some {digits : List Char} {index : Nat} :
    parseUsize digits = some index ↔ decimalValue digits ≤ usizeMax ∧ decimalValue digits = index := by
  change (if decimalValue digits ≤ usizeMax then some (decimalValue digits) else none) = some index ↔ _
  split <;> simp_all

theorem captureToken_eq_ok {name : List Char} {token : ReplacementToken} :
    captureToken regex name = .ok token ↔ CaptureExists regex name ∧ token = captureOf name := by
  unfold captureToken CaptureExists captureOf
  by_cases hdigits : name.all Char.isDigit = true
  · simp only [hdigits, if_true, bind_eq_ok, okOr_eq_ok, parseUsize_eq_some]
    constructor
    · rintro ⟨index, ⟨hmax, rfl⟩, ⟨⟩, hreject, htoken⟩
      rw [rejectIf_eq_ok, ge_iff_le, not_le] at hreject
      exact ⟨⟨hmax, hreject⟩, (pure_eq_ok.1 htoken).symm⟩
    · rintro ⟨⟨hmax, hlen⟩, rfl⟩
      refine ⟨_, ⟨hmax, rfl⟩, (), ?_, rfl⟩
      rw [rejectIf_eq_ok, ge_iff_le, not_le]
      exact hlen
  · simp only [hdigits, if_false, Bool.false_eq_true, seq_eq_ok, rejectIf_eq_ok, not_not]
    constructor
    · rintro ⟨hname, htoken⟩
      exact ⟨hname, (pure_eq_ok.1 htoken).symm⟩
    · rintro ⟨hname, rfl⟩
      exact ⟨hname, rfl⟩

theorem takeWhile_name {name cs : List Char} (hchars : ∀ c ∈ name, isCaptureCharacter c = true)
    (hlongest : ∀ c ∈ cs.head?, isCaptureCharacter c = false) :
    (name ++ cs).takeWhile isCaptureCharacter = name ∧ (name ++ cs).dropWhile isCaptureCharacter = cs := by
  rw [List.takeWhile_append_of_pos hchars, List.dropWhile_append_of_pos hchars]
  cases cs with
  | nil => simp
  | cons c cs => simp [hlongest c (by simp)]

theorem takeWhile_braced {name : List Char} (cs : List Char) (hchars : '}' ∉ name) :
    (name ++ '}' :: cs).takeWhile (· ≠ '}') = name ∧
      ((name ++ '}' :: cs).dropWhile (· ≠ '}')).drop 1 = cs := by
  have hname : ∀ c ∈ name, decide (c ≠ '}') = true := by
    intro c hc
    simpa using ne_of_mem_of_not_mem hc hchars
  rw [List.takeWhile_append_of_pos hname, List.dropWhile_append_of_pos hname]
  simp

theorem eq_takeWhile_braced {cs : List Char} (hclosed : '}' ∈ cs) :
    cs = cs.takeWhile (· ≠ '}') ++ '}' :: ((cs.dropWhile (· ≠ '}')).drop 1) := by
  induction cs with
  | nil => cases hclosed
  | cons c cs ih =>
    by_cases hc : c = '}'
    · simp [hc]
    · have hrest := ih ((List.mem_cons.1 hclosed).resolve_left (Ne.symm hc))
      rw [List.takeWhile_cons_of_pos (by simpa using hc), List.dropWhile_cons_of_pos (by simpa using hc),
        List.cons_append, ← hrest]

theorem head?_dropWhile_capture (cs : List Char) :
    ∀ c ∈ (cs.dropWhile isCaptureCharacter).head?, isCaptureCharacter c = false := by
  intro c hc
  have hnot := List.head?_dropWhile_not isCaptureCharacter cs
  rw [Option.mem_def.1 hc] at hnot
  simpa using hnot

theorem isCaptureCharacter_dollar : isCaptureCharacter '$' = false := by decide

theorem isCaptureCharacter_brace : isCaptureCharacter '{' = false := by decide

section Inversion

variable {c d : Char} {cs : List Char} {items : List ReplacementItem}

theorem generates_nil : Generates regex [] items ↔ items = [] := by
  constructor
  · intro h
    cases h
    rfl
  · rintro rfl
    exact .nil

theorem generates_char (hc : c ≠ '$') :
    Generates regex (c :: cs) items ↔ ∃ rest, Generates regex cs rest ∧ items = .char c :: rest := by
  constructor
  · intro h
    generalize hsource : c :: cs = source at h
    cases h with
    | nil => cases hsource
    | char _ h =>
      cases hsource
      exact ⟨_, h, rfl⟩
    | dollar | bare | braced => exact absurd (List.cons.inj hsource).1 hc
  · rintro ⟨rest, h, rfl⟩
    exact .char hc h

theorem not_generates_dollar : ¬ Generates regex ['$'] items := by
  intro h
  generalize hsource : ['$'] = source at h
  cases h with
  | nil => cases hsource
  | char hc _ => exact hc (List.cons.inj hsource).1.symm
  | dollar | braced => cases (List.cons.inj hsource).2
  | bare hname => exact hname (List.append_eq_nil_iff.1 (List.cons.inj hsource).2.symm).1

theorem generates_dollar :
    Generates regex ('$' :: '$' :: cs) items ↔ ∃ rest, Generates regex cs rest ∧ items = .dollar :: rest := by
  constructor
  · intro h
    generalize hsource : '$' :: '$' :: cs = source at h
    cases h with
    | nil => cases hsource
    | char hc _ => exact absurd (List.cons.inj hsource).1.symm hc
    | dollar h =>
      cases hsource
      exact ⟨_, h, rfl⟩
    | braced => cases (List.cons.inj hsource).2
    | @bare name after _ hname hchars =>
      -- A name does not begin with a dollar sign.
      obtain ⟨first, name, rfl⟩ := List.exists_cons_of_ne_nil hname
      have hfirst := hchars first List.mem_cons_self
      rw [← (List.cons.inj (List.cons.inj hsource).2).1, isCaptureCharacter_dollar] at hfirst
      cases hfirst
  · rintro ⟨rest, h, rfl⟩
    exact .dollar h

theorem generates_braced :
    Generates regex ('$' :: '{' :: cs) items ↔ ∃ name after rest, cs = name ++ '}' :: after ∧ name ≠ [] ∧
      '}' ∉ name ∧ CaptureExists regex name ∧ Generates regex after rest ∧ items = .braced name :: rest := by
  constructor
  · intro h
    generalize hsource : '$' :: '{' :: cs = source at h
    cases h with
    | nil => cases hsource
    | char hc _ => exact absurd (List.cons.inj hsource).1.symm hc
    | dollar => cases (List.cons.inj hsource).2
    | braced hname hchars hcapture h =>
      cases hsource
      exact ⟨_, _, _, rfl, hname, hchars, hcapture, h, rfl⟩
    | @bare name after _ hname hchars =>
      obtain ⟨first, name, rfl⟩ := List.exists_cons_of_ne_nil hname
      have hfirst := hchars first List.mem_cons_self
      rw [← (List.cons.inj (List.cons.inj hsource).2).1, isCaptureCharacter_brace] at hfirst
      cases hfirst
  · rintro ⟨name, after, rest, rfl, hname, hchars, hcapture, h, rfl⟩
    exact .braced hname hchars hcapture h

theorem generates_bare (hdollar : d ≠ '$') (hbrace : d ≠ '{') :
    Generates regex ('$' :: d :: cs) items ↔ ∃ name after rest, d :: cs = name ++ after ∧ name ≠ [] ∧
      (∀ c ∈ name, isCaptureCharacter c = true) ∧ (∀ c ∈ after.head?, isCaptureCharacter c = false) ∧
      CaptureExists regex name ∧ Generates regex after rest ∧ items = .bare name :: rest := by
  constructor
  · intro h
    generalize hsource : '$' :: d :: cs = source at h
    cases h with
    | nil => cases hsource
    | char hc _ => exact absurd (List.cons.inj hsource).1.symm hc
    | dollar => exact absurd (List.cons.inj (List.cons.inj hsource).2).1 hdollar
    | braced => exact absurd (List.cons.inj (List.cons.inj hsource).2).1 hbrace
    | bare hname hchars hlongest hcapture h =>
      exact ⟨_, _, _, (List.cons.inj hsource).2, hname, hchars, hlongest, hcapture, h, rfl⟩
  · rintro ⟨name, after, rest, hsource, hname, hchars, hlongest, hcapture, h, rfl⟩
    rw [hsource]
    exact .bare hname hchars hlongest hcapture h

end Inversion

section Rounds

variable {fuel : Nat} {tokens : List ReplacementToken} {literal cs : List Char} {c d : Char}

theorem parseReplacementFrom_char (hc : c ≠ '$') :
    parseReplacementFrom regex (fuel + 1) tokens literal (c :: cs) =
      parseReplacementFrom regex fuel tokens (literal ++ [c]) cs := by
  rw [parseReplacementFrom]
  exact hc

theorem parseReplacementFrom_bare (hdollar : d ≠ '$') (hbrace : d ≠ '{') :
    parseReplacementFrom regex (fuel + 1) tokens literal ('$' :: d :: cs) = (do
      rejectIf ((d :: cs).takeWhile isCaptureCharacter).isEmpty ⟨.invalidReplacement,
        "replacement `$` must be followed by `$`, a capture number, or a capture name"⟩
      let token ← captureToken regex ((d :: cs).takeWhile isCaptureCharacter)
      parseReplacementFrom regex fuel (flushLiteral tokens literal ++ [token]) []
        ((d :: cs).dropWhile isCaptureCharacter)) := by
  rw [parseReplacementFrom]
  · simp
  · exact fun _ h => hdollar (List.cons.inj h).1
  · exact fun _ h => hbrace (List.cons.inj h).1

end Rounds

/-- **The parser accepts the grammar.** By induction on the fuel, one case for each beginning of the rest
of the source. -/
theorem parseReplacementFrom_eq_ok {fuel : Nat} {tokens result : List ReplacementToken}
    {literal cs : List Char} (hfuel : cs.length ≤ fuel) :
    parseReplacementFrom regex fuel tokens literal cs = .ok result ↔
      ∃ items, Generates regex cs items ∧ result = itemTokensFrom tokens literal items := by
  induction fuel generalizing tokens literal cs with
  | zero =>
    obtain rfl := List.length_eq_zero_iff.1 (Nat.le_zero.1 hfuel)
    simp [parseReplacementFrom, generates_nil, itemTokensFrom, eq_comm]
  | succ fuel ih =>
    cases cs with
    | nil => simp [parseReplacementFrom, generates_nil, itemTokensFrom, eq_comm]
    | cons c cs =>
      by_cases hc : c = '$'
      · subst hc
        cases cs with
        | nil => simp [parseReplacementFrom, not_generates_dollar]
        | cons d cs =>
          have hlength : cs.length < fuel := by simp at hfuel; omega
          by_cases hdollar : d = '$'
          · subst hdollar
            rw [parseReplacementFrom, ih (by omega)]
            simp only [generates_dollar]
            constructor
            · rintro ⟨items, h, rfl⟩
              exact ⟨_, ⟨items, h, rfl⟩, rfl⟩
            · rintro ⟨_, ⟨items, h, rfl⟩, rfl⟩
              exact ⟨items, h, rfl⟩
          · by_cases hbrace : d = '{'
            · subst hbrace
              rw [parseReplacementFrom, seq_eq_ok, seq_eq_ok, bind_eq_ok, rejectIf_eq_ok, rejectIf_eq_ok,
                not_not]
              simp only [generates_braced, captureToken_eq_ok]
              constructor
              · rintro ⟨hclosed, hname, token, ⟨hcapture, rfl⟩, h⟩
                have hsource := eq_takeWhile_braced hclosed
                have hchars : '}' ∉ cs.takeWhile (· ≠ '}') :=
                  fun hmem => by simpa using List.mem_takeWhile_imp hmem
                have hdrop : ((cs.dropWhile (· ≠ '}')).drop 1).length ≤ fuel := by
                  have := List.length_dropWhile_le (· ≠ '}') cs
                  rw [List.length_drop]
                  omega
                rw [ih hdrop] at h
                obtain ⟨items, hitems, rfl⟩ := h
                exact ⟨_, ⟨_, _, items, hsource, by simpa using hname, hchars, hcapture, hitems, rfl⟩, rfl⟩
              · rintro ⟨_, ⟨name, after, rest, rfl, hname, hchars, hcapture, h, rfl⟩, rfl⟩
                obtain ⟨htake, hdrop⟩ := takeWhile_braced after hchars
                rw [htake, hdrop]
                refine ⟨by simp, by simpa using hname, _, ⟨hcapture, rfl⟩, ?_⟩
                exact (ih (by simp at hlength; omega)).2 ⟨rest, h, rfl⟩
            · rw [parseReplacementFrom_bare hdollar hbrace, seq_eq_ok, bind_eq_ok, rejectIf_eq_ok]
              simp only [generates_bare hdollar hbrace, captureToken_eq_ok]
              constructor
              · rintro ⟨hname, token, ⟨hcapture, rfl⟩, h⟩
                have hsplit := List.takeWhile_append_dropWhile (p := isCaptureCharacter) (l := d :: cs)
                have htake : ((d :: cs).takeWhile isCaptureCharacter).length ≠ 0 := by
                  simpa using hname
                have hdrop : ((d :: cs).dropWhile isCaptureCharacter).length ≤ fuel := by
                  have := congrArg List.length hsplit
                  rw [List.length_append, List.length_cons] at this
                  omega
                rw [ih hdrop] at h
                obtain ⟨items, hitems, rfl⟩ := h
                exact ⟨_, ⟨_, _, items, hsplit.symm, by simpa using hname,
                  fun c hmem => List.mem_takeWhile_imp hmem, head?_dropWhile_capture _, hcapture, hitems,
                  rfl⟩, rfl⟩
              · rintro ⟨_, ⟨name, after, rest, hsource, hname, hchars, hlongest, hcapture, h, rfl⟩, rfl⟩
                obtain ⟨htake, hdrop⟩ := takeWhile_name hchars hlongest
                rw [hsource, htake, hdrop]
                refine ⟨by simpa using hname, _, ⟨hcapture, rfl⟩, ?_⟩
                have hafter : after.length ≤ fuel := by
                  have := congrArg List.length hsource
                  have := List.length_pos_iff.2 hname
                  rw [List.length_append, List.length_cons] at *
                  omega
                exact (ih hafter).2 ⟨rest, h, rfl⟩
      · rw [parseReplacementFrom_char hc, ih (by simpa using hfuel)]
        simp only [generates_char hc]
        constructor
        · rintro ⟨items, h, rfl⟩
          exact ⟨_, ⟨items, h, rfl⟩, rfl⟩
        · rintro ⟨_, ⟨items, h, rfl⟩, rfl⟩
          exact ⟨items, h, rfl⟩

/-! ## Printing -/

/-- A token as a replacement. -/
def printToken : ReplacementToken → List Char
  | .literal value => value.toList.flatMap fun c => if c = '$' then ['$', '$'] else [c]
  | .captureIndex index => '$' :: Nat.toDigits 10 index
  | .captureName name => '$' :: name.toList

def printTokens (tokens : List ReplacementToken) : List Char := tokens.flatMap printToken

theorem printToken_captureOf (name : List Char) : printToken (captureOf name) = '$' :: plainCapture name := by
  unfold captureOf plainCapture
  split
  · rename_i hdigits
    rw [printToken, toDigits_decimalValue (List.all_eq_true.1 hdigits)]
  · rw [printToken, String.toList_ofList]

theorem printTokens_flushLiteral {tokens : List ReplacementToken} {literal : List Char}
    (hliteral : '$' ∉ literal) :
    printTokens (flushLiteral tokens literal) = printTokens tokens ++ literal := by
  have hplain : literal.flatMap (fun c => if c = '$' then ['$', '$'] else [c]) = literal := by
    induction literal with
    | nil => rfl
    | cons c literal ih =>
      obtain ⟨hc, hliteral⟩ := not_or.1 (mt List.mem_cons.2 hliteral)
      rw [List.flatMap_cons, if_neg (Ne.symm hc), ih hliteral]
      rfl
  unfold flushLiteral
  split
  · rename_i hempty
    rw [List.isEmpty_iff.1 hempty, List.append_nil]
  · simp [printTokens, printToken, hplain]

/-- **The tokens print back**, without braces and leading zeros. -/
theorem printTokens_itemTokensFrom {cs literal : List Char} {items : List ReplacementItem}
    {tokens : List ReplacementToken} (h : Generates regex cs items) (hliteral : '$' ∉ literal) :
    printTokens (itemTokensFrom tokens literal items) =
      printTokens tokens ++ literal ++ items.flatMap ReplacementItem.plain := by
  have happend : ∀ (tokens : List ReplacementToken) (token : ReplacementToken),
      printTokens (tokens ++ [token]) = printTokens tokens ++ printToken token := by
    intro tokens token
    simp [printTokens]
  induction h generalizing literal tokens with
  | nil => simp [itemTokensFrom, printTokens_flushLiteral hliteral]
  | char hc _ ih =>
    rw [itemTokensFrom, ih (by simp [hliteral, Ne.symm hc])]
    simp [ReplacementItem.plain]
  | dollar _ ih =>
    rw [itemTokensFrom, ih (by simp), happend, printTokens_flushLiteral hliteral]
    simp [ReplacementItem.plain, printToken]
  | bare _ _ _ _ _ ih =>
    rw [itemTokensFrom, ih (by simp), happend, printTokens_flushLiteral hliteral, printToken_captureOf]
    simp [ReplacementItem.plain]
  | braced _ _ _ _ ih =>
    rw [itemTokensFrom, ih (by simp), happend, printTokens_flushLiteral hliteral, printToken_captureOf]
    simp [ReplacementItem.plain]

/-! ## The replacement `$0` -/

section Identity

variable {input : String} {maxReplacements : UInt32} {maxOutputChars : Nat}

theorem parseReplacement_zero {tokens : List ReplacementToken}
    (h : parseReplacement "$0" regex = .ok tokens) : tokens = [.captureIndex 0] := by
  obtain ⟨items, hitems, rfl⟩ := (parseReplacementFrom_eq_ok (by decide)).1 h
  obtain ⟨name, after, rest, hsource, hname, -, -, -, hrest, rfl⟩ :=
    (generates_bare (by decide) (by decide)).1 hitems
  obtain ⟨first, name, rfl⟩ := List.exists_cons_of_ne_nil hname
  obtain ⟨rfl, hnil⟩ := List.cons.inj hsource
  obtain ⟨rfl, rfl⟩ := List.append_eq_nil_iff.1 hnil.symm
  obtain rfl := generates_nil.1 hrest
  rfl

/-- The output is the input up to the end of the last match. -/
structure CopiedUpTo (input : String) (text : BoundedText) (stop : Nat) : Prop where
  copied : ∃ after, input.toList = text.output.toList ++ after
  stop : utf8Len text.output.toList = stop
  count : text.outputChars = text.output.length

/-- Pushing the next piece of the input copies it. -/
theorem CopiedUpTo.push {text : BoundedText} {start stop : Nat} (htext : CopiedUpTo input text start)
    (hstop : IsBoundary input stop) (hle : start ≤ stop) (hmax : maxOutputChars ≤ usizeMax)
    (hfits : input.length ≤ maxOutputChars) :
    ∃ piece text', sliceBytes input start stop = some piece ∧
      pushBounded maxOutputChars text piece = .ok text' ∧ CopiedUpTo input text' stop := by
  obtain ⟨⟨after, hafter⟩, rfl, hcount⟩ := htext
  obtain ⟨middle, rest, hslice, rfl, hlen⟩ := sliceBytes_split hafter hstop hle
  have hlength : text.output.length + middle.length ≤ input.length := by
    have := congrArg List.length hafter
    simp only [List.length_append, String.length_toList] at this
    omega
  refine ⟨String.ofList middle, ⟨text.output ++ String.ofList middle, text.outputChars + middle.length⟩,
    hslice, ?_, ?_⟩
  · unfold pushBounded
    rw [String.length_ofList, checkedAdd_eq_some.2 ⟨by omega, rfl⟩, hcount]
    exact seq_eq_ok.2 ⟨rejectIf_eq_ok.2 (by omega), rfl⟩
  · refine ⟨⟨rest, ?_⟩, ?_, ?_⟩
    · rw [String.toList_append, String.toList_ofList, List.append_assoc, hafter]
    · rw [String.toList_append, String.toList_ofList, hlen]
    · rw [String.length_append, String.length_ofList, hcount]

/-- Every match is put back. -/
theorem replaceMatches_identity (hmax : maxOutputChars ≤ usizeMax) (hfits : input.length ≤ maxOutputChars) :
    ∀ {matched : List Captures} {state : ReplaceState},
    (∀ captures ∈ matched, ∀ index span, captures.get index = some span →
      IsBoundary input span.start ∧ IsBoundary input span.stop ∧ span.start ≤ span.stop) →
    (matched.Pairwise fun captures later => ∀ span next, captures.get 0 = some span →
      later.get 0 = some next → span.stop ≤ next.start) →
    CopiedUpTo input state.text state.lastEnd →
    (∀ captures ∈ matched, ∀ span, captures.get 0 = some span → state.lastEnd ≤ span.start) →
    ∃ r, replaceMatches regex [ReplacementToken.captureIndex 0] input maxReplacements maxOutputChars matched
      state = .ok r ∧ CopiedUpTo input r.text r.lastEnd
  | [], state, _, _, hstate, _ => ⟨state, rfl, hstate⟩
  | captures :: rest, state, hspans, hordered, hstate, hafter => by
    obtain ⟨hfirst, hordered⟩ := List.pairwise_cons.1 hordered
    have hspans' := fun c hc => hspans c (List.mem_cons_of_mem _ hc)
    rw [replaceMatches]
    split
    · exact ⟨state, rfl, hstate⟩
    · cases hwhole : captures.get 0 with
      | none =>
        exact replaceMatches_identity hmax hfits hspans' hordered hstate fun c hc =>
          hafter c (List.mem_cons_of_mem _ hc)
      | some span =>
        obtain ⟨hstart, hstop, hle⟩ := hspans captures (by simp) 0 span hwhole
        -- The text before the match, then the match itself.
        obtain ⟨between, text, hbetween, hpush, htext⟩ :=
          hstate.push hstart (hafter captures (by simp) span hwhole) hmax hfits
        obtain ⟨whole, text', hslice, hpush', htext'⟩ := htext.push hstop hle hmax hfits
        have hexpand : expandReplacement regex input captures [ReplacementToken.captureIndex 0]
            maxOutputChars text = .ok text' := by
          rw [expandReplacement, List.foldlM_cons, expandToken, hwhole, pushCapture, hslice]
          exact bind_eq_ok.2 ⟨text', hpush', rfl⟩
        obtain ⟨r, hr, hcopied⟩ : ∃ r, replaceMatches regex [ReplacementToken.captureIndex 0] input
            maxReplacements maxOutputChars rest ⟨text', span.stop, satAdd state.replacements 1⟩ = .ok r ∧
              CopiedUpTo input r.text r.lastEnd :=
          replaceMatches_identity hmax hfits hspans' hordered htext' fun c hc next hnext =>
            hfirst c hc span next hwhole hnext
        exact ⟨r, bind_eq_ok.2 ⟨between, okOr_eq_ok.2 hbetween, bind_eq_ok.2 ⟨text, hpush,
          bind_eq_ok.2 ⟨text', hexpand, hr⟩⟩⟩, hcopied⟩

/-- **The replacement `$0` returns the input.** -/
theorem replaceBounded_identity (h : regex.OrderedMatches) {tokens : List ReplacementToken}
    (htokens : parseReplacement "$0" regex = .ok tokens) (hmax : maxOutputChars ≤ usizeMax)
    (hfits : input.length ≤ maxOutputChars) :
    ∃ replacements, replaceBounded regex tokens input maxReplacements maxOutputChars =
      .ok (input, replacements) := by
  obtain rfl := parseReplacement_zero htokens
  obtain ⟨state, hstate, ⟨after, hafter⟩, hstop, hcount⟩ : ∃ state, replaceMatches regex
      [ReplacementToken.captureIndex 0] input maxReplacements maxOutputChars (regex.capturesIter input)
        ⟨⟨"", 0⟩, 0, 0⟩ = .ok state ∧ CopiedUpTo input state.text state.lastEnd :=
    replaceMatches_identity hmax hfits (h.spans input) (h.ordered input) ⟨⟨input.toList, rfl⟩, rfl, rfl⟩
      fun _ _ _ _ => Nat.zero_le _
  have hlength := congrArg List.length hafter
  simp only [List.length_append, String.length_toList] at hlength
  have htail : sliceBytesFrom input state.lastEnd = some (String.ofList after) := by
    rw [← hstop]
    exact sliceBytesFrom_append hafter
  have hpush : pushBounded maxOutputChars state.text (String.ofList after) =
      .ok ⟨state.text.output ++ String.ofList after, state.text.outputChars + after.length⟩ := by
    unfold pushBounded
    rw [String.length_ofList, checkedAdd_eq_some.2 ⟨by omega, rfl⟩, hcount]
    exact seq_eq_ok.2 ⟨rejectIf_eq_ok.2 (by omega), rfl⟩
  have hinput : state.text.output ++ String.ofList after = input := by
    rw [← String.toList_inj, String.toList_append, String.toList_ofList, hafter]
  refine ⟨state.replacements, ?_⟩
  unfold replaceBounded
  rw [hstate]
  refine bind_eq_ok.2 ⟨state, rfl, ?_⟩
  rw [htail]
  refine bind_eq_ok.2 ⟨String.ofList after, rfl, bind_eq_ok.2 ⟨_, hpush, ?_⟩⟩
  rw [hinput]
  rfl

end Identity

/-! ## Replacement templates -/

/-- **Replacement templates**: what is accepted, what the tokens print, and the replacement `$0`. -/
theorem parseReplacement_spec (source : String) (regex : Regex) :
    (∀ tokens, parseReplacement source regex = .ok tokens ↔
      ∃ items, Generates regex source.toList items ∧ tokens = itemTokens items) ∧
    (∀ items, Generates regex source.toList items →
      items.flatMap ReplacementItem.source = source.toList ∧
        printTokens (itemTokens items) = items.flatMap ReplacementItem.plain) ∧
    (regex.OrderedMatches → ∀ (tokens : List ReplacementToken) (input : String) (maxReplacements : UInt32)
      (maxOutputChars : Nat), parseReplacement "$0" regex = .ok tokens → maxOutputChars ≤ usizeMax →
      input.length ≤ maxOutputChars →
      ∃ replacements, replaceBounded regex tokens input maxReplacements maxOutputChars =
        .ok (input, replacements)) := by
  refine ⟨fun tokens => ?_, fun items h => ⟨h.source, ?_⟩, fun hordered _ _ _ _ => ?_⟩
  · unfold parseReplacement
    exact parseReplacementFrom_eq_ok (String.length_toList ▸ le_refl _)
  · rw [itemTokens, printTokens_itemTokensFrom h (by simp)]
    rfl
  · exact replaceBounded_identity hordered

/-- A regex with a group that matches once at the start. -/
def startRegex : Regex := ⟨[none, none], fun _ => [[some ⟨0, 0⟩, none]]⟩

theorem startRegex_ordered : startRegex.OrderedMatches := by
  refine ⟨fun text captures hmem index span hspan => ?_, fun text => List.pairwise_singleton _ _⟩
  rw [List.mem_singleton.1 hmem] at hspan
  match index, hspan with
  | 0, hspan =>
    cases hspan
    exact ⟨isBoundary_zero text, isBoundary_zero text, Nat.le_refl 0⟩
  | 1, hspan => cases hspan
  | index + 2, hspan => simp [Captures.get] at hspan

/-- The whole match is put back at the start of a text. -/
theorem parseReplacement_spec_start : ∃ replacements,
    replaceBounded startRegex [ReplacementToken.captureIndex 0] "Harbor" 100 1024 =
      .ok ("Harbor", replacements) :=
  (parseReplacement_spec "$0" startRegex).2.2 startRegex_ordered _ _ _ _ rfl (by decide) (by decide)

/-- A capture number keeps no leading zeros, so its token does not print back to the source. -/
theorem parseReplacement_drops_zeros :
    parseReplacement "$01" startRegex = .ok [ReplacementToken.captureIndex 1] ∧
      printTokens [ReplacementToken.captureIndex 1] ≠ "$01".toList := by
  refine ⟨rfl, by decide⟩

end LorePia
