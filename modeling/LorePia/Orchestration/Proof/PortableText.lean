import LorePia.Orchestration.PortableText

/-!
# Portable text is cut between characters

A scan finds pairs of braces, which are ASCII, so every offset that it gives is a character boundary, and the
offsets of a token or a block are in order (`Cut`). So no pass of a rendering panics, and each keeps the text
the source or within the limit (`Bounded`): `renderPortableText_safe`. The fuels of the model suffice
(`flatTokens_total`, `evaluateWhenFrom_total`).
-/

namespace LorePia

namespace PortableText

open Base

/-! ## Cuts -/

/-- Two character boundaries of a text in order. -/
structure Cut (text : String) (start stop : Nat) : Prop where
  first : IsBoundary text start
  last : IsBoundary text stop
  le : start ≤ stop

/-- The source, or a text within the limit. -/
def Bounded (source output : String) : Prop := output = source ∨ output.length ≤ maxRenderChars

theorem Cut.slice {text : String} {start stop : Nat} (h : Cut text start stop) :
    ∃ slice, sliceBytes text start stop = some slice :=
  sliceBytes_of_boundary h.first h.last h.le

/-- A cut is replaced without a panic, and within the limit if the check lets it. -/
theorem Cut.replace {text : String} {start stop : Nat} (h : Cut text start stop) (value : String) :
    ∃ exceeds output, replacementWouldExceed text start stop value = some exceeds ∧
      replaceRange text start stop value = some output ∧ (exceeds = false → output.length ≤ maxRenderChars) := by
  obtain ⟨before, after, hbefore, hafter, hreplace⟩ := replaceRange_of_boundary h.first h.last h.le value
  refine ⟨decide (before.length + value.length + after.length > maxRenderChars), _, ?_, hreplace, ?_⟩
  · simp only [replacementWouldExceed, hbefore, hafter, Option.bind_eq_bind, Option.bind_some]
    rfl
  · intro hfits
    have hle : ¬ before.length + value.length + after.length > maxRenderChars := of_decide_eq_false hfits
    rw [String.length_append, String.length_append]
    omega

/-! ## Scans -/

/-- The bytes of a text from `cursor` on. -/
def ScanAt (text : String) (bytes : List UInt8) (cursor : Nat) : Prop :=
  ∃ before, utf8Bytes text = before ++ bytes ∧ before.length = cursor

theorem scanAt_zero (text : String) : ScanAt text (utf8Bytes text) 0 := ⟨[], rfl, rfl⟩

theorem scanAt_drop {text : String} {start : Nat} (h : start ≤ (utf8Bytes text).length) :
    ScanAt text ((utf8Bytes text).drop start) start :=
  ⟨(utf8Bytes text).take start, (List.take_append_drop ..).symm, List.length_take_of_le h⟩

theorem ScanAt.one {text : String} {b : UInt8} {rest : List UInt8} {cursor : Nat}
    (h : ScanAt text (b :: rest) cursor) : ScanAt text rest (cursor + 1) := by
  obtain ⟨before, hbytes, rfl⟩ := h
  refine ⟨before ++ [b], ?_, List.length_append⟩
  rw [hbytes, List.append_assoc]
  rfl

theorem ScanAt.two {text : String} {b c : UInt8} {rest : List UInt8} {cursor : Nat}
    (h : ScanAt text (b :: c :: rest) cursor) : ScanAt text rest (cursor + 2) := h.one.one

/-- Two braces among the bytes of a text. -/
theorem ScanAt.foundAt {text pattern : String} {b c : UInt8} {rest : List UInt8} {cursor : Nat}
    (h : ScanAt text (b :: c :: rest) cursor) (hpattern : utf8Bytes pattern = [b, c]) :
    FoundAt text pattern cursor (cursor + 2) := by
  obtain ⟨before, hbytes, rfl⟩ := h
  have hne : pattern ≠ "" := by
    rintro rfl
    cases hpattern
  have hsplit : utf8Bytes text = before ++ utf8Bytes pattern ++ rest := by
    rw [hbytes, hpattern, List.append_assoc]
    rfl
  obtain ⟨front, back, htext, rfl, -⟩ := exists_split_of_occurrence hne hsplit
  refine ⟨front, back, htext, rfl, ?_⟩
  rw [← length_utf8Bytes pattern, hpattern, length_utf8Bytes]
  rfl

theorem utf8Bytes_openBraces : utf8Bytes openBraces = [braceOpen, braceOpen] := by decide

theorem utf8Bytes_closeBraces : utf8Bytes closeBraces = [braceClose, braceClose] := by decide

/-! ## Tokens -/

/-- The stack of a scan that has come to `cursor`: opening braces in front of it. -/
def Opened (text : String) (cursor : Nat) (stack : List Nat) : Prop :=
  ∀ start ∈ stack, FoundAt text openBraces start (start + 2) ∧ start + 2 ≤ cursor

theorem Opened.mono {text : String} {cursor cursor' : Nat} {stack : List Nat}
    (h : Opened text cursor stack) (hle : cursor ≤ cursor') : Opened text cursor' stack := by
  intro start hmem
  obtain ⟨hoccurs, hbefore⟩ := h start hmem
  exact ⟨hoccurs, by omega⟩

/-- The token between braces from `start` on and braces at `cursor`. -/
theorem Opened.token {text : String} {cursor start : Nat} {stack : List Nat}
    (h : Opened text cursor (start :: stack)) (hclose : FoundAt text closeBraces cursor (cursor + 2)) :
    Cut text (start + 2) cursor ∧ Cut text start (cursor + 2) := by
  obtain ⟨hopen, hle⟩ := h start (List.mem_cons_self ..)
  exact ⟨⟨hopen.boundary_stop, hclose.boundary_start, hle⟩,
    ⟨hopen.boundary_start, hclose.boundary_stop, by omega⟩⟩

/-- The scan for a token gives a cut of the text. -/
theorem nextEvaluableTokenFrom_total {text : String} {bytes : List UInt8} {cursor : Nat} {stack : List Nat}
    (hscan : ScanAt text bytes cursor) (hstack : Opened text cursor stack) :
    ∃ next, nextEvaluableTokenFrom text bytes cursor stack = some next ∧
      ∀ start stop token, next = some (start, stop, token) → Cut text start stop := by
  induction bytes, cursor, stack using nextEvaluableTokenFrom.induct with
  | case1 b c rest cursor stack hopen ih =>
    rw [nextEvaluableTokenFrom.eq_def]
    simp only [if_pos hopen]
    refine ih hscan.two ?_
    intro start hmem
    rcases List.mem_cons.1 hmem with rfl | hmem
    · obtain ⟨rfl, rfl⟩ := hopen
      exact ⟨hscan.foundAt utf8Bytes_openBraces, Nat.le_refl _⟩
    · exact (hstack.mono (Nat.le_add_right _ _)) start hmem
  | case2 b c rest cursor hopen hclose ih =>
    rw [nextEvaluableTokenFrom, if_neg hopen, if_pos hclose]
    refine ih hscan.two ?_
    intro start hmem
    cases hmem
  | case3 b c rest cursor hopen hclose start stack ih =>
    rw [nextEvaluableTokenFrom, if_neg hopen, if_pos hclose]
    obtain ⟨rfl, rfl⟩ := hclose
    obtain ⟨hinner, houter⟩ := hstack.token (hscan.foundAt utf8Bytes_closeBraces)
    obtain ⟨token, htoken⟩ := hinner.slice
    simp only [htoken, Option.bind_eq_bind, Option.bind_some]
    split
    · refine ⟨_, rfl, ?_⟩
      intro start' stop' token' h
      cases h
      exact houter
    · refine ih hscan.two ?_
      intro start' hmem
      exact (hstack.mono (Nat.le_add_right _ _)) start' (List.mem_cons_of_mem _ hmem)
  | case4 b c rest cursor stack hopen hclose ih =>
    rw [nextEvaluableTokenFrom.eq_def]
    simp only [if_neg hopen, if_neg hclose]
    exact ih hscan.one (hstack.mono (Nat.le_succ _))
  | case5 bytes cursor stack hshort =>
    refine ⟨none, ?_, fun start stop token h => by cases h⟩
    unfold nextEvaluableTokenFrom
    split
    · exact absurd rfl (hshort _ _ _)
    · rfl

theorem nextEvaluableToken_total (text : String) : ∃ next, nextEvaluableToken text = some next ∧
    ∀ start stop token, next = some (start, stop, token) → Cut text start stop :=
  nextEvaluableTokenFrom_total (scanAt_zero text) fun _ hmem => by cases hmem

/-- The scan for the end of a nested token ends behind closing braces. -/
theorem nestedTokenEndFrom_spec {text : String} {bytes : List UInt8} {cursor depth stop : Nat}
    (hscan : ScanAt text bytes cursor) (h : nestedTokenEndFrom bytes cursor depth = some stop) :
    ∃ closing, stop = closing + 2 ∧ cursor ≤ closing ∧ FoundAt text closeBraces closing stop := by
  induction bytes, cursor, depth using nestedTokenEndFrom.induct with
  | case1 b c rest cursor depth hopen ih =>
    rw [nestedTokenEndFrom.eq_def] at h
    simp only [if_pos hopen, Option.bind_eq_bind, Option.bind_eq_some_iff] at h
    obtain ⟨depth', -, h⟩ := h
    obtain ⟨closing, hstop, hle, hoccurs⟩ := ih depth' hscan.two h
    exact ⟨closing, hstop, by omega, hoccurs⟩
  | case2 b c rest cursor hopen hclose =>
    rw [nestedTokenEndFrom, if_neg hopen, if_pos hclose] at h
    cases h
  | case3 b c rest cursor hopen hclose =>
    rw [nestedTokenEndFrom, if_neg hopen, if_pos hclose] at h
    obtain ⟨rfl, rfl⟩ := hclose
    cases h
    exact ⟨cursor, rfl, Nat.le_refl _, hscan.foundAt utf8Bytes_closeBraces⟩
  | case4 b c rest cursor hopen hclose depth ih =>
    rw [nestedTokenEndFrom, if_neg hopen, if_pos hclose] at h
    obtain ⟨closing, hstop, hle, hoccurs⟩ := ih hscan.two h
    exact ⟨closing, hstop, by omega, hoccurs⟩
  | case5 b c rest cursor depth hopen hclose ih =>
    rw [nestedTokenEndFrom.eq_def] at h
    simp only [if_neg hopen, if_neg hclose] at h
    obtain ⟨closing, hstop, hle, hoccurs⟩ := ih hscan.one h
    exact ⟨closing, hstop, by omega, hoccurs⟩
  | case6 bytes cursor depth hshort =>
    unfold nestedTokenEndFrom at h
    split at h
    · exact absurd rfl (hshort _ _ _)
    · cases h

/-- The braces of a nested token are apart. -/
theorem nestedTokenEnd_spec {text : String} {start stop : Nat} (h : nestedTokenEnd text start = some stop) :
    FoundAt text openBraces start (start + 2) ∧ FoundAt text closeBraces (stop - 2) stop ∧
      start + 2 ≤ stop - 2 := by
  unfold nestedTokenEnd at h
  split at h
  · rename_i hopen
    -- the first bytes are the opening braces
    obtain ⟨rest, hrest⟩ : ∃ rest, (utf8Bytes text).drop start = braceOpen :: braceOpen :: rest := by
      refine ⟨((utf8Bytes text).drop start).drop 2, ?_⟩
      conv_lhs => rw [← List.take_append_drop 2 ((utf8Bytes text).drop start)]
      rw [show ((utf8Bytes text).drop start).take 2 = [braceOpen, braceOpen] from hopen]
      rfl
    have hle : start ≤ (utf8Bytes text).length := by
      by_contra hlt
      rw [List.drop_eq_nil_of_le (by omega)] at hrest
      cases hrest
    have hscan := scanAt_drop hle
    rw [hrest] at h hscan
    rw [nestedTokenEndFrom.eq_def] at h
    simp only [and_self, if_true, Option.bind_eq_bind, Option.bind_eq_some_iff] at h
    obtain ⟨depth, -, h⟩ := h
    obtain ⟨closing, rfl, hclosing, hoccurs⟩ := nestedTokenEndFrom_spec hscan.two h
    exact ⟨hscan.foundAt utf8Bytes_openBraces, hoccurs, by omega⟩
  · cases h

/-! ## Values -/

section
variable (lib : Library)

theorem evaluateSumFrom_total {expression : String} : ∀ {cs before : List Char} {index : Nat},
    expression.toList = before ++ cs → String.utf8Len before = index →
    ∃ value, evaluateSumFrom expression cs index = some value
  | [], _, _, _, _ => ⟨expression, rfl⟩
  | c :: cs, before, index, hcs, hindex => by
    have htail : expression.toList = (before ++ [c]) ++ cs := by
      rw [hcs, List.append_assoc]
      rfl
    have hnext : String.utf8Len (before ++ [c]) = index + c.utf8Size := by
      rw [String.utf8Len_append, hindex]
      simp
    obtain ⟨value, hvalue⟩ := evaluateSumFrom_total htail hnext
    unfold evaluateSumFrom
    split
    · -- both parts of the sum are cut off at the sign
      subst hindex
      have hstart : IsBoundary expression (String.utf8Len before) := ⟨before, c :: cs, hcs, rfl⟩
      obtain ⟨left, hleft⟩ := sliceBytes_of_boundary (isBoundary_zero _) hstart (Nat.zero_le _)
      have hright : sliceBytesFrom (String.ofList (c :: cs)) c.utf8Size = some (String.ofList cs) := by
        have hsplit : (String.ofList (c :: cs)).toList = [c] ++ cs := String.toList_ofList
        simpa using sliceBytesFrom_append hsplit
      simp only [hleft, sliceBytesFrom_append hcs, hright, Option.bind_eq_bind, Option.bind_some]
      split
      · exact ⟨_, rfl⟩
      · exact ⟨value, hvalue⟩
    · exact ⟨value, hvalue⟩

theorem evaluateArithmetic_total (expression : String) :
    ∃ value, evaluateArithmetic lib expression = some value := by
  unfold evaluateArithmetic
  simp only
  split
  · exact ⟨_, rfl⟩
  · exact ⟨_, rfl⟩
  · rename_i c rest _ hcs
    have hfirst : String.utf8Len [c] = c.utf8Size := by simp
    exact evaluateSumFrom_total hcs hfirst

/-- The picked index is below the number of the arguments. -/
theorem pickValue_total (context : PromptResolutionContext) (source : String) (pass : Nat) (token : String)
    (args : List String) : ∃ value, pickValue lib context source pass token args = some value := by
  unfold pickValue
  split
  · exact ⟨_, rfl⟩
  · rename_i hne
    have hlt := Nat.mod_lt (deterministicNumber lib context.sessionSeed source token pass)
      (List.length_pos_iff.2 hne)
    exact ⟨_, List.getElem?_eq_getElem hlt⟩

/-- The character behind the mark of an expression starts at byte 1. -/
theorem expressionValue_total {token : String} (h : beginsWith token "? " = true) :
    ∃ value, expressionValue lib token = some value := by
  obtain ⟨rest, hrest⟩ := List.isPrefixOf_iff_prefix.1 h
  have hboundary : IsBoundary token 1 := ⟨['?'], ' ' :: rest, by rw [← hrest]; rfl, rfl⟩
  obtain ⟨expression, hexpression⟩ := sliceBytesFrom_of_boundary hboundary
  obtain ⟨value, hvalue⟩ := evaluateArithmetic_total lib (trim expression)
  refine ⟨value, ?_⟩
  rw [expressionValue, hexpression, Option.bind_eq_bind, Option.bind_some, hvalue]

theorem exists_map_some {α : Type} {x : Option α} (h : ∃ a, x = some a) : ∃ b, x.map some = some b := by
  obtain ⟨a, rfl⟩ := h
  exact ⟨some a, rfl⟩

theorem evaluateNamed_total (context : PromptResolutionContext) (source : String) (pass : Nat)
    (token name : String) (args : List String) :
    ∃ value, evaluateNamed lib context source pass token name args = some value := by
  unfold evaluateNamed
  split
  · exact ⟨_, rfl⟩
  · split
    · exact exists_map_some (pickValue_total lib context source pass token args)
    · split
      · exact exists_map_some (evaluateArithmetic_total lib _)
      · split
        · rename_i hmark
          exact exists_map_some (expressionValue_total lib hmark)
        · exact ⟨none, rfl⟩

theorem evaluateToken_total (token : String) (context : PromptResolutionContext) (source : String) (pass : Nat) :
    ∃ value, evaluateToken lib token context source pass = some value := by
  unfold evaluateToken
  simp only
  split
  · exact ⟨none, rfl⟩
  · exact evaluateNamed_total lib context source pass _ _ _

/-! ## Passes over tokens -/

theorem Bounded.of_replace {source output : String} {exceeds : Bool}
    (h : exceeds = false → output.length ≤ maxRenderChars) (hfits : ¬ exceeds = true) : Bounded source output :=
  Or.inr (h (by simpa using hfits))

theorem expandPass_total (source : String) (context : PromptResolutionContext) (pass : Nat) (output : String) :
    ∃ p, expandPass lib source context pass output = some p ∧ p.Keeps (Bounded source) (Bounded source) := by
  obtain ⟨next, hnext, hcut⟩ := nextEvaluableToken_total output
  unfold expandPass
  simp only [hnext, Option.bind_eq_bind, Option.bind_some]
  cases next with
  | none => exact ⟨LoopStep.leave, rfl, trivial⟩
  | some found =>
    obtain ⟨start, stop, token⟩ := found
    obtain ⟨value, hvalue⟩ := evaluateToken_total lib token context source pass
    simp only [hvalue, Option.bind_some]
    cases value with
    | none => exact ⟨LoopStep.leave, rfl, trivial⟩
    | some value =>
      obtain ⟨exceeds, output', hexceeds, hreplace, hle⟩ := (hcut start stop token rfl).replace value
      simp only [hexceeds, hreplace, Option.bind_some]
      split
      · exact ⟨_, rfl, Or.inl rfl⟩
      · rename_i hfits
        exact ⟨_, rfl, Bounded.of_replace hle hfits⟩

theorem expandTokens_total (source : String) (context : PromptResolutionContext) {output : String}
    (h : Bounded source output) :
    ∃ e, expandTokens lib source context output = some e ∧ e.Keeps (Bounded source) (Bounded source) :=
  runPasses_total (fun pass output _ => expandPass_total lib source context pass output) _ _ h

end

/-! ## Each blocks -/

theorem eachSpecification_total (token : String) : ∃ r, eachSpecification token = some r := by
  unfold eachSpecification
  split
  · exact ⟨none, rfl⟩
  · rename_i specification _
    simp only
    split
    · exact ⟨none, rfl⟩
    · split
      · exact ⟨none, rfl⟩
      · rename_i arrayStop hstop
        obtain ⟨hopen, hclose, hle⟩ := nestedTokenEnd_spec hstop
        obtain ⟨array, harray⟩ := (Cut.mk hopen.boundary_stop hclose.boundary_start hle).slice
        obtain ⟨tail, htail⟩ := sliceBytesFrom_of_boundary hclose.boundary_stop
        simp only [harray, htail, Option.bind_eq_bind, Option.bind_some]
        exact ⟨_, rfl⟩

theorem eachPass_total (source : String) (pass : Nat) (output : String) :
    ∃ p, eachPass source pass output = some p ∧ p.Keeps (Bounded source) (Bounded source) := by
  unfold eachPass
  split
  · exact ⟨LoopStep.leave, rfl, trivial⟩
  · rename_i start hstart
    split
    · exact ⟨LoopStep.leave, rfl, trivial⟩
    · rename_i openStop hopenStop
      obtain ⟨hopen, hopenClose, hle⟩ := nestedTokenEnd_spec hopenStop
      obtain ⟨front, rest, rfl, hfront, hrest⟩ := sliceBytesFrom_split hopenClose.boundary_stop
      simp only [hrest, Option.bind_eq_bind, Option.bind_some]
      split
      · exact ⟨LoopStep.leave, rfl, trivial⟩
      · rename_i relativeClose hclose
        have hblock := (find_spec (by decide) hclose).shift front
        rw [hfront] at hblock
        obtain ⟨token, htoken⟩ := (Cut.mk hopen.boundary_stop hopenClose.boundary_start hle).slice
        obtain ⟨specification, hspecification⟩ := eachSpecification_total (trim token)
        simp only [htoken, hspecification, Option.bind_some]
        cases specification with
        | none => exact ⟨LoopStep.leave, rfl, trivial⟩
        | some found =>
          obtain ⟨array, variableName⟩ := found
          obtain ⟨body, hbody⟩ :=
            (Cut.mk hopenClose.boundary_stop hblock.boundary_start (Nat.le_add_right _ _)).slice
          have hcut : Cut (front ++ rest) start (openStop + relativeClose + eachClose.utf8ByteSize) :=
            ⟨hopen.boundary_start, by rw [Nat.add_assoc]; exact hblock.boundary_stop, by omega⟩
          obtain ⟨exceeds, output', hexceeds, hreplace, hfit⟩ :=
            hcut.replace (eachReplacement array variableName body)
          simp only [hbody, hexceeds, hreplace, Option.bind_some]
          split
          · exact ⟨_, rfl, Or.inl rfl⟩
          · rename_i hfits
            exact ⟨_, rfl, Bounded.of_replace hfit hfits⟩

theorem bounded_endText {source : String} {e : LoopEnd String String}
    (h : e.Keeps (Bounded source) (Bounded source)) : Bounded source (endText e) := by
  cases e with
  | left output => exact h
  | spent output => exact h
  | result output => exact h

theorem renderEachBlocks_total (source : String) :
    ∃ output, renderEachBlocks source = some output ∧ Bounded source output := by
  obtain ⟨e, he, hkeeps⟩ := runPasses_total (I := Bounded source) (R := Bounded source)
    (fun pass output _ => eachPass_total source pass output) maxRenderPasses 0 (Or.inl rfl)
  exact ⟨endText e, by rw [renderEachBlocks, he]; rfl, bounded_endText hkeeps⟩

/-! ## Conditional blocks -/

/-- Tokens of a text from a byte offset on, one after the other. -/
inductive TokensFrom (text : String) : Nat → List (Nat × Nat × String) → Prop
  | nil {cursor : Nat} : TokensFrom text cursor []
  | cons {cursor start stop : Nat} {token : String} {rest : List (Nat × Nat × String)} :
    cursor ≤ start → Cut text start stop → TokensFrom text stop rest →
    TokensFrom text cursor ((start, stop, token) :: rest)

theorem TokensFrom.mono {text : String} {cursor cursor' : Nat} {tokens : List (Nat × Nat × String)}
    (h : TokensFrom text cursor' tokens) (hle : cursor ≤ cursor') : TokensFrom text cursor tokens := by
  cases h with
  | nil => exact TokensFrom.nil
  | cons hstart hcut hrest => exact TokensFrom.cons (hle.trans hstart) hcut hrest

/-- The loop goes on by four bytes at least. -/
theorem flatTokensFrom_total {text : String} : ∀ {fuel cursor : Nat}, IsBoundary text cursor →
    text.utf8ByteSize < cursor + fuel →
    ∃ tokens, flatTokensFrom text fuel cursor = some tokens ∧ TokensFrom text cursor tokens
  | 0, cursor, hcursor, hfuel => by
    have := hcursor.le
    omega
  | fuel + 1, cursor, hcursor, hfuel => by
    obtain ⟨front, rest, rfl, hfront, hrest⟩ := sliceBytesFrom_split hcursor
    rw [flatTokensFrom, hrest, Option.bind_eq_bind, Option.bind_some]
    split
    · exact ⟨[], rfl, TokensFrom.nil⟩
    · rename_i relativeStart hfind
      have hopen := (find_spec (by decide) hfind).shift front
      rw [hfront, ← Nat.add_assoc] at hopen
      have hopenSize : openBraces.utf8ByteSize = 2 := rfl
      rw [hopenSize] at hopen
      obtain ⟨front', content, heq, hfront', hcontent⟩ := sliceBytesFrom_split hopen.boundary_stop
      simp only [hcontent, Option.bind_some]
      split
      · exact ⟨[], rfl, TokensFrom.nil⟩
      · rename_i relativeEnd hfind'
        have hclose := (find_spec (by decide) hfind').shift front'
        have hcloseSize : closeBraces.utf8ByteSize = 2 := rfl
        rw [← heq, hfront', ← Nat.add_assoc, hcloseSize] at hclose
        obtain ⟨token, htoken⟩ :=
          (Cut.mk hopen.boundary_stop hclose.boundary_start (Nat.le_add_right _ _)).slice
        obtain ⟨tokens, htokens, hfrom⟩ := flatTokensFrom_total hclose.boundary_stop
          (show (front ++ rest).utf8ByteSize < cursor + relativeStart + 2 + relativeEnd + 2 + fuel by omega)
        simp only [htoken, htokens, Option.bind_some]
        refine ⟨_, rfl, ?_⟩
        split
        · exact hfrom.mono (by omega)
        · exact TokensFrom.cons (by omega) ⟨hopen.boundary_start, hclose.boundary_stop, by omega⟩ hfrom

theorem flatTokens_total (text : String) :
    ∃ tokens, flatTokens text = some tokens ∧ TokensFrom text 0 tokens :=
  flatTokensFrom_total (isBoundary_zero text) (by omega)

/-- An opening token that ends in front of `cursor`, as does the `:else` behind it. -/
structure OpenBlock.Before (text : String) (cursor : Nat) (block : OpenBlock) : Prop where
  token : Cut text block.start block.stop
  le : block.stop ≤ cursor
  marker : ∀ start stop, block.elseMarker = some (start, stop) →
    block.stop ≤ start ∧ Cut text start stop ∧ stop ≤ cursor

theorem OpenBlock.Before.mono {text : String} {cursor cursor' : Nat} {block : OpenBlock}
    (h : block.Before text cursor) (hle : cursor ≤ cursor') : block.Before text cursor' where
  token := h.token
  le := h.le.trans hle
  marker start stop hmarker := by
    obtain ⟨hstart, hcut, hstop⟩ := h.marker start stop hmarker
    exact ⟨hstart, hcut, hstop.trans hle⟩

/-- A block whose body and `:else` are in order. -/
structure BlockMatch.Cuts (text : String) (block : BlockMatch) : Prop where
  whole : Cut text block.start block.stop
  chosen : Cut text block.bodyStart (block.elseStart.getD block.bodyStop)
  other : ∀ stop, block.elseStop = some stop → Cut text stop block.bodyStop

theorem OpenBlock.Before.close {text : String} {start stop : Nat} {block : OpenBlock}
    (h : block.Before text start) (hcut : Cut text start stop) : (block.close start stop).Cuts text := by
  have hbefore := h.le
  have htoken := h.token.le
  have hclose := hcut.le
  refine ⟨⟨h.token.first, hcut.last, ?_⟩, ?_, ?_⟩
  · show block.start ≤ stop
    omega
  · show Cut text block.stop ((block.elseMarker.map (·.1)).getD start)
    cases hmarker : block.elseMarker with
    | none => exact ⟨h.token.last, hcut.first, hbefore⟩
    | some marker =>
      obtain ⟨hstart, hmark, -⟩ := h.marker marker.1 marker.2 hmarker
      exact ⟨h.token.last, hmark.first, hstart⟩
  · intro elseStop hstop
    obtain ⟨marker, hmarker, rfl⟩ := Option.map_eq_some_iff.1 hstop
    obtain ⟨-, hmark, hle⟩ := h.marker marker.1 marker.2 hmarker
    exact ⟨hmark.last, hcut.first, hle⟩

theorem innermostBlockFrom_spec {text : String} {tokens : List (Nat × Nat × String)}
    {stack : List OpenBlock} {cursor : Nat} {found : BlockMatch} (htokens : TokensFrom text cursor tokens)
    (hstack : ∀ block ∈ stack, block.Before text cursor)
    (h : innermostBlockFrom tokens stack = some found) : found.Cuts text := by
  induction htokens generalizing stack with
  | nil => cases h
  | @cons cursor start stop token rest hstart hcut hrest ih =>
    have hbefore : ∀ block ∈ stack, block.Before text stop :=
      fun block hmem => (hstack block hmem).mono (hstart.trans hcut.le)
    have hnone : ∀ block ∈ ([] : List OpenBlock), block.Before text stop := fun block hmem => by cases hmem
    unfold innermostBlockFrom at h
    dsimp only at h
    split at h
    · -- an opening token
      refine ih ?_ h
      intro block hmem
      rcases List.mem_cons.1 hmem with rfl | hmem
      · exact ⟨hcut, Nat.le_refl _, fun _ _ hmarker => by cases hmarker⟩
      · exact hbefore block hmem
    · split at h
      · cases stack with
        | nil => exact ih hnone h
        | cons top stack =>
          refine ih ?_ h
          intro block hmem
          rcases List.mem_cons.1 hmem with rfl | hmem
          · have htop := hstack top (List.mem_cons_self ..)
            refine ⟨htop.token, htop.le.trans (hstart.trans hcut.le), ?_⟩
            intro start' stop' hmarker
            cases hmarker
            exact ⟨htop.le.trans hstart, hcut, Nat.le_refl _⟩
          · exact hbefore block (List.mem_cons_of_mem _ hmem)
      · split at h
        · cases stack with
          | nil => exact ih hnone h
          | cons top stack =>
            obtain rfl := Option.some.inj h
            exact ((hstack top (List.mem_cons_self ..)).mono hstart).close hcut
        · exact ih hbefore h

theorem innermostBlock_total (text : String) : ∃ found, innermostBlock text = some found ∧
    ∀ block, found = some block → block.Cuts text := by
  obtain ⟨tokens, htokens, hfrom⟩ := flatTokens_total text
  refine ⟨innermostBlockFrom tokens [], by rw [innermostBlock, htokens]; rfl, ?_⟩
  intro block hblock
  exact innermostBlockFrom_spec hfrom (fun block hmem => by cases hmem) hblock

section
variable (lib : Library)

/-! ## Conditions -/

theorem length_applyOperator (context : PromptResolutionContext) (operator condition : String)
    (statement : List String) :
    (applyOperator lib context operator condition statement).2.length ≤ statement.length := by
  have htail : statement.tail.length ≤ statement.length := by simp
  unfold applyOperator
  split
  all_goals first | exact htail | exact Nat.le_refl _

/-- **Every round shortens the statement.** -/
theorem evaluateWhenFrom_total (context : PromptResolutionContext) : ∀ (n : Nat) {statement : List String},
    statement.length ≤ n + 1 →
    ∃ value, ∀ fuel, n ≤ fuel → evaluateWhenFrom lib context fuel statement = some value
  | _, [], _ => ⟨false, fun fuel _ => by unfold evaluateWhenFrom; rfl⟩
  | _, [value], _ => ⟨whenTruthy value, fun fuel _ => by unfold evaluateWhenFrom; rfl⟩
  | 0, _ :: _ :: _, h => absurd h (by simp)
  | n + 1, condition :: operator :: statement, h => by
    have hle := length_applyOperator lib context operator condition statement
    have hnext : ((applyOperator lib context operator condition statement).1 ::
        (applyOperator lib context operator condition statement).2).length ≤ n + 1 := by
      simp only [List.length_cons] at h ⊢
      omega
    obtain ⟨value, hvalue⟩ := evaluateWhenFrom_total context n hnext
    refine ⟨value, fun fuel hfuel => ?_⟩
    obtain ⟨fuel, rfl⟩ : ∃ k, fuel = k + 1 := ⟨fuel - 1, by omega⟩
    exact hvalue fuel (by omega)

theorem evaluateWhenExpression_total (args : List String) (context : PromptResolutionContext) :
    ∃ value, evaluateWhenExpression lib args context = some value := by
  have hlen : args.reverse.length ≤ args.length + 1 := by simp
  obtain ⟨value, hvalue⟩ := evaluateWhenFrom_total lib context args.length hlen
  exact ⟨value, hvalue _ (Nat.le_refl _)⟩

theorem evaluateBlockCondition_total (token : String) (context : PromptResolutionContext) :
    ∃ value, evaluateBlockCondition lib token context = some value := by
  unfold evaluateBlockCondition
  simp only
  split
  · exact ⟨_, rfl⟩
  · split
    · exact ⟨false, rfl⟩
    · exact evaluateWhenExpression_total lib _ context

/-! ## Renderings -/

theorem blockReplacement_total (context : PromptResolutionContext) {output : String} {block : BlockMatch}
    (h : block.Cuts output) : ∃ replacement, blockReplacement lib context output block = some replacement := by
  obtain ⟨holds, hholds⟩ := evaluateBlockCondition_total lib block.token context
  unfold blockReplacement
  simp only [hholds, Option.bind_eq_bind, Option.bind_some]
  split
  · exact h.chosen.slice
  · split
    · rename_i elseStop helse
      exact (h.other elseStop helse).slice
    · exact ⟨"", rfl⟩

theorem selectPass_total (source : String) (context : PromptResolutionContext) (output : String) :
    ∃ p, selectPass lib source context output = some p ∧ p.Keeps (Bounded source) (Bounded source) := by
  obtain ⟨found, hfound, hcuts⟩ := innermostBlock_total output
  unfold selectPass
  simp only [hfound, Option.bind_eq_bind, Option.bind_some]
  cases found with
  | none => exact ⟨LoopStep.leave, rfl, trivial⟩
  | some block =>
    obtain ⟨replacement, hreplacement⟩ := blockReplacement_total lib context (hcuts block rfl)
    obtain ⟨exceeds, output', hexceeds, hreplace, hle⟩ := (hcuts block rfl).whole.replace replacement
    simp only [hreplacement, hexceeds, hreplace, Option.bind_some]
    split
    · exact ⟨_, rfl, Or.inl rfl⟩
    · rename_i hfits
      exact ⟨_, rfl, Bounded.of_replace hle hfits⟩

theorem blockPass_total (source : String) (context : PromptResolutionContext) (pass : Nat) (output : String) :
    ∃ p, blockPass lib source context pass output = some p ∧ p.Keeps (Bounded source) (Bounded source) := by
  obtain ⟨p, hp, hkeeps⟩ := selectPass_total lib source context output
  unfold blockPass
  simp only [hp, Option.bind_eq_bind, Option.bind_some]
  cases p with
  | leave => exact ⟨LoopStep.leave, rfl, trivial⟩
  | result output => exact ⟨_, rfl, hkeeps⟩
  | next output =>
    obtain ⟨e, he, hend⟩ := expandTokens_total lib source context hkeeps
    simp only [he, Option.bind_some]
    cases e with
    | left output => exact ⟨_, rfl, hend⟩
    | spent output => exact ⟨_, rfl, hend⟩
    | result output => exact ⟨_, rfl, hend⟩

theorem selectBlocks_total (source : String) (context : PromptResolutionContext) {output : String}
    (h : Bounded source output) :
    ∃ e, selectBlocks lib source context output = some e ∧ Bounded source (endText e) := by
  obtain ⟨e, he, hkeeps⟩ := runPasses_total (I := Bounded source) (R := Bounded source)
    (fun pass output _ => blockPass_total lib source context pass output) maxRenderPasses 0 h
  exact ⟨e, he, bounded_endText hkeeps⟩

/-- **A rendering does not panic**: it gives the source or a text within the limit, and the evaluation of a
`when` expression ends on every list of arguments. -/
theorem renderPortableText_safe (source : String) (context : PromptResolutionContext) :
    (∃ output, renderPortableText lib source context = some output ∧
      (output = source ∨ output.length ≤ maxRenderChars)) ∧
    ∀ args : List String, ∃ value, ∀ fuel, args.length ≤ fuel →
      evaluateWhenFrom lib context fuel args.reverse = some value := by
  refine ⟨?_, fun args => evaluateWhenFrom_total lib context args.length (by simp)⟩
  unfold renderPortableText
  split
  · exact ⟨source, rfl, Or.inl rfl⟩
  · obtain ⟨output, houtput, hbounded⟩ := renderEachBlocks_total source
    obtain ⟨e, he, hkeeps⟩ := expandTokens_total lib source context hbounded
    simp only [houtput, he, Option.bind_eq_bind, Option.bind_some]
    cases e with
    | result output => exact ⟨output, rfl, hkeeps⟩
    | left output =>
      obtain ⟨e, hselect, hend⟩ := selectBlocks_total lib source context hkeeps
      exact ⟨endText e, by simp only [hselect]; rfl, hend⟩
    | spent output =>
      obtain ⟨e, hselect, hend⟩ := selectBlocks_total lib source context hkeeps
      exact ⟨endText e, by simp only [hselect]; rfl, hend⟩

end

end PortableText

end LorePia
