import LorePia.Providers.CurlTokens

/-!
# Quoted arguments come back as the tokens

The scanner reads a quoted argument as the argument itself (`scanTokens_argument`): a quote inside it closes the
quotes, is escaped and opens them again. A blank between two arguments finishes a token also where it is empty,
because opening the quotes starts one.
-/

namespace LorePia

namespace Curl

open Base

/-! ## Quoting -/

/-- A character within single quotes. -/
def quoteChar (c : Char) : List Char :=
  if c = singleQuote then [singleQuote, backslash, singleQuote, singleQuote] else [c]

/-- An argument in single quotes. -/
def quoteArgument (argument : String) : List Char :=
  singleQuote :: argument.toList.flatMap quoteChar ++ [singleQuote]

/-- The quoted arguments with blanks between them. -/
def quoteArguments : List String → List Char
  | [] => []
  | [argument] => quoteArgument argument
  | argument :: next :: rest => quoteArgument argument ++ ' ' :: quoteArguments (next :: rest)

/-- The command of the quoted arguments. -/
def quotedCommand (arguments : List String) : String := String.ofList (quoteArguments arguments)

/-! ## Steps of the scanner -/

section
variable {tokens : List String} {token rest : List Char} {started : Bool}

theorem scanTokens_open : scanTokens (singleQuote :: rest) ⟨tokens, token, started, .unquoted⟩ =
    scanTokens rest ⟨tokens, token, true, .single⟩ := by
  rw [scanTokens.eq_def]
  rfl

theorem scanTokens_close : scanTokens (singleQuote :: rest) ⟨tokens, token, started, .single⟩ =
    scanTokens rest ⟨tokens, token, started, .unquoted⟩ := by
  rw [scanTokens.eq_def]
  rfl

theorem pushTokenCharacter_of_le {scan : TokenScan} {c : Char}
    (h : String.utf8Len scan.token + c.utf8Size ≤ maxTokenBytes) :
    pushTokenCharacter scan c = .ok { scan with token := scan.token ++ [c] } := by
  unfold pushTokenCharacter
  rw [if_neg (Nat.not_lt.2 h)]

theorem scanTokens_escaped (h : String.utf8Len token + singleQuote.utf8Size ≤ maxTokenBytes) :
    scanTokens (backslash :: singleQuote :: rest) ⟨tokens, token, started, .unquoted⟩ =
      scanTokens rest ⟨tokens, token ++ [singleQuote], true, .unquoted⟩ := by
  have hpush : pushTokenCharacter ⟨tokens, token, started, .unquoted⟩ singleQuote =
      .ok ⟨tokens, token ++ [singleQuote], started, .unquoted⟩ := pushTokenCharacter_of_le h
  rw [scanTokens.eq_def]
  have hstep : (pushTokenCharacter ⟨tokens, token, started, .unquoted⟩ singleQuote >>= fun scan =>
      scanTokens rest { scan with tokenStarted := true }) =
        scanTokens rest ⟨tokens, token ++ [singleQuote], true, .unquoted⟩ := by
    rw [hpush]
    rfl
  exact hstep

theorem scanTokens_push {c : Char} (hquote : c ≠ singleQuote) (hcontrol : isQuotedControl c = false)
    (h : String.utf8Len token + c.utf8Size ≤ maxTokenBytes) :
    scanTokens (c :: rest) ⟨tokens, token, started, .single⟩ =
      scanTokens rest ⟨tokens, token ++ [c], started, .single⟩ := by
  have hpush : pushTokenCharacter ⟨tokens, token, started, .single⟩ c =
      .ok ⟨tokens, token ++ [c], started, .single⟩ := pushTokenCharacter_of_le h
  rw [scanTokens.eq_def]
  simp only [if_neg hquote, hcontrol, Bool.false_eq_true, if_false, hpush, ok_bind]

theorem finishToken_started (hcount : tokens.length < maxTokens) (state : QuoteState) :
    finishToken ⟨tokens, token, true, state⟩ = .ok ⟨tokens ++ [String.ofList token], [], false, state⟩ := by
  have hstarted : ¬true = false := Bool.noConfusion
  exact (if_neg hstarted).trans (if_neg (Nat.not_le.2 hcount))

theorem scanTokens_blank (hcount : tokens.length < maxTokens) :
    scanTokens (' ' :: rest) ⟨tokens, token, true, .unquoted⟩ =
      scanTokens rest ⟨tokens ++ [String.ofList token], [], false, .unquoted⟩ := by
  rw [scanTokens.eq_def]
  have hstep : (finishToken ⟨tokens, token, true, .unquoted⟩ >>= fun scan => scanTokens rest scan) =
      scanTokens rest ⟨tokens ++ [String.ofList token], [], false, .unquoted⟩ := by
    rw [finishToken_started hcount, ok_bind]
  exact hstep

end

/-! ## Arguments -/

/-- The rest of a quoted argument gives the argument behind the token in progress. -/
theorem scanTokens_quoted {tokens : List String} {rest : List Char} : ∀ {argument token : List Char},
    (∀ c ∈ argument, isQuotedControl c = false) →
    String.utf8Len token + String.utf8Len argument ≤ maxTokenBytes →
    scanTokens (argument.flatMap quoteChar ++ singleQuote :: rest) ⟨tokens, token, true, .single⟩ =
      scanTokens rest ⟨tokens, token ++ argument, true, .unquoted⟩
  | [], token, _, _ => by
    rw [List.flatMap_nil, List.nil_append, List.append_nil, scanTokens_close]
  | c :: argument, token, hcontrol, hlen => by
    rw [String.utf8Len_cons] at hlen
    have hnext : String.utf8Len (token ++ [c]) + String.utf8Len argument ≤ maxTokenBytes := by
      rw [String.utf8Len_append, String.utf8Len_cons, String.utf8Len_nil]
      omega
    have hrest : scanTokens (argument.flatMap quoteChar ++ singleQuote :: rest) ⟨tokens, token ++ [c], true, .single⟩ =
        scanTokens rest ⟨tokens, token ++ c :: argument, true, .unquoted⟩ := by
      rw [scanTokens_quoted (fun d hd => hcontrol d (List.mem_cons_of_mem _ hd)) hnext, List.append_assoc,
        List.singleton_append]
    rw [List.flatMap_cons]
    by_cases hquote : c = singleQuote
    · subst hquote
      have hchar : quoteChar singleQuote = [singleQuote, backslash, singleQuote, singleQuote] := if_pos rfl
      rw [hchar]
      simp only [List.cons_append, List.nil_append]
      rw [scanTokens_close, scanTokens_escaped (by omega), scanTokens_open, hrest]
    · have hchar : quoteChar c = [c] := if_neg hquote
      rw [hchar, List.singleton_append, List.cons_append,
        scanTokens_push hquote (hcontrol c List.mem_cons_self) (by omega), hrest]

/-- **A quoted argument is read as a token in progress.** -/
theorem scanTokens_argument {tokens : List String} {rest : List Char} {started : Bool} {argument : String}
    (hcontrol : argument.toList.any isControl = false) (hlen : argument.utf8ByteSize ≤ maxTokenBytes) :
    scanTokens (quoteArgument argument ++ rest) ⟨tokens, [], started, .unquoted⟩ =
      scanTokens rest ⟨tokens, argument.toList, true, .unquoted⟩ := by
  have hallowed : ∀ c ∈ argument.toList, isQuotedControl c = false := by
    intro c hc
    have hc : isControl c = false := by simpa using List.any_eq_false.1 hcontrol c hc
    by_contra hquoted
    rw [Bool.not_eq_false] at hquoted
    simp only [isQuotedControl, Bool.or_eq_true, decide_eq_true_eq] at hquoted
    rcases hquoted with (rfl | rfl) | rfl <;> exact absurd hc (by decide)
  have hsize : String.utf8Len [] + String.utf8Len argument.toList ≤ maxTokenBytes := by
    rw [String.utf8Len_nil, String.utf8Len_toList, Nat.zero_add]
    exact hlen
  rw [quoteArgument, List.append_assoc, List.cons_append, scanTokens_open, List.singleton_append,
    scanTokens_quoted hallowed hsize, List.nil_append]

/-- An argument that may be quoted. -/
structure Quotable (argument : String) : Prop where
  noControl : argument.toList.any isControl = false
  short : argument.utf8ByteSize ≤ maxTokenBytes

/-- The scanner reads the arguments, and the last one is still in progress. -/
theorem scanTokens_arguments : ∀ {arguments tokens : List String}, (∀ argument ∈ arguments, Quotable argument) →
    tokens.length + arguments.length ≤ maxTokens →
    ∃ scan, scanTokens (quoteArguments arguments) ⟨tokens, [], false, .unquoted⟩ = .ok scan ∧
      scan.state = .unquoted ∧ ∃ finished, finishToken scan = .ok finished ∧ finished.tokens = tokens ++ arguments
  | [], tokens, _, _ => ⟨⟨tokens, [], false, .unquoted⟩, rfl, rfl, _, rfl, (List.append_nil _).symm⟩
  | [argument], tokens, hquotable, hcount => by
    have hone : tokens.length < maxTokens := hcount
    have hargument := hquotable argument List.mem_cons_self
    have hscan : scanTokens (quoteArgument argument) ⟨tokens, [], false, .unquoted⟩ =
        .ok ⟨tokens, argument.toList, true, .unquoted⟩ := by
      rw [← List.append_nil (quoteArgument argument), scanTokens_argument hargument.noControl hargument.short]
      rfl
    refine ⟨_, hscan, rfl, _, finishToken_started hone _, ?_⟩
    rw [String.ofList_toList]
  | argument :: next :: rest, tokens, hquotable, hcount => by
    rw [List.length_cons] at hcount
    have hone : tokens.length < maxTokens := by omega
    have hargument := hquotable argument List.mem_cons_self
    have hrest : ∀ a ∈ next :: rest, Quotable a := fun a ha => hquotable a (List.mem_cons_of_mem _ ha)
    have hroom : (tokens ++ [argument]).length + (next :: rest).length ≤ maxTokens := by
      rw [List.length_append, List.length_singleton]
      omega
    obtain ⟨scan, hscan, hstate, finished, hfinish, htokens⟩ := scanTokens_arguments hrest hroom
    refine ⟨scan, ?_, hstate, finished, hfinish, ?_⟩
    · rw [quoteArguments, scanTokens_argument hargument.noControl hargument.short, scanTokens_blank hone,
        String.ofList_toList, hscan]
    · rw [htokens, List.append_assoc, List.singleton_append]

/-! ## Commands -/

/-- A quoted command begins and ends with a quote, if it is not empty. -/
theorem quoteArguments_ends : ∀ {arguments : List String}, arguments ≠ [] →
    ∃ middle, quoteArguments arguments = singleQuote :: middle ∧ ∃ front, singleQuote :: middle = front ++ [singleQuote]
  | [argument], _ => ⟨argument.toList.flatMap quoteChar ++ [singleQuote], rfl,
      singleQuote :: argument.toList.flatMap quoteChar, rfl⟩
  | argument :: next :: rest, _ => by
    obtain ⟨middle, hmiddle, front, hfront⟩ := quoteArguments_ends (List.cons_ne_nil next rest)
    refine ⟨argument.toList.flatMap quoteChar ++ [singleQuote] ++ ' ' :: quoteArguments (next :: rest), ?_,
      quoteArgument argument ++ ' ' :: front, ?_⟩
    · rw [quoteArguments, quoteArgument]
      simp
    · rw [hmiddle, hfront, quoteArgument]
      simp

theorem dropWhile_blank {cs : List Char} : (singleQuote :: cs).dropWhile isAsciiBlank = singleQuote :: cs :=
  List.dropWhile_cons_of_neg (by decide)

/-- Trimming leaves a quoted command alone. -/
theorem trimMatches_quoteArguments (arguments : List String) :
    Credentials.trimMatches isAsciiBlank (quoteArguments arguments) = quoteArguments arguments := by
  cases arguments with
  | nil => rfl
  | cons argument rest =>
    obtain ⟨middle, hmiddle, front, hfront⟩ := quoteArguments_ends (List.cons_ne_nil argument rest)
    rw [hmiddle, Credentials.trimMatches, dropWhile_blank, hfront, List.reverse_append, List.reverse_singleton,
      List.singleton_append, dropWhile_blank, List.reverse_cons, List.reverse_reverse]

theorem quoteArgument_allowed {argument : String} (h : argument.toList.any isControl = false) :
    ∀ c ∈ quoteArgument argument, isControl c = false := by
  intro c hc
  simp only [quoteArgument, List.cons_append, List.mem_cons, List.mem_append, List.mem_flatMap, List.not_mem_nil,
    or_false] at hc
  rcases hc with rfl | ⟨d, hd, hc⟩ | rfl
  · decide
  · unfold quoteChar at hc
    split at hc
    · simp only [List.mem_cons, List.not_mem_nil, or_false] at hc
      rcases hc with rfl | rfl | rfl | rfl <;> decide
    · rw [List.mem_singleton] at hc
      simpa [hc] using List.any_eq_false.1 h d hd
  · decide

/-- A quoted command has the characters of its arguments, quotes, backslashes and blanks. -/
theorem quoteArguments_allowed : ∀ {arguments : List String},
    (∀ argument ∈ arguments, argument.toList.any isControl = false) →
    ∀ c ∈ quoteArguments arguments, isControl c = false
  | [], _, c, hc => by cases hc
  | [argument], h, c, hc => quoteArgument_allowed (h argument List.mem_cons_self) c hc
  | argument :: next :: rest, h, c, hc => by
    rw [quoteArguments, List.mem_append] at hc
    rcases hc with hc | hc
    · exact quoteArgument_allowed (h argument List.mem_cons_self) c hc
    · rcases List.mem_cons.1 hc with rfl | hc
      · decide
      · exact quoteArguments_allowed (fun a ha => h a (List.mem_cons_of_mem _ ha)) c hc

/-- **The tokenizer inverts quoting.** -/
theorem tokenize_quotedCommand (arguments : List String) (hcount : arguments.length ≤ 256)
    (hcontrol : ∀ argument ∈ arguments, argument.toList.any isControl = false)
    (hshort : ∀ argument ∈ arguments, argument.utf8ByteSize ≤ maxTokenBytes)
    (hinput : (quotedCommand arguments).utf8ByteSize ≤ maxInputBytes) :
    tokenize (quotedCommand arguments) = .ok arguments := by
  have hallowed : ¬(quotedCommand arguments).toList.any isDisallowedControl = true := by
    rw [Bool.not_eq_true, List.any_eq_false]
    intro c hc
    rw [quotedCommand, String.toList_ofList] at hc
    simp [isDisallowedControl, quoteArguments_allowed hcontrol c hc]
  have hquotable : ∀ argument ∈ arguments, Quotable argument := fun argument hargument =>
    ⟨hcontrol argument hargument, hshort argument hargument⟩
  have hroom : ([] : List String).length + arguments.length ≤ maxTokens := by
    rw [List.length_nil, Nat.zero_add]
    exact hcount
  obtain ⟨scan, hscan, hstate, finished, hfinish, htokens⟩ := scanTokens_arguments hquotable hroom
  unfold tokenize
  rw [if_neg (Nat.not_lt.2 hinput), if_neg hallowed, quotedCommand, String.toList_ofList,
    trimMatches_quoteArguments, TokenScan.start, hscan, ok_bind, if_neg (not_not.2 hstate), hfinish, ok_bind, htokens,
    List.nil_append]
  rfl

theorem tokenize_quotedCommand_mixed :
    tokenize (quotedCommand ["curl", "", "it's $5", "back\\slash"]) = .ok ["curl", "", "it's $5", "back\\slash"] :=
  tokenize_quotedCommand _ (by decide) (by decide) (by decide) (by decide)

end Curl

end LorePia
