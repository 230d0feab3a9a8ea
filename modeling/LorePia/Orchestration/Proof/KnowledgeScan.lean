import LorePia.Base.Lowercase
import LorePia.Orchestration.Proof.KnowledgeRounds

/-!
# The scan and the keywords in it

A scan that grows text by text is the batch scan of all texts but for its lowercase half: the appended texts are
lowered character by character, so the two agree exactly while no appended text has a capital sigma at the end of
a word (`incrementalScan_iff`). A whole-word keyword is looked for at the places where a search without overlaps
finds it, so a well-bounded place inside an earlier one is missed (`containsKeyword_wholeWord_iff`).
-/

namespace LorePia

open Base Metered

variable {lib : KnowledgeExternals}

/-! ## Appended texts -/

/-- A scan of some texts, and further texts appended to it, each for an entry. -/
def incrementalScan (lib : KnowledgeExternals) (scanDepth : UInt32) (scanTexts : List String) (scopeId : String)
    (appended : List (String × String)) : Work ActivationScan := do
  let scan ← ActivationScan.fromTexts lib scanDepth scanTexts scopeId
  appended.foldlM (fun scan item => scan.appendText lib item.1 item.2) scan

/-- The library lowers texts as documented. -/
structure LowersTexts (lib : KnowledgeExternals) (tables : CaseTables) : Prop where
  text : ∀ text, lib.toLowercase text = String.ofList (tables.lowercase text.toList)
  char : lib.charToLowercase = tables.lower
  sigma : tables.lower 'Σ' = ['σ']
  newline : tables.lower '\n' = ['\n']
  breaks : tables.Breaks '\n'

/-- A text in which a capital sigma ends a word. -/
def FinalSigma (tables : CaseTables) (text : String) : Prop := tables.HasFinalSigma [] text.toList

/-- `scan` is the join of `texts`, with its characters counted. -/
structure Joined (texts : List String) (scan : ActivationScan) : Prop where
  original : texts.foldlM (fun scan text => appendScanText scan.1 scan.2 text) ("", 0) =
    (.ok (scan.original, scan.characters) : Selection (String × Nat))
  characters : scan.characters = scan.original.length

theorem appendScanText_length {scan text : String} {joined : String × Nat}
    (h : appendScanText scan scan.length text = .ok joined) : joined.2 = joined.1.length := by
  have hnewline : "\n".length = 1 := rfl
  rw [appendScanText_eq_ok h, joinText]
  split <;> simp [hnewline]

theorem foldlM_appendScanText_length {texts : List String} {scan joined : String × Nat}
    (hscan : scan.2 = scan.1.length)
    (h : texts.foldlM (fun scan text => appendScanText scan.1 scan.2 text) scan =
      (.ok joined : Selection (String × Nat))) : joined.2 = joined.1.length := by
  induction texts generalizing scan with
  | nil =>
    cases h
    exact hscan
  | cons text texts ih =>
    rw [List.foldlM_cons] at h
    obtain ⟨next, hnext, h⟩ := bind_eq_ok.1 h
    rw [hscan] at hnext
    exact ih (appendScanText_length hnext) h

theorem fromTexts_joined (scanDepth : UInt32) (scanTexts : List String) (scopeId : String) :
    Returns (ActivationScan.fromTexts lib scanDepth scanTexts scopeId) fun scan =>
      Joined (scanTexts.drop (scanTexts.length - scanDepth.toNat)) scan ∧
        scan.lowercase = lib.toLowercase scan.original := by
  refine returns_bind fun _ => returns_bind fun _ => returns_bind fun _ => ?_
  refine (returns_lift fun joined h => h).bind fun joined hjoined => returns_pure ?_
  exact ⟨⟨hjoined, foldlM_appendScanText_length rfl hjoined⟩, rfl⟩

theorem appendText_joined {texts : List String} {scan : ActivationScan} (h : Joined texts scan)
    (text scopeId : String) : Returns (scan.appendText lib text scopeId) fun next =>
      Joined (texts ++ [text]) next ∧ next = scan.append lib text := by
  refine returns_bind fun _ => returns_bind fun _ => ?_
  refine (returns_lift fun joined hjoined => hjoined).bind fun joined hjoined => returns_pure ⟨⟨?_, ?_⟩, ?_⟩
  · rw [List.foldlM_append, h.original]
    exact bind_eq_ok.2 ⟨_, rfl, bind_eq_ok.2 ⟨joined, hjoined, rfl⟩⟩
  · rw [h.characters] at hjoined
    exact appendScanText_length hjoined
  · rw [appendScanText_eq_ok hjoined]
    rfl

/-! ## Lowercase halves -/

variable {tables : CaseTables}

theorem LowersTexts.toList (law : LowersTexts lib tables) (text : String) :
    (lib.toLowercase text).toList = tables.lowercase text.toList := by
  rw [law.text, String.toList_ofList]

/-- The batch lowercase of a scan with one more text. -/
theorem LowersTexts.joined (law : LowersTexts lib tables) (original text : String) :
    (lib.toLowercase (if original.isEmpty then text else original ++ "\n" ++ text)).toList =
      (lib.toLowercase original).toList ++
        ((if original.isEmpty then [] else ['\n']) ++ tables.lowercase text.toList) := by
  rw [law.toList, law.toList]
  split
  · rename_i hempty
    rw [String.isEmpty_iff.1 hempty]
    rfl
  · have hlist : (original ++ "\n" ++ text).toList = original.toList ++ '\n' :: text.toList := by
      rw [String.toList_append, String.toList_append, List.append_assoc]
      rfl
    rw [hlist, CaseTables.lowercase,
      CaseTables.lowercaseFrom_append_break law.breaks (by decide) text.toList original.toList [], law.newline]
    rfl

/-- One appended text keeps the lowercase half right unless a capital sigma ends a word of it. -/
theorem append_lowercase (law : LowersTexts lib tables) (scan : ActivationScan) (text : String)
    (hlength : scan.lowercase.length = (lib.toLowercase scan.original).length) :
    ((scan.append lib text).lowercase.length = (lib.toLowercase (scan.append lib text).original).length) ∧
      ((scan.append lib text).lowercase = lib.toLowercase (scan.append lib text).original ↔
        scan.lowercase = lib.toLowercase scan.original ∧ ¬ FinalSigma tables text) := by
  have horiginal : (scan.append lib text).original =
      if scan.original.isEmpty then text else scan.original ++ "\n" ++ text := by
    show (if scan.original.isEmpty then scan.original else scan.original ++ "\n") ++ text = _
    split
    · rename_i hempty
      rw [String.isEmpty_iff.1 hempty, String.empty_append]
    · rfl
  have hlower : (scan.append lib text).lowercase.toList = scan.lowercase.toList ++
      ((if scan.original.isEmpty then [] else ['\n']) ++ text.toList.flatMap tables.lower) := by
    show ((if !scan.original.isEmpty then scan.lowercase ++ "\n" else scan.lowercase) ++ String.ofList _).toList = _
    rw [law.char, String.toList_append, String.toList_ofList]
    cases scan.original.isEmpty with
    | true => rfl
    | false =>
      show (scan.lowercase ++ "\n").toList ++ _ = _
      rw [String.toList_append, List.append_assoc]
      rfl
  have hbatch := law.joined scan.original text
  rw [← horiginal] at hbatch
  have hpiece := CaseTables.length_lowercaseFrom law.sigma text.toList []
  rw [← String.length_toList, ← String.length_toList] at hlength
  constructor
  · rw [← String.length_toList, ← String.length_toList, hlower, hbatch]
    simp only [List.length_append, hlength, CaseTables.lowercase, hpiece]
  · rw [← String.toList_inj, hlower, hbatch, ← String.toList_inj, FinalSigma,
      ← CaseTables.lowercaseFrom_eq_flatMap law.sigma]
    constructor
    · intro h
      obtain ⟨hleft, hright⟩ := List.append_inj h hlength
      exact ⟨hleft, (List.append_cancel_left hright).symm⟩
    · rintro ⟨hleft, hright⟩
      rw [hleft, CaseTables.lowercase, hright]

/-- The texts appended one after the other. -/
theorem foldlM_appendText (law : LowersTexts lib tables) : ∀ {appended : List (String × String)}
    {texts : List String} {scan : ActivationScan}, Joined texts scan →
    scan.lowercase.length = (lib.toLowercase scan.original).length →
    Returns (appended.foldlM (fun scan item => scan.appendText lib item.1 item.2) scan) fun last =>
      Joined (texts ++ appended.map (·.1)) last ∧ (last.lowercase = lib.toLowercase last.original ↔
        scan.lowercase = lib.toLowercase scan.original ∧ ∀ item ∈ appended, ¬ FinalSigma tables item.1)
  | [], texts, scan, hscan, _ => by
    refine returns_pure ⟨?_, ?_⟩
    · rw [List.map_nil, List.append_nil]
      exact hscan
    · exact (and_iff_left (List.forall_mem_nil _)).symm
  | item :: appended, texts, scan, hscan, hlength => by
    rw [List.foldlM_cons]
    refine (appendText_joined hscan item.1 item.2).bind fun next ⟨hnext, heq⟩ => ?_
    obtain ⟨hlength', hstep⟩ := append_lowercase law scan item.1 hlength
    rw [← heq] at hlength' hstep
    intro budget last budget' hrun
    obtain ⟨hlast, hiff⟩ := foldlM_appendText law hnext hlength' budget last budget' hrun
    rw [List.append_assoc] at hlast
    refine ⟨hlast, ?_⟩
    rw [hiff, hstep, List.forall_mem_cons, and_assoc]

/-- **The incremental scan and the batch scan**: whatever the texts are, a scan that was grown without an error is
the join of all texts with its characters counted; its lowercase half is that of the join exactly when no appended
text has a capital sigma at the end of a word. -/
theorem incrementalScan_iff (tables : CaseTables) (law : LowersTexts lib tables) (scanDepth : UInt32)
    (scanTexts : List String) (scopeId : String) (appended : List (String × String)) (budget budget' : KnowledgeWorkBudget)
    (scan : ActivationScan)
    (h : incrementalScan lib scanDepth scanTexts scopeId appended budget = (.ok scan, budget')) :
    (Joined (scanTexts.drop (scanTexts.length - scanDepth.toNat) ++ appended.map (·.1)) scan ∧
      scan.lowercase = lib.toLowercase scan.original) ↔ ∀ item ∈ appended, ¬ FinalSigma tables item.1 := by
  have hreturns : Returns (incrementalScan lib scanDepth scanTexts scopeId appended) fun scan =>
      Joined (scanTexts.drop (scanTexts.length - scanDepth.toNat) ++ appended.map (·.1)) scan ∧
        (scan.lowercase = lib.toLowercase scan.original ↔ ∀ item ∈ appended, ¬ FinalSigma tables item.1) := by
    refine (fromTexts_joined scanDepth scanTexts scopeId).bind fun first ⟨hfirst, hlower⟩ => ?_
    intro b last b' hrun
    obtain ⟨hlast, hiff⟩ := foldlM_appendText law hfirst (congrArg String.length hlower) b last b' hrun
    exact ⟨hlast, hiff.trans (and_iff_right hlower)⟩
  obtain ⟨hjoined, hiff⟩ := hreturns budget scan budget' h
  rw [← hiff]
  exact and_iff_right hjoined

/-! ### A Greek street -/

/-- The case tables on Latin letters and those of one Greek word. -/
def streetTables : CaseTables where
  lower
    | 'Ο' => ['ο']
    | 'Δ' => ['δ']
    | 'Σ' => ['σ']
    | c => [c.toLower]
  cased c := c.isAlpha || c ∈ ['Ο', 'Δ', 'Σ', 'ο', 'δ', 'σ', 'ς']
  ignorable c := c ∈ ['.', ':', '^']

/-- A library with these tables. -/
def streetLib : KnowledgeExternals where
  sha256 _ := Vector.replicate 32 0
  toLowercase text := String.ofList (streetTables.lowercase text.toList)
  charToLowercase := streetTables.lower
  isAlphanumeric c := c.isAlphanum || c ∈ ['Ο', 'Δ', 'Σ', 'ο', 'δ', 'σ', 'ς']
  buildRegex _ _ _ _ := .error "unsupported"

theorem streetLib_lowersTexts : LowersTexts streetLib streetTables where
  text _ := rfl
  char := rfl
  sigma := rfl
  newline := rfl
  breaks := ⟨rfl, rfl⟩

/-- A street that is appended keeps the sigma of its letters. -/
theorem incrementalScan_final_sigma : ∃ scan budget',
    incrementalScan streetLib 4 ["Harbor"] "book" [("ΟΔΟΣ", "street")] defaultWorkBudget = (.ok scan, budget') ∧
      scan.lowercase ≠ streetLib.toLowercase scan.original :=
  ⟨_, _, rfl, by decide +kernel⟩

theorem incrementalScan_iff_street : ∃ scan, ∃ budget' : KnowledgeWorkBudget,
    incrementalScan streetLib 4 ["Harbor"] "book" [("South", "street")] defaultWorkBudget = (.ok scan, budget') ∧
      ((Joined ["Harbor", "South"] scan ∧ scan.lowercase = streetLib.toLowercase scan.original) ↔
        ∀ item ∈ [("South", "street")], ¬ FinalSigma streetTables item.1) := by
  obtain ⟨scan, budget', h⟩ : ∃ scan budget', incrementalScan streetLib 4 ["Harbor"] "book" [("South", "street")]
      defaultWorkBudget = (.ok scan, budget') := ⟨_, _, rfl⟩
  exact ⟨scan, budget', h, incrementalScan_iff streetTables streetLib_lowersTexts 4 ["Harbor"] "book"
    [("South", "street")] defaultWorkBudget budget' scan h⟩

/-! ## Whole words -/

section WholeWord

variable (needle haystack : List Char)

/-- The needle stands at a place of the haystack. -/
def OccursAt (p : Nat) : Prop := ∃ before after, haystack = before ++ (needle ++ after) ∧ before.length = p

/-- A search from the left without overlaps finds the needle at a place: it stands there, and no place that is
found before covers it. -/
def SearchFinds (p : Nat) : Prop :=
  OccursAt needle haystack p ∧ ∀ q, q < p → SearchFinds q → q + needle.length ≤ p
termination_by p

/-- The characters around a place. -/
def contextAt (p : Nat) : Option Char × Option Char :=
  ((haystack.take p).getLast?, (haystack.drop (p + needle.length)).head?)

variable {needle haystack}

theorem OccursAt.le {p : Nat} (h : OccursAt needle haystack p) : p + needle.length ≤ haystack.length := by
  obtain ⟨before, after, rfl, rfl⟩ := h
  rw [List.length_append, List.length_append]
  omega

theorem occursAt_iff {front rest : List Char} (h : haystack = front ++ rest) :
    OccursAt needle haystack front.length ↔ needle.isPrefixOf rest = true := by
  rw [List.isPrefixOf_iff_prefix]
  constructor
  · rintro ⟨before, after, hsplit, hlength⟩
    rw [h] at hsplit
    rw [(List.append_inj hsplit hlength.symm).2]
    exact List.prefix_append _ _
  · rintro ⟨after, rfl⟩
    exact ⟨front, after, h, rfl⟩

/-- **The contexts that `match_indices` yields** behind `front`: those of the places that the search finds from
there on. The first `skip` characters are covered by the match before. -/
theorem mem_matchContexts (around : Option Char × Option Char) : ∀ (rest front : List Char) (skip : Nat),
    haystack = front ++ rest →
    (∀ q < front.length, SearchFinds needle haystack q → q + needle.length ≤ front.length + skip) →
    (skip = 0 ∨ ∃ q < front.length, SearchFinds needle haystack q ∧ q + needle.length = front.length + skip) →
    (around ∈ matchContexts needle front.getLast? skip rest ↔
      ∃ p, front.length ≤ p ∧ SearchFinds needle haystack p ∧ around = contextAt needle haystack p)
  | [], front, skip, h, hcover, hskip => by
    rw [List.append_nil] at h
    subst h
    -- only the empty needle stands at the end
    have hend : SearchFinds needle haystack haystack.length ↔ needle = [] := by
      constructor
      · intro hfound
        rw [SearchFinds] at hfound
        have := hfound.1.le
        exact List.length_eq_zero_iff.1 (by omega)
      · rintro rfl
        rw [SearchFinds]
        exact ⟨⟨haystack, [], by simp, rfl⟩, fun q hq _ => Nat.le_of_lt hq⟩
    have hlast : ∀ p, haystack.length ≤ p → SearchFinds needle haystack p → p = haystack.length := by
      intro p hp hfound
      rw [SearchFinds] at hfound
      have := hfound.1.le
      omega
    have hcontext : needle = [] → contextAt needle haystack haystack.length = (haystack.getLast?, none) := by
      rintro rfl
      simp [contextAt]
    unfold matchContexts
    split
    · rename_i hempty
      rw [List.isEmpty_iff] at hempty
      rw [List.mem_singleton, ← hcontext hempty]
      constructor
      · intro haround
        exact ⟨haystack.length, Nat.le_refl _, hend.2 hempty, haround⟩
      · rintro ⟨p, hp, hfound, haround⟩
        rw [haround, hlast p hp hfound]
    · rename_i hempty
      rw [List.isEmpty_iff] at hempty
      refine iff_of_false List.not_mem_nil ?_
      rintro ⟨p, hp, hfound, -⟩
      rw [hlast p hp hfound] at hfound
      exact hempty (hend.1 hfound)
  | c :: rest, front, skip + 1, h, hcover, hskip => by
    have hnext : haystack = (front ++ [c]) ++ rest := by
      rw [h, List.append_assoc, List.singleton_append]
    obtain ⟨q, hq, hfound, hqskip⟩ := hskip.resolve_left (by omega)
    -- the match that covers the next characters covers this place
    have hcovered : ¬ SearchFinds needle haystack front.length := by
      intro hhere
      rw [SearchFinds] at hhere
      have := hhere.2 q hq hfound
      omega
    have hlength : (front ++ [c]).length = front.length + 1 := by simp
    have hrest := mem_matchContexts around rest (front ++ [c]) skip hnext (by
      intro r hr hr'
      rcases Nat.lt_or_eq_of_le (Nat.le_of_lt_succ (hlength ▸ hr)) with hlt | rfl
      · have := hcover r hlt hr'
        omega
      · exact absurd hr' hcovered) (.inr ⟨q, by omega, hfound, by omega⟩)
    rw [matchContexts, ← List.getLast?_concat, hrest]
    constructor
    · rintro ⟨p, hp, hp', haround⟩
      exact ⟨p, by omega, hp', haround⟩
    · rintro ⟨p, hp, hp', haround⟩
      refine ⟨p, ?_, hp', haround⟩
      rcases Nat.lt_or_eq_of_le hp with hlt | rfl
      · omega
      · exact absurd hp' hcovered
  | c :: rest, front, 0, h, hcover, hskip => by
    have hnext : haystack = (front ++ [c]) ++ rest := by
      rw [h, List.append_assoc, List.singleton_append]
    have hlength : (front ++ [c]).length = front.length + 1 := by simp
    have hhere : SearchFinds needle haystack front.length ↔ needle.isPrefixOf (c :: rest) = true := by
      rw [SearchFinds, occursAt_iff h]
      exact and_iff_left fun q hq hfound => by
        have := hcover q hq hfound
        omega
    have hsplit : ∀ P : Nat → Prop, (∃ p, front.length ≤ p ∧ P p) ↔
        P front.length ∨ ∃ p, (front ++ [c]).length ≤ p ∧ P p := by
      intro P
      constructor
      · rintro ⟨p, hp, hp'⟩
        rcases Nat.lt_or_eq_of_le hp with hlt | rfl
        · exact .inr ⟨p, by omega, hp'⟩
        · exact .inl hp'
      · rintro (hp' | ⟨p, hp, hp'⟩)
        · exact ⟨_, Nat.le_refl _, hp'⟩
        · exact ⟨p, by omega, hp'⟩
    rw [hsplit, hhere, matchContexts]
    split
    · rename_i hstarts
      have hcontext : contextAt needle haystack front.length =
          (front.getLast?, ((c :: rest).drop needle.length).head?) := by
        rw [contextAt, h, List.take_left', List.drop_append, Nat.add_sub_cancel_left,
          List.drop_of_length_le (by omega), List.nil_append]
        rfl
      have hrest := mem_matchContexts around rest (front ++ [c]) (needle.length - 1) hnext (by
        intro r hr hr'
        rcases Nat.lt_or_eq_of_le (Nat.le_of_lt_succ (hlength ▸ hr)) with hlt | rfl
        · have := hcover r hlt hr'
          omega
        · omega) (by
        by_cases hone : needle.length - 1 = 0
        · exact .inl hone
        · exact .inr ⟨front.length, by omega, hhere.2 hstarts, by omega⟩)
      rw [List.mem_cons, ← List.getLast?_concat, hrest, ← hcontext]
      simp only [hstarts, true_and]
    · rename_i hstarts
      have hrest := mem_matchContexts around rest (front ++ [c]) 0 hnext (by
        intro r hr hr'
        rcases Nat.lt_or_eq_of_le (Nat.le_of_lt_succ (hlength ▸ hr)) with hlt | rfl
        · have := hcover r hlt hr'
          omega
        · exact absurd (hhere.1 hr') hstarts) (.inl rfl)
      rw [← List.getLast?_concat, hrest]
      simp only [hstarts, false_and, false_or, Bool.false_eq_true]

/-- A place where the needle stands as a whole word. -/
structure WholeWordAt (lib : KnowledgeExternals) (needle haystack : List Char) (p : Nat) : Prop where
  occurs : OccursAt needle haystack p
  before : ∀ c ∈ (contextAt needle haystack p).1, isWordCharacter lib c = false
  after : ∀ c ∈ (contextAt needle haystack p).2, isWordCharacter lib c = false

end WholeWord

/-- The keyword as it is looked for. -/
def keywordNeedle (lib : KnowledgeExternals) (keyword : String) (caseSensitive : Bool) : List Char :=
  (if caseSensitive then keyword else lib.toLowercase keyword).toList

/-- **What a whole-word search finds**: a whole word among the places that the search from the left finds. -/
theorem containsKeyword_wholeWord (scan : ActivationScan) (keyword : String) (caseSensitive : Bool) :
    containsKeyword lib scan keyword caseSensitive true = true ↔
      ∃ p, WholeWordAt lib (keywordNeedle lib keyword caseSensitive) (scan.matchingText caseSensitive).toList p ∧
        SearchFinds (keywordNeedle lib keyword caseSensitive) (scan.matchingText caseSensitive).toList p := by
  have hall : ∀ side : Option Char, side.all (fun c => !isWordCharacter lib c) = true ↔
      ∀ c ∈ side, isWordCharacter lib c = false := by
    intro side
    cases side <;> simp
  show (List.any (matchContexts (keywordNeedle lib keyword caseSensitive) none 0
    (scan.matchingText caseSensitive).toList) _) = true ↔ _
  rw [List.any_eq_true]
  constructor
  · rintro ⟨around, hmem, hbounded⟩
    obtain ⟨p, -, hfound, rfl⟩ := (mem_matchContexts around _ [] 0 rfl nofun (.inl rfl)).1 hmem
    rw [Bool.and_eq_true, hall, hall] at hbounded
    have hoccurs := hfound
    rw [SearchFinds] at hoccurs
    exact ⟨p, ⟨hoccurs.1, hbounded.1, hbounded.2⟩, hfound⟩
  · rintro ⟨p, hword, hfound⟩
    refine ⟨_, (mem_matchContexts _ _ [] 0 rfl nofun (.inl rfl)).2 ⟨p, Nat.zero_le p, hfound, rfl⟩, ?_⟩
    rw [Bool.and_eq_true, hall, hall]
    exact ⟨hword.before, hword.after⟩

/-- **Whole-word matching**: it finds a keyword that stands as a whole word somewhere exactly when one such place
is not covered by an earlier find of the search from the left. -/
theorem containsKeyword_wholeWord_iff (lib : KnowledgeExternals) (scan : ActivationScan) (keyword : String)
    (caseSensitive : Bool) :
    (containsKeyword lib scan keyword caseSensitive true = true ↔
      ∃ p, WholeWordAt lib (keywordNeedle lib keyword caseSensitive) (scan.matchingText caseSensitive).toList p) ↔
    ((∃ p, WholeWordAt lib (keywordNeedle lib keyword caseSensitive) (scan.matchingText caseSensitive).toList p) →
      ∃ p, WholeWordAt lib (keywordNeedle lib keyword caseSensitive) (scan.matchingText caseSensitive).toList p ∧
        ∀ q < p, SearchFinds (keywordNeedle lib keyword caseSensitive) (scan.matchingText caseSensitive).toList q →
          q + (keywordNeedle lib keyword caseSensitive).length ≤ p) := by
  rw [containsKeyword_wholeWord]
  constructor
  · intro h hword
    obtain ⟨p, hp, hfound⟩ := h.2 hword
    rw [SearchFinds] at hfound
    exact ⟨p, hp, hfound.2⟩
  · refine fun h => ⟨fun ⟨p, hp, _⟩ => ⟨p, hp⟩, fun hword => ?_⟩
    obtain ⟨p, hp, hfree⟩ := h hword
    refine ⟨p, hp, ?_⟩
    rw [SearchFinds]
    exact ⟨hp.occurs, hfree⟩

/-- An occurrence inside a rejected one is missed. -/
theorem containsKeyword_misses_covered :
    containsKeyword streetLib ⟨"xa-a-a", "xa-a-a", 6⟩ "a-a" true true = false ∧
      ∃ p, WholeWordAt streetLib (keywordNeedle streetLib "a-a" true) "xa-a-a".toList p := by
  have hcontext : contextAt (keywordNeedle streetLib "a-a" true) "xa-a-a".toList 3 = (some '-', none) := by
    decide +kernel
  refine ⟨by decide +kernel, 3, ⟨⟨['x', 'a', '-'], [], rfl, rfl⟩, fun c hc => ?_, fun c hc => ?_⟩⟩
  · rw [hcontext] at hc
    cases hc
    decide +kernel
  · rw [hcontext] at hc
    cases hc

end LorePia
