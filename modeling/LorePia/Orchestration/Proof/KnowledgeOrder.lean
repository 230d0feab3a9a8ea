import LorePia.Domain.Proof.Knowledge
import LorePia.Orchestration.Proof.KnowledgeWork

/-!
# Selections do not depend on the order of their inputs

The engine sorts the entries of a book by id before it reads them, and turns the semantic scores
into maps. What comes before is order-independent when it succeeds: the checks on a book accept it
in every order, normalization charges the same work in every order, and the scores insert in every
order. A selection over permuted entries and scores therefore follows the other one.
-/

namespace LorePia

open Base Metered

/-! ## Sorted ids -/

theorem sortIds_perm {ids ids' : List String} (hp : ids.Perm ids') : sortIds ids = sortIds ids' := by
  refine stableSort_congr ?_ ?_ hp ?_
  · intro a b
    simpa using le_total a b
  · intro a b c
    simpa using le_trans
  · intro a _ b _
    simpa using le_antisymm

/-- The entries of a book with unique ids sort to one list. -/
theorem sortEntries_perm {entries entries' : List KnowledgeEntry} (hp : entries.Perm entries')
    (hnd : (entries.map (·.id)).Nodup) : sortEntries entries = sortEntries entries' := by
  refine stableSort_congr ?_ ?_ hp ?_
  · intro a b
    simpa using le_total a.id b.id
  · intro a b c
    simpa using le_trans
  · intro a ha b hb hab hba
    exact entry_unique hnd ha hb (le_antisymm (by simpa using hab) (by simpa using hba))

/-! ## The inputs -/

theorem validateBook_perm {book : KnowledgeBook} {entries : List KnowledgeEntry}
    (hp : book.entries.Perm entries) (h : validateBook book = .ok ()) :
    validateBook { book with entries := entries } = .ok () := by
  unfold validateBook at h ⊢
  simp only [seq_eq_ok] at h ⊢
  obtain ⟨hlength, hunique, hvalid, hdepth⟩ := h
  refine ⟨?_, ?_, ?_, hdepth⟩
  · rw [← hp.length_eq]
    exact hlength
  · rw [← sortIds_perm (hp.map _)]
    exact hunique
  · rw [mapErr_eq_ok] at hvalid ⊢
    exact validate_perm book hp hvalid

/-- An accepted book has unique ids. -/
theorem validateBook_nodup {book : KnowledgeBook} (h : validateBook book = .ok ()) :
    (book.entries.map (·.id)).Nodup := by
  unfold validateBook at h
  simp only [seq_eq_ok, mapErr_eq_ok] at h
  obtain ⟨-, -, hvalid, -⟩ := h
  unfold KnowledgeBook.validate at hvalid
  simp only [seq_eq_ok] at hvalid
  simpa using hvalid.2.2.2.2.2.2.1

theorem chargeBookNormalization_follows {book : KnowledgeBook} {entries : List KnowledgeEntry}
    (hp : book.entries.Perm entries) :
    Follows (chargeBookNormalization book)
      (chargeBookNormalization { book with entries := entries }) := by
  have hloop : ∀ entries : List KnowledgeEntry, Scripted (forEach chargeEntryNormalization entries) :=
    fun entries => .forEach fun entry _ => chargeEntryNormalization_scripted entry
  unfold chargeBookNormalization
  simp only [← hp.length_eq]
  refine .bind (scripted_orRuleLimit _ _) (scripted_orRuleLimit _ _)
    (fun _ => (scripted_charge _ _).bind fun _ => hloop _)
    (fun _ => (scripted_charge _ _).bind fun _ => hloop _) (.refl _) fun bytes => ?_
  refine .bind (scripted_charge _ _) (scripted_charge _ _) (fun _ => hloop _) (fun _ => hloop _)
    (.refl _) fun _ => ?_
  exact follows_forEach_perm chargeEntryNormalization_scripted hp

/-! ## Semantic scores -/

theorem scoreStep_eq_ok {ids : List KnowledgeEntryId} {scores scores' : OrdMap KnowledgeEntryId UInt32}
    {score : SemanticKnowledgeScore} :
    scoreStep ids scores score = .ok scores' ↔
      (score.entryId ∉ ids ∧ scores' = scores) ∨
        (score.entryId ∈ ids ∧ ¬ invalidUnit score.score ∧ scores.contains score.entryId = false ∧
          scores' = scores.insert score.entryId (scoreToMillionths score.score)) := by
  unfold scoreStep
  by_cases hmem : score.entryId ∈ ids
  · rw [if_neg (not_not.2 hmem)]
    simp only [seq_eq_ok, rejectIf_eq_ok, Bool.not_eq_true]
    constructor
    · rintro ⟨hvalid, hnew, h⟩
      cases h
      exact .inr ⟨hmem, hvalid, hnew, rfl⟩
    · rintro (⟨hout, -⟩ | ⟨-, hvalid, hnew, rfl⟩)
      · exact absurd hmem hout
      · exact ⟨hvalid, hnew, rfl⟩
  · rw [if_pos hmem]
    constructor
    · intro h
      cases h
      exact .inl ⟨hmem, rfl⟩
    · rintro (⟨-, rfl⟩ | ⟨hin, -⟩)
      · rfl
      · exact absurd hin hmem

/-- Two scores that are inserted one after the other are inserted the other way round. -/
theorem scoreStep_comm {ids : List KnowledgeEntryId} {s s₁ s₂ : OrdMap KnowledgeEntryId UInt32}
    {a b : SemanticKnowledgeScore} (ha : scoreStep ids s a = .ok s₁)
    (hb : scoreStep ids s₁ b = .ok s₂) : ∃ t, scoreStep ids s b = .ok t ∧ scoreStep ids t a = .ok s₂ := by
  simp only [scoreStep_eq_ok] at ha hb ⊢
  rcases ha with ⟨hna, rfl⟩ | ⟨hma, hva, hca, rfl⟩
  · exact ⟨s₂, hb, .inl ⟨hna, rfl⟩⟩
  · rcases hb with ⟨hnb, rfl⟩ | ⟨hmb, hvb, hcb, rfl⟩
    · exact ⟨s, .inl ⟨hnb, rfl⟩, .inr ⟨hma, hva, hca, rfl⟩⟩
    · -- the second id is not the first, which is already there
      have hne : a.entryId ≠ b.entryId := by
        intro he
        rw [OrdMap.contains, OrdMap.get?_insert, if_pos he] at hcb
        cases hcb
      have hcb' : s.contains b.entryId = false := by
        rwa [OrdMap.contains, OrdMap.get?_insert, if_neg hne] at hcb
      refine ⟨_, .inr ⟨hmb, hvb, hcb', rfl⟩, .inr ⟨hma, hva, ?_, ?_⟩⟩
      · rwa [OrdMap.contains, OrdMap.get?_insert, if_neg (Ne.symm hne)]
      · apply OrdMap.ext_get?
        intro k
        simp only [OrdMap.get?_insert]
        by_cases hka : a.entryId = k
        · rw [if_pos hka, if_pos hka, if_neg]
          exact fun hkb => hne (hka.trans hkb.symm)
        · rw [if_neg hka, if_neg hka]

theorem normalizeSemanticScores_perm {entries : List KnowledgeEntry}
    {supplied supplied' : List SemanticKnowledgeScore} (hp : supplied.Perm supplied')
    {scores : OrdMap KnowledgeEntryId UInt32 × OrdMap KnowledgeEntryId Nat}
    (h : normalizeSemanticScores entries supplied = .ok scores) :
    normalizeSemanticScores entries supplied' = .ok scores := by
  unfold normalizeSemanticScores at h ⊢
  rw [bind_eq_ok] at h ⊢
  obtain ⟨inserted, hinsert, h⟩ := h
  refine ⟨inserted, ?_, h⟩
  refine foldlM_ok_perm ?_ hp hinsert
  intro s s₁ s₂ a b ha hb
  exact scoreStep_comm ha hb

/-! ## Selections -/

variable {lib : KnowledgeExternals}

theorem selectNormalized_follows (book : KnowledgeBook) (context : KnowledgeSelectionContext)
    (entries sorted : List KnowledgeEntry) {scores : List SemanticKnowledgeScore}
    (hscores : context.semanticScores.Perm scores) :
    Follows (selectNormalized lib book context sorted)
      (selectNormalized lib { book with entries := entries }
        { context with semanticScores := scores } sorted) := by
  have htail : ∀ (book : KnowledgeBook) (context : KnowledgeSelectionContext)
      (regexes : CompiledRegexes), Scripted (lift (normalizeSemanticScores sorted
        context.semanticScores) >>= fun scores =>
          (passOf lib book context sorted regexes scores).select book context.scanTexts) :=
    fun _ _ _ => (transparent_lift _).bind fun _ => passSelect_scripted _ _ _
  refine .bind (compileRegexes_scripted _) (compileRegexes_scripted _)
    (fun regexes => htail book context regexes) (fun regexes => htail _ _ regexes) (.refl _)
    fun regexes => ?_
  -- the passes read neither the book's entries nor the scores as supplied
  exact .bind (transparent_lift _) (transparent_lift _) (fun _ => passSelect_scripted _ _ _)
    (fun _ => passSelect_scripted _ _ _)
    (follows_lift fun _ h => normalizeSemanticScores_perm hscores h) fun _ => .refl _

theorem selectWithBudget_follows {book : KnowledgeBook} (context : KnowledgeSelectionContext)
    {entries : List KnowledgeEntry} {scores : List SemanticKnowledgeScore}
    (hentries : book.entries.Perm entries) (hscores : context.semanticScores.Perm scores)
    (hvalid : validateBook book = .ok ()) :
    Follows (selectWithBudget lib book context)
      (selectWithBudget lib { book with entries := entries }
        { context with semanticScores := scores }) := by
  have hsort : normalizedEntries { book with entries := entries } = normalizedEntries book := by
    unfold normalizedEntries
    rw [sortEntries_perm hentries (validateBook_nodup hvalid)]
  have htail : ∀ (book : KnowledgeBook) (context : KnowledgeSelectionContext),
      Scripted (lift (normalizedEntries book) >>= fun entries =>
        selectNormalized lib book context entries) :=
    fun _ _ => (transparent_lift _).bind fun _ => selectNormalized_scripted _ _ _
  refine .bind (transparent_lift _) (transparent_lift _)
    (fun _ => (chargeBookNormalization_scripted _).bind fun _ => htail _ _)
    (fun _ => (chargeBookNormalization_scripted _).bind fun _ => htail _ _)
    (follows_lift fun _ h => validateBook_perm hentries h) fun _ => ?_
  refine .bind (chargeBookNormalization_scripted _) (chargeBookNormalization_scripted _)
    (fun _ => htail _ _) (fun _ => htail _ _) (chargeBookNormalization_follows hentries) fun _ => ?_
  rw [hsort]
  exact .bind (transparent_lift _) (transparent_lift _) (fun _ => selectNormalized_scripted _ _ _)
    (fun _ => selectNormalized_scripted _ _ _) (.refl _)
    fun sorted => selectNormalized_follows book context entries sorted hscores

/-- **Order independence.** A selection that succeeds succeeds over permuted entries and permuted
semantic scores, with the same selection and the same work. -/
theorem selectWithBudget_perm (lib : KnowledgeExternals) (book : KnowledgeBook)
    (context : KnowledgeSelectionContext) (entries : List KnowledgeEntry)
    (scores : List SemanticKnowledgeScore) (hentries : book.entries.Perm entries)
    (hscores : context.semanticScores.Perm scores) (budget after : KnowledgeWorkBudget)
    (selection : KnowledgeSelection)
    (h : selectWithBudget lib book context budget = (.ok selection, after)) :
    selectWithBudget lib { book with entries := entries } { context with semanticScores := scores }
      budget = (.ok selection, after) := by
  have hvalid : validateBook book = .ok () := by
    obtain ⟨⟨⟩, _, hlift, -⟩ := bind_run_eq_ok.1 h
    exact (lift_run_eq_ok.1 hlift).1
  exact (selectWithBudget_follows context hentries hscores hvalid).run
    (selectWithBudget_scripted _ _) (selectWithBudget_scripted _ _) h

/-- Two entries that compete for one semantic place. -/
def rankedBook : KnowledgeBook :=
  { sampleBook with
    entries := [sampleEntry "tide" "The moon pulls." (.semantic ⟨false, 126, 0⟩ 1),
      sampleEntry "harbor" "The harbor sleeps." (.semantic ⟨false, 126, 0⟩ 1)] }

/-- Scores of one and one half. -/
def rankedContext : KnowledgeSelectionContext :=
  { sampleSelectionContext with
    semanticScores := [⟨"tide", ⟨false, 127, 0⟩⟩, ⟨"harbor", ⟨false, 126, 0⟩⟩] }

theorem selectWithBudget_perm_rankedBook : ∃ selection after,
    selectWithBudget asciiExternals rankedBook rankedContext defaultWorkBudget =
        (.ok selection, after) ∧
      selectWithBudget asciiExternals { rankedBook with entries := rankedBook.entries.reverse }
        { rankedContext with semanticScores := rankedContext.semanticScores.reverse }
          defaultWorkBudget = (.ok selection, after) ∧ after.used = 119 := by
  obtain ⟨selection, after, h, hused⟩ := chargedWork_eq_some (show chargedWork (selectWithBudget
    asciiExternals rankedBook rankedContext defaultWorkBudget) = some 119 by decide +kernel)
  exact ⟨selection, after, h, selectWithBudget_perm _ _ _ _ _ (List.reverse_perm _).symm
    (List.reverse_perm _).symm _ _ _ h, hused⟩

end LorePia
