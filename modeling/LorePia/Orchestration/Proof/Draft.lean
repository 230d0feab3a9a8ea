import LorePia.Orchestration.Draft

/-!
# Merging and cutting drafts

* Merging keeps every list field of the drafts as a whole (`mergeSameRoleMessages_flatMap`) and any
  property that a merge keeps (`mergeSameRoleMessages_forall`).
* A cut keeps each message but for its content (`Shortened`), never leaves an empty one, and keeps
  a suffix (`trimMessages` from the head, `keepLatestItems`) or a prefix of the messages.
* `Lawful` is the contract of an estimator: a cut text fits its budget and grows with it. Under it
  the tokens of a trimmed list fit the target and grow with it (`trimMessages_le`,
  `trimMessages_mono`). The UTF-8 estimator is lawful (`utf8TokenEstimator_lawful`).
-/

namespace LorePia

open Base

variable {est : TokenEstimator}

/-! ## Merging -/

theorem flatMap_sublist {α β : Type} (f : α → List β) : ∀ {l l' : List α}, l.Sublist l' →
    (l.flatMap f).Sublist (l'.flatMap f)
  | _, _, .slnil => .refl _
  | _, _, .cons a h => (flatMap_sublist f h).trans (List.sublist_append_right _ _)
  | _, _, .cons_cons a h => (List.Sublist.refl _).append (flatMap_sublist f h)

theorem mergeFrom_flatMap {α : Type} {f : DraftMessage → List α}
    (hf : ∀ a b, f (mergeInto a b) = f a ++ f b) :
    ∀ (l : List DraftMessage) (m : DraftMessage), (mergeFrom m l).flatMap f = f m ++ l.flatMap f
  | [], m => by simp [mergeFrom]
  | a :: l, m => by
    unfold mergeFrom
    split
    · rw [mergeFrom_flatMap hf l, hf, List.flatMap_cons, List.append_assoc]
    · rw [List.flatMap_cons, mergeFrom_flatMap hf l, List.flatMap_cons]

/-- **Merging keeps the list fields of the drafts, taken together.** -/
theorem mergeSameRoleMessages_flatMap {α : Type} {f : DraftMessage → List α}
    (hf : ∀ a b, f (mergeInto a b) = f a ++ f b) (l : List DraftMessage) :
    (mergeSameRoleMessages l).flatMap f = l.flatMap f := by
  cases l with
  | nil => rfl
  | cons m l => rw [mergeSameRoleMessages, mergeFrom_flatMap hf, List.flatMap_cons]

theorem mergeFrom_forall {P : DraftMessage → Prop}
    (hP : ∀ a b, P a → P b → mergesWith a b = true → P (mergeInto a b)) :
    ∀ (l : List DraftMessage) (m : DraftMessage), P m → (∀ a ∈ l, P a) →
      ∀ a ∈ mergeFrom m l, P a
  | [], m, hm, _, a, ha => by
    simp only [mergeFrom, List.mem_singleton] at ha
    exact ha ▸ hm
  | b :: l, m, hm, hl, a, ha => by
    rw [List.forall_mem_cons] at hl
    unfold mergeFrom at ha
    split at ha
    · rename_i hw
      exact mergeFrom_forall hP l _ (hP m b hm hl.1 hw) hl.2 a ha
    · rcases List.mem_cons.1 ha with rfl | ha
      · exact hm
      · exact mergeFrom_forall hP l b hl.1 hl.2 a ha

/-- Merging keeps what a single merge keeps. -/
theorem mergeSameRoleMessages_forall {P : DraftMessage → Prop}
    (hP : ∀ a b, P a → P b → mergesWith a b = true → P (mergeInto a b)) {l : List DraftMessage}
    (hl : ∀ a ∈ l, P a) : ∀ a ∈ mergeSameRoleMessages l, P a := by
  cases l with
  | nil => exact hl
  | cons m l => exact mergeFrom_forall hP l m (hl m (by simp)) fun a ha => hl a (by simp [ha])

theorem mergeFrom_length : ∀ (l : List DraftMessage) (m : DraftMessage),
    (mergeFrom m l).length ≤ l.length + 1
  | [], _ => by simp [mergeFrom]
  | a :: l, m => by
    unfold mergeFrom
    split
    · exact (mergeFrom_length l _).trans (by simp)
    · simpa using mergeFrom_length l a

theorem mergeSameRoleMessages_length (l : List DraftMessage) :
    (mergeSameRoleMessages l).length ≤ l.length := by
  cases l with
  | nil => exact Nat.le_refl _
  | cons m l => exact mergeFrom_length l m

/-- A message that differs from `m` in its content only, and is not empty unless `m` is. -/
def Shortened (m m' : DraftMessage) : Prop :=
  (∃ content, m' = { m with content := content }) ∧ (m.content ≠ "" → m'.content ≠ "")

theorem Shortened.refl (m : DraftMessage) : Shortened m m := ⟨⟨m.content, rfl⟩, id⟩

/-! ## Shapes of the cuts -/

/-- The messages `l'` are those of a prefix of `l`, each up to its content. -/
def ShortenedPrefix (l l' : List DraftMessage) : Prop :=
  ∃ k, l'.length = k ∧ List.Forall₂ Shortened (l.take k) l'

theorem ShortenedPrefix.nil (l : List DraftMessage) : ShortenedPrefix l [] :=
  ⟨0, rfl, by simp⟩

theorem ShortenedPrefix.cons {l l' : List DraftMessage} {m m' : DraftMessage}
    (hm : Shortened m m') (h : ShortenedPrefix l l') : ShortenedPrefix (m :: l) (m' :: l') := by
  obtain ⟨k, hk, hf⟩ := h
  exact ⟨k + 1, by simp [hk], by simpa using ⟨hm, hf⟩⟩

theorem trimLoop_shortened (d : TrimDirection) : ∀ (l : List DraftMessage) (r : UInt32),
    ShortenedPrefix l (trimLoop est d r l)
  | [], _ => .nil _
  | m :: l, r => by
    unfold trimLoop
    split
    · exact .nil _
    · split
      · exact .cons (.refl m) (trimLoop_shortened d l _)
      · simp only []
        split
        · exact .nil _
        · rename_i hne
          refine .cons ⟨⟨_, rfl⟩, fun _ he => hne ?_⟩ (.nil _)
          simpa using he

theorem keepLoop_isPrefix : ∀ (l : List DraftMessage) (r : UInt32), keepLoop est r l <+: l
  | [], _ => List.prefix_refl _
  | m :: l, r => by
    unfold keepLoop
    split
    · exact List.nil_prefix
    · exact List.cons_prefix_cons.2 ⟨rfl, keepLoop_isPrefix l _⟩

/-! ## Lawful estimators -/

/-- The contract of an estimator. -/
structure TokenEstimator.Lawful (est : TokenEstimator) : Prop where
  estimate_eq_zero : ∀ text, est.estimateText text = 0 ↔ text.isEmpty = true
  cut_le : ∀ d text n, est.estimateText (est.cut d text n) ≤ n
  cut_mono : ∀ d text {n m : UInt32}, n ≤ m →
    est.estimateText (est.cut d text n) ≤ est.estimateText (est.cut d text m)

theorem toNat_maxTokenBytes (n : UInt32) : maxTokenBytes n = n.toNat * 4 := by
  have := toNat_le_u32Max n
  unfold maxTokenBytes usizeMax
  unfold u32Max at this
  omega

/-- The estimate grows with the number of bytes. -/
theorem utf8_estimateText_toNat (text : String) :
    (utf8TokenEstimator.estimateText text).toNat = min ((text.utf8ByteSize + 3) / 4) u32Max := by
  simp only [utf8TokenEstimator]
  split
  · rename_i h
    rw [String.isEmpty_iff] at h
    subst h
    rfl
  · exact toNat_u32FromSat _

theorem utf8_cut_le (d : TrimDirection) (text : String) (n : UInt32) :
    (utf8TokenEstimator.cut d text n).utf8ByteSize ≤ n.toNat * 4 := by
  rw [← toNat_maxTokenBytes]
  cases d
  · exact keepUtf8Suffix_le _ _
  · exact keepUtf8Prefix_le _ _

theorem utf8_cut_mono (d : TrimDirection) (text : String) {n m : UInt32} (h : n ≤ m) :
    (utf8TokenEstimator.cut d text n).utf8ByteSize ≤
      (utf8TokenEstimator.cut d text m).utf8ByteSize := by
  have hb : maxTokenBytes n ≤ maxTokenBytes m := by
    rw [toNat_maxTokenBytes, toNat_maxTokenBytes]
    exact Nat.mul_le_mul_right _ h
  cases d
  · exact keepUtf8Suffix_mono text hb
  · exact keepUtf8Prefix_mono text hb

theorem utf8TokenEstimator_lawful : utf8TokenEstimator.Lawful where
  estimate_eq_zero text := by
    rw [← UInt32.toNat_inj, utf8_estimateText_toNat, String.isEmpty_iff,
      ← String.utf8ByteSize_eq_zero_iff, u32Max]
    show min _ _ = 0 ↔ _
    omega
  cut_le d text n := by
    have hcut := utf8_cut_le d text n
    rw [UInt32.le_iff_toNat_le, utf8_estimateText_toNat]
    omega
  cut_mono d text n m h := by
    have hcut := utf8_cut_mono d text h
    rw [UInt32.le_iff_toNat_le, utf8_estimateText_toNat, utf8_estimateText_toNat]
    omega

/-! ## Tokens of the cuts -/

theorem estimateMessage_toNat (est : TokenEstimator) (content : String) :
    (est.estimateMessage content).toNat = min ((est.estimateText content).toNat + 4) u32Max := by
  rw [TokenEstimator.estimateMessage, toNat_satAdd]
  rfl

theorem four_le_estimateMessage (est : TokenEstimator) (content : String) :
    4 ≤ (est.estimateMessage content).toNat := by
  rw [estimateMessage_toNat, u32Max]
  omega

/-- The exact token sum of some drafts. -/
def draftSum (est : TokenEstimator) (l : List DraftMessage) : Nat := exactSum (draftTokens est l)

@[simp] theorem draftSum_nil : draftSum est [] = 0 := rfl

@[simp] theorem draftSum_cons (m : DraftMessage) (l : List DraftMessage) :
    draftSum est (m :: l) = (est.estimateMessage m.content).toNat + draftSum est l := by
  simp [draftSum, draftTokens]

@[simp] theorem draftSum_reverse (l : List DraftMessage) :
    draftSum est l.reverse = draftSum est l := by
  simp [draftSum, draftTokens]

theorem draftSum_append (l k : List DraftMessage) :
    draftSum est (l ++ k) = draftSum est l + draftSum est k := by
  simp [draftSum, draftTokens]

theorem estimatedTokensWith_toNat (b : MaterializedBlock) :
    (b.estimatedTokensWith est).toNat = min (draftSum est b.messages) u32Max := toNat_satSum _

/-- The cost of a cut message: nothing when the cut is empty. -/
theorem cut_cost (law : est.Lawful) (d : TrimDirection) (m : DraftMessage) {r : UInt32}
    (hr : ¬ r ≤ messageOverheadTokens) :
    draftSum est (if (est.cut d m.content (satSub r messageOverheadTokens)).isEmpty then []
      else [{ m with content := est.cut d m.content (satSub r messageOverheadTokens) }]) =
        let text := est.estimateText (est.cut d m.content (satSub r messageOverheadTokens))
        if text = 0 then 0 else text.toNat + 4 := by
  have hle := law.cut_le d m.content (satSub r messageOverheadTokens)
  have hmax := toNat_le_u32Max r
  rw [UInt32.le_iff_toNat_le, toNat_satSub] at hle
  rw [UInt32.not_le, UInt32.lt_iff_toNat_lt] at hr
  have h4 : messageOverheadTokens.toNat = 4 := rfl
  by_cases he : (est.cut d m.content (satSub r messageOverheadTokens)).isEmpty = true
  · have h0 := (law.estimate_eq_zero _).2 he
    simp [he, h0]
  · have h0 : ¬ est.estimateText (est.cut d m.content (satSub r messageOverheadTokens)) = 0 :=
      fun h => he ((law.estimate_eq_zero _).1 h)
    simp only [he, h0, if_false, Bool.false_eq_true, draftSum_cons, draftSum_nil,
      estimateMessage_toNat]
    omega

/-- **A trimmed list fits its target.** -/
theorem trimLoop_le (law : est.Lawful) (d : TrimDirection) : ∀ (l : List DraftMessage) (r : UInt32),
    draftSum est (trimLoop est d r l) ≤ r.toNat
  | [], r => Nat.zero_le _
  | m :: l, r => by
    unfold trimLoop
    split
    · exact Nat.zero_le _
    · rename_i hr
      split
      · rename_i hc
        have ih := trimLoop_le law d l (satSub r (est.estimateMessage m.content))
        rw [toNat_satSub] at ih
        rw [UInt32.le_iff_toNat_le] at hc
        rw [draftSum_cons]
        omega
      · have hle := law.cut_le d m.content (satSub r messageOverheadTokens)
        rw [UInt32.le_iff_toNat_le, toNat_satSub] at hle
        have h4 : messageOverheadTokens.toNat = 4 := rfl
        show draftSum est (if _ then _ else _) ≤ _
        rw [cut_cost law d m hr]
        rw [UInt32.not_le, UInt32.lt_iff_toNat_lt] at hr
        simp only []
        split <;> omega

/-- **A trimmed list grows with its target.** -/
theorem trimLoop_mono (law : est.Lawful) (d : TrimDirection) : ∀ (l : List DraftMessage)
    {r r' : UInt32}, r ≤ r' →
      draftSum est (trimLoop est d r l) ≤ draftSum est (trimLoop est d r' l)
  | [], _, _, _ => Nat.le_refl _
  | m :: l, r, r', h => by
    have hfit := trimLoop_le law d (m :: l) r
    have hn := UInt32.le_iff_toNat_le.1 h
    unfold trimLoop at hfit ⊢
    by_cases hr : r ≤ messageOverheadTokens
    · simp [hr]
    · have hr' : ¬ r' ≤ messageOverheadTokens := fun h' => hr (UInt32.le_trans h h')
      simp only [hr, hr', if_false] at hfit ⊢
      by_cases hc : est.estimateMessage m.content ≤ r
      · have hsub : satSub r (est.estimateMessage m.content) ≤
            satSub r' (est.estimateMessage m.content) := by
          rw [UInt32.le_iff_toNat_le, toNat_satSub, toNat_satSub]
          omega
        simp only [hc, UInt32.le_trans hc h, if_true, draftSum_cons]
        have := trimLoop_mono law d l hsub
        omega
      · by_cases hc' : est.estimateMessage m.content ≤ r'
        · -- the message fits the larger target whole, and the smaller result fits the smaller one
          simp only [hc, if_false] at hfit ⊢
          simp only [hc', if_true, draftSum_cons]
          rw [UInt32.not_le, UInt32.lt_iff_toNat_lt] at hc
          omega
        · simp only [hc, hc', if_false]
          rw [cut_cost law d m hr, cut_cost law d m hr']
          have hsub : satSub r messageOverheadTokens ≤ satSub r' messageOverheadTokens := by
            rw [UInt32.le_iff_toNat_le, toNat_satSub, toNat_satSub]
            omega
          have hmono := UInt32.le_iff_toNat_le.1 (law.cut_mono d m.content hsub)
          simp only []
          split
          · exact Nat.zero_le _
          · rename_i h0
            rw [← UInt32.toNat_inj] at h0
            rw [if_neg]
            · omega
            · rw [← UInt32.toNat_inj]
              have hz : (0 : UInt32).toNat = 0 := rfl
              omega

theorem trimMessages_le (law : est.Lawful) (d : TrimDirection) (l : List DraftMessage)
    (t : UInt32) : draftSum est (trimMessages est d l t) ≤ t.toNat := by
  cases d
  · rw [trimMessages, draftSum_reverse]
    exact trimLoop_le law _ _ _
  · exact trimLoop_le law _ _ _

theorem trimMessages_mono (law : est.Lawful) (d : TrimDirection) (l : List DraftMessage)
    {t t' : UInt32} (h : t ≤ t') :
    draftSum est (trimMessages est d l t) ≤ draftSum est (trimMessages est d l t') := by
  cases d
  · rw [trimMessages, trimMessages, draftSum_reverse, draftSum_reverse]
    exact trimLoop_mono law _ _ h
  · exact trimLoop_mono law _ _ h

theorem keepLoop_le : ∀ (l : List DraftMessage) (r : UInt32), draftSum est (keepLoop est r l) ≤ r.toNat
  | [], _ => Nat.zero_le _
  | m :: l, r => by
    unfold keepLoop
    split
    · exact Nat.zero_le _
    · rename_i hc
      rw [gt_iff_lt, UInt32.not_lt] at hc
      have ih := keepLoop_le l (r - est.estimateMessage m.content)
      rw [UInt32.toNat_sub_of_le _ _ hc] at ih
      rw [UInt32.le_iff_toNat_le] at hc
      rw [draftSum_cons]
      omega

theorem keepLoop_mono : ∀ (l : List DraftMessage) {r r' : UInt32}, r ≤ r' →
    draftSum est (keepLoop est r l) ≤ draftSum est (keepLoop est r' l)
  | [], _, _, _ => Nat.le_refl _
  | m :: l, r, r', h => by
    unfold keepLoop
    by_cases hc : est.estimateMessage m.content > r
    · simp [hc]
    · have hc' : ¬ est.estimateMessage m.content > r' := by
        rw [gt_iff_lt, UInt32.not_lt] at hc ⊢
        exact UInt32.le_trans hc h
      simp only [hc, hc', if_false, draftSum_cons]
      rw [gt_iff_lt, UInt32.not_lt] at hc hc'
      have hsub : r - est.estimateMessage m.content ≤ r' - est.estimateMessage m.content := by
        rw [UInt32.le_iff_toNat_le] at h ⊢
        rw [UInt32.toNat_sub_of_le _ _ hc, UInt32.toNat_sub_of_le _ _ hc']
        omega
      have ih := keepLoop_mono l hsub
      omega

theorem keepLatestItems_le (l : List DraftMessage) (t : UInt32) :
    draftSum est (keepLatestItems est l t) ≤ t.toNat := by
  rw [keepLatestItems, draftSum_reverse]
  exact keepLoop_le _ _

theorem keepLatestItems_mono (l : List DraftMessage) {t t' : UInt32} (h : t ≤ t') :
    draftSum est (keepLatestItems est l t) ≤ draftSum est (keepLatestItems est l t') := by
  rw [keepLatestItems, keepLatestItems, draftSum_reverse, draftSum_reverse]
  exact keepLoop_mono _ h

end LorePia
