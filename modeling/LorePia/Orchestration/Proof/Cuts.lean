import LorePia.Orchestration.Proof.BudgetMono

/-!
# How far the cuts go

The three ways to cut a block's messages remove no more than they have to. `keep_latest_items` is the
forward loop that removes the oldest message while the exact costs exceed the target
(`keepLatestItems_refines`). `trim_messages` keeps whole messages from one end and then as much of the
next message as fits (`LongestCut`). So a block that the global budget takes below its floor lacks one
message, or the overhead of one, unless its policy gives the messages up as a whole (`FloorKept`).
-/

namespace LorePia

open Base

variable {est : TokenEstimator} {request : PromptResolveRequest}

/-! ## The latest items -/

/-- Removes the oldest message while the exact costs of the messages exceed the target. -/
def dropOldest (est : TokenEstimator) (target : Nat) : List DraftMessage → List DraftMessage
  | [] => []
  | message :: rest =>
    if target < draftSum est (message :: rest) then dropOldest est target rest else message :: rest

theorem dropOldest_of_le {target : Nat} : ∀ {l : List DraftMessage}, draftSum est l ≤ target →
    dropOldest est target l = l
  | [], _ => rfl
  | _ :: _, h => if_neg (Nat.not_lt.2 h)

/-- Messages that make every remaining list too long are all removed. -/
theorem dropOldest_append {target : Nat} (message : DraftMessage) (kept : List DraftMessage)
    (h : target < draftSum est (message :: kept)) : ∀ front : List DraftMessage,
    dropOldest est target (front ++ message :: kept) = dropOldest est target kept
  | [] => if_pos h
  | oldest :: front => by
    have hsum : target < draftSum est (oldest :: (front ++ message :: kept)) := by
      rw [draftSum_cons, draftSum_append]
      omega
    rw [List.cons_append, dropOldest, if_pos hsum]
    exact dropOldest_append message kept h front

/-- The loop stops at the end of the list or at a message that does not fit any more. -/
theorem keepLoop_stop (est : TokenEstimator) : ∀ (l : List DraftMessage) (r : UInt32),
    keepLoop est r l = l ∨ ∃ message rest, l = keepLoop est r l ++ message :: rest ∧
      r.toNat < draftSum est (keepLoop est r l) + (est.estimateMessage message.content).toNat
  | [], _ => .inl rfl
  | message :: l, r => by
    unfold keepLoop
    split
    · rename_i hc
      refine .inr ⟨message, l, rfl, ?_⟩
      rw [draftSum_nil, Nat.zero_add]
      exact UInt32.lt_iff_toNat_lt.1 hc
    · rename_i hc
      rw [gt_iff_lt, UInt32.not_lt] at hc
      have hsub := UInt32.toNat_sub_of_le _ _ hc
      rw [UInt32.le_iff_toNat_le] at hc
      rcases keepLoop_stop est l (r - est.estimateMessage message.content) with hall | ⟨next, rest, hl, hnext⟩
      · exact .inl (by rw [hall])
      · refine .inr ⟨next, rest, ?_, ?_⟩
        · rw [List.cons_append, ← hl]
        · rw [draftSum_cons]
          omega

/-- The latest items are all, or the message before them does not fit. -/
theorem keepLatestItems_stop (est : TokenEstimator) (messages : List DraftMessage) (t : UInt32) :
    keepLatestItems est messages t = messages ∨
      ∃ front message, messages = front ++ message :: keepLatestItems est messages t ∧
        t.toNat < draftSum est (message :: keepLatestItems est messages t) := by
  unfold keepLatestItems
  rcases keepLoop_stop est messages.reverse t with hall | ⟨message, rest, hl, hnext⟩
  · exact .inl (by rw [hall, List.reverse_reverse])
  · refine .inr ⟨rest.reverse, message, ?_, ?_⟩
    · have hreversed := congrArg List.reverse hl
      rw [List.reverse_reverse, List.reverse_append, List.reverse_cons, List.append_assoc,
        List.singleton_append] at hreversed
      exact hreversed
    · rw [draftSum_cons, draftSum_reverse]
      omega

/-- **The single pass keeps what the forward loop keeps.** -/
theorem keepLatestItems_refines (est : TokenEstimator) (messages : List DraftMessage)
    (targetTokens : UInt32) :
    keepLatestItems est messages targetTokens = dropOldest est targetTokens.toNat messages ∧
      keepLatestItems est messages targetTokens <:+ messages ∧
      draftSum est (keepLatestItems est messages targetTokens) ≤ targetTokens.toNat ∧
      ∀ front message, messages = front ++ message :: keepLatestItems est messages targetTokens →
        targetTokens.toNat < draftSum est (message :: keepLatestItems est messages targetTokens) := by
  have hle : draftSum est (keepLatestItems est messages targetTokens) ≤ _ := keepLatestItems_le messages targetTokens
  rcases keepLatestItems_stop est messages targetTokens with hall | ⟨front, message, hl, hnext⟩
  · rw [hall] at hle ⊢
    refine ⟨(dropOldest_of_le hle).symm, List.suffix_refl _, hle, fun front message hl => ?_⟩
    -- nothing precedes the whole list
    have hlength := congrArg List.length hl
    rw [List.length_append, List.length_cons] at hlength
    omega
  · refine ⟨?_, ⟨front ++ [message], ?_⟩, hle, fun front' message' hl' => ?_⟩
    · conv => rhs; rw [hl]
      rw [dropOldest_append message _ hnext front, dropOldest_of_le hle]
    · rw [List.append_assoc, List.singleton_append]
      exact hl.symm
    · have hsame := hl.symm.trans hl'
      rw [← List.singleton_append, ← List.append_assoc] at hsame
      conv at hsame => rhs; rw [← List.singleton_append, ← List.append_assoc]
      have hlast := List.append_cancel_right hsame
      rw [List.append_singleton_inj] at hlast
      exact hlast.2 ▸ hnext

/-! ## Trims -/

/-- The end that is kept and then what follows it, in the order of the text. -/
def TrimDirection.join {α : Type} (direction : TrimDirection) (kept rest : List α) : List α :=
  match direction with
  | .head => rest ++ kept
  | .tail => kept ++ rest

/-- `piece` is the end of `text` that the direction keeps, cut between two characters. -/
def IsCut (direction : TrimDirection) (piece text : String) : Prop :=
  match direction with
  | .head => piece.toList <:+ text.toList
  | .tail => piece.toList <+: text.toList

/-- A cut with fewer bytes is a proper one. -/
theorem IsCut.length_lt {d : TrimDirection} {piece text : String} (h : IsCut d piece text)
    (hlt : piece.utf8ByteSize < text.utf8ByteSize) : piece.length < text.length := by
  have hlength : piece.toList.length ≤ text.toList.length := by
    cases d with
    | head => exact List.IsSuffix.length_le h
    | tail => exact List.IsPrefix.length_le h
  rw [← String.length_toList, ← String.length_toList]
  refine Nat.lt_of_le_of_ne hlength fun heq => Nat.ne_of_lt hlt ?_
  have hsame : piece.toList = text.toList := by
    cases d with
    | head => exact List.IsSuffix.eq_of_length h heq
    | tail => exact List.IsPrefix.eq_of_length h heq
  rw [String.toList_inj.1 hsame]

/-- **The cut of the UTF-8 estimator is the longest within its bytes.** -/
theorem utf8_cut_longest (d : TrimDirection) (text : String) (n : UInt32)
    (hlong : n.toNat * 4 < text.utf8ByteSize) :
    IsCut d (utf8TokenEstimator.cut d text n) text ∧
      n.toNat * 4 ≤ (utf8TokenEstimator.cut d text n).utf8ByteSize + 3 ∧
      ∀ piece, IsCut d piece text → (utf8TokenEstimator.cut d text n).length < piece.length →
        n.toNat * 4 < piece.utf8ByteSize := by
  have hnot : ¬ text.utf8ByteSize ≤ maxTokenBytes n := by
    rw [toNat_maxTokenBytes]
    omega
  cases d with
  | head =>
    have hcut : utf8TokenEstimator.cut .head text n =
        String.ofList (dropBytes (text.utf8ByteSize - n.toNat * 4) text.toList) := by
      rw [← toNat_maxTokenBytes]
      exact if_neg hnot
    have hge := utf8Len_dropBytes_ge (text.utf8ByteSize - n.toNat * 4) text.toList
    rw [String.utf8Len_toList] at hge
    rw [hcut, String.utf8ByteSize_ofList]
    refine ⟨?_, by omega, fun piece hpiece hlonger => ?_⟩
    · rw [IsCut, String.toList_ofList]
      exact dropBytes_suffix _ _
    · by_contra hfits
      have hin := dropBytes_maximal (n := text.utf8ByteSize - n.toNat * 4) hpiece (by
        rw [String.utf8Len_toList, String.utf8Len_toList]
        omega)
      rw [String.length_ofList, ← String.length_toList] at hlonger
      exact Nat.not_le.2 hlonger hin.length_le
  | tail =>
    have hcut : utf8TokenEstimator.cut .tail text n =
        String.ofList (takeBytes (n.toNat * 4) text.toList) := by
      rw [← toNat_maxTokenBytes]
      exact if_neg hnot
    have hge := utf8Len_takeBytes_ge (n.toNat * 4) text.toList (by
      rw [String.utf8Len_toList]
      omega)
    rw [hcut, String.utf8ByteSize_ofList]
    refine ⟨?_, hge, fun piece hpiece hlonger => ?_⟩
    · rw [IsCut, String.toList_ofList]
      exact takeBytes_isPrefix _ _
    · by_contra hfits
      have hin := takeBytes_maximal (n := n.toNat * 4) hpiece (by
        rw [String.utf8Len_toList]
        omega)
      rw [String.length_ofList, ← String.length_toList] at hlonger
      exact Nat.not_le.2 hlonger hin.length_le

/-- A text that does not fit `r` with its overhead has more bytes than its cut may have. -/
theorem utf8_bytes_of_lt {content : String} {r : UInt32} (hr : ¬ r ≤ messageOverheadTokens)
    (h : ¬ utf8TokenEstimator.estimateMessage content ≤ r) :
    (satSub r messageOverheadTokens).toNat * 4 < content.utf8ByteSize := by
  rw [UInt32.not_le, UInt32.lt_iff_toNat_lt] at hr h
  rw [estimateMessage_toNat, utf8_estimateText_toNat] at h
  have h4 : messageOverheadTokens.toNat = 4 := rfl
  rw [toNat_satSub]
  omega

/-- A text with more bytes than a cut may have does not fit. -/
theorem utf8_lt_of_bytes {piece : String} {r : UInt32} (hr : ¬ r ≤ messageOverheadTokens)
    (hfull : r.toNat < u32Max) (h : (satSub r messageOverheadTokens).toNat * 4 < piece.utf8ByteSize) :
    r.toNat < (utf8TokenEstimator.estimateMessage piece).toNat := by
  have h4 : messageOverheadTokens.toNat = 4 := rfl
  rw [UInt32.not_le, UInt32.lt_iff_toNat_lt] at hr
  rw [toNat_satSub] at h
  rw [estimateMessage_toNat, utf8_estimateText_toNat]
  omega

/-- The piece of a message that a trim keeps. -/
def pieceOf (boundary : DraftMessage) (piece : String) : List DraftMessage :=
  if piece.isEmpty then [] else [{ boundary with content := piece }]

/-- The piece of a message that is kept for `target` tokens behind whole messages of `used` tokens: a proper
cut, or nothing, and no longer cut fits. -/
structure LongestCut (direction : TrimDirection) (target used : Nat) (boundary : DraftMessage)
    (piece : String) : Prop where
  cut : IsCut direction piece boundary.content
  proper : boundary.content ≠ "" → piece.length < boundary.content.length
  longest : ∀ longer, IsCut direction longer boundary.content → piece.length < longer.length →
    target < used + (utf8TokenEstimator.estimateMessage longer).toNat

theorem LongestCut.weaken {d : TrimDirection} {target used more : Nat} {boundary : DraftMessage}
    {piece : String} (h : LongestCut d (target - more) used boundary piece) :
    LongestCut d target (more + used) boundary piece where
  cut := h.cut
  proper := h.proper
  longest longer hlonger hlt := by
    have := h.longest longer hlonger hlt
    omega

/-- The empty cut, when only the overhead of a message is left. -/
theorem longestCut_empty (d : TrimDirection) {r : UInt32} (hr : r ≤ messageOverheadTokens)
    (boundary : DraftMessage) : LongestCut d r.toNat 0 boundary "" where
  cut := by
    cases d with
    | head => exact List.nil_suffix
    | tail => exact List.nil_prefix
  proper hne := Nat.pos_of_ne_zero fun h => hne (String.length_eq_zero_iff.1 h)
  longest longer _ hlt := by
    have hbytes := length_le_utf8ByteSize longer
    have hpos : 0 < longer.length := hlt
    have h4 : messageOverheadTokens.toNat = 4 := rfl
    rw [UInt32.le_iff_toNat_le] at hr
    rw [estimateMessage_toNat, utf8_estimateText_toNat, u32Max]
    omega

/-- The cut of a message that does not fit. -/
theorem longestCut_cut (d : TrimDirection) {r : UInt32} {boundary : DraftMessage}
    (hr : ¬ r ≤ messageOverheadTokens)
    (h : ¬ utf8TokenEstimator.estimateMessage boundary.content ≤ r) :
    LongestCut d r.toNat 0 boundary
      (utf8TokenEstimator.cut d boundary.content (satSub r messageOverheadTokens)) := by
  obtain ⟨hcut, -, hlongest⟩ := utf8_cut_longest d boundary.content _ (utf8_bytes_of_lt hr h)
  have hfull : r.toNat < u32Max := by
    have := toNat_le_u32Max (utf8TokenEstimator.estimateMessage boundary.content)
    rw [UInt32.not_le, UInt32.lt_iff_toNat_lt] at h
    omega
  refine ⟨hcut, fun _ => hcut.length_lt ?_, fun longer hlonger hlt => ?_⟩
  · exact Nat.lt_of_le_of_lt (utf8_cut_le d _ _) (utf8_bytes_of_lt hr h)
  · rw [Nat.zero_add]
    exact utf8_lt_of_bytes hr hfull (hlongest longer hlonger hlt)

/-- The loop keeps whole messages to the end, or up to one of which it keeps the longest piece that fits. -/
theorem trimLoop_stop (d : TrimDirection) : ∀ (l : List DraftMessage) (r : UInt32),
    trimLoop utf8TokenEstimator d r l = l ∨ ∃ kept boundary rest piece,
      l = kept ++ boundary :: rest ∧
        trimLoop utf8TokenEstimator d r l = kept ++ pieceOf boundary piece ∧
        LongestCut d r.toNat (draftSum utf8TokenEstimator kept) boundary piece
  | [], _ => .inl rfl
  | message :: l, r => by
    unfold trimLoop
    split
    · rename_i hr
      exact .inr ⟨[], message, l, "", rfl, rfl, longestCut_empty d hr message⟩
    · rename_i hr
      split
      · rcases trimLoop_stop d l (satSub r (utf8TokenEstimator.estimateMessage message.content)) with
          hall | ⟨kept, boundary, rest, piece, hl, hresult, hlongest⟩
        · exact .inl (by rw [hall])
        · rw [toNat_satSub] at hlongest
          refine .inr ⟨message :: kept, boundary, rest, piece, by rw [hl]; rfl, by rw [hresult]; rfl, ?_⟩
          rw [draftSum_cons]
          exact hlongest.weaken
      · rename_i hc
        exact .inr ⟨[], message, l, _, rfl, rfl, longestCut_cut d hr hc⟩

/-- **What a trim keeps.** -/
theorem trimMessages_stop (d : TrimDirection) (messages : List DraftMessage) (t : UInt32) :
    trimMessages utf8TokenEstimator d messages t = messages ∨ ∃ kept boundary rest piece,
      messages = d.join kept (d.join [boundary] rest) ∧
        trimMessages utf8TokenEstimator d messages t = d.join kept (pieceOf boundary piece) ∧
        LongestCut d t.toNat (draftSum utf8TokenEstimator kept) boundary piece := by
  have hpiece : ∀ boundary piece, (pieceOf boundary piece).reverse = pieceOf boundary piece := by
    intro boundary piece
    unfold pieceOf
    split <;> rfl
  cases d with
  | tail => exact trimLoop_stop .tail messages t
  | head =>
    rw [trimMessages]
    rcases trimLoop_stop .head messages.reverse t with
      hall | ⟨kept, boundary, rest, piece, hl, hresult, hlongest⟩
    · exact .inl (by rw [hall, List.reverse_reverse])
    · refine .inr ⟨kept.reverse, boundary, rest.reverse, piece, ?_, ?_, ?_⟩
      · have hreversed := congrArg List.reverse hl
        rw [List.reverse_reverse, List.reverse_append, List.reverse_cons] at hreversed
        exact hreversed
      · rw [hresult, List.reverse_append, hpiece]
        rfl
      · rw [draftSum_reverse]
        exact hlongest

/-! ## A list that fits -/

/-- A list that fits loses nothing, unless it needs every token and ends in an empty message. -/
theorem trimLoop_of_le (law : est.Lawful) (d : TrimDirection) : ∀ (l : List DraftMessage) (r : UInt32),
    draftSum est l ≤ r.toNat → trimLoop est d r l = l ∨ ∃ rest last, l = rest ++ [last] ∧
      last.content = "" ∧ draftSum est l = r.toNat
  | [], _, _ => .inl rfl
  | message :: l, r, h => by
    have hfour := four_le_estimateMessage est message.content
    rw [draftSum_cons] at h
    unfold trimLoop
    split
    · rename_i hr
      have h4 : messageOverheadTokens.toNat = 4 := rfl
      rw [UInt32.le_iff_toNat_le] at hr
      refine .inr ⟨[], message, ?_, ?_, by rw [draftSum_cons]; omega⟩
      · cases l with
        | nil => rfl
        | cons next l =>
          have := four_le_estimateMessage est next.content
          rw [draftSum_cons] at h
          omega
      · have hzero : (est.estimateText message.content).toNat = 0 := by
          rw [estimateMessage_toNat, u32Max] at h
          omega
        exact String.isEmpty_iff.1 ((law.estimate_eq_zero _).1 (u32_ext hzero))
    · have hc : est.estimateMessage message.content ≤ r := by
        rw [UInt32.le_iff_toNat_le]
        omega
      rw [if_pos hc]
      have hrest := trimLoop_of_le law d l (satSub r (est.estimateMessage message.content)) (by
        rw [toNat_satSub]
        omega)
      rcases hrest with hall | ⟨rest, last, rfl, hlast, hsum⟩
      · exact .inl (by rw [hall])
      · rw [toNat_satSub] at hsum
        refine .inr ⟨message :: rest, last, rfl, hlast, ?_⟩
        rw [draftSum_cons]
        omega

/-- An empty message is not kept when only its overhead is left. -/
theorem trimLoop_exact (d : TrimDirection) : ∀ (rest : List DraftMessage) (last : DraftMessage) (r : UInt32),
    r.toNat = draftSum est rest + 4 → trimLoop est d r (rest ++ [last]) = rest
  | [], last, r, h => by
    have hr : r ≤ messageOverheadTokens := by
      rw [UInt32.le_iff_toNat_le, h]
      exact Nat.le_refl _
    exact if_pos hr
  | message :: rest, last, r, h => by
    have hfour := four_le_estimateMessage est message.content
    have h4 : messageOverheadTokens.toNat = 4 := rfl
    rw [draftSum_cons] at h
    have hr : ¬ r ≤ messageOverheadTokens := by
      rw [UInt32.le_iff_toNat_le]
      omega
    have hc : est.estimateMessage message.content ≤ r := by
      rw [UInt32.le_iff_toNat_le]
      omega
    rw [List.cons_append, trimLoop, if_neg hr, if_pos hc, trimLoop_exact d rest last _ (by
      rw [toNat_satSub]
      omega)]

/-- The messages need every token, and the one that is reached last is empty. -/
def EndsEmpty (est : TokenEstimator) (direction : TrimDirection) (target : Nat)
    (messages : List DraftMessage) : Prop :=
  draftSum est messages = target ∧ ∃ rest last, messages = direction.join rest [last] ∧ last.content = ""

theorem trimMessages_of_le (law : est.Lawful) (d : TrimDirection) {messages : List DraftMessage} {t : UInt32}
    (h : draftSum est messages ≤ t.toNat) (hempty : ¬ EndsEmpty est d t.toNat messages) :
    trimMessages est d messages t = messages := by
  cases d with
  | tail =>
    rcases trimLoop_of_le law .tail messages t h with hall | ⟨rest, last, hl, hlast, hsum⟩
    · exact hall
    · exact absurd ⟨hsum, rest, last, hl, hlast⟩ hempty
  | head =>
    rw [trimMessages]
    rcases trimLoop_of_le law .head messages.reverse t (by rwa [draftSum_reverse]) with
      hall | ⟨rest, last, hl, hlast, hsum⟩
    · rw [hall, List.reverse_reverse]
    · refine absurd ⟨by rwa [draftSum_reverse] at hsum, rest.reverse, last, ?_, hlast⟩ hempty
      have hreversed := congrArg List.reverse hl
      rwa [List.reverse_reverse, List.reverse_append] at hreversed

theorem trimMessages_exact (law : est.Lawful) (d : TrimDirection) {rest : List DraftMessage}
    {last : DraftMessage} {t : UInt32} (hlast : last.content = "")
    (h : draftSum est (d.join rest [last]) = t.toNat) :
    trimMessages est d (d.join rest [last]) t = rest := by
  have hzero : (est.estimateMessage last.content).toNat = 4 := by
    rw [estimateMessage_toNat, hlast, (law.estimate_eq_zero "").2 rfl]
    rfl
  cases d with
  | tail =>
    refine trimLoop_exact .tail rest last t ?_
    rw [← h, TrimDirection.join, draftSum_append, draftSum_cons, draftSum_nil, hzero]
  | head =>
    have hreversed : (TrimDirection.join .head rest [last]).reverse = rest.reverse ++ [last] := by
      rw [TrimDirection.join, List.singleton_append, List.reverse_cons]
    rw [trimMessages, hreversed, trimLoop_exact .head rest.reverse last t ?_, List.reverse_reverse]
    rw [← h, TrimDirection.join, draftSum_append, draftSum_cons, draftSum_nil, draftSum_reverse, hzero]
    omega

/-- **A trim keeps the longest end that fits**: its tokens are at most the target, only the message at the cut is
shortened, no longer piece of it fits, and a list that fits is kept, up to an empty message at its end when every
token is needed. -/
theorem trimMessages_longest (direction : TrimDirection) (messages : List DraftMessage) (targetTokens : UInt32) :
    draftSum utf8TokenEstimator (trimMessages utf8TokenEstimator direction messages targetTokens) ≤
        targetTokens.toNat ∧
      (trimMessages utf8TokenEstimator direction messages targetTokens = messages ∨
        ∃ kept boundary rest piece, messages = direction.join kept (direction.join [boundary] rest) ∧
          trimMessages utf8TokenEstimator direction messages targetTokens =
            direction.join kept (pieceOf boundary piece) ∧
          LongestCut direction targetTokens.toNat (draftSum utf8TokenEstimator kept) boundary piece) ∧
      (draftSum utf8TokenEstimator messages ≤ targetTokens.toNat →
        ¬ EndsEmpty utf8TokenEstimator direction targetTokens.toNat messages →
        trimMessages utf8TokenEstimator direction messages targetTokens = messages) ∧
      ∀ rest last, messages = direction.join rest [last] → last.content = "" →
        draftSum utf8TokenEstimator messages = targetTokens.toNat →
        trimMessages utf8TokenEstimator direction messages targetTokens = rest := by
  refine ⟨trimMessages_le utf8TokenEstimator_lawful _ _ _, trimMessages_stop _ _ _,
    trimMessages_of_le utf8TokenEstimator_lawful _, fun rest last hsplit hlast hsum => ?_⟩
  rw [hsplit] at hsum ⊢
  exact trimMessages_exact utf8TokenEstimator_lawful direction hlast hsum

/-- A list that fits may lose its empty message. -/
theorem trimMessages_drops_empty : ∃ messages : List DraftMessage,
    draftSum utf8TokenEstimator messages ≤ (4 : UInt32).toNat ∧
      trimMessages utf8TokenEstimator .head messages 4 ≠ messages :=
  ⟨[{ importedNoteDraft with content := "" }], by decide, by decide⟩

/-! ## The floor of a block -/

/-- What a trim of a list that does not fit leaves unused: at most the overhead of a message. -/
theorem trimLoop_ge (d : TrimDirection) : ∀ (l : List DraftMessage) (r : UInt32),
    r.toNat < draftSum utf8TokenEstimator l →
      r.toNat ≤ draftSum utf8TokenEstimator (trimLoop utf8TokenEstimator d r l) + 4
  | [], r, h => by
    rw [draftSum_nil] at h
    omega
  | message :: l, r, h => by
    have h4 : messageOverheadTokens.toNat = 4 := rfl
    rw [draftSum_cons] at h
    unfold trimLoop
    split
    · rename_i hr
      rw [UInt32.le_iff_toNat_le] at hr
      omega
    · rename_i hr
      split
      · rename_i hc
        have hrest := trimLoop_ge d l (satSub r (utf8TokenEstimator.estimateMessage message.content)) (by
          rw [UInt32.le_iff_toNat_le] at hc
          rw [toNat_satSub]
          omega)
        rw [toNat_satSub] at hrest
        rw [draftSum_cons]
        omega
      · rename_i hc
        have hge := (utf8_cut_longest d message.content _ (utf8_bytes_of_lt hr hc)).2.1
        show _ ≤ draftSum utf8TokenEstimator (if _ then _ else _) + 4
        rw [cut_cost utf8TokenEstimator_lawful d message hr]
        have hmax := toNat_le_u32Max r
        rw [UInt32.not_le, UInt32.lt_iff_toNat_lt] at hr
        rw [toNat_satSub] at hge
        have htext := utf8_estimateText_toNat
          (utf8TokenEstimator.cut d message.content (satSub r messageOverheadTokens))
        simp only []
        split
        · rename_i h0
          rw [h0] at htext
          have hz : (0 : UInt32).toNat = 0 := rfl
          rw [hz, u32Max] at htext
          omega
        · omega

theorem trimMessages_ge (d : TrimDirection) {messages : List DraftMessage} {t : UInt32}
    (h : t.toNat < draftSum utf8TokenEstimator messages) :
    t.toNat ≤ draftSum utf8TokenEstimator (trimMessages utf8TokenEstimator d messages t) + 4 := by
  cases d with
  | tail => exact trimLoop_ge .tail messages t h
  | head =>
    rw [trimMessages, draftSum_reverse]
    exact trimLoop_ge .head messages.reverse t (by rwa [draftSum_reverse])

/-- The loop over knowledge entries goes on only while they do not fit. -/
theorem popEntries_above (est : TokenEstimator) (t : UInt32) : ∀ (fuel : Nat) (b : MaterializedBlock),
    ∃ k ≤ b.messages.length, popEntries est t fuel b = b.popped k ∧
      ∀ j < k, t < (b.popped j).estimatedTokensWith est
  | 0, b => ⟨0, Nat.zero_le _, by rw [popped_zero]; rfl, nofun⟩
  | fuel + 1, b => by
    unfold popEntries
    split
    · rename_i hc
      obtain ⟨k, hle, hk, habove⟩ := popEntries_above est t fuel
        { b with
          messages := b.messages.dropLast
          knowledgeEvidence := deselectLast b.knowledgeEvidence }
      rw [List.length_dropLast] at hle
      refine ⟨k + 1, by omega, ?_, fun j hj => ?_⟩
      · rw [hk, popped_succ (by omega)]
      · cases j with
        | zero =>
          rw [popped_zero]
          exact hc.2
        | succ j =>
          rw [← popped_succ (by omega)]
          exact habove j (by omega)
    · exact ⟨0, Nat.zero_le _, (popped_zero b).symm, nofun⟩

/-- The tokens that the budget loop has to leave a block. -/
def floorTokens (est : TokenEstimator) (b : MaterializedBlock) : Nat :=
  min (b.estimatedTokensWith est).toNat (protectedTokens b.block.tokenPolicy).toNat

/-- How a reduced block stands to its floor: it holds it, or its policy gives it up, or it lacks what one
message would bring back. -/
inductive FloorKept (request : PromptResolveRequest) (b b' : MaterializedBlock) : Prop
  | held (h : floorTokens utf8TokenEstimator b ≤ (b'.estimatedTokensWith utf8TokenEstimator).toNat)
  | dropped (policy : b.block.overflowPolicy = .dropBlock) (messages : b'.messages = [])
  | summarized (policy : b.block.overflowPolicy = .summarize) (summary : String)
      (source : request.context.conversationSummary = some summary)
      (messages : b'.messages = [summaryDraft b summary])
  | trimmed (policy : b.block.overflowPolicy = .trimHead ∨ b.block.overflowPolicy = .trimTail)
      (h : floorTokens utf8TokenEstimator b ≤
        (b'.estimatedTokensWith utf8TokenEstimator).toNat + messageOverheadTokens.toNat)
  | oldest (policy : b.block.overflowPolicy = .keepLatestItems) (front : List DraftMessage)
      (message : DraftMessage) (messages : b.messages = front ++ message :: b'.messages)
      (h : floorTokens utf8TokenEstimator b < draftSum utf8TokenEstimator (message :: b'.messages))
  | lowestRanked (policy : b.block.overflowPolicy = .reduceKnowledgeEntries) (message : DraftMessage)
      (back : List DraftMessage) (messages : b.messages = b'.messages ++ message :: back)
      (h : floorTokens utf8TokenEstimator b < draftSum utf8TokenEstimator (b'.messages ++ [message]))

theorem floorTokens_le (b : MaterializedBlock) :
    floorTokens est b ≤ (b.estimatedTokensWith est).toNat := Nat.min_le_left _ _

/-- **A reduction for a target that covers the floor.** -/
theorem Reduced.floorKept {t : UInt32} {b b' : MaterializedBlock}
    (h : Reduced utf8TokenEstimator request t b b') (hfloor : floorTokens utf8TokenEstimator b ≤ t.toNat) :
    FloorKept request b b' := by
  cases h with
  | unchanged fits => exact .held (floorTokens_le b)
  | cut messages status explanation above eq =>
    have habove : t.toNat < draftSum utf8TokenEstimator b.messages := by
      rw [UInt32.lt_iff_toNat_lt, estimatedTokensWith_toNat] at above
      omega
    have hmax := toNat_le_u32Max t
    have htrim : ∀ d, t.toNat ≤
        min (draftSum utf8TokenEstimator (trimMessages utf8TokenEstimator d b.messages t)) u32Max + 4 := by
      intro d
      have := trimMessages_ge d habove
      omega
    cases hpolicy : b.block.overflowPolicy <;>
      simp only [hpolicy, cutMessages, Option.some.injEq, reduceCtorEq] at eq <;> subst eq
    case dropBlock => exact .dropped hpolicy rfl
    case trimHead =>
      refine .trimmed (.inl hpolicy) ?_
      rw [estimatedTokensWith_toNat]
      exact hfloor.trans (htrim .head)
    case trimTail =>
      refine .trimmed (.inr hpolicy) ?_
      rw [estimatedTokensWith_toNat]
      exact hfloor.trans (htrim .tail)
    case keepLatestItems =>
      rcases keepLatestItems_stop utf8TokenEstimator b.messages t with hall | ⟨front, message, hl, hnext⟩
      · have hle : draftSum utf8TokenEstimator (keepLatestItems utf8TokenEstimator b.messages t) ≤ t.toNat :=
          keepLatestItems_le b.messages t
        rw [hall] at hle
        omega
      · exact .oldest hpolicy front message hl (Nat.lt_of_le_of_lt hfloor hnext)
  | summarized summary status explanation above policy source => exact .summarized policy summary source rfl
  | popped k status explanation above policy eq lt fits =>
    obtain ⟨k', hle, hk', habove⟩ := popEntries_above utf8TokenEstimator t b.messages.length b
    have hsame : (b.popped k).messages = (b.popped k').messages := by rw [← eq, hk']
    have htokens : (b.popped k').estimatedTokensWith utf8TokenEstimator ≤ t := by
      rw [MaterializedBlock.estimatedTokensWith, ← hsame]
      exact fits
    cases k' with
    | zero =>
      rw [popped_zero] at htokens
      exact absurd above (UInt32.not_lt.2 htokens)
    | succ j =>
      -- the entry that was popped last is the one after those that are left
      have hlast := habove j (Nat.lt_succ_self j)
      have hj : b.messages.length - (j + 1) < b.messages.length := by omega
      have htake : (b.popped j).messages =
          (b.popped (j + 1)).messages ++ [b.messages[b.messages.length - (j + 1)]] := by
        have hsucc : b.messages.length - j = b.messages.length - (j + 1) + 1 := by omega
        rw [MaterializedBlock.popped, MaterializedBlock.popped, hsucc]
        exact List.take_succ_eq_append_getElem hj
      rw [UInt32.lt_iff_toNat_lt, estimatedTokensWith_toNat, htake] at hlast
      refine .lowestRanked policy b.messages[b.messages.length - (j + 1)]
        (b.messages.drop (b.messages.length - (j + 1) + 1)) ?_ ?_
      · show b.messages = (b.popped k).messages ++ _
        rw [hsame]
        conv => lhs; rw [← List.take_append_drop (b.messages.length - (j + 1)) b.messages]
        rw [List.drop_eq_getElem_cons hj]
        rfl
      · show _ < draftSum utf8TokenEstimator ((b.popped k).messages ++ _)
        rw [hsame]
        omega

/-- A target covers the floor. -/
theorem loopTarget_protected {a t : UInt32} {i : Nat} {b : MaterializedBlock} : ∀ {idxs : List Nat}
    {blocks : List MaterializedBlock} {total : UInt32}, blocks[i]? = some b →
    loopTarget est request a i idxs blocks total = some t → protectedTokens b.block.tokenPolicy ≤ t
  | [], _, _, _, h => nomatch h
  | index :: rest, blocks, total, hb, h => by
    unfold loopTarget at h
    split at h
    · cases h
    · split at h
      · exact loopTarget_protected hb h
      · rename_i c hc
        split at h
        · rename_i hi
          rw [hi, hb] at hc
          cases hc
          split at h
          · cases h
          · cases h
            rw [UInt32.le_iff_toNat_le, budgetTarget, toNat_max]
            exact Nat.le_max_right _ _
        · rename_i hi
          split at h
          · refine loopTarget_protected ?_ h
            rw [List.getElem?_set_ne hi]
            exact hb
          · cases h

/-- **The protected floor**: after the global budget every block holds its floor, or it is given up as its policy
says, or one message, or the overhead of one, would bring it back to its floor. -/
theorem enforceGlobalBudget_floor (request : PromptResolveRequest) (blocks final : List MaterializedBlock)
    (availableTokens : UInt32) (i : Nat) (b : MaterializedBlock) (hb : blocks[i]? = some b)
    (h : enforceGlobalBudget utf8TokenEstimator request blocks availableTokens = .ok final) :
    ∃ b', final[i]? = some b' ∧ FloorKept request b b' := by
  obtain ⟨b', hb', hbudgeted⟩ := enforceGlobalBudget_get h hb
  refine ⟨b', hb', ?_⟩
  cases htarget : globalTarget utf8TokenEstimator request blocks availableTokens i with
  | none =>
    rw [htarget] at hbudgeted
    cases hbudgeted
    exact .held (floorTokens_le b)
  | some t =>
    rw [htarget] at hbudgeted
    obtain ⟨r, hr, rfl⟩ := hbudgeted
    have hprotected := UInt32.le_iff_toNat_le.1 (loopTarget_protected hb htarget)
    have hfloor : floorTokens utf8TokenEstimator b ≤ t.toNat := (Nat.min_le_right _ _).trans hprotected
    cases (reduceBlock_reduced hr).floorKept hfloor with
    | held h => exact .held h
    | dropped policy messages => exact .dropped policy messages
    | summarized policy summary source messages => exact .summarized policy summary source messages
    | trimmed policy h => exact .trimmed policy h
    | oldest policy front message messages h => exact .oldest policy front message messages h
    | lowestRanked policy message back messages h => exact .lowestRanked policy message back messages h

/-- A block with a reserve that is dropped when it does not fit. -/
def reservedNote : MaterializedBlock :=
  let block := sampleBlock "note" .authorNote .authorNote .presetInstruction .dropBlock
  { MaterializedBlock.empty { block with tokenPolicy := ⟨0, none, none, some 4⟩ } 0 with
    messages := [importedNoteDraft] }

theorem enforceGlobalBudget_floor_reservedNote :
    ∃ b', FloorKept (importedRequest systemDefaultContract) reservedNote b' := by
  obtain ⟨final, h⟩ : ∃ final, enforceGlobalBudget utf8TokenEstimator
      (importedRequest systemDefaultContract) [reservedNote] 3 = .ok final := ⟨_, rfl⟩
  obtain ⟨b', -, hfloor⟩ := enforceGlobalBudget_floor (importedRequest systemDefaultContract) [reservedNote] final 3 0
    reservedNote rfl h
  exact ⟨b', hfloor⟩

/-- The block is dropped in spite of its reserve. -/
theorem enforceGlobalBudget_drops_reserve : ∃ final b',
    enforceGlobalBudget utf8TokenEstimator (importedRequest systemDefaultContract) [reservedNote] 3 = .ok final ∧
      final[0]? = some b' ∧ (b'.estimatedTokensWith utf8TokenEstimator).toNat <
        floorTokens utf8TokenEstimator reservedNote :=
  ⟨_, _, rfl, rfl, by decide⟩

end LorePia
