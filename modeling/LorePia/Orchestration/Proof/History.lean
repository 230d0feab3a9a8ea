import LorePia.Orchestration.Materialize
import Mathlib.Data.Finset.Card

/-!
# The two ends of the history

`BeforeRecentTurns` and `RecentTurns` cut a sorted history at one turn index, the first of the last turns
(`recentStart`), so they share it without loss (`filter_append_filter_not`); `latestTurns` are the turns behind
the cut. A relative range is the slice between two positions (`relativePosition`).
-/

namespace LorePia

open Base

/-- A test that fails for good splits a list where it fails first. -/
theorem filter_append_filter_not {α : Type} {p : α → Bool} : ∀ {l : List α},
    l.Pairwise (fun a b => p b = true → p a = true) → l.filter p ++ l.filter (fun a => !p a) = l
  | [], _ => rfl
  | a :: l, h => by
    rw [List.pairwise_cons] at h
    cases ha : p a with
    | true =>
      rw [List.filter_cons_of_pos ha, List.filter_cons_of_neg (by rw [ha]; decide), List.cons_append,
        filter_append_filter_not h.2]
    | false =>
      have hnone : l.filter p = [] := by
        refine List.filter_eq_nil_iff.2 fun b hb hp => ?_
        rw [h.1 b hb hp] at ha
        cases ha
      have hrest := filter_append_filter_not h.2
      rw [hnone, List.nil_append] at hrest
      rw [List.filter_cons_of_neg (by rw [ha]; decide), List.filter_cons_of_pos (by rw [ha]; rfl), hnone,
        List.nil_append, hrest]

/-! ## Turns -/

/-- The turns of some messages. -/
def distinctTurns (messages : List PromptConversationMessage) : Finset UInt32 :=
  (messages.map (·.turnIndex)).toFinset

theorem turnIndices_sorted (messages : List PromptConversationMessage) :
    (turnIndices messages).Pairwise (fun a b => a.toNat < b.toNat) ∧
      (turnIndices messages).toFinset = distinctTurns messages := by
  have hsorted : (stableSort (fun a b => decide (a ≤ b)) (messages.map (·.turnIndex))).Pairwise (· ≤ ·) := by
    refine (stableSort_pairwise ?_ ?_ _).imp fun h => of_decide_eq_true h
    · intro a b
      simp only [decide_eq_true_eq]
      exact UInt32.le_total a b
    · intro a b c hab hbc
      exact decide_eq_true (UInt32.le_trans (of_decide_eq_true hab) (of_decide_eq_true hbc))
  have hanti : Std.Antisymm (α := UInt32) (· ≤ ·) := ⟨fun _ _ => UInt32.le_antisymm⟩
  have hdedup : turnIndices messages =
      (stableSort (fun a b => decide (a ≤ b)) (messages.map (·.turnIndex))).dedup :=
    hsorted.destutter_eq_dedup
  constructor
  · have hle := hsorted.sublist (List.destutter_sublist (· ≠ ·) _)
    have hnodup : (turnIndices messages).Nodup := by
      rw [hdedup]
      exact List.nodup_dedup _
    refine (hle.and hnodup).imp fun {a b} h => ?_
    exact Nat.lt_of_le_of_ne (UInt32.le_iff_toNat_le.1 h.1) fun heq => h.2 (UInt32.toNat_inj.1 heq)
  · ext turn
    rw [hdedup, List.mem_toFinset, List.mem_dedup, mem_stableSort, distinctTurns, List.mem_toFinset]

/-- Behind an item of a strictly sorted list stand the greater ones. -/
theorem mem_drop_iff_le {turns : List UInt32} {k : Nat} {start : UInt32}
    (hsorted : turns.Pairwise (fun a b => a.toNat < b.toNat)) (hstart : turns[k]? = some start) {turn : UInt32}
    (hmem : turn ∈ turns) : turn ∈ turns.drop k ↔ start ≤ turn := by
  obtain ⟨hk, rfl⟩ := List.getElem?_eq_some_iff.1 hstart
  rw [← List.take_append_drop k turns, List.drop_eq_getElem_cons hk] at hsorted hmem
  obtain ⟨-, htail, hcross⟩ := List.pairwise_append.1 hsorted
  rw [List.drop_eq_getElem_cons hk, UInt32.le_iff_toNat_le]
  constructor
  · intro h
    rcases List.mem_cons.1 h with rfl | h
    · exact Nat.le_refl _
    · exact Nat.le_of_lt ((List.pairwise_cons.1 htail).1 turn h)
  · intro h
    rcases List.mem_append.1 hmem with hbefore | hafter
    · have := hcross turn hbefore _ List.mem_cons_self
      omega
    · exact hafter

/-- The last turns. -/
def latestTurns (messages : List PromptConversationMessage) (count : UInt32) : Finset UInt32 :=
  ((turnIndices messages).drop ((turnIndices messages).length - count.toNat)).toFinset

/-- The cut is at the first of the last turns. -/
theorem recentStart_le_iff {messages : List PromptConversationMessage} {count : UInt32} (hcount : 1 ≤ count)
    {turn : UInt32} (hmem : turn ∈ distinctTurns messages) :
    recentStart messages count ≤ turn ↔ turn ∈ latestTurns messages count := by
  obtain ⟨hsorted, hturns⟩ := turnIndices_sorted messages
  rw [← hturns, List.mem_toFinset] at hmem
  have hlength := List.length_pos_of_mem hmem
  have hpos : 1 ≤ count.toNat := UInt32.le_iff_toNat_le.1 hcount
  have hk : (turnIndices messages).length - count.toNat < (turnIndices messages).length := by omega
  rw [latestTurns, List.mem_toFinset, mem_drop_iff_le hsorted (List.getElem?_eq_getElem hk) hmem, recentStart,
    List.getElem?_eq_getElem hk, Option.getD_some]

theorem card_distinctTurns (messages : List PromptConversationMessage) :
    (distinctTurns messages).card = (turnIndices messages).length := by
  obtain ⟨hsorted, hturns⟩ := turnIndices_sorted messages
  rw [← hturns, List.toFinset_card_of_nodup (hsorted.imp fun h heq => Nat.ne_of_lt h (congrArg UInt32.toNat heq))]

/-- The last turns are as many as asked for, or all, and no other turn is as late. -/
theorem latestTurns_spec (messages : List PromptConversationMessage) (count : UInt32) :
    latestTurns messages count ⊆ distinctTurns messages ∧
      (latestTurns messages count).card = min count.toNat (distinctTurns messages).card ∧
      ∀ late ∈ latestTurns messages count, ∀ turn ∈ distinctTurns messages \ latestTurns messages count,
        turn < late := by
  obtain ⟨hsorted, hturns⟩ := turnIndices_sorted messages
  have hnodup : (turnIndices messages).Nodup :=
    hsorted.imp fun h heq => Nat.ne_of_lt h (congrArg UInt32.toNat heq)
  refine ⟨fun turn hturn => ?_, ?_, fun late hlate turn hturn => ?_⟩
  · rw [← hturns, List.mem_toFinset]
    exact List.mem_of_mem_drop (List.mem_toFinset.1 hturn)
  · rw [latestTurns, List.toFinset_card_of_nodup (hnodup.sublist (List.drop_sublist _ _)), List.length_drop,
      card_distinctTurns]
    omega
  · rw [Finset.mem_sdiff, ← hturns, List.mem_toFinset, latestTurns, List.mem_toFinset] at hturn
    rw [latestTurns, List.mem_toFinset] at hlate
    obtain ⟨hin, hout⟩ := hturn
    rw [← List.take_append_drop ((turnIndices messages).length - count.toNat) (turnIndices messages)] at hsorted hin
    rcases List.mem_append.1 hin with hbefore | hafter
    · exact UInt32.lt_iff_toNat_lt.2 ((List.pairwise_append.1 hsorted).2.2 turn hbefore late hlate)
    · exact absurd hafter hout

/-- **The two selectors share a sorted history.** -/
theorem selectHistory_turns {messages : List PromptConversationMessage} (summaries : List SummaryBoundary)
    (hsorted : messages.Pairwise fun a b => a.turnIndex ≤ b.turnIndex) {count : UInt32} (hcount : 1 ≤ count) :
    ∃ older recent, selectHistory messages (.beforeRecentTurns count) summaries = .ok older ∧
      selectHistory messages (.recentTurns count) summaries = .ok recent ∧ older ++ recent = messages ∧
      recent = messages.filter fun message => message.turnIndex ∈ latestTurns messages count := by
  refine ⟨_, _, rfl, rfl, ?_, List.filter_congr fun message hmessage => ?_⟩
  · have hcut : messages.Pairwise fun a b =>
        decide (b.turnIndex < recentStart messages count) = true →
          decide (a.turnIndex < recentStart messages count) = true := by
      refine hsorted.imp fun {a b} hle hb => decide_eq_true ?_
      exact UInt32.lt_of_le_of_lt hle (of_decide_eq_true hb)
    conv => rhs; rw [← filter_append_filter_not hcut]
    refine congrArg _ (List.filter_congr fun message _ => ?_)
    rw [← decide_not, decide_eq_decide, ge_iff_le, UInt32.not_lt]
  · have hmem : message.turnIndex ∈ distinctTurns messages :=
      List.mem_toFinset.2 (List.mem_map_of_mem hmessage)
    rw [decide_eq_decide, ge_iff_le, recentStart_le_iff hcount hmem]

/-! ## Relative ranges -/

/-- The position that an offset names in a list of some length. -/
def relativePosition (length : Nat) : Int → Nat
  | .ofNat offset => min offset length
  | .negSucc before => length - (before + 1)

/-- The clamped offset of the source is that position. -/
theorem clamp_eq_relativePosition (length : Nat) (offset : Int) :
    max 0 (min (if offset < 0 then (length : Int) + offset else offset) length) =
      (relativePosition length offset : Int) := by
  cases offset with
  | ofNat offset =>
    rw [relativePosition, Int.ofNat_eq_natCast, if_neg (Int.not_lt.2 (Int.natCast_nonneg offset))]
    omega
  | negSucc before =>
    rw [if_pos (Int.negSucc_lt_zero before), relativePosition, Int.negSucc_eq]
    omega

/-- A relative range is the slice between two positions; it fails when they are out of order. -/
theorem selectRelativeMessageRange_slice (messages : List PromptConversationMessage) (start : Int)
    (stop : Option Int) :
    let first := relativePosition messages.length start
    let last := stop.elim messages.length (relativePosition messages.length)
    (first ≤ last → ∃ before selected after, selectRelativeMessageRange messages start stop = .ok selected ∧
      messages = before ++ selected ++ after ∧ before.length = first ∧ (before ++ selected).length = last) ∧
    (last < first → ∃ error, selectRelativeMessageRange messages start stop = .error error) := by
  intro first last
  have hlast : last ≤ messages.length := by
    cases stop with
    | none => exact Nat.le_refl _
    | some stop =>
      show relativePosition messages.length stop ≤ messages.length
      cases stop <;> rw [relativePosition] <;> omega
  have hrange : selectRelativeMessageRange messages start stop =
      (do
        rejectIf ((first : Int) > last) "relative history range start occurs after its end"
        return (messages.drop first).take (last - first)) := by
    unfold selectRelativeMessageRange
    simp only [clamp_eq_relativePosition]
    cases stop with
    | none => rfl
    | some stop => rfl
  rw [hrange]
  constructor
  · intro hle
    refine ⟨messages.take first, (messages.drop first).take (last - first), messages.drop last, ?_, ?_, ?_, ?_⟩
    · exact seq_eq_ok.2 ⟨rejectIf_eq_ok.2 (by omega), rfl⟩
    · have hdrop : messages.drop last = (messages.drop first).drop (last - first) := by
        rw [List.drop_drop]
        congr 1
        omega
      rw [hdrop, List.append_assoc, List.take_append_drop, List.take_append_drop]
    · rw [List.length_take]
      omega
    · rw [List.length_append, List.length_take, List.length_take, List.length_drop]
      omega
  · intro hlt
    refine ⟨"relative history range start occurs after its end", ?_⟩
    rw [rejectIf, if_pos (by omega)]
    rfl

/-- **The history is partitioned**: the two selectors by turns share a sorted history at its last turns, and a
relative range is a slice of it. -/
theorem selectHistory_partition (messages : List PromptConversationMessage) (summaries : List SummaryBoundary)
    (hsorted : messages.Pairwise fun a b => a.turnIndex ≤ b.turnIndex) :
    (∀ count : UInt32, 1 ≤ count → ∃ older recent turns,
      selectHistory messages (.beforeRecentTurns count) summaries = .ok older ∧
        selectHistory messages (.recentTurns count) summaries = .ok recent ∧ older ++ recent = messages ∧
        turns ⊆ distinctTurns messages ∧ turns.card = min count.toNat (distinctTurns messages).card ∧
        (∀ late ∈ turns, ∀ turn ∈ distinctTurns messages \ turns, turn < late) ∧
        recent = messages.filter fun message => message.turnIndex ∈ turns) ∧
    ∀ start stop,
      let first := relativePosition messages.length start
      let last := stop.elim messages.length (relativePosition messages.length)
      (first ≤ last → ∃ before selected after,
        selectHistory messages (.relativeMessageRange start stop) summaries = .ok selected ∧
          messages = before ++ selected ++ after ∧ before.length = first ∧ (before ++ selected).length = last) ∧
      (last < first → ∃ error, selectHistory messages (.relativeMessageRange start stop) summaries = .error error) := by
  refine ⟨fun count hcount => ?_, fun start stop => selectRelativeMessageRange_slice messages start stop⟩
  obtain ⟨older, recent, holder, hrecent, hjoin, hfilter⟩ := selectHistory_turns summaries hsorted hcount
  obtain ⟨hsub, hcard, hlate⟩ := latestTurns_spec messages count
  exact ⟨older, recent, latestTurns messages count, holder, hrecent, hjoin, hsub, hcard, hlate, hfilter⟩

/-- Two turns, the later one of two messages. -/
def shortHistory : List PromptConversationMessage :=
  [⟨"m1", "main", .user, "Is the harbor far?", 1⟩, ⟨"m2", "main", .user, "Hello?", 4⟩,
    ⟨"m3", "main", .assistant, "An hour on foot.", 4⟩]

theorem selectHistory_partition_shortHistory : ∃ older recent,
    selectHistory shortHistory (.beforeRecentTurns 1) [] = .ok older ∧
      selectHistory shortHistory (.recentTurns 1) [] = .ok recent ∧ older ++ recent = shortHistory := by
  obtain ⟨older, recent, -, holder, hrecent, hjoin, -⟩ :=
    (selectHistory_partition shortHistory [] (by decide)).1 1 (by decide)
  exact ⟨older, recent, holder, hrecent, hjoin⟩

end LorePia
