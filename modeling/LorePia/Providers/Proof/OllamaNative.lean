import LorePia.Providers.OllamaNative
import Mathlib.Data.List.Infix

/-!
# When line framing depends on the chunks

`linesOf` lists the lines of a whole stream, and `handleLines` hands them over, refusing the first one that
is too long. The loop over chunks agrees with it unless a chunk ends right after the carriage return of a
line that is exactly as long as the limit: the bytes are then counted with the carriage return and refused
(`frameLines_iff`). `cutLines` separates the complete lines of some bytes from the rest.
-/

namespace LorePia

open Base

/-! ## The lines of a stream -/

/-- The complete lines, without their line feeds, and the bytes after the last one. -/
def cutLines : List Byte → List (List Byte) × List Byte
  | [] => ([], [])
  | byte :: rest =>
    if byte = lf then ([] :: (cutLines rest).1, (cutLines rest).2)
    else
      match (cutLines rest).1 with
      | [] => ([], byte :: (cutLines rest).2)
      | line :: lines => ((byte :: line) :: lines, (cutLines rest).2)

/-- The line that ends with the stream, when there is one. -/
def lastLine (pending : List Byte) : List (List Byte) :=
  if popCarriageReturn pending = [] then [] else [popCarriageReturn pending]

/-- The lines of a stream without their terminators. -/
def linesOf (stream : List Byte) : List (List Byte) :=
  (cutLines stream).1.map popCarriageReturn ++ lastLine (cutLines stream).2

/-- The line that is open, continued by complete lines. -/
def openLine (pending : List Byte) : List (List Byte) × List Byte → List (List Byte) × List Byte
  | ([], tail) => ([], pending ++ tail)
  | (line :: lines, tail) => ((pending ++ line) :: lines, tail)

theorem openLine_nil (cut : List (List Byte) × List Byte) : openLine [] cut = cut := by
  obtain ⟨_ | ⟨line, lines⟩, tail⟩ := cut <;> rfl

theorem cutLines_cons {byte : Byte} (h : byte ≠ lf) (rest : List Byte) :
    cutLines (byte :: rest) = openLine [byte] (cutLines rest) := by
  rw [cutLines, if_neg h]
  obtain ⟨lines, tail⟩ := cutLines rest
  cases lines <;> rfl

theorem openLine_openLine (p q : List Byte) (cut : List (List Byte) × List Byte) :
    openLine p (openLine q cut) = openLine (p ++ q) cut := by
  obtain ⟨_ | ⟨line, lines⟩, tail⟩ := cut <;> simp [openLine]

/-- Bytes after bytes: the open line goes on. -/
theorem cutLines_append (a s : List Byte) :
    cutLines (a ++ s) = ((cutLines a).1 ++ (openLine (cutLines a).2 (cutLines s)).1,
      (openLine (cutLines a).2 (cutLines s)).2) := by
  induction a with
  | nil => simp [cutLines, openLine_nil]
  | cons byte a ih =>
    by_cases h : byte = lf
    · simp [cutLines, h, ih]
    · rw [List.cons_append, cutLines_cons h, cutLines_cons h, ih]
      obtain ⟨_ | ⟨line, lines⟩, tail⟩ := cutLines a
      · simp only [List.nil_append]
        exact openLine_openLine [byte] tail (cutLines s)
      · simp [openLine]

theorem cutLines_of_not_mem {p : List Byte} (h : lf ∉ p) : cutLines p = ([], p) := by
  induction p with
  | nil => rfl
  | cons byte p ih =>
    rw [List.mem_cons, not_or] at h
    rw [cutLines_cons (Ne.symm h.1), ih h.2]
    rfl

theorem tail_not_mem (s : List Byte) : lf ∉ (cutLines s).2 := by
  induction s with
  | nil => simp [cutLines]
  | cons byte s ih =>
    by_cases h : byte = lf
    · simpa [cutLines, h] using ih
    · rw [cutLines_cons h]
      generalize cutLines s = cut at ih
      obtain ⟨_ | ⟨line, lines⟩, tail⟩ := cut
      · simpa [openLine, Ne.symm h] using ih
      · exact ih

/-- The lines so far, and those of what is pending with the rest. -/
theorem linesOf_append (a s : List Byte) :
    linesOf (a ++ s) = (cutLines a).1.map popCarriageReturn ++ linesOf ((cutLines a).2 ++ s) := by
  have htail : cutLines ((cutLines a).2 ++ s) = openLine (cutLines a).2 (cutLines s) := by
    rw [cutLines_append, cutLines_of_not_mem (tail_not_mem a), List.nil_append]
  rw [linesOf, linesOf, cutLines_append, htail, List.map_append, List.append_assoc]

theorem splitInclusive_eq (s : List Byte) :
    splitInclusive s = (cutLines s).1.map (· ++ [lf]) ++
      if (cutLines s).2 = [] then [] else [(cutLines s).2] := by
  induction s with
  | nil => rfl
  | cons byte s ih =>
    by_cases h : byte = lf
    · simp [splitInclusive, cutLines, h, ih]
    · rw [splitInclusive, if_neg h, cutLines_cons h, ih]
      obtain ⟨_ | ⟨line, lines⟩, tail⟩ := cutLines s
      · by_cases ht : tail = [] <;> simp [openLine, ht]
      · by_cases ht : tail = [] <;> simp [openLine, ht]

/-! ## Handing over lines -/

section
variable {σ : Type} (processChatLine : List Byte → Stateful σ CoreError LineAction)

/-- Hand over lines, refusing the first that is too long. -/
def handleLines : List (List Byte) → Stateful σ CoreError LineAction
  | [] => pure .continue
  | line :: lines => do
    Stateful.lift (ensureJsonlLineSize line.length)
    match ← processChatLine line with
    | .done => pure .done
    | .continue => handleLines lines

/-- Go on unless the handler is done. -/
def andLines (x : Stateful σ CoreError LineAction) : LineAction → Stateful σ CoreError LineAction
  | .done => pure .done
  | .continue => x

end

/-- The lines fit. -/
def Fit (lines : List (List Byte)) : Prop := ∀ line ∈ lines, line.length ≤ maxJsonlLineBytes

section
variable {σ : Type} {processChatLine : List Byte → Stateful σ CoreError LineAction}

theorem handleLines_append (lines lines' : List (List Byte)) :
    handleLines processChatLine (lines ++ lines') =
      handleLines processChatLine lines >>= andLines (handleLines processChatLine lines') := by
  induction lines with
  | nil => rw [List.nil_append, handleLines, pure_bind, andLines]
  | cons line lines ih =>
    simp only [List.cons_append, handleLines, bind_assoc]
    refine bind_congr fun _ => bind_congr fun action => ?_
    cases action with
    | done => rfl
    | «continue» => exact ih

/-- What follows lines that do not all fit does not matter. -/
theorem handleLines_bind_congr {lines : List (List Byte)} {x y : Stateful σ CoreError LineAction}
    (h : Fit lines → x = y) :
    (handleLines processChatLine lines >>= andLines x) =
      handleLines processChatLine lines >>= andLines y := by
  induction lines with
  | nil => rw [h fun _ hmem => absurd hmem (List.not_mem_nil)]
  | cons line lines ih =>
    by_cases hline : line.length ≤ maxJsonlLineBytes
    · simp only [handleLines, bind_assoc]
      refine bind_congr fun _ => bind_congr fun action => ?_
      cases action with
      | done => rfl
      | «continue» => exact ih fun hfit => h (List.forall_mem_cons.2 ⟨hline, hfit⟩)
    · have hreject : ensureJsonlLineSize line.length = .error jsonlLineTooLargeError := by
        rw [ensureJsonlLineSize, rejectIf_eq_error]
        exact ⟨by omega, rfl⟩
      rw [handleLines, hreject]
      rfl

/-! ## One chunk -/

theorem length_popCarriageReturn (p : List Byte) :
    (popCarriageReturn p).length = p.length - if p.getLast? = some cr then 1 else 0 := by
  unfold popCarriageReturn
  split
  · rw [List.length_dropLast]
  · rfl

/-- A terminated segment is the end of a line. -/
theorem takeSegments_line (line : List Byte) (segments : List (List Byte)) (pending : List Byte) :
    takeSegments processChatLine ((line ++ [lf]) :: segments) pending = (do
      Stateful.lift (ensureJsonlLineSize (popCarriageReturn (pending ++ line)).length)
      match ← processChatLine (popCarriageReturn (pending ++ line)) with
      | .done => pure none
      | .continue => takeSegments processChatLine segments []) := by
  have hsize : pending.length + line.length -
      (if line.getLast?.or pending.getLast? = some cr then 1 else 0) =
        (popCarriageReturn (pending ++ line)).length := by
    rw [length_popCarriageReturn, List.length_append, List.getLast?_append]
  have hbound : pending.length + line.length -
      (if decide (line.getLast?.or pending.getLast? = some cr) = true then 1 else 0) =
        (popCarriageReturn (pending ++ line)).length := by
    simp only [decide_eq_true_eq, hsize]
  rw [takeSegments]
  simp only [List.getLast?_concat, decide_true, if_true, List.dropLast_concat, Bool.true_and, hbound]
  all_goals rfl

/-- An open segment is counted with its carriage return. -/
theorem takeSegments_open {tail : List Byte} (htail : lf ∉ tail) (pending : List Byte) :
    takeSegments processChatLine [tail] pending = (do
      Stateful.lift (ensureJsonlLineSize (pending ++ tail).length)
      pure (some (pending ++ tail))) := by
  have hopen : tail.getLast? ≠ some lf := fun hlast => htail (List.mem_of_getLast? hlast)
  rw [takeSegments]
  simp [hopen, takeSegments]

/-- What a chunk leaves pending. -/
def keepPending (p : List Byte) : Stateful σ CoreError (Option (List Byte)) := do
  Stateful.lift (ensureJsonlLineSize p.length)
  pure (some p)

/-- The pending bytes of a chunk, unless the handler is done. -/
def andKeep (p : List Byte) : LineAction → Stateful σ CoreError (Option (List Byte))
  | .done => pure none
  | .continue => keepPending p

theorem keepPending_eq {p : List Byte} (h : p.length ≤ maxJsonlLineBytes) :
    (keepPending p : Stateful σ CoreError _) = pure (some p) := by
  have hok : ensureJsonlLineSize p.length = .ok () := by
    rw [ensureJsonlLineSize, rejectIf_eq_ok]
    omega
  rw [keepPending, hok, Stateful.lift_ok_bind]

/-- **The segments of a chunk** are the lines that it completes and an open rest. -/
theorem takeSegments_cut (lines : List (List Byte)) {tail : List Byte} (htail : lf ∉ tail) :
    ∀ {pending : List Byte}, pending.length ≤ maxJsonlLineBytes →
    takeSegments processChatLine (lines.map (· ++ [lf]) ++ if tail = [] then [] else [tail]) pending =
      handleLines processChatLine ((openLine pending (lines, tail)).1.map popCarriageReturn) >>=
        andKeep (openLine pending (lines, tail)).2 := by
  induction lines with
  | nil =>
    intro pending hpending
    rw [List.map_nil, List.nil_append, openLine, List.map_nil, handleLines, pure_bind, andKeep]
    by_cases hempty : tail = []
    · rw [if_pos hempty, hempty, List.append_nil, keepPending_eq hpending, takeSegments]
    · rw [if_neg hempty, takeSegments_open htail, keepPending]
  | cons line lines ih =>
    intro pending hpending
    rw [List.map_cons, List.cons_append, takeSegments_line, openLine, List.map_cons, handleLines]
    simp only [bind_assoc]
    refine bind_congr fun _ => bind_congr fun action => ?_
    cases action with
    | done => rfl
    | «continue» =>
      have hnext := @ih [] (Nat.zero_le _)
      rw [openLine_nil] at hnext
      exact hnext

/-- **One chunk of the loop**: its lines, then the bytes that it leaves pending. -/
theorem consumeLines_cons {ensureTotal : Nat → Except CoreError Unit} {total : Nat} {chunk : List Byte}
    (htotal : ensureTotal (total + chunk.length) = .ok ()) (chunks : List (List Byte))
    {pending : List Byte} (hpending : pending.length ≤ maxJsonlLineBytes) (hopen : lf ∉ pending) :
    consumeLines processChatLine ensureTotal (chunk :: chunks) total pending =
      handleLines processChatLine ((cutLines (pending ++ chunk)).1.map popCarriageReturn) >>=
        andLines (do
          Stateful.lift (ensureJsonlLineSize (cutLines (pending ++ chunk)).2.length)
          consumeLines processChatLine ensureTotal chunks (total + chunk.length)
            (cutLines (pending ++ chunk)).2) := by
  have hcut : cutLines (pending ++ chunk) = openLine pending (cutLines chunk) := by
    rw [cutLines_append, cutLines_of_not_mem hopen, List.nil_append]
  have hsegments : takeSegments processChatLine _ pending = _ :=
    takeSegments_cut (cutLines chunk).1 (tail_not_mem chunk) hpending
  rw [consumeLines, htotal, Stateful.lift_ok_bind, splitInclusive_eq, hsegments, ← hcut, bind_assoc]
  refine bind_congr fun action => ?_
  cases action with
  | done => rfl
  | «continue» =>
    simp only [andKeep, keepPending, andLines, bind_assoc, pure_bind]
    by_cases hfits : (cutLines (pending ++ chunk)).2.length ≤ maxJsonlLineBytes
    · -- bytes that fit with their carriage return fit without it
      have hpendingOk : ensurePendingJsonlSize (cutLines (pending ++ chunk)).2 = .ok () := by
        rw [ensurePendingJsonlSize, ensureJsonlLineSize, rejectIf_eq_ok]
        omega
      rw [hpendingOk, Stateful.lift_ok_bind]
    · have hreject : ensureJsonlLineSize (cutLines (pending ++ chunk)).2.length =
          .error jsonlLineTooLargeError := by
        rw [ensureJsonlLineSize, rejectIf_eq_error]
        exact ⟨by omega, rfl⟩
      rw [hreject]
      rfl

/-! ## Whole streams -/

/-- The next byte ends a line, or there is none. -/
def LineEnds (after : List Byte) : Prop := ∀ byte ∈ after.head?, byte = lf

/-- The bytes end right after the carriage return of a line that is exactly as long as the limit, and no
line before is too long. -/
structure SplitsFullLine (before after : List Byte) : Prop where
  fit : Fit ((cutLines before).1.map popCarriageReturn)
  length : (cutLines before).2.length = maxJsonlLineBytes + 1
  last : (cutLines before).2.getLast? = some cr
  ends : LineEnds after

theorem one_le_maxJsonlLineBytes : 1 ≤ maxJsonlLineBytes := by decide

/-- The line that pending bytes begin. -/
theorem linesOf_pending {pending : List Byte} (hopen : lf ∉ pending) (hlong : maxJsonlLineBytes < pending.length)
    (rest : List Byte) :
    ∃ more lines, linesOf (pending ++ rest) = popCarriageReturn (pending ++ more) :: lines ∧
      (more = [] ↔ LineEnds rest) := by
  have hcut : cutLines (pending ++ rest) = openLine pending (cutLines rest) := by
    rw [cutLines_append, cutLines_of_not_mem hopen, List.nil_append]
  have hmax := one_le_maxJsonlLineBytes
  have hmore : ∀ more, popCarriageReturn (pending ++ more) ≠ [] := by
    intro more hempty
    have hlength := length_popCarriageReturn (pending ++ more)
    rw [hempty, List.length_nil, List.length_append] at hlength
    split at hlength <;> omega
  rw [linesOf, hcut]
  cases rest with
  | nil =>
    have hkept := hmore []
    rw [List.append_nil] at hkept
    exact ⟨[], [], by simp [cutLines, openLine, lastLine, hkept], by simp [LineEnds]⟩
  | cons byte rest =>
    by_cases hbyte : byte = lf
    · exact ⟨[], _, by simp [cutLines, openLine, hbyte]; rfl, by simp [LineEnds, hbyte]⟩
    · rw [cutLines_cons hbyte]
      obtain ⟨_ | ⟨line, lines⟩, tail⟩ := cutLines rest
      · exact ⟨byte :: tail, [], by simp [openLine, lastLine, hmore], by simp [LineEnds, hbyte]⟩
      · exact ⟨byte :: line, _, by simp [openLine]; rfl, by simp [LineEnds, hbyte]⟩

theorem splitsFullLine_append {a s after : List Byte} :
    SplitsFullLine (a ++ s) after ↔
      Fit ((cutLines a).1.map popCarriageReturn) ∧ SplitsFullLine ((cutLines a).2 ++ s) after := by
  -- the open line of the later cut begins with what the first bytes leave pending
  have htail : cutLines ((cutLines a).2 ++ s) = openLine (cutLines a).2 (cutLines s) := by
    rw [cutLines_append, cutLines_of_not_mem (tail_not_mem a), List.nil_append]
  have hcut : cutLines (a ++ s) =
      ((cutLines a).1 ++ (cutLines ((cutLines a).2 ++ s)).1, (cutLines ((cutLines a).2 ++ s)).2) := by
    rw [cutLines_append, htail]
  constructor
  · intro h
    have hfit := h.fit
    rw [hcut, List.map_append] at hfit
    obtain ⟨hbefore, hlater⟩ := List.forall_mem_append.1 hfit
    have hlength := h.length
    have hlast := h.last
    rw [hcut] at hlength hlast
    exact ⟨hbefore, hlater, hlength, hlast, h.ends⟩
  · intro h
    obtain ⟨hbefore, h⟩ := h
    refine ⟨?_, ?_, ?_, h.ends⟩
    · rw [hcut, List.map_append]
      exact List.forall_mem_append.2 ⟨hbefore, h.fit⟩
    · rw [hcut]
      exact h.length
    · rw [hcut]
      exact h.last

/-- Pending bytes over the limit belong to a line over the limit, with one exception. -/
theorem pending_tooLong {pending more : List Byte} (hlong : maxJsonlLineBytes < pending.length)
    (h : (popCarriageReturn (pending ++ more)).length ≤ maxJsonlLineBytes) :
    more = [] ∧ pending.length = maxJsonlLineBytes + 1 ∧ pending.getLast? = some cr := by
  rw [length_popCarriageReturn, List.length_append] at h
  have hmore : more = [] := by
    rw [← List.length_eq_zero_iff]
    split at h <;> omega
  rw [hmore, List.append_nil, List.length_nil] at h
  split at h
  · exact ⟨hmore, by omega, ‹_›⟩
  · omega

theorem takeLastLine_eq (pending : List Byte) (hopen : lf ∉ pending) :
    takeLastLine processChatLine pending = handleLines processChatLine (linesOf pending) := by
  rw [linesOf, cutLines_of_not_mem hopen, List.map_nil, List.nil_append, lastLine, takeLastLine]
  by_cases hempty : popCarriageReturn pending = []
  · rw [if_pos hempty, hempty, if_pos rfl]
    rfl
  · rw [if_neg hempty, if_neg hempty, handleLines]
    refine bind_congr fun _ => ?_
    rw [← bind_pure (processChatLine (popCarriageReturn pending))]
    simp only [bind_assoc, pure_bind]
    refine bind_congr fun action => ?_
    cases action <;> rfl

/-- **Without a cut after a full line** the loop hands over the lines of the stream. -/
theorem consumeLines_eq {chunks : List (List Byte)} {total : Nat} {pending : List Byte}
    (hpending : pending.length ≤ maxJsonlLineBytes) (hopen : lf ∉ pending)
    (hcuts : ∀ before after, chunks = before ++ after →
      ¬ SplitsFullLine (pending ++ before.flatten) after.flatten) :
    consumeLines processChatLine (fun _ => .ok ()) chunks total pending =
      handleLines processChatLine (linesOf (pending ++ chunks.flatten)) := by
  induction chunks generalizing total pending with
  | nil => rw [consumeLines, takeLastLine_eq pending hopen, List.flatten_nil, List.append_nil]
  | cons chunk chunks ih =>
    rw [consumeLines_cons rfl chunks hpending hopen, List.flatten_cons, ← List.append_assoc, linesOf_append,
      handleLines_append]
    refine handleLines_bind_congr fun hfit => ?_
    have hkeep := tail_not_mem (pending ++ chunk)
    by_cases hfits : (cutLines (pending ++ chunk)).2.length ≤ maxJsonlLineBytes
    · have hok : ensureJsonlLineSize (cutLines (pending ++ chunk)).2.length = .ok () := by
        rw [ensureJsonlLineSize, rejectIf_eq_ok]
        omega
      rw [hok, Stateful.lift_ok_bind]
      refine ih hfits hkeep fun before after hsplit hfull => ?_
      refine hcuts (chunk :: before) after (by rw [hsplit]; rfl) ?_
      rw [List.flatten_cons, ← List.append_assoc]
      exact splitsFullLine_append.2 ⟨hfit, hfull⟩
    · have hlong : maxJsonlLineBytes < (cutLines (pending ++ chunk)).2.length := by omega
      have hreject : ∀ {n : Nat}, maxJsonlLineBytes < n →
          ensureJsonlLineSize n = .error jsonlLineTooLargeError := fun hn => by
        rw [ensureJsonlLineSize, rejectIf_eq_error]
        exact ⟨hn, rfl⟩
      obtain ⟨more, lines, hlines, hends⟩ := linesOf_pending hkeep hlong chunks.flatten
      have htooLong : maxJsonlLineBytes <
          (popCarriageReturn ((cutLines (pending ++ chunk)).2 ++ more)).length := by
        refine Nat.lt_of_not_le fun hle => ?_
        obtain ⟨hmore, hlength, hlast⟩ := pending_tooLong hlong hle
        refine hcuts [chunk] chunks rfl ?_
        rw [List.flatten_cons, List.flatten_nil, List.append_nil]
        exact ⟨hfit, hlength, hlast, hends.1 hmore⟩
      rw [hreject hlong, hlines, handleLines, hreject htooLong]
      rfl

end

/-! ## The exact condition -/

/-- A handler that counts its lines. -/
def countLine (_ : List Byte) : Stateful Nat CoreError LineAction := fun n => (.ok .continue, n + 1)

theorem ensureJsonlLineSize_ok {n : Nat} (h : n ≤ maxJsonlLineBytes) : ensureJsonlLineSize n = .ok () := by
  rw [ensureJsonlLineSize, rejectIf_eq_ok]
  omega

theorem handleLines_count_fit {lines : List (List Byte)} (hfit : Fit lines)
    (x : Stateful Nat CoreError LineAction) (n : Nat) :
    (handleLines countLine lines >>= andLines x).run n = x.run (n + lines.length) := by
  induction lines generalizing n with
  | nil => rfl
  | cons line lines ih =>
    obtain ⟨hline, hlines⟩ := List.forall_mem_cons.1 hfit
    have hstep : (handleLines countLine (line :: lines) >>= andLines x).run n =
        (handleLines countLine lines >>= andLines x).run (n + 1) := by
      rw [handleLines, ensureJsonlLineSize_ok hline]
      rfl
    rw [hstep, ih hlines, List.length_cons]
    congr 1
    omega

theorem handleLines_count_le (lines : List (List Byte)) (n : Nat) :
    n ≤ ((handleLines countLine lines).run n).2 := by
  induction lines generalizing n with
  | nil => exact Nat.le_refl _
  | cons line lines ih =>
    by_cases hline : line.length ≤ maxJsonlLineBytes
    · have hstep : (handleLines countLine (line :: lines)).run n = (handleLines countLine lines).run (n + 1) := by
        rw [handleLines, ensureJsonlLineSize_ok hline]
        rfl
      rw [hstep]
      exact Nat.le_trans (Nat.le_succ n) (ih (n + 1))
    · have hstep : (handleLines countLine (line :: lines)).run n = (.error jsonlLineTooLargeError, n) := by
        rw [handleLines, ensureJsonlLineSize, rejectIf, if_pos (by omega)]
        rfl
      rw [hstep]

/-- The first line of a stream with a cut after a full line fits. -/
theorem SplitsFullLine.first {before after : List Byte} (h : SplitsFullLine before after) :
    ∃ line lines, linesOf (before ++ after) = line :: lines ∧ line.length ≤ maxJsonlLineBytes := by
  have hfit := h.fit
  rw [linesOf_append]
  cases hlines : (cutLines before).1 with
  | cons line lines =>
    rw [hlines] at hfit
    exact ⟨_, _, rfl, hfit _ List.mem_cons_self⟩
  | nil =>
    obtain ⟨more, lines, hfirst, hends⟩ :=
      linesOf_pending (tail_not_mem before) (by rw [h.length]; omega) after
    refine ⟨_, lines, by rw [List.map_nil, List.nil_append, hfirst], ?_⟩
    rw [hends.2 h.ends, List.append_nil, length_popCarriageReturn, if_pos h.last, h.length]
    omega

/-- **A cut after a full line loses that line.** -/
theorem consumeLines_count_lt {chunks before after : List (List Byte)} {total n : Nat} {pending : List Byte}
    (hpending : pending.length ≤ maxJsonlLineBytes) (hopen : lf ∉ pending)
    (hchunks : chunks = before ++ after)
    (hsplits : SplitsFullLine (pending ++ before.flatten) after.flatten) :
    ((consumeLines countLine (fun _ => .ok ()) chunks total pending).run n).2 <
      ((handleLines countLine (linesOf (pending ++ chunks.flatten))).run n).2 := by
  induction before generalizing chunks total n pending with
  | nil =>
    -- what is pending fits, so it is not the full line with its carriage return
    have hlength := hsplits.length
    rw [List.flatten_nil, List.append_nil, cutLines_of_not_mem hopen] at hlength
    exact absurd hlength (by simp only; omega)
  | cons chunk before ih =>
    subst hchunks
    rw [List.flatten_cons, ← List.append_assoc] at hsplits
    obtain ⟨hfit, hlater⟩ := splitsFullLine_append.1 hsplits
    have hkeep := tail_not_mem (pending ++ chunk)
    rw [List.cons_append, consumeLines_cons rfl _ hpending hopen, List.flatten_cons, ← List.append_assoc,
      linesOf_append, handleLines_append, handleLines_count_fit hfit, handleLines_count_fit hfit]
    by_cases hfits : (cutLines (pending ++ chunk)).2.length ≤ maxJsonlLineBytes
    · rw [ensureJsonlLineSize_ok hfits, Stateful.lift_ok_bind]
      exact ih hfits hkeep rfl hlater
    · obtain ⟨line, lines, hfirst, hline⟩ := hlater.first
      rw [List.append_assoc, ← List.flatten_append] at hfirst
      have hreject : ensureJsonlLineSize (cutLines (pending ++ chunk)).2.length =
          .error jsonlLineTooLargeError := by
        rw [ensureJsonlLineSize, rejectIf_eq_error]
        exact ⟨by omega, rfl⟩
      rw [hreject, hfirst, handleLines, ensureJsonlLineSize_ok hline]
      exact handleLines_count_le lines _

/-- Within the limit of the stream its size is not refused. -/
theorem consumeLines_total {σ : Type} {processChatLine : List Byte → Stateful σ CoreError LineAction}
    {chunks : List (List Byte)} {total : Nat} {pending : List Byte}
    (h : total + chunks.flatten.length ≤ maxStreamBytes) :
    consumeLines processChatLine ensureOllamaStreamSize chunks total pending =
      consumeLines processChatLine (fun _ => .ok ()) chunks total pending := by
  induction chunks generalizing total pending with
  | nil => rw [consumeLines, consumeLines]
  | cons chunk chunks ih =>
    rw [List.flatten_cons, List.length_append] at h
    have hok : ensureOllamaStreamSize (total + chunk.length) = .ok () := by
      rw [ensureOllamaStreamSize, rejectIf_eq_ok]
      omega
    rw [consumeLines, consumeLines, hok]
    refine bind_congr fun _ => bind_congr fun kept => ?_
    cases kept with
    | none => rfl
    | some kept => exact bind_congr fun _ => ih (by omega)

/-- **Line framing, exactly**: the loop hands over the lines of the stream and refuses exactly the lines
over the limit, whatever the handler is, if and only if no chunk ends right after the carriage return of a
line that is exactly as long as the limit. -/
theorem frameLines_iff (chunks : List (List Byte)) :
    ((∀ (σ : Type) (processChatLine : List Byte → Stateful σ CoreError LineAction) (s : σ),
        (frameLines processChatLine chunks).run s =
          (handleLines processChatLine (linesOf chunks.flatten)).run s) ↔
      ∀ before after, chunks = before ++ after → ¬ SplitsFullLine before.flatten after.flatten) ∧
    (chunks.flatten.length ≤ maxStreamBytes →
      ∀ (σ : Type) (processChatLine : List Byte → Stateful σ CoreError LineAction),
        consumeChatStream processChatLine chunks = frameLines processChatLine chunks) := by
  refine ⟨⟨fun hall before after hchunks hsplits => ?_, fun hcuts σ processChatLine s => ?_⟩,
    fun hsize σ processChatLine => ?_⟩
  · have hlt : ((consumeLines countLine (fun _ => .ok ()) chunks 0 []).run 0).2 < _ :=
      consumeLines_count_lt (Nat.zero_le _) List.not_mem_nil hchunks hsplits
    have heq := hall Nat countLine 0
    rw [frameLines] at heq
    rw [heq, List.nil_append] at hlt
    exact absurd hlt (Nat.lt_irrefl _)
  · rw [frameLines, consumeLines_eq (Nat.zero_le _) List.not_mem_nil hcuts, List.nil_append]
  · exact consumeLines_total (by omega)

/-- A line as long as the limit, with its carriage return. -/
def fullLine : List Byte := List.replicate maxJsonlLineBytes 120 ++ [cr]

theorem fullLine_open : lf ∉ fullLine := by
  simp [fullLine, lf, cr, List.mem_replicate]

theorem splitsFullLine_fullLine : SplitsFullLine fullLine [lf] := by
  refine ⟨?_, ?_, ?_, ?_⟩
  · rw [cutLines_of_not_mem fullLine_open]
    exact fun _ hmem => absurd hmem List.not_mem_nil
  · rw [cutLines_of_not_mem fullLine_open]
    simp [fullLine]
  · rw [cutLines_of_not_mem fullLine_open]
    simp [fullLine]
  · simp [LineEnds]

/-- The full line arrives in one chunk or is cut before its line feed: it is accepted or refused. -/
theorem frameLines_fullLine :
    [fullLine ++ [lf]].flatten = [fullLine, [lf]].flatten ∧
      (frameLines countLine [fullLine ++ [lf]]).run 0 ≠ (frameLines countLine [fullLine, [lf]]).run 0 := by
  have hstream : [fullLine ++ [lf]].flatten = [fullLine, [lf]].flatten := by simp
  have htail : (cutLines (fullLine ++ [lf])).2 = [] := by
    rw [cutLines_append, cutLines_of_not_mem fullLine_open]
    rfl
  have hwhole : frameLines countLine [fullLine ++ [lf]] =
      handleLines countLine (linesOf ([] ++ [fullLine ++ [lf]].flatten)) := by
    refine consumeLines_eq (Nat.zero_le _) List.not_mem_nil fun before after hchunks hsplits => ?_
    have hlength := hsplits.length
    obtain ⟨rfl, -⟩ | ⟨rfl, -⟩ : (before = [] ∧ _) ∨ (before = [fullLine ++ [lf]] ∧ _) := by
      simpa [List.singleton_eq_append_iff] using hchunks
    · exact absurd hlength (by simp [cutLines])
    · rw [List.flatten_cons, List.flatten_nil, List.append_nil, List.nil_append, htail] at hlength
      exact absurd hlength (by simp)
  have hcut : ((frameLines countLine [fullLine, [lf]]).run 0).2 <
      ((handleLines countLine (linesOf ([] ++ [fullLine, [lf]].flatten))).run 0).2 :=
    consumeLines_count_lt (Nat.zero_le _) List.not_mem_nil
      (show [fullLine, [lf]] = [fullLine] ++ [[lf]] from rfl) (by simpa using splitsFullLine_fullLine)
  refine ⟨hstream, fun heq => ?_⟩
  rw [← heq, hwhole, hstream] at hcut
  exact absurd hcut (Nat.lt_irrefl _)

end LorePia
