import LorePia.Providers.Sse
import Mathlib.Data.List.Infix

/-!
# Event framing does not depend on the chunks

`splitEvent` cuts the first event off a list of bytes. The separators are such that an event found before
the end of the stream is found in every continuation: bytes on which a continuation may still change the
answer are the beginning of a separator (`Opens`), and such a beginning holds no event. `sseFraming` packs
this up. The buffer with its resume position, its compaction and its deferred matches computes `splitEvent`
of its active bytes (`Scanned`, `nextBoundary_found`), so the loop is that of `Framing.consume`
(`frameStream_eq`), and the chunks do not matter (`frameStream_chunking`).
-/

namespace LorePia

open Base

/-! ## The separator at the front -/

/-- A separator at the front of the bytes that is not deferred. -/
def Matches (endOfStream : Bool) (separator b : List Byte) : Prop :=
  separator <+: b ∧ (endOfStream = true ∨ separator.getLast? ≠ some cr ∨ separator.length ≠ b.length)

instance (endOfStream : Bool) (separator b : List Byte) : Decidable (Matches endOfStream separator b) :=
  inferInstanceAs (Decidable (_ ∧ _))

/-- The first separator in the order of preference. -/
def matchSeparator (endOfStream : Bool) (b : List Byte) : Option (List Byte) :=
  sseEventSeparators.find? fun separator => Matches endOfStream separator b

/-- The bytes are the beginning of a separator that more bytes may complete or prefer. -/
def Opens (b : List Byte) : Prop :=
  ∃ separator ∈ sseEventSeparators, b <+: separator ∧ (separator.getLast? = some cr ∨ b ≠ separator)

variable {endOfStream : Bool} {separator b : List Byte}

theorem matchSeparator_eq_some (h : matchSeparator endOfStream b = some separator) :
    separator ∈ sseEventSeparators ∧ Matches endOfStream separator b :=
  ⟨List.mem_of_find?_eq_some h, by simpa using List.find?_some h⟩

theorem matchSeparator_eq_none :
    matchSeparator endOfStream b = none ↔
      ∀ separator ∈ sseEventSeparators, ¬ Matches endOfStream separator b := by
  simp [matchSeparator]

theorem Matches.append (h : Matches false separator b) (endOfStream : Bool) (x : List Byte) :
    Matches endOfStream separator (b ++ x) := by
  obtain ⟨hfront, hopen⟩ := h
  refine ⟨hfront.trans (List.prefix_append _ _), .inr ?_⟩
  obtain h | h | h := hopen
  · cases h
  · exact .inl h
  · have := hfront.length_le
    refine .inr ?_
    rw [List.length_append]
    omega

theorem Matches.atEnd (h : Matches false separator b) : Matches true separator b := ⟨h.1, .inl rfl⟩

/-- What a continuation adds was open. -/
theorem Matches.of_append {x : List Byte} (hmem : separator ∈ sseEventSeparators)
    (h : Matches endOfStream separator (b ++ x)) : Matches false separator b ∨ Opens b := by
  obtain hle | hle := List.prefix_or_prefix_of_prefix h.1 (List.prefix_append b x)
  · by_cases hdeferred : separator.getLast? = some cr ∧ separator.length = b.length
    · refine .inr ⟨separator, hmem, ?_, .inl hdeferred.1⟩
      rw [hle.eq_of_length hdeferred.2]
    · rw [not_and_or] at hdeferred
      exact .inl ⟨hle, .inr hdeferred⟩
  · by_cases heq : b = separator
    · by_cases hcr : separator.getLast? = some cr
      · exact .inr ⟨separator, hmem, hle, .inl hcr⟩
      · exact .inl ⟨heq ▸ List.prefix_refl _, .inr (.inl hcr)⟩
    · exact .inr ⟨separator, hmem, hle, .inr heq⟩

theorem matchSeparator_append_none (hnone : matchSeparator false b = none) (hopen : ¬ Opens b)
    (endOfStream : Bool) (x : List Byte) : matchSeparator endOfStream (b ++ x) = none := by
  rw [matchSeparator_eq_none] at hnone ⊢
  intro separator hmem hmatch
  obtain h | h := Matches.of_append hmem hmatch
  · exact hnone separator hmem h
  · exact hopen h

/-- The only separators that begin with another one add a line feed to a carriage return. -/
theorem separator_of_prefix : ∀ s ∈ sseEventSeparators, ∀ t ∈ sseEventSeparators, s <+: t →
    s = t ∨ (s.getLast? = some cr ∧ t.length = s.length + 1 ∧ t.getLast? ≠ some cr) := by
  decide

/-- The preferred separator stays the preferred one. -/
theorem matchSeparator_append_some (h : matchSeparator false b = some separator) (endOfStream : Bool)
    (x : List Byte) : matchSeparator endOfStream (b ++ x) = some separator := by
  obtain ⟨hmem, hmatch⟩ := matchSeparator_eq_some h
  have hkeep : ∀ t ∈ sseEventSeparators, Matches endOfStream t (b ++ x) →
      Matches false t b ∨ t = separator := by
    intro t ht htmatch
    obtain hle | hle := List.prefix_or_prefix_of_prefix htmatch.1 (hmatch.append endOfStream x).1
    · by_cases heq : t.length = separator.length
      · exact .inr (hle.eq_of_length heq)
      · have := hle.length_le
        have := hmatch.1.length_le
        exact .inl ⟨hle.trans hmatch.1, .inr (.inr (by omega))⟩
    · obtain rfl | ⟨hcr, hlength, hlf⟩ := separator_of_prefix _ hmem _ ht hle
      · exact .inr rfl
      · -- a deferred match is not at the edge, so the line feed has arrived
        have hedge : separator.length ≠ b.length := by
          obtain h | h | h := hmatch.2
          · cases h
          · exact absurd hcr h
          · exact h
        have := hmatch.1.length_le
        exact .inl ⟨List.prefix_of_prefix_length_le htmatch.1 (List.prefix_append b x) (by omega),
          .inr (.inl hlf)⟩
  unfold matchSeparator at h ⊢
  rw [List.find?_eq_some_iff_append] at h ⊢
  obtain ⟨-, before, after, hsplit, hbefore⟩ := h
  refine ⟨by simpa using hmatch.append endOfStream x, before, after, hsplit, fun t ht => ?_⟩
  have hnot : ¬ Matches false t b := by simpa using hbefore t ht
  have hne : t ≠ separator := fun heq => hnot (heq ▸ hmatch)
  have htmem : t ∈ sseEventSeparators := hsplit ▸ List.mem_append_left _ ht
  simpa using fun hmatch' => (hkeep t htmem hmatch').elim hnot hne

/-! ## The first event -/

/-- The first event of the bytes, its separator, and what follows. -/
def splitEvent (endOfStream : Bool) : List Byte → Option (List Byte × List Byte × List Byte)
  | [] => none
  | byte :: b =>
    match matchSeparator endOfStream (byte :: b) with
    | some separator => some ([], separator, (byte :: b).drop separator.length)
    | none => (splitEvent endOfStream b).map fun found => (byte :: found.1, found.2)

/-- The open beginnings of separators are short, hold no event, and everything they end with begins a
separator. -/
theorem opens_cases : ∀ separator ∈ sseEventSeparators, ∀ b ∈ separator.inits,
    (separator.getLast? = some cr ∨ b ≠ separator) →
      splitEvent false b = none ∧ b.length ≤ 3 ∧ ∀ t ∈ b.tails, isPossibleSeparator t = true := by
  decide

theorem Opens.spec (h : Opens b) :
    splitEvent false b = none ∧ b.length ≤ 3 ∧ ∀ t, t <:+ b → isPossibleSeparator t = true := by
  obtain ⟨separator, hmem, hfront, hopen⟩ := h
  obtain ⟨hsplit, hlength, htails⟩ :=
    opens_cases separator hmem b ((List.mem_inits _ _).2 hfront) hopen
  exact ⟨hsplit, hlength, fun t ht => htails t ((List.mem_tails _ _).2 ht)⟩

variable {event rest : List Byte}

theorem splitEvent_eq : ∀ {b event separator rest : List Byte},
    splitEvent endOfStream b = some (event, separator, rest) →
    b = event ++ separator ++ rest ∧ separator ∈ sseEventSeparators
  | [], event, separator, rest, h => by cases h
  | byte :: b, event, separator, rest, h => by
    rw [splitEvent] at h
    split at h
    · rename_i found hfound
      obtain ⟨hmem, hmatch⟩ := matchSeparator_eq_some hfound
      obtain ⟨rfl, rfl, rfl⟩ : [] = event ∧ found = separator ∧ _ = rest := by simpa using h
      exact ⟨(List.prefix_append_drop hmatch.1), hmem⟩
    · obtain ⟨⟨event', separator', rest'⟩, hrest, heq⟩ := Option.map_eq_some_iff.1 h
      obtain ⟨rfl, rfl, rfl⟩ : byte :: event' = event ∧ separator' = separator ∧ rest' = rest := by
        simpa using heq
      obtain ⟨rfl, hmem⟩ := splitEvent_eq hrest
      exact ⟨rfl, hmem⟩

theorem splitEvent_append : ∀ {b event separator rest : List Byte},
    splitEvent false b = some (event, separator, rest) → ∀ endOfStream x,
      splitEvent endOfStream (b ++ x) = some (event, separator, rest ++ x)
  | [], event, separator, rest, h, _, _ => by cases h
  | byte :: b, event, separator, rest, h, endOfStream, x => by
    have hwhole := h
    rw [splitEvent] at h
    split at h
    · rename_i found hfound
      obtain ⟨hmem, hmatch⟩ := matchSeparator_eq_some hfound
      obtain ⟨rfl, rfl, rfl⟩ : [] = event ∧ found = separator ∧ _ = rest := by simpa using h
      have happend := matchSeparator_append_some hfound endOfStream x
      rw [List.cons_append] at happend ⊢
      rw [splitEvent, happend, ← List.cons_append]
      exact congrArg (fun rest => some ([], found, rest))
        (List.drop_append_of_le_length hmatch.1.length_le)
    · rename_i hnone
      obtain ⟨⟨event', separator', rest'⟩, hrest, heq⟩ := Option.map_eq_some_iff.1 h
      obtain ⟨rfl, rfl, rfl⟩ : byte :: event' = event ∧ separator' = separator ∧ rest' = rest := by
        simpa using heq
      have hclosed : ¬ Opens (byte :: b) := by
        intro hopen
        rw [hopen.spec.1] at hwhole
        cases hwhole
      have happend := matchSeparator_append_none hnone hclosed endOfStream x
      rw [List.cons_append] at happend ⊢
      rw [splitEvent, happend, splitEvent_append hrest endOfStream x]
      rfl

/-- The bytes after the event are those at its separator. -/
theorem splitEvent_at : ∀ {b event separator rest : List Byte},
    splitEvent endOfStream b = some (event, separator, rest) →
    matchSeparator endOfStream (b.drop event.length) = some separator
  | [], event, separator, rest, h => by cases h
  | byte :: b, event, separator, rest, h => by
    rw [splitEvent] at h
    split at h
    · rename_i found hfound
      obtain ⟨rfl, rfl, rfl⟩ : [] = event ∧ found = separator ∧ _ = rest := by simpa using h
      exact hfound
    · obtain ⟨⟨event', separator', rest'⟩, hrest, heq⟩ := Option.map_eq_some_iff.1 h
      obtain ⟨rfl, rfl, rfl⟩ : byte :: event' = event ∧ separator' = separator ∧ rest' = rest := by
        simpa using heq
      rw [List.length_cons, List.drop_succ_cons]
      exact splitEvent_at hrest

theorem splitEvent_none : ∀ {b : List Byte}, splitEvent endOfStream b = none → ∀ n < b.length,
    matchSeparator endOfStream (b.drop n) = none
  | [], _, n, hn => absurd hn (Nat.not_lt_zero _)
  | byte :: b, h, n, hn => by
    rw [splitEvent] at h
    split at h
    · cases h
    · rename_i hnone
      cases n with
      | zero => exact hnone
      | succ n => exact splitEvent_none (Option.map_eq_none_iff.1 h) n (Nat.lt_of_succ_lt_succ hn)

/-! ## The framing -/

/-- The verdict on pending bytes. -/
def pendingFits (endOfStream : Bool) (b : List Byte) : Bool :=
  b.length ≤ maxSseBufferBytes || (!endOfStream && isPossibleSeparator (b.drop maxSseBufferBytes))

theorem overflow_event (hnone : splitEvent false b = none) (hpending : pendingFits false b = false)
    {x : List Byte} (h : splitEvent true (b ++ x) = some (event, separator, rest)) :
    maxSseBufferBytes < event.length := by
  simp only [pendingFits, Bool.or_eq_false_iff, decide_eq_false_iff_not, not_le, Bool.not_false,
    Bool.true_and] at hpending
  obtain ⟨hlarge, himpossible⟩ := hpending
  refine lt_of_not_ge fun hsmall => ?_
  -- the separator begins in the pending bytes, so it is open there, and its tail is possible
  have hat := splitEvent_at h
  rw [List.drop_append_of_le_length (by omega)] at hat
  obtain ⟨hmem, hmatch⟩ := matchSeparator_eq_some hat
  have hopen : Opens (b.drop event.length) := by
    refine (Matches.of_append hmem hmatch).resolve_left fun hearly => ?_
    exact matchSeparator_eq_none.1 (splitEvent_none hnone event.length (by omega)) separator hmem hearly
  have htail : b.drop maxSseBufferBytes <:+ b.drop event.length := by
    rw [show maxSseBufferBytes = event.length + (maxSseBufferBytes - event.length) by omega,
      ← List.drop_drop]
    exact List.drop_suffix _ _
  rw [hopen.spec.2.2 _ htail] at himpossible
  cases himpossible

/-- The framing of server-sent events. -/
def sseFraming : Framing Byte where
  next := splitEvent
  fits event := event.length ≤ maxSseBufferBytes
  pendingFits := pendingFits
  IsSeparator separator := separator ∈ sseEventSeparators
  next_eq := splitEvent_eq
  ne_nil h hnil := absurd (hnil ▸ h) (by decide)
  next_append := splitEvent_append
  overflow := by
    intro b hnone hpending x
    refine ⟨fun event separator rest h => ?_, fun _ => ?_⟩
    · simpa using overflow_event hnone hpending h
    · have hlarge : maxSseBufferBytes < b.length := by
        have := (Bool.or_eq_false_iff.1 hpending).1
        simpa using this
      simp only [pendingFits, Bool.not_true, Bool.false_and, Bool.or_false, decide_eq_false_iff_not,
        List.length_append]
      omega

/-! ## The buffer -/

/-- Where a buffer resumes, nothing before can become a boundary. -/
structure Scanned (buffer : SseEventBuffer) : Prop where
  start_le : buffer.start ≤ buffer.bytes.length
  scanFrom_le : buffer.scanFrom ≤ buffer.bytes.length
  scanned : ∀ position, buffer.start ≤ position → position < buffer.scanFrom →
    ∀ endOfStream x, matchSeparator endOfStream (buffer.bytes.drop position ++ x) = none

/-- The boundary of an event that was found. -/
def boundaryOf (found : List Byte × List Byte × List Byte) : SseEventBoundary :=
  ⟨found.1.length, found.2.1.length⟩

/-- A search in a buffer that holds the bytes `b`. -/
structure Found (endOfStream : Bool) (b : List Byte)
    (found : Option SseEventBoundary × SseEventBuffer) : Prop where
  scanned : Scanned found.2
  active : found.2.activeBytes = b
  boundary : found.1 = (splitEvent endOfStream b).map boundaryOf

variable {buffer : SseEventBuffer}

theorem separatorAt_eq {position : Nat} (h : position < buffer.bytes.length) :
    buffer.separatorAt sseEventSeparators endOfStream position =
      matchSeparator endOfStream (buffer.bytes.drop position) := by
  unfold SseEventBuffer.separatorAt matchSeparator Matches
  congr 1
  funext separator
  have hedge : position + separator.length = buffer.bytes.length ↔
      separator.length = buffer.bytes.length - position := by omega
  rw [Bool.eq_iff_iff]
  simp [List.length_drop, hedge, or_assoc]

/-- The search from a position on. -/
theorem findSome_position (endOfStream : Bool) (position : Nat) (hposition : buffer.start ≤ position) :
    ((List.range' position (buffer.bytes.length - position)).findSome? fun position =>
      (buffer.separatorAt sseEventSeparators endOfStream position).map fun separator =>
        (⟨position - buffer.start, separator.length⟩ : SseEventBoundary)) =
      (splitEvent endOfStream (buffer.bytes.drop position)).map fun found =>
        ⟨position - buffer.start + found.1.length, found.2.1.length⟩ := by
  induction hlen : buffer.bytes.length - position generalizing position with
  | zero =>
    rw [List.drop_eq_nil_of_le (by omega)]
    rfl
  | succ n ih =>
    have hlt : position < buffer.bytes.length := by omega
    rw [List.range'_succ, List.findSome?_cons, separatorAt_eq hlt, List.drop_eq_getElem_cons hlt, splitEvent,
      ih (position + 1) (by omega) (by omega)]
    cases matchSeparator endOfStream (buffer.bytes[position] :: buffer.bytes.drop (position + 1)) with
    | some separator => rfl
    | none =>
      simp only [Option.map_none, Option.map_map]
      congr 1
      funext found
      simp only [Function.comp_apply, List.length_cons, SseEventBoundary.mk.injEq, and_true]
      omega

theorem separatorOverlap_eq : SseEventBuffer.separatorOverlap sseEventSeparators = 3 := by decide

/-- After a search in vain only the end of the buffer can still matter. -/
theorem scanned_resume (h : Scanned buffer) (hnone : splitEvent endOfStream buffer.activeBytes = none) :
    Scanned { buffer with
      scanFrom := max (buffer.bytes.length - SseEventBuffer.separatorOverlap sseEventSeparators)
        buffer.start } := by
  rw [separatorOverlap_eq]
  refine ⟨h.start_le, max_le (Nat.sub_le _ _) h.start_le, ?_⟩
  intro position (hstart : buffer.start ≤ position)
    (hposition : position < max (buffer.bytes.length - 3) buffer.start) eof x
  have hlength : 3 < (buffer.bytes.drop position).length := by
    rw [List.length_drop]
    omega
  have hhere : matchSeparator endOfStream (buffer.bytes.drop position) = none := by
    have hat := splitEvent_none hnone (position - buffer.start) (by
      rw [SseEventBuffer.activeBytes, List.length_drop]
      omega)
    rwa [SseEventBuffer.activeBytes, List.drop_drop, Nat.add_sub_cancel' hstart] at hat
  refine matchSeparator_append_none ?_ (fun hopen => ?_) eof x
  · cases endOfStream with
    | false => exact hhere
    | true =>
      rw [matchSeparator_eq_none] at hhere ⊢
      exact fun separator hmem hmatch => hhere separator hmem hmatch.atEnd
  · exact absurd hopen.spec.2.1 (Nat.not_le.2 hlength)

/-- **A search finds the first event of the active bytes**, and remembers what it need not look at again. -/
theorem nextBoundary_found (h : Scanned buffer) (endOfStream : Bool) :
    Found endOfStream buffer.activeBytes (buffer.nextBoundary sseEventSeparators endOfStream) := by
  have hfirst : max buffer.scanFrom buffer.start ≤ buffer.bytes.length := max_le h.scanFrom_le h.start_le
  -- the positions before the resume position find nothing
  have hskip : ((List.range' buffer.start (max buffer.scanFrom buffer.start - buffer.start)).findSome?
      fun position => (buffer.separatorAt sseEventSeparators endOfStream position).map fun separator =>
        (⟨position - buffer.start, separator.length⟩ : SseEventBoundary)) = none := by
    rw [List.findSome?_eq_none_iff]
    intro position hmem
    rw [List.mem_range'_1] at hmem
    have hnone := h.scanned position hmem.1 (by omega) endOfStream []
    rw [List.append_nil] at hnone
    rw [separatorAt_eq (by omega), hnone, Option.map_none]
  have hsplit : List.range' buffer.start (buffer.bytes.length - buffer.start) =
      List.range' buffer.start (max buffer.scanFrom buffer.start - buffer.start) ++
        List.range' (max buffer.scanFrom buffer.start)
          (buffer.bytes.length - max buffer.scanFrom buffer.start) := by
    have := List.range'_append_1 (s := buffer.start) (m := max buffer.scanFrom buffer.start - buffer.start)
      (n := buffer.bytes.length - max buffer.scanFrom buffer.start)
    rw [show buffer.start + (max buffer.scanFrom buffer.start - buffer.start) =
      max buffer.scanFrom buffer.start by omega] at this
    rw [this]
    congr 1
    omega
  have hfound := @findSome_position buffer endOfStream buffer.start (Nat.le_refl _)
  rw [hsplit, List.findSome?_append, hskip, Option.none_or] at hfound
  have hboundary : (splitEvent endOfStream buffer.activeBytes).map boundaryOf =
      (splitEvent endOfStream (buffer.bytes.drop buffer.start)).map fun found =>
        ⟨buffer.start - buffer.start + found.1.length, found.2.1.length⟩ := by
    simp only [Nat.sub_self, Nat.zero_add]
    rfl
  unfold SseEventBuffer.nextBoundary
  simp only [hfound]
  rw [← hboundary]
  cases hsome : splitEvent endOfStream buffer.activeBytes with
  | some found => exact ⟨h, rfl, by rw [hsome]; rfl⟩
  | none => exact ⟨scanned_resume h hsome, rfl, by rw [hsome]; rfl⟩

/-- Taking the event that was found leaves what follows its separator. -/
theorem takeEvent_found (h : Scanned buffer)
    (hsplit : splitEvent endOfStream buffer.activeBytes = some (event, separator, rest)) :
    (buffer.takeEvent (boundaryOf (event, separator, rest))).1 = event ∧
      Scanned (buffer.takeEvent (boundaryOf (event, separator, rest))).2 ∧
      (buffer.takeEvent (boundaryOf (event, separator, rest))).2.activeBytes = rest := by
  obtain ⟨hactive, -⟩ := splitEvent_eq hsplit
  have hlength : buffer.bytes.length =
      buffer.start + (event.length + separator.length + rest.length) := by
    have := congrArg List.length hactive
    simp only [SseEventBuffer.activeBytes, List.length_drop, List.length_append] at this
    have := h.start_le
    omega
  rw [SseEventBuffer.activeBytes] at hactive
  refine ⟨?_, ⟨?_, ?_, fun position hstart hposition => ?_⟩, ?_⟩
  · simp only [SseEventBuffer.takeEvent, boundaryOf]
    rw [List.drop_take, hactive, Nat.add_sub_cancel_left, List.append_assoc, List.take_left]
  · simp only [SseEventBuffer.takeEvent, boundaryOf]
    omega
  · simp only [SseEventBuffer.takeEvent, boundaryOf]
    omega
  · simp only [SseEventBuffer.takeEvent, boundaryOf] at hstart hposition
    omega
  · simp only [SseEventBuffer.takeEvent, boundaryOf, SseEventBuffer.activeBytes]
    rw [Nat.add_assoc, ← List.drop_drop, hactive, ← List.length_append, List.drop_left]

theorem scanned_empty : Scanned .empty :=
  ⟨Nat.le_refl _, Nat.le_refl _, fun _ _ h => absurd h (Nat.not_lt_zero _)⟩

theorem compactIfWorthwhile_spec (h : Scanned buffer) :
    Scanned buffer.compactIfWorthwhile ∧ buffer.compactIfWorthwhile.activeBytes = buffer.activeBytes := by
  unfold SseEventBuffer.compactIfWorthwhile
  split
  · rename_i hempty
    refine ⟨scanned_empty, ?_⟩
    rw [SseEventBuffer.activeBytes, SseEventBuffer.activeBytes, hempty, List.drop_length]
    rfl
  · split
    · exact ⟨h, rfl⟩
    · exact ⟨⟨Nat.zero_le _, Nat.zero_le _, fun _ _ hlt => absurd hlt (Nat.not_lt_zero _)⟩, rfl⟩

theorem extend_scanned (h : Scanned buffer) (chunk : List Byte) :
    Scanned { buffer with bytes := buffer.bytes ++ chunk } ∧
      ({ buffer with bytes := buffer.bytes ++ chunk } : SseEventBuffer).activeBytes =
        buffer.activeBytes ++ chunk := by
  have hstart := h.start_le
  have hscan := h.scanFrom_le
  refine ⟨⟨?_, ?_, fun position hle hlt eof x => ?_⟩, ?_⟩
  · simp only [List.length_append]
    omega
  · simp only [List.length_append]
    omega
  · simp only at hle hlt ⊢
    rw [List.drop_append_of_le_length (by omega), List.append_assoc]
    exact h.scanned position hle hlt eof (chunk ++ x)
  · simp only [SseEventBuffer.activeBytes]
    rw [List.drop_append_of_le_length hstart]

/-- A new chunk, empty or not, is searched with what was pending. -/
theorem extendChunk_found (h : Scanned buffer) (hpending : splitEvent false buffer.activeBytes = none)
    (chunk : List Byte) :
    Found false (buffer.activeBytes ++ chunk)
      (buffer.extendChunkAndFindBoundary chunk sseEventSeparators) := by
  unfold SseEventBuffer.extendChunkAndFindBoundary
  split
  · rename_i hchunk
    rw [hchunk, List.append_nil]
    exact ⟨h, rfl, by rw [hpending]; rfl⟩
  · obtain ⟨hcompact, hactive⟩ := compactIfWorthwhile_spec h
    obtain ⟨hextended, happend⟩ := extend_scanned hcompact chunk
    rw [← hactive, ← happend]
    exact nextBoundary_found hextended false

/-! ## The loop -/

section
variable {σ : Type} {processEvent : List Byte → Stateful σ CoreError EventAction}

theorem ensureEventSize_eq (event : List Byte) :
    ensureEventSize event.length = rejectIf (sseFraming.fits event = false) eventTooLargeError := by
  simp [ensureEventSize, sseFraming, rejectIf]

theorem ensurePendingSize_eq (b : List Byte) (endOfStream : Bool) :
    ensurePendingSize b endOfStream =
      rejectIf (sseFraming.pendingFits endOfStream b = false) eventTooLargeError := by
  unfold ensurePendingSize
  change _ = rejectIf (pendingFits endOfStream b = false) _
  unfold rejectIf pendingFits
  split
  · simp [*]
  · split <;> simp_all

/-- **The loop over the events of the buffer** drains its active bytes. -/
theorem takeEvents_eq {k : Option SseEventBuffer → Stateful σ CoreError (Option (List Byte))}
    {k' : List Byte → Stateful σ CoreError (Option (List Byte))} (hdone : k none = pure none)
    (hpending : ∀ buffer, Scanned buffer → splitEvent endOfStream buffer.activeBytes = none →
      k (some buffer) = k' buffer.activeBytes) :
    ∀ {fuel : Nat} {b : List Byte} {found : Option SseEventBoundary × SseEventBuffer},
      Found endOfStream b found → b.length ≤ fuel →
      (takeEvents processEvent endOfStream fuel found >>= k) =
        sseFraming.drain eventTooLargeError processEvent endOfStream b >>= Framing.andPending k'
  | 0, b, found, hfound, hfuel => by
    have hb : b = [] := List.length_eq_zero_iff.1 (Nat.le_zero.1 hfuel)
    have hnone : splitEvent endOfStream b = none := by rw [hb]; rfl
    rw [Framing.drain_none hnone, takeEvents, pure_bind, pure_bind, Framing.andPending,
      hpending _ hfound.scanned (hfound.active ▸ hnone), hfound.active]
  | fuel + 1, b, found, hfound, hfuel => by
    rw [takeEvents, hfound.boundary]
    cases hsplit : splitEvent endOfStream b with
    | none =>
      rw [Framing.drain_none hsplit, Option.map_none]
      simp only [pure_bind, Framing.andPending]
      rw [hpending _ hfound.scanned (hfound.active ▸ hsplit), hfound.active]
    | some event =>
      obtain ⟨event, separator, rest⟩ := event
      obtain ⟨hevent, hscanned, hrest⟩ := takeEvent_found hfound.scanned (hfound.active ▸ hsplit)
      have hnext := nextBoundary_found hscanned endOfStream
      rw [hrest] at hnext
      have hless : rest.length < b.length := sseFraming.next_length hsplit
      rw [Framing.drain_some hsplit, Option.map_some]
      simp only [bind_assoc]
      have hsize : ensureEventSize (boundaryOf (event, separator, rest)).eventLen = _ :=
        ensureEventSize_eq event
      rw [hevent, hsize]
      refine bind_congr fun _ => bind_congr fun action => ?_
      cases action with
      | done => exact hdone
      | «continue» => exact takeEvents_eq hdone hpending hnext (by omega)

/-- **The chunks** are consumed as the framing consumes them. -/
theorem takeChunks_eq {k : Option SseEventBuffer → Stateful σ CoreError (Option (List Byte))}
    (hdone : k none = pure none)
    (hpending : ∀ buffer, Scanned buffer → k (some buffer) =
      sseFraming.finish eventTooLargeError processEvent buffer.activeBytes) :
    ∀ {chunks : List (List Byte)} {total : Nat} {buffer : SseEventBuffer}, Scanned buffer →
      splitEvent false buffer.activeBytes = none → total + chunks.flatten.length ≤ maxStreamBytes →
      (takeChunks processEvent chunks total buffer >>= k) =
        sseFraming.consume eventTooLargeError processEvent buffer.activeBytes chunks
  | [], total, buffer, hscanned, _, _ => by
    rw [takeChunks, pure_bind, hpending buffer hscanned, Framing.consume]
  | chunk :: chunks, total, buffer, hscanned, hnone, htotal => by
    rw [List.flatten_cons, List.length_append] at htotal
    have hfound := extendChunk_found hscanned hnone chunk
    have hfuel : (buffer.activeBytes ++ chunk).length ≤
        (buffer.extendChunkAndFindBoundary chunk sseEventSeparators).2.bytes.length := by
      rw [← hfound.active, SseEventBuffer.activeBytes, List.length_drop]
      exact Nat.sub_le _ _
    have hsize : ensureStreamSize (total + chunk.length) = .ok () := by
      rw [ensureStreamSize, rejectIf_eq_ok]
      omega
    rw [takeChunks, Framing.consume, hsize, Stateful.lift_ok_bind, bind_assoc]
    refine takeEvents_eq ((pure_bind _ _).trans hdone) (fun pending hpend hempty => ?_) hfound hfuel
    simp only [bind_assoc, ensurePendingSize_eq, Framing.checkPending]
    refine bind_congr fun _ => takeChunks_eq hdone hpending hpend hempty (by omega)

/-- **The loop of `generate` frames the whole stream.** -/
theorem frameStream_eq {chunks : List (List Byte)} (hsize : chunks.flatten.length ≤ maxStreamBytes) :
    frameStream processEvent chunks =
      sseFraming.finish eventTooLargeError processEvent chunks.flatten := by
  rw [← List.nil_append chunks.flatten, ← Framing.consume_eq]
  refine takeChunks_eq rfl (fun buffer hscanned => ?_) scanned_empty rfl (by omega)
  have hfuel : buffer.activeBytes.length ≤ buffer.bytes.length := by
    rw [SseEventBuffer.activeBytes, List.length_drop]
    exact Nat.sub_le _ _
  refine takeEvents_eq rfl (fun pending _ _ => ?_) (nextBoundary_found hscanned true) hfuel
  simp only [ensurePendingSize_eq, Framing.checkPending]

/-- **Framing does not depend on the chunks**: any two ways to cut a stream hand the same events to the
handler and end with the same leftover or the same error, and the events with their separators and the
leftover make up the stream. -/
theorem frameStream_chunking (processEvent : List Byte → Stateful σ CoreError EventAction) (s : σ)
    {chunks chunks' : List (List Byte)} (hsame : chunks.flatten = chunks'.flatten)
    (hsize : chunks.flatten.length ≤ maxStreamBytes) :
    (frameStream processEvent chunks).run s = (frameStream processEvent chunks').run s ∧
      (frameStream (Framing.recording processEvent) chunks).run (s, []) =
        (frameStream (Framing.recording processEvent) chunks').run (s, []) ∧
      ∃ events leftover, chunks.flatten = Framing.joined events ++ leftover ∧
        (∀ event ∈ events, event.2 ∈ sseEventSeparators) ∧
        ((frameStream (Framing.recording processEvent) chunks).run (s, [])).2.2 = events.map (·.1) ∧
        ∀ rest, ((frameStream (Framing.recording processEvent) chunks).run (s, [])).1 = .ok (some rest) →
          rest = leftover := by
  have hsize' : chunks'.flatten.length ≤ maxStreamBytes := hsame ▸ hsize
  refine ⟨?_, ?_, ?_⟩
  · rw [frameStream_eq hsize, frameStream_eq hsize', hsame]
  · rw [frameStream_eq hsize, frameStream_eq hsize', hsame]
  · rw [frameStream_eq hsize]
    generalize hrun : (sseFraming.finish eventTooLargeError (Framing.recording processEvent)
      chunks.flatten).run (s, []) = run
    obtain ⟨events, leftover, hstream, hseparators, hseen, hleftover⟩ :=
      Framing.finish_recording chunks.flatten hrun
    exact ⟨events, leftover, hstream, hseparators, hseen, fun rest hrest => (hleftover rest hrest).symm⟩

/-- An event whose separator is cut in two. -/
theorem frameStream_chunking_cut :
    (frameStream (fun event (seen : Nat) => (.ok .continue, seen + event.length))
      [[100, cr], [], [cr, lf, 101]]).run 0 =
    (frameStream (fun event (seen : Nat) => (.ok .continue, seen + event.length))
      [[100, cr, cr, lf, 101]]).run 0 :=
  (frameStream_chunking _ 0 (by decide) (by decide)).1

end

end LorePia
