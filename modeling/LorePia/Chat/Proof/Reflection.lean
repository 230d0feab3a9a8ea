import LorePia.Chat.Reflection

/-!
# The reflection filter holds back a beginning of the credential

After any fragments without the credential, what was released and what is held back are the whole input, and
what is held back is the longest proper beginning of the credential that the input ends in (`Filtered`). The
next fragment either completes an occurrence, none of whose bytes was released, or keeps this
(`push_spec`).
-/

namespace LorePia

open Base

/-- The text contains the credential. -/
def Contains (credential text : String) : Prop := utf8Bytes credential <:+: utf8Bytes text

/-- The guard of a credential. -/
structure Guards (guard : CredentialReflectionGuard) (credential : String) : Prop where
  nonempty : credential ≠ ""
  protects : guard.credential = some credential
  table : ∃ table, guard.prefixTable = some table ∧
    Kmp.Borders (utf8Bytes credential) table (utf8Bytes credential).length

theorem guard_new {credential : String} (h : credential ≠ "") :
    ∃ guard, CredentialReflectionGuard.new (some credential) = .ok guard ∧ Guards guard credential := by
  obtain ⟨table, htable, -, hborders⟩ := Kmp.buildTable_spec (utf8Bytes_ne_nil h)
  refine ⟨⟨some credential, some table⟩, ?_, h, rfl, table, rfl, hborders⟩
  unfold CredentialReflectionGuard.new
  rw [Option.filter_some, if_pos (decide_eq_true h)]
  dsimp only
  rw [buildCredentialPrefixTable, htable]

/-- What was released and what is held back of an input. -/
structure Filtered (credential input released : String) (stream : ReflectionStream) : Prop where
  guards : Guards stream.guard credential
  whole : released ++ stream.pending = input
  longest : Kmp.Longest (utf8Bytes credential) (utf8Bytes input) (utf8Bytes stream.pending).length
  proper : (utf8Bytes stream.pending).length < (utf8Bytes credential).length
  clean : ¬ Contains credential input

theorem filtered_new {credential : String} {guard : CredentialReflectionGuard} (h : Guards guard credential) :
    Filtered credential "" "" (ReflectionStream.new guard) where
  guards := h
  whole := rfl
  longest := Kmp.longest_nil
  proper := List.length_pos_of_ne_nil (utf8Bytes_ne_nil h.nonempty)
  clean := fun hinfix => utf8Bytes_ne_nil h.nonempty (List.infix_nil.1 hinfix)

section
variable {credential input released : String} {stream : ReflectionStream}

/-- What is held back is a beginning of the credential. -/
theorem Filtered.pending_eq (h : Filtered credential input released stream) :
    utf8Bytes stream.pending = (utf8Bytes credential).take (utf8Bytes stream.pending).length := by
  have hsuffix : utf8Bytes stream.pending <:+ utf8Bytes input := by
    rw [← h.whole, utf8Bytes_append]
    exact List.suffix_append _ _
  have hlength : ((utf8Bytes credential).take (utf8Bytes stream.pending).length).length =
      (utf8Bytes stream.pending).length := by
    rw [List.length_take, Nat.min_eq_left h.longest.le]
  exact (List.suffix_of_suffix_length_le hsuffix h.longest.suffix (by omega)).eq_of_length hlength.symm

/-- No occurrence starts in what was released. -/
theorem Filtered.occurrence (h : Filtered credential input released stream) {fragment : String}
    {before after : List UInt8}
    (hocc : utf8Bytes (input ++ fragment) = before ++ utf8Bytes credential ++ after) :
    released.utf8ByteSize ≤ before.length := by
  rw [utf8Bytes_append] at hocc
  have hstart := Kmp.length_le_of_occurrence h.longest h.clean hocc
  rw [← h.whole, utf8Bytes_append, List.length_append, length_utf8Bytes] at hstart
  omega

/-- The text that is searched: what was held back, and the fragment. -/
theorem Filtered.searched (h : Filtered credential input released stream) (fragment : String) :
    utf8Bytes (stream.pending ++ fragment) =
      (utf8Bytes credential).take (utf8Bytes stream.pending).length ++ utf8Bytes fragment := by
  rw [utf8Bytes_append, ← h.pending_eq]

/-- The search of the held text and the fragment. -/
theorem Filtered.scan (h : Filtered credential input released stream) (fragment : String) {table : List Nat}
    (htable : Kmp.Borders (utf8Bytes credential) table (utf8Bytes credential).length) :
    (credentialSuffixAfterLinearScan (stream.pending ++ fragment) credential table = some none ∧
        Contains credential (input ++ fragment)) ∨
      ∃ k, credentialSuffixAfterLinearScan (stream.pending ++ fragment) credential table = some (some k) ∧
        k < (utf8Bytes credential).length ∧
        (utf8Bytes credential).take k <:+ utf8Bytes (stream.pending ++ fragment) ∧
        Kmp.Longest (utf8Bytes credential) (utf8Bytes (input ++ fragment)) k ∧
        ¬ Contains credential (input ++ fragment) := by
  have hpos := List.length_pos_of_ne_nil (utf8Bytes_ne_nil h.guards.nonempty)
  have hno : ¬ utf8Bytes credential <:+: [] := fun hinfix =>
    utf8Bytes_ne_nil h.guards.nonempty (List.infix_nil.1 hinfix)
  have hscan := @Kmp.scan_spec _ (utf8Bytes credential) _ table htable
    (utf8Bytes (stream.pending ++ fragment)) [] 0 hpos Kmp.longest_nil hno
  unfold Contains credentialSuffixAfterLinearScan
  rw [utf8Bytes_append input]
  rw [List.nil_append, h.searched, Kmp.infix_restart h.longest h.clean] at hscan
  obtain ⟨hnone, hinfix⟩ | ⟨k, hsome, hlt, hlongest, hclean⟩ := hscan
  · rw [h.searched]
    exact .inl ⟨hnone, hinfix⟩
  · rw [h.searched]
    exact .inr ⟨k, hsome, hlt, hlongest.suffix, h.longest.restart.1 hlongest, hclean⟩

/-- **One fragment.** Either it completes an occurrence and the push fails, with no byte of an occurrence
released, or a piece is released and the rest is held back. -/
theorem push_spec (h : Filtered credential input released stream) (fragment : String) :
    (Contains credential (input ++ fragment) ∧
        (ReflectionStream.push fragment).run stream =
          (.error (.failed credentialReflectionError), { stream with pending := "" })) ∨
      ∃ piece stream', (ReflectionStream.push fragment).run stream = (.ok piece, stream') ∧
        stream'.guard = stream.guard ∧
        Filtered credential (input ++ fragment) (released ++ piece) stream' := by
  obtain ⟨table, htable, hborders⟩ := h.guards.table
  have hpending : (if stream.pending = "" then fragment else stream.pending ++ fragment) =
      stream.pending ++ fragment := by
    split
    · rename_i hempty
      rw [hempty, String.empty_append]
    · rfl
  unfold ReflectionStream.push
  simp only [Stateful.run, h.guards.protects, htable, hpending]
  obtain ⟨hscan, hcontains⟩ | ⟨k, hscan, hlt, hsuffix, hlongest, hclean⟩ := h.scan fragment hborders
  · rw [hscan]
    exact .inl ⟨hcontains, rfl⟩
  · rw [hscan]
    obtain ⟨front, back, heq, hback, hsplit⟩ := splitOff_of_suffix h.guards.nonempty hsuffix
      (Nat.le_of_lt hlt)
    have hlength : (utf8Bytes back).length = k := by
      rw [hback, List.length_take, Nat.min_eq_left (Nat.le_of_lt hlt)]
    refine .inr ?_
    dsimp only
    by_cases hnone : (stream.pending ++ fragment).utf8ByteSize - k = 0
    · rw [if_pos hnone]
      have hempty : front = "" := by
        have hsize := congrArg (fun text => (utf8Bytes text).length) heq
        simp only [utf8Bytes_append front, List.length_append, hlength, length_utf8Bytes] at hsize
        refine utf8Bytes_inj (List.length_eq_zero_iff.1 ?_)
        rw [length_utf8Bytes]
        omega
      rw [hempty, String.empty_append] at heq
      refine ⟨"", _, rfl, rfl, h.guards, ?_, ?_, ?_, hclean⟩
      · rw [← h.whole, String.append_empty, String.append_assoc]
      · rw [heq, hlength]
        exact hlongest
      · rw [heq, hlength]
        exact hlt
    · rw [if_neg hnone, hsplit]
      refine ⟨front, { stream with pending := back }, rfl, rfl, h.guards, ?_, ?_, ?_, hclean⟩
      · rw [← h.whole, String.append_assoc, String.append_assoc, heq]
      · rw [hlength]
        exact hlongest
      · rw [hlength]
        exact hlt

end

/-! ## Runs -/

/-- The fragments in a row. -/
def textOf : List String → String
  | [] => ""
  | fragment :: fragments => fragment ++ textOf fragments

/-- The pieces that a stream releases of its fragments, up to a failure. -/
def pushAll : List String → Stateful ReflectionStream ChatStop (List String)
  | [] => pure []
  | fragment :: fragments => do
    let piece ← ReflectionStream.push fragment
    let pieces ← pushAll fragments
    pure (piece :: pieces)

/-- The longest proper beginning of the credential that the input ends in. -/
structure HeldBack (credential input pending : String) : Prop where
  beginning : utf8Bytes pending <+: utf8Bytes credential
  proper : pending ≠ credential
  ending : utf8Bytes pending <:+ utf8Bytes input
  longest : ∀ part, part <+: utf8Bytes credential → part ≠ utf8Bytes credential → part <:+ utf8Bytes input →
    part.length ≤ (utf8Bytes pending).length

section
variable {credential input released : String} {stream : ReflectionStream}

theorem Filtered.heldBack (h : Filtered credential input released stream) :
    HeldBack credential input stream.pending where
  beginning := by
    rw [h.pending_eq]
    exact List.take_prefix _ _
  proper := by
    intro heq
    have hproper := h.proper
    rw [heq] at hproper
    exact Nat.lt_irrefl _ hproper
  ending := by
    rw [h.pending_eq]
    exact h.longest.suffix
  longest := by
    intro part hpart _ hending
    rw [List.prefix_iff_eq_take.1 hpart] at hending
    exact h.longest.longest part.length hpart.length_le hending

/-- The input decides what is released and what is held back. -/
theorem Filtered.unique (h : Filtered credential input released stream) {released' : String}
    {stream' : ReflectionStream} (h' : Filtered credential input released' stream') :
    released' = released ∧ stream'.pending = stream.pending := by
  have hlength := h'.longest.unique h.longest
  have hpending : stream'.pending = stream.pending := by
    apply utf8Bytes_inj
    rw [h'.pending_eq, h.pending_eq, hlength]
  refine ⟨?_, hpending⟩
  have hwhole := h'.whole.trans h.whole.symm
  rw [hpending] at hwhole
  exact String.append_left_inj _ |>.1 hwhole

/-- **A run** releases the input but for what is held back, or fails. -/
theorem pushAll_spec : ∀ {fragments : List String} {input released : String} {stream : ReflectionStream},
    Filtered credential input released stream →
    (∃ pieces stream', (pushAll fragments).run stream = (.ok pieces, stream') ∧
      stream'.guard = stream.guard ∧
      Filtered credential (input ++ textOf fragments) (released ++ textOf pieces) stream') ∨
    (Contains credential (input ++ textOf fragments) ∧
      ((pushAll fragments).run stream).1 = .error (.failed credentialReflectionError))
  | [], input, released, stream, h => by
    refine .inl ⟨[], stream, rfl, rfl, ?_⟩
    rw [textOf, String.append_empty, String.append_empty]
    exact h
  | fragment :: fragments, input, released, stream, h => by
    rw [pushAll, Stateful.run_bind, textOf, ← String.append_assoc]
    obtain ⟨hcontains, hpush⟩ | ⟨piece, next, hpush, hguard, hnext⟩ := push_spec h fragment
    · rw [hpush]
      refine .inr ⟨?_, rfl⟩
      unfold Contains
      rw [utf8Bytes_append]
      exact hcontains.trans (List.prefix_append _ _).isInfix
    · rw [hpush]
      dsimp only
      rw [Stateful.run_bind]
      obtain ⟨pieces, stream', hrun, hguard', hfiltered⟩ | ⟨hcontains, hrun⟩ := pushAll_spec hnext
      · rw [hrun]
        refine .inl ⟨piece :: pieces, stream', rfl, hguard'.trans hguard, ?_⟩
        rw [textOf, ← String.append_assoc]
        exact hfiltered
      · refine .inr ⟨hcontains, ?_⟩
        cases hresult : (pushAll fragments).run next with
        | mk result stream' =>
          rw [hresult] at hrun
          cases hrun
          rfl

end

/-- **The filter is exact.** While the fragments do not contain the credential, what was released and `finish`
give the fragments, what is held back is the longest proper beginning of the credential that they end in, and
the cuts do not matter; the next fragment fails exactly when it completes an occurrence, and no byte of an
occurrence was released before. -/
theorem reflectionStream_exact {credential : String} (hcredential : credential ≠ "") :
    ∃ guard, CredentialReflectionGuard.new (some credential) = .ok guard ∧ ∀ fragments : List String,
      (¬ Contains credential (textOf fragments) → ∃ pieces stream,
        (pushAll fragments).run (.new guard) = (.ok pieces, stream) ∧
        textOf pieces ++ stream.finish.1 = textOf fragments ∧
        HeldBack credential (textOf fragments) stream.pending ∧
        (∀ fragments', textOf fragments' = textOf fragments → ∃ pieces',
          (pushAll fragments').run (.new guard) = (.ok pieces', stream) ∧ textOf pieces' = textOf pieces) ∧
        ∀ fragment,
          (¬ Contains credential (textOf fragments ++ fragment) →
            ∃ piece stream', (ReflectionStream.push fragment).run stream = (.ok piece, stream')) ∧
          (Contains credential (textOf fragments ++ fragment) →
            ((ReflectionStream.push fragment).run stream).1 = .error (.failed credentialReflectionError) ∧
            ∀ before after,
              utf8Bytes (textOf fragments ++ fragment) = before ++ utf8Bytes credential ++ after →
              (textOf pieces).utf8ByteSize ≤ before.length)) ∧
      (Contains credential (textOf fragments) →
        ((pushAll fragments).run (.new guard)).1 = .error (.failed credentialReflectionError)) := by
  obtain ⟨guard, hnew, hguards⟩ := guard_new hcredential
  refine ⟨guard, hnew, fun fragments => ⟨fun hclean => ?_, fun hcontains => ?_⟩⟩
  · have hruns : ∀ fragments', textOf fragments' = textOf fragments → ∃ pieces stream,
        (pushAll fragments').run (.new guard) = (.ok pieces, stream) ∧ stream.guard = guard ∧
        Filtered credential (textOf fragments) (textOf pieces) stream := by
      intro fragments' htext
      obtain ⟨pieces, stream, hrun, hguard, hfiltered⟩ | ⟨hcontains, -⟩ :=
        @pushAll_spec credential fragments' _ _ _ (filtered_new hguards)
      · rw [String.empty_append, String.empty_append, htext] at hfiltered
        exact ⟨pieces, stream, hrun, hguard, hfiltered⟩
      · rw [String.empty_append, htext] at hcontains
        exact absurd hcontains hclean
    obtain ⟨pieces, stream, hrun, hguard, hfiltered⟩ := hruns fragments rfl
    refine ⟨pieces, stream, hrun, hfiltered.whole, hfiltered.heldBack, fun fragments' htext => ?_,
      fun fragment => ⟨fun hnext => ?_, fun hnext => ⟨?_, fun before after hocc => ?_⟩⟩⟩
    · obtain ⟨pieces', stream', hrun', hguard', hfiltered'⟩ := hruns fragments' htext
      obtain ⟨hpieces, hpending⟩ := hfiltered.unique hfiltered'
      refine ⟨pieces', ?_, hpieces⟩
      rw [hrun']
      obtain ⟨g, p⟩ := stream
      obtain ⟨g', p'⟩ := stream'
      cases hguard
      cases hguard'
      cases hpending
      rfl
    · obtain ⟨hcontains, -⟩ | ⟨piece, stream', hpush, -⟩ := push_spec hfiltered fragment
      · exact absurd hcontains hnext
      · exact ⟨piece, stream', hpush⟩
    · obtain ⟨-, hpush⟩ | ⟨piece, stream', -, -, hfiltered'⟩ := push_spec hfiltered fragment
      · rw [hpush]
      · exact absurd hnext hfiltered'.clean
    · exact hfiltered.occurrence hocc
  · obtain ⟨pieces, stream, -, -, hfiltered⟩ | ⟨-, hrun⟩ :=
      @pushAll_spec credential fragments _ _ _ (filtered_new hguards)
    · rw [String.empty_append] at hfiltered
      exact absurd hcontains hfiltered.clean
    · exact hrun

theorem reflectionStream_exact_overlap : ∃ guard, CredentialReflectionGuard.new (some "abab") = .ok guard ∧
    ((pushAll ["xaba", "c", "ab", "ab"]).run (.new guard)).1 = .error (.failed credentialReflectionError) := by
  obtain ⟨guard, hnew, hruns⟩ := reflectionStream_exact (show "abab" ≠ "" by decide)
  exact ⟨guard, hnew, (hruns ["xaba", "c", "ab", "ab"]).2 (by unfold Contains; decide +kernel)⟩

end LorePia
