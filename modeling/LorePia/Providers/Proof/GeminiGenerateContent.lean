import LorePia.Providers.GeminiGenerateContent
import LorePia.Providers.Proof.ToolCalls

/-!
# Gemini streams and the unary form

The parts of a response change the counters and what is sent whatever the progress and the usage are
(`processResponsePart_beside`), so a stream that distributes the parts of a unary response is compared with it
response by response: `Following` relates the two states before the finish, `Followed` after it. The other
results are about every successful run: `Streaming` is its invariant.
-/

namespace LorePia.Gemini

open Base

variable {ω : Type} {codec : Codec}

/-! ## The parts -/

/-- Two states that differ in their progress and usage at most. -/
structure SameCore (s t : ResponseState ω) : Prop where
  emittedTextBytes : s.emittedTextBytes = t.emittedTextBytes
  responseParts : s.responseParts = t.responseParts
  nextToolCallIndex : s.nextToolCallIndex = t.nextToolCallIndex
  toolCallIds : s.toolCallIds = t.toolCallIds
  sent : s.sent = t.sent

/-- Two states with given progress and usage and the same counters and events. -/
structure Beside (p q : ResponseProgress) (u v : GenerationUsage) (s t : ResponseState ω) : Prop where
  core : SameCore s t
  left : s.progress = p
  right : t.progress = q
  leftUsage : s.usage = u
  rightUsage : t.usage = v

/-- The computation works alike beside any progress and usage, and keeps them. -/
def Inner {α : Type} (x : Consume ω α) : Prop := ∀ p q u v, Stateful.Relates (Beside p q u v) x x (Beside p q u v) SameCore

section
variable {α β : Type}

theorem inner_pure (a : α) : Inner (pure a : Consume ω α) := fun _ _ _ _ => .pure fun _ _ h => h

theorem inner_lift (x : Except CoreError α) : Inner (Stateful.lift x : Consume ω α) :=
  fun _ _ _ _ => .lift (fun _ _ h => h) fun _ _ h => h.core

theorem Inner.bind {x : Consume ω α} {f : α → Consume ω β} (hx : Inner x) (hf : ∀ a, Inner (f a)) :
    Inner (x >>= f) := fun p q u v => (hx p q u v).bind fun a => hf a p q u v

/-- A computation that reads of the state what both sides share. -/
theorem inner_get_bind {f : ResponseState ω → Consume ω β} (hsame : ∀ s t, SameCore s t → f s = f t)
    (hf : ∀ s, Inner (f s)) : Inner (Stateful.get >>= f) := by
  intro p q u v s t h
  have hrun := hf s p q u v s t h
  rw [Stateful.run_get_bind, Stateful.run_get_bind, ← hsame s t h.core]
  exact hrun

theorem inner_modify {f : ResponseState ω → ResponseState ω} (hcore : ∀ s t, SameCore s t → SameCore (f s) (f t))
    (hprogress : ∀ s, (f s).progress = s.progress) (husage : ∀ s, (f s).usage = s.usage) :
    Inner (Stateful.modify f : Consume ω Unit) := fun _ _ _ _ => .modify fun s t h =>
  ⟨hcore s t h.core, (hprogress s).trans h.left, (hprogress t).trans h.right, (husage s).trans h.leftUsage,
    (husage t).trans h.rightUsage⟩

end

theorem inner_send (event : ProviderEvent ω) : Inner (send event) :=
  inner_modify (fun _ _ h => { h with sent := by rw [h.sent] }) (fun _ => rfl) fun _ => rfl

theorem inner_countPart : Inner (countPart : Consume ω Unit) :=
  inner_get_bind (fun _ _ h => by rw [h.responseParts]) fun _ => (inner_lift _).bind fun _ =>
    inner_modify (fun _ _ h => { h with responseParts := rfl }) (fun _ => rfl) fun _ => rfl

theorem inner_takeToolCallIndex : Inner (takeToolCallIndex : Consume ω Nat) := by
  refine inner_get_bind (fun _ _ h => by rw [h.nextToolCallIndex]) fun s => (inner_lift _).bind fun next =>
    Inner.bind (inner_modify ?_ ?_ ?_) fun _ => inner_pure _
  · exact fun _ _ h => { h with nextToolCallIndex := rfl }
  · exact fun _ => rfl
  · exact fun _ => rfl

theorem inner_takeToolCallId (id : String) : Inner (takeToolCallId id : Consume ω Unit) := by
  refine (inner_lift _).bind fun _ => inner_get_bind (fun _ _ h => by rw [h.toolCallIds]) fun s =>
    (inner_lift _).bind fun _ => inner_modify ?_ ?_ ?_
  · exact fun _ _ h => { h with toolCallIds := congrArg (insert id) h.toolCallIds }
  · exact fun _ => rfl
  · exact fun _ => rfl

theorem inner_emitGeminiFunctionCall (functionCall : GeminiFunctionCall) :
    Inner (emitGeminiFunctionCall codec functionCall : Consume ω Unit) :=
  inner_takeToolCallIndex.bind fun _ => (inner_takeToolCallId _).bind fun _ => (inner_lift _).bind fun _ =>
    (inner_lift _).bind fun _ => (inner_send _).bind fun _ => (inner_send _).bind fun _ => inner_send _

theorem inner_emitText (thought : Bool) (text : String) : Inner (emitText thought text : Consume ω Unit) := by
  refine inner_get_bind (fun _ _ h => by rw [h.emittedTextBytes]) fun _ => (inner_lift _).bind fun emitted =>
    Inner.bind (inner_modify ?_ ?_ ?_) fun _ => (inner_lift _).bind fun _ => inner_send _
  · exact fun _ _ h => { h with emittedTextBytes := rfl }
  · exact fun _ => rfl
  · exact fun _ => rfl

theorem inner_emitPart (part : ResponsePart) : Inner (emitPart codec part : Consume ω Unit) := by
  unfold emitPart
  split
  · exact inner_emitGeminiFunctionCall _
  · split
    · exact inner_emitText _ _
    · exact inner_pure ()

/-- **A part works alike beside any progress and usage**, and shows supported content. -/
theorem processResponsePart_beside (part : ResponsePart) (p q : ResponseProgress) (u v : GenerationUsage) :
    Stateful.Relates (Beside p q u v) (processResponsePart codec part : Consume ω Unit) (processResponsePart codec part)
      (Beside .supportedContent .supportedContent u v) SameCore := by
  have hshow : Stateful.Relates (Beside p q u v)
      (Stateful.modify fun state => { state with progress := .supportedContent } : Consume ω Unit)
      (Stateful.modify fun state => { state with progress := .supportedContent })
      (Beside .supportedContent .supportedContent u v) SameCore :=
    .modify fun s t h => ⟨{ h.core with }, rfl, rfl, h.leftUsage, h.rightUsage⟩
  exact (inner_countPart p q u v).bind fun _ => (inner_lift _ p q u v).bind fun _ => hshow.bind fun _ =>
    (inner_lift _ _ _ u v).bind fun _ => inner_emitPart part _ _ u v

/-! ## Usage -/

theorem mergeUsageSummary_again (key : String) (count : Option Nat) :
    mergeUsageSummary (mergeUsageSummary none [(key, count)]) [(key, count)] =
      mergeUsageSummary none [(key, count)] := by
  cases count with
  | none => rfl
  | some n =>
    have hsame : (OrdMap.empty.insert key n).insert key n = OrdMap.empty.insert key n := OrdMap.ext_get? fun other => by
      rw [OrdMap.get?_insert, OrdMap.get?_insert]
      split <;> rfl
    show (if ((OrdMap.empty.insert key n).insert key n).entries = [] then none
      else some ((OrdMap.empty.insert key n).insert key n)) = some (OrdMap.empty.insert key n)
    rw [hsame]
    rfl

/-- The usage that metadata gives. -/
def usageOf (metadata : UsageMetadata) : GenerationUsage := updateUsage (some metadata) .empty

/-- The same metadata once more change nothing. -/
theorem updateUsage_again (metadata : UsageMetadata) : updateUsage (some metadata) (usageOf metadata) = usageOf metadata := by
  have hor : ∀ a : Option Nat, a.or (a.or none) = a.or none := fun a => by cases a <;> rfl
  simp only [updateUsage, usageOf, GenerationUsage.empty, hor, mergeUsageSummary_again]

/-! ## Responses -/

/-- The parts of a response. -/
def GenerateContentResponse.parts (response : GenerateContentResponse) : List ResponsePart :=
  response.candidates.flatMap fun candidate => (candidate.content.map (·.parts)).getD []

/-- A response with the metadata or none in which `process_response` refuses at most the parts and the reason. -/
structure Plain (metadata : UsageMetadata) (response : GenerateContentResponse) : Prop where
  unblocked : response.blockReason = none
  usage : response.usageMetadata = none ∨ response.usageMetadata = some metadata
  single : response.candidates.length ≤ 1
  index : ∀ candidate ∈ response.candidates, candidate.index.any (· ≠ 0) = false
  role : ∀ candidate ∈ response.candidates, ∀ content, candidate.content = some content →
    content.role.any (· ≠ "model") = false

/-- The responses distribute the parts in order, with the finish reason on the last one that has a candidate. -/
structure Distributes (parts : List ResponsePart) (reason : String) (metadata : UsageMetadata)
    (before : List GenerateContentResponse) (last : GenerateContentResponse)
    (after : List GenerateContentResponse) : Prop where
  plain : ∀ response ∈ before ++ last :: after, Plain metadata response
  unfinished : ∀ response ∈ before, ∀ candidate ∈ response.candidates, candidate.finishReason = none
  finished : ∃ candidate, last.candidates = [candidate] ∧ candidate.finishReason = some reason
  bare : ∀ response ∈ after, response.candidates = []
  parts : (before ++ last :: after).flatMap (·.parts) = parts
  metadata : ∃ response ∈ before ++ last :: after, response.usageMetadata.isSome = true

/-- The parts, one after the other. -/
def takeParts (codec : Codec) (parts : List ResponsePart) : Consume ω Unit := parts.forM (processResponsePart codec)

theorem takeParts_append (parts more : List ResponsePart) :
    (takeParts codec (parts ++ more) : Consume ω Unit) = takeParts codec parts >>= fun _ => takeParts codec more := by
  unfold takeParts
  exact List.forM_append

/-- The state in which a plain response is looked at. -/
def ResponseState.looking (s : ResponseState ω) (response : GenerateContentResponse) : ResponseState ω :=
  { s with
    progress := s.progress.observeResponse
    usage := updateUsage response.usageMetadata s.usage }

theorem run_plain_bare {metadata : UsageMetadata} {response : GenerateContentResponse} (h : Plain metadata response)
    (hbare : response.candidates = []) (s : ResponseState ω) :
    (processResponse codec response).run s = (.ok (), s.looking response) := by
  unfold processResponse
  rw [Stateful.run_modify_bind, h.unblocked, hbare]
  rfl

theorem run_plain_candidate {metadata : UsageMetadata} {response : GenerateContentResponse} {candidate : Candidate}
    (h : Plain metadata response) (hcandidate : response.candidates = [candidate]) (s : ResponseState ω)
    (hopen : s.progress.isTerminal = false) :
    (processResponse codec response).run s =
      (takeParts codec response.parts >>= fun _ => processFinishReason candidate.finishReason).run
        { s.looking response with progress := s.progress.observeResponse.observeCandidate } := by
  have hindex := h.index candidate (hcandidate ▸ List.mem_singleton_self _)
  have hrole := h.role candidate (hcandidate ▸ List.mem_singleton_self _)
  have hopen' : s.progress.observeResponse.isTerminal = false := by
    revert hopen
    cases s.progress <;> decide
  have hparts : response.parts = (candidate.content.map (·.parts)).getD [] := by
    rw [GenerateContentResponse.parts, hcandidate, List.flatMap_singleton]
  unfold processResponse
  rw [Stateful.run_modify_bind, h.unblocked, hcandidate, hparts]
  show (processCandidate codec candidate).run (s.looking response) = _
  unfold processCandidate
  rw [Stateful.run_rejectIf_bind, if_neg (by rw [hindex]; decide), Stateful.run_get_bind, Stateful.run_rejectIf_bind,
    if_neg (by rw [ResponseState.looking, hopen']; decide), Stateful.run_modify_bind]
  cases hcontent : candidate.content with
  | none => rfl
  | some content =>
    have hrole' : ¬ content.role.any (· ≠ "model") = true := by
      rw [hrole content hcontent]
      decide
    have hcontent' : (processContent codec (some content) : Consume ω Unit) = takeParts codec content.parts := by
      funext t
      unfold processContent
      exact (Stateful.run_rejectIf_bind _ t).trans (if_neg hrole')
    rw [hcontent']
    rfl

/-! ## The stream and the parts -/

/-- Before the finish: the stream on the left, the parts of the unary response on the right. -/
structure Following (metadata : UsageMetadata) (seen : Bool) (s t : ResponseState ω) : Prop where
  core : SameCore s t
  leftUsage : s.usage = if seen then usageOf metadata else .empty
  rightUsage : t.usage = usageOf metadata
  leftOpen : s.progress.isTerminal = false
  rightOpen : t.progress.isTerminal = false
  supported : s.progress = .supportedContent ↔ t.progress = .supportedContent

/-- After the finish. -/
structure Followed (metadata : UsageMetadata) (seen : Bool) (s t : ResponseState ω) : Prop where
  core : SameCore s t
  leftUsage : s.usage = if seen then usageOf metadata else .empty
  rightUsage : t.usage = usageOf metadata
  finished : s.progress.isTerminal = true
  progress : s.progress = t.progress

section
variable {metadata : UsageMetadata} {seen : Bool} {response : GenerateContentResponse}

/-- The usage after a plain response. -/
theorem Plain.usage_looking (h : Plain metadata response) {s : ResponseState ω}
    (husage : s.usage = if seen then usageOf metadata else .empty) :
    (s.looking response).usage = if seen || response.usageMetadata.isSome then usageOf metadata else .empty := by
  show updateUsage response.usageMetadata s.usage = _
  rw [husage]
  rcases h.usage with hnone | hsome
  · rw [hnone, Option.isSome_none, Bool.or_false]
    rfl
  · rw [hsome, Option.isSome_some, Bool.or_true, if_pos rfl]
    cases seen
    · rfl
    · exact updateUsage_again metadata

theorem takeParts_following (parts : List ResponsePart) :
    Stateful.Relates (Following metadata seen) (takeParts codec parts : Consume ω Unit) (takeParts codec parts)
      (Following metadata seen) SameCore := by
  refine Stateful.Relates.forM fun part _ s t h => ?_
  refine ((processResponsePart_beside part s.progress t.progress s.usage t.usage).mono (fun _ _ h => h)
    (fun s' t' h' => ?_) fun _ _ h => h) s t ⟨h.core, rfl, rfl, rfl, rfl⟩
  refine ⟨h'.core, h'.leftUsage.trans h.leftUsage, h'.rightUsage.trans h.rightUsage, ?_, ?_, ?_⟩
  · rw [h'.left]
    rfl
  · rw [h'.right]
    rfl
  · rw [h'.left, h'.right]

theorem Following.looking {s t : ResponseState ω} (h : Following metadata seen s t) (hplain : Plain metadata response) :
    Following metadata (seen || response.usageMetadata.isSome) (s.looking response) t where
  core := { h.core with }
  leftUsage := hplain.usage_looking h.leftUsage
  rightUsage := h.rightUsage
  leftOpen := by
    have := h.leftOpen
    revert this
    show s.progress.isTerminal = false → s.progress.observeResponse.isTerminal = false
    cases s.progress <;> decide
  rightOpen := h.rightOpen
  supported := by
    rw [← h.supported]
    show s.progress.observeResponse = _ ↔ _
    cases s.progress <;> decide

theorem Following.candidate {s t : ResponseState ω} (h : Following metadata seen s t) (hplain : Plain metadata response) :
    Following metadata (seen || response.usageMetadata.isSome)
      { s.looking response with progress := s.progress.observeResponse.observeCandidate } t where
  core := { h.core with }
  leftUsage := hplain.usage_looking h.leftUsage
  rightUsage := h.rightUsage
  leftOpen := by
    have := h.leftOpen
    revert this
    show s.progress.isTerminal = false → s.progress.observeResponse.observeCandidate.isTerminal = false
    cases s.progress <;> decide
  rightOpen := h.rightOpen
  supported := by
    rw [← h.supported]
    show s.progress.observeResponse.observeCandidate = _ ↔ _
    cases s.progress <;> decide

/-- A response before the finish reason does what its parts do. -/
theorem processResponse_following (hplain : Plain metadata response)
    (hreason : ∀ candidate ∈ response.candidates, candidate.finishReason = none) :
    Stateful.Relates (Following metadata seen) (processResponse codec response : Consume ω Unit)
      (takeParts codec response.parts) (Following metadata (seen || response.usageMetadata.isSome)) SameCore := by
  intro s t h
  cases hcandidates : response.candidates with
  | nil =>
    have hparts : response.parts = [] := by
      rw [GenerateContentResponse.parts, hcandidates]
      rfl
    rw [run_plain_bare hplain hcandidates, hparts]
    exact ⟨rfl, h.looking hplain⟩
  | cons candidate rest =>
    have hsingle := hplain.single
    rw [hcandidates, List.length_cons] at hsingle
    obtain rfl : rest = [] := List.eq_nil_of_length_eq_zero (by omega)
    rw [run_plain_candidate hplain hcandidates s h.leftOpen,
      hreason candidate (hcandidates ▸ List.mem_singleton_self _)]
    rw [show (takeParts codec response.parts >>= fun _ => processFinishReason none : Consume ω Unit) =
      takeParts codec response.parts from bind_pure_unit]
    exact takeParts_following response.parts _ t (h.candidate hplain)

/-- The response with the finish reason. -/
theorem processResponse_finishing (hplain : Plain metadata response) {candidate : Candidate} {reason : String}
    (hcandidates : response.candidates = [candidate]) (hreason : candidate.finishReason = some reason) :
    Stateful.Relates (Following metadata seen) (processResponse codec response : Consume ω Unit)
      (takeParts codec response.parts >>= fun _ => processFinishReason (some reason))
      (Followed metadata (seen || response.usageMetadata.isSome)) SameCore := by
  intro s t h
  rw [run_plain_candidate hplain hcandidates s h.leftOpen, hreason]
  have hfinish : Stateful.Relates (Following metadata (seen || response.usageMetadata.isSome))
      (processFinishReason (some reason) : Consume ω Unit) (processFinishReason (some reason))
      (Followed metadata (seen || response.usageMetadata.isSome)) SameCore := by
    refine (Stateful.Relates.lift (fun _ _ h => h) fun _ _ h => h.core).bind fun _ => .modify fun s' t' h' => ?_
    have hterminal : ∀ progress : ResponseProgress, progress.observeTerminal =
        if progress = .supportedContent then .terminalWithContent else .terminalWithoutContent := by
      intro progress
      cases progress <;> rfl
    refine ⟨{ h'.core with }, h'.leftUsage, h'.rightUsage, ?_, ?_⟩
    · show s'.progress.observeTerminal.isTerminal = true
      cases s'.progress <;> rfl
    · show s'.progress.observeTerminal = t'.progress.observeTerminal
      rw [hterminal, hterminal]
      simp only [h'.supported]
  exact ((takeParts_following response.parts).bind fun _ => hfinish) _ t (h.candidate hplain)

/-- The responses after the finish reason. -/
theorem processResponses_followed : ∀ {after : List GenerateContentResponse} {seen : Bool},
    (∀ response ∈ after, Plain metadata response) → (∀ response ∈ after, response.candidates = []) →
    Stateful.Relates (Followed metadata seen) (after.forM (processResponse codec) : Consume ω Unit) (pure ())
      (Followed metadata (seen || after.any fun response => response.usageMetadata.isSome)) SameCore
  | [], seen, _, _ => by
    rw [List.any_nil, Bool.or_false]
    exact .pure fun _ _ h => h
  | response :: after, seen, hplain, hbare => by
    intro s t h
    have hhead := hplain response List.mem_cons_self
    have hlooking : Followed metadata (seen || response.usageMetadata.isSome) (s.looking response) t :=
      ⟨{ h.core with }, hhead.usage_looking h.leftUsage, h.rightUsage, by
        have := h.finished
        revert this
        show s.progress.isTerminal = true → s.progress.observeResponse.isTerminal = true
        cases s.progress <;> decide, by
        have := h.finished
        rw [← h.progress]
        revert this
        show s.progress.isTerminal = true → s.progress.observeResponse = s.progress
        cases s.progress <;> decide⟩
    rw [List.any_cons, ← Bool.or_assoc, List.forM_eq_forM, List.forM_cons, Stateful.run_bind,
      run_plain_bare hhead (hbare response List.mem_cons_self)]
    exact processResponses_followed (fun r hr => hplain r (List.mem_cons_of_mem _ hr))
      (fun r hr => hbare r (List.mem_cons_of_mem _ hr)) _ t hlooking

/-- The responses before the finish reason. -/
theorem processResponses_following : ∀ {before : List GenerateContentResponse} {seen : Bool},
    (∀ response ∈ before, Plain metadata response) →
    (∀ response ∈ before, ∀ candidate ∈ response.candidates, candidate.finishReason = none) →
    Stateful.Relates (Following metadata seen) (before.forM (processResponse codec) : Consume ω Unit)
      (takeParts codec (before.flatMap (·.parts)))
      (Following metadata (seen || before.any fun response => response.usageMetadata.isSome)) SameCore
  | [], seen, _, _ => by
    rw [List.any_nil, Bool.or_false]
    exact .pure fun _ _ h => h
  | response :: before, seen, hplain, hreason => by
    rw [List.forM_eq_forM, List.forM_cons, List.flatMap_cons, takeParts_append, List.any_cons, ← Bool.or_assoc]
    exact (processResponse_following (hplain response List.mem_cons_self) (hreason response List.mem_cons_self)).bind
      fun _ => processResponses_following (fun r hr => hplain r (List.mem_cons_of_mem _ hr))
        fun r hr => hreason r (List.mem_cons_of_mem _ hr)

end

/-- The parts and the finish reason of a unary response, without the response. -/
def takeAll (codec : Codec) (parts : List ResponsePart) (reason : String) : Consume ω GenerationUsage := do
  takeParts codec parts
  processFinishReason (some reason)
  finishResponses

/-- The state in which the parts of a unary response with metadata are taken. -/
def ResponseState.opened (metadata : UsageMetadata) : ResponseState ω :=
  { ResponseState.empty with progress := .candidate, usage := usageOf metadata }

theorem Distributes.parts_eq {parts : List ResponsePart} {reason : String} {metadata : UsageMetadata}
    {before after : List GenerateContentResponse} {last : GenerateContentResponse}
    (h : Distributes parts reason metadata before last after) :
    parts = before.flatMap (·.parts) ++ last.parts := by
  have hafter : after.flatMap (·.parts) = [] := by
    refine List.flatMap_eq_nil_iff.2 fun response hresponse => ?_
    rw [GenerateContentResponse.parts, h.bare response hresponse]
    rfl
  rw [← h.parts, List.flatMap_append, List.flatMap_cons, hafter, List.append_nil]

theorem Distributes.seen {parts : List ResponsePart} {reason : String} {metadata : UsageMetadata}
    {before after : List GenerateContentResponse} {last : GenerateContentResponse}
    (h : Distributes parts reason metadata before last after) :
    (((false || before.any fun response => response.usageMetadata.isSome) || last.usageMetadata.isSome) ||
      after.any fun response => response.usageMetadata.isSome) = true := by
  obtain ⟨response, hmem, hsome⟩ := h.metadata
  rcases List.mem_append.1 hmem with hmem | hmem
  · have : (before.any fun response => response.usageMetadata.isSome) = true := List.any_eq_true.2 ⟨response, hmem, hsome⟩
    simp [this]
  · rcases List.mem_cons.1 hmem with rfl | hmem
    · simp [hsome]
    · have : (after.any fun response => response.usageMetadata.isSome) = true := List.any_eq_true.2 ⟨response, hmem, hsome⟩
      simp [this]

/-- **Any distribution does what the parts and the finish reason do.** -/
theorem consumeResponses_takeAll {parts : List ResponsePart} {reason : String} {metadata : UsageMetadata}
    {before after : List GenerateContentResponse} {last : GenerateContentResponse}
    (h : Distributes parts reason metadata before last after) :
    Stateful.EndAlike SameCore SameCore
      ((consumeResponses codec (before ++ last :: after) : Consume ω GenerationUsage).run .empty)
      ((takeAll codec parts reason).run (.opened metadata)) := by
  obtain ⟨candidate, hcandidates, hreason⟩ := h.finished
  have hplain := h.plain
  have hall : Stateful.Relates (Following metadata false)
      ((before ++ last :: after).forM (processResponse codec) : Consume ω Unit)
      (takeParts codec (before.flatMap (·.parts)) >>= fun _ =>
        (takeParts codec last.parts >>= fun _ => processFinishReason (some reason)) >>= fun _ => pure ())
      (Followed metadata true) SameCore := by
    rw [← h.seen, List.forM_eq_forM, List.forM_append, List.forM_cons]
    exact (processResponses_following (fun r hr => hplain r (List.mem_append_left _ hr)) h.unfinished).bind fun _ =>
      (processResponse_finishing (hplain last (List.mem_append_right _ List.mem_cons_self)) hcandidates hreason).bind
        fun _ => processResponses_followed
          (fun r hr => hplain r (List.mem_append_right _ (List.mem_cons_of_mem _ hr))) h.bare
  have hfinish : Stateful.Relates (Followed metadata true) (finishResponses : Consume ω GenerationUsage)
      finishResponses SameCore SameCore := by
    intro s t hst
    have hsame : s.finish = t.finish := by
      rw [ResponseState.finish, ResponseState.finish, hst.progress, hst.leftUsage, hst.rightUsage]
      rfl
    show Stateful.EndAlike _ _ (s.finish, s) (t.finish, t)
    rw [hsame]
    cases t.finish
    · exact ⟨rfl, hst.core⟩
    · exact ⟨rfl, hst.core⟩
  have hstart : Following metadata false (.empty : ResponseState ω) (.opened metadata) :=
    ⟨⟨rfl, rfl, rfl, rfl, rfl⟩, rfl, rfl, rfl, rfl, ⟨nofun, nofun⟩⟩
  have hrun := (hall.bind fun _ => hfinish) _ _ hstart
  rw [bind_pure_unit] at hrun
  rw [takeAll, h.parts_eq, takeParts_append]
  simp only [bind_assoc] at hrun ⊢
  exact hrun

/-! ## Successful runs -/

/-- A part with exactly one supported content. -/
structure ResponsePart.Supported (part : ResponsePart) : Prop where
  known : part.other = []
  single : part.text.isSome = !part.functionCall.isSome
  visible : part.functionCall.isSome = true → part.thought = false

/-- The events of a part: those of a function call stand together. -/
inductive PartEvents (codec : Codec) (part : ResponsePart) : List (ProviderEvent ω) → Prop
  | empty : part.text = some "" → PartEvents codec part []
  | text (text : String) : part.text = some text → text ≠ "" →
      PartEvents codec part [if part.thought then .reasoningDelta text else .textDelta text]
  | call (functionCall : GeminiFunctionCall) (id name arguments : String) : part.functionCall = some functionCall →
      (∀ given, functionCall.id = some given → id = given) → functionCall.name = some name →
      codec.jsonText (functionCall.args.getD (.object [])) = some arguments →
      PartEvents codec part
        [.toolCallStarted id name, .toolCallArgumentsDelta id arguments, .toolCallCompleted id]

/-- The calls that were started are those whose identifiers are in use. -/
structure Distinct (s : ResponseState ω) : Prop where
  nodup : (startedIds s.sent).Nodup
  used : ∀ id ∈ startedIds s.sent, id ∈ s.toolCallIds

/-- What accepted events do. -/
structure Shows (s s' : ResponseState ω) (events : List (ProviderEvent ω)) : Prop where
  sent : s'.sent = s.sent ++ events
  progress : s'.progress = s.progress
  distinct : Distinct s → Distinct s'

theorem Distinct.congr {s s' : ResponseState ω} (h : Distinct s) (hsent : s'.sent = s.sent)
    (hids : s'.toolCallIds = s.toolCallIds) : Distinct s' :=
  ⟨hsent ▸ h.nodup, fun id hid => hids ▸ h.used id (hsent ▸ hid)⟩

theorem takeToolCallIndex_eq_ok {s t : ResponseState ω} {index : Nat}
    (h : takeToolCallIndex.run s = (.ok index, t)) : ∃ next, t = { s with nextToolCallIndex := next } := by
  unfold takeToolCallIndex at h
  rw [Stateful.run_get_bind] at h
  obtain ⟨next, t₁, hlift, hrest⟩ := Stateful.run_bind_eq_ok.1 h
  obtain ⟨-, rfl⟩ := Stateful.run_lift_eq_ok.1 hlift
  cases hrest
  exact ⟨next.toNat, rfl⟩

theorem takeToolCallId_eq_ok {s t : ResponseState ω} {id : String} {u : Unit}
    (h : (takeToolCallId id).run s = (.ok u, t)) :
    id ∉ s.toolCallIds ∧ t = { s with toolCallIds := insert id s.toolCallIds } := by
  obtain ⟨_, t₁, hlift, hrest⟩ := Stateful.run_bind_eq_ok.1 h
  obtain ⟨-, rfl⟩ := Stateful.run_lift_eq_ok.1 hlift
  rw [Stateful.run_get_bind, Stateful.run_rejectIf_bind] at hrest
  split at hrest
  · cases hrest
  · rename_i hnew
    cases hrest
    exact ⟨hnew, rfl⟩

theorem toolCallName_eq_ok {given : Option String} {name : String} (h : toolCallName given = .ok name) :
    given = some name := by
  obtain ⟨found, hfound, hrest⟩ := bind_eq_ok.1 h
  obtain ⟨_, -, hname⟩ := bind_eq_ok.1 hrest
  cases hname
  exact okOr_eq_ok.1 hfound

theorem toolCallArguments_eq_ok {args : Option Json} {arguments : String}
    (h : toolCallArguments codec args = .ok arguments) : codec.jsonText (args.getD (.object [])) = some arguments := by
  obtain ⟨-, hrest⟩ := seq_eq_ok.1 h
  obtain ⟨text, htext, hrest⟩ := bind_eq_ok.1 hrest
  obtain ⟨_, -, harguments⟩ := bind_eq_ok.1 hrest
  cases harguments
  exact okOr_eq_ok.1 htext

/-- The events of a new call. -/
theorem Distinct.call {s s' : ResponseState ω} (h : Distinct s) {id : String} (name arguments : String)
    (hnew : id ∉ s.toolCallIds) (hids : s'.toolCallIds = insert id s.toolCallIds)
    (hsent : s'.sent =
      s.sent ++
        [ProviderEvent.toolCallStarted id name, .toolCallArgumentsDelta id arguments, .toolCallCompleted id]) :
    Distinct s' := by
  have hstarted : startedIds s'.sent = startedIds s.sent ++ [id] := by
    rw [hsent, startedIds_append]
    rfl
  refine ⟨?_, fun other hother => ?_⟩
  · rw [hstarted, List.nodup_append]
    refine ⟨h.nodup, List.nodup_singleton id, fun other hother last hlast heq => ?_⟩
    rw [List.mem_singleton] at hlast
    exact hnew (hlast ▸ heq ▸ h.used other hother)
  · rw [hids, Finset.mem_insert]
    rw [hstarted, List.mem_append, List.mem_singleton] at hother
    rcases hother with hother | hother
    · exact .inr (h.used other hother)
    · exact .inl hother

theorem run_sendCall (id name arguments : String) (s : ResponseState ω) :
    (send (.toolCallStarted id name) >>= fun _ => send (.toolCallArgumentsDelta id arguments) >>= fun _ =>
      send (.toolCallCompleted id)).run s = (.ok (), { s with
        sent := s.sent ++
          [.toolCallStarted id name, .toolCallArgumentsDelta id arguments, .toolCallCompleted id] }) := by
  have hsent : ∀ a b c : ProviderEvent ω, s.sent ++ [a] ++ [b] ++ [c] = s.sent ++ [a, b, c] := fun a b c => by simp
  rw [← hsent]
  rfl

theorem emitGeminiFunctionCall_shows {functionCall : GeminiFunctionCall} {s s' : ResponseState ω} {u : Unit}
    (h : (emitGeminiFunctionCall codec functionCall).run s = (.ok u, s')) : ∃ id name arguments,
      (∀ given, functionCall.id = some given → id = given) ∧ functionCall.name = some name ∧
      codec.jsonText (functionCall.args.getD (.object [])) = some arguments ∧
      Shows s s' [.toolCallStarted id name, .toolCallArgumentsDelta id arguments, .toolCallCompleted id] := by
  obtain ⟨index, t₁, hindex, hrest⟩ := Stateful.run_bind_eq_ok.1 h
  obtain ⟨_, t₂, hid, hrest⟩ := Stateful.run_bind_eq_ok.1 hrest
  obtain ⟨name, t₃, hlift, hrest⟩ := Stateful.run_bind_eq_ok.1 hrest
  obtain ⟨hname, rfl⟩ := Stateful.run_lift_eq_ok.1 hlift
  obtain ⟨arguments, t₄, hlift, hsend⟩ := Stateful.run_bind_eq_ok.1 hrest
  obtain ⟨harguments, rfl⟩ := Stateful.run_lift_eq_ok.1 hlift
  obtain ⟨next, rfl⟩ := takeToolCallIndex_eq_ok hindex
  obtain ⟨hnew, rfl⟩ := takeToolCallId_eq_ok hid
  rw [run_sendCall] at hsend
  cases hsend
  refine ⟨functionCall.id.getD ("gemini-call-" ++ toString index), name, arguments, fun given hgiven => ?_,
    toolCallName_eq_ok hname, toolCallArguments_eq_ok harguments, rfl, rfl, fun hdistinct => ?_⟩
  · rw [hgiven]
    rfl
  · exact hdistinct.call name arguments hnew rfl rfl

theorem emitText_shows {thought : Bool} {text : String} {s s' : ResponseState ω} {u : Unit}
    (h : (emitText thought text).run s = (.ok u, s')) :
    Shows s s' [if thought then ProviderEvent.reasoningDelta text else .textDelta text] := by
  unfold emitText at h
  rw [Stateful.run_get_bind] at h
  obtain ⟨emitted, t₁, hlift, hrest⟩ := Stateful.run_bind_eq_ok.1 h
  obtain ⟨-, rfl⟩ := Stateful.run_lift_eq_ok.1 hlift
  rw [Stateful.run_modify_bind, Stateful.run_rejectIf_bind] at hrest
  split at hrest
  · cases hrest
  · cases hrest
    refine ⟨rfl, rfl, fun hdistinct => ?_⟩
    have hstarted :
        startedIds (s.sent ++ [if thought then ProviderEvent.reasoningDelta text else .textDelta text]) =
        startedIds s.sent := by
      rw [startedIds_append]
      cases thought <;> exact List.append_nil _
    exact ⟨hstarted ▸ hdistinct.nodup, fun id hid => hdistinct.used id (hstarted ▸ hid)⟩

theorem checkPartShape_eq_ok {part : ResponsePart} {u : Unit} (h : checkPartShape part = .ok u) : part.Supported := by
  obtain ⟨hknown, h⟩ := seq_eq_ok.1 h
  obtain ⟨hsome, h⟩ := seq_eq_ok.1 h
  obtain ⟨hconflict, hvisible⟩ := seq_eq_ok.1 h
  have hknown := rejectIf_eq_ok.1 hknown
  have hsome := rejectIf_eq_ok.1 hsome
  have hconflict := rejectIf_eq_ok.1 hconflict
  have hvisible := rejectIf_eq_ok.1 hvisible
  refine ⟨?_, ?_, fun hcall => ?_⟩
  · rw [Bool.not_eq_false, List.isEmpty_iff] at hknown
    exact hknown
  · cases htext : part.text <;> cases hcall : part.functionCall <;> simp_all
  · cases hthought : part.thought
    · rfl
    · exact (hvisible ⟨hthought, hcall⟩).elim

/-- An accepted part is supported and shows its events. -/
theorem processResponsePart_shows {part : ResponsePart} {s s' : ResponseState ω} {u : Unit}
    (h : (processResponsePart codec part).run s = (.ok u, s')) : part.Supported ∧
      s'.progress = .supportedContent ∧ (Distinct s → Distinct s') ∧
      ∃ events, PartEvents codec part events ∧ s'.sent = s.sent ++ events := by
  obtain ⟨_, t₁, hcount, hrest⟩ := Stateful.run_bind_eq_ok.1 h
  obtain ⟨_, t₂, hlift, hrest⟩ := Stateful.run_bind_eq_ok.1 hrest
  obtain ⟨hshape, rfl⟩ := Stateful.run_lift_eq_ok.1 hlift
  rw [Stateful.run_modify_bind] at hrest
  obtain ⟨_, t₃, hlift, hemit⟩ := Stateful.run_bind_eq_ok.1 hrest
  obtain ⟨-, rfl⟩ := Stateful.run_lift_eq_ok.1 hlift
  have hsupported := checkPartShape_eq_ok hshape
  have hcounted : t₁.sent = s.sent ∧ t₁.toolCallIds = s.toolCallIds := by
    unfold countPart at hcount
    rw [Stateful.run_get_bind] at hcount
    obtain ⟨count, t, hlift, hcount⟩ := Stateful.run_bind_eq_ok.1 hcount
    obtain ⟨-, rfl⟩ := Stateful.run_lift_eq_ok.1 hlift
    cases hcount
    exact ⟨rfl, rfl⟩
  have hevents : ∃ events, PartEvents codec part events ∧
      Shows { t₁ with progress := .supportedContent } s' events := by
    unfold emitPart at hemit
    split at hemit
    · rename_i functionCall hcall
      obtain ⟨id, name, arguments, hid, hname, harguments, hshows⟩ := emitGeminiFunctionCall_shows hemit
      exact ⟨_, .call functionCall id name arguments hcall hid hname harguments, hshows⟩
    · rename_i hcall
      have htext : part.text.isSome = true := by rw [hsupported.single, hcall]; rfl
      obtain ⟨text, htext⟩ := Option.isSome_iff_exists.1 htext
      rw [htext] at hemit
      by_cases hempty : text = ""
      · rw [hempty] at hemit htext
        cases hemit
        exact ⟨[], .empty htext, (List.append_nil _).symm, rfl, id⟩
      · rw [Option.filter_some, if_pos (decide_eq_true hempty)] at hemit
        exact ⟨_, .text text htext hempty, emitText_shows hemit⟩
  obtain ⟨events, hpart, hshows⟩ := hevents
  refine ⟨hsupported, hshows.progress, fun hdistinct => ?_, events, hpart, hcounted.1 ▸ hshows.sent⟩
  exact hshows.distinct (hdistinct.congr hcounted.1 hcounted.2)

/-- What accepted parts do. -/
structure PartsTaken (codec : Codec) (parts : List ResponsePart) (s s' : ResponseState ω) : Prop where
  supported : ∀ part ∈ parts, part.Supported
  progress : s'.progress = if parts = [] then s.progress else .supportedContent
  distinct : Distinct s → Distinct s'
  events : ∃ blocks, List.Forall₂ (PartEvents codec) parts blocks ∧ s'.sent = s.sent ++ blocks.flatten

theorem takeParts_taken : ∀ {parts : List ResponsePart} {s s' : ResponseState ω} {u : Unit},
    (takeParts codec parts).run s = (.ok u, s') → PartsTaken codec parts s s'
  | [], s, s', u, h => by
    cases h
    exact ⟨fun _ hmem => (List.not_mem_nil hmem).elim, rfl, id, [], .nil, (List.append_nil _).symm⟩
  | part :: parts, s, s', u, h => by
    obtain ⟨_, t, hpart, hrest⟩ := Stateful.run_bind_eq_ok.1 h
    obtain ⟨hsupported, hprogress, hdistinct, events, hevents, hsent⟩ := processResponsePart_shows hpart
    have hparts := takeParts_taken hrest
    obtain ⟨blocks, hblocks, hmore⟩ := hparts.events
    refine ⟨?_, ?_, fun h => hparts.distinct (hdistinct h), events :: blocks, .cons hevents hblocks, ?_⟩
    · intro other hother
      rcases List.mem_cons.1 hother with rfl | hother
      · exact hsupported
      · exact hparts.supported other hother
    · rw [hparts.progress, hprogress, ite_self, if_neg (List.cons_ne_nil part parts)]
    · rw [hmore, hsent, List.flatten_cons, List.append_assoc]

/-- The state after the parts, and the finish reason if there is one. -/
def ResponseState.finishing (s : ResponseState ω) (reason : Option String) : ResponseState ω :=
  if reason.isSome then { s with progress := s.progress.observeTerminal } else s

/-- What an accepted response does. -/
inductive ResponseTaken (codec : Codec) (s : ResponseState ω) (response : GenerateContentResponse) :
    ResponseState ω → Prop
  | bare : response.candidates = [] → ResponseTaken codec s response (s.looking response)
  | candidate (candidate : Candidate) (t : ResponseState ω) : response.candidates = [candidate] →
      s.progress.isTerminal = false →
      PartsTaken codec response.parts
        { s.looking response with progress := s.progress.observeResponse.observeCandidate } t →
      ResponseTaken codec s response (t.finishing candidate.finishReason)

theorem processCandidate_taken {s s' : ResponseState ω} {candidate : Candidate} {u : Unit}
    (h : (processCandidate codec candidate).run s = (.ok u, s')) : s.progress.isTerminal = false ∧
      ∃ t, PartsTaken codec ((candidate.content.map (·.parts)).getD [])
        { s with progress := s.progress.observeCandidate } t ∧ s' = t.finishing candidate.finishReason := by
  unfold processCandidate at h
  rw [Stateful.run_rejectIf_bind] at h
  split at h
  · cases h
  rw [Stateful.run_get_bind, Stateful.run_rejectIf_bind] at h
  split at h
  · cases h
  rename_i hopen
  rw [Stateful.run_modify_bind] at h
  obtain ⟨_, t, hcontent, hreason⟩ := Stateful.run_bind_eq_ok.1 h
  refine ⟨Bool.not_eq_true _ ▸ hopen, t, ?_, ?_⟩
  · cases hcandidate : candidate.content with
    | none =>
      rw [hcandidate] at hcontent
      cases hcontent
      exact ⟨fun _ hmem => (List.not_mem_nil hmem).elim, rfl, id, [], .nil, (List.append_nil _).symm⟩
    | some content =>
      rw [hcandidate] at hcontent
      obtain ⟨_, t', hlift, hparts⟩ := Stateful.run_bind_eq_ok.1 hcontent
      obtain ⟨-, rfl⟩ := Stateful.run_lift_eq_ok.1 hlift
      exact takeParts_taken hparts
  · cases hfinish : candidate.finishReason with
    | none =>
      rw [hfinish] at hreason
      cases hreason
      rfl
    | some reason =>
      rw [hfinish] at hreason
      obtain ⟨_, t', hlift, hmodify⟩ := Stateful.run_bind_eq_ok.1 hreason
      obtain ⟨-, rfl⟩ := Stateful.run_lift_eq_ok.1 hlift
      cases hmodify
      rfl

theorem processResponse_taken {s s' : ResponseState ω} {response : GenerateContentResponse} {u : Unit}
    (h : (processResponse codec response).run s = (.ok u, s')) : ResponseTaken codec s response s' := by
  unfold processResponse at h
  rw [Stateful.run_modify_bind, Stateful.run_rejectIf_bind] at h
  split at h
  · cases h
  rw [Stateful.run_modify_bind, Stateful.run_rejectIf_bind] at h
  split at h
  · cases h
  rename_i hsingle
  cases hcandidates : response.candidates with
  | nil =>
    rw [hcandidates] at h
    cases h
    exact .bare hcandidates
  | cons candidate rest =>
    rw [hcandidates, List.length_cons] at hsingle
    obtain rfl : rest = [] := List.eq_nil_of_length_eq_zero (by omega)
    rw [hcandidates] at h
    obtain ⟨hopen, t, htaken, rfl⟩ := processCandidate_taken h
    have hparts : response.parts = (candidate.content.map (·.parts)).getD [] := by
      rw [GenerateContentResponse.parts, hcandidates, List.flatMap_singleton]
    refine .candidate candidate t hcandidates ?_ (hparts ▸ htaken)
    revert hopen
    show s.progress.observeResponse.isTerminal = false → _
    cases s.progress <;> decide

/-- No candidate has a finish reason. -/
def Unfinished (done : List GenerateContentResponse) : Prop :=
  ∀ response ∈ done, ∀ candidate ∈ response.candidates, candidate.finishReason = none

/-- The last candidate of the responses, and no other, has a finish reason. -/
def FinishedOnce (done : List GenerateContentResponse) : Prop :=
  ∃ before last after candidate reason, done = before ++ last :: after ∧ Unfinished before ∧
    last.candidates = [candidate] ∧ candidate.finishReason = some reason ∧ ∀ response ∈ after, response.candidates = []

/-- The invariant of the accepted responses. -/
structure Streaming (codec : Codec) (done : List GenerateContentResponse) (s : ResponseState ω) : Prop where
  supported : ∀ part ∈ done.flatMap (·.parts), part.Supported
  events : ∃ blocks, List.Forall₂ (PartEvents codec) (done.flatMap (·.parts)) blocks ∧ s.sent = blocks.flatten
  distinct : Distinct s
  unfinished : s.progress.isTerminal = false → Unfinished done
  finished : s.progress.isTerminal = true → FinishedOnce done
  content : s.progress = .supportedContent ∨ s.progress = .terminalWithContent → done.flatMap (·.parts) ≠ []

theorem Unfinished.concat {done : List GenerateContentResponse} (h : Unfinished done)
    {response : GenerateContentResponse}
    (hresponse : ∀ candidate ∈ response.candidates, candidate.finishReason = none) : Unfinished (done ++ [response]) := by
  intro other hother
  rcases List.mem_append.1 hother with hother | hother
  · exact h other hother
  · rw [List.mem_singleton] at hother
    exact hother ▸ hresponse

theorem FinishedOnce.concat {done : List GenerateContentResponse} (h : FinishedOnce done)
    {response : GenerateContentResponse} (hbare : response.candidates = []) : FinishedOnce (done ++ [response]) := by
  obtain ⟨before, last, after, candidate, reason, rfl, hbefore, hlast, hreason, hafter⟩ := h
  refine ⟨before, last, after ++ [response], candidate, reason, by simp, hbefore, hlast, hreason, ?_⟩
  intro other hother
  rcases List.mem_append.1 hother with hother | hother
  · exact hafter other hother
  · rw [List.mem_singleton] at hother
    exact hother ▸ hbare

theorem Streaming.bare {done : List GenerateContentResponse} {s : ResponseState ω} (h : Streaming codec done s)
    {response : GenerateContentResponse} (hbare : response.candidates = []) :
    Streaming codec (done ++ [response]) (s.looking response) := by
  have hparts : (done ++ [response]).flatMap (·.parts) = done.flatMap (·.parts) := by
    have hnone : response.parts = [] := by
      rw [GenerateContentResponse.parts, hbare]
      rfl
    rw [List.flatMap_append, List.flatMap_singleton, hnone, List.append_nil]
  have hterminal : (s.looking response).progress.isTerminal = s.progress.isTerminal := by
    show s.progress.observeResponse.isTerminal = _
    cases s.progress <;> rfl
  have hcontent : ∀ progress : ResponseProgress, progress.observeResponse = .supportedContent ∨
      progress.observeResponse = .terminalWithContent → progress = .supportedContent ∨
      progress = .terminalWithContent := fun progress => by cases progress <;> decide
  refine ⟨hparts ▸ h.supported, hparts ▸ h.events, h.distinct.congr rfl rfl, fun hopen => ?_, fun hclosed => ?_,
    fun hshown => hparts ▸ h.content (hcontent _ hshown)⟩
  · refine (h.unfinished (hterminal ▸ hopen)).concat fun candidate hcandidate => ?_
    rw [hbare] at hcandidate
    exact (List.not_mem_nil hcandidate).elim
  · exact (h.finished (hterminal ▸ hclosed)).concat hbare

/-- The parts of a candidate of a stream that has not finished. -/
theorem Streaming.taken {done : List GenerateContentResponse} {s t : ResponseState ω} (h : Streaming codec done s)
    {response : GenerateContentResponse} (hopen : s.progress.isTerminal = false)
    (htaken : PartsTaken codec response.parts
      { s.looking response with progress := s.progress.observeResponse.observeCandidate } t) :
    (∀ part ∈ (done ++ [response]).flatMap (·.parts), part.Supported) ∧
      (∃ blocks, List.Forall₂ (PartEvents codec) ((done ++ [response]).flatMap (·.parts)) blocks ∧
        t.sent = blocks.flatten) ∧
      Distinct t ∧ t.progress.isTerminal = false ∧
      (t.progress = .supportedContent → (done ++ [response]).flatMap (·.parts) ≠ []) := by
  rw [List.flatMap_append, List.flatMap_singleton]
  obtain ⟨blocks, hblocks, hsent⟩ := h.events
  obtain ⟨more, hmore, hmoreSent⟩ := htaken.events
  refine ⟨fun part hpart => ?_, ⟨blocks ++ more, List.rel_append hblocks hmore, ?_⟩,
    htaken.distinct (h.distinct.congr rfl rfl), ?_, fun hshown => ?_⟩
  · exact (List.mem_append.1 hpart).elim (h.supported part) (htaken.supported part)
  · rw [hmoreSent, List.flatten_append, ← hsent]
    rfl
  · rw [htaken.progress]
    split
    · revert hopen
      show s.progress.isTerminal = false → s.progress.observeResponse.observeCandidate.isTerminal = false
      cases s.progress <;> decide
    · rfl
  · rw [htaken.progress] at hshown
    split at hshown
    · have hbefore : s.progress = .supportedContent := by
        revert hshown
        show s.progress.observeResponse.observeCandidate = .supportedContent → _
        cases s.progress <;> decide
      exact List.append_ne_nil_of_left_ne_nil (h.content (.inl hbefore)) _
    · rename_i hparts
      exact List.append_ne_nil_of_right_ne_nil _ hparts

/-- An accepted response keeps the invariant. -/
theorem Streaming.step {done : List GenerateContentResponse} {s s' : ResponseState ω} (h : Streaming codec done s)
    {response : GenerateContentResponse} (htaken : ResponseTaken codec s response s') :
    Streaming codec (done ++ [response]) s' := by
  cases htaken with
  | bare hbare => exact h.bare hbare
  | candidate candidate t hcandidates hopen hparts =>
    obtain ⟨hsupported, hevents, hdistinct, hrunning, hcontent⟩ := h.taken hopen hparts
    cases hreason : candidate.finishReason with
    | none =>
      refine ⟨hsupported, hevents, hdistinct, fun _ => ?_, fun hclosed => ?_, fun hshown => hcontent ?_⟩
      · refine (h.unfinished hopen).concat fun other hother => ?_
        rw [hcandidates, List.mem_singleton] at hother
        rw [hother, hreason]
      · exact absurd (hclosed.symm.trans hrunning) (by decide)
      · refine hshown.resolve_right fun hterminal => ?_
        have hterminal : t.progress = .terminalWithContent := hterminal
        rw [hterminal] at hrunning
        exact absurd hrunning (by decide)
    | some reason =>
      have hterminal : ∀ progress : ResponseProgress, progress.observeTerminal.isTerminal = true := by
        intro progress
        cases progress <;> rfl
      refine ⟨hsupported, hevents, hdistinct.congr rfl rfl, fun hopen' => ?_, fun _ => ?_, fun hshown => hcontent ?_⟩
      · exact absurd ((hterminal t.progress).symm.trans hopen') (by decide)
      · exact ⟨done, response, [], candidate, reason, rfl, h.unfinished hopen, hcandidates, hreason, nofun⟩
      · revert hshown
        show t.progress.observeTerminal = _ ∨ t.progress.observeTerminal = _ → _
        cases t.progress <;> decide

theorem processResponses_streaming : ∀ {responses done : List GenerateContentResponse} {s s' : ResponseState ω}
    {u : Unit}, Streaming codec done s → (responses.forM (processResponse codec)).run s = (.ok u, s') →
    Streaming codec (done ++ responses) s'
  | [], done, s, s', u, h, hrun => by
    cases hrun
    rw [List.append_nil]
    exact h
  | response :: responses, done, s, s', u, h, hrun => by
    rw [List.forM_eq_forM, List.forM_cons] at hrun
    obtain ⟨_, t, hresponse, hrest⟩ := Stateful.run_bind_eq_ok.1 hrun
    rw [List.append_cons]
    exact processResponses_streaming (h.step (processResponse_taken hresponse)) hrest

/-- What a successful run promises: one finish reason, after which no candidate comes; a supported part; and the
events of the parts in order, where each function call starts, gives its arguments and completes at once. -/
structure GeminiProtocol (codec : Codec) (responses : List GenerateContentResponse)
    (sent : List (ProviderEvent ω)) : Prop where
  finished : FinishedOnce responses
  content : ∃ part ∈ responses.flatMap (·.parts), part.Supported
  events : ∃ blocks, List.Forall₂ (PartEvents codec) (responses.flatMap (·.parts)) blocks ∧ sent = blocks.flatten
  distinct : (startedIds sent).Nodup

theorem consumeResponses_protocol {responses : List GenerateContentResponse} {usage : GenerationUsage}
    {s : ResponseState ω} (h : (consumeResponses codec responses).run .empty = (.ok usage, s)) :
    GeminiProtocol codec responses s.sent := by
  obtain ⟨_, t, hrun, hfinish⟩ := Stateful.run_bind_eq_ok.1 h
  unfold finishResponses at hfinish
  rw [Stateful.run_get_bind] at hfinish
  obtain ⟨hverdict, rfl⟩ := Stateful.run_lift_eq_ok.1 hfinish
  have hstart : Streaming codec [] (.empty : ResponseState ω) :=
    ⟨nofun, ⟨[], .nil, rfl⟩, ⟨List.nodup_nil, nofun⟩, fun _ => nofun, nofun, nofun⟩
  have hend := processResponses_streaming hstart hrun
  rw [List.nil_append] at hend
  have hprogress : t.progress = .terminalWithContent := by
    revert hverdict
    unfold ResponseState.finish
    cases t.progress with
    | terminalWithContent => exact fun _ => rfl
    | _ => exact nofun
  obtain ⟨part, hpart⟩ := List.exists_mem_of_ne_nil _ (hend.content (.inr hprogress))
  exact ⟨hend.finished (by rw [hprogress]; rfl), ⟨part, hpart, hend.supported part hpart⟩, hend.events,
    hend.distinct.nodup⟩

/-! ## The stream and the unary form -/

theorem consumeUnary_eq (response : GenerateContentResponse) :
    (consumeUnary codec response : Consume ω GenerationUsage) = consumeResponses codec [response] := by
  rw [consumeUnary, consumeResponses, List.forM_eq_forM, List.forM_cons, List.forM_nil, bind_pure_unit]

/-- Two ends like a third are alike. -/
theorem EndAlike.trans_symm {α : Type} {x y z : Except CoreError α × ResponseState ω}
    (hx : Stateful.EndAlike SameCore SameCore x z) (hy : Stateful.EndAlike SameCore SameCore y z) :
    x.1 = y.1 ∧ x.2.sent = y.2.sent := by
  obtain ⟨r₁, s₁⟩ := x
  obtain ⟨r₂, s₂⟩ := y
  obtain ⟨r₃, s₃⟩ := z
  cases r₁ <;> cases r₂ <;> cases r₃ <;> simp only [Stateful.EndAlike] at hx hy
  · exact ⟨by rw [hx.1, hy.1], hx.2.sent.trans hy.2.sent.symm⟩
  · exact ⟨by rw [hx.1, hy.1], hx.2.sent.trans hy.2.sent.symm⟩

/-- **A stream does what the unary response with the same parts does**: it sends the same events and ends with the
same error or the same usage; and every successful stream keeps the protocol. -/
theorem stream_agrees_with_unary (ω : Type) (codec : Codec) :
    (∀ (parts : List ResponsePart) (reason : String) (metadata : UsageMetadata)
      (before : List GenerateContentResponse) (last : GenerateContentResponse) (after : List GenerateContentResponse)
      (unary : GenerateContentResponse),
      Distributes parts reason metadata before last after → Distributes parts reason metadata [] unary [] →
      ((consumeResponses codec (before ++ last :: after)).run (.empty : ResponseState ω)).1 =
          ((consumeUnary codec unary).run (.empty : ResponseState ω)).1 ∧
        ((consumeResponses codec (before ++ last :: after)).run (.empty : ResponseState ω)).2.sent =
          ((consumeUnary codec unary).run (.empty : ResponseState ω)).2.sent) ∧
      ∀ (responses : List GenerateContentResponse) (usage : GenerationUsage) (s : ResponseState ω),
        (consumeResponses codec responses).run .empty = (.ok usage, s) → GeminiProtocol codec responses s.sent := by
  refine ⟨fun parts reason metadata before last after unary hstream hunary => ?_,
    fun responses usage s h => consumeResponses_protocol h⟩
  rw [consumeUnary_eq]
  exact EndAlike.trans_symm (consumeResponses_takeAll hstream) (consumeResponses_takeAll hunary)

/-- A codec that knows the empty object. -/
def sampleCodec : Codec where
  decodeBase64 _ := none
  encodeBase64 _ := ""
  jsonText
    | .object [] => some "\x7b\x7d"
    | _ => none

def samplePart : ResponsePart := ⟨some "Tide", false, none, none, []⟩

def sampleCallPart : ResponsePart := ⟨none, false, none, some ⟨none, some "tide", none⟩, []⟩

def sampleMetadata : UsageMetadata := ⟨some 3, none, some 2, none, none, some 5⟩

/-- A response with a candidate. -/
def sampleResponse (parts : List ResponsePart) (reason : Option String) (usage : Option UsageMetadata) :
    GenerateContentResponse := ⟨[⟨some ⟨some "model", parts⟩, reason, some 0⟩], none, usage⟩

def sampleBefore : List GenerateContentResponse :=
  [⟨[], none, none⟩, sampleResponse [samplePart] none (some sampleMetadata), sampleResponse [] none none]

def sampleLast : GenerateContentResponse := sampleResponse [sampleCallPart] (some "STOP") none

def sampleAfter : List GenerateContentResponse := [⟨[], none, some sampleMetadata⟩]

def sampleUnary : GenerateContentResponse :=
  sampleResponse [samplePart, sampleCallPart] (some "STOP") (some sampleMetadata)

theorem plain_sampleResponse (parts : List ResponsePart) (reason : Option String) {usage : Option UsageMetadata}
    (husage : usage = none ∨ usage = some sampleMetadata) : Plain sampleMetadata (sampleResponse parts reason usage) := by
  refine ⟨rfl, husage, le_rfl, fun candidate hcandidate => ?_, fun candidate hcandidate content hcontent => ?_⟩
  · rw [List.mem_singleton.1 hcandidate]
    rfl
  · rw [List.mem_singleton.1 hcandidate] at hcontent
    cases hcontent
    rfl

theorem plain_bare {usage : Option UsageMetadata} (husage : usage = none ∨ usage = some sampleMetadata) :
    Plain sampleMetadata ⟨[], none, usage⟩ := ⟨rfl, husage, Nat.zero_le 1, nofun, nofun⟩

theorem distributes_sample :
    Distributes [samplePart, sampleCallPart] "STOP" sampleMetadata sampleBefore sampleLast sampleAfter := by
  refine ⟨?_, ?_, ⟨_, rfl, rfl⟩, fun response hresponse => ?_, rfl, ⟨_, .tail _ (.head _), rfl⟩⟩
  · simp only [sampleBefore, sampleLast, sampleAfter, List.cons_append, List.nil_append, List.forall_mem_cons]
    exact ⟨plain_bare (.inl rfl), plain_sampleResponse _ _ (.inr rfl), plain_sampleResponse _ _ (.inl rfl),
      plain_sampleResponse _ _ (.inl rfl), plain_bare (.inr rfl), nofun⟩
  · simp only [sampleBefore, List.forall_mem_cons]
    exact ⟨nofun, fun _ h => by rw [List.mem_singleton.1 h], fun _ h => by rw [List.mem_singleton.1 h], nofun⟩
  · rw [List.mem_singleton.1 hresponse]

theorem distributes_sampleUnary :
    Distributes [samplePart, sampleCallPart] "STOP" sampleMetadata [] sampleUnary [] := by
  refine ⟨fun response hresponse => ?_, nofun, ⟨_, rfl, rfl⟩, nofun, rfl, ⟨_, .head _, rfl⟩⟩
  rw [List.nil_append, List.mem_singleton] at hresponse
  exact hresponse ▸ plain_sampleResponse _ _ (.inr rfl)

/-- The state at the end of the unary response. -/
def sampleState : ResponseState Unit where
  progress := .terminalWithContent
  emittedTextBytes := 4
  responseParts := 2
  nextToolCallIndex := 1
  toolCallIds := {"gemini-call-0"}
  usage := usageOf sampleMetadata
  sent := [.textDelta "Tide", .toolCallStarted "gemini-call-0" "tide",
    .toolCallArgumentsDelta "gemini-call-0" "\x7b\x7d", .toolCallCompleted "gemini-call-0"]

theorem run_sampleUnary :
    (consumeResponses sampleCodec [sampleUnary]).run .empty = (.ok (usageOf sampleMetadata), sampleState) := by
  rfl

theorem stream_agrees_with_unary_tide :
    ((consumeResponses sampleCodec (sampleBefore ++ sampleLast :: sampleAfter)).run
        (.empty : ResponseState Unit)).2.sent =
      ((consumeUnary sampleCodec sampleUnary).run (.empty : ResponseState Unit)).2.sent ∧
    GeminiProtocol sampleCodec [sampleUnary] sampleState.sent := by
  have hagrees := stream_agrees_with_unary Unit sampleCodec
  exact ⟨(hagrees.1 _ _ _ _ _ _ _ distributes_sample distributes_sampleUnary).2,
    hagrees.2 _ _ _ run_sampleUnary⟩

end LorePia.Gemini
