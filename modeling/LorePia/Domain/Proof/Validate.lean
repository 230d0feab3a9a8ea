import LorePia.Domain.ValidatePlan

/-!
# What the validators accept

Each validator's field path only labels its error, so acceptance is a predicate of the value alone
(`validateText_eq_ok`, `validateProvenance_eq_ok`, `validateTraceSource_eq_ok`).
`AcceptedRequest` collects what `PromptResolveRequest::validate` guarantees to the resolver.
-/

namespace LorePia

open Base

/-! ## Fields -/

/-- The texts `validate_text` accepts. -/
def TextOk (value : String) (minimum maximum : Nat) : Prop :=
  (minimum ≤ value.length ∧ value.length ≤ maximum) ∧
    value.toList.any (· = Char.ofNat 0) = false

/-- The digests `validate_sha256` accepts. -/
def Sha256Ok (value : String) : Prop :=
  ¬ (value.utf8ByteSize ≠ 64 ∨ value.toList.any isAsciiUppercase ∨ ¬ hexDecodes value)

/-- The provenances `validate_provenance` accepts. -/
def ProvenanceOk (p : Provenance) : Prop :=
  (∀ s, p.sourceId = some s → TextOk s 1 1024) ∧ (∀ s, p.sourceHash = some s → Sha256Ok s) ∧
    (∀ s, p.author = some s → TextOk s 1 maxNameChars) ∧
      ∀ s, p.license = some s → TextOk s 1 maxNameChars

@[simp] theorem validateText_eq_ok {path value : String} {lo hi : Nat} {u : Unit} :
    validateText path value lo hi = .ok u ↔ TextOk value lo hi := by
  unfold validateText TextOk
  rw [seq_eq_ok, rejectIf_eq_ok, rejectIf_eq_ok]
  simp only [not_or, not_lt, gt_iff_lt, Bool.not_eq_true]

@[simp] theorem validateSha256_eq_ok {path value : String} {u : Unit} :
    validateSha256 path value = .ok u ↔ Sha256Ok value := by
  unfold validateSha256 Sha256Ok
  rw [rejectIf_eq_ok]

@[simp] theorem validateProvenance_eq_ok {p : Provenance} {path : String} {u : Unit} :
    validateProvenance p path = .ok u ↔ ProvenanceOk p := by
  simp only [validateProvenance, ProvenanceOk, seq_eq_ok, forSome_eq_ok, validateText_eq_ok,
    validateSha256_eq_ok]

theorem validateTraceSource_eq_ok {source : PromptBlockSourceTrace} {path : String} {u : Unit} :
    validateTraceSource source path = .ok u ↔
      (∀ s, source.sourceId = some s → TextOk s 1 1024) ∧
        (∀ s, source.sourceRevision = some s → TextOk s 1 1024) ∧
          ∀ s, source.sourceHash = some s → Sha256Ok s := by
  simp only [validateTraceSource, seq_eq_ok, forSome_eq_ok, validateText_eq_ok,
    validateSha256_eq_ok]

/-! ## Digests -/

theorem hexDigit_facts : ∀ n : Fin 16, (hexDigit n).utf8Size = 1 ∧
    isAsciiUppercase (hexDigit n) = false ∧ isHexDigit (hexDigit n) = true := by decide

theorem hexDigit_facts_of_lt {n : Nat} (h : n < 16) : (hexDigit n).utf8Size = 1 ∧
    isAsciiUppercase (hexDigit n) = false ∧ isHexDigit (hexDigit n) = true :=
  hexDigit_facts ⟨n, h⟩

/-- The digits of an encoded list. -/
def hexDigits (bytes : List UInt8) : List Char :=
  bytes.flatMap fun b => [hexDigit (b.toNat / 16), hexDigit (b.toNat % 16)]

theorem hexDigits_forall {P : Char → Prop} (hP : ∀ n < 16, P (hexDigit n)) (bytes : List UInt8) :
    ∀ c ∈ hexDigits bytes, P c := by
  intro c hc
  simp only [hexDigits, List.mem_flatMap, List.mem_cons, List.not_mem_nil, or_false] at hc
  obtain ⟨b, -, rfl | rfl⟩ := hc
  · have := b.toNat_lt
    exact hP _ (by omega)
  · exact hP _ (by omega)

theorem utf8Len_hexDigits : ∀ bytes : List UInt8,
    String.utf8Len (hexDigits bytes) = 2 * bytes.length
  | [] => rfl
  | b :: bytes => by
    have h1 := (hexDigit_facts_of_lt (n := b.toNat / 16) (by have := b.toNat_lt; omega)).1
    have h2 := (hexDigit_facts_of_lt (n := b.toNat % 16) (by omega)).1
    have ih := utf8Len_hexDigits bytes
    simp only [hexDigits, List.flatMap_cons, List.cons_append, List.nil_append,
      String.utf8Len_cons, h1, h2, List.length_cons] at ih ⊢
    omega

theorem utf8ByteSize_hexEncode (digest : Vector UInt8 32) :
    (hexEncode digest.toList).utf8ByteSize = 64 := by
  show (String.ofList (hexDigits digest.toList)).utf8ByteSize = 64
  rw [String.utf8ByteSize_ofList, utf8Len_hexDigits, Vector.length_toList]

theorem isHexDigit_hexEncode (digest : Vector UInt8 32) :
    (hexEncode digest.toList).toList.all isHexDigit = true := by
  have hlist : (hexEncode digest.toList).toList = hexDigits digest.toList := String.toList_ofList
  rw [hlist, List.all_eq_true]
  exact hexDigits_forall (fun n hn => (hexDigit_facts_of_lt hn).2.2) _

/-- Every digest that is computed is accepted. -/
theorem sha256Ok_hexEncode (digest : Vector UInt8 32) : Sha256Ok (hexEncode digest.toList) := by
  have hsize := utf8ByteSize_hexEncode digest
  have hlist : (hexEncode digest.toList).toList = hexDigits digest.toList := String.toList_ofList
  have hupper : (hexEncode digest.toList).toList.any isAsciiUppercase = false := by
    rw [hlist, List.any_eq_false]
    intro c hc
    rw [hexDigits_forall (P := fun c => isAsciiUppercase c = false)
      (fun n hn => (hexDigit_facts_of_lt hn).2.1) _ c hc]
    simp
  simp [Sha256Ok, hsize, hupper, hexDecodes, isHexDigit_hexEncode]

/-! ## Blocks -/

/-- The restrictions on the latest-user block. -/
structure LatestUserBlock (block : PromptBlock) : Prop where
  source : block.source = .latestUser
  enabled : block.enabled = true
  template : block.template = none
  roleHint : block.roleHint = .user
  overflowPolicy : block.overflowPolicy = .reject

theorem validatePromptBlockKind_latest {block : PromptBlock} {path : String}
    (h : validatePromptBlockKind block path = .ok ()) (hk : block.kind = .latestUserTurn) :
    LatestUserBlock block := by
  unfold validatePromptBlockKind at h
  rw [hk] at h
  simp only [rejectIf_eq_ok, not_or, not_not, Bool.not_eq_true, Option.isSome_eq_false_iff,
    Option.isNone_iff_eq_none, ne_eq] at h
  obtain ⟨-, hs, he, ht, -, hr, ho⟩ := h
  exact ⟨hs, by simpa using he, ht, hr, ho⟩

/-- What `validate_prompt_block` guarantees. -/
structure AcceptedBlock (block : PromptBlock) : Prop where
  latest : block.kind = .latestUserTurn → LatestUserBlock block
  kindMatches : promptBlockKindMatchesSource block.kind block.source = true
  provenance : ProvenanceOk block.provenance

theorem validatePromptBlock_accepted {block : PromptBlock} {path : String}
    (h : validatePromptBlock block path = .ok ()) : AcceptedBlock block := by
  simp only [validatePromptBlock, seq_eq_ok, validateProvenance_eq_ok] at h
  obtain ⟨-, -, -, -, -, hkind, -, hmatch, -, hprov⟩ := h
  refine ⟨validatePromptBlockKind_latest hkind, ?_, hprov⟩
  rw [rejectIf_eq_ok] at hmatch
  simpa using hmatch

/-- The block loop accepts ordered lists of accepted blocks and counts the latest-user ones. -/
theorem validateBlockOrder_spec : ∀ {blocks : List PromptBlock} {index : Nat}
    {zone : PlacementZone} {count n : Nat} {prefill : Bool},
    validateBlockOrder blocks index zone count prefill = .ok n →
      (∀ block ∈ blocks, AcceptedBlock block) ∧
        (∀ block ∈ blocks, zone.rank ≤ block.placementZone.rank) ∧
          blocks.Pairwise (fun a b => a.placementZone.rank ≤ b.placementZone.rank) ∧
            n = count + blocks.countP (fun block => block.kind = .latestUserTurn)
  | [], _, _, _, _, _, h => by
    simp only [validateBlockOrder, Except.ok.injEq] at h
    simp [h]
  | block :: rest, index, zone, count, n, prefill, h => by
    simp only [validateBlockOrder, seq_eq_ok, rejectIf_eq_ok, not_lt] at h
    obtain ⟨hblock, hzone, -, hrest⟩ := h
    obtain ⟨hall, hle, hpair, hcount⟩ := validateBlockOrder_spec hrest
    refine ⟨?_, ?_, hpair.cons hle, ?_⟩
    · exact List.forall_mem_cons.2 ⟨validatePromptBlock_accepted hblock, hall⟩
    · exact List.forall_mem_cons.2 ⟨hzone, fun b hb => hzone.trans (hle b hb)⟩
    · rw [hcount, List.countP_cons]
      by_cases hk : block.kind = .latestUserTurn
      · simp only [hk, if_true, decide_true]; omega
      · simp only [hk, if_false, decide_false, Bool.false_eq_true, Nat.add_zero]

/-! ## Requests -/

/-- What `validate_provider_prompt_contract` guarantees. -/
structure AcceptedContract (provider : ProviderPromptContract) : Prop where
  default_mem : provider.providerDefaultRole ∈ provider.supportedRoles

theorem validateProviderPromptContract_accepted {provider : ProviderPromptContract}
    (h : validateProviderPromptContract provider = .ok ()) : AcceptedContract provider := by
  simp only [validateProviderPromptContract, seq_eq_ok, rejectIf_eq_ok, not_or, not_not] at h
  exact ⟨by simpa using h.2.1.2⟩

/-- What `PromptResolveRequest::validate` guarantees to the resolver. -/
structure AcceptedRequest (lib : Externals) (request : PromptResolveRequest) : Prop where
  blocks : ∀ block ∈ request.preset.blocks, AcceptedBlock block
  ordered : request.preset.blocks.Pairwise
    (fun a b => a.placementZone.rank ≤ b.placementZone.rank)
  uniqueBlocks : (request.preset.blocks.map (·.id)).Nodup
  oneLatest : request.preset.blocks.countP (fun block => block.kind = .latestUserTurn) = 1
  blockCount : request.preset.blocks.length ≤ maxPromptBlocks
  reserved : request.reservedOutputTokens < request.maxContextTokens
  provider : AcceptedContract request.provider
  messageCount : request.context.messages.length ≤ maxHistoryMessages
  latest : ∃ message, request.context.latest = some message ∧ message.content ≠ ""
  knowledgeCount : request.context.selectedKnowledge.length ≤ maxKnowledgeEntries
  uniqueKnowledge : (request.context.selectedKnowledge.map (·.entryId)).Nodup
  memoryCount : request.context.selectedMemory.length ≤ maxMemoryRecords
  uniqueMemory : (request.context.selectedMemory.map (·.recordId)).Nodup
  summary : ∀ summary, request.context.conversationSummary = some summary → summary ≠ ""
  snapshot : ∀ snapshot, request.context.contextSnapshot = some snapshot →
    validatePromptContextSnapshot lib snapshot (some request.context) = .ok ()

theorem TextOk.ne_empty {value : String} {hi : Nat} (h : TextOk value 1 hi) : value ≠ "" := by
  rintro rfl
  exact absurd h.1.1 (by decide)

theorem validatePromptContextMessages_latest {context : PromptResolutionContext}
    (h : validatePromptContextMessages context = .ok ()) :
    context.messages.length ≤ maxHistoryMessages ∧
      ∃ message, context.latest = some message ∧ message.content ≠ "" := by
  simp only [validatePromptContextMessages, seq_eq_ok, rejectIf_eq_ok, not_lt, gt_iff_lt,
    not_not] at h
  refine ⟨h.1, ?_⟩
  obtain ⟨message, hm, hok⟩ := (Option.any_eq_true _ _).1 h.2.2
  rw [decide_eq_true_eq] at hok
  exact ⟨message, hm, fun he => hok.2.2 (by rw [he]; rfl)⟩

theorem validatePromptContextOptionalText_summary {context : PromptResolutionContext}
    (h : validatePromptContextOptionalText context = .ok ()) {summary : String}
    (hs : context.conversationSummary = some summary) : summary ≠ "" := by
  simp only [validatePromptContextOptionalText, seq_eq_ok] at h
  have := forIdx_eq_ok.1 h.1 0 _ rfl
  rw [forSome_eq_ok] at this
  exact (validateText_eq_ok.1 (this summary hs)).ne_empty

/-- **What the resolver may rely on.** -/
theorem validate_accepted {lib : Externals} {request : PromptResolveRequest}
    (h : request.validate lib = .ok ()) : AcceptedRequest lib request := by
  simp only [PromptResolveRequest.validate, seq_eq_ok] at h
  obtain ⟨hpreset, hlimits, hprovider, hmessages, hselection, -, htext, hsnapshot, -⟩ := h
  simp only [PromptPreset.validate, seq_eq_ok] at hpreset
  obtain ⟨-, -, -, hcount, -, -, hblocks, -⟩ := hpreset
  rw [validatePromptPresetBlocks, bind_eq_ok] at hblocks
  obtain ⟨n, horder, hblocks⟩ := hblocks
  simp only [seq_eq_ok, rejectIf_eq_ok, not_not, Bool.not_eq_true, hasDuplicate_eq_false,
    ne_eq] at hblocks
  obtain ⟨huniqueBlocks, hone⟩ := hblocks
  obtain ⟨hall, -, hordered, hn⟩ := validateBlockOrder_spec horder
  simp only [validatePromptRequestLimits, seq_eq_ok, rejectIf_eq_ok, ge_iff_le] at hlimits
  simp only [validatePromptContextSelectionIds, seq_eq_ok, rejectIf_eq_ok, gt_iff_lt, not_lt,
    Bool.not_eq_true, hasDuplicate_eq_false] at hselection
  obtain ⟨hknowledge, huniqueKnowledge, hmemory, huniqueMemory⟩ := hselection
  simp only [validatePromptContextText, seq_eq_ok] at htext
  rw [rejectIf_eq_ok, not_or, gt_iff_lt, not_lt] at hcount
  obtain ⟨hmessageCount, hlatest⟩ := validatePromptContextMessages_latest hmessages
  exact {
    blocks := hall
    ordered := hordered
    uniqueBlocks := huniqueBlocks
    oneLatest := by omega
    blockCount := hcount.2
    reserved := UInt32.not_le.1 hlimits.2
    provider := validateProviderPromptContract_accepted hprovider
    messageCount := hmessageCount
    latest := hlatest
    knowledgeCount := hknowledge
    uniqueKnowledge := huniqueKnowledge
    memoryCount := hmemory
    uniqueMemory := huniqueMemory
    summary := fun _ => validatePromptContextOptionalText_summary htext.2.2.2
    snapshot := forSome_eq_ok.1 hsnapshot }

end LorePia
