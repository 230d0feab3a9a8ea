import LorePia.Orchestration.Proof.Pipeline

/-!
# Provider roles and the latest user turn

`mapRole_cases` says everything `map_role` can answer. An accepted contract supports its default
role, so every effective role is a supported one (`mapRole_supported`).

* `resolve_latestUserTurn`: a resolved plan carries exactly one latest-user message, the context's
  message as it is, in the user role.
* `resolve_imported_privileged_iff`: imported content reaches a privileged role exactly through the
  provider's default role.
-/

namespace LorePia

open Base

variable {est : TokenEstimator} {lib : Externals} {request : PromptResolveRequest}

/-! ## Role mapping -/

/-- Everything `map_role` can answer. -/
theorem mapRole_cases {requested : RoleHint} {authority : InstructionAuthority}
    {contract : ProviderPromptContract} {role : ProviderMessageRole} {why : String}
    (h : mapRole requested authority contract = .ok (role, why)) :
    (authority = .importedContent ∧ (requested = .system ∨ requested = .developer) ∧
        .user ∈ contract.supportedRoles ∧ role = .user) ∨
      (¬ (authority = .importedContent ∧ (requested = .system ∨ requested = .developer)) ∧
        ((desiredRole requested = none ∧ role = contract.providerDefaultRole) ∨
          (desiredRole requested = some role ∧ role ∈ contract.supportedRoles) ∨
          (∃ desired, desiredRole requested = some desired ∧ desired ∉ contract.supportedRoles ∧
            ((desired = .developer ∧ role = .system ∧ .system ∈ contract.supportedRoles) ∨
              (desired = .system ∧ role = .developer ∧ .developer ∈ contract.supportedRoles) ∨
              (contract.unsupportedRolePolicy = .useProviderDefault ∧
                role = contract.providerDefaultRole))))) := by
  unfold mapRole at h
  split at h
  · rename_i himp
    split at h
    · rename_i huser
      cases h
      exact .inl ⟨himp.1, himp.2, by simpa using huser, rfl⟩
    · cases h
  · rename_i himp
    refine .inr ⟨himp, ?_⟩
    split at h
    · rename_i hd
      cases h
      exact .inl ⟨hd, rfl⟩
    · rename_i desired hd
      split at h
      · rename_i hs
        cases h
        exact .inr (.inl ⟨hd, by simpa using hs⟩)
      · rename_i hs
        refine .inr (.inr ⟨desired, hd, by simpa using hs, ?_⟩)
        unfold mapUnsupportedRole at h
        split at h
        · split at h
          · rename_i hsys
            cases h
            exact .inl ⟨rfl, rfl, by simpa using hsys⟩
          · cases h
        · split at h
          · rename_i hdev
            cases h
            exact .inr (.inl ⟨rfl, rfl, by simpa using hdev⟩)
          · cases h
        · rename_i hpol
          cases h
          exact .inr (.inr ⟨hpol, rfl⟩)
        · cases h

/-- Every effective role is supported. -/
theorem mapRole_supported {requested : RoleHint} {authority : InstructionAuthority}
    {contract : ProviderPromptContract} {role : ProviderMessageRole} {why : String}
    (hc : AcceptedContract contract) (h : mapRole requested authority contract = .ok (role, why)) :
    role ∈ contract.supportedRoles := by
  rcases mapRole_cases h with ⟨-, -, hs, rfl⟩ | ⟨-, ⟨-, rfl⟩ | ⟨-, hs⟩ | ⟨_, -, -, h⟩⟩
  · exact hs
  · exact hc.default_mem
  · exact hs
  · rcases h with ⟨-, rfl, hs⟩ | ⟨-, rfl, hs⟩ | ⟨-, rfl⟩
    · exact hs
    · exact hs
    · exact hc.default_mem

/-! ## A small request -/

/-- A provenance without optional fields. -/
def plainProvenance (sourceKind : SourceKind) : Provenance where
  sourceKind := sourceKind
  sourceId := none
  sourceHash := none
  author := none
  license := none
  importedAt := none

/-- An enabled block without template, condition or token policy. -/
def sampleBlock (id : PromptBlockId) (kind : PromptBlockKind) (source : BlockSource)
    (zone : PlacementZone) (overflowPolicy : OverflowPolicy) : PromptBlock where
  id := id
  name := id
  kind := kind
  enabled := true
  roleHint := .user
  authority := .creator
  template := none
  condition := none
  source := source
  placementZone := zone
  historySelector := none
  tokenPolicy := ⟨0, none, none, none⟩
  overflowPolicy := overflowPolicy
  mergePolicy := .separateMessage
  provenance := plainProvenance .userCreated

/-- The latest-user block. -/
def sampleLatest : PromptBlock := sampleBlock "latest" .latestUserTurn .latestUser .latestUser .reject

/-- The draft of the latest user turn. -/
def sampleTurn : DraftMessage where
  requestedRole := .user
  authority := .creator
  content := "hello"
  sourceMessageIds := ["m1"]
  sourceMemoryRecordIds := []
  provenance := plainProvenance .userCreated
  origins := []

/-- The blocks and the latest-user block. -/
def samplePreset (blocks : List PromptBlock) : PromptPreset where
  id := "preset"
  name := "Preset"
  schemaVersion := 1
  blocks := blocks ++ [sampleLatest]
  controls := []
  defaultValues := ⟨[]⟩
  knowledgeBookIds := []
  transformSetIds := []
  moduleIds := []
  cacheBoundaries := []
  metadata := ⟨[], plainProvenance .userCreated⟩

/-- One user message and an author note. -/
def sampleContext (selectedKnowledge : List SelectedKnowledge)
    (selectedMemory : List SelectedMemory) : PromptResolutionContext where
  conversationId := "conversation"
  branchId := "main"
  character :=
    { characterId := "character"
      name := "Ari"
      aliases := []
      description := ""
      personality := ""
      scenario := ""
      firstMessage := ""
      dialogueExamples := []
      systemInstruction := ""
      postHistoryInstruction := ""
      alternateGreetings := []
      knowledgeBookIds := []
      assetIds := [] }
  persona := none
  userName := "Sam"
  messages := [⟨"m1", "main", .user, "hello", 0⟩]
  latestUserMessageId := "m1"
  selectedKnowledge := selectedKnowledge
  selectedMemory := selectedMemory
  summaryBoundaries := []
  conversationSummary := none
  authorNote := some "note"
  groupContext := none
  vars := ⟨[]⟩
  slots := []
  currentDate := "2026-08-03"
  currentTime := "12:00"
  supportedCapabilities := []
  sessionSeed := none
  contextSnapshot := none

/-- The request of `samplePreset blocks` for a provider. -/
def sampleRequest (blocks : List PromptBlock) (context : PromptResolutionContext)
    (provider : ProviderPromptContract) (maxContextTokens : UInt32) : PromptResolveRequest where
  preset := samplePreset blocks
  context := context
  provider := provider
  generationPresetId := none
  maxContextTokens := maxContextTokens
  reservedOutputTokens := 0

/-- The checks on a context without snapshot. -/
def validateSampleContext (context : PromptResolutionContext) : Validation Unit := do
  validatePromptContextMessages context
  validatePromptContextSelectionIds context
  validatePromptContextSummariesAndSlots context
  validatePromptContextText context
  validateVariableMap context.vars "context.variables"

theorem sampleRequest_validate (lib : Externals) {blocks : List PromptBlock}
    {knowledge : List SelectedKnowledge} {memory : List SelectedMemory}
    {provider : ProviderPromptContract} {maxContextTokens : UInt32}
    (hpreset : validatePromptPresetBlocks (samplePreset blocks) = .ok ())
    (hcount : blocks.length < maxPromptBlocks)
    (hlimits : validatePromptRequestLimits
      (sampleRequest blocks (sampleContext knowledge memory) provider maxContextTokens) = .ok ())
    (hprovider : validateProviderPromptContract provider = .ok ())
    (hcontext : validateSampleContext (sampleContext knowledge memory) = .ok ()) :
    (sampleRequest blocks (sampleContext knowledge memory) provider maxContextTokens).validate lib =
      .ok () := by
  simp only [validateSampleContext, seq_eq_ok] at hcontext
  obtain ⟨h1, h2, h3, h4, h5⟩ := hcontext
  have hp : (samplePreset blocks).validate lib = .ok () := by
    simp only [PromptPreset.validate, seq_eq_ok]
    have hid : validateId "id" "preset" = .ok () := by decide
    have hname : validateText "name" "Preset" 1 maxNameChars = .ok () := by decide
    refine ⟨hid, hname, rfl, rejectIf_eq_ok.2 ?_, rfl, rfl, hpreset, rfl, rfl, rfl⟩
    simp only [samplePreset, List.isEmpty_iff, List.append_eq_nil_iff, List.length_append,
      List.length_singleton, List.cons_ne_nil, and_false, false_or]
    omega
  simp only [PromptResolveRequest.validate, seq_eq_ok]
  exact ⟨hp, hlimits, hprovider, h1, h2, h3, h4, rfl, h5⟩

/-- Externals that always succeed. -/
def sampleExternals : Externals where
  sha256 _ := Vector.replicate 32 0
  planToVec _ := .ok []
  snapshotToVec _ := .ok []
  variableValueToString _ := .ok ""
  memoryReasonsFromStr _ := none
  displayF64 _ := "0"
  renderPortableText text _ := text

/-- A contract with system, user and assistant roles, and system as its default. -/
def systemDefaultContract : ProviderPromptContract where
  supportedRoles := [.system, .user, .assistant]
  providerDefaultRole := .system
  unsupportedRolePolicy := .reject
  supportsExplicitCache := false
  maxCacheBoundaries := 0

/-- An imported author note that asks for the provider's default role. -/
def importedNote : PromptBlock :=
  { sampleBlock "note" .authorNote .authorNote .presetInstruction .reject with
    roleHint := .providerDefault
    authority := .importedContent }

/-- The draft of the note. -/
def importedNoteDraft : DraftMessage where
  requestedRole := .providerDefault
  authority := .importedContent
  content := "note"
  sourceMessageIds := []
  sourceMemoryRecordIds := []
  provenance := plainProvenance .userCreated
  origins := []

/-- The request that shows the note to a provider. -/
def importedRequest (provider : ProviderPromptContract) : PromptResolveRequest :=
  sampleRequest [importedNote] (sampleContext [] []) provider (UInt32.ofNat u32Max)

/-- The note gets the provider's default role, whichever it is. -/
theorem importedRequest_resolve (est : TokenEstimator) (lib : Externals)
    (provider : ProviderPromptContract) (hser : ∀ material, ∃ bytes, lib.planToVec material = .ok bytes)
    (hprovider : validateProviderPromptContract provider = .ok ())
    (huser : .user ∈ provider.supportedRoles) :
    ∃ plan, resolve est lib (importedRequest provider) = .ok plan ∧
      ∃ message ∈ plan.effectiveMessages, message.authority = .importedContent ∧
        message.effectiveRole = provider.providerDefaultRole := by
  have hvalid : (importedRequest provider).validate lib = .ok () :=
    sampleRequest_validate lib (by decide) (by decide) rfl hprovider (by decide)
  have hle : ∀ tokens, tokens ≤ (importedRequest provider).availableTokens :=
    fun tokens => UInt32.le_iff_toNat_le.2 (toNat_le_u32Max tokens)
  obtain ⟨mats, hmats, hbounds, horder⟩ : ∃ mats,
      materializeBlocks est lib (importedRequest provider) = .ok mats ∧
        mapIdx (fun _ b => enforceBlockMaximum est (importedRequest provider) b) mats = .ok mats ∧
          emissionOrder mats = [(importedNote, importedNoteDraft), (sampleLatest, sampleTurn)] :=
    ⟨_, rfl, rfl, rfl⟩
  have hblocks : resolveBlocks est lib (importedRequest provider) = .ok mats := by
    refine resolveBlocks_eq_ok.2 ⟨mats, mats, hmats, boundBlocks_eq_ok.2 ⟨hbounds, hle _⟩, ?_⟩
    rw [enforceGlobalBudget, if_pos (hle _)]
    rfl
  have hcontains : provider.supportedRoles.contains .user = true := by simpa using huser
  obtain ⟨emitted, hemit, hany, hnote⟩ : ∃ emitted,
      mapIdx (emitMessage est provider) (emissionOrder mats) = .ok emitted ∧
        (emitted.map (·.2)).any carriesLatestUser = true ∧
          ∃ message ∈ emitted.map (·.2), message.authority = .importedContent ∧
            message.effectiveRole = provider.providerDefaultRole := by
    rw [horder]
    simp only [mapIdx, mapIdxFrom, emitMessage, importedNoteDraft, sampleTurn, mapRole, desiredRole,
      hcontains]
    exact ⟨_, rfl, rfl, _, List.mem_cons_self, rfl, rfl⟩
  obtain ⟨bytes, hbytes⟩ := hser (draftPlan est (importedRequest provider) mats emitted).material
  have hseal : sealPlan est lib (importedRequest provider) mats = .ok _ :=
    sealPlan_eq_ok.2 ⟨emitted, _, hemit, hany, by rw [canonicalPlanHash, hbytes]; rfl, rfl⟩
  exact ⟨_, resolve_eq_ok.2 ⟨hvalid, mats, hblocks, hseal⟩, hnote⟩

/-! ## The latest user turn -/

/-- The final blocks are the preset's blocks. -/
theorem resolveBlocks_map_block {final : List MaterializedBlock}
    (hreq : AcceptedRequest lib request) (h : resolveBlocks est lib request = .ok final) :
    final.map (·.block) = request.preset.blocks := by
  have hlen := resolveBlocks_length hreq h
  refine List.ext_getElem (by simpa using hlen) fun i hi hi' => ?_
  have hi0 : i < final.length := by simpa using hi
  obtain ⟨_, b₀, b₁, -, run⟩ :=
    resolveBlocks_get hreq h (List.getElem?_eq_getElem hi') (List.getElem?_eq_getElem hi0)
  rw [List.getElem_map]
  exact run.sameBlock hreq

/-- The latest-user block ends with its one draft, or with none. -/
theorem resolveBlocks_latest {final : List MaterializedBlock} {latest : PromptConversationMessage}
    (hreq : AcceptedRequest lib request) (h : resolveBlocks est lib request = .ok final)
    (hlatest : request.context.latest = some latest) (hne : latest.content ≠ "")
    {b : MaterializedBlock} (hb : b ∈ final) (hk : b.block.kind = .latestUserTurn) :
    b.messages = [] ∨ b.messages = [latestUserDraft b.block latest] := by
  obtain ⟨i, hi⟩ := List.mem_iff_getElem?.1 hb
  have hlt : i < request.preset.blocks.length := by
    rw [← resolveBlocks_length hreq h]
    exact (List.getElem?_eq_some_iff.1 hi).1
  obtain ⟨_, b₀, b₁, hb₁, run⟩ := resolveBlocks_get hreq h (List.getElem?_eq_getElem hlt) hi
  have hsame := run.sameBlock hreq
  have hblock := (hreq.blocks _ (List.getElem_mem hlt)).latest (hsame ▸ hk)
  -- neither stage touches a block that rejects overflow and is no candidate
  have hb1 : b₁.block.kind = .latestUserTurn := by
    rw [← run.bounded.2.frame.block]
    exact hk
  have hbudget := run.budget
  rw [globalTarget_latestUser hb₁ hb1] at hbudget
  have hreject : b₀.block.overflowPolicy = .reject := by
    rw [← run.frame.block, hsame]
    exact hblock.overflowPolicy
  have hmax : b₁.messages = b₀.messages := by
    cases run.bounded.1 with
    | same => rfl
    | reduced t r _ _ hr => rw [pushOverflow_messages, (reduceBlock_reduced hr).of_reject hreject]
  rw [show b = b₁ from hbudget, hmax, ← show b = b₁ from hbudget, hsame]
  exact materializeBlock_latest run.materialize hblock hlatest hne

theorem emissionOrder_filter_kind (kind : PromptBlockKind) (blocks : List MaterializedBlock) :
    (emissionOrder blocks).filter (fun item => item.1.kind = kind) =
      emissionOrder (blocks.filter fun b => b.block.kind = kind) := by
  induction blocks with
  | nil => rfl
  | cons b blocks ih =>
    simp only [emissionOrder, List.flatMap_cons, List.filter_append] at ih ⊢
    rw [ih, List.filter_cons]
    by_cases hk : b.block.kind = kind
    · simp [hk, List.filter_map, Function.comp_def]
    · simp [hk, List.filter_map, Function.comp_def]

/-- The one latest-user message of a plan is emitted from the latest-user draft. -/
theorem resolve_latest_emitted {plan : ResolvedPromptPlan} (h : resolve est lib request = .ok plan) :
    ∃ latest block j message, request.context.latest = some latest ∧
      plan.effectiveMessages.filter (fun m => m.blockKind = .latestUserTurn) = [message] ∧
        Emitted est request.provider j (block, latestUserDraft block latest) message ∧
          message.effectiveRole = .user := by
  obtain ⟨hvalid, final, hblocks, hseal⟩ := resolve_eq_ok.1 h
  have hreq := validate_accepted hvalid
  obtain ⟨emitted, hash, hemit, hany, -, rfl⟩ := sealPlan_eq_ok.1 hseal
  obtain ⟨latest, hlatest, hne⟩ := hreq.latest
  have hone : (final.filter fun b => b.block.kind = .latestUserTurn).length = 1 := by
    have := hreq.oneLatest
    rw [← resolveBlocks_map_block hreq hblocks, List.countP_map] at this
    rw [← List.countP_eq_length_filter]
    exact this
  obtain ⟨b, hb⟩ := List.length_eq_one_iff.1 hone
  have hbmem : b ∈ final.filter fun b => b.block.kind = .latestUserTurn := hb ▸ List.mem_cons_self
  rw [List.mem_filter, decide_eq_true_eq] at hbmem
  have hrel : List.Forall₂ (fun item message => ∃ j, Emitted est request.provider j item message)
      (emissionOrder [b])
      ((emitted.map (·.2)).filter (fun m => m.blockKind = .latestUserTurn)) := by
    rw [← hb, ← emissionOrder_filter_kind]
    refine List.rel_filter (fun {item message} ⟨j, hem⟩ => ?_) (emitted_forall₂ hemit)
    simp only [hem.blockKind]
  obtain ⟨carrier, hcarrier, hcar⟩ := List.any_eq_true.1 hany
  simp only [carriesLatestUser, Bool.and_eq_true, decide_eq_true_eq] at hcar
  have hfilter : carrier ∈ (emitted.map (·.2)).filter (fun m => m.blockKind = .latestUserTurn) := by
    rw [List.mem_filter, decide_eq_true_eq]
    exact ⟨hcarrier, hcar.1.1⟩
  rcases resolveBlocks_latest hreq hblocks hlatest hne hbmem.1 hbmem.2 with he | he
  · -- a block without drafts would emit nothing, against the final check
    simp only [emissionOrder, List.flatMap_cons, he, List.map_nil, List.flatMap_nil,
      List.append_nil, List.forall₂_nil_left_iff] at hrel
    rw [hrel] at hfilter
    cases hfilter
  · simp only [emissionOrder, List.flatMap_cons, he, List.map_cons, List.map_nil,
      List.flatMap_nil, List.append_nil, List.forall₂_cons_left_iff,
      List.forall₂_nil_left_iff] at hrel
    obtain ⟨message, rest, ⟨j, hem⟩, rfl, hsingle⟩ := hrel
    rw [hsingle, List.mem_singleton] at hfilter
    subst hfilter
    exact ⟨latest, b.block, j, carrier, hlatest, hsingle, hem, hcar.1.2⟩

/-- **The latest user turn survives resolution, alone and unchanged**: the plan has exactly one
message of kind `latestUserTurn`; it has the content and the id of the context's latest user
message, and the user role. -/
theorem resolve_latestUserTurn (est : TokenEstimator) (lib : Externals)
    (request : PromptResolveRequest) (plan : ResolvedPromptPlan)
    (h : resolve est lib request = .ok plan) :
    ∃ latest message,
      request.context.messages.find? (fun m => m.id = request.context.latestUserMessageId) =
          some latest ∧
        plan.effectiveMessages.filter (fun m => m.blockKind = .latestUserTurn) = [message] ∧
          message.content = latest.content ∧
            message.sourceMessageIds = [request.context.latestUserMessageId] ∧
              message.effectiveRole = .user := by
  obtain ⟨latest, block, j, message, hlatest, hfilter, hem, hrole⟩ := resolve_latest_emitted h
  have hid : latest.id = request.context.latestUserMessageId := by
    simpa using List.find?_some hlatest
  exact ⟨latest, message, hlatest, hfilter, hem.content, by rw [hem.sources, ← hid]; rfl, hrole⟩

theorem resolve_latestUserTurn_importedRequest :
    ∃ plan latest message,
      resolve utf8TokenEstimator sampleExternals (importedRequest systemDefaultContract) =
          .ok plan ∧
        (sampleContext [] []).messages.find? (fun m => m.id = "m1") = some latest ∧
          plan.effectiveMessages.filter (fun m => m.blockKind = .latestUserTurn) = [message] ∧
            message.content = latest.content ∧ message.sourceMessageIds = ["m1"] ∧
              message.effectiveRole = .user := by
  obtain ⟨plan, h, -⟩ := importedRequest_resolve utf8TokenEstimator sampleExternals
    systemDefaultContract (fun _ => ⟨[], rfl⟩) (by decide) (by decide)
  obtain ⟨latest, message, hfacts⟩ := resolve_latestUserTurn utf8TokenEstimator sampleExternals
    (importedRequest systemDefaultContract) plan h
  exact ⟨plan, latest, message, h, hfacts⟩

/-! ## Imported content -/

/-- The roles imported content must not get. -/
def privileged (role : ProviderMessageRole) : Bool := role = .system || role = .developer

/-- An imported draft that the guard of `map_role` does not stop: it asks for the provider's
default role, or for an assistant role that the provider does not support. -/
def passesGuard (provider : ProviderPromptContract) (draft : DraftMessage) : Bool :=
  draft.authority = .importedContent && (draft.requestedRole = .providerDefault ||
    (draft.requestedRole = .assistant && !provider.supportedRoles.contains .assistant))

theorem privileged_eq_false {role : ProviderMessageRole} :
    privileged role = false ↔ role ≠ .system ∧ role ≠ .developer := by
  simp [privileged]

/-- No imported message of the plan has a privileged role. -/
def ImportedUnprivileged (plan : ResolvedPromptPlan) : Prop :=
  ∀ message ∈ plan.effectiveMessages, message.authority = .importedContent →
    message.effectiveRole ≠ .system ∧ message.effectiveRole ≠ .developer

/-- Resolution needs a provider with a user role. -/
theorem resolve_supports_user {plan : ResolvedPromptPlan}
    (h : resolve est lib request = .ok plan) : .user ∈ request.provider.supportedRoles := by
  obtain ⟨_, _, _, message, -, -, hem, hrole⟩ := resolve_latest_emitted h
  obtain ⟨why, hmap⟩ := hem.role
  rw [hrole] at hmap
  exact mapRole_supported (validate_accepted (resolve_eq_ok.1 h).1).provider hmap

/-- The role of an imported draft: the default role when the guard lets it pass, else a role
without privileges. -/
theorem mapRole_imported {draft : DraftMessage} {provider : ProviderPromptContract}
    {role : ProviderMessageRole} {why : String} (huser : .user ∈ provider.supportedRoles)
    (himp : draft.authority = .importedContent)
    (h : mapRole draft.requestedRole draft.authority provider = .ok (role, why)) :
    (passesGuard provider draft = true ∧ role = provider.providerDefaultRole) ∨
      (passesGuard provider draft = false ∧ privileged role = false) := by
  rcases mapRole_cases h with ⟨-, hreq, -, rfl⟩ | ⟨hguard, h⟩
  · refine .inr ⟨?_, rfl⟩
    rcases hreq with hreq | hreq <;> simp [passesGuard, hreq]
  · cases hreq : draft.requestedRole with
    | system => exact absurd ⟨himp, .inl hreq⟩ hguard
    | developer => exact absurd ⟨himp, .inr hreq⟩ hguard
    | user =>
      rw [hreq] at h
      rcases h with ⟨hd, -⟩ | ⟨hd, -⟩ | ⟨desired, hd, hns, -⟩
      · cases hd
      · cases hd
        exact .inr ⟨by simp [passesGuard, hreq], rfl⟩
      · cases hd
        exact absurd huser hns
    | assistant =>
      rw [hreq] at h
      rcases h with ⟨hd, -⟩ | ⟨hd, hs⟩ | ⟨desired, hd, hns, hrole⟩
      · cases hd
      · cases hd
        exact .inr ⟨by simp [passesGuard, hreq, hs], rfl⟩
      · cases hd
        rcases hrole with ⟨hc, -⟩ | ⟨hc, -⟩ | ⟨-, hrole⟩
        · cases hc
        · cases hc
        · exact .inl ⟨by simp [passesGuard, hreq, himp, hns], hrole⟩
    | providerDefault =>
      rw [hreq] at h
      rcases h with ⟨-, hrole⟩ | ⟨hd, -⟩ | ⟨desired, hd, -⟩
      · exact .inl ⟨by simp [passesGuard, hreq, himp], hrole⟩
      · cases hd
      · cases hd

theorem importedUnprivileged_iff {plan : ResolvedPromptPlan} {blocks : List MaterializedBlock}
    (h : resolve est lib request = .ok plan) (hblocks : resolveBlocks est lib request = .ok blocks) :
    ImportedUnprivileged plan ↔
      (privileged request.provider.providerDefaultRole = true →
        ∀ b ∈ blocks, ∀ draft ∈ b.messages, passesGuard request.provider draft = false) := by
  have huser := resolve_supports_user h
  obtain ⟨-, final, hfinal, hseal⟩ := resolve_eq_ok.1 h
  rw [hblocks, Except.ok.injEq] at hfinal
  subst hfinal
  obtain ⟨emitted, hash, hemit, -, -, rfl⟩ := sealPlan_eq_ok.1 hseal
  constructor
  · intro hprop hpriv b hb draft hd
    have hitem : (b.block, draft) ∈ emissionOrder blocks := mem_emissionOrder.2 ⟨b, hb, rfl, hd⟩
    obtain ⟨j, message, hmem, hem⟩ := emitted_of_mem hemit hitem
    by_contra hpass
    rw [Bool.not_eq_false] at hpass
    have himp : draft.authority = .importedContent := by
      simp only [passesGuard, Bool.and_eq_true, decide_eq_true_eq] at hpass
      exact hpass.1
    obtain ⟨why, hmap⟩ := hem.role
    rcases mapRole_imported huser himp hmap with ⟨-, hrole⟩ | ⟨hno, -⟩
    · have hun := privileged_eq_false.2 (hprop message hmem (hem.authority.trans himp))
      rw [hrole, hpriv] at hun
      cases hun
    · rw [hpass] at hno
      cases hno
  · intro hcond message hmem himp
    obtain ⟨j, item, hitem, hem⟩ := emitted_mem hemit hmem
    obtain ⟨b, hb, -, hd⟩ := mem_emissionOrder.1 hitem
    obtain ⟨why, hmap⟩ := hem.role
    refine privileged_eq_false.1 ?_
    rcases mapRole_imported huser (hem.authority.symm.trans himp) hmap with ⟨hpass, hrole⟩ | ⟨-, hun⟩
    · rw [hrole]
      by_contra hpriv
      rw [Bool.not_eq_false] at hpriv
      rw [hcond hpriv b hb item.2 hd] at hpass
      cases hpass
    · exact hun

/-- **Imported content and privileged roles.** For a contract that the validator accepts: a plan's
imported messages are unprivileged exactly when no draft passes the guard while the default role is
privileged; and this holds of every request to the provider exactly when its default role is
unprivileged, or it has no user role at all and nothing resolves. -/
theorem resolve_imported_privileged_iff (est : TokenEstimator) (lib : Externals)
    (contract : ProviderPromptContract)
    (hser : ∀ material, ∃ bytes, lib.planToVec material = .ok bytes)
    (hcontract : validateProviderPromptContract contract = .ok ()) :
    (∀ request plan blocks, request.provider = contract → resolve est lib request = .ok plan →
      resolveBlocks est lib request = .ok blocks →
        (ImportedUnprivileged plan ↔ (privileged contract.providerDefaultRole = true →
          ∀ b ∈ blocks, ∀ draft ∈ b.messages, passesGuard contract draft = false))) ∧
      ((∀ request plan, request.provider = contract → resolve est lib request = .ok plan →
          ImportedUnprivileged plan) ↔
        (privileged contract.providerDefaultRole = false ∨ .user ∉ contract.supportedRoles)) := by
  refine ⟨?_, ?_, ?_⟩
  · rintro request plan blocks rfl h hblocks
    exact importedUnprivileged_iff h hblocks
  · intro hall
    by_contra hbad
    rw [not_or, Bool.not_eq_false, not_not] at hbad
    obtain ⟨plan, hplan, message, hmem, himp, hrole⟩ :=
      importedRequest_resolve est lib _ hser hcontract hbad.2
    have hun := privileged_eq_false.2 (hall (importedRequest contract) plan rfl hplan message hmem himp)
    rw [hrole, hbad.1] at hun
    cases hun
  · rintro hor request plan rfl h
    rcases hor with hun | huser
    · obtain ⟨-, blocks, hblocks, -⟩ := resolve_eq_ok.1 h
      refine (importedUnprivileged_iff h hblocks).2 fun hpriv => ?_
      rw [hun] at hpriv
      cases hpriv
    · exact absurd (resolve_supports_user h) huser

theorem resolve_imported_privileged_iff_systemDefault :
    validateProviderPromptContract systemDefaultContract = .ok () ∧
      ((∀ request plan, request.provider = systemDefaultContract →
          resolve utf8TokenEstimator sampleExternals request = .ok plan →
            ImportedUnprivileged plan) ↔
        (privileged systemDefaultContract.providerDefaultRole = false ∨
          .user ∉ systemDefaultContract.supportedRoles)) :=
  ⟨by decide, (resolve_imported_privileged_iff utf8TokenEstimator sampleExternals
    systemDefaultContract (fun _ => ⟨[], rfl⟩) (by decide)).2⟩

/-- An imported note resolves to a system message. -/
theorem importedRequest_system :
    ¬ ∀ plan, resolve utf8TokenEstimator sampleExternals (importedRequest systemDefaultContract) =
      .ok plan → ImportedUnprivileged plan := by
  intro hall
  obtain ⟨plan, hplan, message, hmem, himp, hrole⟩ :=
    importedRequest_resolve utf8TokenEstimator sampleExternals systemDefaultContract
      (fun _ => ⟨[], rfl⟩) (by decide) (by decide)
  exact (hall plan hplan message hmem himp).1 hrole

end LorePia
