import LorePia.Domain.Proof.Interaction
import LorePia.Domain.Proof.Validate
import LorePia.Orchestration.Module

/-!
# A review does not depend on the order of its inputs

The bindings and the revisions are lists, and so are the component hashes of a revision. A review sorts
what it takes from them by keys that the checks have made unique:

* `validatedRevisionMap_eq_ok`: the revision map is the graph of the revisions, so permuted revisions with
  permuted hashes look up the same snapshots up to the order of their hashes (`SameHashes`);
* `reviewBinding_sameHashes`: such snapshots give a binding the same verdict, and `groupBinding_sameHashes`
  the same candidates;
* `sortVerdicts_eq`: verdicts in another order sort to the same bindings, approvals and ignored bindings;
* `composeVariableOverrides_get`: the overrides of a variable are those of the last binding that sets it.
-/

namespace LorePia

open Base

variable {lib : ModuleExternals} {context : ModuleResolutionContext}

/-! ## Component hashes in another order -/

/-- The same snapshot up to the order of its component hashes. -/
def ModuleRevisionSnapshot.SameHashes (s t : ModuleRevisionSnapshot) : Prop :=
  ∃ hashes : List ComponentHash, s.revision.componentHashes.Perm hashes ∧
    t = { s with revision := { s.revision with componentHashes := hashes } }

theorem canonicalComponentHashes_eq_ok {snapshot : ModuleRevisionSnapshot} {hashes : List ComponentHash} :
    canonicalComponentHashes snapshot = .ok hashes ↔
      (snapshot.revision.componentHashes.map (·.component)).Nodup ∧
        stableSort (fun left right => left.component ≤ right.component)
          snapshot.revision.componentHashes = hashes := by
  unfold canonicalComponentHashes
  rw [← adjacentEq_stableSort_key (fun hash : ComponentHash => hash.component)]
  dsimp only
  split
  · rename_i hadjacent
    simp [hadjacent]
  · rename_i hadjacent
    rw [Bool.not_eq_true] at hadjacent
    simp [hadjacent]

namespace ModuleRevisionSnapshot.SameHashes

variable {s t : ModuleRevisionSnapshot}

theorem canonicalComponentHashes (h : s.SameHashes t) {hashes : List ComponentHash}
    (hs : LorePia.canonicalComponentHashes s = .ok hashes) :
    LorePia.canonicalComponentHashes t = .ok hashes := by
  obtain ⟨permuted, hperm, rfl⟩ := h
  rw [canonicalComponentHashes_eq_ok] at hs ⊢
  obtain ⟨hnodup, rfl⟩ := hs
  refine ⟨(hperm.map _).nodup_iff.1 hnodup, ?_⟩
  refine (stableSort_key_congr (fun hash : ComponentHash => hash.component) hperm ?_).symm
  exact fun a ha b hb => List.inj_on_of_nodup_map hnodup ha hb

theorem validateRevisionSnapshot (h : s.SameHashes t)
    (hs : LorePia.validateRevisionSnapshot lib s = .ok ()) :
    LorePia.validateRevisionSnapshot lib t = .ok () := by
  obtain ⟨hmodule, hs⟩ := seq_eq_ok.1 hs
  obtain ⟨hident, hs⟩ := seq_eq_ok.1 hs
  obtain ⟨hself, hs⟩ := seq_eq_ok.1 hs
  obtain ⟨declared, hdeclared, hs⟩ := bind_eq_ok.1 hs
  obtain ⟨hashed, hhashed, hs⟩ := bind_eq_ok.1 hs
  have hhashed' := h.canonicalComponentHashes hhashed
  obtain ⟨permuted, -, rfl⟩ := h
  refine seq_eq_ok.2 ⟨hmodule, seq_eq_ok.2 ⟨hident, seq_eq_ok.2 ⟨hself, ?_⟩⟩⟩
  exact bind_eq_ok.2 ⟨declared, hdeclared, bind_eq_ok.2 ⟨hashed, hhashed', hs⟩⟩

theorem validateImportEvidence (h : s.SameHashes t) {invalid : String → ModuleMergeError}
    {binding : ModuleBinding} {evidence : ModuleImportApprovalEvidence}
    (hs : LorePia.validateImportEvidence invalid binding s evidence = .ok ()) :
    LorePia.validateImportEvidence invalid binding t evidence = .ok () := by
  obtain ⟨permuted, hperm, rfl⟩ := h
  obtain ⟨hbound, hs⟩ := seq_eq_ok.1 hs
  obtain ⟨hnames, hs⟩ := seq_eq_ok.1 hs
  obtain ⟨hsame, hs⟩ := seq_eq_ok.1 hs
  obtain ⟨hselected, hs⟩ := seq_eq_ok.1 hs
  obtain ⟨hauthorized, hs⟩ := seq_eq_ok.1 hs
  obtain ⟨hcapable, hs⟩ := seq_eq_ok.1 hs
  obtain ⟨hexact, hs⟩ := seq_eq_ok.1 hs
  refine seq_eq_ok.2 ⟨hbound, seq_eq_ok.2 ⟨hnames, seq_eq_ok.2 ⟨hsame, seq_eq_ok.2 ⟨hselected,
    seq_eq_ok.2 ⟨hauthorized, seq_eq_ok.2 ⟨?_, seq_eq_ok.2 ⟨?_, ?_⟩⟩⟩⟩⟩⟩⟩
  · rw [forM_eq_ok] at hcapable ⊢
    exact fun component hm => hcapable component (hperm.mem_iff.2 hm)
  · rwa [hperm.length_eq] at hexact
  · rw [forM_eq_ok] at hs ⊢
    exact fun component hm => hs component (hperm.mem_iff.2 hm)

theorem validateModuleImportApproval (h : s.SameHashes t) {binding : ModuleBinding}
    {evidence : Option ModuleImportApprovalEvidence}
    (hs : LorePia.validateModuleImportApproval binding s = .ok evidence) :
    LorePia.validateModuleImportApproval binding t = .ok evidence := by
  have hevidence : ∀ invalid found, LorePia.validateImportEvidence invalid binding s found = .ok () →
      LorePia.validateImportEvidence invalid binding t found = .ok () :=
    fun _ _ => h.validateImportEvidence
  obtain ⟨permuted, -, rfl⟩ := h
  unfold LorePia.validateModuleImportApproval at hs ⊢
  split at hs
  · rename_i hkind
    rw [if_pos hkind]
    exact hs
  · rename_i hkind
    rw [if_neg hkind]
    obtain ⟨found, hfound, hs⟩ := bind_eq_ok.1 hs
    obtain ⟨hchecked, hs⟩ := seq_eq_ok.1 hs
    exact bind_eq_ok.2 ⟨found, hfound, seq_eq_ok.2 ⟨hevidence _ _ hchecked, hs⟩⟩

end ModuleRevisionSnapshot.SameHashes

/-! ## Revisions in another order -/

/-- The revisions in another order, with their component hashes in another order. -/
def SameRevisions (revisions revisions' : List ModuleRevisionSnapshot) : Prop :=
  ∃ permuted, revisions.Perm permuted ∧ List.Forall₂ ModuleRevisionSnapshot.SameHashes permuted revisions'

/-- What the first map finds the second finds too, up to the order of the hashes. -/
def SameLookups (map map' : OrdMap ModuleRevisionId ModuleRevisionSnapshot) : Prop :=
  ∀ id s, map.get? id = some s → ∃ t, map'.get? id = some t ∧ s.SameHashes t

theorem validatedRevisionMap_eq_ok {revisions : List ModuleRevisionSnapshot}
    {map : OrdMap ModuleRevisionId ModuleRevisionSnapshot} :
    validatedRevisionMap lib revisions = .ok map ↔
      (∀ s ∈ revisions, validateRevisionSnapshot lib s = .ok ()) ∧
        (revisions.map (·.revision.id)).Nodup ∧
        map = .ofList (revisions.map fun s => (s.revision.id, s)) := by
  have hinsert : ∀ m s r, insertRevision lib m s = .ok r ↔ validateRevisionSnapshot lib s = .ok () ∧
      m.contains s.revision.id = false ∧ r = m.insert s.revision.id s := by
    intro m s r
    unfold insertRevision
    rw [seq_eq_ok, seq_eq_ok, rejectIf_eq_ok, pure_eq_ok, Bool.not_eq_true, @eq_comm _ r]
  unfold validatedRevisionMap
  rw [OrdMap.foldlM_insert_eq_ok hinsert]
  simp [OrdMap.ofList, OrdMap.contains]

theorem SameRevisions.length_eq {revisions revisions' : List ModuleRevisionSnapshot}
    (h : SameRevisions revisions revisions') : revisions.length = revisions'.length := by
  obtain ⟨permuted, hperm, hsame⟩ := h
  rw [hperm.length_eq, hsame.length_eq]

/-- **Revisions in another order give the same map**, up to the order of the hashes. -/
theorem validatedRevisionMap_same {revisions revisions' : List ModuleRevisionSnapshot}
    (h : SameRevisions revisions revisions') {map : OrdMap ModuleRevisionId ModuleRevisionSnapshot}
    (hmap : validatedRevisionMap lib revisions = .ok map) :
    ∃ map', validatedRevisionMap lib revisions' = .ok map' ∧ SameLookups map map' := by
  obtain ⟨permuted, hperm, hsame⟩ := h
  obtain ⟨hvalid, hnodup, rfl⟩ := validatedRevisionMap_eq_ok.1 hmap
  have hid : ∀ s t : ModuleRevisionSnapshot, s.SameHashes t → s.revision.id = t.revision.id := by
    rintro s t ⟨_, -, rfl⟩
    rfl
  have hnodup' : (revisions'.map (·.revision.id)).Nodup := by
    rw [← forall₂_map_eq hid hsame]
    exact (hperm.map _).nodup_iff.1 hnodup
  refine ⟨_, validatedRevisionMap_eq_ok.2 ⟨?_, hnodup', rfl⟩, ?_⟩
  · intro t ht
    obtain ⟨s, hs, hst⟩ := forall₂_mem_right hsame ht
    exact hst.validateRevisionSnapshot (hvalid s (hperm.mem_iff.2 hs))
  · intro id s hget
    rw [OrdMap.get?_ofList_map hnodup] at hget
    have hs : s ∈ permuted := hperm.mem_iff.1 (List.mem_of_find?_eq_some hget)
    obtain ⟨t, ht, hts⟩ := forall₂_mem_right hsame.flip hs
    have hsid : s.revision.id = id := by simpa using List.find?_some hget
    refine ⟨t, ?_, hts⟩
    rw [OrdMap.get?_ofList_map hnodup', ← hsid, hid s t hts]
    exact find?_key hnodup' ht

section
variable {map map' : OrdMap ModuleRevisionId ModuleRevisionSnapshot} (hsame : SameLookups map map')
  {activation : List ModuleBindingId} {binding : ModuleBinding}
include hsame

theorem reviewBinding_sameHashes {verdict : BindingVerdict}
    (h : reviewBinding map context activation binding = .ok verdict) :
    reviewBinding map' context activation binding = .ok verdict := by
  unfold reviewBinding at h ⊢
  split at h
  · exact h
  · obtain ⟨s, hs, h⟩ := bind_eq_ok.1 h
    obtain ⟨hmodule, h⟩ := seq_eq_ok.1 h
    obtain ⟨hcapable, h⟩ := seq_eq_ok.1 h
    obtain ⟨evidence, hevidence, h⟩ := bind_eq_ok.1 h
    obtain ⟨t, ht, hst⟩ := hsame _ s (okOr_eq_ok.1 hs)
    have hevidence' := hst.validateModuleImportApproval hevidence
    obtain ⟨_, -, rfl⟩ := hst
    exact bind_eq_ok.2 ⟨_, okOr_eq_ok.2 ht, seq_eq_ok.2 ⟨hmodule, seq_eq_ok.2 ⟨hcapable,
      bind_eq_ok.2 ⟨evidence, hevidence', h⟩⟩⟩⟩

theorem groupBinding_sameHashes {grouped grouped' : GroupedCandidates}
    (h : groupBinding map grouped binding = .ok grouped') :
    groupBinding map' grouped binding = .ok grouped' := by
  obtain ⟨s, hs, h⟩ := bind_eq_ok.1 h
  obtain ⟨ordinals, hordinals, h⟩ := bind_eq_ok.1 h
  obtain ⟨hashes, hhashes, h⟩ := bind_eq_ok.1 h
  obtain ⟨t, ht, hst⟩ := hsame _ s (okOr_eq_ok.1 hs)
  have hhashes' := hst.canonicalComponentHashes hhashes
  obtain ⟨_, -, rfl⟩ := hst
  exact bind_eq_ok.2 ⟨_, okOr_eq_ok.2 ht, bind_eq_ok.2 ⟨ordinals, hordinals,
    bind_eq_ok.2 ⟨hashes, hhashes', h⟩⟩⟩

/-- The review of sorted bindings looks up nothing else. -/
theorem reviewOrdered_sameHashes {stateRevision : UInt64} {ordered : List ModuleBinding}
    {approvals : List ReviewedModuleImportApproval} {ignored : List IgnoredModuleBinding}
    {review : ModuleMergeReview}
    (h : reviewOrdered lib stateRevision context activation map ordered approvals ignored = .ok review) :
    reviewOrdered lib stateRevision context activation map' ordered approvals ignored = .ok review := by
  obtain ⟨grouped, hgrouped, h⟩ := bind_eq_ok.1 h
  refine bind_eq_ok.2 ⟨grouped, ?_, h⟩
  exact foldlM_ok_mono (fun _ _ _ => groupBinding_sameHashes hsame) hgrouped

end

/-! ## Bindings in another order -/

section
variable {map : OrdMap ModuleRevisionId ModuleRevisionSnapshot} {activation : List ModuleBindingId}
  {binding : ModuleBinding} {verdict : BindingVerdict}

/-- What a verdict says is about its binding. -/
theorem reviewBinding_verdict (h : reviewBinding map context activation binding = .ok verdict) :
    (verdict.binding? = if ignoredReason context activation binding = none then some binding else none) ∧
      (∀ approval, verdict.approval? = some approval → approval.bindingId = binding.id) ∧
      (∀ ignored, verdict.ignored? = some ignored → ignored.bindingId = binding.id) := by
  unfold reviewBinding at h
  split at h
  · rename_i reason hreason
    cases h
    refine ⟨?_, fun _ h => ?_, fun _ h => ?_⟩
    · rw [hreason]
      rfl
    · cases h
    · cases h
      rfl
  · rename_i hnone
    obtain ⟨s, -, h⟩ := bind_eq_ok.1 h
    obtain ⟨-, h⟩ := seq_eq_ok.1 h
    obtain ⟨-, h⟩ := seq_eq_ok.1 h
    obtain ⟨evidence, -, h⟩ := bind_eq_ok.1 h
    cases h
    refine ⟨?_, fun approval h => ?_, fun _ h => ?_⟩
    · rw [hnone]
      rfl
    · obtain ⟨_, -, rfl⟩ := Option.map_eq_some_iff.1 h
      rfl
    · cases h

/-- **Verdicts in another order sort to the same list**, when the key of what they say tells the
bindings apart. -/
theorem sortVerdicts_eq {γ κ : Type} [LinearOrder κ] (key : γ → κ) (said : BindingVerdict → Option γ)
    {bindings : List ModuleBinding} {verdicts verdicts' : List BindingVerdict}
    (hids : (bindings.map (·.id)).Nodup)
    (hverdicts : bindings.mapM (reviewBinding map context activation) = .ok verdicts)
    (hperm : verdicts'.Perm verdicts)
    (hkey : ∀ b v c w x y, reviewBinding map context activation b = .ok v →
      reviewBinding map context activation c = .ok w → said v = some x → said w = some y →
      key x = key y → b.id = c.id) :
    stableSort (fun a b => decide (key a ≤ key b)) (verdicts'.filterMap said) =
      stableSort (fun a b => decide (key a ≤ key b)) (verdicts.filterMap said) := by
  refine (stableSort_key_congr key (hperm.symm.filterMap said) ?_).symm
  intro x hx y hy hxy
  obtain ⟨v, hv, hvx⟩ := List.mem_filterMap.1 hx
  obtain ⟨w, hw, hwy⟩ := List.mem_filterMap.1 hy
  obtain ⟨b, hb, hbv⟩ := forall₂_mem_right (mapM_eq_ok.1 hverdicts) hv
  obtain ⟨c, hc, hcw⟩ := forall₂_mem_right (mapM_eq_ok.1 hverdicts) hw
  have hbc : b = c := List.inj_on_of_nodup_map hids hb hc (hkey b v c w x y hbv hcw hvx hwy hxy)
  rw [hbc, hcw] at hbv
  cases hbv
  rw [hvx] at hwy
  exact Option.some.inj hwy

theorem checkBinding_eq_ok {seen r : List ModuleBindingId} :
    checkBinding seen binding = .ok r ↔
      (validateBindingTarget binding = .ok () ∧ binding.validate = .ok ()) ∧ binding.id ∉ seen ∧
        r = seen ++ [binding.id] := by
  unfold checkBinding
  rw [seq_eq_ok, seq_eq_ok, seq_eq_ok, rejectIf_eq_ok, mapErr_eq_ok, pure_eq_ok, @eq_comm _ r]
  tauto

theorem checkBindings_eq_ok {bindings : List ModuleBinding} {ids : List ModuleBindingId} :
    bindings.foldlM checkBinding [] = .ok ids ↔
      (∀ b ∈ bindings, validateBindingTarget b = .ok () ∧ b.validate = .ok ()) ∧
        (bindings.map (·.id)).Nodup ∧ ids = bindings.map (·.id) := by
  have hcheck : ∀ seen (b : ModuleBinding) r, checkBinding seen b = .ok r ↔
      (validateBindingTarget b = .ok () ∧ b.validate = .ok ()) ∧ b.id ∉ seen ∧ r = seen ++ [b.id] :=
    fun _ _ _ => checkBinding_eq_ok
  rw [foldlM_seen_eq_ok hcheck]
  simp

end

/-! ## The overrides -/

/-- The overrides of one binding are inserted in turn. -/
theorem foldl_insert_get : ∀ {l : List VariableBinding} {m : VariableMap}, m.refs.Nodup →
    (l.map (·.var)).Nodup →
      (l.foldl (fun m b => m.insert b.var b.value) m).refs.Nodup ∧
      ∀ v, (l.foldl (fun m b => m.insert b.var b.value) m).get v =
        ((VariableMap.mk l).get v).or (m.get v)
  | [], m, hm, _ => ⟨hm, fun v => by simp [VariableMap.get]⟩
  | b :: l, m, hm, hl => by
    rw [List.map_cons, List.nodup_cons] at hl
    obtain ⟨hnodup, hget⟩ := foldl_insert_get (VariableMap.refs_insert_nodup hm b.var b.value) hl.2
    refine ⟨hnodup, fun v => ?_⟩
    rw [List.foldl_cons, hget, VariableMap.get_insert hm]
    by_cases hv : v = b.var
    · have hnone : (VariableMap.mk l).get v = none := VariableMap.get_eq_none.2 (by rw [hv]; exact hl.1)
      rw [hnone]
      simp [VariableMap.get, hv]
    · simp [VariableMap.get, hv, Ne.symm hv]

/-- **The last binding that sets a variable gives its value.** -/
theorem composeVariableOverrides_get : ∀ {bindings : List ModuleBinding},
    (∀ b ∈ bindings, b.variableOverrides.refs.Nodup) →
      (composeVariableOverrides bindings).refs.Nodup ∧ ∀ v,
        (composeVariableOverrides bindings).get v =
          bindings.reverse.findSome? fun b => b.variableOverrides.get v := by
  intro bindings
  induction bindings using List.reverseRecOn with
  | nil => exact fun _ => ⟨List.nodup_nil, fun v => rfl⟩
  | append_singleton l b ih =>
    intro h
    obtain ⟨hnodup, hget⟩ := ih fun c hc => h c (by simp [hc])
    have hcompose : composeVariableOverrides (l ++ [b]) = b.variableOverrides.values.foldl
        (fun m b => m.insert b.var b.value) (composeVariableOverrides l) := by
      simp [composeVariableOverrides]
    rw [hcompose]
    obtain ⟨hnodup', hget'⟩ := foldl_insert_get hnodup (h b (by simp))
    refine ⟨hnodup', fun v => ?_⟩
    rw [hget', hget, List.reverse_append, List.reverse_singleton, List.singleton_append,
      List.findSome?_cons]
    cases b.variableOverrides.get v <;> rfl

/-- The order of the claim: scope, target, conversation, priority, id. -/
def overrideKey (b : ModuleBinding) : ℕ ×ₗ WithBot String ×ₗ WithBot String ×ₗ ℤ ×ₗ String :=
  toLex (scopeRank b.scope, toLex (b.targetId, toLex (b.conversationId, toLex (b.priority, b.id))))

theorem overrideKey_le {b c : ModuleBinding} (h : bindingKey b ≤ bindingKey c) :
    overrideKey b ≤ overrideKey c := by
  simp only [bindingKey, overrideKey, Prod.Lex.toLex_le_toLex] at h ⊢
  rcases h with h | ⟨hs, h⟩
  · exact .inl h
  refine .inr ⟨hs, ?_⟩
  rcases h with h | ⟨ht, h⟩
  · exact .inl h
  refine .inr ⟨ht, ?_⟩
  rcases h with h | ⟨hc, h⟩
  · exact .inl h
  refine .inr ⟨hc, ?_⟩
  rcases h with h | ⟨hp, h⟩
  · exact .inl h
  refine .inr ⟨hp, ?_⟩
  rcases h with h | ⟨hid, -⟩
  · exact h.le
  · exact hid.le

theorem id_eq_of_overrideKey {b c : ModuleBinding} (h : overrideKey b = overrideKey c) : b.id = c.id := by
  have htarget := (Prod.mk.inj (toLex_inj.1 h)).2
  have hconversation := (Prod.mk.inj (toLex_inj.1 htarget)).2
  have hpriority := (Prod.mk.inj (toLex_inj.1 hconversation)).2
  exact (Prod.mk.inj (toLex_inj.1 hpriority)).2

theorem id_eq_of_bindingKey {b c : ModuleBinding} (h : bindingKey b = bindingKey c) : b.id = c.id :=
  id_eq_of_overrideKey (le_antisymm (overrideKey_le h.le) (overrideKey_le h.ge))

/-- In a sorted list of bindings the last one that sets a variable is the greatest one. -/
theorem composeVariableOverrides_greatest {bindings : List ModuleBinding}
    (hsorted : bindings.Pairwise fun b c => bindingKey b ≤ bindingKey c)
    (hids : (bindings.map (·.id)).Nodup) (hrefs : ∀ b ∈ bindings, b.variableOverrides.refs.Nodup)
    (v : VariableRef) (x : VariableValue) :
    (composeVariableOverrides bindings).get v = some x ↔
      ∃ b ∈ bindings, b.variableOverrides.get v = some x ∧
        ∀ c ∈ bindings, (c.variableOverrides.get v).isSome → overrideKey c ≤ overrideKey b := by
  rw [(composeVariableOverrides_get hrefs).2]
  -- the binding that is found is greatest among those that set the variable
  have hfound : ∀ y, bindings.reverse.findSome? (fun b => b.variableOverrides.get v) = some y →
      ∃ b ∈ bindings, b.variableOverrides.get v = some y ∧
        ∀ c ∈ bindings, (c.variableOverrides.get v).isSome → overrideKey c ≤ overrideKey b := by
    intro y hy
    obtain ⟨after, b, before, hl, hb, hafter⟩ := List.findSome?_eq_some_iff.1 hy
    have hbindings : bindings = before.reverse ++ b :: after.reverse := by
      rw [← List.reverse_reverse bindings, hl]
      simp
    refine ⟨b, by simp [hbindings], hb, fun c hc hset => ?_⟩
    rw [hbindings, List.mem_append, List.mem_cons] at hc
    rw [hbindings, List.pairwise_append] at hsorted
    rcases hc with hc | rfl | hc
    · exact overrideKey_le (hsorted.2.2 c hc b (by simp))
    · exact le_refl _
    · rw [hafter c (List.mem_reverse.1 hc)] at hset
      cases hset
  constructor
  · exact hfound x
  · rintro ⟨b, hb, hbx, hgreatest⟩
    cases hfind : bindings.reverse.findSome? fun b => b.variableOverrides.get v with
    | none =>
      rw [List.findSome?_eq_none_iff] at hfind
      rw [hfind b (by simpa using hb)] at hbx
      cases hbx
    | some y =>
      obtain ⟨c, hc, hcy, hgreatest'⟩ := hfound y hfind
      have hkey : overrideKey b = overrideKey c :=
        le_antisymm (hgreatest' b hb (by simp [hbx])) (hgreatest c hc (by simp [hcy]))
      have hbc : b = c := List.inj_on_of_nodup_map hids hb hc (id_eq_of_overrideKey hkey)
      rw [hbc, hcy] at hbx
      exact hbx

/-! ## The review -/

/-- The binding applies: it is enabled and approved, or reviewed for activation, and its target is the
context's. -/
def Applicable (context : ModuleResolutionContext) (activationBindingIds : List ModuleBindingId)
    (binding : ModuleBinding) : Prop :=
  (binding.enabled = true ∧ binding.approved = true ∨ binding.id ∈ activationBindingIds) ∧
    bindingApplies binding context = true

theorem ignoredReason_eq_none {activationBindingIds : List ModuleBindingId} {binding : ModuleBinding} :
    ignoredReason context (sortedSet activationBindingIds) binding = none ↔
      Applicable context activationBindingIds binding := by
  have hcontains : (sortedSet activationBindingIds).contains binding.id = true ↔
      binding.id ∈ activationBindingIds := by simp
  unfold ignoredReason Applicable
  rw [← hcontains]
  cases binding.enabled <;> cases binding.approved <;>
    cases (sortedSet activationBindingIds).contains binding.id <;>
    cases bindingApplies binding context <;> simp

/-- What the checks before the review of the sorted bindings established. -/
theorem reviewModuleMergeInternal_eq_ok {stateRevision : UInt64} {bindings : List ModuleBinding}
    {revisions : List ModuleRevisionSnapshot} {activationBindingIds : List ModuleBindingId}
    {review : ModuleMergeReview} :
    reviewModuleMergeInternal lib stateRevision context bindings revisions activationBindingIds =
        .ok review ↔
      validateResolutionContext context = .ok () ∧
      bindings.length ≤ maxModuleBindingsPerResolution ∧
      revisions.length ≤ maxModuleRevisionsPerResolution ∧
      (sortedSet activationBindingIds).length = activationBindingIds.length ∧
      ((∀ b ∈ bindings, validateBindingTarget b = .ok () ∧ b.validate = .ok ()) ∧
        (bindings.map (·.id)).Nodup ∧ sortedSet activationBindingIds ⊆ bindings.map (·.id)) ∧
      ∃ map, validatedRevisionMap lib revisions = .ok map ∧ ∃ verdicts,
        bindings.mapM (reviewBinding map context (sortedSet activationBindingIds)) = .ok verdicts ∧
        reviewOrdered lib stateRevision context (sortedSet activationBindingIds) map
          (stableSort bindingOrder (verdicts.filterMap (·.binding?)))
          (stableSort (fun left right => left.bindingId ≤ right.bindingId)
            (verdicts.filterMap (·.approval?)))
          (stableSort (fun left right =>
            toLex (left.bindingId, left.reason.rank) ≤ toLex (right.bindingId, right.reason.rank))
            (verdicts.filterMap (·.ignored?))) = .ok review := by
  constructor
  · intro h
    obtain ⟨hcontext, h⟩ := seq_eq_ok.1 h
    obtain ⟨hbindings, h⟩ := seq_eq_ok.1 h
    obtain ⟨hrevisions, h⟩ := seq_eq_ok.1 h
    obtain ⟨hactivation, h⟩ := seq_eq_ok.1 h
    obtain ⟨ids, hids, h⟩ := bind_eq_ok.1 h
    obtain ⟨hvalid, hnodup, hids⟩ := checkBindings_eq_ok.1 hids
    rw [hids] at h
    obtain ⟨hknown, h⟩ := seq_eq_ok.1 h
    obtain ⟨map, hmap, h⟩ := bind_eq_ok.1 h
    obtain ⟨verdicts, hverdicts, h⟩ := bind_eq_ok.1 h
    rw [rejectIf_eq_ok, not_not] at hactivation hknown
    rw [rejectIf_eq_ok, gt_iff_lt, not_lt] at hbindings hrevisions
    exact ⟨hcontext, hbindings, hrevisions, hactivation, ⟨hvalid, hnodup, hknown⟩, map, hmap, verdicts,
      hverdicts, h⟩
  · rintro ⟨hcontext, hbindings, hrevisions, hactivation, ⟨hvalid, hnodup, hknown⟩, map, hmap, verdicts,
      hverdicts, h⟩
    refine seq_eq_ok.2 ⟨hcontext, seq_eq_ok.2 ⟨?_, seq_eq_ok.2 ⟨?_, seq_eq_ok.2 ⟨?_, ?_⟩⟩⟩⟩
    · rwa [rejectIf_eq_ok, gt_iff_lt, not_lt]
    · rwa [rejectIf_eq_ok, gt_iff_lt, not_lt]
    · rwa [rejectIf_eq_ok, not_not]
    refine bind_eq_ok.2 ⟨_, checkBindings_eq_ok.2 ⟨hvalid, hnodup, rfl⟩, seq_eq_ok.2 ⟨?_, ?_⟩⟩
    · rwa [rejectIf_eq_ok, not_not]
    · exact bind_eq_ok.2 ⟨map, hmap, bind_eq_ok.2 ⟨verdicts, hverdicts, h⟩⟩

theorem reviewOrdered_overrides {stateRevision : UInt64} {activation : List ModuleBindingId}
    {map : OrdMap ModuleRevisionId ModuleRevisionSnapshot} {ordered : List ModuleBinding}
    {approvals : List ReviewedModuleImportApproval} {ignored : List IgnoredModuleBinding}
    {review : ModuleMergeReview}
    (h : reviewOrdered lib stateRevision context activation map ordered approvals ignored = .ok review) :
    review.effectiveVariableOverrides = composeVariableOverrides ordered := by
  obtain ⟨grouped, -, h⟩ := bind_eq_ok.1 h
  obtain ⟨components, -, h⟩ := bind_eq_ok.1 h
  obtain ⟨sha256, -, h⟩ := bind_eq_ok.1 h
  rw [← pure_eq_ok.1 h]

/-- The bindings that a review orders. -/
theorem mem_verdictBindings {map : OrdMap ModuleRevisionId ModuleRevisionSnapshot}
    {activationBindingIds : List ModuleBindingId} {bindings : List ModuleBinding}
    {verdicts : List BindingVerdict}
    (h : bindings.mapM (reviewBinding map context (sortedSet activationBindingIds)) = .ok verdicts)
    {b : ModuleBinding} :
    b ∈ verdicts.filterMap (·.binding?) ↔ b ∈ bindings ∧ Applicable context activationBindingIds b := by
  have hforall := mapM_eq_ok.1 h
  rw [List.mem_filterMap]
  constructor
  · rintro ⟨verdict, hv, hb⟩
    obtain ⟨c, hc, hcv⟩ := forall₂_mem_right hforall hv
    rw [(reviewBinding_verdict hcv).1] at hb
    split at hb
    · rename_i hnone
      cases hb
      exact ⟨hc, ignoredReason_eq_none.1 hnone⟩
    · cases hb
  · rintro ⟨hb, happlies⟩
    obtain ⟨verdict, hv, hbv⟩ := forall₂_mem_right hforall.flip hb
    refine ⟨verdict, hv, ?_⟩
    rw [(reviewBinding_verdict hbv).1, if_pos (ignoredReason_eq_none.2 happlies)]

theorem verdictBindings_nodup {map : OrdMap ModuleRevisionId ModuleRevisionSnapshot}
    {activation : List ModuleBindingId} {verdicts : List BindingVerdict} :
    ∀ {bindings : List ModuleBinding}, (bindings.map (·.id)).Nodup →
      bindings.mapM (reviewBinding map context activation) = .ok verdicts →
      ((verdicts.filterMap (·.binding?)).map (·.id)).Nodup := by
  intro bindings hids h
  have hsub : (verdicts.filterMap (·.binding?)).Sublist bindings := by
    have hforall := mapM_eq_ok.1 h
    clear h hids
    induction hforall with
    | nil => exact .slnil
    | @cons b v _ _ hbv _ ih =>
      rw [List.filterMap_cons, (reviewBinding_verdict hbv).1]
      split
      · exact ih.cons b
      · rename_i heq
        split at heq
        · cases heq
          exact ih.cons_cons _
        · cases heq
  exact (hsub.map _).nodup hids

/-- What a validated binding's overrides satisfy. -/
theorem ModuleBinding.overrides_nodup {b : ModuleBinding} (h : b.validate = .ok ()) :
    b.variableOverrides.refs.Nodup := by
  obtain ⟨-, h⟩ := seq_eq_ok.1 h
  obtain ⟨-, h⟩ := seq_eq_ok.1 h
  obtain ⟨-, h⟩ := seq_eq_ok.1 h
  obtain ⟨-, h⟩ := seq_eq_ok.1 h
  obtain ⟨-, h⟩ := seq_eq_ok.1 h
  obtain ⟨-, h⟩ := seq_eq_ok.1 h
  obtain ⟨-, h⟩ := seq_eq_ok.1 h
  obtain ⟨-, h⟩ := seq_eq_ok.1 h
  obtain ⟨-, h⟩ := seq_eq_ok.1 h
  rw [rejectIf_eq_ok, Bool.not_eq_true] at h
  exact hasDuplicate_eq_false.1 h

/-- **A review is a function of what is bound**: permuting the bindings, the revisions and the component
hashes of the revisions gives the same review, and in it each variable has the value of the last
applicable binding that sets it. -/
theorem reviewModuleMergeInternal_perm {stateRevision : UInt64} {bindings bindings' : List ModuleBinding}
    {revisions revisions' : List ModuleRevisionSnapshot} {activationBindingIds : List ModuleBindingId}
    {review : ModuleMergeReview}
    (h : reviewModuleMergeInternal lib stateRevision context bindings revisions activationBindingIds =
      .ok review)
    (hbindings : bindings.Perm bindings') (hrevisions : SameRevisions revisions revisions') :
    reviewModuleMergeInternal lib stateRevision context bindings' revisions' activationBindingIds =
        .ok review ∧
      ∀ v x, review.effectiveVariableOverrides.get v = some x ↔
        ∃ b ∈ bindings, Applicable context activationBindingIds b ∧ b.variableOverrides.get v = some x ∧
          ∀ c ∈ bindings, Applicable context activationBindingIds c →
            (c.variableOverrides.get v).isSome → overrideKey c ≤ overrideKey b := by
  obtain ⟨hcontext, hcount, hcount', hactivation, ⟨hvalid, hids, hknown⟩, map, hmap, verdicts, hverdicts,
    hreview⟩ := reviewModuleMergeInternal_eq_ok.1 h
  constructor
  · obtain ⟨map', hmap', hsame⟩ := validatedRevisionMap_same hrevisions hmap
    obtain ⟨verdicts', hverdicts', hperm⟩ := mapM_ok_perm
      (fun b v => reviewBinding_sameHashes hsame) hbindings hverdicts
    rw [reviewModuleMergeInternal_eq_ok]
    refine ⟨hcontext, hbindings.length_eq ▸ hcount, hrevisions.length_eq ▸ hcount', hactivation,
      ⟨fun b hb => hvalid b (hbindings.mem_iff.2 hb), (hbindings.map _).nodup_iff.1 hids,
        fun id hid => (hbindings.map _).mem_iff.1 (hknown hid)⟩, map', hmap', verdicts', hverdicts', ?_⟩
    have hordered : stableSort bindingOrder (verdicts'.filterMap (·.binding?)) =
        stableSort bindingOrder (verdicts.filterMap (·.binding?)) := by
      refine sortVerdicts_eq bindingKey _ hids hverdicts hperm fun b v c w x y hb hc hx hy hxy => ?_
      rw [(reviewBinding_verdict hb).1] at hx
      rw [(reviewBinding_verdict hc).1] at hy
      split at hx <;> cases hx
      split at hy <;> cases hy
      exact id_eq_of_bindingKey hxy
    have happrovals := sortVerdicts_eq (fun approval : ReviewedModuleImportApproval => approval.bindingId)
      (·.approval?) hids hverdicts hperm fun b v c w x y hb hc hx hy hxy => by
        rw [← (reviewBinding_verdict hb).2.1 x hx, hxy, (reviewBinding_verdict hc).2.1 y hy]
    have hignored := sortVerdicts_eq
      (fun ignored : IgnoredModuleBinding => toLex (ignored.bindingId, ignored.reason.rank))
      (·.ignored?) hids hverdicts hperm fun b v c w x y hb hc hx hy hxy => by
        rw [← (reviewBinding_verdict hb).2.2 x hx, ← (reviewBinding_verdict hc).2.2 y hy]
        exact (Prod.mk.inj (toLex_inj.1 hxy)).1
    rw [hordered, happrovals, hignored]
    exact reviewOrdered_sameHashes hsame hreview
  · intro v x
    have hmem : ∀ b, b ∈ stableSort bindingOrder (verdicts.filterMap (·.binding?)) ↔
        b ∈ bindings ∧ Applicable context activationBindingIds b := by
      intro b
      rw [mem_stableSort, mem_verdictBindings hverdicts]
    have hnodup : ((stableSort bindingOrder (verdicts.filterMap (·.binding?))).map (·.id)).Nodup :=
      ((stableSort_perm _ _).map _).nodup_iff.2 (verdictBindings_nodup hids hverdicts)
    have hsorted : (stableSort bindingOrder (verdicts.filterMap (·.binding?))).Pairwise
        fun b c => bindingKey b ≤ bindingKey c := stableSort_key_pairwise bindingKey _
    rw [reviewOrdered_overrides hreview, composeVariableOverrides_greatest hsorted hnodup
      fun b hb => ModuleBinding.overrides_nodup (hvalid b ((hmem b).1 hb).1).2]
    simp only [hmem, and_assoc, and_imp]

/-! ## A review of two modules -/

/-- The digest of one repeated digit. -/
def repeatedDigest (c : Char) (h : isLowerHexDigit c = true) : Sha256Digest :=
  ⟨String.ofList (List.replicate sha256HexLength c), repeated_canonical h⟩

/-- A digest function that keeps the first bytes. -/
def firstBytes (bytes : List UInt8) : Vector UInt8 32 := Vector.ofFn fun i => bytes.getD i 0

/-- The signs of the decimals of a map. -/
def signBytes (m : VariableMap) : List UInt8 :=
  m.values.map fun b => match b.value with
    | .decimal x => if x.negative then 2 else 1
    | _ => 0

/-- A serializer that writes the kind of a document and the signs of its overrides. -/
def sampleModuleExternals : ModuleExternals where
  sha256 := firstBytes
  planToVec _ := .ok []
  snapshotToVec _ := .ok []
  variableValueToString _ := .ok ""
  memoryReasonsFromStr _ := none
  displayF64 _ := "0"
  renderPortableText text _ := text
  toVec
    | .reviewDigest _ _ _ _ _ _ _ _ overrides => .ok (1 :: signBytes overrides)
    | .planDigest _ _ _ _ _ _ _ overrides => .ok (2 :: signBytes overrides)
    | .approvalDigest _ => .ok [3]
    | .appliedDigest _ => .ok [4]
    | _ => .ok [5]

def harborContext : ModuleResolutionContext := ⟨"keeper", none, none, some "room", none, []⟩

def userProvenance : Provenance := ⟨.userCreated, none, none, none, none, none⟩

/-- A module with a knowledge book and a transform set. -/
def harborModule (id : ContentModuleId) : ContentModule where
  id := id
  name := "Harbor"
  version := "1.0.0"
  schemaVersion := 1
  promptFragments := []
  knowledgeBookIds := ["harbor"]
  controlSpecs := []
  transformSetIds := ["quotes"]
  interactionRuleSetIds := []
  assetIds := []
  portableRuntime := none
  importedComponentsEnabled := true
  requiredCapabilities := []
  metadata := ⟨none, "MIT", false, none, "", [], userProvenance⟩

/-- Its revision, with the hash of the book. -/
def harborSnapshot (id : ContentModuleId) (book : Sha256Digest) : ModuleRevisionSnapshot where
  module := harborModule id
  revision :=
    { id := id ++ "-1"
      moduleId := id
      version := "1.0.0"
      sourceHash := book
      previousRevisionId := none
      componentHashes := [⟨.transformSet "quotes", repeatedDigest 'c' isLowerHexDigit_c⟩, ⟨.knowledgeBook "harbor", book⟩]
      createdAt := 0 }
  importApproval := none

/-- The snapshot with its hashes in the other order. -/
def permutedSnapshot (id : ContentModuleId) (book : Sha256Digest) : ModuleRevisionSnapshot :=
  { harborSnapshot id book with
    revision :=
      { (harborSnapshot id book).revision with
        componentHashes := [⟨.knowledgeBook "harbor", book⟩, ⟨.transformSet "quotes", repeatedDigest 'c' isLowerHexDigit_c⟩] } }

/-- A binding of the module to a scope, with its overrides. -/
def harborBinding (id : ModuleBindingId) (moduleId : ContentModuleId) (scope : ModuleScope)
    (overrides : List VariableBinding) : ModuleBinding where
  id := id
  moduleId := moduleId
  scope := scope
  targetId := none
  conversationId := none
  priority := 0
  resolutionMode := .active
  pinnedRevisionId := none
  enabled := true
  approved := true
  packageImportApprovalId := none
  activationApprovalId := some "approval"
  activationReviewSha256 := some (repeatedDigest 'd' rfl)
  activationPlanSha256 := some (repeatedDigest 'e' rfl)
  variableOverrides := ⟨overrides⟩
  revisionId := moduleId ++ "-1"
  createdAt := 0

/-- The value of the lamp. -/
def lampOverride (value : VariableValue) : VariableBinding := ⟨⟨.conversation, none, "lamp"⟩, value⟩

/-- Two bindings of modules that disagree about the book. -/
def harborBindings : List ModuleBinding :=
  [harborBinding "b" "tide" .user [lampOverride (.text "lit")],
    harborBinding "a" "moon" .app [lampOverride (.text "dark")]]

def harborRevisions : List ModuleRevisionSnapshot :=
  [harborSnapshot "tide" (repeatedDigest 'a' isLowerHexDigit_a), harborSnapshot "moon" (repeatedDigest 'b' isLowerHexDigit_b)]

def harborRevisions' : List ModuleRevisionSnapshot :=
  [permutedSnapshot "moon" (repeatedDigest 'b' isLowerHexDigit_b), permutedSnapshot "tide" (repeatedDigest 'a' isLowerHexDigit_a)]

theorem harborRevisions_same : SameRevisions harborRevisions harborRevisions' := by
  refine ⟨_, List.Perm.swap _ _ _, .cons ?_ (.cons ?_ .nil)⟩
  · exact ⟨_, List.Perm.swap _ _ _, rfl⟩
  · exact ⟨_, List.Perm.swap _ _ _, rfl⟩

theorem exists_harborReview : ∃ review,
    reviewModuleMergeInternal sampleModuleExternals 7 harborContext harborBindings harborRevisions [] =
        .ok review ∧
      review.activationBindingIds = [] ∧
      review.effectiveVariableOverrides = ⟨[lampOverride (.text "lit")]⟩ := by
  obtain ⟨review, hreview, hfields⟩ := exists_ok_of_map
    (x := reviewModuleMergeInternal sampleModuleExternals 7 harborContext harborBindings harborRevisions [])
    (f := fun review => (review.activationBindingIds, review.effectiveVariableOverrides))
    (b := ([], ⟨[lampOverride (.text "lit")]⟩)) (by decide +kernel)
  exact ⟨review, hreview, Prod.mk.inj hfields⟩

/-- Both orders give the review. -/
theorem reviewModuleMergeInternal_perm_harbor : ∃ review,
    reviewModuleMergeInternal sampleModuleExternals 7 harborContext harborBindings harborRevisions [] =
        .ok review ∧
      reviewModuleMergeInternal sampleModuleExternals 7 harborContext harborBindings.reverse
        harborRevisions' [] = .ok review := by
  obtain ⟨review, h, -⟩ := exists_harborReview
  exact ⟨review, h, (reviewModuleMergeInternal_perm h (List.reverse_perm _).symm harborRevisions_same).1⟩

end LorePia
