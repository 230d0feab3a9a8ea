import LorePia.Orchestration.Proof.ModuleMemo

/-!
# Plans embed their resolution

A plan names, for each conflict, the source it selected or that it omitted the component. Since a
candidate and its last source name the same module and revision, the resolution read back from a plan
selects what the original resolution did (`selectionResolution_plan`), so it resolves to the same plan
(`resolveReviewed_selection`). Runtime plans derived from an approval, through any number of contexts,
keep its selection and verify (`Derived.runtimePlanOf`).
-/

namespace LorePia

open Base

variable {lib : ModuleExternals} {review : ModuleMergeReview} {resolutionSet : ModuleMergeResolutionSet}
  {plan : ResolvedModulePlan}

/-! ## Equality of overrides -/

theorem listEq_symm {α : Type} {eq : α → α → Bool} (hsymm : ∀ a b, eq a b = true → eq b a = true) :
    ∀ {l k : List α}, listEq eq l k = true → listEq eq k l = true
  | [], [], _ => rfl
  | a :: l, b :: k, h => by
    simp only [listEq, Bool.and_eq_true] at h ⊢
    exact ⟨hsymm a b h.1, listEq_symm hsymm h.2⟩

theorem listEq_trans {α : Type} {eq : α → α → Bool}
    (htrans : ∀ a b c, eq a b = true → eq b c = true → eq a c = true) :
    ∀ {l k m : List α}, listEq eq l k = true → listEq eq k m = true → listEq eq l m = true
  | [], [], [], _, _ => rfl
  | a :: l, b :: k, c :: m, h, h' => by
    simp only [listEq, Bool.and_eq_true] at h h' ⊢
    exact ⟨htrans a b c h.1 h'.1, listEq_trans htrans h.2 h'.2⟩

theorem VariableValue.eq_symm {a b : VariableValue} (h : a.eq b = true) : b.eq a = true := by
  cases a <;> cases b <;> simp only [VariableValue.eq, beq_iff_eq, Bool.false_eq_true] at h ⊢
  case decimal x y => exact Ieee.eq_symm h
  all_goals exact h.symm

theorem VariableValue.eq_trans {a b c : VariableValue} (h : a.eq b = true) (h' : b.eq c = true) :
    a.eq c = true := by
  cases a <;> cases b <;> simp only [VariableValue.eq, beq_iff_eq, Bool.false_eq_true] at h <;>
    cases c <;> simp only [VariableValue.eq, beq_iff_eq, Bool.false_eq_true] at h' ⊢
  case decimal x y z => exact Ieee.eq_trans h h'
  all_goals exact h.trans h'

theorem VariableMap.eq_symm {m m' : VariableMap} (h : m.eq m' = true) : m'.eq m = true := by
  refine listEq_symm (fun a b hab => ?_) h
  simp only [VariableBinding.eq, Bool.and_eq_true, decide_eq_true_eq] at hab ⊢
  exact ⟨hab.1.symm, VariableValue.eq_symm hab.2⟩

theorem VariableMap.eq_trans {m m' m'' : VariableMap} (h : m.eq m' = true) (h' : m'.eq m'' = true) :
    m.eq m'' = true := by
  refine listEq_trans (fun a b c hab hbc => ?_) h h'
  simp only [VariableBinding.eq, Bool.and_eq_true, decide_eq_true_eq] at hab hbc ⊢
  exact ⟨hab.1.trans hbc.1, VariableValue.eq_trans hab.2 hbc.2⟩

theorem sameRuntimePlanSelection_iff {left right : ResolvedModulePlan} :
    sameRuntimePlanSelection left right = true ↔
      left.orderedBindingIds = right.orderedBindingIds ∧ left.components = right.components ∧
        left.omittedComponents = right.omittedComponents ∧
        left.importApprovals = right.importApprovals ∧
        left.effectiveVariableOverrides.eq right.effectiveVariableOverrides = true := by
  simp only [sameRuntimePlanSelection, Bool.and_eq_true, decide_eq_true_eq, and_assoc]

theorem sameRuntimePlanSelection_trans {a b c : ResolvedModulePlan}
    (h : sameRuntimePlanSelection a b = true) (h' : sameRuntimePlanSelection b c = true) :
    sameRuntimePlanSelection a c = true := by
  rw [sameRuntimePlanSelection_iff] at h h' ⊢
  obtain ⟨hbindings, hcomponents, homitted, happrovals, hoverrides⟩ := h
  obtain ⟨hbindings', hcomponents', homitted', happrovals', hoverrides'⟩ := h'
  exact ⟨hbindings.trans hbindings', hcomponents.trans hcomponents', homitted.trans homitted',
    happrovals.trans happrovals', VariableMap.eq_trans hoverrides hoverrides'⟩

/-! ## Reading a resolution back -/

theorem Picks.of_selected {resolution other : ModuleConflictResolution} {reviewed : ReviewedModuleComponent}
    {selected : Option ReviewedModuleCandidate} (h : other.selected = resolution.selected)
    (hpicks : Picks resolution reviewed selected) : Picks other reviewed selected := by
  cases hpicks with
  | omitted hnone => exact .omitted (h.trans hnone)
  | chosen hsome hfind => exact .chosen (h.trans hsome) hfind

/-- A conflict is read back from the plan as its resolution selected it. -/
theorem selectionResolution_plan (h : review.Shaped)
    (hok : resolveReviewed lib review resolutionSet = .ok plan) {conflict : ModuleConflict}
    (hconflict : conflict ∈ review.conflicts) :
    ∃ resolution ∈ resolutionSet.resolutions, resolution.component = conflict.component ∧
      selectionResolution (.ofList (plan.components.map fun chosen => (chosen.component, chosen)))
        plan.omittedComponents conflict =
          .ok ⟨conflict.component, conflict.candidates, resolution.selected⟩ := by
  obtain ⟨-, -, hnodup, choices, hchoices, -, hplan⟩ := (resolveReviewed_eq_ok h).1 hok
  obtain ⟨hcomponents, homitted, -⟩ := planOfChoices_eq_ok hplan
  obtain ⟨-, honce, -, -⟩ := resolves_of_resolveReviewed h hok
  rw [h.conflicts] at hconflict
  obtain ⟨reviewed, hreviewed, hsome⟩ := List.mem_filterMap.1 hconflict
  obtain ⟨hname, hmany, hcandidates⟩ := componentConflict_component hsome
  obtain ⟨choice, hchoice, hresolve⟩ := forall₂_mem_left hchoices hreviewed
  have hresolution : ∀ selected, selectCandidate (conflictMapOf review.conflicts)
      (resolutionMapOf resolutionSet.resolutions) reviewed = .ok selected →
        ∃ resolution ∈ resolutionSet.resolutions, resolution.component = conflict.component ∧
          Picks resolution reviewed selected := by
    intro selected hselected
    obtain ⟨hone, -⟩ | ⟨-, resolution, hget, -, hpicks⟩ := (selectCandidate_eq_ok h hreviewed).1 hselected
    · omega
    · obtain ⟨hmem, hcomponent⟩ := (get?_resolutionMapOf hnodup).1 hget
      exact ⟨resolution, hmem, hcomponent.trans hname.symm, hpicks⟩
  have hchosenNodup := (List.nodup_append.1 honce).1
  obtain ⟨hselected, rfl⟩ | ⟨candidate, source, hselected, hsource, rfl⟩ := resolveComponent_eq_ok.1 hresolve
  · obtain ⟨resolution, hmem, hcomponent, hpicks⟩ := hresolution none hselected
    cases hpicks with
    | omitted hnone =>
      have hin : conflict.component ∈ plan.omittedComponents := by
        rw [homitted, List.mem_insertionSort, hname]
        exact List.mem_filterMap.2 ⟨_, hchoice, rfl⟩
      have hout : (OrdMap.ofList (plan.components.map fun chosen => (chosen.component, chosen))).get?
          conflict.component = none := by
        rw [OrdMap.get?_ofList_map hchosenNodup, List.find?_eq_none]
        intro chosen hmem' heq
        refine (List.nodup_append.1 honce).2.2 chosen.component (List.mem_map_of_mem hmem')
          conflict.component hin ?_
        simpa using heq
      refine ⟨resolution, hmem, hcomponent, ?_⟩
      unfold selectionResolution
      simp [hout, hin, hnone, rejectIf]
  · obtain ⟨resolution, hmem, hcomponent, hpicks⟩ := hresolution (some candidate) hselected
    cases hpicks with
    | chosen hsel hfind =>
      rename_i selected
      have hcandidate : candidate ∈ reviewed.candidates := List.mem_of_find?_eq_some hfind
      have hselectedEq : candidate.candidate = selected := by simpa using List.find?_some hfind
      have hin : resolvedComponent reviewed.component candidate source ∈ plan.components := by
        rw [hcomponents, mem_stableSort]
        exact List.mem_filterMap.2 ⟨_, hchoice, rfl⟩
      have hget := (OrdMap.get?_ofList_map_eq_some hchosenNodup (k := conflict.component)).2 ⟨hin, hname.symm⟩
      have hout : conflict.component ∉ plan.omittedComponents := by
        intro hmem'
        exact (List.nodup_append.1 honce).2.2 _ (List.mem_map_of_mem hin) _ hmem' hname.symm
      obtain ⟨source', hsource', hmodule, hrevision⟩ := h.sources reviewed hreviewed candidate hcandidate
      rw [hsource, Option.some.injEq] at hsource'
      rw [← hsource'] at hmodule hrevision
      have hvalue : (⟨source.moduleId, source.revisionId, candidate.candidate.componentHash⟩ :
          ModuleConflictCandidate) = selected := by
        rw [← hmodule, ← hrevision, ← hselectedEq]
      have hcontained : selected ∈ conflict.candidates := by
        rw [hcandidates, ← hselectedEq]
        exact List.mem_map_of_mem hcandidate
      refine ⟨resolution, hmem, hcomponent, ?_⟩
      unfold selectionResolution
      simp [hget, hout, hsel, resolvedComponent, hvalue, hcontained, rejectIf]

/-- The resolution read back from a plan exists and resolves to the plan. -/
theorem resolveReviewed_selection (h : review.Shaped)
    (hok : resolveReviewed lib review resolutionSet = .ok plan) :
    ∃ readBack, moduleMergeResolutionSetForSelection review plan = .ok readBack ∧
      resolveReviewed lib review readBack = .ok plan := by
  obtain ⟨hhash, hknown, hnodup, choices, hchoices, -, hplan⟩ := (resolveReviewed_eq_ok h).1 hok
  obtain ⟨resolutions, hresolutions⟩ := exists_mapM_ok (l := review.conflicts) fun conflict hconflict =>
    let ⟨_, _, _, hread⟩ := selectionResolution_plan h hok hconflict
    ⟨_, hread⟩
  refine ⟨⟨review.reviewSha256, resolutions⟩, bind_eq_ok.2 ⟨resolutions, hresolutions, rfl⟩, ?_⟩
  rw [mapM_eq_ok] at hresolutions
  -- Each resolution read back selects what the original one did.
  have hread : List.Forall₂ (fun (conflict : ModuleConflict) (other : ModuleConflictResolution) =>
      ∃ resolution ∈ resolutionSet.resolutions, resolution.component = conflict.component ∧
        other = ⟨conflict.component, conflict.candidates, resolution.selected⟩)
      review.conflicts resolutions := by
    refine forall₂_imp_mem hresolutions fun conflict hconflict other hother => ?_
    obtain ⟨resolution, hmem, hcomponent, hread⟩ := selectionResolution_plan h hok hconflict
    rw [hread] at hother
    exact ⟨resolution, hmem, hcomponent, (Except.ok.inj hother).symm⟩
  have hnames : resolutions.map (·.component) = review.conflicts.map (·.component) := by
    refine (forall₂_map_eq (f := (·.component)) (g := (·.component)) ?_ hread).symm
    intro conflict other hother
    obtain ⟨resolution, -, -, hother⟩ := hother
    rw [hother]
  have hnodup' : (resolutions.map (·.component)).Nodup := hnames ▸ h.conflicts_nodup
  refine (resolveReviewed_eq_ok h).2 ⟨rfl, ?_, hnodup', choices, ?_,
    checkResolutionCount_eq_ok hnodup' (by rw [hnames]), hplan⟩
  · intro other hother
    rw [← hnames]
    exact List.mem_map_of_mem hother
  · refine forall₂_imp_mem hchoices fun reviewed hreviewed choice hchoice => ?_
    have hselect : ∀ selected, selectCandidate (conflictMapOf review.conflicts)
        (resolutionMapOf resolutionSet.resolutions) reviewed = .ok selected →
          selectCandidate (conflictMapOf review.conflicts) (resolutionMapOf resolutions) reviewed =
            .ok selected := by
      intro selected hselected
      rw [selectCandidate_eq_ok h hreviewed] at hselected ⊢
      obtain hone | ⟨hmany, resolution, hget, -, hpicks⟩ := hselected
      · exact .inl hone
      obtain ⟨conflict, hsome⟩ := Option.isSome_iff_exists.1 (componentConflict_isSome.2 hmany)
      obtain ⟨hname, -, hcandidates⟩ := componentConflict_component hsome
      have hconflict : conflict ∈ review.conflicts := by
        rw [h.conflicts]
        exact List.mem_filterMap.2 ⟨reviewed, hreviewed, hsome⟩
      obtain ⟨other, hother, resolution', hmem', hcomponent', rfl⟩ := forall₂_mem_left hread hconflict
      obtain ⟨hmem, hcomponent⟩ := (get?_resolutionMapOf hnodup).1 hget
      have hsame : resolution' = resolution := by
        refine List.inj_on_of_nodup_map hnodup hmem' hmem ?_
        rw [hcomponent', hname, hcomponent]
      refine .inr ⟨hmany, _, (get?_resolutionMapOf hnodup').2 ⟨hother, hname⟩, ?_, hpicks.of_selected ?_⟩
      · rw [hcandidates]
      · rw [hsame]
    rw [resolveComponent_eq_ok] at hchoice ⊢
    obtain ⟨hselected, hchoice⟩ | ⟨candidate, source, hselected, hsource, hchoice⟩ := hchoice
    · exact .inl ⟨hselect _ hselected, hchoice⟩
    · exact .inr ⟨candidate, source, hselect _ hselected, hsource, hchoice⟩

/-! ## Runtime plans -/

/-- A runtime plan that `resolveSelection` made from a selection. -/
structure RuntimePlanOf (lib : ModuleExternals) (approval : ApprovedModuleActivationPlan)
    (selection : ResolvedModulePlan) (applied : AppliedModuleRuntimePlan) : Prop where
  approval : applied.sourceApproval = approval
  pending : applied.review.activationBindingIds = []
  resolved : ∃ resolutions, moduleMergeResolutionSetForSelection applied.review selection = .ok resolutions ∧
    resolveReviewed lib applied.review resolutions = .ok applied.plan
  same : sameRuntimePlanSelection applied.plan selection = true
  hash : appliedModuleRuntimePlanSha256 lib applied.sourceApproval applied.derivedFromPlanSha256
    applied.review applied.plan = .ok applied.appliedPlanSha256

theorem resolveSelection_eq_ok {selection : ResolvedModulePlan} {memo memo' : Memo}
    (h : (resolveSelection lib review selection).run memo = (.ok plan, memo')) :
    (∃ resolutions, moduleMergeResolutionSetForSelection review selection = .ok resolutions ∧
      resolveReviewed lib review resolutions = .ok plan) ∧
      sameRuntimePlanSelection plan selection = true := by
  obtain ⟨resolutions, _, hresolutions, h⟩ := Stateful.run_bind_eq_ok.1 h
  obtain ⟨resolved, _, hresolved, h⟩ := Stateful.run_bind_eq_ok.1 h
  obtain ⟨_, _, hsame, h⟩ := Stateful.run_bind_eq_ok.1 h
  obtain ⟨_, _, -, hresolved⟩ := Stateful.run_bind_eq_ok.1 hresolved
  cases (Stateful.run_lift_eq_ok.1 h).1
  refine ⟨⟨resolutions, (Stateful.run_lift_eq_ok.1 hresolutions).1,
    (Stateful.run_lift_eq_ok.1 hresolved).1⟩, ?_⟩
  simpa using (Stateful.run_lift_eq_ok.1 hsame).1

theorem runtimePlanOf_build {approval : ApprovedModuleActivationPlan} {selection : ResolvedModulePlan}
    {derivedFrom : Option Sha256Digest} {applied : AppliedModuleRuntimePlan} {memo memo' : Memo}
    (hpending : review.activationBindingIds = [])
    (hresolved : ∃ resolutions, moduleMergeResolutionSetForSelection review selection = .ok resolutions ∧
      resolveReviewed lib review resolutions = .ok plan)
    (hsame : sameRuntimePlanSelection plan selection = true)
    (h : (buildAppliedModuleRuntimePlan lib approval derivedFrom review plan).run memo =
      (.ok applied, memo')) : RuntimePlanOf lib approval selection applied := by
  obtain ⟨sha256, _, hsha256, h⟩ := Stateful.run_bind_eq_ok.1 h
  obtain ⟨_, _, -, h⟩ := Stateful.run_bind_eq_ok.1 h
  cases (Stateful.run_lift_eq_ok.1 h).1
  exact ⟨rfl, hpending, hresolved, hsame, (Stateful.run_lift_eq_ok.1 hsha256).1⟩

theorem materialize_eq_ok {approval : ApprovedModuleActivationPlan} {applied : AppliedModuleRuntimePlan}
    {memo memo' : Memo}
    (h : (materializeApprovedModuleRuntimePlan lib approval review).run memo = (.ok applied, memo')) :
    RuntimePlanOf lib approval approval.plan applied := by
  obtain ⟨_, _, -, h⟩ := Stateful.run_bind_eq_ok.1 h
  obtain ⟨_, _, -, h⟩ := Stateful.run_bind_eq_ok.1 h
  obtain ⟨_, _, hpending, h⟩ := Stateful.run_bind_eq_ok.1 h
  obtain ⟨plan, _, hplan, h⟩ := Stateful.run_bind_eq_ok.1 h
  obtain ⟨hresolved, hsame⟩ := resolveSelection_eq_ok hplan
  have hpending := (Stateful.run_lift_eq_ok.1 hpending).1
  rw [rejectIf_eq_ok, not_not] at hpending
  exact runtimePlanOf_build hpending hresolved hsame h

theorem derive_eq_ok {source applied : AppliedModuleRuntimePlan} {memo memo' : Memo}
    (h : (deriveAppliedModuleRuntimePlan lib source review).run memo = (.ok applied, memo')) :
    RuntimePlanOf lib source.sourceApproval source.plan applied := by
  obtain ⟨_, _, -, h⟩ := Stateful.run_bind_eq_ok.1 h
  obtain ⟨_, _, -, h⟩ := Stateful.run_bind_eq_ok.1 h
  obtain ⟨_, _, hcheck, h⟩ := Stateful.run_bind_eq_ok.1 h
  obtain ⟨plan, _, hplan, h⟩ := Stateful.run_bind_eq_ok.1 h
  obtain ⟨hresolved, hsame⟩ := resolveSelection_eq_ok hplan
  have hpending := (seq_eq_ok.1 (Stateful.run_lift_eq_ok.1 hcheck).1).1
  rw [rejectIf_eq_ok, not_not] at hpending
  exact runtimePlanOf_build hpending hresolved hsame h

/-- The runtime plans of an approval: materialized from it, or derived from such a plan, whatever the memo
remembers at each step. -/
inductive Derived (lib : ModuleExternals) (approval : ApprovedModuleActivationPlan) :
    AppliedModuleRuntimePlan → Prop
  | materialize {review : ModuleMergeReview} {memo memo' : Memo} {applied : AppliedModuleRuntimePlan}
      (h : (materializeApprovedModuleRuntimePlan lib approval review).run memo = (.ok applied, memo')) :
      Derived lib approval applied
  | derive {source applied : AppliedModuleRuntimePlan} {review : ModuleMergeReview} {memo memo' : Memo}
      (hsource : Derived lib approval source)
      (h : (deriveAppliedModuleRuntimePlan lib source review).run memo = (.ok applied, memo')) :
      Derived lib approval applied

/-- A runtime plan embeds the approval and selects what its plan does. -/
theorem Derived.runtimePlanOf {approval : ApprovedModuleActivationPlan} {applied : AppliedModuleRuntimePlan}
    (h : Derived lib approval applied) :
    applied.sourceApproval = approval ∧ sameRuntimePlanSelection applied.plan approval.plan = true ∧
      ∃ selection, RuntimePlanOf lib approval selection applied := by
  induction h with
  | materialize h =>
    have hruntime := materialize_eq_ok h
    exact ⟨hruntime.approval, hruntime.same, _, hruntime⟩
  | derive hsource h ih =>
    have hruntime := derive_eq_ok h
    rw [ih.1] at hruntime
    exact ⟨hruntime.approval, sameRuntimePlanSelection_trans hruntime.same ih.2.1, _,
      hruntime⟩

theorem ApprovedModuleActivationPlan.verify_always {approval : ApprovedModuleActivationPlan}
    (h : approval.check lib = .ok ()) : (approval.verify lib).Always () := by
  obtain ⟨hplan, hcheck⟩ := seq_eq_ok.1 h
  exact memoize_always ((memoize_always (Stateful.always_lift hplan)).bind (Stateful.always_lift hcheck))

/-- The selection of a runtime plan is the one it was made from. -/
theorem RuntimePlanOf.selection_eq {approval : ApprovedModuleActivationPlan}
    {selection : ResolvedModulePlan} {applied : AppliedModuleRuntimePlan}
    (h : RuntimePlanOf lib approval selection applied) :
    moduleMergeResolutionSetForSelection applied.review applied.plan =
      moduleMergeResolutionSetForSelection applied.review selection := by
  obtain ⟨-, hcomponents, homitted, -, -⟩ := sameRuntimePlanSelection_iff.1 h.same
  unfold moduleMergeResolutionSetForSelection
  rw [hcomponents, homitted]

/-- A plan whose overrides equal others equals itself: it has no NaN. -/
theorem RuntimePlanOf.plan_eq {approval : ApprovedModuleActivationPlan}
    {selection : ResolvedModulePlan} {applied : AppliedModuleRuntimePlan}
    (h : RuntimePlanOf lib approval selection applied) : applied.plan.eq applied.plan = true := by
  obtain ⟨-, -, -, -, hoverrides⟩ := sameRuntimePlanSelection_iff.1 h.same
  simp only [ResolvedModulePlan.eq, Bool.and_eq_true, decide_eq_true_eq, and_true]
  exact VariableMap.eq_trans hoverrides (VariableMap.eq_symm hoverrides)

/-- The facts of a plan that a review resolved to. -/
theorem resolveReviewed_plan (h : resolveReviewed lib review resolutionSet = .ok plan) :
    plan.reviewSha256 = review.reviewSha256 ∧ plan.expectedStateRevision = review.stateRevision ∧
      plan.activationBindingIds = review.activationBindingIds ∧
      plan.effectiveVariableOverrides = review.effectiveVariableOverrides ∧
      plan.verifyUncached lib = .ok () := by
  obtain ⟨-, h⟩ := seq_eq_ok.1 h
  obtain ⟨resolutions, -, h⟩ := bind_eq_ok.1 h
  obtain ⟨choices, -, h⟩ := bind_eq_ok.1 h
  obtain ⟨-, h⟩ := seq_eq_ok.1 h
  exact (planOfChoices_eq_ok h).2.2

theorem ResolvedModulePlan.verify_always (h : plan.verifyUncached lib = .ok ()) :
    (plan.verify lib).Always () :=
  memoize_always (Stateful.always_lift h)

theorem resolveModuleMerge_always (hreview : review.verifyUncached lib = .ok ())
    (h : resolveReviewed lib review resolutionSet = .ok plan) :
    (resolveModuleMerge lib review resolutionSet).Always plan :=
  (ModuleMergeReview.verify_always hreview).bind (Stateful.always_lift h)

/-- The resolution of a plan is read back, whatever the memo remembers. -/
theorem resolutionSetFromPlan_always (hreview : review.verifyUncached lib = .ok ())
    (hplan : resolveReviewed lib review resolutionSet = .ok plan)
    {readBack : ModuleMergeResolutionSet}
    (h : moduleMergeResolutionSetForSelection review plan = .ok readBack) :
    (moduleMergeResolutionSetFromPlan lib review plan).Always readBack := by
  obtain ⟨hsha256, hrevision, -, -, hverified⟩ := resolveReviewed_plan hplan
  refine (ModuleMergeReview.verify_always hreview).bind
    ((ResolvedModulePlan.verify_always hverified).bind (Stateful.always_lift ?_))
  refine seq_eq_ok.2 ⟨rejectIf_eq_ok.2 ?_, h⟩
  simp [hsha256, hrevision]

/-- A runtime plan verifies when its approval and its review carry the hash of their contents. -/
theorem RuntimePlanOf.verify_always {approval : ApprovedModuleActivationPlan}
    {selection : ResolvedModulePlan} {applied : AppliedModuleRuntimePlan}
    (h : RuntimePlanOf lib approval selection applied) (happroval : approval.check lib = .ok ())
    (hreview : applied.review.verifyUncached lib = .ok ()) : (applied.verify lib).Always () := by
  obtain ⟨resolutions, hresolutions, hresolved⟩ := h.resolved
  obtain ⟨hsha256, hrevision, hactivation, -, hplan⟩ := resolveReviewed_plan hresolved
  rw [← h.selection_eq] at hresolutions
  refine memoize_always ?_
  refine Stateful.Always.bind (a := ()) ?_ (Stateful.Always.bind (a := ()) ?_
    (Stateful.Always.bind (a := ()) ?_ (Stateful.Always.bind (a := ()) (Stateful.always_lift ?_)
      (Stateful.Always.bind (resolutionSetFromPlan_always hreview hresolved hresolutions)
        (Stateful.Always.bind (resolveModuleMerge_always hreview hresolved)
          (Stateful.always_lift ?_))))))
  · rw [h.approval]
    exact ApprovedModuleActivationPlan.verify_always happroval
  · exact ModuleMergeReview.verify_always hreview
  · exact ResolvedModulePlan.verify_always hplan
  · refine rejectIf_eq_ok.2 ?_
    simp [h.pending, hactivation, hsha256, hrevision]
  · refine seq_eq_ok.2 ⟨rejectIf_eq_ok.2 (by simp [h.plan_eq]), bind_eq_ok.2 ⟨_, h.hash, ?_⟩⟩
    exact rejectIf_eq_ok.2 fun hne => hne rfl

/-- An approved selection that the review resolves materializes. -/
theorem exists_materialize (hlib : Serializes lib) {approval : ApprovedModuleActivationPlan}
    (happroval : approval.check lib = .ok ()) (hreview : review.verifyUncached lib = .ok ())
    (hpending : review.activationBindingIds = [])
    (hresolutions : moduleMergeResolutionSetForSelection review approval.plan = .ok resolutionSet)
    (hplan : resolveReviewed lib review resolutionSet = .ok plan)
    (hsame : sameRuntimePlanSelection plan approval.plan = true) :
    ∃ applied : AppliedModuleRuntimePlan, applied.review = review ∧ ∃ memo',
      (materializeApprovedModuleRuntimePlan lib approval review).run .empty = (.ok applied, memo') := by
  obtain ⟨sha256, hsha256⟩ : ∃ sha256, appliedModuleRuntimePlanSha256 lib approval none review plan =
      .ok sha256 := hlib.canonicalSha256 _
  have hruntime : RuntimePlanOf lib approval approval.plan ⟨sha256, approval, none, review, plan⟩ :=
    ⟨rfl, hpending, ⟨resolutionSet, hresolutions, hplan⟩, hsame, hsha256⟩
  have halways : (materializeApprovedModuleRuntimePlan lib approval review).Always
      ⟨sha256, approval, none, review, plan⟩ := by
    refine (ApprovedModuleActivationPlan.verify_always happroval).bind
      ((ModuleMergeReview.verify_always hreview).bind (Stateful.Always.bind (a := ())
        (Stateful.always_lift (rejectIf_eq_ok.2 (not_not.2 hpending))) (Stateful.Always.bind (a := plan)
          ?_ (Stateful.Always.bind (Stateful.always_lift hsha256)
            (Stateful.Always.bind (hruntime.verify_always happroval hreview) (Stateful.always_lift rfl))))))
    refine (Stateful.always_lift hresolutions).bind ((resolveModuleMerge_always hreview hplan).bind
      (Stateful.Always.bind (a := ()) (Stateful.always_lift (rejectIf_eq_ok.2 ?_)) (Stateful.always_lift rfl)))
    simp [hsame]
  exact ⟨_, rfl, _, Prod.ext (halways .empty) rfl⟩

/-- **Plans embed their resolution, and derivation keeps the selection.** A review that
`review_module_merge` made has the shape and the hash of its contents; a plan it resolved to is read back
as a resolution of the same plan; and every runtime plan of an approval has its selection and verifies. -/
theorem moduleRuntime_roundTrip (lib : ModuleExternals) :
    (∀ stateRevision context bindings revisions activation review,
      reviewModuleMergeInternal lib stateRevision context bindings revisions activation = .ok review →
        review.Shaped ∧ review.verifyUncached lib = .ok ()) ∧
    (∀ (review : ModuleMergeReview) resolutionSet plan memo, review.Shaped →
      review.verifyUncached lib = .ok () →
        ((resolveModuleMerge lib review resolutionSet).run memo).1 = .ok plan →
          ∃ readBack, (∀ memo, ((moduleMergeResolutionSetFromPlan lib review plan).run memo).1 =
              .ok readBack) ∧
            ∀ memo, ((resolveModuleMerge lib review readBack).run memo).1 = .ok plan) ∧
    ∀ approval applied, Derived lib approval applied →
      (approval.check lib = .ok () → applied.review.verifyUncached lib = .ok () →
        ∀ memo, ((applied.verify lib).run memo).1 = .ok ()) ∧
      applied.plan.orderedBindingIds = approval.plan.orderedBindingIds ∧
      applied.plan.components = approval.plan.components ∧
      applied.plan.omittedComponents = approval.plan.omittedComponents ∧
      applied.plan.importApprovals = approval.plan.importApprovals ∧
      applied.plan.effectiveVariableOverrides.eq approval.plan.effectiveVariableOverrides = true := by
  refine ⟨fun _ _ _ _ _ review h => reviewModuleMergeInternal_shaped h, ?_, ?_⟩
  · intro review resolutionSet plan memo hshaped hreview hplan
    rw [run_resolveModuleMerge (ModuleMergeReview.verify_always hreview memo)] at hplan
    obtain ⟨readBack, hread, hresolve⟩ := resolveReviewed_selection hshaped hplan
    exact ⟨readBack, resolutionSetFromPlan_always hreview hplan hread,
      resolveModuleMerge_always hreview hresolve⟩
  · intro approval applied h
    obtain ⟨-, hsame, selection, hruntime⟩ := h.runtimePlanOf
    exact ⟨fun happroval hreview => hruntime.verify_always happroval hreview,
      sameRuntimePlanSelection_iff.1 hsame⟩

theorem validateActivationApprovalId_approval : validateActivationApprovalId "approval" = .ok () := by
  decide +kernel

/-- The activation of a plan, approved. -/
theorem exists_approval (hlib : Serializes lib) (plan : ResolvedModulePlan) :
    ∃ approval : ApprovedModuleActivationPlan, approval.check lib = .ok () ∧
      approval.plan.components = plan.components ∧
      approval.plan.omittedComponents = plan.omittedComponents ∧
      (plan.effectiveVariableOverrides.eq plan.effectiveVariableOverrides = true →
        sameRuntimePlanSelection plan approval.plan = true) := by
  obtain ⟨planSha256, hplan⟩ := hlib.canonicalSha256 (.planDigest plan.reviewSha256
    plan.expectedStateRevision ["b"] plan.orderedBindingIds plan.components plan.omittedComponents
    plan.importApprovals plan.effectiveVariableOverrides)
  obtain ⟨approvalSha256, happroval⟩ := hlib.canonicalSha256 (.approvalDigest ⟨"approval",
    plan.reviewSha256, planSha256, plan.expectedStateRevision, ["b"]⟩)
  refine ⟨⟨approvalSha256, "approval", { plan with
    planSha256 := planSha256
    activationBindingIds := ["b"] }⟩, ?_, rfl, rfl, ?_⟩
  · refine seq_eq_ok.2 ⟨bind_eq_ok.2 ⟨planSha256, hplan, rejectIf_eq_ok.2 fun hne => hne rfl⟩, ?_⟩
    refine seq_eq_ok.2 ⟨validateActivationApprovalId_approval,
      seq_eq_ok.2 ⟨rejectIf_eq_ok.2 (by simp), ?_⟩⟩
    exact bind_eq_ok.2 ⟨approvalSha256, happroval, rejectIf_eq_ok.2 fun hne => hne rfl⟩
  · intro hoverrides
    exact sameRuntimePlanSelection_iff.2 ⟨rfl, rfl, rfl, rfl, hoverrides⟩

/-- The review of two modules: its plan is read back, and an approval of it materializes. -/
theorem moduleRuntime_roundTrip_harbor : ∃ review plan readBack approval applied,
    reviewModuleMergeInternal sampleModuleExternals 7 harborContext harborBindings harborRevisions [] =
        .ok review ∧
      ((moduleMergeResolutionSetFromPlan sampleModuleExternals review plan).run .empty).1 =
        .ok readBack ∧
      ((resolveModuleMerge sampleModuleExternals review readBack).run .empty).1 = .ok plan ∧
      Derived sampleModuleExternals approval applied ∧
      ((applied.verify sampleModuleExternals).run .empty).1 = .ok () ∧
      applied.plan.components = approval.plan.components := by
  obtain ⟨review, hmade, hpending, hoverrides⟩ := exists_harborReview
  obtain ⟨hproduced, hroundTrip, hderived⟩ := moduleRuntime_roundTrip sampleModuleExternals
  obtain ⟨hshaped, hreview⟩ := hproduced _ _ _ _ _ _ hmade
  obtain ⟨plan, hplan⟩ :=
    (firstCandidates_covers hshaped).resolveReviewed sampleModuleExternals_serializes hshaped
  obtain ⟨readBack, hread, hresolve⟩ := hroundTrip review (firstCandidates review) plan .empty hshaped
    hreview (resolveModuleMerge_always hreview hplan .empty)
  obtain ⟨approval, happroval, hcomponents, homitted, hsame⟩ :=
    exists_approval sampleModuleExternals_serializes plan
  obtain ⟨resolutions, hresolutions, hselected⟩ := resolveReviewed_selection hshaped hplan
  have hselection : moduleMergeResolutionSetForSelection review approval.plan = .ok resolutions := by
    rw [← hresolutions]
    unfold moduleMergeResolutionSetForSelection
    rw [hcomponents, homitted]
  obtain ⟨applied, hreview', memo', hrun⟩ := exists_materialize sampleModuleExternals_serializes
    happroval hreview hpending hselection hselected (hsame (by
      rw [(resolveReviewed_plan hplan).2.2.2.1, hoverrides]
      decide +kernel))
  have happlied : Derived sampleModuleExternals approval applied := .materialize hrun
  obtain ⟨hverify, -, hsameComponents, -⟩ := hderived approval applied happlied
  exact ⟨review, plan, readBack, approval, applied, hmade, hread .empty, hresolve .empty, happlied,
    hverify happroval (hreview' ▸ hreview) .empty, hsameComponents⟩

/-- A review that was not made by `review_module_merge`: its conflict is about no component. Its hash is
the hash of its contents. -/
def danglingReview : ModuleMergeReview :=
  { sourcelessReview with
    components := []
    conflicts := [⟨.asset "lamp", [], "conflict"⟩] }

def danglingPlan : ResolvedModulePlan where
  planSha256 := ⟨"02" ++ String.ofList (List.replicate 62 '0'), by decide +kernel⟩
  reviewSha256 := danglingReview.reviewSha256
  expectedStateRevision := 0
  activationBindingIds := []
  orderedBindingIds := []
  components := []
  omittedComponents := []
  importApprovals := []
  effectiveVariableOverrides := ⟨[]⟩

/-- It resolves, but the resolution cannot be read back from the plan. -/
theorem moduleRuntime_dangling :
    ((resolveModuleMerge sampleModuleExternals danglingReview
      (firstCandidates danglingReview)).run .empty).1 = .ok danglingPlan ∧
    ((moduleMergeResolutionSetFromPlan sampleModuleExternals danglingReview danglingPlan).run .empty).1 =
      .error (.invalidRuntimeMaterialization
        "plan does not select or omit each reviewed conflict exactly once") := by
  decide +kernel

end LorePia
