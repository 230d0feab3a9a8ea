import LorePia.Orchestration.Proof.PackageIntegrity

/-!
# Dependency cycles of a package

While the search goes down, every node that it visits leads to the next one, so a node that is met again is on a
cycle (`hasDependencyCycle_cycle`). What a search completes is in topological order, also when an earlier search
was abandoned, so no cycle is reachable from it.
-/

namespace LorePia

open Base

section
variable {dependencies : OrdMap String (List String)}

/-- A child that the search follows. -/
abbrev NextNode (dependencies : OrdMap String (List String)) (a b : String) : Prop :=
  b ∈ knownChildren dependencies a

/-- A cycle was found in one of the children, after others were completed. -/
theorem anyChildCycle_found {known : String → Bool}
    {visit : String → List String → List String → Bool × List String × List String}
    (hvisit : ∀ id visiting complete visiting' complete',
      visit id visiting complete = (false, visiting', complete') → visiting' = visiting ∧
        (Topological (knownChildren dependencies) complete → Topological (knownChildren dependencies) complete')) :
    ∀ {children visiting complete visiting' complete' : List String},
      anyChildCycle known visit children visiting complete = (true, visiting', complete') →
        ∃ child ∈ children, known child = true ∧ ∃ before, visit child visiting before = (true, visiting', complete') ∧
          (Topological (knownChildren dependencies) complete → Topological (knownChildren dependencies) before)
  | [], visiting, complete, visiting', complete', h => by cases h
  | child :: rest, visiting, complete, visiting', complete', h => by
    unfold anyChildCycle at h
    split at h
    · rename_i hknown
      split at h
      · rename_i hchild
        cases h
        exact ⟨child, List.mem_cons_self, hknown, complete, hchild, id⟩
      · rename_i hchild
        obtain ⟨hsame, hkeeps⟩ := hvisit _ _ _ _ _ hchild
        obtain ⟨other, hmem, hother, before, hfound, hbefore⟩ := anyChildCycle_found hvisit h
        rw [hsame] at hfound
        exact ⟨other, List.mem_cons_of_mem _ hmem, hother, before, hfound, fun h => hbefore (hkeeps h)⟩
    · obtain ⟨other, hmem, hother⟩ := anyChildCycle_found hvisit h
      exact ⟨other, List.mem_cons_of_mem _ hmem, hother⟩

/-- **What the search finds is a cycle**: the nodes being visited lead to the one that it looks at. What it
completed before it was abandoned stays in topological order. -/
theorem hasDependencyCycle_cycle : ∀ {fuel : Nat} {id : String} {visiting complete visiting' complete' : List String},
    (dependencies.keys.filter (· ∉ visiting)).length < fuel →
    (∀ node ∈ visiting, Relation.TransGen (NextNode dependencies) node id) →
    hasDependencyCycle dependencies fuel id visiting complete = (true, visiting', complete') →
      ReachesCycle (NextNode dependencies) id ∧
        (Topological (knownChildren dependencies) complete → Topological (knownChildren dependencies) complete')
  | fuel + 1, id, visiting, complete, visiting', complete', hfuel, hpath, h => by
    unfold hasDependencyCycle at h
    split at h
    · cases h
    split at h
    · rename_i hvisiting
      cases h
      exact ⟨⟨id, .refl, hpath id hvisiting⟩, fun h => h⟩
    rename_i hvisiting
    split at h
    · rename_i hchildren
      cases h
      have hvisit : ∀ other visiting complete visiting' complete',
          hasDependencyCycle dependencies fuel other visiting complete = (false, visiting', complete') →
            visiting' = visiting ∧ (Topological (knownChildren dependencies) complete →
              Topological (knownChildren dependencies) complete') :=
        fun _ _ _ _ _ h => ⟨hasDependencyCycle_visiting h, fun hc => (hasDependencyCycle_topological h hc).1⟩
      obtain ⟨child, hmem, hknown, before, hchild, hbefore⟩ := anyChildCycle_found hvisit hchildren
      have hstep : NextNode dependencies id child := List.mem_filter.2 ⟨hmem, hknown⟩
      have hid : dependencies.contains id = true := by
        cases hget : dependencies.get? id with
        | none =>
          rw [hget] at hmem
          cases hmem
        | some children =>
          rw [OrdMap.contains, hget]
          rfl
      have hless := length_unvisited_lt hid hvisiting
      have hpath' : ∀ node ∈ id :: visiting, Relation.TransGen (NextNode dependencies) node child := by
        intro node hnode
        rcases List.mem_cons.1 hnode with rfl | hnode
        · exact .single hstep
        · exact (hpath node hnode).tail hstep
      obtain ⟨hcycle, hkeeps⟩ := hasDependencyCycle_cycle (by omega) hpath' hchild
      exact ⟨hcycle.head hstep, fun h => hkeeps (hbefore h)⟩
    · cases h

/-- **A search from a fresh root is exact**, whatever was completed before it. -/
theorem hasDependencyCycle_iff {fuel : Nat} (id : String) {complete : List String}
    (hfuel : dependencies.keys.length < fuel) (hcomplete : Topological (knownChildren dependencies) complete) :
    ((hasDependencyCycle dependencies fuel id [] complete).1 = true ↔ ReachesCycle (NextNode dependencies) id) ∧
      Topological (knownChildren dependencies) (hasDependencyCycle dependencies fuel id [] complete).2.2 := by
  have hunvisited : (dependencies.keys.filter (· ∉ [])).length < fuel := by
    have hle := List.length_filter_le (· ∉ []) dependencies.keys
    omega
  cases hresult : hasDependencyCycle dependencies fuel id [] complete with
  | mk found state =>
    obtain ⟨visiting, complete'⟩ := state
    cases found with
    | true =>
      obtain ⟨hcycle, hkeeps⟩ := hasDependencyCycle_cycle hunvisited (fun node hnode => by cases hnode) hresult
      exact ⟨⟨fun _ => hcycle, fun _ => rfl⟩, hkeeps hcomplete⟩
    | false =>
      obtain ⟨htopological, hmem, -⟩ := hasDependencyCycle_topological hresult hcomplete
      refine ⟨⟨fun h => absurd h Bool.false_ne_true, ?_⟩, htopological⟩
      exact fun h => absurd h (htopological.not_reachesCycle hmem)

/-- The report of a component. -/
def cycleIssue (id : String) : PackageValidationIssue :=
  blocker "package.dependency_cycle" id "component dependency graph contains a cycle"

theorem mem_detectCyclesFrom {fuel : Nat} (hfuel : dependencies.keys.length < fuel) {issue : PackageValidationIssue} :
    ∀ {components : List PackageComponentDescriptor} {complete : List String},
      Topological (knownChildren dependencies) complete →
        (issue ∈ detectCyclesFrom dependencies fuel components complete ↔
          ∃ component ∈ components, ReachesCycle (NextNode dependencies) component.id ∧
            issue = cycleIssue component.id)
  | [], complete, _ => by simp [detectCyclesFrom]
  | component :: rest, complete, hcomplete => by
    obtain ⟨hiff, hkeeps⟩ := hasDependencyCycle_iff component.id hfuel hcomplete
    have hreport : issue ∈ issueIf ((hasDependencyCycle dependencies fuel component.id [] complete).1 = true)
        (cycleIssue component.id) ↔ ReachesCycle (NextNode dependencies) component.id ∧
          issue = cycleIssue component.id := by
      unfold issueIf
      rw [← hiff]
      split
      · rename_i hfound
        simp [hfound]
      · rename_i hfound
        simp [hfound]
    rw [detectCyclesFrom, List.mem_append, mem_detectCyclesFrom hfuel hkeeps]
    constructor
    · rintro (h | ⟨other, hmem, h⟩)
      · exact ⟨component, List.mem_cons_self, hreport.1 h⟩
      · exact ⟨other, List.mem_cons_of_mem _ hmem, h⟩
    · rintro ⟨other, hmem, h⟩
      rcases List.mem_cons.1 hmem with rfl | hmem
      · exact .inl (hreport.2 h)
      · exact .inr ⟨other, hmem, h⟩

/-- More fuel changes no search. -/
theorem hasDependencyCycle_more {fuel more : Nat} {id : String} {complete : List String}
    (hfuel : dependencies.keys.length < fuel) (hle : fuel ≤ more) :
    hasDependencyCycle dependencies more id [] complete = hasDependencyCycle dependencies fuel id [] complete := by
  induction hle with
  | refl => rfl
  | @step more hle ih =>
    have hle : fuel ≤ more := hle
    have hfilter := List.length_filter_le (· ∉ []) dependencies.keys
    rw [← ih]
    exact (hasDependencyCycle_fuel (by omega)).symm

theorem detectCyclesFrom_more {fuel more : Nat} (hfuel : dependencies.keys.length < fuel) (hle : fuel ≤ more) :
    ∀ (components : List PackageComponentDescriptor) (complete : List String),
      detectCyclesFrom dependencies more components complete = detectCyclesFrom dependencies fuel components complete
  | [], _ => rfl
  | component :: rest, complete => by
    rw [detectCyclesFrom, detectCyclesFrom, hasDependencyCycle_more hfuel hle, detectCyclesFrom_more hfuel hle rest]

end

/-! ## Components -/

/-- A dependency of a component that names a component of the list. -/
def DependsOnListed (components : List PackageComponentDescriptor) (id dependency : String) : Prop :=
  DependsOn components id dependency ∧ dependency ∈ components.map (·.id)

/-- The dependencies of the components under their ids. -/
def dependencyMap (components : List PackageComponentDescriptor) : OrdMap String (List String) :=
  .ofList (components.map fun component => (component.id, component.dependencies))

section
variable {components : List PackageComponentDescriptor}

theorem get?_dependencyMap (hnd : (components.map (·.id)).Nodup) {id : String} {children : List String} :
    (dependencyMap components).get? id = some children ↔
      ∃ component ∈ components, component.id = id ∧ component.dependencies = children := by
  have hkeys : ((components.map fun component => (component.id, component.dependencies)).map (·.1)).Nodup := by
    rw [List.map_map]
    exact hnd
  rw [dependencyMap, OrdMap.get?_ofList_eq_some hkeys, List.mem_map]
  constructor
  · rintro ⟨component, hmem, h⟩
    cases h
    exact ⟨component, hmem, rfl, rfl⟩
  · rintro ⟨component, hmem, rfl, rfl⟩
    exact ⟨component, hmem, rfl⟩

theorem nextNode_dependencyMap (hnd : (components.map (·.id)).Nodup) :
    NextNode (dependencyMap components) = DependsOnListed components := by
  funext a b
  rw [eq_iff_iff, NextNode, knownChildren, List.mem_filter, OrdMap.contains, Option.isSome_iff_exists]
  constructor
  · rintro ⟨hmem, children, hb⟩
    obtain ⟨other, hother, rfl, -⟩ := (get?_dependencyMap hnd).1 hb
    cases hget : (dependencyMap components).get? a with
    | none =>
      rw [hget] at hmem
      cases hmem
    | some children =>
      rw [hget] at hmem
      obtain ⟨component, hcomponent, hid, rfl⟩ := (get?_dependencyMap hnd).1 hget
      exact ⟨⟨component, hcomponent, hid, hmem⟩, List.mem_map_of_mem hother⟩
  · rintro ⟨⟨component, hcomponent, hid, hmem⟩, hlisted⟩
    obtain ⟨other, hother, rfl⟩ := List.mem_map.1 hlisted
    have hget := (get?_dependencyMap hnd).2 ⟨component, hcomponent, hid, rfl⟩
    rw [hget]
    exact ⟨hmem, other.dependencies, (get?_dependencyMap hnd).2 ⟨other, hother, rfl, rfl⟩⟩

theorem length_keys_dependencyMap (hnd : (components.map (·.id)).Nodup) :
    (dependencyMap components).keys.length = components.length := by
  have hperm : (dependencyMap components).keys.Perm (components.map (·.id)) := by
    refine (List.perm_ext_iff_of_nodup (OrdMap.keys_nodup _) hnd).2 fun id => ?_
    rw [OrdMap.mem_keys, OrdMap.contains, Option.isSome_iff_exists, List.mem_map]
    constructor
    · rintro ⟨children, h⟩
      obtain ⟨component, hmem, hid, -⟩ := (get?_dependencyMap hnd).1 h
      exact ⟨component, hmem, hid⟩
    · rintro ⟨component, hmem, hid⟩
      exact ⟨component.dependencies, (get?_dependencyMap hnd).2 ⟨component, hmem, hid, rfl⟩⟩
  rw [hperm.length_eq, List.length_map]

/-- **The reports of `detect_dependency_cycles`**: one for each component from which a cycle is reachable. Its
searches end: no fuel above the number of components changes them. -/
theorem detectDependencyCycles_exact (hnd : (components.map (·.id)).Nodup) :
    (∀ fuel, components.length < fuel →
      detectCyclesFrom (dependencyMap components) fuel components [] = detectDependencyCycles components) ∧
      ∀ issue, issue ∈ detectDependencyCycles components ↔
        ∃ component ∈ components, ReachesCycle (DependsOnListed components) component.id ∧
          issue = cycleIssue component.id := by
  have hfuel : (dependencyMap components).keys.length < components.length + 1 := by
    rw [length_keys_dependencyMap hnd]
    exact Nat.lt_succ_self _
  constructor
  · intro fuel hlt
    exact detectCyclesFrom_more hfuel hlt components []
  · intro issue
    rw [← nextNode_dependencyMap hnd]
    exact mem_detectCyclesFrom hfuel .nil

end

/-- A component with dependencies. -/
def linkedComponent (id : String) (dependencies : List String) : PackageComponentDescriptor where
  id := id
  kind := .knowledgeBook
  logicalPath := id
  sha256 := packageDigest 'a' isLowerHexDigit_a
  dependencies := dependencies
  conflictsWith := []
  requiredCapabilities := []
  assetIds := []
  disposition := .importable

/-- A component that leads to one that depends on itself. -/
def shoreComponents : List PackageComponentDescriptor := [linkedComponent "path" ["tide"], linkedComponent "tide" ["tide"]]

theorem detectDependencyCycles_exact_shore : ∃ component ∈ shoreComponents,
    ReachesCycle (DependsOnListed shoreComponents) component.id ∧ cycleIssue "path" = cycleIssue component.id := by
  have hnd : (shoreComponents.map (·.id)).Nodup := by decide
  have hreport : cycleIssue "path" ∈ detectDependencyCycles shoreComponents := by decide
  exact ((detectDependencyCycles_exact hnd).2 _).1 hreport

end LorePia
