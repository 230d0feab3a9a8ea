import LorePia.Base.Related
import LorePia.Base.Utf8Bytes
import LorePia.Content.JsonHazards

/-!
# What the hazard scan leaves out

A scan finds the kinds that are shown (`Shows`), up to the limit of nodes (`scanJsonHazards_walked`). Skipping every
entry named like a runtime, at any depth and in any case, leaves out more than the runtimes of the decoded modules:
the scans agree exactly when the stray entries show nothing new (`StraysHarmless`).
-/

namespace LorePia.ContentPackage

open Base

/-! ## What a value shows -/

/-- A hazard of the kind stands in the value, outside the skipped entries. -/
inductive Shows (skip : Bool) (kind : HazardKind) : Option String → Json → Prop
  | name {key : Option String} {fields : List (String × Json)} {childKey : String} {child : Json}
    (hm : (childKey, child) ∈ fields) (hopen : (skip && isRuntimeKey childKey) = false)
    (h : kind ∈ keyHazards (toAsciiLowercase childKey)) : Shows skip kind key (.object fields)
  | field {key : Option String} {fields : List (String × Json)} {childKey : String} {child : Json}
    (hm : (childKey, child) ∈ fields) (hopen : (skip && isRuntimeKey childKey) = false)
    (h : Shows skip kind (some (toAsciiLowercase childKey)) child) : Shows skip kind key (.object fields)
  | item {key : Option String} {items : List Json} {child : Json} (hm : child ∈ items)
    (h : Shows skip kind key child) : Shows skip kind key (.array items)
  | text {key : Option String} {text : String} (h : kind ∈ textHazards key text) :
    Shows skip kind key (.string text)

/-- A hazard of the kind stands in an entry named like a runtime. -/
inductive StrayShows (kind : HazardKind) : Json → Prop
  | here {fields : List (String × Json)} {childKey : String} {child : Json} (hm : (childKey, child) ∈ fields)
    (hkey : isRuntimeKey childKey = true) (h : Shows false kind (some portableRuntimeKey) child) :
    StrayShows kind (.object fields)
  | field {fields : List (String × Json)} {childKey : String} {child : Json} (hm : (childKey, child) ∈ fields)
    (hkey : isRuntimeKey childKey = false) (h : StrayShows kind child) : StrayShows kind (.object fields)
  | item {items : List Json} {child : Json} (hm : child ∈ items) (h : StrayShows kind child) :
    StrayShows kind (.array items)

mutual
/-- The nodes of a value, without the skipped entries. -/
def nodes (skip : Bool) : Json → Nat
  | .object fields => 1 + nodesOfFields skip fields
  | .array items => 1 + nodesOfItems skip items
  | .null | .bool _ | .number _ | .string _ => 1

/-- The nodes of some entries. -/
def nodesOfFields (skip : Bool) : List (String × Json) → Nat
  | [] => 0
  | (childKey, child) :: rest =>
    (if skip && isRuntimeKey childKey then 0 else nodes skip child) + nodesOfFields skip rest

/-- The nodes of some items. -/
def nodesOfItems (skip : Bool) : List Json → Nat
  | [] => 0
  | child :: rest => nodes skip child + nodesOfItems skip rest
end

theorem keyHazards_runtime {key : String} (h : isRuntimeKey key = true) :
    keyHazards (toAsciiLowercase key) = ∅ := by
  rw [of_decide_eq_true h]
  decide +kernel

/-! ## The scan -/

def nodeLimitError : CoreError := unsupported "component JSON exceeds the structural node limit"

/-- A scan that counts some nodes and finds the shown kinds, or stops at the limit. -/
def Walked (scan : HazardScan) (count : Nat) (shown : HazardKind → Prop)
    (result : Except CoreError HazardScan) : Prop :=
  if scan.nodeCount + count ≤ maxJsonScanNodes then
    ∃ scan', result = .ok scan' ∧ scan'.nodeCount = scan.nodeCount + count ∧
      ∀ kind, kind ∈ scan'.kinds ↔ kind ∈ scan.kinds ∨ shown kind
  else result = .error nodeLimitError

theorem Walked.refl {scan : HazardScan} (h : scan.nodeCount ≤ maxJsonScanNodes) :
    Walked scan 0 (fun _ => False) (.ok scan) := by
  rw [Walked, Nat.add_zero, if_pos h]
  exact ⟨scan, rfl, rfl, fun kind => by simp⟩

theorem Walked.congr {scan : HazardScan} {count count' : Nat} {shown shown' : HazardKind → Prop}
    {result : Except CoreError HazardScan} (h : Walked scan count shown result) (hcount : count = count')
    (hshown : ∀ kind, shown kind ↔ shown' kind) : Walked scan count' shown' result := by
  subst hcount
  have heq : shown = shown' := funext fun kind => propext (hshown kind)
  rwa [← heq]

/-- Kinds that are found on the way. -/
theorem Walked.found {scan : HazardScan} {count : Nat} {shown : HazardKind → Prop}
    {result : Except CoreError HazardScan} {kinds : Finset HazardKind}
    (h : Walked { scan with kinds := scan.kinds ∪ kinds } count shown result) :
    Walked scan count (fun kind => kind ∈ kinds ∨ shown kind) result := by
  unfold Walked at h ⊢
  by_cases hle : scan.nodeCount + count ≤ maxJsonScanNodes
  · rw [if_pos hle] at h ⊢
    obtain ⟨scan', hok, hcount, hkinds⟩ := h
    exact ⟨scan', hok, hcount, fun kind => by rw [hkinds, Finset.mem_union, or_assoc]⟩
  · rw [if_neg hle] at h ⊢
    exact h

/-- One scan after another. -/
theorem Walked.bind {scan : HazardScan} {count count' : Nat} {shown shown' : HazardKind → Prop}
    {result : Except CoreError HazardScan} {next : HazardScan → Except CoreError HazardScan}
    (h : Walked scan count shown result)
    (hnext : ∀ scan' : HazardScan, scan'.nodeCount ≤ maxJsonScanNodes → Walked scan' count' shown' (next scan')) :
    Walked scan (count + count') (fun kind => shown kind ∨ shown' kind) (result >>= next) := by
  unfold Walked at h
  by_cases hle : scan.nodeCount + count ≤ maxJsonScanNodes
  · rw [if_pos hle] at h
    obtain ⟨scan', rfl, hcount, hkinds⟩ := h
    have hscan := hnext scan' (by rw [hcount]; exact hle)
    rw [ok_bind]
    unfold Walked at hscan ⊢
    rw [hcount, Nat.add_assoc] at hscan
    by_cases hle' : scan.nodeCount + (count + count') ≤ maxJsonScanNodes
    · rw [if_pos hle'] at hscan ⊢
      obtain ⟨last, hok, hlast, hlastKinds⟩ := hscan
      exact ⟨last, hok, hlast, fun kind => by rw [hlastKinds, hkinds, or_assoc]⟩
    · rw [if_neg hle'] at hscan ⊢
      exact hscan
  · rw [if_neg hle] at h
    rw [h, error_bind, Walked, if_neg (by omega)]

theorem countNode_walked {scan : HazardScan} (h : scan.nodeCount ≤ maxJsonScanNodes) :
    Walked scan 1 (fun _ => False) (countNode scan) := by
  have hmax : maxJsonScanNodes + 1 ≤ usizeMax := by decide
  have hadd : checkedAdd scan.nodeCount 1 = some (scan.nodeCount + 1) :=
    checkedAdd_eq_some.2 ⟨by omega, rfl⟩
  unfold countNode Walked
  rw [hadd]
  by_cases hle : scan.nodeCount + 1 ≤ maxJsonScanNodes
  · rw [if_pos hle]
    refine ⟨{ scan with nodeCount := scan.nodeCount + 1 }, ?_, rfl, fun kind => by simp⟩
    exact seq_eq_ok.2 ⟨rejectIf_eq_ok.2 (Nat.not_lt.2 hle), rfl⟩
  · rw [if_neg hle]
    have hreject : rejectIf (scan.nodeCount + 1 > maxJsonScanNodes) nodeLimitError = .error nodeLimitError :=
      rejectIf_eq_error.2 ⟨Nat.lt_of_not_le hle, rfl⟩
    show (rejectIf (scan.nodeCount + 1 > maxJsonScanNodes) nodeLimitError >>= _) = _
    rw [hreject, error_bind]

mutual
/-- **The scan finds what the value shows**, and counts its nodes. -/
theorem scanJsonHazards_walked (skip : Bool) (key : Option String) : ∀ (value : Json) {scan : HazardScan},
    scan.nodeCount ≤ maxJsonScanNodes →
    Walked scan (nodes skip value) (fun kind => Shows skip kind key value) (scanJsonHazards skip key value scan)
  | .object fields, scan, h => by
    rw [scanJsonHazards, nodes]
    refine ((countNode_walked h).bind fun scan' h' => scanFields_walked skip fields h').congr rfl fun kind => ?_
    rw [false_or]
    constructor
    · rintro ⟨childKey, child, hm, hopen, hname | hfield⟩
      · exact .name hm hopen hname
      · exact .field hm hopen hfield
    · intro hshows
      cases hshows with
      | name hm hopen hname => exact ⟨_, _, hm, hopen, .inl hname⟩
      | field hm hopen hfield => exact ⟨_, _, hm, hopen, .inr hfield⟩
  | .array items, scan, h => by
    rw [scanJsonHazards, nodes]
    refine ((countNode_walked h).bind fun scan' h' => scanItems_walked skip key items h').congr rfl fun kind => ?_
    rw [false_or]
    constructor
    · rintro ⟨child, hm, hitem⟩
      exact .item hm hitem
    · intro hshows
      cases hshows with
      | item hm hitem => exact ⟨_, hm, hitem⟩
  | .string text, scan, h => by
    rw [scanJsonHazards, nodes]
    refine ((countNode_walked h).bind fun scan' h' => (Walked.refl ?_).found).congr rfl fun kind => ?_
    · exact h'
    · rw [false_or, or_false]
      constructor
      · exact .text
      · intro hshows
        cases hshows with
        | text htext => exact htext
  | .null, scan, h => by
    rw [scanJsonHazards, nodes]
    exact (countNode_walked h).congr rfl fun kind => ⟨False.elim, fun hshows => by cases hshows⟩
  | .bool b, scan, h => by
    rw [scanJsonHazards, nodes]
    exact (countNode_walked h).congr rfl fun kind => ⟨False.elim, fun hshows => by cases hshows⟩
  | .number n, scan, h => by
    rw [scanJsonHazards, nodes]
    exact (countNode_walked h).congr rfl fun kind => ⟨False.elim, fun hshows => by cases hshows⟩

theorem scanFields_walked (skip : Bool) : ∀ (fields : List (String × Json)) {scan : HazardScan},
    scan.nodeCount ≤ maxJsonScanNodes →
    Walked scan (nodesOfFields skip fields) (fun kind => ∃ childKey child, (childKey, child) ∈ fields ∧
      (skip && isRuntimeKey childKey) = false ∧
      (kind ∈ keyHazards (toAsciiLowercase childKey) ∨ Shows skip kind (some (toAsciiLowercase childKey)) child))
      (scanFields skip fields scan)
  | [], scan, h => by
    rw [scanFields, nodesOfFields]
    exact (Walked.refl h).congr rfl fun kind => by simp
  | (childKey, child) :: rest, scan, h => by
    rw [scanFields, nodesOfFields]
    by_cases hskip : (skip && isRuntimeKey childKey) = true
    · rw [if_pos hskip, if_pos hskip]
      refine (scanFields_walked skip rest h).congr (Nat.zero_add _).symm fun kind => ?_
      constructor
      · rintro ⟨k, c, hm, hrest⟩
        exact ⟨k, c, List.mem_cons_of_mem _ hm, hrest⟩
      · rintro ⟨k, c, hm, hopen, hrest⟩
        rcases List.mem_cons.1 hm with heq | hm
        · cases heq
          rw [hskip] at hopen
          cases hopen
        · exact ⟨k, c, hm, hopen, hrest⟩
    · rw [if_neg hskip, if_neg hskip]
      have hchild : ∀ {scan : HazardScan}, scan.nodeCount ≤ maxJsonScanNodes → Walked scan (nodes skip child) _ _ :=
        scanJsonHazards_walked skip (some (toAsciiLowercase childKey)) child
      refine ((Walked.found (hchild h)).bind fun scan' h' => scanFields_walked skip rest h').congr rfl
        fun kind => ?_
      constructor
      · rintro (hshown | ⟨k, c, hm, hrest⟩)
        · exact ⟨childKey, child, List.mem_cons_self, Bool.not_eq_true _ ▸ hskip, hshown⟩
        · exact ⟨k, c, List.mem_cons_of_mem _ hm, hrest⟩
      · rintro ⟨k, c, hm, hopen, hrest⟩
        rcases List.mem_cons.1 hm with heq | hm
        · cases heq
          exact .inl hrest
        · exact .inr ⟨k, c, hm, hopen, hrest⟩

theorem scanItems_walked (skip : Bool) (key : Option String) : ∀ (items : List Json) {scan : HazardScan},
    scan.nodeCount ≤ maxJsonScanNodes →
    Walked scan (nodesOfItems skip items) (fun kind => ∃ child ∈ items, Shows skip kind key child)
      (scanItems skip key items scan)
  | [], scan, h => by
    rw [scanItems, nodesOfItems]
    exact (Walked.refl h).congr rfl fun kind => by simp
  | child :: rest, scan, h => by
    rw [scanItems, nodesOfItems]
    refine ((scanJsonHazards_walked skip key child h).bind fun scan' h' =>
      scanItems_walked skip key rest h').congr rfl fun kind => ?_
    simp
end

/-! ## Skipping -/

mutual
theorem nodes_skip_le : ∀ value : Json, nodes true value ≤ nodes false value
  | .object fields => by
    have := nodesOfFields_skip_le fields
    rw [nodes, nodes]
    omega
  | .array items => by
    have := nodesOfItems_skip_le items
    rw [nodes, nodes]
    omega
  | .null | .bool _ | .number _ | .string _ => by rw [nodes, nodes]

theorem nodesOfFields_skip_le : ∀ fields : List (String × Json),
    nodesOfFields true fields ≤ nodesOfFields false fields
  | [] => by rw [nodesOfFields, nodesOfFields]
  | (childKey, child) :: rest => by
    have hchild := nodes_skip_le child
    have hrest := nodesOfFields_skip_le rest
    rw [nodesOfFields, nodesOfFields, Bool.false_and, if_neg Bool.false_ne_true]
    split
    · omega
    · omega

theorem nodesOfItems_skip_le : ∀ items : List Json, nodesOfItems true items ≤ nodesOfItems false items
  | [] => by rw [nodesOfItems, nodesOfItems]
  | child :: rest => by
    have hchild := nodes_skip_le child
    have hrest := nodesOfItems_skip_le rest
    rw [nodesOfItems, nodesOfItems]
    omega
end

/-- What is shown outside the skipped entries is shown. -/
theorem Shows.of_skip {kind : HazardKind} {key : Option String} {value : Json} (h : Shows true kind key value) :
    Shows false kind key value := by
  induction h with
  | name hm _ h => exact .name hm (Bool.false_and _) h
  | field hm _ _ ih => exact .field hm (Bool.false_and _) ih
  | item hm _ ih => exact .item hm ih
  | text h => exact .text h

theorem Shows.of_stray {kind : HazardKind} {value : Json} (h : StrayShows kind value) (key : Option String) :
    Shows false kind key value := by
  induction h generalizing key with
  | here hm hkey h => exact .field hm (Bool.false_and _) (by rwa [of_decide_eq_true hkey])
  | field hm _ _ ih => exact .field hm (Bool.false_and _) (ih _)
  | item hm _ ih => exact .item hm (ih key)

/-- **What is shown is shown outside the skipped entries, or in one of them.** -/
theorem shows_iff {kind : HazardKind} {key : Option String} {value : Json} :
    Shows false kind key value ↔ Shows true kind key value ∨ StrayShows kind value := by
  refine ⟨fun h => ?_, fun h => h.elim Shows.of_skip fun h => Shows.of_stray h key⟩
  induction h with
  | name hm _ h =>
    refine .inl (.name hm ?_ h)
    rw [Bool.true_and]
    by_contra hkey
    rw [keyHazards_runtime (Bool.not_eq_false _ ▸ hkey)] at h
    exact absurd h (Finset.notMem_empty kind)
  | @field key fields childKey child hm _ h ih =>
    cases hkey : isRuntimeKey childKey with
    | true => exact .inr (.here hm hkey (by rwa [of_decide_eq_true hkey] at h))
    | false =>
      rcases ih with hopen | hstray
      · exact .inl (.field hm (by rw [hkey]; rfl) hopen)
      · exact .inr (.field hm hkey hstray)
  | item hm _ ih =>
    rcases ih with hopen | hstray
    · exact .inl (.item hm hopen)
    · exact .inr (.item hm hstray)
  | text h => exact .inl (.text h)

/-! ## Deleting the runtimes of the decoded modules -/

/-- A module without its runtime. -/
def deleteRuntime : Json → Json
  | .object fields => .object (fields.filter fun field => field.1 ≠ portableRuntimeKey)
  | value => value

/-- The documents of a list, or the one document, without their runtimes. -/
def deleteListed : Json → Json
  | .array modules => .array (modules.map deleteRuntime)
  | value => deleteRuntime value

/-- The value under a key of an object, changed. -/
def updateField (key : String) (f : Json → Json) : List (String × Json) → List (String × Json)
  | [] => []
  | field :: rest => if field.1 = key then (field.1, f field.2) :: rest else field :: updateField key f rest

/-- The entry of the wrapper that the decoder takes the documents from, changed. -/
def updateWrapped (f : Json → Json) : List String → Json → Json
  | key :: keys, .object fields =>
    if (OrdMap.find key fields).isSome then .object (updateField key f fields)
    else updateWrapped f keys (.object fields)
  | _, value => f value

/-- The JSON of a component without the field `portable_runtime` of each decoded module object. -/
def deleteModuleRuntimes (value : Json) : Json := updateWrapped deleteListed moduleWrapperKeys value

theorem updateWrapped_nil (f : Json → Json) (value : Json) : updateWrapped f [] value = f value := by
  cases value <;> rfl

/-! ## What the deletion keeps -/

/-- Outside the skipped entries, two values show the same hazards and have as many nodes. -/
structure SameOpen (value value' : Json) : Prop where
  shows : ∀ kind key, Shows true kind key value ↔ Shows true kind key value'
  count : nodes true value = nodes true value'

theorem SameOpen.refl (value : Json) : SameOpen value value := ⟨fun _ _ => Iff.rfl, rfl⟩

theorem SameOpen.array {items items' : List Json} (h : List.Forall₂ SameOpen items items') :
    SameOpen (.array items) (.array items') := by
  have hnodes : nodesOfItems true items = nodesOfItems true items' := by
    induction h with
    | nil => rfl
    | cons hitem _ ih =>
      rw [nodesOfItems, nodesOfItems, hitem.count, ih]
  refine ⟨fun kind key => ⟨fun hshows => ?_, fun hshows => ?_⟩, by rw [nodes, nodes, hnodes]⟩
  · cases hshows with
    | item hm hitem =>
      obtain ⟨child, hchild, hsame⟩ := forall₂_mem_left h hm
      exact .item hchild ((hsame.shows kind key).1 hitem)
  · cases hshows with
    | item hm hitem =>
      obtain ⟨child, hchild, hsame⟩ := forall₂_mem_right h hm
      exact .item hchild ((hsame.shows kind key).2 hitem)

/-- Entries with the same keys. -/
theorem SameOpen.object {fields fields' : List (String × Json)}
    (h : List.Forall₂ (fun field field' => field.1 = field'.1 ∧ SameOpen field.2 field'.2) fields fields') :
    SameOpen (.object fields) (.object fields') := by
  have hnodes : nodesOfFields true fields = nodesOfFields true fields' := by
    induction h with
    | nil => rfl
    | cons hfield _ ih =>
      rw [nodesOfFields, nodesOfFields, hfield.1, hfield.2.count, ih]
  refine ⟨fun kind key => ⟨fun hshows => ?_, fun hshows => ?_⟩, by rw [nodes, nodes, hnodes]⟩
  · cases hshows with
    | name hm hopen hname =>
      obtain ⟨⟨childKey, child⟩, hchild, rfl, -⟩ := forall₂_mem_left h hm
      exact .name hchild hopen hname
    | field hm hopen hfield =>
      obtain ⟨⟨childKey, child⟩, hchild, rfl, hsame⟩ := forall₂_mem_left h hm
      exact .field hchild hopen ((hsame.shows kind _).1 hfield)
  · cases hshows with
    | name hm hopen hname =>
      obtain ⟨⟨childKey, child⟩, hchild, rfl, -⟩ := forall₂_mem_right h hm
      exact .name hchild hopen hname
    | field hm hopen hfield =>
      obtain ⟨⟨childKey, child⟩, hchild, rfl, hsame⟩ := forall₂_mem_right h hm
      exact .field hchild hopen ((hsame.shows kind _).2 hfield)

theorem sameOpen_deleteRuntime (value : Json) : SameOpen value (deleteRuntime value) := by
  cases value with
  | object fields =>
    have hkey : isRuntimeKey portableRuntimeKey = true := by decide +kernel
    -- a deleted entry is one that the scan skips
    have hkept : ∀ field : String × Json, (true && isRuntimeKey field.1) = false →
        decide (field.1 ≠ portableRuntimeKey) = true := by
      intro field hopen
      refine decide_eq_true fun heq => ?_
      rw [heq, hkey] at hopen
      cases hopen
    have hnodes : nodesOfFields true (fields.filter fun field => field.1 ≠ portableRuntimeKey) =
        nodesOfFields true fields := by
      induction fields with
      | nil => rfl
      | cons field rest ih =>
        obtain ⟨childKey, child⟩ := field
        by_cases hfield : childKey = portableRuntimeKey
        · rw [List.filter_cons_of_neg (by simp [hfield]), ih, nodesOfFields, hfield, hkey, Bool.and_self, if_pos rfl,
            Nat.zero_add]
        · rw [List.filter_cons_of_pos (by simp [hfield]), nodesOfFields, nodesOfFields, ih]
    refine ⟨fun kind key => ⟨fun hshows => ?_, fun hshows => ?_⟩, by rw [deleteRuntime, nodes, nodes, hnodes]⟩
    · cases hshows with
      | name hm hopen hname => exact .name (List.mem_filter.2 ⟨hm, hkept _ hopen⟩) hopen hname
      | field hm hopen hfield => exact .field (List.mem_filter.2 ⟨hm, hkept _ hopen⟩) hopen hfield
    · cases hshows with
      | name hm hopen hname => exact .name (List.mem_filter.1 hm).1 hopen hname
      | field hm hopen hfield => exact .field (List.mem_filter.1 hm).1 hopen hfield
  | array items => exact .refl _
  | null => exact .refl _
  | bool b => exact .refl _
  | number n => exact .refl _
  | string text => exact .refl _

theorem sameOpen_deleteListed (value : Json) : SameOpen value (deleteListed value) := by
  cases value with
  | array items => exact .array (forall₂_map fun item _ => sameOpen_deleteRuntime item)
  | object fields => exact sameOpen_deleteRuntime _
  | null => exact .refl _
  | bool b => exact .refl _
  | number n => exact .refl _
  | string text => exact .refl _

theorem sameOpen_updateField {key : String} {f : Json → Json} (hf : ∀ value, SameOpen value (f value)) :
    ∀ fields : List (String × Json), List.Forall₂
      (fun field field' => field.1 = field'.1 ∧ SameOpen field.2 field'.2) fields (updateField key f fields)
  | [] => .nil
  | field :: rest => by
    unfold updateField
    split
    · exact .cons ⟨rfl, hf field.2⟩ (List.forall₂_same.2 fun _ _ => ⟨rfl, .refl _⟩)
    · exact .cons ⟨rfl, .refl _⟩ (sameOpen_updateField hf rest)

theorem sameOpen_updateWrapped {f : Json → Json} (hf : ∀ value, SameOpen value (f value)) :
    ∀ (keys : List String) (value : Json), SameOpen value (updateWrapped f keys value)
  | [], value => by
    rw [updateWrapped_nil]
    exact hf value
  | key :: keys, .object fields => by
    rw [updateWrapped]
    split
    · exact .object (sameOpen_updateField hf fields)
    · exact sameOpen_updateWrapped hf keys _
  | _ :: _, .array items => hf _
  | _ :: _, .null => hf _
  | _ :: _, .bool _ => hf _
  | _ :: _, .number _ => hf _
  | _ :: _, .string _ => hf _

/-! ## The two scans -/

/-- The result of inspecting a value. -/
theorem inspectJsonValue_walked {skip : Bool} {value : Json} (h : value.isObject = true ∨ isArray value = true) :
    Walked ⟨∅, 0⟩ (nodes skip value) (fun kind => Shows skip kind none value) (inspectJsonValue skip value) := by
  have hreject : rejectIf (value.isObject = false ∧ isArray value = false)
      (unsupported "component JSON must contain an object or array") = .ok () := by
    rw [rejectIf_eq_ok]
    rintro ⟨hobject, harray⟩
    rw [hobject, harray] at h
    simp at h
  have hscan : inspectJsonValue skip value = scanJsonHazards skip none value ⟨∅, 0⟩ := by
    rw [inspectJsonValue, hreject, ok_bind]
  rw [hscan]
  exact scanJsonHazards_walked skip none value (Nat.zero_le _)

/-- The kinds that an inspection finds. -/
def foundKinds (result : Except CoreError HazardScan) : Except CoreError (Finset HazardKind) :=
  result.map (·.kinds)

/-- Two walks from the start find the same kinds when both are stopped by the limit, or neither is and they are
shown the same. -/
theorem foundKinds_eq_iff {count count' : Nat} {shown shown' : HazardKind → Prop}
    {result result' : Except CoreError HazardScan} (h : Walked ⟨∅, 0⟩ count shown result)
    (h' : Walked ⟨∅, 0⟩ count' shown' result') :
    foundKinds result = foundKinds result' ↔ (maxJsonScanNodes < count ∧ maxJsonScanNodes < count') ∨
      (count ≤ maxJsonScanNodes ∧ count' ≤ maxJsonScanNodes ∧ ∀ kind, shown kind ↔ shown' kind) := by
  unfold Walked at h h'
  simp only [Nat.zero_add, Finset.notMem_empty, false_or] at h h'
  by_cases hle : count ≤ maxJsonScanNodes
  · rw [if_pos hle] at h
    obtain ⟨scan, rfl, -, hkinds⟩ := h
    by_cases hle' : count' ≤ maxJsonScanNodes
    · rw [if_pos hle'] at h'
      obtain ⟨scan', rfl, -, hkinds'⟩ := h'
      have hext : foundKinds (.ok scan) = foundKinds (.ok scan') ↔ scan.kinds = scan'.kinds := by
        simp [foundKinds, Except.map]
      rw [hext, Finset.ext_iff]
      simp only [hkinds, hkinds']
      constructor
      · exact fun hshown => .inr ⟨hle, hle', hshown⟩
      · rintro (⟨hlt, -⟩ | ⟨-, -, hshown⟩)
        · omega
        · exact hshown
    · rw [if_neg hle'] at h'
      subst h'
      constructor
      · intro heq
        cases heq
      · rintro (⟨hlt, -⟩ | ⟨-, hle, -⟩)
        · omega
        · omega
  · rw [if_neg hle] at h
    subst h
    by_cases hle' : count' ≤ maxJsonScanNodes
    · rw [if_pos hle'] at h'
      obtain ⟨scan', rfl, -⟩ := h'
      constructor
      · intro heq
        cases heq
      · rintro (⟨-, hlt⟩ | ⟨hle, -⟩)
        · omega
        · omega
    · rw [if_neg hle'] at h'
      subst h'
      exact ⟨fun _ => .inl ⟨by omega, by omega⟩, fun _ => rfl⟩

/-- The entries named like a runtime that are no runtime of a decoded module: what they show is shown elsewhere,
and they do not fill the limit of nodes that the rest keeps. -/
def StraysHarmless (value : Json) : Prop :=
  maxJsonScanNodes < nodes true (deleteModuleRuntimes value) ∨
    (nodes false (deleteModuleRuntimes value) ≤ maxJsonScanNodes ∧
      ∀ kind, StrayShows kind (deleteModuleRuntimes value) → Shows true kind none (deleteModuleRuntimes value))

theorem isObject_deleteModuleRuntimes (value : Json) :
    (deleteModuleRuntimes value).isObject = value.isObject ∧
      isArray (deleteModuleRuntimes value) = isArray value := by
  cases value with
  | object fields =>
    unfold deleteModuleRuntimes moduleWrapperKeys
    rw [updateWrapped, updateWrapped, updateWrapped_nil]
    split
    · exact ⟨rfl, rfl⟩
    · split
      · exact ⟨rfl, rfl⟩
      · exact ⟨rfl, rfl⟩
  | array items => exact ⟨rfl, rfl⟩
  | null => exact ⟨rfl, rfl⟩
  | bool b => exact ⟨rfl, rfl⟩
  | number n => exact ⟨rfl, rfl⟩
  | string text => exact ⟨rfl, rfl⟩

theorem inspectJsonValue_scalar {skip : Bool} {value : Json} (h : value.isObject = false ∧ isArray value = false) :
    inspectJsonValue skip value = .error (unsupported "component JSON must contain an object or array") := by
  have hreject : rejectIf (value.isObject = false ∧ isArray value = false)
      (unsupported "component JSON must contain an object or array") =
      .error (unsupported "component JSON must contain an object or array") := rejectIf_eq_error.2 ⟨h, rfl⟩
  rw [inspectJsonValue, hreject, error_bind]

/-- **The scan that skips finds what a full scan finds without the runtimes of the decoded modules exactly when the
stray entries show nothing new.** -/
theorem inspectJsonComponent_skip_iff {codec : PackageCodec} {bytes : List UInt8} {value : Json}
    (hparse : codec.parseValue bytes = .ok value) :
    foundKinds (inspectJsonComponent codec bytes true) =
        foundKinds (inspectJsonValue false (deleteModuleRuntimes value)) ↔ StraysHarmless value := by
  have hcomponent : inspectJsonComponent codec bytes true = inspectJsonValue true value := by
    rw [inspectJsonComponent, hparse]
    rfl
  have hsame := sameOpen_updateWrapped sameOpen_deleteListed moduleWrapperKeys value
  rw [← deleteModuleRuntimes] at hsame
  obtain ⟨hobject, harray⟩ := isObject_deleteModuleRuntimes value
  rw [hcomponent]
  by_cases hroot : value.isObject = true ∨ isArray value = true
  · have hroot' : (deleteModuleRuntimes value).isObject = true ∨ isArray (deleteModuleRuntimes value) = true := by
      rwa [hobject, harray]
    have hnodes := nodes_skip_le (deleteModuleRuntimes value)
    rw [foundKinds_eq_iff (inspectJsonValue_walked hroot) (inspectJsonValue_walked hroot'), hsame.count,
      StraysHarmless]
    have hkinds : (∀ kind, Shows true kind none value ↔ Shows false kind none (deleteModuleRuntimes value)) ↔
        ∀ kind, StrayShows kind (deleteModuleRuntimes value) → Shows true kind none (deleteModuleRuntimes value) := by
      refine forall_congr' fun kind => ?_
      rw [hsame.shows kind none, shows_iff]
      exact ⟨fun h hstray => h.2 (.inr hstray), fun h => ⟨.inl, fun hshown => hshown.elim id h⟩⟩
    rw [hkinds]
    constructor
    · rintro (⟨hlt, -⟩ | ⟨-, hle, hshown⟩)
      · exact .inl hlt
      · exact .inr ⟨hle, hshown⟩
    · rintro (hlt | ⟨hle, hshown⟩)
      · exact .inl ⟨hlt, by omega⟩
      · exact .inr ⟨by omega, hle, hshown⟩
  · rw [not_or, Bool.not_eq_true, Bool.not_eq_true] at hroot
    rw [inspectJsonValue_scalar hroot, inspectJsonValue_scalar ⟨hobject.trans hroot.1, harray.trans hroot.2⟩]
    refine iff_of_true rfl (.inr ?_)
    cases value with
    | object fields => cases hroot.1
    | array items => cases hroot.2
    | null => exact ⟨by decide, fun kind h => by cases h⟩
    | bool b => exact ⟨Nat.le_of_ble_eq_true rfl, fun kind h => by cases h⟩
    | number n => exact ⟨Nat.le_of_ble_eq_true rfl, fun kind h => by cases h⟩
    | string text => exact ⟨Nat.le_of_ble_eq_true rfl, fun kind h => by cases h⟩

/-! ## A module beside a runtime -/

def harborProvenance : Provenance := ⟨.userCreated, none, none, none, none, none⟩

/-- A module without components. -/
def harborModule : ContentModule where
  id := "harbor"
  name := "Harbor"
  version := "1"
  schemaVersion := 1
  promptFragments := []
  knowledgeBookIds := []
  controlSpecs := []
  transformSetIds := []
  interactionRuleSetIds := []
  assetIds := []
  portableRuntime := none
  importedComponentsEnabled := false
  requiredCapabilities := []
  metadata := ⟨none, "MIT", true, none, "", [], harborProvenance⟩

/-- Its JSON. -/
def harborModuleJson : Json :=
  .object [("asset_ids", .array []), ("control_specs", .array []), ("id", .string "harbor"),
    ("interaction_rule_set_ids", .array []), ("knowledge_book_ids", .array []),
    ("metadata", .object [("description", .string ""), ("license", .string "MIT"),
      ("provenance", .object [("source_kind", .string "user_created")]),
      ("redistribution_allowed", .bool true), ("tags", .array [])]),
    ("name", .string "Harbor"), ("prompt_fragments", .array []), ("required_capabilities", .array []),
    ("schema_version", .number (.posInt 1)), ("transform_set_ids", .array []), ("version", .string "1")]

/-- A component that holds the module, and beside it an entry named like a runtime with a script. -/
def harborJson : Json :=
  .object [("modules", .array [harborModuleJson]), ("portable_runtime", .object [("script", .string "alert(1)")])]

/-- Its bytes. -/
def harborBytes : List UInt8 := utf8Bytes <|
  "\x7b\"modules\":[\x7b\"asset_ids\":[],\"control_specs\":[],\"id\":\"harbor\",\"interaction_rule_set_ids\":[]," ++
  "\"knowledge_book_ids\":[],\"metadata\":\x7b\"description\":\"\",\"license\":\"MIT\"," ++
  "\"provenance\":\x7b\"source_kind\":\"user_created\"\x7d,\"redistribution_allowed\":true,\"tags\":[]\x7d," ++
  "\"name\":\"Harbor\",\"prompt_fragments\":[],\"required_capabilities\":[],\"schema_version\":1," ++
  "\"transform_set_ids\":[],\"version\":\"1\"\x7d],\"portable_runtime\":\x7b\"script\":\"alert(1)\"\x7d\x7d"

/-- A codec that reads a component with this module. -/
def harborCodec (value : Json) : PackageCodec where
  externals :=
    { sha256 _ := Vector.replicate 32 0
      planToVec _ := .ok []
      snapshotToVec _ := .ok []
      variableValueToString _ := .ok ""
      memoryReasonsFromStr _ := none
      displayF64 _ := "0"
      renderPortableText text _ := text }
  parseValue _ := .ok value
  promptPreset _ := .error "missing field"
  knowledgeBook _ := .error "missing field"
  memoryProfile _ := .error "missing field"
  transformSet _ := .error "missing field"
  interactionRuleSet _ := .error "missing field"
  contentModule _ := .ok harborModule
  documentToVec _ := .ok []

/-- The contract accepts the component and the entry is kept without a hazard, but a full scan finds the script,
which no decoded module holds. -/
theorem stray_script_unseen :
    (inspectContentModuleContract (harborCodec harborJson) harborBytes).isOk = true ∧
      (scanEntryJson (harborCodec harborJson) harborBytes .contentModule).hazards = ∅ ∧
      (scanEntryJson (harborCodec harborJson) harborBytes .contentModule).error = none ∧
      foundKinds (inspectJsonValue false (deleteModuleRuntimes harborJson)) = .ok {.script} ∧
      foundKinds (inspectJsonComponent (harborCodec harborJson) harborBytes true) ≠
        foundKinds (inspectJsonValue false (deleteModuleRuntimes harborJson)) := by
  have hskip : foundKinds (inspectJsonComponent (harborCodec harborJson) harborBytes true) = .ok ∅ := by
    decide +kernel
  have hfull : foundKinds (inspectJsonValue false (deleteModuleRuntimes harborJson)) = .ok {.script} := by
    decide +kernel
  refine ⟨by decide +kernel, by decide +kernel, by decide +kernel, hfull, ?_⟩
  rw [hskip, hfull]
  decide

theorem inspectJsonComponent_skip_harbor :
    foundKinds (inspectJsonComponent (harborCodec harborJson) harborBytes true) =
        foundKinds (inspectJsonValue false (deleteModuleRuntimes harborJson)) ↔ StraysHarmless harborJson :=
  inspectJsonComponent_skip_iff rfl

end LorePia.ContentPackage
