import LorePia.Base.Execution
import LorePia.Providers.OpenRouterReasoning

/-!
# The reasoning details of a stream do not depend on its fragments

A stream is a sequence of pieces, texts and fragments of details, and `observe` succeeds exactly when each
of its pieces is taken in turn (`observe_eq_ok`). The proof compares a fragment with the parts of its payload:

* **The first part** has all other fields, so it is absorbed as the whole fragment is, and the detail that
  holds it differs in the payload only (`absorb_payload`).
* **A later part** repeats nothing that this detail does not hold, so it is merged, and its payload is the
  only field that changes (`absorb_later`).
* **The bounds**: a shorter payload has a shorter text (`Fits.shorter`).

A failure of `observe` and of `finish` leaves nothing behind (`observe_failsEmpty`, `finish_failsEmpty`).
-/

namespace LorePia

namespace OpenRouterReasoning

open Base

/-! ## Failures -/

/-- A failure leaves the tracker empty. -/
def FailsEmpty {α : Type} (x : Tracked α) : Prop :=
  Stateful.Triple (fun _ => True) x (fun _ _ => True) fun _ tracker => tracker = .empty

section
variable {α β : Type}

theorem failsEmpty_pure (a : α) : FailsEmpty (pure a) := Stateful.Triple.pure fun _ _ => trivial

theorem failsEmpty_modify (f : ReasoningTracker → ReasoningTracker) : FailsEmpty (Stateful.modify f) :=
  Stateful.Triple.modify fun _ _ => trivial

theorem FailsEmpty.bind {x : Tracked α} {f : α → Tracked β} (hx : FailsEmpty x) (hf : ∀ a, FailsEmpty (f a)) :
    FailsEmpty (x >>= f) := Stateful.Triple.bind hx hf

theorem failsEmpty_get_bind {f : ReasoningTracker → Tracked β} (hf : ∀ tracker, FailsEmpty (f tracker)) :
    FailsEmpty (Stateful.get >>= f) := fun tracker _ => hf tracker tracker trivial

theorem failsEmpty_wipeAndFail (error : CoreError) : FailsEmpty (wipeAndFail error : Tracked α) := fun _ _ => rfl

theorem failsEmpty_ite {p : Prop} [Decidable p] {x y : Tracked α} (hx : FailsEmpty x) (hy : FailsEmpty y) :
    FailsEmpty (if p then x else y) := by
  split
  · exact hx
  · exact hy

theorem failsEmpty_wipeOnError (x : Tracked Unit) : FailsEmpty (wipeOnError x) := by
  intro tracker _
  change Stateful.Ends _ _ (wipeOnError x tracker)
  unfold wipeOnError
  split
  · exact trivial
  · exact failsEmpty_wipeAndFail _ _ trivial

end

section
variable (lib : Library)

theorem validateDetailBounds_failsEmpty : FailsEmpty (validateDetailBounds lib) := by
  refine failsEmpty_get_bind fun tracker => failsEmpty_ite (failsEmpty_wipeAndFail _) ?_
  split
  · exact failsEmpty_wipeAndFail _
  · exact failsEmpty_ite (failsEmpty_wipeAndFail _) (failsEmpty_pure ())

theorem observeDetails_failsEmpty (details : List Json) : FailsEmpty (observeDetails lib details) := by
  induction details with
  | nil => exact failsEmpty_pure ()
  | cons _ details ih => exact (failsEmpty_wipeOnError _).bind fun _ => ih

theorem observeReasoning_failsEmpty (reasoning : String) : FailsEmpty (observeReasoning lib reasoning) := by
  refine (failsEmpty_modify _).bind fun _ => failsEmpty_get_bind fun tracker => ?_
  exact failsEmpty_ite (failsEmpty_wipeAndFail _) (validateDetailBounds_failsEmpty lib)

theorem observeValue_failsEmpty (value : Json) : FailsEmpty (observeValue lib value) := by
  refine (failsEmpty_modify _).bind fun _ => ?_
  cases value with
  | array details => exact failsEmpty_ite (failsEmpty_wipeAndFail _) (observeDetails_failsEmpty lib details)
  | _ => exact failsEmpty_wipeAndFail _

/-- The reasoning is observed before the details. -/
theorem observe_some (text : String) (reasoningDetails : Option Json) :
    observe lib (some text) reasoningDetails true =
      observeReasoning lib text >>= fun _ => observe lib none reasoningDetails true := rfl

/-- **A failed `observe` leaves nothing behind.** -/
theorem observe_failsEmpty (reasoning : Option String) (reasoningDetails : Option Json) (enabled : Bool) :
    FailsEmpty (observe lib reasoning reasoningDetails enabled) := by
  cases enabled with
  | false => exact failsEmpty_pure ()
  | true =>
    have hvalue : FailsEmpty (observe lib none reasoningDetails true) := by
      cases reasoningDetails with
      | none => exact failsEmpty_pure ()
      | some value => exact observeValue_failsEmpty lib value
    cases reasoning with
    | none => exact hvalue
    | some text => exact (observeReasoning_failsEmpty lib text).bind fun _ => hvalue

/-- **A failed `finish` leaves nothing behind.** -/
theorem finish_failsEmpty (hasToolCalls : Bool) : FailsEmpty (finish lib hasToolCalls) := by
  refine failsEmpty_get_bind fun tracker => failsEmpty_ite (failsEmpty_wipeAndFail _) ?_
  refine failsEmpty_ite (failsEmpty_pure _) ?_
  split
  · exact failsEmpty_wipeAndFail _
  · refine (failsEmpty_modify _).bind fun _ => ?_
    split
    · exact failsEmpty_wipeAndFail _
    · exact (failsEmpty_modify _).bind fun _ => failsEmpty_pure _

end

/-! ## Fields -/

section
variable {p key : String} {value v : Json} {fields previous next base incoming : JsonObject} {entry : String × Json}

theorem field_insert_self : field (OrdMap.insertList p value fields) p = some value := by
  rw [field, OrdMap.find_insertList, if_pos rfl]

theorem field_insert_ne (h : p ≠ key) : field (OrdMap.insertList p value fields) key = field fields key := by
  rw [field, OrdMap.find_insertList, if_neg h]
  rfl

theorem present_insert_ne (h : p ≠ key) : present (OrdMap.insertList p value fields) key = present fields key := by
  rw [present, field_insert_ne h]
  rfl

theorem present_eq_some : present fields key = some value ↔ field fields key = some value ∧ value.isNull = false := by
  rw [present, Option.filter_eq_some_iff, Bool.not_eq_true']

/-! ### Merged fields -/

theorem mergeField_merged (h : isMerged p = true) : mergeField previous (p, value) = .ok previous := by
  simp [mergeField, h]

theorem mergeField_eq_ok (hmerged : isMerged key = false) (hnull : value.isNull = false) :
    mergeField previous (key, value) = .ok next ↔
      (∃ existing, present previous key = some existing ∧ Json.same existing value = true ∧ next = previous) ∨
      (present previous key = none ∧ next = OrdMap.insertList key value previous) := by
  have hskip : ¬ (isMerged key || value.isNull) = true := by rw [hmerged, hnull]; exact Bool.false_ne_true
  rw [mergeField, if_neg hskip]
  cases present previous key with
  | none => exact ⟨fun h => .inr ⟨rfl, (Except.ok.inj h).symm⟩, fun h => by
      obtain ⟨_, hsome, -⟩ | ⟨-, rfl⟩ := h
      · cases hsome
      · rfl⟩
  | some existing =>
    dsimp only
    constructor
    · intro h
      split at h
      · rename_i hsame
        exact .inl ⟨existing, rfl, hsame, (Except.ok.inj h).symm⟩
      · cases h
    · rintro (⟨_, hsome, hsame, rfl⟩ | ⟨hnone, -⟩)
      · cases hsome
        rw [if_pos hsame]
      · cases hnone

/-- A field that is passed over. -/
theorem mergeField_skipped (h : (isMerged entry.1 || entry.2.isNull) = true) :
    mergeField previous entry = .ok previous := by
  rw [mergeField, if_pos h]

/-- A merge and the payload do not meet. -/
theorem mergeField_insert (h : isMerged p = true) :
    mergeField (OrdMap.insertList p v previous) entry = (mergeField previous entry).map (OrdMap.insertList p v) := by
  unfold mergeField
  split
  · rfl
  · rename_i hentry
    have hne : p ≠ entry.1 := by
      rintro rfl
      exact hentry (by rw [h, Bool.true_or])
    rw [present_insert_ne hne]
    cases present previous entry.1 with
    | none => exact congrArg Except.ok (OrdMap.insertList_comm hne.symm _ _ _)
    | some existing =>
      dsimp only
      split <;> rfl

theorem foldlM_mergeField_insert (h : isMerged p = true) : ∀ (fields previous : JsonObject),
    fields.foldlM mergeField (OrdMap.insertList p v previous) =
      (fields.foldlM mergeField previous).map (OrdMap.insertList p v)
  | [], _ => rfl
  | entry :: fields, previous => by
    rw [List.foldlM_cons, List.foldlM_cons, mergeField_insert h]
    cases mergeField previous entry with
    | error error => rfl
    | ok next => exact foldlM_mergeField_insert h fields next

/-- The payload of a fragment takes no part in the loop over its fields. -/
theorem foldlM_mergeField_payload (h : isMerged p = true) : ∀ (fields previous : JsonObject),
    (OrdMap.insertList p v fields).foldlM mergeField previous = fields.foldlM mergeField previous
  | [], previous => by
    rw [OrdMap.insertList, List.foldlM_cons, mergeField_merged h]
    rfl
  | entry :: fields, previous => by
    rcases lt_trichotomy p entry.1 with hlt | heq | hgt
    · rw [OrdMap.insertList_of_lt v fields hlt, List.foldlM_cons, mergeField_merged h]
      rfl
    · have hentry : mergeField previous entry = .ok previous :=
        mergeField_skipped (by rw [← heq, h, Bool.true_or])
      rw [OrdMap.insertList_of_eq v fields heq, List.foldlM_cons, List.foldlM_cons, mergeField_merged h, hentry]
    · rw [OrdMap.insertList_of_gt v fields hgt, List.foldlM_cons, List.foldlM_cons]
      cases mergeField previous entry with
      | error error => rfl
      | ok next => exact foldlM_mergeField_payload h fields next

theorem mergeField_present {existing : Json} (h : mergeField previous entry = .ok next)
    (hkey : present previous key = some existing) : present next key = some existing := by
  by_cases hskip : (isMerged entry.1 || entry.2.isNull) = true
  · rw [mergeField_skipped hskip] at h
    cases h
    exact hkey
  · rw [Bool.not_eq_true, Bool.or_eq_false_iff] at hskip
    rcases (mergeField_eq_ok hskip.1 hskip.2).1 h with ⟨_, -, -, rfl⟩ | ⟨hnone, rfl⟩
    · exact hkey
    · have hne : entry.1 ≠ key := by
        rintro rfl
        rw [hkey] at hnone
        cases hnone
      rwa [present_insert_ne hne]

theorem mergeField_type (h : mergeField previous entry = .ok next) : field next "type" = field previous "type" := by
  by_cases hskip : (isMerged entry.1 || entry.2.isNull) = true
  · rw [mergeField_skipped hskip] at h
    cases h
    rfl
  · rw [Bool.not_eq_true, Bool.or_eq_false_iff] at hskip
    rcases (mergeField_eq_ok hskip.1 hskip.2).1 h with ⟨_, -, -, rfl⟩ | ⟨-, rfl⟩
    · rfl
    · refine field_insert_ne fun htype => ?_
      rw [htype] at hskip
      cases hskip.1

/-- A field of a fragment is found in the detail that it was merged into. -/
theorem mergeField_holds (h : mergeField previous (key, value) = .ok next) (hmerged : isMerged key = false)
    (hnull : value.isNull = false) :
    ∃ existing, present next key = some existing ∧ Json.same existing value = true := by
  rcases (mergeField_eq_ok hmerged hnull).1 h with ⟨existing, hexisting, hsame, rfl⟩ | ⟨-, rfl⟩
  · exact ⟨existing, hexisting, hsame⟩
  · exact ⟨value, present_eq_some.2 ⟨field_insert_self, hnull⟩, Json.same_refl value⟩

theorem foldlM_mergeField_present {existing : Json} : ∀ {fields previous : JsonObject},
    fields.foldlM mergeField previous = .ok base → present previous key = some existing →
    present base key = some existing
  | [], _, h, hkey => by
    cases h
    exact hkey
  | _ :: _, _, h, hkey => by
    obtain ⟨next, hnext, hrest⟩ := bind_eq_ok.1 h
    exact foldlM_mergeField_present hrest (mergeField_present hnext hkey)

theorem foldlM_mergeField_type : ∀ {fields previous : JsonObject},
    fields.foldlM mergeField previous = .ok base → field base "type" = field previous "type"
  | [], _, h => by
    cases h
    rfl
  | _ :: _, _, h => by
    obtain ⟨next, hnext, hrest⟩ := bind_eq_ok.1 h
    exact (foldlM_mergeField_type hrest).trans (mergeField_type hnext)

theorem foldlM_mergeField_holds (hmerged : isMerged key = false) (hnull : value.isNull = false) :
    ∀ {fields previous : JsonObject}, fields.foldlM mergeField previous = .ok base → (key, value) ∈ fields →
    ∃ existing, present base key = some existing ∧ Json.same existing value = true
  | _ :: _, _, h, hmem => by
    obtain ⟨next, hnext, hrest⟩ := bind_eq_ok.1 h
    rcases List.mem_cons.1 hmem with rfl | hmem
    · obtain ⟨existing, hexisting, hsame⟩ := mergeField_holds hnext hmerged hnull
      exact ⟨existing, foldlM_mergeField_present hrest hexisting, hsame⟩
    · exact foldlM_mergeField_holds hmerged hnull hrest hmem

/-- Fields that a detail holds change nothing. -/
theorem foldlM_mergeField_held : ∀ {fields : JsonObject},
    (∀ key value, (key, value) ∈ fields → isMerged key = false → value.isNull = false →
      ∃ existing, present base key = some existing ∧ Json.same existing value = true) →
    fields.foldlM mergeField base = .ok base
  | [], _ => rfl
  | (key, value) :: fields, h => by
    have hrest := foldlM_mergeField_held fun k v hmem => h k v (List.mem_cons_of_mem _ hmem)
    have hentry : mergeField base (key, value) = .ok base := by
      by_cases hskip : (isMerged key || value.isNull) = true
      · exact mergeField_skipped hskip
      · rw [Bool.not_eq_true, Bool.or_eq_false_iff] at hskip
        obtain ⟨existing, hexisting, hsame⟩ := h key value List.mem_cons_self hskip.1 hskip.2
        exact (mergeField_eq_ok hskip.1 hskip.2).2 (.inl ⟨existing, hexisting, hsame, rfl⟩)
    rw [List.foldlM_cons, hentry]
    exact hrest

end

/-! ## A fragment and its parts -/

/-- The types whose fragments are merged. -/
abbrev Mergeable (kind : String) : Prop := kind = "reasoning.text" ∨ kind = "reasoning.summary"

/-- A later part of a split fragment: a fragment of its type whose other fields are left out, null or repeated. -/
structure Continues (fields : JsonObject) (kind : String) (text : String) (part : JsonObject) : Prop where
  type : field part "type" = some (.string kind)
  payload : field part (payloadField kind) = some (.string text)
  repeated : ∀ key value, (key, value) ∈ part → key ≠ payloadField kind → value.isNull = false →
    field fields key = some value

/-- A detail that has taken over the fields of a fragment. -/
structure Holds (kind : String) (fields base : JsonObject) : Prop where
  type : field base "type" = some (.string kind)
  fields : ∀ key value, field fields key = some value → isMerged key = false → value.isNull = false →
    ∃ existing, present base key = some existing ∧ Json.same existing value = true

theorem Mergeable.payload {kind : String} (h : Mergeable kind) :
    payloadField kind = "text" ∨ payloadField kind = "summary" := by
  rcases h with rfl | rfl
  · exact .inl rfl
  · exact .inr rfl

theorem Mergeable.isMerged {kind : String} (h : Mergeable kind) : isMerged (payloadField kind) = true := by
  rcases h.payload with h | h <;> rw [h] <;> rfl

theorem Mergeable.payload_ne {kind key : String} (h : Mergeable kind)
    (hkey : key ∈ ["type", "index", "id", "format", "signature"]) : payloadField kind ≠ key := by
  rintro rfl
  rcases h.payload with h | h <;> rw [h] at hkey <;> revert hkey <;> decide

section
variable {kind text : String} {fields base part previous next : JsonObject} {value : Json}

theorem Continues.field_eq {key : String} {v : Json} (h : Continues fields kind text part)
    (hkey : key ≠ payloadField kind) (hv : field part key = some v) (hnull : v.isNull = false) :
    field fields key = some v := h.repeated key v (OrdMap.mem_of_find hv) hkey hnull

/-- What is malformed in a later part is malformed in the fragment. -/
theorem Continues.wellFormed {key : String} {bad : Json → Bool} (h : Continues fields kind text part)
    (hkey : payloadField kind ≠ key) (hbad : ∀ v, v.isNull = true → bad v = false)
    (hfields : (field (OrdMap.insertList (payloadField kind) value fields) key).any bad = false) :
    (field part key).any bad = false := by
  rw [field_insert_ne hkey] at hfields
  cases hv : field part key with
  | none => rfl
  | some v =>
    cases hnull : v.isNull with
    | true => exact hbad v hnull
    | false =>
      rw [h.field_eq hkey.symm hv hnull] at hfields
      exact hfields

/-! ### Merging a later part -/

theorem canMergeFragments_payload (hkind : Mergeable kind) :
    canMergeFragments previous (OrdMap.insertList (payloadField kind) value fields) =
      canMergeFragments previous fields := by
  have hne : ∀ key ∈ ["type", "index", "id", "format", "signature"], payloadField kind ≠ key :=
    fun key => hkind.payload_ne
  unfold canMergeFragments
  rw [field_insert_ne (hne "type" (by decide)), field_insert_ne (hne "index" (by decide)),
    present_insert_ne (hne "id" (by decide)), present_insert_ne (hne "format" (by decide)),
    present_insert_ne (hne "signature" (by decide))]

theorem canMergeFragments_held (hkind : Mergeable kind) :
    canMergeFragments (OrdMap.insertList (payloadField kind) value base) part = canMergeFragments base part := by
  have hne : ∀ key ∈ ["type", "index", "id", "format", "signature"], payloadField kind ≠ key :=
    fun key => hkind.payload_ne
  unfold canMergeFragments
  rw [field_insert_ne (hne "type" (by decide)), field_insert_ne (hne "index" (by decide)),
    present_insert_ne (hne "id" (by decide)), present_insert_ne (hne "format" (by decide)),
    present_insert_ne (hne "signature" (by decide))]

/-- Neither of two fields conflicts when one of them repeats the other. -/
theorem Holds.conflicts {key : String} (h : Holds kind fields base) (hpart : Continues fields kind text part)
    (hmerged : isMerged key = false) (hkey : key ≠ payloadField kind) :
    conflicts (present base key) (present part key) = false := by
  cases hv : present part key with
  | none => cases present base key <;> rfl
  | some v =>
    obtain ⟨hfield, hnull⟩ := present_eq_some.1 hv
    obtain ⟨existing, hexisting, hsame⟩ := h.fields key v (hpart.field_eq hkey hfield hnull) hmerged hnull
    rw [hexisting]
    exact congrArg (! ·) hsame

theorem isNull_of_asU64 {n : Nat} (h : value.asU64 = some n) : value.isNull = false := by
  cases value with
  | null => cases h
  | _ => rfl

theorem Holds.index {n : Nat} (h : Holds kind fields base) (hpart : Continues fields kind text part)
    (hkind : Mergeable kind) (hn : (field part "index").bind Json.asU64 = some n) :
    (field base "index").bind Json.asU64 = some n := by
  obtain ⟨v, hv, hu64⟩ := Option.bind_eq_some_iff.1 hn
  have hnull := isNull_of_asU64 hu64
  have hfield := hpart.field_eq (hkind.payload_ne (by decide)).symm hv hnull
  obtain ⟨existing, hexisting, hsame⟩ := h.fields "index" v hfield (by decide) hnull
  rw [(present_eq_some.1 hexisting).1, Option.bind_some]
  exact Json.asU64_of_same hsame hu64

/-- A later part may be merged into a detail that holds the fields of its fragment. -/
theorem canMergeFragments_later (hkind : Mergeable kind) (h : Holds kind fields base)
    (hpart : Continues fields kind text part) : canMergeFragments base part = .ok true := by
  have hne : ∀ key ∈ ["type", "index", "id", "format", "signature"], key ≠ payloadField kind :=
    fun key hkey => (hkind.payload_ne hkey).symm
  have hid := h.conflicts hpart (by decide) (hne "id" (by decide))
  have hformat := h.conflicts hpart (by decide) (hne "format" (by decide))
  have hsignature := h.conflicts hpart (by decide) (hne "signature" (by decide))
  have htype : sameField (field base "type") (field part "type") = true := by
    rw [h.type, hpart.type]
    exact Json.same_refl _
  have hindex := fun n => h.index (n := n) hpart hkind
  rw [canMergeFragments, if_neg (by rw [htype]; exact Bool.noConfusion), hid, hformat, hsignature]
  dsimp only
  split
  · rename_i left right hleft hright
    have heq : left = right := Option.some.inj (hleft.symm.trans (hindex right hright))
    simp [rejectIf, heq]
  · simp [rejectIf]

/-- A merge of a fragment with a payload. -/
theorem mergeFragment_eq (hkind : Mergeable kind) (h : field part (payloadField kind) = some (.string text)) :
    mergeFragment previous part kind =
      (mergePayload previous (payloadField kind) text >>= fun previous => part.foldlM mergeField previous) := by
  have hpayload : (if kind = "reasoning.text" then "text" else "summary") = payloadField kind := by
    rcases hkind with rfl | rfl <;> rfl
  unfold mergeFragment
  dsimp only
  rw [hpayload, h]
  rfl

/-- **A later part only grows the payload** of the detail that it is merged into. -/
theorem mergeFragment_later (hkind : Mergeable kind) (h : Holds kind fields base)
    (hpart : Continues fields kind text part) (held : String) :
    mergeFragment (OrdMap.insertList (payloadField kind) (.string held) base) part kind =
      .ok (OrdMap.insertList (payloadField kind) (.string (held ++ text)) base) := by
  have hmerge : mergePayload (OrdMap.insertList (payloadField kind) (.string held) base) (payloadField kind) text =
      .ok (OrdMap.insertList (payloadField kind) (.string (held ++ text)) base) := by
    rw [mergePayload, field_insert_self]
    exact congrArg Except.ok (OrdMap.insertList_insertList_self _ _ _ _)
  have hloop : part.foldlM mergeField base = .ok base := by
    refine foldlM_mergeField_held fun key v hmem hmerged hnull => ?_
    refine h.fields key v (hpart.repeated key v hmem ?_ hnull) hmerged hnull
    rintro rfl
    rw [hkind.isMerged] at hmerged
    cases hmerged
  rw [mergeFragment_eq hkind hpart.payload, hmerge, ok_bind, foldlM_mergeField_insert hkind.isMerged, hloop]
  rfl

/-- **A later part is absorbed** by the detail that holds the fields of its fragment. -/
theorem absorb_later (hkind : Mergeable kind) (h : Holds kind fields base)
    (hpart : Continues fields kind text part) (init : List JsonObject) (held : String) :
    absorb (init ++ [OrdMap.insertList (payloadField kind) (.string held) base]) part kind =
      .ok (init ++ [OrdMap.insertList (payloadField kind) (.string (held ++ text)) base]) := by
  have hmerge : canMergeFragments (OrdMap.insertList (payloadField kind) (.string held) base) part = .ok true := by
    rw [canMergeFragments_held hkind]
    exact canMergeFragments_later hkind h hpart
  unfold absorb
  rw [List.getLast?_concat]
  dsimp only
  rw [if_pos hkind, hmerge, ok_bind, if_pos rfl, mergeFragment_later hkind h hpart, ok_bind, List.dropLast_concat]
  rfl

/-! ### Absorbing the first part -/

theorem mergePayload_eq_ok {p whole : String} (h : mergePayload previous p whole = .ok next) :
    ∃ before, ∀ s, mergePayload previous p s = .ok (OrdMap.insertList p (.string (before ++ s)) previous) := by
  unfold mergePayload at h ⊢
  split at h
  · exact ⟨"", fun _ => rfl⟩
  · rename_i before _
    exact ⟨before, fun _ => rfl⟩
  · exact ⟨"", fun s => by rw [String.empty_append]⟩
  · cases h

/-- A fragment is stored as it is. -/
theorem holds_self (htype : field fields "type" = some (.string kind)) : Holds kind fields fields :=
  ⟨htype, fun _ v hv _ hnull => ⟨v, present_eq_some.2 ⟨hv, hnull⟩, Json.same_refl v⟩⟩

theorem type_of_canMerge (htype : field fields "type" = some (.string kind))
    (h : canMergeFragments previous fields = .ok true) : field previous "type" = some (.string kind) := by
  unfold canMergeFragments at h
  split at h
  · cases h
  · rename_i hsame
    rw [htype, Bool.not_eq_false] at hsame
    cases hprevious : field previous "type" with
    | none =>
      rw [hprevious] at hsame
      cases hsame
    | some v =>
      rw [hprevious] at hsame
      cases v with
      | string s =>
        change Json.same (.string s) (.string kind) = true at hsame
        rw [Json.same, decide_eq_true_eq] at hsame
        rw [hsame]
      | _ => simp [sameField, Json.same] at hsame

/-- **A fragment whose payload changes** is absorbed in the same way. -/
theorem absorb_payload {whole : String} {details out : List JsonObject} (hkind : Mergeable kind)
    (htype : field fields "type" = some (.string kind))
    (h : absorb details (OrdMap.insertList (payloadField kind) (.string whole) fields) kind = .ok out) :
    ∃ init before base, Holds kind fields base ∧ ∀ s,
      absorb details (OrdMap.insertList (payloadField kind) (.string s) fields) kind =
        .ok (init ++ [OrdMap.insertList (payloadField kind) (.string (before ++ s)) base]) := by
  have hstored : Holds kind fields fields := holds_self htype
  unfold absorb at h ⊢
  cases hlast : details.getLast? with
  | none => exact ⟨details, "", fields, hstored, fun s => by rw [String.empty_append]⟩
  | some previous =>
    rw [hlast] at h
    dsimp only at h ⊢
    rw [if_pos hkind, canMergeFragments_payload hkind] at h
    obtain ⟨merges, hmerges, h⟩ := bind_eq_ok.1 h
    cases merges with
    | false =>
      refine ⟨details, "", fields, hstored, fun s => ?_⟩
      rw [if_pos hkind, canMergeFragments_payload hkind, hmerges, String.empty_append]
      rfl
    | true =>
      have hfragment : ∀ s, mergeFragment previous (OrdMap.insertList (payloadField kind) (.string s) fields) kind =
          (mergePayload previous (payloadField kind) s >>= fun previous => fields.foldlM mergeField previous) := by
        intro s
        rw [mergeFragment_eq hkind field_insert_self]
        simp only [foldlM_mergeField_payload hkind.isMerged]
      obtain ⟨merged, hmerged, -⟩ := bind_eq_ok.1 h
      rw [hfragment] at hmerged
      obtain ⟨grown, hgrown, hloop⟩ := bind_eq_ok.1 hmerged
      obtain ⟨before, hbefore⟩ := mergePayload_eq_ok hgrown
      rw [hbefore] at hgrown
      cases hgrown
      rw [foldlM_mergeField_insert hkind.isMerged] at hloop
      cases hbase : fields.foldlM mergeField previous with
      | error error =>
        rw [hbase] at hloop
        cases hloop
      | ok base =>
        refine ⟨details.dropLast, before, base, ⟨?_, ?_⟩, fun s => ?_⟩
        · rw [foldlM_mergeField_type hbase]
          exact type_of_canMerge htype hmerges
        · exact fun key v hv hmerged hnull => foldlM_mergeField_holds hmerged hnull hbase (OrdMap.mem_of_find hv)
        · rw [if_pos hkind, canMergeFragments_payload hkind, hmerges, ok_bind, if_pos rfl, hfragment, hbefore,
            ok_bind, foldlM_mergeField_insert hkind.isMerged, hbase]
          rfl

end

/-! ### Valid fragments -/

/-- What `validate_openrouter_reasoning_fragment` checks. -/
structure ValidFragment (object : JsonObject) (kind : String) : Prop where
  type : field object "type" = some (.string kind)
  supported : kind = "reasoning.text" ∨ kind = "reasoning.summary" ∨ kind = "reasoning.encrypted"
  id : isMalformedText (field object "id") = false
  format : isMalformedText (field object "format") = false
  index : isMalformedIndex (field object "index") = false
  payload : isMalformedText (field object (payloadField kind)) = false
  signature : kind = "reasoning.text" → isMalformedText (field object "signature") = false

theorem asStr_eq_some {value : Json} {s : String} : value.asStr = some s ↔ value = .string s := by
  cases value <;> simp [Json.asStr]

theorem validateReasoningFragment_eq_ok {object object' : JsonObject} {kind : String} :
    validateReasoningFragment (.object object) = .ok (object', kind) ↔
      object' = object ∧ ValidFragment object kind := by
  unfold validateReasoningFragment
  simp only [bind_eq_ok, okOr_eq_ok, rejectIf_eq_ok, pure_eq_ok, Option.bind_eq_some_iff, asStr_eq_some, exists_const,
    not_or, not_and, not_not, Bool.not_eq_true, Prod.mk.injEq]
  constructor
  · rintro ⟨kind, ⟨_, htype, rfl⟩, hsupported, ⟨hid, hformat⟩, hindex, ⟨hpayload, hsignature⟩, rfl, rfl⟩
    refine ⟨rfl, htype, ?_, hid, hformat, hindex, hpayload, hsignature⟩
    by_cases htext : kind = "reasoning.text"
    · exact .inl htext
    · by_cases hsummary : kind = "reasoning.summary"
      · exact .inr (.inl hsummary)
      · exact .inr (.inr (hsupported htext hsummary))
  · rintro ⟨rfl, h⟩
    refine ⟨kind, ⟨_, h.type, rfl⟩, fun htext hsummary => ?_, ⟨h.id, h.format⟩, h.index, ⟨h.payload, h.signature⟩,
      rfl, rfl⟩
    rcases h.supported with hkind | hkind | hkind
    · exact absurd hkind htext
    · exact absurd hkind hsummary
    · exact hkind

theorem isMalformedText_string (s : String) : isMalformedText (some (.string s)) = false := rfl

section
variable {kind text whole : String} {fields part : JsonObject}

/-- The first part of a valid fragment. -/
theorem ValidFragment.first (hkind : Mergeable kind)
    (h : ValidFragment (OrdMap.insertList (payloadField kind) (.string whole) fields) kind) (s : String) :
    ValidFragment (OrdMap.insertList (payloadField kind) (.string s) fields) kind := by
  have hne : ∀ key ∈ ["type", "index", "id", "format", "signature"], payloadField kind ≠ key :=
    fun key => hkind.payload_ne
  obtain ⟨htype, hsupported, hid, hformat, hindex, -, hsignature⟩ := h
  rw [field_insert_ne (hne "type" (by decide))] at htype
  rw [field_insert_ne (hne "id" (by decide))] at hid
  rw [field_insert_ne (hne "format" (by decide))] at hformat
  rw [field_insert_ne (hne "index" (by decide))] at hindex
  rw [field_insert_ne (hne "signature" (by decide))] at hsignature
  constructor
  · rwa [field_insert_ne (hne "type" (by decide))]
  · exact hsupported
  · rwa [field_insert_ne (hne "id" (by decide))]
  · rwa [field_insert_ne (hne "format" (by decide))]
  · rwa [field_insert_ne (hne "index" (by decide))]
  · rw [field_insert_self]
    exact isMalformedText_string s
  · rwa [field_insert_ne (hne "signature" (by decide))]

/-- A later part of a valid fragment. -/
theorem ValidFragment.later (hkind : Mergeable kind)
    (h : ValidFragment (OrdMap.insertList (payloadField kind) (.string whole) fields) kind)
    (hpart : Continues fields kind text part) : ValidFragment part kind := by
  have htext : ∀ v : Json, v.isNull = true → (!v.isNull && v.asStr.isNone) = false := by
    intro v hv
    rw [hv]
    rfl
  have hu64 : ∀ v : Json, v.isNull = true → (!v.isNull && v.asU64.isNone) = false := by
    intro v hv
    rw [hv]
    rfl
  refine ⟨hpart.type, h.supported, hpart.wellFormed (hkind.payload_ne (by decide)) htext h.id,
    hpart.wellFormed (hkind.payload_ne (by decide)) htext h.format,
    hpart.wellFormed (hkind.payload_ne (by decide)) hu64 h.index, ?_,
    fun hsignature => hpart.wellFormed (hkind.payload_ne (by decide)) htext (h.signature hsignature)⟩
  rw [hpart.payload]
  exact isMalformedText_string text

end

/-! ## Bounds -/

section
variable (lib : Library)

/-- The bounds that `validate_detail_bounds` checks. -/
structure Fits (reasoning : Option String) (details : List JsonObject) : Prop where
  count : details.length ≤ maxOpaqueReasoningStateCount
  items : ∀ detail ∈ details, detailBytes lib detail ≤ maxOpaqueReasoningItemBytes
  total : (reasoning.map String.utf8ByteSize).getD 0 + (details.map (detailBytes lib)).sum ≤
    maxOpaqueReasoningTotalBytes

theorem exists_totalBytes_iff : ∀ {details : List JsonObject} {initial : Nat},
    (∃ total, totalBytes lib initial details = some total ∧ total ≤ maxOpaqueReasoningTotalBytes) ↔
      (∀ detail ∈ details, detailBytes lib detail ≤ maxOpaqueReasoningItemBytes) ∧
        initial + (details.map (detailBytes lib)).sum ≤ maxOpaqueReasoningTotalBytes
  | [], initial => by simp [totalBytes]
  | detail :: details, initial => by
    have hstep : totalBytes lib initial (detail :: details) =
        (if detailBytes lib detail > maxOpaqueReasoningItemBytes then none
          else checkedAdd initial (detailBytes lib detail)).bind fun total => totalBytes lib total details := rfl
    rw [hstep, List.forall_mem_cons, List.map_cons, List.sum_cons]
    by_cases hitem : detailBytes lib detail > maxOpaqueReasoningItemBytes
    · rw [if_pos hitem]
      constructor
      · rintro ⟨_, h, -⟩
        cases h
      · rintro ⟨⟨hle, -⟩, -⟩
        omega
    · rw [if_neg hitem]
      constructor
      · rintro ⟨total, h, hle⟩
        obtain ⟨next, hnext, hrest⟩ := Option.bind_eq_some_iff.1 h
        obtain ⟨-, rfl⟩ := checkedAdd_eq_some.1 hnext
        obtain ⟨hitems, hsum⟩ := exists_totalBytes_iff.1 ⟨total, hrest, hle⟩
        exact ⟨⟨Nat.not_lt.1 hitem, hitems⟩, by omega⟩
      · rintro ⟨⟨-, hitems⟩, hsum⟩
        have hword : initial + detailBytes lib detail ≤ usizeMax :=
          le_trans (by omega) (show maxOpaqueReasoningTotalBytes ≤ usizeMax by decide)
        obtain ⟨total, hrest, hle⟩ := exists_totalBytes_iff.2
          ⟨hitems, show initial + detailBytes lib detail + _ ≤ _ by omega⟩
        exact ⟨total, Option.bind_eq_some_iff.2 ⟨_, checkedAdd_eq_some.2 ⟨hword, rfl⟩, hrest⟩, hle⟩

theorem validateDetailBounds_eq_ok {tracker after : ReasoningTracker} :
    (validateDetailBounds lib).run tracker = (.ok (), after) ↔
      Fits lib tracker.reasoning tracker.details ∧ after = tracker := by
  have hiff : (∃ total, totalBytes lib ((tracker.reasoning.map String.utf8ByteSize).getD 0) tracker.details =
    some total ∧ total ≤ maxOpaqueReasoningTotalBytes) ↔ _ := exists_totalBytes_iff lib
  unfold validateDetailBounds
  rw [Stateful.run_get_bind]
  split
  · rename_i hcount
    constructor
    · intro h
      cases h
    · rintro ⟨h, -⟩
      exact absurd h.count (Nat.not_le.2 hcount)
  · rename_i hcount
    split
    · rename_i hnone
      constructor
      · intro h
        cases h
      · rintro ⟨h, -⟩
        obtain ⟨total, htotal, -⟩ := hiff.2 ⟨h.items, h.total⟩
        rw [hnone] at htotal
        cases htotal
    · rename_i total htotal
      split
      · rename_i hover
        constructor
        · intro h
          cases h
        · rintro ⟨h, -⟩
          obtain ⟨total', htotal', hle⟩ := hiff.2 ⟨h.items, h.total⟩
          rw [htotal] at htotal'
          cases htotal'
          omega
      · rename_i hle
        obtain ⟨hitems, hsum⟩ := hiff.1 ⟨total, htotal, Nat.not_lt.1 hle⟩
        rw [Stateful.run_pure, Prod.mk.injEq]
        constructor
        · rintro ⟨-, rfl⟩
          exact ⟨⟨Nat.not_lt.1 hcount, hitems, hsum⟩, rfl⟩
        · rintro ⟨-, rfl⟩
          exact ⟨rfl, rfl⟩

theorem detailBytes_insert_le (key s t : String) (fields : JsonObject) :
    detailBytes lib (OrdMap.insertList key (.string s) fields) ≤
      detailBytes lib (OrdMap.insertList key (.string (s ++ t)) fields) := by
  unfold detailBytes toText
  rw [String.utf8ByteSize_ofList, String.utf8ByteSize_ofList]
  exact Json.utf8Len_print_insert_le lib.floatText key s t fields

/-- **A shorter payload stays within the bounds.** -/
theorem Fits.shorter {reasoning : Option String} {init : List JsonObject} {key s t : String} {base : JsonObject}
    (h : Fits lib reasoning (init ++ [OrdMap.insertList key (.string (s ++ t)) base])) :
    Fits lib reasoning (init ++ [OrdMap.insertList key (.string s) base]) := by
  have hle := detailBytes_insert_le lib key s t base
  obtain ⟨hcount, hitems, htotal⟩ := h
  refine ⟨?_, fun detail hdetail => ?_, ?_⟩
  · rwa [List.length_append, List.length_singleton] at hcount ⊢
  · rcases List.mem_append.1 hdetail with hinit | hlast
    · exact hitems detail (List.mem_append_left _ hinit)
    · rw [List.mem_singleton.1 hlast]
      exact hle.trans (hitems _ (List.mem_append_right _ (List.mem_singleton_self _)))
  · rw [List.map_append, List.sum_append, List.map_singleton, List.sum_singleton] at htotal ⊢
    omega

end

/-! ## Pieces of a stream -/

/-- A piece of a stream: a text of the reasoning or a fragment of a detail. -/
inductive Piece
  | reasoning (text : String)
  | detail (detail : Json)

/-- What a tracker holds. -/
structure Held where
  reasoning : Option String
  details : List JsonObject

def ReasoningTracker.held (tracker : ReasoningTracker) : Held := ⟨tracker.reasoning, tracker.details⟩

/-- The pieces of a delta, in the order in which they are observed. -/
def pieces (delta : ReasoningDelta) : List Piece :=
  (delta.visibleReasoning.map Piece.reasoning).toList ++
    match delta.reasoningDetails with
    | some (.array details) => details.map .detail
    | _ => []

/-- Details come in an array within the limit. -/
def WellShaped (delta : ReasoningDelta) : Prop :=
  ∀ value, delta.reasoningDetails = some value →
    ∃ details, value = .array details ∧ details.length ≤ maxOpaqueReasoningStateCount

section
variable (lib : Library)

/-- A piece is taken over within the bounds. -/
def Taken (held : Held) : Piece → Held → Prop
  | .reasoning text, after =>
    after = ⟨some (held.reasoning.getD "" ++ text), held.details⟩ ∧ Fits lib after.reasoning after.details
  | .detail detail, after => ∃ object kind details, validateReasoningFragment detail = .ok (object, kind) ∧
    absorb held.details object kind = .ok details ∧ after = ⟨held.reasoning, details⟩ ∧
    Fits lib after.reasoning after.details

variable {lib} {tracker after : ReasoningTracker}

theorem wipeOnError_eq_ok {x : Tracked Unit} :
    (wipeOnError x).run tracker = (.ok (), after) ↔ x.run tracker = (.ok (), after) := by
  change wipeOnError x tracker = _ ↔ _
  unfold wipeOnError
  split
  · rename_i u s hx
    rw [hx]
  · rename_i error s hx
    rw [hx]
    constructor
    · intro h
      cases h
    · intro h
      cases h

theorem observeDetail_eq_ok {detail : Json} : (observeDetail lib detail).run tracker = (.ok (), after) ↔
    Taken lib tracker.held (.detail detail) after.held ∧
      after.reasoningDetailsObserved = tracker.reasoningDetailsObserved := by
  unfold observeDetail
  constructor
  · intro h
    obtain ⟨⟨object, kind⟩, t, hfragment, h⟩ := Stateful.run_bind_eq_ok.1 h
    obtain ⟨hvalid, rfl⟩ := Stateful.run_lift_eq_ok.1 hfragment
    dsimp only at h
    rw [Stateful.run_get_bind] at h
    obtain ⟨details, t, habsorbed, h⟩ := Stateful.run_bind_eq_ok.1 h
    obtain ⟨habsorb, rfl⟩ := Stateful.run_lift_eq_ok.1 habsorbed
    rw [Stateful.run_modify_bind, validateDetailBounds_eq_ok] at h
    obtain ⟨hfits, rfl⟩ := h
    exact ⟨⟨object, kind, details, hvalid, habsorb, rfl, hfits⟩, rfl⟩
  · rintro ⟨⟨object, kind, details, hvalid, habsorb, hafter, hfits⟩, hobserved⟩
    have hnext : after = { tracker with details := details } := by
      obtain ⟨reasoning, observed, held⟩ := after
      cases hafter
      cases hobserved
      rfl
    refine Stateful.run_bind_eq_ok.2 ⟨(object, kind), tracker, Stateful.run_lift_eq_ok.2 ⟨hvalid, rfl⟩, ?_⟩
    dsimp only
    rw [Stateful.run_get_bind]
    refine Stateful.run_bind_eq_ok.2 ⟨details, tracker, Stateful.run_lift_eq_ok.2 ⟨habsorb, rfl⟩, ?_⟩
    rw [Stateful.run_modify_bind, validateDetailBounds_eq_ok]
    rw [hnext] at hfits
    exact ⟨hfits, hnext⟩

theorem observeDetails_eq_ok : ∀ {details : List Json} {tracker : ReasoningTracker},
    (observeDetails lib details).run tracker = (.ok (), after) ↔
      Execution (Taken lib) tracker.held (details.map .detail) after.held ∧
        after.reasoningDetailsObserved = tracker.reasoningDetailsObserved
  | [], tracker => by
    rw [observeDetails, Stateful.run_pure, Prod.mk.injEq, List.map_nil, execution_nil]
    constructor
    · rintro ⟨-, rfl⟩
      exact ⟨rfl, rfl⟩
    · rintro ⟨hheld, hobserved⟩
      obtain ⟨_, _, _⟩ := after
      obtain ⟨_, _, _⟩ := tracker
      cases hheld
      cases hobserved
      exact ⟨rfl, rfl⟩
  | detail :: details, tracker => by
    rw [observeDetails, Stateful.run_bind_eq_ok, List.map_cons, execution_cons]
    constructor
    · rintro ⟨⟨⟩, next, hdetail, hrest⟩
      obtain ⟨htaken, hobserved⟩ := observeDetail_eq_ok.1 (wipeOnError_eq_ok.1 hdetail)
      obtain ⟨hexec, hobserved'⟩ := observeDetails_eq_ok.1 hrest
      exact ⟨⟨next.held, htaken, hexec⟩, hobserved'.trans hobserved⟩
    · rintro ⟨⟨held, htaken, hexec⟩, hobserved⟩
      let next : ReasoningTracker := ⟨held.reasoning, tracker.reasoningDetailsObserved, held.details⟩
      refine ⟨(), next, wipeOnError_eq_ok.2 (observeDetail_eq_ok.2 ⟨htaken, rfl⟩), ?_⟩
      exact observeDetails_eq_ok.2 ⟨hexec, hobserved⟩

theorem observeReasoning_eq_ok {text : String} : (observeReasoning lib text).run tracker = (.ok (), after) ↔
    Taken lib tracker.held (.reasoning text) after.held ∧
      after.reasoningDetailsObserved = tracker.reasoningDetailsObserved := by
  unfold observeReasoning
  rw [Stateful.run_modify_bind, Stateful.run_get_bind]
  dsimp only [Option.getD_some]
  constructor
  · intro h
    split at h
    · cases h
    · rw [validateDetailBounds_eq_ok] at h
      obtain ⟨hfits, rfl⟩ := h
      exact ⟨⟨rfl, hfits⟩, rfl⟩
  · rintro ⟨⟨hafter, hfits⟩, hobserved⟩
    have hnext : after = { tracker with reasoning := some (tracker.reasoning.getD "" ++ text) } := by
      obtain ⟨reasoning, observed, held⟩ := after
      cases hafter
      cases hobserved
      rfl
    subst hnext
    have htotal := hfits.total
    rw [if_neg, validateDetailBounds_eq_ok]
    · exact ⟨hfits, rfl⟩
    · change (tracker.reasoning.getD "" ++ text).utf8ByteSize + _ ≤ _ at htotal
      omega

theorem observeValue_eq_ok {value : Json} : (observeValue lib value).run tracker = (.ok (), after) ↔
    ∃ details, value = .array details ∧ details.length ≤ maxOpaqueReasoningStateCount ∧
      Execution (Taken lib) tracker.held (details.map .detail) after.held ∧ after.reasoningDetailsObserved = true := by
  unfold observeValue
  rw [Stateful.run_modify_bind]
  cases value with
  | array details =>
    dsimp only
    split
    · rename_i hcount
      constructor
      · intro h
        cases h
      · rintro ⟨_, hdetails, hle, -⟩
        cases hdetails
        omega
    · rename_i hcount
      rw [observeDetails_eq_ok]
      constructor
      · rintro ⟨hexec, hobserved⟩
        exact ⟨details, rfl, Nat.not_lt.1 hcount, hexec, hobserved⟩
      · rintro ⟨_, hdetails, -, hexec, hobserved⟩
        cases hdetails
        exact ⟨hexec, hobserved⟩
  | _ =>
    constructor
    · intro h
      cases h
    · rintro ⟨_, hdetails, -⟩
      cases hdetails

theorem observe_none_eq_ok {reasoning : Option String} {reasoningDetails : Option Json} :
    (observe lib none reasoningDetails true).run tracker = (.ok (), after) ↔
      WellShaped ⟨reasoning, reasoningDetails⟩ ∧
        Execution (Taken lib) tracker.held (pieces ⟨none, reasoningDetails⟩) after.held ∧
        after.reasoningDetailsObserved = (tracker.reasoningDetailsObserved || reasoningDetails.isSome) := by
  cases reasoningDetails with
  | none =>
    change (pure () : Tracked Unit).run tracker = _ ↔ _
    rw [Stateful.run_pure, Prod.mk.injEq, Option.isSome_none, Bool.or_false]
    constructor
    · rintro ⟨-, rfl⟩
      exact ⟨fun _ hvalue => absurd hvalue (Option.some_ne_none _).symm, .nil, rfl⟩
    · rintro ⟨-, hexec, hobserved⟩
      have hnothing : (observeDetails lib []).run tracker = (.ok (), after) :=
        observeDetails_eq_ok.2 ⟨hexec, hobserved⟩
      exact Prod.mk.inj hnothing
  | some value =>
    change (observeValue lib value).run tracker = _ ↔ _
    rw [observeValue_eq_ok, Option.isSome_some, Bool.or_true]
    constructor
    · rintro ⟨details, rfl, hcount, hexec, hobserved⟩
      exact ⟨fun _ hvalue => ⟨details, (Option.some.inj hvalue).symm, hcount⟩, hexec, hobserved⟩
    · rintro ⟨hshape, hexec, hobserved⟩
      obtain ⟨details, rfl, hcount⟩ := hshape value rfl
      exact ⟨details, rfl, hcount, hexec, hobserved⟩

/-- **An `observe` that succeeds** takes the pieces of its delta. -/
theorem observe_eq_ok {delta : ReasoningDelta} :
    (observe lib delta.visibleReasoning delta.reasoningDetails true).run tracker = (.ok (), after) ↔
      WellShaped delta ∧ Execution (Taken lib) tracker.held (pieces delta) after.held ∧
        after.reasoningDetailsObserved = (tracker.reasoningDetailsObserved || delta.reasoningDetails.isSome) := by
  obtain ⟨reasoning, reasoningDetails⟩ := delta
  cases reasoning with
  | none => exact observe_none_eq_ok
  | some text =>
    have hpieces : pieces ⟨some text, reasoningDetails⟩ = .reasoning text :: pieces ⟨none, reasoningDetails⟩ := rfl
    rw [hpieces, execution_cons]
    change (observe lib (some text) reasoningDetails true).run tracker = _ ↔ _
    rw [observe_some, Stateful.run_bind_eq_ok]
    constructor
    · rintro ⟨⟨⟩, next, hreasoning, hrest⟩
      obtain ⟨htaken, hobserved⟩ := observeReasoning_eq_ok.1 hreasoning
      obtain ⟨hshape, hexec, hobserved'⟩ := observe_none_eq_ok.1 hrest
      rw [hobserved] at hobserved'
      exact ⟨hshape, ⟨next.held, htaken, hexec⟩, hobserved'⟩
    · rintro ⟨hshape, ⟨held, htaken, hexec⟩, hobserved⟩
      let next : ReasoningTracker := ⟨held.reasoning, tracker.reasoningDetailsObserved, held.details⟩
      exact ⟨(), next, observeReasoning_eq_ok.2 ⟨htaken, rfl⟩, observe_none_eq_ok.2 ⟨hshape, hexec, hobserved⟩⟩

/-- The loop over the deltas takes all their pieces. -/
theorem observeAll_eq_ok : ∀ {deltas : List ReasoningDelta} {tracker : ReasoningTracker},
    (deltas.forM fun delta => observe lib delta.visibleReasoning delta.reasoningDetails true).run tracker =
        (.ok (), after) ↔
      (∀ delta ∈ deltas, WellShaped delta) ∧
        Execution (Taken lib) tracker.held (deltas.flatMap pieces) after.held ∧
        after.reasoningDetailsObserved =
          (tracker.reasoningDetailsObserved || deltas.any fun delta => delta.reasoningDetails.isSome)
  | [], tracker => by
    rw [List.any_nil, Bool.or_false]
    have h : (observeDetails lib []).run tracker = (.ok (), after) ↔ _ := observeDetails_eq_ok
    exact h.trans ⟨fun h => ⟨fun _ hdelta => absurd hdelta List.not_mem_nil, h⟩, fun h => h.2⟩
  | delta :: deltas, tracker => by
    rw [List.forM, Stateful.run_bind_eq_ok, List.forall_mem_cons, List.flatMap_cons, List.any_cons]
    constructor
    · rintro ⟨⟨⟩, next, hdelta, hrest⟩
      obtain ⟨hshape, hexec, hobserved⟩ := observe_eq_ok.1 hdelta
      obtain ⟨hshapes, hexec', hobserved'⟩ := observeAll_eq_ok.1 hrest
      rw [hobserved, Bool.or_assoc] at hobserved'
      exact ⟨⟨hshape, hshapes⟩, execution_append.2 ⟨next.held, hexec, hexec'⟩, hobserved'⟩
    · rintro ⟨⟨hshape, hshapes⟩, hexec, hobserved⟩
      obtain ⟨held, hfirst, hrest⟩ := execution_append.1 hexec
      let next : ReasoningTracker :=
        ⟨held.reasoning, tracker.reasoningDetailsObserved || delta.reasoningDetails.isSome, held.details⟩
      rw [← Bool.or_assoc] at hobserved
      exact ⟨(), next, observe_eq_ok.2 ⟨hshape, hfirst, rfl⟩, observeAll_eq_ok.2 ⟨hshapes, hrest, hobserved⟩⟩

end

/-! ## Streams with other fragments -/

/-- A fragment of a type with a payload. -/
def fragment (kind payload : String) (fields : JsonObject) : Json :=
  .object (OrdMap.insertList (payloadField kind) (.string payload) fields)

/-- The parts of a piece: itself, or consecutive fragments of its type whose payloads make up its own. The first
part keeps the other fields. -/
inductive Parts : Piece → List Piece → Prop
  | whole (piece : Piece) : Parts piece [piece]
  | split {kind first : String} {texts : List String} {fields : JsonObject} {later : List JsonObject} :
    Mergeable kind → field fields "type" = some (.string kind) → List.Forall₂ (Continues fields kind) texts later →
    Parts (.detail (fragment kind (first ++ String.join texts) fields))
      (.detail (fragment kind first fields) :: later.map fun part => .detail (.object part))

/-- The same stream with fragments split and spread in order over other deltas. -/
structure Refragmented (deltas deltas' : List ReasoningDelta) : Prop where
  pieces : Refined Parts (deltas.flatMap pieces) (deltas'.flatMap pieces)
  shape : ∀ delta ∈ deltas', WellShaped delta
  observed : (deltas'.any fun delta => delta.reasoningDetails.isSome) =
    deltas.any fun delta => delta.reasoningDetails.isSome

section
variable {lib : Library}

/-- The later parts of a fragment, one after another: each adds its text to the payload. -/
theorem taken_later {kind whole : String} {fields base : JsonObject} {reasoning : Option String}
    {init : List JsonObject} (hkind : Mergeable kind)
    (hvalid : ValidFragment (OrdMap.insertList (payloadField kind) (.string whole) fields) kind)
    (hholds : Holds kind fields base) {texts : List String} {later : List JsonObject}
    (hlater : List.Forall₂ (Continues fields kind) texts later) (held : String)
    (hfits : Fits lib reasoning
      (init ++ [OrdMap.insertList (payloadField kind) (.string (held ++ String.join texts)) base])) :
    Execution (Taken lib) ⟨reasoning, init ++ [OrdMap.insertList (payloadField kind) (.string held) base]⟩
      (later.map fun part => .detail (.object part))
      ⟨reasoning, init ++ [OrdMap.insertList (payloadField kind) (.string (held ++ String.join texts)) base]⟩ := by
  induction hlater generalizing held with
  | nil =>
    rw [String.join_nil, String.append_empty]
    exact .nil
  | @cons text part texts later hpart _ ih =>
    rw [String.join_cons, ← String.append_assoc] at hfits ⊢
    have hvalid' := validateReasoningFragment_eq_ok.2 ⟨rfl, hvalid.later hkind hpart⟩
    exact .cons ⟨part, kind, _, hvalid', absorb_later hkind hholds hpart init held, rfl, hfits.shorter⟩
      (ih (held ++ text) hfits)

/-- **The parts of a piece are taken like the piece.** -/
theorem taken_parts {held after : Held} {piece : Piece} {parts : List Piece} (h : Taken lib held piece after)
    (hparts : Parts piece parts) : Execution (Taken lib) held parts after := by
  cases hparts with
  | whole => exact .cons h .nil
  | @split kind first texts fields later hkind htype hlater =>
    obtain ⟨object, kind', details, hfragment, habsorb, rfl, hfits⟩ := h
    obtain ⟨rfl, hvalid⟩ := validateReasoningFragment_eq_ok.1 hfragment
    have hsame : kind' = kind := by
      have htype' := hvalid.type
      rw [field_insert_ne (hkind.payload_ne (by decide)), htype] at htype'
      exact (Json.string.inj (Option.some.inj htype')).symm
    subst hsame
    obtain ⟨init, before, base, hholds, hpayload⟩ := absorb_payload hkind htype habsorb
    have hdetails := Except.ok.inj ((hpayload _).symm.trans habsorb)
    rw [← String.append_assoc] at hdetails
    rw [← hdetails] at hfits ⊢
    have hfirst := validateReasoningFragment_eq_ok.2 ⟨rfl, hvalid.first hkind first⟩
    exact .cons ⟨_, kind', _, hfirst, hpayload first, rfl, hfits.shorter⟩
      (taken_later hkind hvalid hholds hlater (before ++ first) hfits)

theorem session_failsEmpty (enabled : Bool) (hasToolCalls : Bool) :
    ∀ deltas : List ReasoningDelta, FailsEmpty (session lib enabled deltas hasToolCalls)
  | [] => finish_failsEmpty lib hasToolCalls
  | delta :: deltas => by
    have hassoc : session lib enabled (delta :: deltas) hasToolCalls =
        (observe lib delta.visibleReasoning delta.reasoningDetails enabled >>= fun _ =>
          session lib enabled deltas hasToolCalls) := by
      unfold session
      rw [List.forM, bind_assoc]
    rw [hassoc]
    exact (observe_failsEmpty lib _ _ _).bind fun _ => session_failsEmpty enabled hasToolCalls deltas

/-- **The topology of a stream** is that of the same stream with other fragments, and a stream that fails leaves
nothing in the tracker. -/
theorem session_refragmented (enabled hasToolCalls : Bool) (deltas : List ReasoningDelta) (tracker : ReasoningTracker) :
    (∀ deltas' topologies after, Refragmented deltas deltas' →
      (session lib enabled deltas hasToolCalls).run tracker = (.ok topologies, after) →
      (session lib enabled deltas' hasToolCalls).run tracker = (.ok topologies, after)) ∧
    ∀ error after, (session lib enabled deltas hasToolCalls).run tracker = (.error error, after) →
      after = .empty := by
  refine ⟨fun deltas' topologies after hrefragmented h => ?_, fun error after h => ?_⟩
  · obtain ⟨⟨⟩, next, hdeltas, hfinish⟩ := Stateful.run_bind_eq_ok.1 h
    refine Stateful.run_bind_eq_ok.2 ⟨(), next, ?_, hfinish⟩
    cases enabled with
    | false =>
      have hskip : ∀ deltas : List ReasoningDelta, (deltas.forM fun delta =>
          observe lib delta.visibleReasoning delta.reasoningDetails false).run tracker = (.ok (), tracker) := by
        intro deltas
        induction deltas with
        | nil => rfl
        | cons delta deltas ih => exact ih
      rw [hskip] at hdeltas ⊢
      exact hdeltas
    | true =>
      obtain ⟨-, hexec, hobserved⟩ := observeAll_eq_ok.1 hdeltas
      rw [← hrefragmented.observed] at hobserved
      refine observeAll_eq_ok.2 ⟨hrefragmented.shape, ?_, hobserved⟩
      exact hexec.refined (fun _ _ _ _ => taken_parts) hrefragmented.pieces
  · have hfails : Stateful.Ends _ _ ((session lib enabled deltas hasToolCalls).run tracker) :=
      session_failsEmpty enabled hasToolCalls deltas tracker trivial
    rw [h] at hfails
    exact hfails

end

/-! ### A stream of one detail -/

/-- The fields of the detail but its text. -/
def lanternFields : JsonObject :=
  [("id", .string "l1"), ("index", .number (.posInt 0)), ("type", .string "reasoning.text")]

/-- The canonical text of the detail. -/
def lanternText : String :=
  "\x7b\"id\":\"l1\",\"index\":0,\"text\":\"lantern\",\"type\":\"reasoning.text\"\x7d"

/-- The text of the detail and its value. -/
def lanternLibrary : Library :=
  ⟨fun _ => "0.5", fun text =>
    if text = lanternText then some (fragment "reasoning.text" "lantern" lanternFields) else none⟩

def lanternDeltas : List ReasoningDelta :=
  [⟨some "a", none⟩, ⟨none, some (.array [fragment "reasoning.text" "lantern" lanternFields])⟩]

/-- A later part that repeats the index. -/
def lanternLater (text : String) : JsonObject :=
  [("id", .null), ("index", .number (.posInt 0)), ("text", .string text), ("type", .string "reasoning.text")]

/-- The text in three parts over two deltas. -/
def lanternParts : List ReasoningDelta :=
  [⟨some "a", none⟩, ⟨none, some (.array [fragment "reasoning.text" "lan" lanternFields])⟩,
    ⟨none, some (.array [.object (lanternLater "te"), .object (lanternLater "rn")])⟩]

theorem lanternLater_continues (text : String) :
    Continues lanternFields "reasoning.text" text (lanternLater text) := by
  refine ⟨rfl, rfl, fun key value hmem hkey hnull => ?_⟩
  simp only [lanternLater, List.mem_cons, List.not_mem_nil, or_false, Prod.mk.injEq] at hmem
  rcases hmem with ⟨rfl, rfl⟩ | ⟨rfl, rfl⟩ | ⟨rfl, rfl⟩ | ⟨rfl, rfl⟩
  · cases hnull
  · rfl
  · exact absurd rfl hkey
  · rfl

theorem refragmented_lantern : Refragmented lanternDeltas lanternParts := by
  have htext : "lantern" = "lan" ++ String.join ["te", "rn"] := by decide
  have hsplit : Parts (.detail (fragment "reasoning.text" "lantern" lanternFields))
      (.detail (fragment "reasoning.text" "lan" lanternFields) ::
        [lanternLater "te", lanternLater "rn"].map fun part => .detail (.object part)) := by
    rw [htext]
    exact .split (.inl rfl) rfl (.cons (lanternLater_continues _) (.cons (lanternLater_continues _) .nil))
  have hpieces := Refined.cons (.whole (.reasoning "a")) (Refined.cons hsplit .nil)
  refine ⟨hpieces, fun delta hdelta value hvalue => ?_, rfl⟩
  simp only [lanternParts, List.mem_cons, List.not_mem_nil, or_false] at hdelta
  rcases hdelta with rfl | rfl | rfl
  · cases hvalue
  · exact ⟨_, (Option.some.inj hvalue).symm, by decide⟩
  · exact ⟨_, (Option.some.inj hvalue).symm, by decide⟩

theorem exists_lanternRun : ∃ after, (session lanternLibrary true lanternDeltas false).run .empty =
    (.ok [⟨some "a", some [⟨lanternText⟩]⟩], after) := by
  have hrun : ((session lanternLibrary true lanternDeltas false).run .empty).1.toOption =
      some [⟨some "a", some [⟨lanternText⟩]⟩] := by decide +kernel
  generalize (session lanternLibrary true lanternDeltas false).run .empty = run at hrun ⊢
  obtain ⟨result, after⟩ := run
  cases result with
  | error error => cases hrun
  | ok topologies => exact ⟨after, congrArg (fun topologies => (Except.ok topologies, after)) (Option.some.inj hrun)⟩

theorem session_refragmented_lantern :
    ((session lanternLibrary true lanternParts false).run .empty).1 =
      .ok [⟨some "a", some [⟨lanternText⟩]⟩] := by
  obtain ⟨after, hrun⟩ := exists_lanternRun
  rw [(session_refragmented true false lanternDeltas .empty).1 _ _ _ refragmented_lantern hrun]

end OpenRouterReasoning

end LorePia
