import LorePia.Providers.RequestPlan

/-!
# What request previews show

One call of `request_body_shape` takes from the budget one node for each node of its shape, stays above the
depth limit, and marks the budget exactly when its shape carries a mark (`ShapeSpec`); a shape without marks is
the whole outline of the value (`outline`). Bodies of one structure have one shape under every budget
(`requestBodyShape_congr`), since a redacted field costs one node whatever it holds.
-/

namespace LorePia.RequestPlan

open Base Discovery Credentials

variable {lib : PreviewLibrary}

/-! ## Nodes of a shape -/

mutual
/-- The nodes of a shape in preorder, each with its depth. -/
def RequestBodyShape.nodes (depth : Nat) : RequestBodyShape → List (Nat × RequestBodyShape)
  | .array items cut => (depth, .array items cut) :: itemNodes (depth + 1) items
  | .object fields cut => (depth, .object fields cut) :: fieldNodes (depth + 1) fields
  | .null => [(depth, .null)]
  | .boolean => [(depth, .boolean)]
  | .number => [(depth, .number)]
  | .string => [(depth, .string)]
  | .redacted => [(depth, .redacted)]
  | .truncated => [(depth, .truncated)]

def itemNodes (depth : Nat) : List RequestBodyShape → List (Nat × RequestBodyShape)
  | [] => []
  | shape :: rest => shape.nodes depth ++ itemNodes depth rest

def fieldNodes (depth : Nat) : List RequestBodyField → List (Nat × RequestBodyShape)
  | [] => []
  | ⟨_, shape⟩ :: rest => shape.nodes depth ++ fieldNodes depth rest
end

/-- A node that marks a cut: `Truncated`, or an array or object marked truncated. -/
def RequestBodyShape.marked : RequestBodyShape → Bool
  | .truncated => true
  | .array _ cut | .object _ cut => cut
  | .null | .boolean | .number | .string | .redacted => false

/-- Some node marks a cut. -/
def anyMarked (nodes : List (Nat × RequestBodyShape)) : Bool := nodes.any fun node => node.2.marked

theorem anyMarked_append (a b : List (Nat × RequestBodyShape)) :
    anyMarked (a ++ b) = (anyMarked a || anyMarked b) := List.any_append

theorem anyMarked_cons (node : Nat × RequestBodyShape) (rest : List (Nat × RequestBodyShape)) :
    anyMarked (node :: rest) = (node.2.marked || anyMarked rest) := List.any_cons

mutual
/-- The whole shape of a value: one node for every node outside redacted fields, in order. -/
def outline (lib : PreviewLibrary) : Json → RequestBodyShape
  | .null => .null
  | .bool _ => .boolean
  | .number _ => .number
  | .string _ => .string
  | .array values => .array (outlineItems lib values) false
  | .object values => .object (outlineFields lib values) false

def outlineItems (lib : PreviewLibrary) : List Json → List RequestBodyShape
  | [] => []
  | value :: rest => outline lib value :: outlineItems lib rest

def outlineFields (lib : PreviewLibrary) : List (String × Json) → List RequestBodyField
  | [] => []
  | (name, value) :: rest =>
    ⟨safeBodyFieldName lib name, if bodyFieldRequiresRedaction name then .redacted else outline lib value⟩ ::
      outlineFields lib rest
end

/-- The whole shape of a value in a field. -/
def outlineIn (lib : PreviewLibrary) (fieldName : Option String) (value : Json) : RequestBodyShape :=
  if fieldName.any bodyFieldRequiresRedaction then .redacted else outline lib value

/-! ## One walk -/

/-- What one call does to the budget and shows of its value. -/
structure ShapeSpec (lib : PreviewLibrary) (fieldName : Option String) (value : Json) (depth : Nat)
    (before : BodyShapeBudget) (result : RequestBodyShape × BodyShapeBudget) : Prop where
  count : (result.1.nodes depth).length + result.2.remainingNodes = before.remainingNodes
  shallow : ∀ node ∈ result.1.nodes depth, node.1 ≤ maxPreviewBodyDepth
  truncated : result.2.truncated = (before.truncated || anyMarked (result.1.nodes depth))
  whole : anyMarked (result.1.nodes depth) = false → result.1 = outlineIn lib fieldName value

/-- What the loop over the items does. -/
structure ItemsSpec (lib : PreviewLibrary) (values : List Json) (depth : Nat) (before : BodyShapeBudget)
    (result : List RequestBodyShape × BodyShapeBudget) : Prop where
  count : (itemNodes depth result.1).length + result.2.remainingNodes = before.remainingNodes
  shallow : ∀ node ∈ itemNodes depth result.1, node.1 ≤ maxPreviewBodyDepth
  length_le : result.1.length ≤ values.length
  truncated : (result.2.truncated || decide (result.1.length < values.length)) =
    (before.truncated || anyMarked (itemNodes depth result.1) || decide (result.1.length < values.length))
  whole : anyMarked (itemNodes depth result.1) = false → result.1.length = values.length →
    result.1 = outlineItems lib values

/-- What the loop over the fields does. -/
structure FieldsSpec (lib : PreviewLibrary) (values : List (String × Json)) (depth : Nat)
    (before : BodyShapeBudget) (result : List RequestBodyField × BodyShapeBudget) : Prop where
  count : (fieldNodes depth result.1).length + result.2.remainingNodes = before.remainingNodes
  shallow : ∀ node ∈ fieldNodes depth result.1, node.1 ≤ maxPreviewBodyDepth
  length_le : result.1.length ≤ values.length
  truncated : (result.2.truncated || decide (result.1.length < values.length)) =
    (before.truncated || anyMarked (fieldNodes depth result.1) || decide (result.1.length < values.length))
  whole : anyMarked (fieldNodes depth result.1) = false → result.1.length = values.length →
    result.1 = outlineFields lib values

/-- A leaf takes one node. -/
theorem ShapeSpec.leaf {fieldName : Option String} {value : Json} {depth : Nat} {before : BodyShapeBudget}
    {shape : RequestBodyShape} (hpos : 0 < before.remainingNodes) (hdepth : depth ≤ maxPreviewBodyDepth)
    (hnodes : shape.nodes depth = [(depth, shape)])
    (hwhole : shape.marked = false → shape = outlineIn lib fieldName value) :
    ShapeSpec lib fieldName value depth before
      (shape, ⟨before.remainingNodes - 1, before.truncated || shape.marked⟩) where
  count := by
    rw [hnodes, List.length_singleton]
    exact Nat.add_sub_of_le hpos
  shallow node hmem := by
    rw [hnodes, List.mem_singleton] at hmem
    rw [hmem]
    exact hdepth
  truncated := by rw [hnodes, anyMarked_cons]; simp [anyMarked]
  whole h := by
    rw [hnodes, anyMarked_cons] at h
    exact hwhole (Bool.or_eq_false_iff.1 h).1

@[simp] theorem BodyShapeBudget.markTruncatedIf_false (budget : BodyShapeBudget) :
    budget.markTruncatedIf false = budget := by
  rw [markTruncatedIf, Bool.or_false]

/-- The loop that stops before an item leaves it out. -/
theorem ItemsSpec.stop (lib : PreviewLibrary) (values : List Json) (condition : Bool) {depth : Nat}
    {before : BodyShapeBudget} (hcondition : condition = true → values ≠ []) :
    ItemsSpec lib values depth before ([], before.markTruncatedIf condition) where
  count := Nat.zero_add _
  shallow _ hmem := absurd hmem List.not_mem_nil
  length_le := Nat.zero_le _
  truncated := by
    cases values with
    | nil =>
      cases condition with
      | false => simp [BodyShapeBudget.markTruncatedIf, itemNodes, anyMarked]
      | true => exact absurd rfl (hcondition rfl)
    | cons value rest => simp
  whole _ hlength := by
    rw [List.eq_nil_of_length_eq_zero hlength.symm]
    rfl

theorem FieldsSpec.stop (lib : PreviewLibrary) (values : List (String × Json)) (condition : Bool) {depth : Nat}
    {before : BodyShapeBudget} (hcondition : condition = true → values ≠ []) :
    FieldsSpec lib values depth before ([], before.markTruncatedIf condition) where
  count := Nat.zero_add _
  shallow _ hmem := absurd hmem List.not_mem_nil
  length_le := Nat.zero_le _
  truncated := by
    cases values with
    | nil =>
      cases condition with
      | false => simp [BodyShapeBudget.markTruncatedIf, fieldNodes, anyMarked]
      | true => exact absurd rfl (hcondition rfl)
    | cons value rest => simp
  whole _ hlength := by
    rw [List.eq_nil_of_length_eq_zero hlength.symm]
    rfl

theorem ItemsSpec.cons {value : Json} {rest : List Json} {depth : Nat} {before : BodyShapeBudget}
    {first : RequestBodyShape × BodyShapeBudget} {others : List RequestBodyShape × BodyShapeBudget}
    (hfirst : ShapeSpec lib none value depth before first) (hothers : ItemsSpec lib rest depth first.2 others) :
    ItemsSpec lib (value :: rest) depth before (first.1 :: others.1, others.2) where
  count := by
    rw [itemNodes, List.length_append, Nat.add_assoc, hothers.count, hfirst.count]
  shallow node hmem := by
    rw [itemNodes] at hmem
    exact (List.mem_append.1 hmem).elim (hfirst.shallow node) (hothers.shallow node)
  length_le := Nat.succ_le_succ hothers.length_le
  truncated := by
    have htruncated := hothers.truncated
    rw [hfirst.truncated] at htruncated
    simp only [List.length_cons, Nat.add_lt_add_iff_right]
    rw [itemNodes, anyMarked_append, htruncated, Bool.or_assoc before.truncated]
  whole h hlength := by
    rw [itemNodes, anyMarked_append, Bool.or_eq_false_iff] at h
    rw [outlineItems, hothers.whole h.2 (Nat.succ.inj hlength), hfirst.whole h.1]
    rfl

theorem FieldsSpec.cons {name : String} {value : Json} {rest : List (String × Json)} {depth : Nat}
    {before : BodyShapeBudget} {first : RequestBodyShape × BodyShapeBudget}
    {others : List RequestBodyField × BodyShapeBudget}
    (hfirst : ShapeSpec lib (some name) value depth before first)
    (hothers : FieldsSpec lib rest depth first.2 others) :
    FieldsSpec lib ((name, value) :: rest) depth before
      (⟨safeBodyFieldName lib name, first.1⟩ :: others.1, others.2) where
  count := by
    rw [fieldNodes, List.length_append, Nat.add_assoc, hothers.count, hfirst.count]
  shallow node hmem := by
    rw [fieldNodes] at hmem
    exact (List.mem_append.1 hmem).elim (hfirst.shallow node) (hothers.shallow node)
  length_le := Nat.succ_le_succ hothers.length_le
  truncated := by
    have htruncated := hothers.truncated
    rw [hfirst.truncated] at htruncated
    simp only [List.length_cons, Nat.add_lt_add_iff_right]
    rw [fieldNodes, anyMarked_append, htruncated, Bool.or_assoc before.truncated]
  whole h hlength := by
    rw [fieldNodes, anyMarked_append, Bool.or_eq_false_iff] at h
    rw [hothers.whole h.2 (Nat.succ.inj hlength), hfirst.whole h.1, outlineIn, Option.any_some, outlineFields]

/-- An array around its items. -/
theorem ShapeSpec.array {fieldName : Option String} {values : List Json} {depth : Nat} {before : BodyShapeBudget}
    {items : List RequestBodyShape × BodyShapeBudget} (hpos : 0 < before.remainingNodes)
    (hdepth : depth ≤ maxPreviewBodyDepth) (hvisible : fieldName.any bodyFieldRequiresRedaction = false)
    (hitems : ItemsSpec lib values (depth + 1) ⟨before.remainingNodes - 1, before.truncated⟩ items) :
    ShapeSpec lib fieldName (.array values) depth before
      (.array items.1 (items.1.length < values.length),
        items.2.markTruncatedIf (items.1.length < values.length)) where
  count := by
    have hcount := hitems.count
    rw [RequestBodyShape.nodes, List.length_cons, BodyShapeBudget.markTruncatedIf]
    dsimp only at hcount ⊢
    omega
  shallow node hmem := by
    rw [RequestBodyShape.nodes] at hmem
    rcases List.mem_cons.1 hmem with rfl | hmem
    · exact hdepth
    · exact hitems.shallow node hmem
  truncated := by
    rw [RequestBodyShape.nodes, anyMarked_cons, BodyShapeBudget.markTruncatedIf, hitems.truncated,
      RequestBodyShape.marked, Bool.or_assoc, Bool.or_comm (anyMarked _)]
  whole h := by
    rw [RequestBodyShape.nodes, anyMarked_cons, Bool.or_eq_false_iff] at h
    have hlength := hitems.length_le
    have hnot : ¬ items.1.length < values.length := of_decide_eq_false h.1
    rw [outlineIn, hvisible, outline, ← hitems.whole h.2 (by omega), decide_eq_false hnot]
    rfl

/-- An object around its fields. -/
theorem ShapeSpec.object {fieldName : Option String} {values : List (String × Json)} {depth : Nat}
    {before : BodyShapeBudget} {fields : List RequestBodyField × BodyShapeBudget}
    (hpos : 0 < before.remainingNodes) (hdepth : depth ≤ maxPreviewBodyDepth)
    (hvisible : fieldName.any bodyFieldRequiresRedaction = false)
    (hfields : FieldsSpec lib values (depth + 1) ⟨before.remainingNodes - 1, before.truncated⟩ fields) :
    ShapeSpec lib fieldName (.object values) depth before
      (.object fields.1 (fields.1.length < values.length),
        fields.2.markTruncatedIf (fields.1.length < values.length)) where
  count := by
    have hcount := hfields.count
    rw [RequestBodyShape.nodes, List.length_cons, BodyShapeBudget.markTruncatedIf]
    dsimp only at hcount ⊢
    omega
  shallow node hmem := by
    rw [RequestBodyShape.nodes] at hmem
    rcases List.mem_cons.1 hmem with rfl | hmem
    · exact hdepth
    · exact hfields.shallow node hmem
  truncated := by
    rw [RequestBodyShape.nodes, anyMarked_cons, BodyShapeBudget.markTruncatedIf, hfields.truncated,
      RequestBodyShape.marked, Bool.or_assoc, Bool.or_comm (anyMarked _)]
  whole h := by
    rw [RequestBodyShape.nodes, anyMarked_cons, Bool.or_eq_false_iff] at h
    have hlength := hfields.length_le
    have hnot : ¬ fields.1.length < values.length := of_decide_eq_false h.1
    rw [outlineIn, hvisible, outline, ← hfields.whole h.2 (by omega), decide_eq_false hnot]
    rfl

mutual
theorem requestBodyShape_spec : ∀ (value : Json) (fieldName : Option String) {depth : Nat}
    {budget : BodyShapeBudget}, 0 < budget.remainingNodes → depth ≤ maxPreviewBodyDepth →
    ShapeSpec lib fieldName value depth budget (requestBodyShape lib value fieldName depth budget)
  | value, fieldName, depth, budget, hpos, hdepth => by
    have hne : budget.remainingNodes ≠ 0 := Nat.pos_iff_ne_zero.1 hpos
    unfold requestBodyShape
    simp only [BodyShapeBudget.consume, if_neg hne, Bool.not_true, Bool.false_eq_true, if_false]
    by_cases hredacted : fieldName.any bodyFieldRequiresRedaction = true
    · rw [if_pos hredacted, ← Bool.or_false budget.truncated]
      exact .leaf hpos hdepth rfl fun _ => by rw [outlineIn, if_pos hredacted]
    · have hvisible := Bool.eq_false_iff.2 hredacted
      rw [if_neg hredacted]
      by_cases hdeep : depth ≥ maxPreviewBodyDepth
      · rw [if_pos hdeep]
        exact .leaf hpos hdepth rfl fun h => absurd h Bool.noConfusion
      · rw [if_neg hdeep]
        match value with
        | .null | .bool _ | .number _ | .string _ =>
          dsimp only
          rw [← Bool.or_false budget.truncated]
          exact .leaf hpos hdepth rfl fun _ => by rw [outlineIn, if_neg hredacted, outline]
        | .array values => exact .array hpos hdepth hvisible (requestBodyItems_spec values _ (by omega))
        | .object values => exact .object hpos hdepth hvisible (requestBodyFields_spec values _ (by omega))

theorem requestBodyItems_spec : ∀ (values : List Json) (left : Nat) {depth : Nat}
    {budget : BodyShapeBudget}, depth ≤ maxPreviewBodyDepth →
    ItemsSpec lib values depth budget (requestBodyItems lib values left depth budget)
  | [], left, depth, budget, hdepth => by
    rw [requestBodyItems]
    simpa only [BodyShapeBudget.markTruncatedIf_false] using
      ItemsSpec.stop lib _ false (absurd · Bool.false_ne_true)
  | value :: rest, 0, depth, budget, hdepth => by
    rw [requestBodyItems]
    simpa only [BodyShapeBudget.markTruncatedIf_false] using
      ItemsSpec.stop lib _ false (absurd · Bool.false_ne_true)
  | value :: rest, left + 1, depth, budget, hdepth => by
    rw [requestBodyItems]
    by_cases hempty : budget.remainingNodes = 0
    · rw [if_pos hempty]
      exact .stop _ _ true fun _ => List.cons_ne_nil _ _
    · rw [if_neg hempty]
      exact .cons (requestBodyShape_spec value none (Nat.pos_of_ne_zero hempty) hdepth)
        (requestBodyItems_spec rest left hdepth)

theorem requestBodyFields_spec : ∀ (values : List (String × Json)) (left : Nat) {depth : Nat}
    {budget : BodyShapeBudget}, depth ≤ maxPreviewBodyDepth →
    FieldsSpec lib values depth budget (requestBodyFields lib values left depth budget)
  | [], left, depth, budget, hdepth => by
    rw [requestBodyFields]
    simpa only [BodyShapeBudget.markTruncatedIf_false] using
      FieldsSpec.stop lib _ false (absurd · Bool.false_ne_true)
  | value :: rest, 0, depth, budget, hdepth => by
    rw [requestBodyFields]
    simpa only [BodyShapeBudget.markTruncatedIf_false] using
      FieldsSpec.stop lib _ false (absurd · Bool.false_ne_true)
  | (name, value) :: rest, left + 1, depth, budget, hdepth => by
    rw [requestBodyFields]
    by_cases hempty : budget.remainingNodes = 0
    · rw [if_pos hempty]
      exact .stop _ _ true fun _ => List.cons_ne_nil _ _
    · rw [if_neg hempty]
      exact .cons (requestBodyShape_spec value (some name) (Nat.pos_of_ne_zero hempty) hdepth)
        (requestBodyFields_spec rest left hdepth)
end

/-! ## Bodies of one structure -/

mutual
/-- The same nesting, field names and kinds, outside redacted fields. -/
def sameStructure : Json → Json → Bool
  | .null, .null | .bool _, .bool _ | .number _, .number _ | .string _, .string _ => true
  | .array values, .array values' => sameItems values values'
  | .object values, .object values' => sameFields values values'
  | _, _ => false

def sameItems : List Json → List Json → Bool
  | [], [] => true
  | value :: rest, value' :: rest' => sameStructure value value' && sameItems rest rest'
  | _, _ => false

def sameFields : List (String × Json) → List (String × Json) → Bool
  | [], [] => true
  | (name, value) :: rest, (name', value') :: rest' =>
    name = name' && (bodyFieldRequiresRedaction name || sameStructure value value') && sameFields rest rest'
  | _, _ => false
end

theorem sameItems_length : ∀ {values values' : List Json}, sameItems values values' = true →
    values.length = values'.length
  | [], [], _ => rfl
  | _ :: _, _ :: _, h => by
    rw [sameItems, Bool.and_eq_true] at h
    rw [List.length_cons, List.length_cons, sameItems_length h.2]
  | [], _ :: _, h | _ :: _, [], h => nomatch h

theorem sameFields_length : ∀ {values values' : List (String × Json)}, sameFields values values' = true →
    values.length = values'.length
  | [], [], _ => rfl
  | _ :: _, _ :: _, h => by
    rw [sameFields, Bool.and_eq_true] at h
    rw [List.length_cons, List.length_cons, sameFields_length h.2]
  | [], _ :: _, h | _ :: _, [], h => nomatch h

/-- A redacted field has one shape whatever it holds. -/
theorem requestBodyShape_redacted {fieldName : Option String}
    (hredacted : fieldName.any bodyFieldRequiresRedaction = true) (value value' : Json) (depth : Nat)
    (budget : BodyShapeBudget) :
    requestBodyShape lib value fieldName depth budget = requestBodyShape lib value' fieldName depth budget := by
  unfold requestBodyShape
  simp only [hredacted, if_true]

mutual
/-- Bodies of one structure have one shape and take the same budget. -/
theorem requestBodyShape_congr : ∀ {value value' : Json}, sameStructure value value' = true →
    ∀ (fieldName : Option String) (depth : Nat) (budget : BodyShapeBudget),
      requestBodyShape lib value fieldName depth budget = requestBodyShape lib value' fieldName depth budget
  | .null, .null, _, _, _, _ => rfl
  | .bool _, .bool _, _, _, _, _ => by
    unfold requestBodyShape
    rfl
  | .number _, .number _, _, _, _, _ => by
    unfold requestBodyShape
    rfl
  | .string _, .string _, _, _, _, _ => by
    unfold requestBodyShape
    rfl
  | .array values, .array values', h, _, depth, budget => by
    have hitems := requestBodyItems_congr h
    unfold requestBodyShape
    simp only [hitems, sameItems_length h]
  | .object values, .object values', h, _, depth, budget => by
    have hfields := requestBodyFields_congr h
    unfold requestBodyShape
    simp only [hfields, sameFields_length h]

theorem requestBodyItems_congr : ∀ {values values' : List Json}, sameItems values values' = true →
    ∀ (left depth : Nat) (budget : BodyShapeBudget),
      requestBodyItems lib values left depth budget = requestBodyItems lib values' left depth budget
  | [], [], _, _, _, _ => rfl
  | _ :: _, _ :: _, _, 0, _, _ => by rw [requestBodyItems, requestBodyItems]
  | value :: rest, value' :: rest', h, left + 1, depth, budget => by
    rw [sameItems, Bool.and_eq_true] at h
    obtain ⟨hvalue, hrest⟩ := h
    rw [requestBodyItems, requestBodyItems, requestBodyShape_congr hvalue]
    simp only [requestBodyItems_congr hrest]

theorem requestBodyFields_congr : ∀ {values values' : List (String × Json)},
    sameFields values values' = true → ∀ (left depth : Nat) (budget : BodyShapeBudget),
      requestBodyFields lib values left depth budget = requestBodyFields lib values' left depth budget
  | [], [], _, _, _, _ => rfl
  | _ :: _, _ :: _, _, 0, _, _ => by rw [requestBodyFields, requestBodyFields]
  | (name, value) :: rest, (name', value') :: rest', h, left + 1, depth, budget => by
    simp only [sameFields, Bool.and_eq_true, Bool.or_eq_true, decide_eq_true_eq] at h
    obtain ⟨⟨rfl, hvalue⟩, hrest⟩ := h
    -- a redacted field hides what differs below it
    have hshape : requestBodyShape lib value (some name) depth budget =
        requestBodyShape lib value' (some name) depth budget := by
      rcases hvalue with hredacted | hsame
      · have hany : (some name).any bodyFieldRequiresRedaction = true := by
          rw [Option.any_some]
          exact hredacted
        exact requestBodyShape_redacted hany _ _ _ _
      · exact requestBodyShape_congr hsame _ _ _
    rw [requestBodyFields, requestBodyFields, hshape]
    simp only [requestBodyFields_congr hrest]
end

/-! ## Query parameters -/

/-- The decoded names of the parameters of a query. -/
def queryNames (query : Option String) : List (Option String) := (queryParameters query).map queryName

/-- The names are decoded in order. -/
theorem previewQueryNames_eq_ok : ∀ {parameters : List (List Char)} {names all : List String},
    previewQueryNames lib names parameters = .ok all →
      ∃ decoded, parameters.map queryName = decoded.map some ∧ all = names ++ decoded
  | [], names, all, h => by
    cases h
    exact ⟨[], rfl, (List.append_nil _).symm⟩
  | parameter :: rest, names, all, h => by
    obtain ⟨-, h⟩ := seq_eq_ok.1 h
    obtain ⟨-, h⟩ := seq_eq_ok.1 h
    obtain ⟨name, hname, h⟩ := bind_eq_ok.1 h
    obtain ⟨-, h⟩ := seq_eq_ok.1 h
    obtain ⟨decoded, hdecoded, rfl⟩ := previewQueryNames_eq_ok h
    refine ⟨name :: decoded, ?_, by rw [List.append_assoc, List.singleton_append]⟩
    rw [List.map_cons, List.map_cons, okOr_eq_ok.1 hname, hdecoded]

/-- The names of a preview are the decoded names, sorted, each once. -/
theorem previewQueryParameterNames_eq_ok {destination : ParsedUrl} {names : List String}
    (h : previewQueryParameterNames lib destination = .ok names) :
    ∃ decoded, queryNames destination.query = decoded.map some ∧ names = sortDedup decoded := by
  obtain ⟨-, h⟩ := seq_eq_ok.1 h
  obtain ⟨all, hall, h⟩ := bind_eq_ok.1 h
  obtain ⟨decoded, hdecoded, hall⟩ := previewQueryNames_eq_ok hall
  cases h
  exact ⟨decoded, hdecoded, by rw [hall, List.nil_append]⟩

theorem previewHeaderNames_eq_ok {headerNames names : List HeaderName}
    (h : previewHeaderNames lib headerNames = .ok names) : names = sortDedup headerNames := by
  obtain ⟨-, h⟩ := seq_eq_ok.1 h
  obtain ⟨-, h⟩ := seq_eq_ok.1 h
  cases h
  rfl

/-! ## Previews -/

/-- Both requests have no body, or bodies of one structure. -/
def sameBody : Option Json → Option Json → Bool
  | none, none => true
  | some value, some value' => sameStructure value value'
  | _, _ => false

/-- Two requests that agree on all but values: queries are compared by the set of their decoded names. -/
structure SameNames (first second : PreviewRequest) : Prop where
  method : first.method = second.method
  origin : first.destination.origin = second.destination.origin
  path : first.destination.path = second.destination.path
  queryNames : ∀ name, name ∈ queryNames first.destination.query ↔ name ∈ queryNames second.destination.query
  headerNames : ∀ name, name ∈ first.headerNames ↔ name ∈ second.headerNames
  body : sameBody first.body second.body = true

theorem previewBody_congr : ∀ {body body' : Option Json}, sameBody body body' = true →
    previewBody lib body = previewBody lib body'
  | none, none, _ => rfl
  | some _, some _, h => by
    rw [previewBody, previewBody, requestBodyShape_congr h]
  | none, some _, h | some _, none, h => nomatch h

theorem previewOrigin_eq_ok {destination : ParsedUrl} {origin : Discovery.CanonicalOrigin}
    (h : previewOrigin lib destination = .ok origin) :
    Discovery.CanonicalOrigin.parse lib.toDiscoveryLibrary destination.origin = .ok origin := by
  obtain ⟨-, h⟩ := seq_eq_ok.1 h
  obtain ⟨-, h⟩ := seq_eq_ok.1 h
  obtain ⟨-, h⟩ := seq_eq_ok.1 h
  obtain ⟨-, h⟩ := seq_eq_ok.1 h
  exact mapErr_eq_ok.1 h

/-- What a preview is made of. -/
theorem buildRequestPreview_eq_ok {request : PreviewRequest} {preview : RequestPreview}
    (h : buildRequestPreview lib request = .ok preview) :
    preview.method = request.method ∧
      Discovery.CanonicalOrigin.parse lib.toDiscoveryLibrary request.destination.origin = .ok preview.origin ∧
      previewPath lib request.destination = .ok preview.path ∧
      previewQueryParameterNames lib request.destination = .ok preview.queryParameterNames ∧
      preview.headerNames = sortDedup request.headerNames ∧
      preview.body = (previewBody lib request.body).1 ∧
      preview.bodyTruncated = (previewBody lib request.body).2.truncated := by
  obtain ⟨origin, horigin, h⟩ := bind_eq_ok.1 h
  obtain ⟨path, hpath, h⟩ := bind_eq_ok.1 h
  obtain ⟨names, hnames, h⟩ := bind_eq_ok.1 h
  obtain ⟨headers, hheaders, h⟩ := bind_eq_ok.1 h
  cases h
  exact ⟨rfl, previewOrigin_eq_ok horigin, hpath, hnames, previewHeaderNames_eq_ok hheaders, rfl, rfl⟩

theorem previewPath_congr {first second : ParsedUrl} (h : first.path = second.path) :
    previewPath lib first = previewPath lib second := by
  rw [previewPath, previewPath, h]

theorem sameNames_preview {first second : PreviewRequest} {preview preview' : RequestPreview}
    (hsame : SameNames first second) (hfirst : buildRequestPreview lib first = .ok preview)
    (hsecond : buildRequestPreview lib second = .ok preview') : preview = preview' := by
  obtain ⟨hmethod, horigin, hpath, hquery, hheaders, hbody, htruncated⟩ := buildRequestPreview_eq_ok hfirst
  obtain ⟨hmethod', horigin', hpath', hquery', hheaders', hbody', htruncated'⟩ :=
    buildRequestPreview_eq_ok hsecond
  obtain ⟨method, origin, path, query, headers, body, truncated⟩ := preview
  obtain ⟨method', origin', path', query', headers', body', truncated'⟩ := preview'
  dsimp only at *
  have hnames : query = query' := by
    obtain ⟨decoded, hdecoded, rfl⟩ := previewQueryParameterNames_eq_ok hquery
    obtain ⟨decoded', hdecoded', rfl⟩ := previewQueryParameterNames_eq_ok hquery'
    refine sortDedup_eq_iff.2 fun name => ?_
    have hname := hsame.queryNames (some name)
    rw [hdecoded, hdecoded', List.mem_map_of_injective (Option.some_injective _),
      List.mem_map_of_injective (Option.some_injective _)] at hname
    exact hname
  rw [hsame.origin, horigin'] at horigin
  rw [previewPath_congr hsame.path, hpath'] at hpath
  rw [previewBody_congr hsame.body] at hbody htruncated
  cases horigin
  cases hpath
  rw [hmethod, hmethod', hsame.method, hnames, hheaders, hheaders', sortDedup_eq_iff.2 hsame.headerNames,
    hbody, hbody', htruncated, htruncated']

/-- Previews are independent of values and honest about what they leave out. -/
theorem buildRequestPreview_independent (lib : PreviewLibrary) :
    (∀ {first second : PreviewRequest} {preview preview' : RequestPreview}, SameNames first second →
      buildRequestPreview lib first = .ok preview → buildRequestPreview lib second = .ok preview' →
        preview = preview') ∧
    ∀ {request : PreviewRequest} {preview : RequestPreview} {body : Json},
      buildRequestPreview lib request = .ok preview → request.body = some body →
        ∃ shape, preview.body = some shape ∧ (shape.nodes 0).length ≤ 256 ∧
          (∀ node ∈ shape.nodes 0, node.1 ≤ 16) ∧
          (preview.bodyTruncated = true ↔ ∃ node ∈ shape.nodes 0, node.2.marked = true) ∧
          (preview.bodyTruncated = false → shape = outline lib body) := by
  refine ⟨sameNames_preview, fun {request preview body} h hbody => ?_⟩
  obtain ⟨-, -, -, -, -, hshape, htruncated⟩ := buildRequestPreview_eq_ok h
  rw [hbody] at hshape htruncated
  have hspec : ShapeSpec lib none body 0 .new (requestBodyShape lib body none 0 .new) :=
    requestBodyShape_spec body none (by decide) (Nat.zero_le _)
  have hcount := hspec.count
  have hmarked := hspec.truncated
  rw [show BodyShapeBudget.new.truncated = false from rfl, Bool.false_or] at hmarked
  rw [show preview.bodyTruncated = _ from htruncated.trans hmarked]
  refine ⟨_, hshape, ?_, hspec.shallow, List.any_eq_true, hspec.whole⟩
  exact Nat.le.intro hcount

/-! ## Two requests of one chat -/

/-- A library that knows one URL. Its texts have no token long enough for the entropy test. -/
def tideLibrary : PreviewLibrary where
  parseUrl text :=
    if text = "https://tide.example" then
      .ok ⟨"https", some "tide.example", "", none, "/", none, none, "https://tide.example"⟩
    else .error "relative URL without a base"
  debugText text := "\"" ++ text ++ "\""
  highEntropy _ := false

theorem contentType_token : "content-type" ≠ "" ∧ "content-type".toList.all isHeaderNameByte = true := by decide

/-- A chat request to `https://tide.example/v1/chat`. -/
def tideRequest (query : String) (fragment : Option String) (messages : Json) (model : String) : PreviewRequest where
  method := .post
  destination := ⟨"https", some "tide.example", "", none, "/v1/chat", some query, fragment, "https://tide.example"⟩
  headerNames := [⟨"content-type", contentType_token⟩]
  body := some (.object [("messages", messages), ("model", .string model), ("stop", .array [.null, .bool true])])

def firstTideRequest : PreviewRequest :=
  tideRequest "version=1&trace=a" (some "top") (.array [.string "Hello"]) "tide-1"

def secondTideRequest : PreviewRequest :=
  tideRequest "trace=b&version=2&trace=c" none .null "tide-2"

theorem tideRequests_same : SameNames firstTideRequest secondTideRequest where
  method := rfl
  origin := rfl
  path := rfl
  queryNames name := by
    have hfirst : queryNames firstTideRequest.destination.query = [some "version", some "trace"] := by
      decide +kernel
    have hsecond : queryNames secondTideRequest.destination.query =
        [some "trace", some "version", some "trace"] := by decide +kernel
    rw [hfirst, hsecond]
    simp only [List.mem_cons, List.not_mem_nil, or_false]
    tauto
  headerNames _ := Iff.rfl
  body := by decide +kernel

theorem buildRequestPreview_independent_tide : ∃ preview,
    buildRequestPreview tideLibrary firstTideRequest = .ok preview ∧
      buildRequestPreview tideLibrary secondTideRequest = .ok preview ∧
      ∃ shape, preview.body = some shape ∧ (shape.nodes 0).length ≤ 256 ∧
        (∀ node ∈ shape.nodes 0, node.1 ≤ 16) ∧
        (preview.bodyTruncated = true ↔ ∃ node ∈ shape.nodes 0, node.2.marked = true) ∧
        (preview.bodyTruncated = false → shape = outline tideLibrary
          (.object [("messages", .array [.string "Hello"]), ("model", .string "tide-1"),
            ("stop", .array [.null, .bool true])])) := by
  obtain ⟨preview, hfirst⟩ := exists_ok (x := buildRequestPreview tideLibrary firstTideRequest)
    (by decide +kernel)
  obtain ⟨preview', hsecond⟩ := exists_ok (x := buildRequestPreview tideLibrary secondTideRequest)
    (by decide +kernel)
  have hsame := (buildRequestPreview_independent tideLibrary).1 tideRequests_same hfirst hsecond
  exact ⟨preview, hfirst, hsame ▸ hsecond, (buildRequestPreview_independent tideLibrary).2 hfirst rfl⟩

end LorePia.RequestPlan
