import LorePia.Base.Run

/-!
# Executions with their labels

An execution of a labelled transition system is written down as its trace, the labels of its steps in
order. An invariant may speak of the trace so far (`Execution.inv`); what a step says of the state before it
holds at every label of a trace (`Execution.at_label`), and what holds after a label may be carried to
the end (`Execution.since`). Where a step may be taken in several smaller ones, so may an execution with
the labels of its trace replaced (`Execution.refined`).

`Outstanding emits clears trace` says that something was emitted that no later label has cleared. Where
every emission finds nothing outstanding, or is a clearing itself, two emissions have a clearing between
them (`clears_between`).
-/

namespace Base

variable {σ ℓ : Type}

/-- The executions from `start` with their traces. -/
inductive Execution (step : σ → ℓ → σ → Prop) (start : σ) : List ℓ → σ → Prop
  | nil : Execution step start [] start
  | snoc {trace : List ℓ} {s t : σ} {l : ℓ} :
    Execution step start trace s → step s l t → Execution step start (trace ++ [l]) t

section
variable {step : σ → ℓ → σ → Prop} {start s t : σ} {trace : List ℓ}

theorem Execution.inv {I : List ℓ → σ → Prop} (hstart : I [] start)
    (hstep : ∀ trace s l t, I trace s → step s l t → I (trace ++ [l]) t)
    (h : Execution step start trace s) : I trace s := by
  induction h with
  | nil => exact hstart
  | snoc _ hlast ih => exact hstep _ _ _ _ ih hlast

/-- The execution up to a label, the step of the label and the execution after it. -/
theorem Execution.split {before after : List ℓ} {l : ℓ} (h : Execution step start trace s)
    (htrace : trace = before ++ l :: after) :
    ∃ s₁ s₂, Execution step start before s₁ ∧ step s₁ l s₂ ∧ Execution step s₂ after s := by
  induction h generalizing after with
  | nil => cases before <;> cases htrace
  | @snoc trace s t last hrun hlast ih =>
    obtain rfl | ⟨rest, last', rfl⟩ := after.eq_nil_or_concat
    · obtain ⟨rfl, hl⟩ := List.append_inj' htrace rfl
      cases hl
      exact ⟨s, t, hrun, hlast, .nil⟩
    · have hsnoc : before ++ l :: (rest.concat last') = (before ++ l :: rest) ++ [last'] := by
        rw [List.concat_eq_append, List.append_assoc, List.cons_append]
      rw [hsnoc] at htrace
      obtain ⟨rfl, hl⟩ := List.append_inj' htrace rfl
      cases hl
      obtain ⟨s₁, s₂, hbefore, hstep, hafter⟩ := ih rfl
      rw [List.concat_eq_append]
      exact ⟨s₁, s₂, hbefore, hstep, .snoc hafter hlast⟩

/-- A run may also be written from its first step on. -/
theorem Execution.cons {l : ℓ} {m : σ} (hfirst : step start l m) (h : Execution step m trace s) :
    Execution step start (l :: trace) s := by
  induction h with
  | nil => exact .snoc .nil hfirst
  | snoc _ hlast ih => exact .snoc ih hlast

theorem execution_nil : Execution step start [] s ↔ s = start := by
  constructor
  · intro h
    generalize htrace : ([] : List ℓ) = trace at h
    cases h with
    | nil => rfl
    | snoc _ _ => exact absurd htrace.symm (List.append_ne_nil_of_right_ne_nil _ (List.cons_ne_nil _ _))
  · rintro rfl
    exact .nil

theorem execution_cons {l : ℓ} :
    Execution step start (l :: trace) s ↔ ∃ m, step start l m ∧ Execution step m trace s := by
  constructor
  · intro h
    obtain ⟨s₁, s₂, hbefore, hlabel, hafter⟩ := h.split (List.nil_append _).symm
    rw [execution_nil.1 hbefore] at hlabel
    exact ⟨s₂, hlabel, hafter⟩
  · rintro ⟨m, hfirst, h⟩
    exact .cons hfirst h

theorem execution_append : ∀ {trace trace' : List ℓ} {start : σ}, Execution step start (trace ++ trace') s ↔
    ∃ m, Execution step start trace m ∧ Execution step m trace' s
  | [], trace', start => by
    constructor
    · exact fun h => ⟨start, .nil, h⟩
    · rintro ⟨m, h, h'⟩
      rwa [execution_nil.1 h] at h'
  | l :: trace, trace', start => by
    rw [List.cons_append, execution_cons]
    constructor
    · rintro ⟨next, hfirst, h⟩
      obtain ⟨m, hm, hrest⟩ := execution_append.1 h
      exact ⟨m, .cons hfirst hm, hrest⟩
    · rintro ⟨m, h, h'⟩
      obtain ⟨next, hfirst, hm⟩ := execution_cons.1 h
      exact ⟨next, hfirst, execution_append.2 ⟨m, hm, h'⟩⟩

/-- What an invariant gives at a step holds at every label of the trace. -/
theorem Execution.at_label {I : List ℓ → σ → Prop} (hstart : I [] start)
    (hstep : ∀ trace s l t, I trace s → step s l t → I (trace ++ [l]) t)
    (h : Execution step start trace s) {before after : List ℓ} {l : ℓ} (htrace : trace = before ++ l :: after) :
    ∃ s₁ s₂, I before s₁ ∧ step s₁ l s₂ ∧ Execution step s₂ after s := by
  obtain ⟨s₁, s₂, hbefore, hlabel, hafter⟩ := h.split htrace
  exact ⟨s₁, s₂, hbefore.inv hstart hstep, hlabel, hafter⟩

/-- What holds of a state and is kept, with what each step from it shows of its label. -/
theorem Execution.since {I : σ → Prop} {Q : ℓ → Prop} (hs : I start)
    (hstep : ∀ s l t, I s → step s l t → I t ∧ Q l) (h : Execution step start trace s) :
    I s ∧ ∀ l ∈ trace, Q l := by
  induction h with
  | nil => exact ⟨hs, fun l hl => absurd hl List.not_mem_nil⟩
  | snoc _ hlast ih =>
    obtain ⟨ht, hq⟩ := hstep _ _ _ ih.1 hlast
    refine ⟨ht, fun l hl => ?_⟩
    rw [List.mem_append, List.mem_singleton] at hl
    obtain hl | rfl := hl
    · exact ih.2 l hl
    · exact hq

end

/-! ## Smaller steps -/

/-- A trace with each label replaced by labels of its own. -/
inductive Refined (parts : ℓ → List ℓ → Prop) : List ℓ → List ℓ → Prop
  | nil : Refined parts [] []
  | cons {l : ℓ} {finer trace trace' : List ℓ} :
    parts l finer → Refined parts trace trace' → Refined parts (l :: trace) (finer ++ trace')

/-- **Smaller steps to the same state.** -/
theorem Execution.refined {step : σ → ℓ → σ → Prop} {parts : ℓ → List ℓ → Prop} {start s : σ}
    {trace trace' : List ℓ} (hparts : ∀ s l t finer, step s l t → parts l finer → Execution step s finer t)
    (hrefined : Refined parts trace trace') (h : Execution step start trace s) :
    Execution step start trace' s := by
  induction hrefined generalizing start with
  | nil => exact h
  | cons hl _ ih =>
    obtain ⟨m, hfirst, hrest⟩ := execution_cons.1 h
    exact execution_append.2 ⟨m, hparts _ _ _ _ hfirst hl, ih hrest⟩

/-! ## Emissions and clearings -/

section
variable {emits clears : ℓ → Prop} {trace : List ℓ}

/-- Something was emitted that no later label has cleared. -/
def Outstanding (emits clears : ℓ → Prop) (trace : List ℓ) : Prop :=
  ∃ before l after, trace = before ++ l :: after ∧ emits l ∧ ∀ x ∈ after, ¬ clears x

theorem not_outstanding_nil : ¬ Outstanding emits clears ([] : List ℓ) := by
  rintro ⟨before, l, after, htrace, -⟩
  cases before <;> cases htrace

/-- One more label that emits nothing. -/
theorem outstanding_concat {l : ℓ} (hemits : ¬ emits l) (h : Outstanding emits clears (trace ++ [l])) :
    Outstanding emits clears trace ∧ ¬ clears l := by
  obtain ⟨before, e, after, htrace, he, hafter⟩ := h
  obtain rfl | ⟨rest, last, rfl⟩ := after.eq_nil_or_concat
  · obtain ⟨-, hl⟩ := List.append_inj' htrace rfl
    cases hl
    exact absurd he hemits
  · have hsnoc : before ++ e :: (rest.concat last) = (before ++ e :: rest) ++ [last] := by
      rw [List.concat_eq_append, List.append_assoc, List.cons_append]
    rw [hsnoc] at htrace
    obtain ⟨rfl, hl⟩ := List.append_inj' htrace rfl
    cases hl
    rw [List.concat_eq_append] at hafter
    refine ⟨⟨before, e, rest, rfl, he, fun x hx => hafter x (List.mem_append_left _ hx)⟩, ?_⟩
    exact hafter l (List.mem_append_right _ (List.mem_singleton_self l))

/-- **Between two emissions** there is a clearing, when an emission finds nothing outstanding or clears. -/
theorem clears_between (h : ∀ before l after, trace = before ++ l :: after → emits l →
      clears l ∨ ¬ Outstanding emits clears before)
    {first between last : List ℓ} {l k : ℓ} (htrace : trace = first ++ l :: (between ++ k :: last))
    (hl : emits l) (hk : emits k) : ∃ x ∈ between ++ [k], clears x := by
  have hsplit : trace = (first ++ l :: between) ++ k :: last := by
    rw [htrace, List.append_assoc, List.cons_append]
  obtain hclears | hnone := h _ _ _ hsplit hk
  · exact ⟨k, List.mem_append_right _ (List.mem_singleton_self k), hclears⟩
  · refine Classical.byContradiction fun hall => hnone ⟨first, l, between, rfl, hl, fun x hx hclears => ?_⟩
    exact hall ⟨x, List.mem_append_left _ hx, hclears⟩

end

/-! ## The last of a trace -/

section
variable {α : Type} {f : ℓ → Option α} {trace : List ℓ}

/-- What the last label says that says something. -/
def lastSome (f : ℓ → Option α) (trace : List ℓ) : Option α := trace.reverse.findSome? f

theorem lastSome_concat {l : ℓ} : lastSome f (trace ++ [l]) = (f l).or (lastSome f trace) := by
  unfold lastSome
  rw [List.reverse_append, List.reverse_singleton, List.singleton_append, List.findSome?_cons]
  cases f l <;> rfl

end

end Base
