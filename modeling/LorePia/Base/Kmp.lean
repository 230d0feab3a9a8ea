import Mathlib.Data.List.Infix
import Mathlib.Order.Basic

/-!
# Searching one pattern

The search keeps the length of the longest beginning of the pattern that the text read so far ends in
(`Longest`), and falls back along the borders of the pattern when the next item does not continue it. The
table of borders is built by the same search over the pattern itself (`buildTable_spec`). A search stops at
the first occurrence (`scan_spec`), and may be restarted on the retained beginning alone: what it finds in
`retained ++ more` is what it finds in the whole text (`Longest.restart`, `infix_restart`).
-/

namespace Base

namespace Kmp

variable {α : Type}

/-! ## The search -/

section
variable [DecidableEq α] (pattern : List α) (table : List Nat)

/-- `while matched > 0 && x != pattern[matched] { matched = table[matched - 1] }`. An index out of range, or a
loop that does not end in as many turns as the fuel, is `none`. -/
def fallBack (x : α) : Nat → Nat → Option Nat
  | _, 0 => some 0
  | 0, _ + 1 => none
  | fuel + 1, matched + 1 => do
    let next ← pattern[matched + 1]?
    if x ≠ next then
      let border ← table[matched]?
      fallBack x fuel border
    else some (matched + 1)

/-- One item of the text: fall back, then continue the match if the item does. -/
def advance (x : α) (matched : Nat) : Option Nat := do
  let matched ← fallBack pattern table x matched matched
  let next ← pattern[matched]?
  some (if x = next then matched + 1 else matched)

/-- The loop of the table over the items from an index on. -/
def buildFrom : List α → Nat → Nat → List Nat → Option (List Nat)
  | [], _, _, table => some table
  | x :: rest, index, matched, table => do
    let matched ← advance pattern table x matched
    buildFrom rest (index + 1) matched (table.set index matched)

/-- The table of borders. -/
def buildTable : Option (List Nat) := buildFrom pattern (pattern.drop 1) 1 0 (List.replicate pattern.length 0)

/-- The search of a text; the inner `none` is an occurrence. -/
def scan : List α → Nat → Option (Option Nat)
  | [], matched => some (some matched)
  | x :: rest, matched => do
    let matched ← fallBack pattern table x matched matched
    let next ← pattern[matched]?
    if x = next then
      if matched + 1 = pattern.length then some none else scan rest (matched + 1)
    else scan rest matched

end

/-! ## Beginnings of the pattern at the end of a text -/

/-- The longest beginning of the pattern that the text ends in. -/
structure Longest (pattern text : List α) (k : Nat) : Prop where
  le : k ≤ pattern.length
  suffix : pattern.take k <:+ text
  longest : ∀ j ≤ pattern.length, pattern.take j <:+ text → j ≤ k

/-- The longest beginning of the first `q` items that they also end in, other than themselves. -/
structure Border (pattern : List α) (q b : Nat) : Prop where
  lt : b < q
  suffix : pattern.take b <:+ pattern.take q
  longest : ∀ j < q, pattern.take j <:+ pattern.take q → j ≤ b

section
variable {pattern text : List α}

theorem longest_nil : Longest pattern [] 0 where
  le := Nat.zero_le _
  suffix := List.suffix_rfl
  longest := by
    intro j hj h
    have hlength := h.length_le
    rw [List.length_take, List.length_nil] at hlength
    omega

theorem Longest.unique {k k' : Nat} (h : Longest pattern text k) (h' : Longest pattern text k') : k = k' :=
  Nat.le_antisymm (h'.longest k h.le h.suffix) (h.longest k' h'.le h'.suffix)

/-- A beginning continues over one item. -/
theorem take_succ_suffix {j : Nat} {x : α} (hj : j < pattern.length) :
    pattern.take (j + 1) <:+ text ++ [x] ↔ pattern.take j <:+ text ∧ pattern[j]? = some x := by
  rw [List.take_add_one, List.getElem?_eq_getElem hj, Option.toList_some, List.suffix_concat_iff]
  constructor
  · rintro (h | ⟨t, ht, hsuffix⟩)
    · exact absurd h (List.append_ne_nil_of_right_ne_nil _ (List.cons_ne_nil _ _))
    · obtain ⟨rfl, hx⟩ := List.append_inj' ht rfl
      exact ⟨hsuffix, by rw [List.singleton_inj.1 hx]⟩
  · rintro ⟨hsuffix, hx⟩
    cases hx
    exact .inr ⟨_, rfl, hsuffix⟩

/-- Shorter beginnings at the end of the text are at the end of a longer one. -/
theorem take_suffix_iff {j k : Nat} (hjk : j ≤ k) (h : pattern.take k <:+ text) (hk : k ≤ pattern.length) :
    pattern.take j <:+ text ↔ pattern.take j <:+ pattern.take k := by
  constructor
  · intro hj
    refine List.suffix_of_suffix_length_le hj h ?_
    rw [List.length_take, List.length_take]
    omega
  · intro hj
    exact hj.trans h

/-- The borders of a beginning are what it ends in after its first item. -/
theorem border_of_longest {q b : Nat} (hq : q < pattern.length)
    (h : Longest pattern ((pattern.take (q + 1)).drop 1) b) : Border pattern (q + 1) b := by
  have hlength : ((pattern.take (q + 1)).drop 1).length = q := by
    rw [List.length_drop, List.length_take]
    omega
  have hb := h.suffix.length_le
  rw [hlength, List.length_take, Nat.min_eq_left h.le] at hb
  refine ⟨by omega, h.suffix.trans (List.drop_suffix _ _), fun j hj hsuffix => ?_⟩
  refine h.longest j (by omega) (List.suffix_of_suffix_length_le hsuffix (List.drop_suffix _ _) ?_)
  rw [hlength, List.length_take]
  omega

/-- One more item of the pattern. -/
theorem drop_one_take_succ {index : Nat} (hpos : 0 < index) (hlt : index < pattern.length) :
    (pattern.take (index + 1)).drop 1 = (pattern.take index).drop 1 ++ [pattern.get ⟨index, hlt⟩] := by
  rw [List.take_add_one, List.getElem?_eq_getElem hlt, Option.toList_some, List.drop_append_of_le_length]
  · rfl
  · rw [List.length_take]
    omega

theorem occurs_concat_iff {x : α} (h : ¬ pattern <:+: text) :
    pattern <:+: text ++ [x] ↔ pattern <:+ text ++ [x] := by
  rw [List.infix_concat_iff]
  exact ⟨fun hor => hor.elim id fun h' => absurd h' h, .inl⟩

/-! ## The loop -/

variable [DecidableEq α] {table : List Nat}

/-- The first entries of the table are borders. -/
def Borders (pattern : List α) (table : List Nat) (n : Nat) : Prop :=
  ∀ i < n, ∃ b, table[i]? = some b ∧ Border pattern (i + 1) b

/-- Falling back stops at the longest beginning that the item continues, or at none. -/
theorem fallBack_spec {x : α} : ∀ {fuel m : Nat}, m ≤ fuel → Borders pattern table m → m < pattern.length →
    pattern.take m <:+ text →
    (∀ j < pattern.length, pattern.take j <:+ text → pattern[j]? = some x → j ≤ m) →
    ∃ m', fallBack pattern table x fuel m = some m' ∧ m' < pattern.length ∧ pattern.take m' <:+ text ∧
      (∀ j < pattern.length, pattern.take j <:+ text → pattern[j]? = some x → j ≤ m') ∧
      (m' = 0 ∨ pattern[m']? = some x)
  | _, 0, _, _, hlt, hsuffix, hmax => ⟨0, by rw [fallBack], hlt, hsuffix, hmax, .inl rfl⟩
  | fuel + 1, m + 1, hfuel, htable, hlt, hsuffix, hmax => by
    have hnext := List.getElem?_eq_getElem hlt
    by_cases hx : x = pattern.get ⟨m + 1, hlt⟩
    · refine ⟨m + 1, ?_, hlt, hsuffix, hmax, .inr ?_⟩
      · rw [fallBack, hnext]
        exact if_neg (not_not.2 hx)
      · rw [hnext, hx, List.get_eq_getElem]
    · obtain ⟨b, hb, hborder⟩ := htable m (Nat.lt_succ_self m)
      have hle := Nat.lt_succ_iff.1 hborder.lt
      have hrest : ∀ j < pattern.length, pattern.take j <:+ text → pattern[j]? = some x → j ≤ b := by
        intro j hj hjsuffix hjx
        have hjm := hmax j hj hjsuffix hjx
        have hne : j ≠ m + 1 := by
          rintro rfl
          rw [hnext] at hjx
          exact hx (Option.some.inj hjx).symm
        refine hborder.longest j (by omega) ?_
        exact (take_suffix_iff hjm hsuffix (by omega)).1 hjsuffix
      obtain ⟨m', hm', hspec⟩ := fallBack_spec (show b ≤ fuel by omega)
        (fun i hi => htable i (by omega)) (show b < pattern.length by omega)
        (hborder.suffix.trans hsuffix) hrest
      refine ⟨m', ?_, hspec⟩
      rw [fallBack, hnext]
      show (if x ≠ pattern.get ⟨m + 1, hlt⟩ then table[m]?.bind (fallBack pattern table x fuel)
        else some (m + 1)) = some m'
      rw [if_pos hx, hb]
      exact hm'

/-- **One item of the text** keeps the longest beginning. -/
theorem fallBack_longest {x : α} {m : Nat} (htable : Borders pattern table m) (hlt : m < pattern.length)
    (h : Longest pattern text m) : ∃ m' next, fallBack pattern table x m m = some m' ∧
      pattern[m']? = some next ∧ m' < pattern.length ∧
      Longest pattern (text ++ [x]) (if x = next then m' + 1 else m') := by
  obtain ⟨m', hm', hlt', hsuffix, hmax, hstop⟩ := fallBack_spec (Nat.le_refl m) htable hlt h.suffix
    (x := x) fun j hj hjsuffix _ => h.longest j (Nat.le_of_lt hj) hjsuffix
  refine ⟨m', pattern.get ⟨m', hlt'⟩, hm', List.getElem?_eq_getElem hlt', hlt', ?_⟩
  have hnext : pattern[m']? = some (pattern.get ⟨m', hlt'⟩) := List.getElem?_eq_getElem hlt'
  -- a nonempty beginning at the end of the longer text is one at the end of the text, continued
  have hlongest : ∀ j ≤ pattern.length, pattern.take j <:+ text ++ [x] → j = 0 ∨
      (j ≤ m' + 1 ∧ ∃ i, j = i + 1 ∧ pattern[i]? = some x ∧ i ≤ m') := by
    intro j hj hjsuffix
    cases j with
    | zero => exact .inl rfl
    | succ i =>
      obtain ⟨hi, hix⟩ := (take_succ_suffix hj).1 hjsuffix
      have hle := hmax i hj hi hix
      exact .inr ⟨by omega, i, rfl, hix, hle⟩
  split
  · rename_i hx
    refine ⟨hlt', (take_succ_suffix hlt').2 ⟨hsuffix, hnext.trans (by rw [hx])⟩, ?_⟩
    intro j hj hjsuffix
    obtain rfl | ⟨hle, -⟩ := hlongest j hj hjsuffix
    · exact Nat.zero_le _
    · exact hle
  · rename_i hx
    have hzero : m' = 0 := by
      obtain hzero | hstop := hstop
      · exact hzero
      · rw [hnext] at hstop
        exact absurd (Option.some.inj hstop).symm hx
    subst hzero
    refine ⟨Nat.zero_le _, List.nil_suffix, ?_⟩
    intro j hj hjsuffix
    obtain rfl | ⟨-, i, rfl, hix, hle⟩ := hlongest j hj hjsuffix
    · exact Nat.le_refl 0
    · obtain rfl : i = 0 := by omega
      rw [hnext] at hix
      exact absurd (Option.some.inj hix).symm hx

theorem advance_longest {x : α} {m : Nat} (htable : Borders pattern table m) (hlt : m < pattern.length)
    (h : Longest pattern text m) :
    ∃ m', advance pattern table x m = some m' ∧ Longest pattern (text ++ [x]) m' := by
  obtain ⟨m', next, hm', hnext, -, hlongest⟩ := @fallBack_longest _ _ _ _ _ x _ htable hlt h
  refine ⟨_, ?_, hlongest⟩
  rw [advance, hm', Option.bind_eq_bind, Option.bind_some, hnext]
  rfl

/-! ## The table -/

/-- The loop fills the table with borders. -/
theorem buildFrom_spec : ∀ {rest : List α} {index matched : Nat} {table : List Nat},
    rest = pattern.drop index → 0 < index → index ≤ pattern.length → table.length = pattern.length →
    Borders pattern table index → Longest pattern ((pattern.take index).drop 1) matched →
    ∃ table', buildFrom pattern rest index matched table = some table' ∧
      table'.length = pattern.length ∧ Borders pattern table' pattern.length
  | [], index, matched, table, hrest, hpos, hle, hlength, htable, _ => by
    have hindex : index = pattern.length := Nat.le_antisymm hle (List.drop_eq_nil_iff.1 hrest.symm)
    exact ⟨table, rfl, hlength, hindex ▸ htable⟩
  | x :: rest, index, matched, table, hrest, hpos, hle, hlength, htable, hlongest => by
    have hlt : index < pattern.length := by
      have := congrArg List.length hrest
      rw [List.length_cons, List.length_drop] at this
      omega
    rw [List.drop_eq_getElem_cons hlt, List.cons.injEq] at hrest
    obtain ⟨hx, hrest⟩ := hrest
    have hmatched : matched < index := by
      have := hlongest.suffix.length_le
      rw [List.length_drop, List.length_take, List.length_take, Nat.min_eq_left hlongest.le] at this
      omega
    obtain ⟨m', hm', hnext⟩ := @advance_longest _ _ _ _ _ x _ (fun i hi => htable i (by omega))
      (show matched < pattern.length by omega) hlongest
    have hnext' : Longest pattern ((pattern.take (index + 1)).drop 1) m' := by
      rw [drop_one_take_succ hpos hlt, List.get_eq_getElem, ← hx]
      exact hnext
    have hfilled : Borders pattern (table.set index m') (index + 1) := by
      intro i hi
      by_cases h : i = index
      · subst h
        exact ⟨m', List.getElem?_set_self (by omega), border_of_longest hlt hnext'⟩
      · rw [List.getElem?_set_ne (Ne.symm h)]
        exact htable i (by omega)
    obtain ⟨table', htable', hspec⟩ := buildFrom_spec hrest (Nat.succ_pos index) hlt
      (by rw [List.length_set, hlength]) hfilled hnext'
    refine ⟨table', ?_, hspec⟩
    rw [buildFrom, hm', Option.bind_eq_bind, Option.bind_some]
    exact htable'

/-- **The table is the table of borders.** -/
theorem buildTable_spec (hpattern : pattern ≠ []) : ∃ table, buildTable pattern = some table ∧
    table.length = pattern.length ∧ Borders pattern table pattern.length := by
  have hpos : 0 < pattern.length := List.length_pos_of_ne_nil hpattern
  have hfirst : (pattern.take 1).drop 1 = [] := by
    rw [List.drop_eq_nil_iff, List.length_take]
    omega
  refine buildFrom_spec rfl Nat.one_pos hpos List.length_replicate ?_ (hfirst ▸ longest_nil)
  intro i hi
  obtain rfl : i = 0 := by omega
  refine ⟨0, ?_, border_of_longest hpos (hfirst ▸ longest_nil)⟩
  rw [List.getElem?_replicate_of_lt hpos]

/-! ## The search -/

/-- **The search finds the first occurrence**, or the longest beginning at the end. -/
theorem scan_spec (htable : Borders pattern table pattern.length) :
    ∀ {rest text : List α} {m : Nat}, m < pattern.length → Longest pattern text m → ¬ pattern <:+: text →
    (scan pattern table rest m = some none ∧ pattern <:+: text ++ rest) ∨
      ∃ k, scan pattern table rest m = some (some k) ∧ k < pattern.length ∧
        Longest pattern (text ++ rest) k ∧ ¬ pattern <:+: text ++ rest
  | [], text, m, hlt, hlongest, hno => by
    rw [List.append_nil]
    exact .inr ⟨m, rfl, hlt, hlongest, hno⟩
  | x :: rest, text, m, hlt, hlongest, hno => by
    obtain ⟨m', next, hm', hnext, hlt', hstep⟩ := @fallBack_longest _ _ _ _ _ x _
      (fun i hi => htable i (by omega)) hlt hlongest
    have hscan : scan pattern table (x :: rest) m = if x = next then
        if m' + 1 = pattern.length then some none else scan pattern table rest (m' + 1)
        else scan pattern table rest m' := by
      rw [scan, hm', Option.bind_eq_bind, Option.bind_some, hnext]
      rfl
    have hfull : ∀ {k}, Longest pattern (text ++ [x]) k → k < pattern.length →
        ¬ pattern <:+: text ++ [x] := by
      intro k hk hklt hinfix
      rw [occurs_concat_iff hno] at hinfix
      have := hk.longest pattern.length (Nat.le_refl _) (by rwa [List.take_length])
      omega
    rw [hscan, show text ++ x :: rest = text ++ [x] ++ rest by rw [List.append_assoc]; rfl]
    by_cases hx : x = next
    · rw [if_pos hx] at hstep ⊢
      by_cases hend : m' + 1 = pattern.length
      · rw [if_pos hend]
        refine .inl ⟨rfl, ?_⟩
        have hsuffix := hstep.suffix
        rw [hend, List.take_length] at hsuffix
        exact hsuffix.isInfix.trans (List.prefix_append _ _).isInfix
      · rw [if_neg hend]
        exact scan_spec htable (by omega) hstep (hfull hstep (by omega))
    · rw [if_neg hx] at hstep ⊢
      exact scan_spec htable hlt' hstep (hfull hstep hlt')

end

/-! ## Restarting -/

section
variable {pattern text : List α} {k : Nat}

/-- Beginnings at the end of a longer text are at the end of the retained beginning and what follows. -/
theorem take_suffix_restart (h : Longest pattern text k) (more : List α) {j : Nat} (hj : j ≤ pattern.length) :
    pattern.take j <:+ text ++ more ↔ pattern.take j <:+ pattern.take k ++ more := by
  have hretained : pattern.take k ++ more <:+ text ++ more := by
    obtain ⟨before, hbefore⟩ := h.suffix
    exact ⟨before, by rw [← List.append_assoc, hbefore]⟩
  constructor
  · intro hsuffix
    refine List.suffix_of_suffix_length_le hsuffix hretained ?_
    rw [List.length_append, List.length_take, List.length_take, Nat.min_eq_left hj, Nat.min_eq_left h.le]
    by_contra hlong
    -- a longer beginning would end the text before `more`
    obtain ⟨before, hbefore⟩ := hsuffix
    rw [show j = (j - more.length) + more.length by omega, List.take_add, ← List.append_assoc] at hbefore
    obtain ⟨htext, -⟩ := List.append_inj' hbefore (by rw [List.length_take, List.length_drop]; omega)
    have := h.longest (j - more.length) (by omega) ⟨before, htext⟩
    omega
  · intro hsuffix
    exact hsuffix.trans hretained

theorem Longest.restart (h : Longest pattern text k) {more : List α} {k' : Nat} :
    Longest pattern (pattern.take k ++ more) k' ↔ Longest pattern (text ++ more) k' := by
  constructor
  · intro h'
    exact ⟨h'.le, (take_suffix_restart h more h'.le).2 h'.suffix,
      fun j hj hsuffix => h'.longest j hj ((take_suffix_restart h more hj).1 hsuffix)⟩
  · intro h'
    exact ⟨h'.le, (take_suffix_restart h more h'.le).1 h'.suffix,
      fun j hj hsuffix => h'.longest j hj ((take_suffix_restart h more hj).2 hsuffix)⟩

/-- An occurrence ends in the text that follows, and is one after the retained beginning. -/
theorem occurrence_restart (h : Longest pattern text k) (hno : ¬ pattern <:+: text)
    {more before after : List α} (hocc : text ++ more = before ++ pattern ++ after) :
    ∃ part, before ++ pattern = text ++ part ∧ more = part ++ after ∧
      pattern <:+ pattern.take k ++ part := by
  obtain ⟨part, hbefore, hmore⟩ | ⟨part, htext, -⟩ := List.append_eq_append_iff.1 hocc
  · refine ⟨part, hbefore, hmore, ?_⟩
    have hsuffix := (take_suffix_restart h part (Nat.le_refl pattern.length)).1 (by
      rw [List.take_length]
      exact ⟨before, hbefore⟩)
    rwa [List.take_length] at hsuffix
  · exact absurd ⟨before, part, htext.symm⟩ hno

/-- An occurrence in the whole text is one in the retained beginning and what follows. -/
theorem infix_restart (h : Longest pattern text k) (hno : ¬ pattern <:+: text) (more : List α) :
    pattern <:+: pattern.take k ++ more ↔ pattern <:+: text ++ more := by
  constructor
  · rintro ⟨before, after, hinfix⟩
    obtain ⟨front, hfront⟩ := h.suffix
    refine ⟨front ++ before, after, ?_⟩
    rw [List.append_assoc, List.append_assoc, ← List.append_assoc before, hinfix, ← List.append_assoc, hfront]
  · rintro ⟨before, after, hocc⟩
    obtain ⟨part, -, rfl, hsuffix⟩ := occurrence_restart h hno hocc.symm
    rw [← List.append_assoc]
    exact hsuffix.isInfix.trans (List.prefix_append _ _).isInfix

/-- No occurrence starts before the retained beginning. -/
theorem length_le_of_occurrence (h : Longest pattern text k) (hno : ¬ pattern <:+: text)
    {more before after : List α} (hocc : text ++ more = before ++ pattern ++ after) :
    text.length ≤ before.length + k := by
  obtain ⟨part, hbefore, -, hsuffix⟩ := occurrence_restart h hno hocc
  have hlength := congrArg List.length hbefore
  have hshort := hsuffix.length_le
  rw [List.length_append, List.length_append] at hlength
  rw [List.length_append, List.length_take, Nat.min_eq_left h.le] at hshort
  omega

end

end Kmp

end Base
