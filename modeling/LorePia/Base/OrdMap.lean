import Mathlib.Data.List.Pairwise
import Mathlib.Order.Lattice
import LorePia.Base.Sort
import LorePia.Base.Result

/-!
# Ordered maps

`OrdMap κ ν` is a `BTreeMap`: its entries in strictly ascending key order. Lookup after insertion
and modification (`get?_insert`, `get?_modify`), the entries as the graph of the lookup
(`mem_entries`), and extensionality: two maps with the same lookups are equal (`ext_get?`), so a map
built from a list of distinct keys does not depend on the list's order.
-/

namespace Base

/-- A map with its entries in strictly ascending key order. -/
structure OrdMap (κ ν : Type) [LinearOrder κ] where
  entries : List (κ × ν)
  sorted : entries.Pairwise (fun a b => a.1 < b.1)

namespace OrdMap

variable {κ ν : Type} [LinearOrder κ]

/-- `BTreeMap::new()`. -/
def empty : OrdMap κ ν := ⟨[], .nil⟩

/-! ## Lookup -/

/-- Lookup in a list of entries. -/
def find (k : κ) : List (κ × ν) → Option ν
  | [] => none
  | e :: l => if e.1 = k then some e.2 else find k l

/-- `map.get(k)`. -/
def get? (m : OrdMap κ ν) (k : κ) : Option ν := find k m.entries

/-- `map.contains_key(k)`. -/
def contains (m : OrdMap κ ν) (k : κ) : Bool := (m.get? k).isSome

/-- `map.keys()`. -/
def keys (m : OrdMap κ ν) : List κ := m.entries.map (·.1)

/-- `map.into_values()`. -/
def values (m : OrdMap κ ν) : List ν := m.entries.map (·.2)

theorem find_of_mem {k : κ} {v : ν} : ∀ {l : List (κ × ν)},
    l.Pairwise (fun a b => a.1 < b.1) → (k, v) ∈ l → find k l = some v
  | e :: l, hs, hm => by
    unfold find
    rcases List.mem_cons.1 hm with he | hm
    · rw [← he, if_pos rfl]
    · have hlt : e.1 < k := List.rel_of_pairwise_cons hs hm
      rw [if_neg hlt.ne, find_of_mem hs.of_cons hm]

theorem mem_of_find {k : κ} {v : ν} : ∀ {l : List (κ × ν)}, find k l = some v → (k, v) ∈ l
  | [], h => by simp [find] at h
  | e :: l, h => by
    unfold find at h
    split at h
    · rename_i hk
      cases h
      rw [← hk]
      exact List.mem_cons_self
    · exact List.mem_cons_of_mem _ (mem_of_find h)

/-- **The entries are the graph of the lookup.** -/
theorem mem_entries {m : OrdMap κ ν} {k : κ} {v : ν} : (k, v) ∈ m.entries ↔ m.get? k = some v :=
  ⟨find_of_mem m.sorted, mem_of_find⟩

theorem mem_keys {m : OrdMap κ ν} {k : κ} : k ∈ m.keys ↔ m.contains k = true := by
  simp only [keys, contains, List.mem_map, Option.isSome_iff_exists, ← mem_entries]
  constructor
  · rintro ⟨⟨k', v⟩, h, rfl⟩; exact ⟨v, h⟩
  · rintro ⟨v, h⟩; exact ⟨(k, v), h, rfl⟩

theorem mem_values {m : OrdMap κ ν} {v : ν} : v ∈ m.values ↔ ∃ k, m.get? k = some v := by
  simp only [values, List.mem_map, ← mem_entries]
  constructor
  · rintro ⟨⟨k, v'⟩, h, rfl⟩; exact ⟨k, h⟩
  · rintro ⟨k, h⟩; exact ⟨(k, v), h, rfl⟩

theorem keys_pairwise (m : OrdMap κ ν) : m.keys.Pairwise (· < ·) :=
  List.pairwise_map.2 m.sorted

theorem keys_nodup (m : OrdMap κ ν) : m.keys.Nodup :=
  m.keys_pairwise.imp fun h => ne_of_lt h

@[simp] theorem get?_empty (k : κ) : (empty : OrdMap κ ν).get? k = none := rfl

theorem ext_entries {m m' : OrdMap κ ν} (h : m.entries = m'.entries) : m = m' := by
  cases m
  cases m'
  cases h
  rfl

/-- **Two maps with the same lookups are equal.** -/
theorem ext_get? {m m' : OrdMap κ ν} (h : ∀ k, m.get? k = m'.get? k) : m = m' := by
  have hp : m.entries.Perm m'.entries := by
    refine (List.perm_ext_iff_of_nodup ?_ ?_).2 fun e => ?_
    · exact m.sorted.imp fun hlt he => (ne_of_lt hlt) (congrArg Prod.fst he)
    · exact m'.sorted.imp fun hlt he => (ne_of_lt hlt) (congrArg Prod.fst he)
    · obtain ⟨k, v⟩ := e
      rw [mem_entries, mem_entries, h]
  have he : m.entries = m'.entries :=
    hp.eq_of_pairwise (fun a b _ _ hab hba => absurd hab hba.asymm) m.sorted m'.sorted
  exact ext_entries he

/-! ## Insertion -/

/-- Insertion into a list of entries. -/
def insertList (k : κ) (v : ν) : List (κ × ν) → List (κ × ν)
  | [] => [(k, v)]
  | e :: l =>
    if k < e.1 then (k, v) :: e :: l
    else if k = e.1 then (k, v) :: l
    else e :: insertList k v l

theorem mem_insertList {k : κ} {v : ν} {e : κ × ν} : ∀ {l : List (κ × ν)},
    e ∈ insertList k v l → e = (k, v) ∨ e ∈ l
  | [], h => by simpa [insertList] using h
  | a :: l, h => by
    unfold insertList at h
    split at h
    · exact List.mem_cons.1 h
    · split at h
      · rcases List.mem_cons.1 h with h | h
        · exact .inl h
        · exact .inr (List.mem_cons_of_mem _ h)
      · rcases List.mem_cons.1 h with h | h
        · exact .inr (h ▸ List.mem_cons_self)
        · exact (mem_insertList h).imp_right (List.mem_cons_of_mem _)

theorem insertList_sorted (k : κ) (v : ν) : ∀ {l : List (κ × ν)},
    l.Pairwise (fun a b => a.1 < b.1) → (insertList k v l).Pairwise (fun a b => a.1 < b.1)
  | [], _ => List.pairwise_singleton _ _
  | e :: l, h => by
    unfold insertList
    split
    · rename_i hlt
      refine h.cons fun a ha => ?_
      rcases List.mem_cons.1 ha with rfl | ha
      · exact hlt
      · exact hlt.trans (List.rel_of_pairwise_cons h ha)
    · split
      · rename_i _ he
        exact h.of_cons.cons fun a ha => he ▸ List.rel_of_pairwise_cons h ha
      · rename_i hnlt hne
        refine (insertList_sorted k v h.of_cons).cons fun a ha => ?_
        rcases mem_insertList ha with rfl | ha
        · exact lt_of_le_of_ne (not_lt.1 hnlt) (Ne.symm hne)
        · exact List.rel_of_pairwise_cons h ha

theorem find_insertList (k : κ) (v : ν) (k' : κ) : ∀ (l : List (κ × ν)),
    find k' (insertList k v l) = if k = k' then some v else find k' l
  | [] => rfl
  | e :: l => by
    unfold insertList
    split
    · simp only [find]
    · split
      · rename_i _ he
        simp only [find, ← he]
        split <;> rfl
      · rename_i _ hne
        simp only [find, find_insertList k v k' l]
        split
        · rename_i hk
          rw [if_neg (fun h => hne (h.trans hk.symm))]
        · rfl

theorem insertList_of_lt {k : κ} {e : κ × ν} (v : ν) (l : List (κ × ν)) (h : k < e.1) :
    insertList k v (e :: l) = (k, v) :: e :: l := if_pos h

theorem insertList_of_eq {k : κ} {e : κ × ν} (v : ν) (l : List (κ × ν)) (h : k = e.1) :
    insertList k v (e :: l) = (k, v) :: l := by
  rw [insertList, if_neg h.not_lt, if_pos h]

theorem insertList_of_gt {k : κ} {e : κ × ν} (v : ν) (l : List (κ × ν)) (h : e.1 < k) :
    insertList k v (e :: l) = e :: insertList k v l := by
  rw [insertList, if_neg h.asymm, if_neg h.ne']

/-- The second insertion at a key is the one that counts. -/
theorem insertList_insertList_self (k : κ) (v v' : ν) : ∀ l : List (κ × ν),
    insertList k v' (insertList k v l) = insertList k v' l
  | [] => insertList_of_eq v' [] rfl
  | e :: l => by
    rcases lt_trichotomy k e.1 with hk | hk | hk
    · rw [insertList_of_lt v l hk, insertList_of_lt v' l hk]
      exact insertList_of_eq v' _ rfl
    · rw [insertList_of_eq v l hk, insertList_of_eq v' l hk]
      exact insertList_of_eq v' _ rfl
    · rw [insertList_of_gt v l hk, insertList_of_gt v' l hk, insertList_of_gt v' _ hk,
        insertList_insertList_self k v v' l]

theorem insertList_comm_of_lt {k k' : κ} (h : k < k') (v v' : ν) : ∀ l : List (κ × ν),
    insertList k v (insertList k' v' l) = insertList k' v' (insertList k v l)
  | [] => (insertList_of_lt v [] h).trans (insertList_of_gt v' [] h).symm
  | e :: l => by
    rcases lt_trichotomy k e.1 with hk | hk | hk
    · have hgt : insertList k' v' ((k, v) :: e :: l) = (k, v) :: insertList k' v' (e :: l) :=
        insertList_of_gt v' _ h
      rw [insertList_of_lt v l hk, hgt]
      rcases lt_trichotomy k' e.1 with hk' | hk' | hk'
      · rw [insertList_of_lt v' l hk', insertList_of_lt v _ h]
      · rw [insertList_of_eq v' l hk', insertList_of_lt v _ h]
      · rw [insertList_of_gt v' l hk', insertList_of_lt v _ hk]
    · have hgt : insertList k' v' ((k, v) :: l) = (k, v) :: insertList k' v' l := insertList_of_gt v' _ h
      rw [insertList_of_gt v' l (hk ▸ h), insertList_of_eq v _ hk, insertList_of_eq v l hk, hgt]
    · rw [insertList_of_gt v' l (hk.trans h), insertList_of_gt v _ hk, insertList_of_gt v l hk,
        insertList_of_gt v' _ (hk.trans h), insertList_comm_of_lt h v v' l]

/-- Insertions at two keys commute. -/
theorem insertList_comm {k k' : κ} (h : k ≠ k') (v v' : ν) (l : List (κ × ν)) :
    insertList k v (insertList k' v' l) = insertList k' v' (insertList k v l) := by
  rcases lt_or_gt_of_ne h with hlt | hlt
  · exact insertList_comm_of_lt hlt v v' l
  · exact (insertList_comm_of_lt hlt v' v l).symm

/-- `map.insert(k, v)`. -/
def insert (m : OrdMap κ ν) (k : κ) (v : ν) : OrdMap κ ν :=
  ⟨insertList k v m.entries, insertList_sorted k v m.sorted⟩

@[simp] theorem get?_insert (m : OrdMap κ ν) (k k' : κ) (v : ν) :
    (m.insert k v).get? k' = if k = k' then some v else m.get? k' :=
  find_insertList k v k' m.entries

theorem insertList_last (k : κ) (v : ν) : ∀ {l : List (κ × ν)}, (∀ e ∈ l, e.1 < k) → insertList k v l = l ++ [(k, v)]
  | [], _ => rfl
  | e :: l, h => by
    have he := h e List.mem_cons_self
    rw [insertList, if_neg he.asymm, if_neg he.ne', insertList_last k v fun e' he' => h e' (List.mem_cons_of_mem _ he')]
    rfl

/-- A key after all others comes last. -/
theorem entries_insert_last {m : OrdMap κ ν} {k : κ} (v : ν) (h : ∀ k' ∈ m.keys, k' < k) :
    (m.insert k v).entries = m.entries ++ [(k, v)] :=
  insertList_last k v fun e he => h e.1 (List.mem_map_of_mem he)

/-- `iter.collect::<BTreeMap<_, _>>()`: later entries replace earlier ones. -/
def ofList (l : List (κ × ν)) : OrdMap κ ν := l.foldl (fun m e => m.insert e.1 e.2) empty

theorem get?_foldl_insert : ∀ (l : List (κ × ν)) (m : OrdMap κ ν) (k : κ), (l.map (·.1)).Nodup →
    (l.foldl (fun m e => m.insert e.1 e.2) m).get? k = (find k l).or (m.get? k)
  | [], m, k, _ => by simp [find]
  | e :: l, m, k, h => by
    rw [List.map_cons, List.nodup_cons] at h
    rw [List.foldl_cons, get?_foldl_insert l _ k h.2, get?_insert]
    simp only [find]
    by_cases hk : e.1 = k
    · have hn : find k l = none := by
        by_contra hc
        obtain ⟨v, hv⟩ := Option.ne_none_iff_exists'.1 hc
        exact h.1 (List.mem_map.2 ⟨(k, v), mem_of_find hv, hk.symm⟩)
      simp [hk, hn]
    · simp [hk]

/-- A map collected from distinct keys looks up the list. -/
theorem get?_ofList {l : List (κ × ν)} (h : (l.map (·.1)).Nodup) (k : κ) :
    (ofList l).get? k = find k l := by
  rw [ofList, get?_foldl_insert l empty k h]
  simp

theorem get?_ofList_eq_some {l : List (κ × ν)} (h : (l.map (·.1)).Nodup) {k : κ} {v : ν} :
    (ofList l).get? k = some v ↔ (k, v) ∈ l := by
  rw [get?_ofList h]
  refine ⟨mem_of_find, fun hmem => ?_⟩
  induction l with
  | nil => cases hmem
  | cons e l ih =>
    rw [List.map_cons, List.nodup_cons] at h
    unfold find
    obtain he | hmem := List.mem_cons.1 hmem
    · rw [← he, if_pos rfl]
    · rw [if_neg, ih h.2 hmem]
      intro hk
      exact h.1 (hk ▸ List.mem_map_of_mem hmem)

/-- Lookup in a list of pairs made from its items. -/
theorem find_map {α : Type} (key : α → κ) (val : α → ν) (k : κ) (l : List α) :
    find k (l.map fun a => (key a, val a)) = (l.find? fun a => key a = k).map val := by
  induction l with
  | nil => rfl
  | cons a l ih =>
    rw [List.map_cons, find, ih]
    by_cases h : key a = k
    · simp [h]
    · simp [h]

/-- Lookup in a map collected from items with distinct keys. -/
theorem get?_ofList_map {α : Type} {key : α → κ} {l : List α} (h : (l.map key).Nodup) (k : κ) :
    (ofList (l.map fun a => (key a, a))).get? k = l.find? fun a => key a = k := by
  have hkeys : ((l.map fun a => (key a, a)).map (·.1)).Nodup := by simpa [Function.comp_def] using h
  rw [get?_ofList hkeys, find_map, Option.map_id']

theorem get?_ofList_map_eq_some {α : Type} {key : α → κ} {l : List α} (h : (l.map key).Nodup) {k : κ}
    {a : α} : (ofList (l.map fun a => (key a, a))).get? k = some a ↔ a ∈ l ∧ key a = k := by
  rw [get?_ofList_map h]
  constructor
  · intro hfind
    exact ⟨List.mem_of_find?_eq_some hfind, by simpa using List.find?_some hfind⟩
  · intro ha
    rw [← ha.2]
    convert find?_key h ha.1

theorem keys_ofList_map {α : Type} {key : α → κ} {l : List α} (h : (l.map key).Nodup) :
    (ofList (l.map fun a => (key a, a))).keys.Perm (l.map key) := by
  rw [List.perm_ext_iff_of_nodup (keys_nodup _) h]
  intro k
  rw [mem_keys, contains, Option.isSome_iff_exists, List.mem_map]
  simp only [get?_ofList_map_eq_some h]

/-- **A loop that inserts under distinct keys** succeeds exactly when every item passes its check and no
key comes twice. -/
theorem foldlM_insert_eq_ok {α ε : Type} {P : α → Prop} {key : α → κ}
    {g : OrdMap κ α → α → Except ε (OrdMap κ α)}
    (hg : ∀ m a r, g m a = .ok r ↔ P a ∧ m.contains (key a) = false ∧ r = m.insert (key a) a) :
    ∀ {l : List α} {m r : OrdMap κ α}, l.foldlM g m = .ok r ↔
      (∀ a ∈ l, P a) ∧ (l.map key).Nodup ∧ (∀ a ∈ l, m.contains (key a) = false) ∧
        r = (l.map fun a => (key a, a)).foldl (fun m e => m.insert e.1 e.2) m
  | [], m, r => by
    rw [List.foldlM_nil, pure_eq_ok, eq_comm]
    simp
  | a :: l, m, r => by
    rw [List.foldlM_cons, bind_eq_ok]
    simp only [hg, foldlM_insert_eq_ok hg, List.map_cons, List.nodup_cons, List.forall_mem_cons,
      List.foldl_cons]
    constructor
    · rintro ⟨_, ⟨ha, hna, rfl⟩, hl, hnd, hns, rfl⟩
      refine ⟨⟨ha, hl⟩, ⟨?_, hnd⟩, ⟨hna, fun b hb => ?_⟩, rfl⟩
      · intro hm
        obtain ⟨b, hb, hk⟩ := List.mem_map.1 hm
        simpa [contains, hk] using hns b hb
      · have hb' := hns b hb
        simp only [contains, get?_insert] at hb' ⊢
        split at hb'
        · simp at hb'
        · exact hb'
    · rintro ⟨⟨ha, hl⟩, ⟨hn, hnd⟩, ⟨hna, hns⟩, rfl⟩
      refine ⟨_, ⟨ha, hna, rfl⟩, hl, hnd, fun b hb => ?_, rfl⟩
      have hne : key a ≠ key b := fun hk => hn (List.mem_map.2 ⟨b, hb, hk.symm⟩)
      simpa [contains, hne] using hns b hb

/-- The keys of a map are the sorted list of their members. -/
theorem keys_eq_of_mem {m : OrdMap κ ν} {ks : List κ} (hsorted : ks.Pairwise (· < ·))
    (h : ∀ k, k ∈ ks ↔ m.contains k = true) : m.keys = ks := by
  have hp : m.keys.Perm ks := by
    rw [List.perm_ext_iff_of_nodup m.keys_nodup (hsorted.imp ne_of_lt)]
    intro k
    rw [mem_keys, h]
  exact hp.eq_of_pairwise (fun _ _ _ _ hab hba => absurd hba hab.asymm) m.keys_pairwise hsorted

/-- Inserts a value if there is one. -/
def insertOption (m : OrdMap κ ν) (k : κ) : Option ν → OrdMap κ ν
  | some v => m.insert k v
  | none => m

@[simp] theorem get?_insertOption (m : OrdMap κ ν) (k k' : κ) (v : Option ν) :
    (m.insertOption k v).get? k' = if k = k' then v.or (m.get? k') else m.get? k' := by
  cases v with
  | none => simp [insertOption]
  | some v => simp [insertOption]

/-! ## Removal -/

theorem find_filter_ne (k k' : κ) : ∀ l : List (κ × ν),
    find k' (l.filter fun e => e.1 ≠ k) = if k = k' then none else find k' l
  | [] => by simp [find]
  | e :: l => by
    have ih := find_filter_ne k k' l
    by_cases he : e.1 = k
    · rw [List.filter_cons_of_neg (by simp [he]), ih]
      by_cases hk : k = k'
      · rw [if_pos hk, if_pos hk]
      · rw [if_neg hk, if_neg hk, find, if_neg fun h => hk (he.symm.trans h)]
    · rw [List.filter_cons_of_pos (by simp [he]), find, find, ih]
      by_cases hk : k = k'
      · rw [if_pos hk, if_pos hk, if_neg fun h => he (h.trans hk.symm)]
      · rw [if_neg hk, if_neg hk]

/-- `map.remove(k)`. -/
def erase (m : OrdMap κ ν) (k : κ) : OrdMap κ ν :=
  ⟨m.entries.filter fun e => e.1 ≠ k, m.sorted.filter _⟩

@[simp] theorem get?_erase (m : OrdMap κ ν) (k k' : κ) :
    (m.erase k).get? k' = if k = k' then none else m.get? k' := find_filter_ne k k' m.entries

/-! ## Modification -/

/-- Change the value of a key that is present. -/
def modifyList (k : κ) (f : ν → ν) (l : List (κ × ν)) : List (κ × ν) :=
  l.map fun e => if e.1 = k then (e.1, f e.2) else e

theorem modifyList_sorted (k : κ) (f : ν → ν) {l : List (κ × ν)}
    (h : l.Pairwise (fun a b => a.1 < b.1)) :
    (modifyList k f l).Pairwise (fun a b => a.1 < b.1) := by
  refine List.pairwise_map.2 (h.imp fun {a b} hab => ?_)
  split <;> split <;> exact hab

theorem find_modifyList (k : κ) (f : ν → ν) (k' : κ) : ∀ (l : List (κ × ν)),
    find k' (modifyList k f l) = if k = k' then (find k' l).map f else find k' l
  | [] => by simp [modifyList, find]
  | e :: l => by
    have ih := find_modifyList k f k' l
    simp only [modifyList, List.map_cons] at ih ⊢
    by_cases he : e.1 = k
    · simp only [he, if_true, find, ih]
      split <;> simp
    · simp only [he, if_false, find, ih]
      split
      · rename_i hk
        rw [if_neg (fun h => he (hk.trans h.symm))]
      · rfl

/-- `if let Some(value) = map.get_mut(k) { *value = f(value) }`. -/
def modify (m : OrdMap κ ν) (k : κ) (f : ν → ν) : OrdMap κ ν :=
  ⟨modifyList k f m.entries, modifyList_sorted k f m.sorted⟩

@[simp] theorem get?_modify (m : OrdMap κ ν) (k k' : κ) (f : ν → ν) :
    (m.modify k f).get? k' = if k = k' then (m.get? k').map f else m.get? k' :=
  find_modifyList k f k' m.entries

/-- Values that carry their own key are listed in key order. -/
theorem stableSort_values {m : OrdMap κ ν} {key : ν → κ}
    (hkey : ∀ k v, m.get? k = some v → key v = k) :
    stableSort (fun left right => decide (key left ≤ key right)) m.values = m.values ∧
      m.values.map key = m.keys := by
  have hkeys : m.values.map key = m.keys := by
    unfold values keys
    rw [List.map_map]
    refine List.map_congr_left fun e he => ?_
    exact hkey e.1 e.2 (mem_entries.1 he)
  refine ⟨stableSort_of_pairwise ?_, hkeys⟩
  have hsorted := m.keys_pairwise
  rw [← hkeys, List.pairwise_map] at hsorted
  exact hsorted.imp fun hlt => by simpa using le_of_lt hlt

end OrdMap

end Base
