import Mathlib.Data.List.TakeWhile
import LorePia.Content.Archive

/-!
# The registered paths form a tree

One registration compares a path with the paths before it: it is new, no file is above it, and a file has
nothing below it (`registerArchivePath_eq_ok`). That relation is symmetric (`Compatible`), so a list of paths is
registered exactly when its entries are pairwise compatible, in whatever order they come
(`registerArchivePaths_iff`).
-/

namespace LorePia

open Base

/-! ## The upward loop -/

theorem dropWhile_ne_eq_cons {c : Char} {text : List Char} (h : c ∈ text) :
    text.dropWhile (· ≠ c) = c :: (text.dropWhile (· ≠ c)).drop 1 := by
  induction text with
  | nil => simp at h
  | cons a text ih =>
    by_cases ha : a = c
    · simp [ha]
    · have hmem : c ∈ text := by simpa [Ne.symm ha] using h
      rw [List.dropWhile_cons, if_pos (by simpa using ha)]
      exact ih hmem

theorem rsplitOnce_eq_some {c : Char} {text parent name : List Char} (h : rsplitOnce c text = some (parent, name)) :
    text = parent ++ c :: name ∧ c ∉ name := by
  unfold rsplitOnce at h
  split at h
  · rename_i hmem
    simp only [Option.some.injEq, Prod.mk.injEq] at h
    obtain ⟨rfl, rfl⟩ := h
    constructor
    · have hsplit := List.takeWhile_append_dropWhile (p := fun a : Char => decide (a ≠ c)) (l := text.reverse)
      rw [dropWhile_ne_eq_cons (List.mem_reverse.2 hmem)] at hsplit
      have htext := congrArg List.reverse hsplit
      rw [List.reverse_reverse, List.reverse_append, List.reverse_cons, List.append_assoc,
        List.singleton_append] at htext
      exact htext.symm
    · intro hin
      simpa using List.mem_takeWhile_imp (List.mem_reverse.1 hin)
  · cases h

theorem rsplitOnce_eq_none {c : Char} {text : List Char} (h : rsplitOnce c text = none) : c ∉ text := by
  unfold rsplitOnce at h
  split at h
  · cases h
  · assumption

/-- The parents of a path are its last parent and the parents of that one. -/
theorem parent_prefix_iff {c : Char} {parent name text : List Char} (hname : c ∉ name) :
    (text ++ [c]) <+: (parent ++ c :: name) ↔ text = parent ∨ (text ++ [c]) <+: parent := by
  constructor
  · rintro ⟨rest, hrest⟩
    rw [List.append_assoc, List.singleton_append] at hrest
    rcases List.append_eq_append_iff.1 hrest with ⟨more, hparent, hmore⟩ | ⟨more, rfl, hmore⟩
    · -- the text ends before the last parent does
      cases more with
      | nil => exact .inl (by simpa using hparent.symm)
      | cons a more =>
        rw [List.cons_append, List.cons.injEq] at hmore
        obtain ⟨rfl, -⟩ := hmore
        exact .inr ⟨more, by rw [hparent]; simp⟩
    · cases more with
      | nil => exact .inl (by simp)
      | cons a more =>
        rw [List.cons_append, List.cons.injEq] at hmore
        obtain ⟨-, rfl⟩ := hmore
        simp at hname
  · rintro (rfl | hprefix)
    · exact ⟨name, by simp⟩
    · exact hprefix.trans (List.prefix_append _ _)

section
variable {archivePaths : OrdMap String Bool} {originalName : String}

/-- **The loop finds every file above the path.** -/
theorem rejectFileAncestor_eq_ok : ∀ {fuel : Nat} {text : List Char} {u : Unit}, text.length ≤ fuel →
    (rejectFileAncestor archivePaths originalName fuel text = .ok u ↔
      ∀ parent, (parent ++ ['/']) <+: text → archivePaths.get? (String.ofList parent) ≠ some false)
  | 0, text, u, hfuel => by
    obtain rfl := List.length_eq_zero_iff.1 (Nat.le_zero.1 hfuel)
    simp [rejectFileAncestor]
  | fuel + 1, text, u, hfuel => by
    unfold rejectFileAncestor
    cases hsplit : rsplitOnce '/' text with
    | none =>
      have hnone := rsplitOnce_eq_none hsplit
      simp only [true_iff]
      intro parent hstart
      exact absurd (hstart.subset (by simp)) hnone
    | some split =>
      obtain ⟨parent, name⟩ := split
      obtain ⟨rfl, hname⟩ := rsplitOnce_eq_some hsplit
      have hlength : parent.length ≤ fuel := by
        simp only [List.length_append, List.length_cons] at hfuel
        omega
      simp only [seq_eq_ok, rejectIf_eq_ok, rejectFileAncestor_eq_ok hlength, parent_prefix_iff hname]
      constructor
      · rintro ⟨hparent, habove⟩ text (rfl | hprefix)
        · exact hparent
        · exact habove text hprefix
      · intro h
        exact ⟨h parent (.inl rfl), fun text hprefix => h text (.inr hprefix)⟩

/-- **What a registration asks and does.** -/
theorem registerArchivePath_eq_ok {collisionKey : String} {isDirectory : Bool}
    {registered : OrdMap String Bool} :
    registerArchivePath archivePaths collisionKey isDirectory originalName = .ok registered ↔
      archivePaths.get? collisionKey = none ∧
        (∀ parent, (parent ++ ['/']) <+: collisionKey.toList →
          archivePaths.get? (String.ofList parent) ≠ some false) ∧
        (isDirectory = false → ∀ path ∈ archivePaths.keys, ¬ (collisionKey.toList ++ ['/']) <+: path.toList) ∧
        registered = archivePaths.insert collisionKey isDirectory := by
  unfold registerArchivePath
  simp only [seq_eq_ok, rejectIf_eq_ok, pure_eq_ok, rejectFileAncestor_eq_ok (Nat.le_of_eq String.length_toList),
    List.isPrefixOf_iff_prefix, not_and, not_exists, eq_comm (a := registered)]
  simp only [OrdMap.contains, Bool.not_eq_true, Option.isSome_eq_false_iff, Option.isNone_iff_eq_none]

end

/-! ## Registering a list -/

/-- A path with its kind and the name that is reported. -/
structure ArchivePathEntry where
  collisionKey : String
  isDirectory : Bool
  originalName : String

/-- The entries are registered one after another. -/
def registerArchivePaths (entries : List ArchivePathEntry) : Except CoreError (OrdMap String Bool) :=
  entries.foldlM (fun archivePaths entry =>
    registerArchivePath archivePaths entry.collisionKey entry.isDirectory entry.originalName) .empty

/-- A proper ancestor in the tree of paths. -/
def IsAncestor (path other : String) : Prop := (path.toList ++ ['/']) <+: other.toList

theorem not_isAncestor_self (path : String) : ¬ IsAncestor path path := by
  intro h
  have hlength := h.length_le
  simp at hlength

/-- Neither is a file above the other. -/
def Untangled (a b : ArchivePathEntry) : Prop :=
  (a.isDirectory = false → ¬ IsAncestor a.collisionKey b.collisionKey) ∧
    (b.isDirectory = false → ¬ IsAncestor b.collisionKey a.collisionKey)

instance : Std.Symm Untangled := ⟨fun _ _ h => ⟨h.2, h.1⟩⟩

/-- Two entries of one tree. -/
def Compatible (a b : ArchivePathEntry) : Prop := a.collisionKey ≠ b.collisionKey ∧ Untangled a b

/-- The map holds the kinds of the entries. -/
def Registers (entries : List ArchivePathEntry) (archivePaths : OrdMap String Bool) : Prop :=
  ∀ path isDirectory, archivePaths.get? path = some isDirectory ↔
    ∃ entry ∈ entries, entry.collisionKey = path ∧ entry.isDirectory = isDirectory

theorem Registers.get?_eq_none {entries : List ArchivePathEntry} {archivePaths : OrdMap String Bool}
    (h : Registers entries archivePaths) {path : String} :
    archivePaths.get? path = none ↔ ∀ entry ∈ entries, entry.collisionKey ≠ path := by
  rw [Option.eq_none_iff_forall_ne_some]
  constructor
  · rintro hnone entry hentry rfl
    exact hnone _ ((h _ _).2 ⟨entry, hentry, rfl, rfl⟩)
  · intro hall isDirectory hsome
    obtain ⟨entry, hentry, hkey, -⟩ := (h _ _).1 hsome
    exact hall entry hentry hkey

/-- **A registration succeeds exactly for an entry that is compatible with all before it.** -/
theorem Registers.exists_ok_iff {entries : List ArchivePathEntry} {archivePaths : OrdMap String Bool}
    (h : Registers entries archivePaths) (entry : ArchivePathEntry) :
    (∃ registered, registerArchivePath archivePaths entry.collisionKey entry.isDirectory entry.originalName =
      .ok registered) ↔ ∀ other ∈ entries, Compatible other entry := by
  simp only [registerArchivePath_eq_ok, exists_and_left, exists_eq, and_true, h.get?_eq_none]
  constructor
  · rintro ⟨hnew, habove, hbelow⟩ other hother
    refine ⟨hnew other hother, fun hfile hancestor => ?_, fun hfile hancestor => ?_⟩
    · refine habove _ hancestor ((h _ _).2 ⟨other, hother, ?_, hfile⟩)
      rw [String.ofList_toList]
    · refine hbelow hfile _ ?_ hancestor
      rw [OrdMap.mem_keys, OrdMap.contains, (h _ _).2 ⟨other, hother, rfl, rfl⟩]
      rfl
  · intro hall
    refine ⟨fun other hother => (hall other hother).1, fun parent hprefix hfile => ?_, fun hfile path hpath hprefix => ?_⟩
    · obtain ⟨other, hother, hkey, hkind⟩ := (h _ _).1 hfile
      refine (hall other hother).2.1 hkind ?_
      rw [IsAncestor, hkey, String.toList_ofList]
      exact hprefix
    · rw [OrdMap.mem_keys, OrdMap.contains, Option.isSome_iff_exists] at hpath
      obtain ⟨isDirectory, hsome⟩ := hpath
      obtain ⟨other, hother, rfl, -⟩ := (h _ _).1 hsome
      exact (hall other hother).2.2 hfile hprefix

theorem Registers.step {entries : List ArchivePathEntry} {archivePaths registered : OrdMap String Bool}
    (h : Registers entries archivePaths) {entry : ArchivePathEntry}
    (hok : registerArchivePath archivePaths entry.collisionKey entry.isDirectory entry.originalName =
      .ok registered) : Registers (entries ++ [entry]) registered := by
  obtain ⟨hnew, -, -, rfl⟩ := registerArchivePath_eq_ok.1 hok
  rw [h.get?_eq_none] at hnew
  intro path isDirectory
  rw [OrdMap.get?_insert]
  simp only [List.mem_append, List.mem_singleton, or_and_right, exists_or, exists_eq_left]
  split
  · rename_i hpath
    subst hpath
    constructor
    · intro hkind
      exact .inr ⟨rfl, Option.some.inj hkind⟩
    · rintro (⟨other, hother, hkey, -⟩ | ⟨-, rfl⟩)
      · exact absurd hkey (hnew other hother)
      · rfl
  · rename_i hpath
    rw [h path isDirectory]
    constructor
    · exact .inl
    · rintro (hother | ⟨hkey, -⟩)
      · exact hother
      · exact absurd hkey hpath

theorem pairwise_compatible_iff {entries : List ArchivePathEntry} :
    entries.Pairwise Compatible ↔ (entries.map (·.collisionKey)).Nodup ∧
      ∀ a ∈ entries, a.isDirectory = false → ∀ b ∈ entries, ¬ IsAncestor a.collisionKey b.collisionKey := by
  have hand : entries.Pairwise Compatible ↔
      entries.Pairwise (fun a b => a.collisionKey ≠ b.collisionKey) ∧ entries.Pairwise Untangled :=
    List.pairwise_and_iff
  rw [hand, List.Nodup, List.pairwise_map]
  refine and_congr_right fun _ => ?_
  constructor
  · intro h a ha hfile b hb
    have hself : ∀ c ∈ entries, Untangled c c := fun c _ =>
      ⟨fun _ => not_isAncestor_self _, fun _ => not_isAncestor_self _⟩
    exact (h.forall_of_forall hself ha hb).1 hfile
  · intro h
    refine List.pairwise_of_forall_mem_list fun a ha b hb => ?_
    exact ⟨fun hfile => h a ha hfile b hb, fun hfile => h b hb hfile a ha⟩

theorem exists_registerArchivePaths_iff (entries : List ArchivePathEntry) :
    (∃ archivePaths, registerArchivePaths entries = .ok archivePaths) ↔ entries.Pairwise Compatible := by
  have hempty : Registers [] .empty := by
    intro path isDirectory
    simp
  exact exists_foldlM_ok_iff_pairwise (I := Registers) (fun _ entry _ h => h.exists_ok_iff entry)
    (fun _ _ _ _ h hok => h.step hok) hempty .nil

/-- **The paths that can be registered form a tree whose inner nodes are no files**, and the order in which
they are registered does not matter. -/
theorem registerArchivePaths_iff :
    (∀ entries, (∃ archivePaths, registerArchivePaths entries = .ok archivePaths) ↔
      (entries.map (·.collisionKey)).Nodup ∧
        ∀ a ∈ entries, a.isDirectory = false → ∀ b ∈ entries, ¬ IsAncestor a.collisionKey b.collisionKey) ∧
      ∀ entries entries', entries.Perm entries' →
        ((∃ archivePaths, registerArchivePaths entries = .ok archivePaths) ↔
          ∃ archivePaths, registerArchivePaths entries' = .ok archivePaths) := by
  constructor
  · intro entries
    rw [exists_registerArchivePaths_iff, pairwise_compatible_iff]
  · intro entries entries' hperm
    rw [exists_registerArchivePaths_iff, exists_registerArchivePaths_iff]
    exact hperm.pairwise_iff fun h => ⟨h.1.symm, symm h.2⟩

/-- A directory, its file, and a file in a directory that has no entry. -/
def cardPaths : List ArchivePathEntry :=
  [⟨"assets", true, "assets/"⟩, ⟨"assets/lamp.png", false, "assets/Lamp.png"⟩, ⟨"lore/book.json", false, "lore/book.json"⟩]

theorem registerArchivePaths_iff_cardPaths : (∃ archivePaths, registerArchivePaths cardPaths = .ok archivePaths) ∧
    ∃ archivePaths, registerArchivePaths cardPaths.reverse = .ok archivePaths := by
  have hok : ∃ archivePaths, registerArchivePaths cardPaths = .ok archivePaths := exists_ok (by decide +kernel)
  exact ⟨hok, (registerArchivePaths_iff.2 _ _ (List.reverse_perm cardPaths).symm).1 hok⟩

end LorePia
