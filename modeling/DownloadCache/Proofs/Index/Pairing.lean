import DownloadCache.Proofs.Index.Change

/-!
# Entries and owners

The index lists its entries by key and the keys by the paths of their files.  In a paired index
the two lists say the same (`Paired`): the path of every entry is owned by the key of the entry,
and whoever owns a path has an entry with this path.  So no two keys have the same path
(`Paired.key_eq`).  All paths are those of names in one directory.

Every change of the index keeps it paired (`Paired.change`).
-/

namespace DownloadCache.Index

set_option autoImplicit false

/-- The key that owns a path with some components. -/
def owner? (index : Index) (components : List Component) : Option String :=
  index.owners.lookup components

/-- Entries and owners say the same, of paths of names in a directory. -/
structure Paired (directory : Path) (index : Index) : Prop where
  /-- No key is listed twice. -/
  distinct : (index.entries.map (·.1)).Nodup
  owner : ∀ {key : String} {entry : Entry}, index.entry? key = some entry →
    index.owner? entry.path.components = some key
  entry : ∀ {components : List Component} {key : String}, index.owner? components = some key →
    ∃ entry, index.entry? key = some entry ∧ entry.path.components = components
  place : ∀ {key : String} {entry : Entry}, index.entry? key = some entry →
    ∃ name, IsName name ∧ entry.path = directory.child name

variable {directory : Path} {maxSize : UInt64} {index later : Index}

theorem paired_empty (directory : Path) : Paired directory {} where
  distinct := List.nodup_nil
  owner := nofun
  entry := nofun
  place := nofun

/-- No two keys have the same path. -/
theorem Paired.key_eq (paired : Paired directory index) {key other : String}
    {entry entry' : Entry} (tracked : index.entry? key = some entry)
    (tracked' : index.entry? other = some entry')
    (same : entry.path.components = entry'.path.components) : key = other := by
  have owned := paired.owner tracked
  rw [same, paired.owner tracked'] at owned
  exact (Option.some.inj owned).symm

/-! ## Dropping -/

theorem owner?_drop (index : Index) (key : String) (entry : Entry)
    (components : List Component) :
    (index.drop key entry).owner? components =
      if components = entry.path.components then none else index.owner? components := by
  rw [owner?, drop, lookup_filter_bne]
  simp [owner?]

theorem Paired.drop (paired : Paired directory index) {key : String} {entry : Entry}
    (tracked : index.entry? key = some entry) : Paired directory (index.drop key entry) where
  distinct := paired.distinct.sublist (List.filter_sublist.map _)
  owner := by
    intro other entry' tracked'
    rw [entry_drop] at tracked'
    split at tracked'
    · cases tracked'
    · rename_i apart
      have differs : entry'.path.components ≠ entry.path.components := fun same =>
        apart (paired.key_eq tracked' tracked same)
      rw [owner?_drop, if_neg differs]
      exact paired.owner tracked'
  entry := by
    intro components other owned
    rw [owner?_drop] at owned
    split at owned
    · cases owned
    · rename_i apart
      obtain ⟨entry', tracked', same⟩ := paired.entry owned
      have differs : other ≠ key := by
        rintro rfl
        rw [tracked] at tracked'
        exact apart (Option.some.inj tracked' ▸ same.symm)
      exact ⟨entry', (entry_drop ..).trans ((if_neg differs).trans tracked'), same⟩
  place := by
    intro other entry' tracked'
    rw [entry_drop] at tracked'
    split at tracked'
    · cases tracked'
    · exact paired.place tracked'

/-! ## Entering a file -/

theorem entry_insert (index : Index) (now : Instant) (key : String) (path : Path)
    (size : UInt64) (validators : Validators) (other : String) :
    Index.entry? (index.insert now key path size validators) other =
      if other = key then some ⟨path, size, now, index.nextTicket, validators⟩
      else index.entry? other := by
  rw [Index.entry?, insert, List.lookup_cons]
  by_cases same : other = key
  · simp [same]
  · simp [same, beq_eq_false_iff_ne.mpr same, entry?]

theorem owner?_insert (index : Index) (now : Instant) (key : String) (path : Path)
    (size : UInt64) (validators : Validators) (components : List Component) :
    (index.insert now key path size validators).owner? components =
      if components = path.components then some key else index.owner? components := by
  rw [owner?, insert, List.lookup_cons]
  by_cases same : components = path.components
  · simp [same]
  · simp [same, beq_eq_false_iff_ne.mpr same, owner?]

theorem Paired.insert (paired : Paired directory index) {key name : String}
    (untracked : index.entry? key = none) (legal : IsName name)
    (free : index.owns (directory.child name) = false) (now : Instant) (size : UInt64)
    (validators : Validators) :
    Paired directory (index.insert now key (directory.child name) size validators) where
  distinct := by
    refine List.nodup_cons.mpr ⟨fun member => ?_, paired.distinct⟩
    obtain ⟨pair, listed, same⟩ := List.mem_map.mp member
    exact ne_of_lookup_eq_none untracked listed same
  owner := by
    intro other entry tracked
    rw [entry_insert] at tracked
    rw [owner?_insert]
    split at tracked
    · rename_i same
      cases tracked
      rw [if_pos rfl, same]
    · have owned := paired.owner tracked
      have differs : entry.path.components ≠ (directory.child name).components := by
        intro same
        rw [same] at owned
        exact absurd (Option.isSome_iff_exists.mpr ⟨other, owned⟩) (Bool.eq_false_iff.mp free)
      rw [if_neg differs, owned]
  entry := by
    intro components other owned
    rw [owner?_insert] at owned
    split at owned
    · rename_i same
      cases owned
      exact ⟨_, (entry_insert ..).trans (if_pos rfl), same.symm⟩
    · obtain ⟨entry, tracked, same⟩ := paired.entry owned
      have differs : other ≠ key := by
        rintro rfl
        rw [untracked] at tracked
        cases tracked
      exact ⟨entry, (entry_insert ..).trans ((if_neg differs).trans tracked), same⟩
  place := by
    intro other entry tracked
    rw [entry_insert] at tracked
    split at tracked
    · cases tracked
      exact ⟨name, legal, rfl⟩
    · exact paired.place tracked

/-! ## Accesses -/

/-- What an access to a key makes of the entry of any key. -/
def accessed (index : Index) (now : Instant) (key other : String) (entry : Entry) : Entry :=
  if other = key then { entry with accessed := now, ticket := index.nextTicket } else entry

theorem entries_touch (index : Index) (now : Instant) (key : String) :
    (index.touch now key).entries =
      index.entries.map fun pair => (pair.1, index.accessed now key pair.1 pair.2) := by
  rw [touch]
  refine List.map_congr_left fun pair _ => ?_
  dsimp only [accessed]
  split <;> rfl

/-- An access keeps all of an entry but its recency. -/
theorem accessed_keeps (index : Index) (now : Instant) (key other : String) (entry : Entry) :
    (index.accessed now key other entry).path = entry.path ∧
      (index.accessed now key other entry).size = entry.size ∧
      (index.accessed now key other entry).validators = entry.validators := by
  rw [accessed]
  split <;> exact ⟨rfl, rfl, rfl⟩

theorem entry_touch (index : Index) (now : Instant) (key other : String) :
    Index.entry? (index.touch now key) other =
      (index.entry? other).map (index.accessed now key other) := by
  rw [Index.entry?, entries_touch, lookup_map_values]
  rfl

theorem Paired.touch (paired : Paired directory index) (now : Instant) (key : String) :
    Paired directory (index.touch now key) where
  distinct := by
    rw [entries_touch, List.map_map]
    exact paired.distinct
  owner := by
    intro other entry' tracked'
    rw [entry_touch] at tracked'
    obtain ⟨entry, tracked, rfl⟩ := Option.map_eq_some_iff.mp tracked'
    rw [(index.accessed_keeps now key other entry).1]
    exact paired.owner tracked
  entry := by
    intro components other owned
    obtain ⟨entry, tracked, same⟩ := paired.entry owned
    refine ⟨_, (entry_touch ..).trans (congrArg _ tracked), ?_⟩
    rw [(index.accessed_keeps now key other entry).1, same]
  place := by
    intro other entry' tracked'
    rw [entry_touch] at tracked'
    obtain ⟨entry, tracked, rfl⟩ := Option.map_eq_some_iff.mp tracked'
    rw [(index.accessed_keeps now key other entry).1]
    exact paired.place tracked

/-! ## All changes -/

/-- Counters do not matter. -/
theorem Paired.count (paired : Paired directory index) (evictions failedRemovals : Nat) :
    Paired directory { index with evictions, failedRemovals } :=
  ⟨paired.distinct, paired.owner, paired.entry, paired.place⟩

/-- **Every change of an index keeps it paired.** -/
theorem Paired.change (change : Change directory maxSize index later)
    (paired : Paired directory index) : Paired directory later := by
  cases change with
  | drop tracked => exact paired.drop tracked
  | count evictions failedRemovals => exact paired.count evictions failedRemovals
  | insert now validators untracked legal free fits room =>
      exact paired.insert untracked legal free now _ validators
  | touch now key => exact paired.touch now key

end DownloadCache.Index
