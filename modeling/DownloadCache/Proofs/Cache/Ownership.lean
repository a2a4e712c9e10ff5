import DownloadCache.Cache.Opening
import DownloadCache.Proofs.Cache.Evolution
import DownloadCache.Proofs.Index.Pairing

/-!
# Keys and paths of a cache

A cache that has been opened starts with an empty index in a directory with an absolute path
(`isAbsolute_of_openCache`).  From then on, whatever the cache does and whatever others do to the
file system, the index stays paired (`paired_run`): keys and paths correspond one to one, and
every path is that of a name in the directory (`entries_and_owners_correspond`).
-/

namespace DownloadCache

set_option autoImplicit false

/-! ## Opening -/

section Opening

variable {files opened : FileSystem} {directory : Path} {maxSize : UInt64} {verifySize : Bool}
  {cache : Cache}
  (opens : files.openCache directory maxSize verifySize = (.ok cache, opened))

include opens

/-- A cache that has been opened has an empty index and the settings that were asked for. -/
theorem eq_of_openCache :
    opened.canonical directory = .ok cache.directory ∧
      (files.makeDirectories directory).1 = .ok () ∧
      (files.makeDirectories directory).2 = opened ∧
      cache.maxSize = maxSize ∧ cache.verifySize = verifySize ∧ cache.index = {} := by
  rw [FileSystem.openCache] at opens
  split at opens
  · cases opens
  · rename_i made making
    split at opens
    · cases opens
    · rename_i path canonical
      cases opens
      exact ⟨canonical, by rw [making], by rw [making], rfl, rfl, rfl⟩

/-- The directory of a cache that has been opened is spelled from the root on. -/
theorem isAbsolute_of_openCache : cache.directory.isAbsolute = true := by
  obtain ⟨canonical, -⟩ := eq_of_openCache opens
  obtain ⟨-, _, location, -, -, -, same⟩ := FileSystem.canonical_eq_ok_iff.mp canonical
  rw [same]
  exact FileSystem.isAbsolute_pathOf location

theorem directory_ne_empty_of_openCache : cache.directory.text ≠ "" := by
  intro empty
  have absolute := isAbsolute_of_openCache opens
  rw [Path.isAbsolute, empty] at absolute
  cases absolute

/-! ## Runs -/

/-- The index of a cache that has been opened stays paired. -/
theorem paired_run (events : List Event) :
    Index.Paired cache.directory ((Site.mk cache opened).run events).cache.index := by
  have evolves : Site.Evolves ⟨cache, opened⟩ _ :=
    Site.evolves_run (directory_ne_empty_of_openCache opens) events
  obtain ⟨-, -, -, -, -, empty⟩ := eq_of_openCache opens
  have start : Index.Paired cache.directory cache.index :=
    empty ▸ Index.paired_empty cache.directory
  exact evolves.index.keeps (Index.Paired cache.directory) Index.Paired.change start

/-- **Keys and paths of a cache correspond one to one.**  After every run, the path of every entry
is owned by the key of the entry, whoever owns a path has an entry with this path, no two keys have
the same path, and every path is that of a name in the directory of the cache. -/
theorem entries_and_owners_correspond (events : List Event) :
    let index := ((Site.mk cache opened).run events).cache.index
    (∀ key entry, index.entry? key = some entry →
        index.owner? entry.path.components = some key) ∧
      (∀ components key, index.owner? components = some key →
        ∃ entry, index.entry? key = some entry ∧ entry.path.components = components) ∧
      (∀ key entry other entry', index.entry? key = some entry →
        index.entry? other = some entry' → entry.path.components = entry'.path.components →
          key = other) ∧
      ∀ key entry, index.entry? key = some entry →
        ∃ name, IsName name ∧ entry.path = cache.directory.child name ∧
          entry.path.components = cache.directory.components ++ [.name name] := by
  intro index
  have paired : index.Paired cache.directory := paired_run opens events
  refine ⟨fun key entry tracked => paired.owner tracked,
    fun components key owned => paired.entry owned,
    fun key entry other entry' tracked tracked' same => paired.key_eq tracked tracked' same,
    fun key entry tracked => ?_⟩
  obtain ⟨name, legal, path⟩ := paired.place tracked
  exact ⟨name, legal, path, path ▸ Path.components_child cache.directory legal⟩

end Opening

/-- Two files of one name get two paths, and each is owned by its key. -/
theorem entries_and_owners_correspond_of_same_name :
    let disk := FileSystem.empty.create ["c"] .directory
    let index := ((Site.mk ⟨⟨"/c"⟩, 9, false, {}⟩ disk).run
      [.outside (disk.create ["f"] (.file [1])), .add 0 "a" ⟨"/f"⟩ 1 {},
        .outside ((disk.create ["f", "c"] (.file [1])).create ["f"] (.file [2])),
        .add 1 "b" ⟨"/f"⟩ 1 {}]).cache.index
    FileSystem.empty.openCache ⟨"/c"⟩ 9 false = (.ok ⟨⟨"/c"⟩, 9, false, {}⟩, disk) ∧
      index.entry? "b" = some ⟨⟨"/c/f-1"⟩, 1, 1, 1, {}⟩ ∧
      index.owner? [.root, .name "c", .name "f-1"] = some "b" := by
  intro disk index
  have opens : FileSystem.empty.openCache ⟨"/c"⟩ 9 false = (.ok ⟨⟨"/c"⟩, 9, false, {}⟩, disk) := by
    decide +kernel
  have tracked : index.entry? "b" = some ⟨⟨"/c/f-1"⟩, 1, 1, 1, {}⟩ := by decide +kernel
  have owned := (entries_and_owners_correspond opens _).1 "b" _ tracked
  have components : (Path.mk "/c/f-1").components = [.root, .name "c", .name "f-1"] := by
    decide +kernel
  rw [components] at owned
  exact ⟨opens, tracked, owned⟩

end DownloadCache
