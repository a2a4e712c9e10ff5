import DownloadCache.Proofs.Cache.Standing

/-!
# Shedding entries

Dropping keys and making room shed entries: some keys lose theirs, all others keep theirs as they
are, and of the file system the paths of the dropped entries are removed, one after the other
(`Sheds`).  This is so of every stage of an adoption before the file is settled (`sheds_drop`,
`exists_sheds_ready`), and shedding twice is shedding (`Sheds.trans`).

Where the path of the directory leads to a directory and not through what that holds, a removal of
several names there concerns what is under these names only (`Houses.removeAll`).  So the
path of an entry that is left names what it named (`Sheds.numberAt?_eq`).
-/

namespace DownloadCache

set_option autoImplicit false

open FileSystem

/-! ## Removals in a row -/

namespace FileSystem

/-- Removes what some paths name, one after the other. -/
def removeAll (files : FileSystem) (paths : List Path) : FileSystem :=
  paths.foldl (fun files path => (files.remove path).2) files

@[simp]
theorem removeAll_nil (files : FileSystem) : files.removeAll [] = files := rfl

@[simp]
theorem removeAll_cons (files : FileSystem) (path : Path) (rest : List Path) :
    files.removeAll (path :: rest) = (files.remove path).2.removeAll rest := rfl

theorem removeAll_append (files : FileSystem) (first second : List Path) :
    files.removeAll (first ++ second) = (files.removeAll first).removeAll second :=
  List.foldl_append

/-- Removals in a row shrink a well-formed file system. -/
theorem WellFormed.removeAll {files : FileSystem} (wellFormed : files.WellFormed)
    (paths : List Path) :
    (files.removeAll paths).WellFormed ∧ Shrinks files (files.removeAll paths) := by
  induction paths generalizing files with
  | nil => exact ⟨wellFormed, .refl files⟩
  | cons path rest ih =>
      have removal := wellFormed.removal_remove path
      obtain ⟨later, further⟩ := ih (removal.wellFormed wellFormed)
      exact ⟨later, (removal.shrinks wellFormed).trans further⟩

variable {files : FileSystem} {directory : Path} {home : Location}

/-- **Removing names of a directory concerns what is under these names only,** and leaves the way to
the directory alone. -/
theorem Houses.removeAll (houses : files.Houses directory home) (wellFormed : files.WellFormed)
    (absolute : directory.isAbsolute = true) {names : List String}
    (legal : ∀ name ∈ names, IsName name) :
    (files.removeAll (names.map directory.child)).Houses directory home ∧
      ∀ location, (∀ name ∈ names, ¬name :: home <:+ location) →
        (files.removeAll (names.map directory.child)).object? location =
          files.object? location := by
  induction names generalizing files with
  | nil => exact ⟨houses, fun _ _ => rfl⟩
  | cons name rest ih =>
      rw [List.forall_mem_cons] at legal
      have removal := wellFormed.removal_remove (directory.child name)
      obtain ⟨still, frame⟩ := houses.remove_child absolute legal.1 removal
      obtain ⟨last, further⟩ := ih still (removal.wellFormed wellFormed) legal.2
      refine ⟨last, fun location outside => ?_⟩
      rw [List.forall_mem_cons] at outside
      exact (further location outside.2).trans (frame location outside.1)

end FileSystem

namespace Site

/-! ## Shedding -/

/-- What becomes of a site when some entries are dropped with their files: all other entries are
kept as they are. -/
structure Sheds (site : Site) (dropped : List (String × Entry)) (later : Site) : Prop where
  tracked : ∀ {key : String} {entry : Entry}, (key, entry) ∈ dropped →
    site.cache.index.entry? key = some entry
  distinct : (dropped.map (·.1)).Nodup
  entry : ∀ key, later.cache.index.entry? key =
    if key ∈ dropped.map (·.1) then none else site.cache.index.entry? key
  files : later.files = site.files.removeAll (dropped.map (·.2.path))

variable {site between later : Site} {dropped first second : List (String × Entry)}

theorem Sheds.refl (site : Site) : site.Sheds [] site where
  tracked := nofun
  distinct := List.nodup_nil
  entry _ := rfl
  files := rfl

/-- Shedding twice is shedding. -/
theorem Sheds.trans (before : site.Sheds first between) (after : between.Sheds second later) :
    site.Sheds (first ++ second) later where
  tracked := by
    intro key entry member
    rcases List.mem_append.mp member with member | member
    · exact before.tracked member
    · have tracked := after.tracked member
      rw [before.entry] at tracked
      split at tracked
      · cases tracked
      · exact tracked
  distinct := by
    rw [List.map_append]
    refine before.distinct.append after.distinct fun key gone member => ?_
    obtain ⟨⟨_, entry⟩, listed, rfl⟩ := List.mem_map.mp member
    have tracked := after.tracked listed
    rw [before.entry, if_pos gone] at tracked
    cases tracked
  entry key := by
    rw [after.entry, before.entry, List.map_append]
    by_cases early : key ∈ first.map (·.1) <;> by_cases late : key ∈ second.map (·.1) <;>
      simp [early, late]
  files := by rw [after.files, before.files, List.map_append, removeAll_append]

/-- The entries that are dropped are those that a site had and has no longer. -/
theorem Sheds.mem_iff (sheds : site.Sheds dropped later) {key : String} {entry : Entry} :
    (key, entry) ∈ dropped ↔
      site.cache.index.entry? key = some entry ∧ later.cache.index.entry? key = none := by
  constructor
  · intro member
    have listed : key ∈ dropped.map (·.1) := List.mem_map_of_mem member
    exact ⟨sheds.tracked member, by rw [sheds.entry, if_pos listed]⟩
  · rintro ⟨tracked, gone⟩
    rw [sheds.entry] at gone
    split at gone
    · rename_i listed
      obtain ⟨⟨_, entry'⟩, member, rfl⟩ := List.mem_map.mp listed
      have same := sheds.tracked member
      rw [tracked] at same
      cases same
      exact member
    · rw [tracked] at gone
      cases gone

/-- What is left is as it was. -/
theorem Sheds.entry_of_some (sheds : site.Sheds dropped later) {key : String} {entry : Entry}
    (tracked : later.cache.index.entry? key = some entry) :
    site.cache.index.entry? key = some entry := by
  rw [sheds.entry] at tracked
  split at tracked
  · cases tracked
  · exact tracked

theorem Sheds.path_of_some (sheds : site.Sheds dropped later) {key : String} {path : Path}
    (tracked : later.cache.path? key = some path) : site.cache.path? key = some path := by
  obtain ⟨entry, left, rfl⟩ := Option.map_eq_some_iff.mp tracked
  rw [Cache.path?, sheds.entry_of_some left]
  rfl

/-- Counters do not matter. -/
theorem Sheds.count (sheds : site.Sheds dropped later) (evictions : Nat) :
    site.Sheds dropped (later.withIndex { later.cache.index with evictions }) :=
  ⟨sheds.tracked, sheds.distinct, sheds.entry, sheds.files⟩

/-! ## Stages of an adoption -/

/-- Dropping a key sheds its entry. -/
theorem sheds_drop (site : Site) (key : String) :
    site.Sheds ((site.cache.index.entry? key).toList.map (key, ·)) (site.drop key) := by
  have entries := site.entry_drop key
  cases found : site.cache.index.entry? key with
  | none =>
      rw [drop, found]
      exact .refl site
  | some entry =>
      refine ⟨?_, by simp, fun other => ?_, ?_⟩
      · intro other entry' member
        cases List.mem_singleton.mp member
        exact found
      · rw [entries other]
        simp
      · obtain ⟨failedRemovals, same⟩ := site.dropEntry_eq key entry
        simp [drop, found, same]

theorem exists_sheds_evictOldest (site : Site) :
    ∃ dropped, site.Sheds dropped site.evictOldest := by
  rw [evictOldest]
  split
  · exact ⟨[], .refl site⟩
  · rename_i key _
    exact ⟨_, (site.sheds_drop key).count _⟩

theorem exists_sheds_makeRoomWithin (site : Site) (size : UInt64) (entries : Nat) :
    ∃ dropped, site.Sheds dropped (site.makeRoomWithin size entries) := by
  induction entries generalizing site with
  | zero => exact ⟨[], .refl site⟩
  | succ entries ih =>
      rw [makeRoomWithin]
      split
      · obtain ⟨first, evicted⟩ := site.exists_sheds_evictOldest
        obtain ⟨second, made⟩ := ih site.evictOldest
        exact ⟨first ++ second, evicted.trans made⟩
      · exact ⟨[], .refl site⟩

/-- The site in which a file is settled: its key has been dropped, and room has been made. -/
def ready (site : Site) (key : String) (size : UInt64) : Site :=
  (site.drop key).makeRoom size

/-- **Dropping the key and making room sheds entries.** -/
theorem exists_sheds_ready (site : Site) (key : String) (size : UInt64) :
    ∃ dropped, site.Sheds dropped (site.ready key size) := by
  obtain ⟨evicted, made⟩ := (site.drop key).exists_sheds_makeRoomWithin size
    (site.drop key).cache.index.entries.length
  exact ⟨_, (site.sheds_drop key).trans made⟩

variable {home there : Location}

theorem Rooted.ready (rooted : Rooted home site) (key : String) (size : UInt64) :
    Rooted home (site.ready key size) :=
  rooted.evolves ((site.evolves_drop key).trans (evolves_makeRoom _ size))

/-! ## What is left in the file system -/

theorem Sheds.wellFormed (sheds : site.Sheds dropped later) (wellFormed : site.files.WellFormed) :
    later.files.WellFormed :=
  sheds.files ▸ (wellFormed.removeAll _).1

theorem Sheds.shrinks (sheds : site.Sheds dropped later) (wellFormed : site.files.WellFormed) :
    Shrinks site.files later.files :=
  sheds.files ▸ (wellFormed.removeAll _).2

/-- The paths of dropped entries are those of names in the directory. -/
theorem Sheds.exists_names (sheds : site.Sheds dropped later) (rooted : Rooted home site) :
    ∃ names : List String, (∀ name ∈ names, IsName name) ∧
      dropped.map (·.2.path) = names.map site.cache.directory.child := by
  have each : ∀ path ∈ dropped.map (·.2.path), ∃ name, IsName name ∧
      path = site.cache.directory.child name := by
    intro path member
    obtain ⟨⟨key, entry⟩, listed, rfl⟩ := List.mem_map.mp member
    rw [rooted.directory]
    exact rooted.paired.place (sheds.tracked listed)
  generalize dropped.map (·.2.path) = paths at each
  induction paths with
  | nil => exact ⟨[], nofun, rfl⟩
  | cons path rest ih =>
      rw [List.forall_mem_cons] at each
      obtain ⟨name, legal, rfl⟩ := each.1
      obtain ⟨names, others, rfl⟩ := ih each.2
      exact ⟨name :: names, List.forall_mem_cons.mpr ⟨legal, others⟩, rfl⟩

/-- **Shedding concerns what is under the names of the dropped entries only,** and leaves the way to
the directory alone. -/
theorem Sheds.frame (sheds : site.Sheds dropped later) (rooted : Rooted home site)
    (wellFormed : site.files.WellFormed)
    (houses : site.files.Houses site.cache.directory there) :
    later.files.Houses site.cache.directory there ∧
      ∀ location, (∀ name, IsName name →
          site.cache.directory.child name ∈ dropped.map (·.2.path) →
            ¬name :: there <:+ location) →
        later.files.object? location = site.files.object? location := by
  obtain ⟨names, legal, paths⟩ := sheds.exists_names rooted
  obtain ⟨still, frame⟩ := houses.removeAll wellFormed rooted.isAbsolute legal
  rw [sheds.files, paths]
  exact ⟨still, fun location outside => frame location fun name member =>
    outside name (legal name member) (List.mem_map_of_mem member)⟩

/-- The path of a dropped entry has the location of a name in the directory. -/
theorem Sheds.exists_location_eq (sheds : site.Sheds dropped later) (rooted : Rooted home site)
    {pair : String × Entry} (listed : pair ∈ dropped) :
    ∃ name, pair.2.path.location = name :: home := by
  obtain ⟨name, legal, path⟩ := rooted.paired.place (sheds.tracked listed)
  exact ⟨name, by rw [path, rooted.location_name legal]⟩

/-- With the directory in place, what is not within the path of a dropped entry stays as it is. -/
theorem Sheds.frame_in_place (sheds : site.Sheds dropped later) (rooted : Rooted home site)
    (wellFormed : site.files.WellFormed) (directory : site.files.IsDirectory home)
    {location : Location} (outside : ∀ pair ∈ dropped, ¬pair.2.path.location <:+ location) :
    later.files.object? location = site.files.object? location := by
  have houses : site.files.Houses site.cache.directory home :=
    rooted.directory ▸ wellFormed.houses directory
  refine (sheds.frame rooted wellFormed houses).2 location fun name legal member => ?_
  obtain ⟨pair, listed, path⟩ := List.mem_map.mp member
  have apart := outside pair listed
  rwa [path, location_child _ legal, rooted.location_eq] at apart

/-- Shedding leaves the directory in place. -/
theorem Sheds.isDirectory (sheds : site.Sheds dropped later) (rooted : Rooted home site)
    (wellFormed : site.files.WellFormed) (directory : site.files.IsDirectory home) :
    later.files.IsDirectory home := by
  refine directory.of_same (sheds.frame_in_place rooted wellFormed directory ?_)
  intro pair listed within
  obtain ⟨name, place⟩ := sheds.exists_location_eq rooted listed
  exact not_cons_suffix name home (place ▸ within)

/-- **The path of an entry that is left names what it named** if the path of the directory leads to
a directory and not through what that holds. -/
theorem Sheds.numberAt?_eq (sheds : site.Sheds dropped later) (rooted : Rooted home site)
    (wellFormed : site.files.WellFormed)
    (houses : site.files.Houses site.cache.directory there) {key : String} {path : Path}
    (left : later.cache.path? key = some path) {number : Nat}
    (named : site.files.numberAt? path = some number) :
    later.files.numberAt? path = some number := by
  have tracked := sheds.path_of_some left
  obtain ⟨name, -, -, absolute, last, -⟩ := rooted.exists_path_eq tracked
  refine numberAt?_of_agree absolute last (sheds.wellFormed wellFormed) named ?_
  intro location passes
  refine (sheds.frame rooted wellFormed houses).2 location fun other _ member within => ?_
  have own := rooted.path_eq_of_passes houses tracked (by rw [named]; rfl) passes within
  -- The path of a dropped entry is that of no other entry.
  obtain ⟨⟨key', entry'⟩, listed, same⟩ := List.mem_map.mp member
  obtain ⟨entry, kept, rfl⟩ := Option.map_eq_some_iff.mp left
  have same : entry'.path = entry.path := same.trans own.symm
  obtain rfl := rooted.paired.key_eq (sheds.tracked listed) (sheds.entry_of_some kept)
    (by rw [same])
  rw [(sheds.mem_iff.mp listed).2] at kept
  cases kept

end Site

end DownloadCache
