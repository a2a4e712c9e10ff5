import DownloadCache.Proofs.Cache.Evolution
import DownloadCache.Proofs.Cache.Guard
import DownloadCache.Proofs.FileSystem.Moving
import DownloadCache.Proofs.FileSystem.Removing

/-!
# Files in the shelter of a cache

The directory of a cache shelters the files of its entries: it is a directory at a fixed location,
every entry has a name in it under which an object is found, and a ledger tells the number of that
object (`Sheltered`).

Dropping an entry deletes at most what is under its own name, so that the files of other entries
stay as they are; so do they when room is made (`Sheltered.makeRoomWithin`).  A file that is adopted
takes a name that nobody owns, and comes from outside the directory; so it is entered without
touching the others (`Sheltered.settle`).
-/

namespace DownloadCache

set_option autoImplicit false

/-- For every key, the number of the object that was adopted under it last. -/
abbrev Ledger := String → Option Nat

/-! ## Names in a directory -/

namespace FileSystem

/-- The number of the object that a path names; a link at the end is not followed. -/
def numberAt? (files : FileSystem) (path : Path) : Option Nat :=
  match files.locate path with
  | .ok place => (files.objectAt? place).map (·.number)
  | .error _ => none

/-- Whether a path names an object; a slash behind the name is that of a directory. -/
def Named (files : FileSystem) (path : Path) (object : Object) : Prop :=
  ∃ name above slash, files.spot path = .ok (.present above, .name name slash) ∧
    name.utf8ByteSize ≤ maxNameOctets ∧ files.object? (name :: above) = some object ∧
    (slash = true → object.isDirectory = true)

theorem Named.numberAt?_eq {files : FileSystem} {path : Path} {object : Object}
    (named : files.Named path object) : files.numberAt? path = some object.number := by
  obtain ⟨name, above, slash, spotted, short, found, solid⟩ := named
  rw [numberAt?, locate_of_spot spotted short found solid]
  dsimp only
  rw [objectAt?, found]
  rfl

/-- What a path names after the file system has shrunk it named before. -/
theorem Named.of_shrinks {files later : FileSystem} {path : Path} {object : Object}
    (shrinks : Shrinks files later) (named : later.Named path object) :
    files.Named path object := by
  obtain ⟨name, above, slash, spotted, short, found, solid⟩ := named
  exact ⟨name, above, slash, shrinks.spot spotted, short, shrinks.object found, solid⟩

/-- Whether the path of a name within a directory can be walked along, whatever is found there. -/
structure Walkable (home : Location) (name : String) : Prop where
  legal : IsName name
  checked : checkPath ((pathOf home).child name) = .ok ()
  short : ∀ part ∈ name :: home, part.utf8ByteSize ≤ maxNameOctets

variable {files later : FileSystem} {home : Location} {name : String}

theorem Walkable.checkLength (walkable : Walkable home name) :
    checkLength (pathOf home) = .ok () := by
  obtain ⟨-, -, short⟩ :=
    checkPath_eq_ok_iff.mp (checkPath_of_child (text_pathOf_ne_empty home) walkable.checked)
  rw [FileSystem.checkLength, if_neg (Nat.not_lt.mpr short)]

theorem Walkable.spot (walkable : Walkable home name) (wellFormed : files.WellFormed)
    (directory : files.IsDirectory home) :
    files.spot ((pathOf home).child name) = .ok (.present home, .name name false) :=
  (wellFormed.spot_child_iff directory walkable.legal).mpr
    ⟨⟨walkable.checked, fun part member => walkable.short part (List.mem_cons_of_mem _ member)⟩,
      rfl, rfl⟩

/-- A path names the directory that is under its last name. -/
theorem namesDirectory_of_spot {path : Path} {name : String} {above : Location} {slash : Bool}
    (spotted : files.spot path = .ok (.present above, .name name slash))
    (short : name.utf8ByteSize ≤ maxNameOctets) (directory : files.IsDirectory (name :: above)) :
    files.namesDirectory path = true := by
  obtain ⟨number, found⟩ := directory
  have located := locate_of_spot spotted short found fun _ => rfl
  simp [namesDirectory, linkStatus, located, nodeAt?, found, Bind.bind, Except.bind, pure,
    Except.pure]

/-- A path that names no directory has none under its last name. -/
theorem Renaming.not_isDirectory {source target : Path} {name newName : String}
    {above newAbove : Location} {object : Object}
    (moved : Renaming files source target later name above object newName newAbove)
    (free : files.namesDirectory target = false) : ¬files.IsDirectory (newName :: newAbove) := by
  intro directory
  obtain ⟨slash, spotted⟩ := moved.newSpotted
  rw [namesDirectory_of_spot spotted moved.newShort directory] at free
  cases free

/-- A rename keeps a file system well-formed if its new path names no directory. -/
theorem Renaming.wellFormed {source target : Path} {above newAbove : Location} {object : Object}
    {newName : String}
    (moved : Renaming files source target later name above object newName newAbove)
    (wellFormed : files.WellFormed) (legal : IsName newName)
    (free : files.namesDirectory target = false) : later.WellFormed := by
  rcases moved.outcome with ⟨rfl, -⟩ | ⟨rfl, movable, -⟩
  · exact wellFormed
  · exact wellFormed.move movable legal (moved.not_isDirectory free)

/-- A walkable path names the object that is under the name in the directory. -/
theorem Walkable.numberAt?_eq (walkable : Walkable home name) (wellFormed : files.WellFormed)
    (directory : files.IsDirectory home) :
    files.numberAt? ((pathOf home).child name) =
      (files.object? (name :: home)).map (·.number) := by
  rw [numberAt?]
  cases found : files.object? (name :: home) with
  | some object =>
      have short := walkable.short name List.mem_cons_self
      rw [locate_of_spot (walkable.spot wellFormed directory) short found nofun]
      dsimp only
      rw [objectAt?, found]
  | none =>
      split
      · rename_i place located
        obtain ⟨above, object, spotted, -, there, -⟩ :=
          (locate_eq_ok_iff (lastStep_child _ walkable.legal)).mp located
        rw [walkable.spot wellFormed directory] at spotted
        cases spotted
        rw [found] at there
        cases there
      · rfl

/-- Removing the path of a name within a directory concerns what is under that name only. -/
theorem Removal.frame_child (removal : Removal files ((pathOf home).child name) later)
    (wellFormed : files.WellFormed) (directory : files.IsDirectory home) (legal : IsName name) :
    later.IsDirectory home ∧
      ∀ other ≠ name, later.object? (other :: home) = files.object? (other :: home) := by
  have outside : ∀ {other : Location}, ¬name :: home <:+ other →
      later.object? other = files.object? other := fun apart =>
    removal.frame fun location located =>
      wellFormed.locate_child directory legal located ▸ apart
  exact ⟨directory.of_same (outside (not_cons_suffix name home)),
    fun other differs => outside fun within => differs (eq_of_cons_suffix_cons within)⟩

end FileSystem

open FileSystem

namespace Site

/-! ## The shelter -/

/-- The directory of a cache, at a location, holds under the names of its entries the objects that
a ledger tells. -/
structure Sheltered (ledger : Ledger) (home : Location) (site : Site) : Prop where
  wellFormed : site.files.WellFormed
  directory : site.cache.directory = pathOf home
  isDirectory : site.files.IsDirectory home
  paired : site.cache.index.Paired (pathOf home)
  kept : ∀ {key : String} {entry : Entry}, site.cache.index.entry? key = some entry →
    ∃ name object, Walkable home name ∧ entry.path = (pathOf home).child name ∧
      site.files.object? (name :: home) = some object ∧ ledger key = some object.number

variable {ledger : Ledger} {home : Location} {site later : Site}

/-- The path of every entry names the object that the ledger tells. -/
theorem Sheltered.numberAt?_eq (sheltered : Sheltered ledger home site) {key : String}
    {entry : Entry} (tracked : site.cache.index.entry? key = some entry) :
    ∃ number, ledger key = some number ∧ site.files.numberAt? entry.path = some number := by
  obtain ⟨name, object, walkable, path, found, told⟩ := sheltered.kept tracked
  refine ⟨object.number, told, ?_⟩
  rw [path, walkable.numberAt?_eq sheltered.wellFormed sheltered.isDirectory, found]
  rfl

/-- Changes of files that leave the objects under the names of entries alone keep the shelter. -/
theorem Sheltered.withFiles (sheltered : Sheltered ledger home site) {files : FileSystem}
    (wellFormed : files.WellFormed) (isDirectory : files.IsDirectory home)
    (same : ∀ {key : String} {entry : Entry} {name : String},
      site.cache.index.entry? key = some entry → Walkable home name →
        entry.path = (pathOf home).child name →
          (files.object? (name :: home)).map (·.number) =
            (site.files.object? (name :: home)).map (·.number)) :
    Sheltered ledger home { site with files } := by
  refine ⟨wellFormed, sheltered.directory, isDirectory, sheltered.paired, ?_⟩
  intro key entry tracked
  obtain ⟨name, object, walkable, path, found, told⟩ := sheltered.kept tracked
  have number := same tracked walkable path
  rw [found] at number
  obtain ⟨object', found', number⟩ := Option.map_eq_some_iff.mp number
  exact ⟨name, object', walkable, path, found', by rw [number, told]⟩

/-- Changes of the index that enter nothing and keep the paths of entries keep the shelter. -/
theorem Sheltered.withIndex (sheltered : Sheltered ledger home site) {index : Index}
    (paired : index.Paired (pathOf home))
    (same : ∀ {key : String} {entry : Entry}, index.entry? key = some entry →
      ∃ before, site.cache.index.entry? key = some before ∧ before.path = entry.path) :
    Sheltered ledger home (site.withIndex index) := by
  refine ⟨sheltered.wellFormed, sheltered.directory, sheltered.isDirectory, paired, ?_⟩
  intro key entry tracked
  obtain ⟨before, trackedBefore, samePath⟩ := same tracked
  rw [← samePath]
  exact sheltered.kept trackedBefore

/-! ## Dropping -/

/-- Dropping a key keeps the files of the others. -/
theorem Sheltered.drop (sheltered : Sheltered ledger home site) (key : String) :
    Sheltered ledger home (site.drop key) ∧ Shrinks site.files (site.drop key).files := by
  rw [Site.drop]
  split
  · exact ⟨sheltered, .refl site.files⟩
  rename_i entry tracked
  obtain ⟨failedRemovals, dropped⟩ := site.dropEntry_eq key entry
  rw [dropped]
  obtain ⟨name, object, walkable, path, -⟩ := sheltered.kept tracked
  have removal : Removal site.files ((pathOf home).child name)
      (site.files.remove entry.path).2 := by
    rw [← path]
    exact sheltered.wellFormed.removal_remove entry.path
  refine ⟨?_, removal.shrinks sheltered.wellFormed⟩
  obtain ⟨isDirectory, others⟩ :=
    removal.frame_child sheltered.wellFormed sheltered.isDirectory walkable.legal
  have entries := site.cache.index.entry_drop key entry
  have without : Sheltered ledger home
      (site.withIndex { site.cache.index.drop key entry with failedRemovals }) := by
    refine sheltered.withIndex ((sheltered.paired.drop tracked).count _ failedRemovals) ?_
    intro other entry' tracked'
    have tracked' := (entries other).symm.trans tracked'
    split at tracked'
    · cases tracked'
    · exact ⟨entry', tracked', rfl⟩
  refine without.withFiles (removal.wellFormed sheltered.wellFormed) isDirectory
    fun {other entry' name'} tracked' _ path' => ?_
  have tracked' := (entries other).symm.trans tracked'
  split at tracked'
  · cases tracked'
  rename_i apart
  rw [others name' fun same => apart ?_]
  · rfl
  · exact sheltered.paired.key_eq tracked' tracked (by rw [path, path', same])

/-! ## Making room -/

theorem Sheltered.evictOldest (sheltered : Sheltered ledger home site) :
    Sheltered ledger home site.evictOldest ∧ Shrinks site.files site.evictOldest.files := by
  rw [Site.evictOldest]
  split
  · exact ⟨sheltered, .refl site.files⟩
  · rename_i key _
    obtain ⟨dropped, shrinks⟩ := sheltered.drop key
    refine ⟨dropped.withIndex (dropped.paired.count _ _) ?_, shrinks⟩
    exact fun {_ entry} tracked => ⟨entry, tracked, rfl⟩

theorem Sheltered.makeRoomWithin (sheltered : Sheltered ledger home site) (size : UInt64)
    (entries : Nat) :
    Sheltered ledger home (site.makeRoomWithin size entries) ∧
      Shrinks site.files (site.makeRoomWithin size entries).files := by
  induction entries generalizing site with
  | zero => exact ⟨sheltered, .refl site.files⟩
  | succ entries ih =>
      rw [Site.makeRoomWithin]
      split
      · obtain ⟨evicted, shrinks⟩ := sheltered.evictOldest
        obtain ⟨made, further⟩ := ih evicted
        exact ⟨made, shrinks.trans further⟩
      · exact ⟨sheltered, .refl site.files⟩

/-! ## Entering a file -/

/-- The ledger with the number of the object that is adopted under a key. -/
def enter (ledger : Ledger) (key : String) (number : Option Nat) : Ledger :=
  fun other => if other = key then number else ledger other

/-- Whether the outcome of an adoption keeps the shelter.  If the file is moved, the ledger has the
number of the object that its path named in a file system. -/
def Adopted (ledger : Ledger) (home : Location) (files : FileSystem) (key : String)
    (staging : Path) : Except AdoptionError Outcome × Site → Prop
  | (.ok (.cached _), later) => ∃ object, Named files staging object ∧
      Sheltered (enter ledger key (some object.number)) home later
  | (_, later) => Sheltered ledger home later

/-- What was adopted from a file system that has shrunk is told as of the one before. -/
theorem Adopted.of_shrinks {files later : FileSystem} {key : String} {staging : Path}
    {result : Except AdoptionError Outcome × Site} (shrinks : Shrinks files later)
    (adopted : Adopted ledger home later key staging result) :
    Adopted ledger home files key staging result := by
  obtain ⟨outcome, site⟩ := result
  cases outcome with
  | error cause => exact adopted
  | ok outcome =>
      cases outcome with
      | tooLarge => exact adopted
      | cached path =>
          obtain ⟨object, named, entered⟩ := adopted
          exact ⟨object, named.of_shrinks shrinks, entered⟩

/-- A file that is found under a name that nobody owns is entered. -/
theorem Sheltered.insert (sheltered : Sheltered ledger home site) {key name : String}
    (untracked : site.cache.index.entry? key = none) (walkable : Walkable home name)
    (free : site.cache.index.owns ((pathOf home).child name) = false) {files : FileSystem}
    (wellFormed : files.WellFormed) (isDirectory : files.IsDirectory home) {object : Object}
    (found : files.object? (name :: home) = some object)
    (others : ∀ other ≠ name, files.object? (other :: home) = site.files.object? (other :: home))
    (now : Instant) (size : UInt64) (validators : Validators) :
    Sheltered (enter ledger key (some object.number)) home
      { site.withIndex (site.cache.index.insert now key ((pathOf home).child name) size validators)
        with files } := by
  refine ⟨wellFormed, sheltered.directory, isDirectory,
    sheltered.paired.insert untracked walkable.legal free now size validators, ?_⟩
  intro other entry tracked
  have looked := (Index.entry_insert ..).symm.trans tracked
  split at looked
  · rename_i same
    cases looked
    exact ⟨name, object, walkable, rfl, found, by rw [enter, if_pos same]⟩
  · rename_i apart
    obtain ⟨other', object', walkable', path', found', told'⟩ := sheltered.kept looked
    have differs : other' ≠ name := by
      rintro rfl
      have owned := owns_path sheltered.paired looked
      rw [path', free] at owned
      cases owned
    exact ⟨other', object', walkable', path', by rw [others other' differs, found'],
      by rw [enter, if_neg apart, told']⟩

/-- What is owned by no entry, and is no directory, is not taken. -/
theorem free_of_isTaken {candidate : Path} (free : site.isTaken candidate = false) :
    site.cache.index.owns candidate = false ∧ site.files.namesDirectory candidate = false :=
  Bool.or_eq_false_iff.mp free

/-- **Settling a file from outside the directory keeps the shelter.** -/
theorem Sheltered.settle (sheltered : Sheltered ledger home site) {key fileName : String}
    {staging : Path} (legal : IsName fileName) (untracked : site.cache.index.entry? key = none)
    (outside : ∀ name above slash,
      site.files.spot staging = .ok (.present above, .name name slash) →
        Location.isBelow (name :: above) home = false)
    (now : Instant) (size : UInt64) (validators : Validators) :
    Adopted ledger home site.files key staging
      (site.settle now key staging fileName size validators) := by
  have filled : site.cache.directory.text ≠ "" := by
    rw [sheltered.directory]
    exact text_pathOf_ne_empty home
  obtain ⟨target, targetLegal, destination⟩ := site.exists_destination_eq_child legal
  have free := free_of_isTaken (isTaken_destination filled legal)
  rw [destination, sheltered.directory] at free
  rw [Site.settle, destination, sheltered.directory]
  dsimp only
  cases renamed : site.files.rename staging ((pathOf home).child target) with
  | error cause => exact sheltered
  | ok files =>
      obtain ⟨name, above, object, newName, newAbove, moved⟩ := exists_renaming renamed
      obtain ⟨slash, spotted, solid⟩ := moved.spotted
      obtain ⟨newSlash, newSpotted⟩ := moved.newSpotted
      obtain ⟨⟨checked, short⟩, here, last⟩ :=
        (sheltered.wellFormed.spot_child_iff sheltered.isDirectory targetLegal).mp newSpotted
      cases here
      cases last
      have walkable : Walkable home target :=
        ⟨targetLegal, checked, List.forall_mem_cons.mpr ⟨moved.newShort, short⟩⟩
      have notBelow := outside name above slash spotted
      refine ⟨object, ⟨name, above, slash, spotted, moved.short, moved.found, solid⟩, ?_⟩
      rcases moved.outcome with ⟨rfl, occupant, found, same⟩ | ⟨rfl, movable, -⟩
      · rw [← same]
        exact sheltered.insert untracked walkable free.1 sheltered.wellFormed
          sheltered.isDirectory found (fun _ _ => rfl) now size validators
      · have solid := moved.not_isDirectory free.2
        have found := movable.object?_append []
        rw [List.nil_append, List.nil_append, moved.found] at found
        refine sheltered.insert untracked walkable free.1
          (sheltered.wellFormed.move movable targetLegal solid) movable.isDirectory_above found ?_
            now size validators
        intro other apart
        refine movable.frame (fun within => ?_) fun within => ?_
        · exact apart (eq_of_cons_suffix_cons within)
        · rcases List.suffix_cons_iff.mp within with same | within
          · rw [same] at notBelow
            simp [Location.isBelow, Location.isWithin] at notBelow
          · exact moved.outside within

/-- **Adopting a file from outside the directory keeps the shelter.** -/
theorem Sheltered.add (sheltered : Sheltered ledger home site) (key : String) {staging : Path}
    (outside : ∀ name above slash,
      site.files.spot staging = .ok (.present above, .name name slash) →
        Location.isBelow (name :: above) home = false)
    (now : Instant) (size : UInt64) (validators : Validators) :
    Adopted ledger home site.files key staging (site.add now key staging size validators) := by
  obtain ⟨dropped, shrinks⟩ := sheltered.drop key
  have untracked : (site.drop key).cache.index.entry? key = none := by simp [entry_drop]
  rw [Site.add]
  by_cases large : size > (site.drop key).cache.maxSize
  · rw [if_pos large]
    exact dropped
  rw [if_neg large]
  cases named : staging.fileName? with
  | none => exact dropped
  | some fileName =>
      cases (site.drop key).checkLength staging size with
      | error cause => exact dropped
      | ok checked =>
          obtain ⟨made, further⟩ : Sheltered ledger home ((site.drop key).makeRoom size) ∧
              Shrinks (site.drop key).files ((site.drop key).makeRoom size).files :=
            dropped.makeRoomWithin size _
          have shrinks := shrinks.trans further
          have settled := made.settle (Path.isName_of_fileName? named)
            (entry_makeRoomWithin untracked size _)
            (fun name above slash spotted => outside name above slash (shrinks.spot spotted))
            now size validators
          exact settled.of_shrinks shrinks

/-! ## Accesses -/

theorem Sheltered.touch (sheltered : Sheltered ledger home site) (now : Instant) (key : String) :
    Sheltered ledger home (site.touch now key) := by
  refine sheltered.withIndex (sheltered.paired.touch now key) fun {other entry} tracked => ?_
  rw [Index.entry_touch] at tracked
  obtain ⟨before, found, rfl⟩ := Option.map_eq_some_iff.mp tracked
  exact ⟨before, found, (site.cache.index.accessed_keeps now key other before).1.symm⟩

/-! ## Removing orphans -/

/-- What is not recognised is removed. -/
theorem removeUntracked_eq (site : Site) (path : Path) :
    (site.removeUntracked path).2 =
      if site.ownsNamed path then site
      else { site with files := (site.files.remove path).2 } := by
  rw [removeUntracked]
  split
  · rfl
  · split <;> rename_i removed <;> rw [removed]

/-- Taking a name of the directory into a sweep keeps the shelter. -/
theorem Sheltered.removeChild (sheltered : Sheltered ledger home site) {name : String}
    (legal : IsName name) :
    Sheltered ledger home (site.removeUntracked (site.cache.directory.child name)).2 := by
  rw [removeUntracked_eq]
  split
  · exact sheltered
  rename_i free
  rw [sheltered.directory] at free ⊢
  have removal := sheltered.wellFormed.removal_remove ((pathOf home).child name)
  obtain ⟨isDirectory, others⟩ :=
    removal.frame_child sheltered.wellFormed sheltered.isDirectory legal
  refine sheltered.withFiles (removal.wellFormed sheltered.wellFormed) isDirectory
    fun {key entry other} tracked _ path => ?_
  rw [others other fun same => free ?_]
  rw [ownsNamed, ← same, ← path, owns_path sheltered.paired tracked, Bool.true_or]

/-- What is listed is under a name. -/
theorem isName_of_list {files : FileSystem} (wellFormed : files.WellFormed) {path : Path}
    {names : List String} (listed : files.list path = .ok names) :
    ∀ name ∈ names, IsName name := by
  obtain ⟨place, -, listed⟩ := bind_eq_ok_iff.mp listed
  obtain ⟨-, listed⟩ := check_bind_eq_ok_iff.mp listed
  intro name member
  cases place with
  | deleted parent => cases listed; cases member
  | present location =>
      cases listed
      exact (wellFormed.held (mem_names_iff.mp member)).2

/-- A sweep keeps the shelter. -/
theorem Sheltered.sweep (sheltered : Sheltered ledger home site) :
    Sheltered ledger home site.sweep.2 := by
  apply sweep_induction (Sheltered ledger home) sheltered
  intro names listed name member later sheltered'
  exact sheltered'.removeChild (isName_of_list sheltered.wellFormed listed name member)

end Site

end DownloadCache
