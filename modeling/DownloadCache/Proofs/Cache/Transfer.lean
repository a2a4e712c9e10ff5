import DownloadCache.Proofs.Cache.Rejection
import DownloadCache.Proofs.FileSystem.Ways

/-!
# What an adoption moves

An adoption that answers with a path has dropped some entries with their files and moved what its
own path named to the path that it answers with.  Nothing else has changed: in between there is the
site that is ready for the file, and from there the file system comes to its end by one rename
(`Relocates`).

A rename of two names of one object does nothing.  So the old name is not always free afterwards: it
is if and only if the two paths named different objects before (`adopted_file_moved_iff`).  A file
that has a second name in the directory of the cache, which nobody owns and which the adoption
chooses, stays where it was (`staging_file_kept`).

What a path names after a move depends on its way as well.  That of the new path is apart from what
is moved if the directory of the cache is in place (`Rooted.not_goesThrough`).
-/

namespace DownloadCache

set_option autoImplicit false

open FileSystem

/-! ## Renames at locations -/

namespace FileSystem

/-- Whether the last name of a path is at a location. -/
def Spots (files : FileSystem) (path : Path) (location : Location) : Prop :=
  ∃ name above slash, files.spot path = .ok (.present above, .name name slash) ∧
    location = name :: above

/-- What is at one location is at another one afterwards, with all that lies below it, and all else
is as it was. -/
structure Moves (files later : FileSystem) (source place : Location) : Prop where
  moved : ∀ below, later.object? (below ++ place) = files.object? (below ++ source)
  gone : ∀ location, source <:+ location → later.object? location = none
  frame : ∀ location, ¬source <:+ location → ¬place <:+ location →
    later.object? location = files.object? location

/-- What a rename does that comes to an end: nothing if both paths name one object, and else it
moves what the one names to where the other one names no directory. -/
structure Relocates (files later : FileSystem) (staging target : Path) (source place : Location)
    (object : Object) : Prop where
  spotted : files.Spots staging source
  found : files.object? source = some object
  named : files.numberAt? staging = some object.number
  newSpotted : files.Spots target place
  solid : ¬files.IsDirectory place
  stays : files.numberAt? target = some object.number → later = files
  moves : files.numberAt? target ≠ some object.number → files.Moves later source place

variable {files later : FileSystem} {source above : Location} {name : String}

theorem Movable.moves (movable : Movable files source name above) :
    files.Moves (files.move source (name :: above)) source (name :: above) where
  moved := movable.object?_append
  gone := by
    intro location within
    -- Neither location is within the other, so nothing is within both.
    have apart : ¬name :: above <:+ location := by
      intro within'
      rcases List.suffix_or_suffix_of_suffix within within' with inside | inside
      · rcases List.suffix_cons_iff.mp inside with same | inside
        · exact movable.notAbove (same ▸ List.suffix_refl _)
        · exact movable.outside inside
      · exact movable.notAbove inside
    rw [movable.object?_move, if_neg (mt Location.isWithin_iff.mp apart),
      if_pos (Location.isWithin_iff.mpr within)]
  frame := fun _ notSource notTarget => movable.frame notTarget notSource

variable {staging target : Path} {object : Object} {newName : String} {newAbove : Location}

/-- A rename to a path that ends in a name and names no directory relocates. -/
theorem Renaming.relocates
    (moved : Renaming files staging target later name above object newName newAbove)
    (last : lastStep target.trail = .name newName false)
    (free : files.namesDirectory target = false) :
    files.Relocates later staging target (name :: above) (newName :: newAbove) object := by
  obtain ⟨slash, spotted, solid⟩ := moved.spotted
  obtain ⟨newSlash, newSpotted⟩ := moved.newSpotted
  refine ⟨⟨name, above, slash, spotted, rfl⟩, moved.found, ?_,
    ⟨newName, newAbove, newSlash, newSpotted, rfl⟩, moved.not_isDirectory free, ?_, ?_⟩
  · exact Named.numberAt?_eq ⟨name, above, slash, spotted, moved.short, moved.found, solid⟩
  · intro same
    rcases moved.outcome with ⟨still, -⟩ | ⟨-, -, differs, -⟩
    · exact still
    · obtain ⟨occupant, found, number⟩ := (moved.numberAt?_eq_some_iff last).mp same
      exact absurd number (differs occupant found)
  · intro differs
    rcases moved.outcome with ⟨-, occupied⟩ | ⟨rfl, movable, -⟩
    · exact absurd ((moved.numberAt?_eq_some_iff last).mpr occupied) differs
    · exact movable.moves

/-! ## Paths after a rename -/

/-- What was moved is at the new location, be it that it was there already. -/
theorem Renaming.exists_occupant
    (moved : Renaming files staging target later name above object newName newAbove) :
    ∃ occupant, later.object? (newName :: newAbove) = some occupant ∧
      occupant.number = object.number := by
  rcases moved.outcome with ⟨rfl, occupied⟩ | ⟨rfl, movable, -⟩
  · exact occupied
  · have found := movable.object?_append []
    rw [List.nil_append, List.nil_append, moved.found] at found
    exact ⟨object, found, rfl⟩

/-- The directory that holds the new name stays one. -/
theorem Renaming.isDirectory_above
    (moved : Renaming files staging target later name above object newName newAbove) :
    later.IsDirectory newAbove := by
  obtain ⟨slash, newSpotted⟩ := moved.newSpotted
  have held := checkDirectory_present_eq_ok_iff.mp (spot_eq_ok_iff.mp newSpotted).2.2.1
  rcases moved.outcome with ⟨rfl, -⟩ | ⟨rfl, movable, -⟩
  · exact held
  · exact movable.isDirectory_above

/-- **The new path is spotted where it was,** if its way goes through neither location. -/
theorem Renaming.spot_target
    (moved : Renaming files staging target later name above object newName newAbove)
    (wellFormed : files.WellFormed) (absolute : target.isAbsolute = true) (legal : IsName newName)
    (last : lastStep target.trail = .name newName false)
    (free : files.namesDirectory target = false)
    (apart : ¬files.GoesThrough target (name :: above))
    (apart' : ¬files.GoesThrough target (newName :: newAbove)) :
    later.spot target = .ok (.present newAbove, .name newName false) := by
  obtain ⟨slash, newSpotted⟩ := moved.newSpotted
  have same := (spot_eq_ok_iff.mp newSpotted).2.2.2
  rw [last] at same
  cases same
  rcases moved.outcome with ⟨rfl, -⟩ | ⟨rfl, movable, -⟩
  · exact newSpotted
  · exact movable.spot_of_apart wellFormed legal (moved.not_isDirectory free) newSpotted
      (not_startsWithin files absolute (List.cons_ne_nil _ _)) apart apart'
      movable.isDirectory_above

theorem isOk_linkStatus_iff {path : Path} :
    (files.linkStatus path).isOk = true ↔
      ∃ place node, files.locate path = .ok place ∧ files.nodeAt? place = some node := by
  rw [linkStatus]
  cases located : files.locate path with
  | error cause => simp [Bind.bind, Except.bind, Except.isOk, Except.toBool]
  | ok place =>
      cases found : files.nodeAt? place <;>
        simp [found, Bind.bind, Except.bind, Except.isOk, Except.toBool, refuse, pure, Except.pure]

/-- **There is something under the old path if and only if both paths named one object,** provided
that the way of the old one neither starts within what is moved nor goes through the new
location. -/
theorem Renaming.linkStatus_iff
    (moved : Renaming files staging target later name above object newName newAbove)
    (wellFormed : files.WellFormed) (last : lastStep target.trail = .name newName false)
    (free : files.namesDirectory target = false)
    (outside : ¬files.StartsWithin staging (name :: above))
    (apart : ¬files.GoesThrough staging (newName :: newAbove)) :
    (later.linkStatus staging).isOk = true ↔ files.numberAt? target = some object.number := by
  obtain ⟨slash, spotted, solid⟩ := moved.spotted
  have relocates := moved.relocates last free
  constructor
  · intro there
    rcases moved.outcome with ⟨-, occupied⟩ | ⟨rfl, movable, -⟩
    · exact (moved.numberAt?_eq_some_iff last).mpr occupied
    · obtain ⟨place, node, located, -⟩ := isOk_linkStatus_iff.mp there
      have ends := (spot_eq_ok_iff.mp spotted).2.2.2
      obtain ⟨above', spotted', left⟩ := exists_spot_of_locate ends.symm located
      rw [movable.object?_of_spot wellFormed (moved.not_isDirectory free) spotted outside apart
        spotted'] at left
      cases left
  · intro same
    rw [relocates.stays same, isOk_linkStatus_iff]
    have located := locate_of_spot spotted moved.short moved.found solid
    exact ⟨_, object.node, located, by rw [nodeAt?, moved.found]; rfl⟩

end FileSystem

namespace Site

/-! ## Adoptions that answer with a path -/

variable {site : Site} {home : Location} {now : Instant} {key : String} {staging target : Path}
  {size : UInt64} {validators : Validators}

/-- **An adoption that answers with a path ends with a rename to it,** in the site that is ready for
the file, and the path is that of a free name in the directory of the cache. -/
theorem Rooted.exists_renaming_of_cached (rooted : Rooted home site)
    (cached : (site.add now key staging size validators).1 = .ok (.cached target)) :
    let ready := site.ready key size
    ∃ files name above object newName newAbove,
      Renaming ready.files staging target files name above object newName newAbove ∧
        IsName newName ∧ target = (pathOf home).child newName ∧
        ready.cache.index.owns target = false ∧ ready.files.namesDirectory target = false ∧
        (site.add now key staging size validators).2 =
          { ready.withIndex (ready.cache.index.insert now key target size validators)
            with files } := by
  intro ready
  rcases site.add_cases now key staging size validators with
    remains | ⟨fileName, files, fileNamed, renamed, added⟩
  · rw [cached] at remains
    cases remains
  · have readyRooted : Rooted home ready := rooted.ready key size
    have legal := Path.isName_of_fileName? fileNamed
    have filled : ready.cache.directory.text ≠ "" :=
      readyRooted.directory ▸ text_pathOf_ne_empty home
    have free := free_of_isTaken (isTaken_destination filled legal)
    obtain ⟨newName, newLegal, destination⟩ := ready.exists_destination_eq_child legal
    rw [added] at cached ⊢
    obtain rfl : ready.destination fileName = target := by
      cases cached
      rfl
    rw [readyRooted.directory] at destination
    obtain ⟨name, above, object, spotted, newAbove, moved⟩ := exists_renaming renamed
    obtain rfl : spotted = newName := by
      obtain ⟨slash, newSpotted⟩ := moved.newSpotted
      have last := (spot_eq_ok_iff.mp newSpotted).2.2.2
      rw [destination, lastStep_child _ newLegal] at last
      cases last
      rfl
    exact ⟨files, name, above, object, spotted, newAbove, moved, newLegal, destination, free.1,
      free.2, rfl⟩

/-- With the directory in place, the way of a path of a name in it goes through nothing but the
directory and those above it. -/
theorem Rooted.not_goesThrough (rooted : Rooted home site) (wellFormed : site.files.WellFormed)
    (directory : site.files.IsDirectory home) {name : String} (legal : IsName name)
    {location : Location} (outside : ¬location <:+ home) :
    ¬site.files.GoesThrough ((pathOf home).child name) location := by
  rintro ⟨here, rest, met, departs, meets, within⟩
  have absolute : ((pathOf home).child name).isAbsolute = true := by
    rw [Path.isAbsolute_child _ legal, isAbsolute_pathOf]
  rw [way_of_isAbsolute _ absolute, Path.steps_child _ legal, List.dropLast_concat,
    steps_pathOf rooted.legal] at departs
  cases departs
  exact outside (within.trans (wellFormed.suffix_of_meets_names directory meets))

/-- With the directory in place, a rename to a name in it goes there, and the way of the new path is
apart from what is moved. -/
theorem Rooted.apart_in_place (rooted : Rooted home site) (wellFormed : site.files.WellFormed)
    (directory : site.files.IsDirectory home) {later : FileSystem} {name newName : String}
    {above newAbove : Location} {object : Object} (legal : IsName newName)
    (moved : Renaming site.files staging ((pathOf home).child newName) later name above object
      newName newAbove) :
    newAbove = home ∧ ¬site.files.GoesThrough ((pathOf home).child newName) (name :: above) ∧
      ¬site.files.GoesThrough ((pathOf home).child newName) (newName :: newAbove) := by
  obtain ⟨newSlash, newSpotted⟩ := moved.newSpotted
  obtain ⟨-, here, -⟩ := (wellFormed.spot_child_iff directory legal).mp newSpotted
  cases here
  exact ⟨rfl, rooted.not_goesThrough wellFormed directory legal moved.outside,
    rooted.not_goesThrough wellFormed directory legal (not_cons_suffix newName _)⟩

end Site

/-- **An adoption that answers with a path moves the file there unless it is there already.**  The
key has the path, which no entry owned before.  The entries that are dropped are that of the key and
those of keys that have none afterwards, and their paths are removed.  Then what the staging path
named is moved to the path, where no directory was, and all else stays as it was; or nothing
happens, if the path named the same object already.  In either case the path names the object that
the staging path named, and something is left under the staging path if and only if nothing
happened.  For these two the ways of the paths must not go through what the move changes. -/
theorem adopted_file_moved_iff {site : Site} (reachable : site.Reachable)
    (wellFormed : site.files.WellFormed) {now : Instant} {key : String} {staging target : Path}
    {size : UInt64} {validators : Validators}
    (cached : (site.add now key staging size validators).1 = .ok (.cached target)) :
    let later := (site.add now key staging size validators).2
    let ready := site.ready key size
    later.cache.path? key = some target ∧ ready.cache.index.owns target = false ∧
      (∃ dropped : List (String × Entry),
        (dropped.map (·.1)).Nodup ∧
        (∀ other entry, (other, entry) ∈ dropped ↔
          site.cache.index.entry? other = some entry ∧
            (other = key ∨ later.cache.index.entry? other = none)) ∧
        ready.files = site.files.removeAll (dropped.map (·.2.path)) ∧
        (site.InPlace → ∀ location, (∀ pair ∈ dropped, ¬pair.2.path.location <:+ location) →
          ready.files.object? location = site.files.object? location)) ∧
      ∃ source place object,
        site.files.Spots staging source ∧ site.files.object? source = some object ∧
        site.files.numberAt? staging = some object.number ∧
        ready.files.Relocates later.files staging target source place object ∧
        (site.InPlace ∨ ¬ready.files.GoesThrough target source ∧
            ¬ready.files.GoesThrough target place →
          later.files.numberAt? target = some object.number) ∧
        (¬ready.files.StartsWithin staging source →
          (∀ number link, ready.files.object? place = some ⟨number, .link link⟩ →
            ¬ready.files.GoesThrough staging place) →
          ((later.files.linkStatus staging).isOk = true ↔
            ready.files.numberAt? target = some object.number)) := by
  intro later ready
  have rooted := reachable.rooted
  obtain ⟨dropped, sheds⟩ := site.exists_sheds_ready key size
  have shrinks := sheds.shrinks wellFormed
  have readyWellFormed : ready.files.WellFormed := sheds.wellFormed wellFormed
  have untracked : ready.cache.index.entry? key = none :=
    Site.entry_makeRoomWithin (by simp [Site.entry_drop]) size _
  obtain ⟨files, name, above, object, newName, newAbove, moved, legal, rfl, free, vacant, added⟩ :=
    rooted.exists_renaming_of_cached cached
  have last := lastStep_child (pathOf site.cache.directory.location) legal
  have entries := fun other => (congrArg (fun site : Site => site.cache.index.entry? other)
    added).trans (Index.entry_insert ..)
  have same : later.files = files := congrArg (fun site : Site => site.files) added
  obtain ⟨slash, spotted, solid⟩ := moved.spotted
  refine ⟨?_, free, ⟨dropped, sheds.distinct, fun other entry => ?_, sheds.files, ?_⟩,
    name :: above, newName :: newAbove, object, ⟨name, above, slash, shrinks.spot spotted, rfl⟩,
    shrinks.object moved.found, ?_, same ▸ moved.relocates last vacant, fun apart => ?_,
    fun outside apart => ?_⟩
  · have entered := (entries key).trans (if_pos rfl)
    rw [Cache.path?, show later.cache.index.entry? key = _ from entered]
    rfl
  · rw [sheds.mem_iff, show later.cache.index.entry? other = _ from entries other]
    refine and_congr_right fun _ => ?_
    by_cases own : other = key
    · simp only [own, true_or, iff_true]
      exact untracked
    · simp [own]
  · exact fun inPlace location outside => sheds.frame_in_place rooted wellFormed inPlace outside
  · exact Named.numberAt?_eq
      ⟨name, above, slash, shrinks.spot spotted, moved.short, shrinks.object moved.found, solid⟩
  · have ways := apart.elim (fun inPlace => ((rooted.ready key size).apart_in_place readyWellFormed
      (sheds.isDirectory rooted wellFormed inPlace) legal moved).2) id
    have absolute : ((pathOf site.cache.directory.location).child newName).isAbsolute = true := by
      rw [Path.isAbsolute_child _ legal, isAbsolute_pathOf]
    have still := moved.spot_target readyWellFormed absolute legal last vacant ways.1 ways.2
    obtain ⟨occupant, found, number⟩ := moved.exists_occupant
    rw [same, ← number]
    exact Named.numberAt?_eq ⟨newName, newAbove, false, still, moved.newShort, found, by simp⟩
  · have past : ¬ready.files.GoesThrough staging (newName :: newAbove) := by
      by_cases linked : ∃ number link,
          ready.files.object? (newName :: newAbove) = some ⟨number, .link link⟩
      · obtain ⟨number, link, found⟩ := linked
        exact apart number link found
      · exact not_goesThrough readyWellFormed spotted (moved.not_isDirectory vacant)
          fun number link found => linked ⟨number, link, found⟩
    rw [same]
    exact moved.linkStatus_iff readyWellFormed last vacant outside past

/-- A stocked cache with a file outside of it, and with one that nobody owns under the same name in
its directory.  They are two names of one object if that has the number 3. -/
def FileSystem.orphaned (number : Nat) : FileSystem :=
  (untouched.create ["g"] (.file [2])).put ["g", "c"] ⟨number, .file [2]⟩

theorem FileSystem.wellFormed_orphaned (number : Nat) : (orphaned number).WellFormed := by
  have legal := Path.isName_of_fileName? (by decide : (Path.mk "g").fileName? = some "g")
  have beside := wellFormed_untouched.create wellFormed_untouched.root legal rfl (.file [2])
  exact beside.put ⟨1, rfl⟩ legal rfl ⟨number, .file [2]⟩

/-- A file that nobody owns is replaced by one that takes its name, and nothing is left under the
path from which that has come. -/
theorem adopted_file_moved_iff_of_orphan :
    let site := Site.stocked (.orphaned 4)
    let later := (site.add 1 "j" ⟨"/g"⟩ 1 {}).2
    site.Reachable ∧ site.files.WellFormed ∧
      (site.add 1 "j" ⟨"/g"⟩ 1 {}).1 = .ok (.cached ⟨"/c/g"⟩) ∧
      later.cache.path? "j" = some ⟨"/c/g"⟩ ∧ later.files.numberAt? ⟨"/c/g"⟩ = some 3 ∧
      (later.files.linkStatus ⟨"/g"⟩).isOk = false := by
  intro site later
  have reachable : site.Reachable := Site.reachable_stocked _
  have wellFormed : site.files.WellFormed := wellFormed_orphaned 4
  have cached : (site.add 1 "j" ⟨"/g"⟩ 1 {}).1 = .ok (.cached ⟨"/c/g"⟩) := by decide +kernel
  have named : site.files.numberAt? ⟨"/g"⟩ = some 3 := by decide +kernel
  have newSpotted : (site.ready "j" 1).files.spot ⟨"/c/g"⟩ =
    .ok (.present ["c"], .name "g" false) := by decide +kernel
  have occupied : (site.ready "j" 1).files.numberAt? ⟨"/c/g"⟩ = some 4 := by decide +kernel
  have vacant : (site.ready "j" 1).files.object? ["g", "c"] = some ⟨4, .file [2]⟩ := by
    decide +kernel
  obtain ⟨entered, -, -, source, place, object, ⟨first, above, _, _, rfl⟩, -, number, relocates,
    arrived, left⟩ := adopted_file_moved_iff reachable wellFormed cached
  have numbered : object.number = 3 := Option.some.inj (number.symm.trans named)
  rw [numbered] at arrived left
  obtain ⟨_, _, _, spotted, rfl⟩ := relocates.newSpotted
  rw [newSpotted] at spotted
  cases spotted
  have outside : ¬(site.ready "j" 1).files.StartsWithin ⟨"/g"⟩ (first :: above) :=
    not_startsWithin _ rfl (List.cons_ne_nil first above)
  refine ⟨reachable, wellFormed, cached, entered, arrived (.inl ⟨1, by decide +kernel⟩),
    Bool.eq_false_iff.mpr fun there => ?_⟩
  have same := (left outside fun number link found => ?_).mp there
  · rw [occupied] at same
    cases same
  · rw [vacant] at found
    cases found

/-- **A file stays under the path from which it was adopted** if it has a second name in the
directory of the cache: the rename of two names of one object does nothing. -/
theorem staging_file_kept :
    let site := Site.stocked (.orphaned 3)
    let later := (site.add 1 "j" ⟨"/g"⟩ 1 {}).2
    site.Reachable ∧ site.files.WellFormed ∧ site.InPlace ∧
      site.files.spot ⟨"/g"⟩ = .ok (.present [], .name "g" false) ∧
      (site.add 1 "j" ⟨"/g"⟩ 1 {}).1 = .ok (.cached ⟨"/c/g"⟩) ∧
      later.files.numberAt? ⟨"/c/g"⟩ = some 3 ∧
      (later.files.linkStatus ⟨"/g"⟩).isOk = true :=
  ⟨Site.reachable_stocked _, wellFormed_orphaned 3, ⟨1, by decide +kernel⟩, by decide +kernel,
    by decide +kernel, by decide +kernel, by decide +kernel⟩

end DownloadCache
