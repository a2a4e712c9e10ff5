import DownloadCache.Proofs.Cache.Rejection

/-!
# Files that are taken over

An adoption moves whatever its path names.  A name that another entry owns is not given to the file,
but the path of the file is not compared with the owned ones; so a file that the cache owns already
can be moved away from under its entry.

A move takes something away from a path if it goes from a place that the path passes
(`Displaces`).  Whatever an adoption answers, the path of another entry that is left names what it
named if and only if the file was moved and the move displaces something that the path passes
(`other_file_kept_iff`).  With the directory of the cache in place, what is displaced is the owned
file itself.
-/

namespace DownloadCache

set_option autoImplicit false

open FileSystem

/-! ## What a move takes away -/

namespace FileSystem

/-- Whether a rename takes away something that a path passes.  Nothing is moved if both names are of
one object. -/
def Displaces (files : FileSystem) (source target path : Path) : Prop :=
  ∃ name above slash, files.spot source = .ok (.present above, .name name slash) ∧
    files.numberAt? target ≠ files.numberAt? source ∧ files.Passes path (name :: above)

variable {files later : FileSystem} {path : Path} {name : String} {number : Nat}

/-- **After a move a path names what it named if and only if it does not pass what was moved,**
provided that it does not pass the new place. -/
theorem Movable.numberAt?_eq_iff {first target : String} {rest above : Location}
    (movable : Movable files (first :: rest) target above) (wellFormed : files.WellFormed)
    (legal : IsName target) (solid : ¬files.IsDirectory (target :: above))
    (absolute : path.isAbsolute = true) (last : lastStep path.trail = .name name false)
    (named : files.numberAt? path = some number)
    (apart : ∀ location, files.Passes path location → ¬target :: above <:+ location) :
    (files.move (first :: rest) (target :: above)).numberAt? path = some number ↔
      ¬files.Passes path (first :: rest) := by
  have moved := wellFormed.move movable legal solid
  have found : ∀ location, files.Passes path location →
      (files.move (first :: rest) (target :: above)).object? location =
        if location.isWithin (first :: rest) then none else files.object? location := by
    intro location passes
    rw [movable.object?_move, if_neg (mt Location.isWithin_iff.mp (apart location passes))]
  constructor
  · intro still passes
    have fewer : ∀ location, files.Passes path location →
        (files.move (first :: rest) (target :: above)).object? location = none ∨
          (files.move (first :: rest) (target :: above)).object? location =
            files.object? location := by
      intro location passes
      rw [found location passes]
      split
      · exact .inl rfl
      · exact .inr rfl
    have kept := (isSome_numberAt?_iff absolute last moved (by rw [named]; rfl) fewer).mp
      (by rw [still]; rfl) _ passes
    rw [found _ passes, if_pos (Location.isWithin_iff.mpr (List.suffix_refl _))] at kept
    have there := movable.found
    rw [← kept] at there
    cases there
  · intro avoids
    refine numberAt?_of_agree absolute last moved named fun location passes => ?_
    exact movable.frame (apart location passes) fun within =>
      avoids (passes.of_suffix absolute within)

end FileSystem

namespace Site

variable {site : Site} {home there : Location} {key : String} {path : Path} {number : Nat}

/-- A path of an entry passes nothing that is under the name which a file is given. -/
theorem Rooted.not_within_of_passes (rooted : Rooted home site)
    (houses : site.files.Houses site.cache.directory there) {target : String}
    (free : site.cache.index.owns (site.cache.directory.child target) = false)
    (tracked : site.cache.path? key = some path) (named : (site.files.numberAt? path).isSome)
    {location : Location} (passes : site.files.Passes path location) :
    ¬target :: there <:+ location := by
  intro within
  obtain rfl := rooted.path_eq_of_passes houses tracked named passes within
  obtain ⟨entry, found, same⟩ := Option.map_eq_some_iff.mp tracked
  have owned := owns_path rooted.paired found
  rw [same, free] at owned
  cases owned

/-- **When a file is settled, the path of an entry names what it named if and only if the move
displaces nothing that the path passes.** -/
theorem Rooted.numberAt?_rename_iff (rooted : Rooted home site) (wellFormed : site.files.WellFormed)
    (houses : site.files.Houses site.cache.directory there) {fileName : String}
    (legal : IsName fileName) {staging : Path} {files : FileSystem}
    (renamed : site.files.rename staging (site.destination fileName) = .ok files)
    (tracked : site.cache.path? key = some path)
    (named : site.files.numberAt? path = some number) :
    files.numberAt? path = some number ↔
      ¬site.files.Displaces staging (site.destination fileName) path := by
  have filled : site.cache.directory.text ≠ "" := rooted.directory ▸ text_pathOf_ne_empty home
  have free := free_of_isTaken (isTaken_destination filled legal)
  obtain ⟨target, targetLegal, destination⟩ := site.exists_destination_eq_child legal
  obtain ⟨own, -, -, absolute, last, -⟩ := rooted.exists_path_eq tracked
  obtain ⟨name, above, object, newName, newAbove, moved⟩ := exists_renaming renamed
  obtain ⟨slash, spotted, solid⟩ := moved.spotted
  obtain ⟨newSlash, newSpotted⟩ := moved.newSpotted
  have source : site.files.numberAt? staging = some object.number :=
    Named.numberAt?_eq ⟨name, above, slash, spotted, moved.short, moved.found, solid⟩
  -- A free destination names nothing, a link that leads nowhere apart.
  have newDirectory := moved.not_isDirectory free.2
  rw [destination] at newSpotted free ⊢
  obtain ⟨rfl, same⟩ := houses.spot_child rooted.isAbsolute targetLegal newSpotted
  cases same
  have newNumber : ∀ {number : Nat}, site.files.numberAt? (site.cache.directory.child target) =
      some number ↔ ∃ occupant, site.files.object? (target :: newAbove) = some occupant ∧
        occupant.number = number := fun {number} =>
    (destination ▸ moved).numberAt?_eq_some_iff (lastStep_child _ targetLegal)
  rcases moved.outcome with ⟨rfl, occupied⟩ | ⟨rfl, movable, differs, -⟩
  · -- Both names are of one object, and nothing is moved.
    refine iff_of_true named ?_
    rintro ⟨-, -, -, -, differs, -⟩
    exact differs ((newNumber.mpr occupied).trans source.symm)
  · have apart : ∀ location, site.files.Passes path location →
        ¬target :: newAbove <:+ location := fun location passes =>
      rooted.not_within_of_passes houses free.1 tracked (by rw [named]; rfl) passes
    rw [movable.numberAt?_eq_iff wellFormed targetLegal newDirectory absolute last named apart]
    refine not_congr ⟨fun passes => ?_, ?_⟩
    · refine ⟨name, above, slash, spotted, fun same => ?_, passes⟩
      obtain ⟨occupant, found, number⟩ := newNumber.mp (same.trans source)
      exact differs occupant found number
    · rintro ⟨name', above', slash', spotted', -, passes⟩
      rw [spotted] at spotted'
      cases spotted'
      exact passes

/-- With the directory in place, what is displaced under the path of an entry is its own file. -/
theorem Rooted.location_eq_of_displaces (rooted : Rooted home site)
    (wellFormed : site.files.WellFormed) (directory : site.files.IsDirectory home)
    {staging target : Path} {files : FileSystem}
    (renamed : site.files.rename staging target = .ok files)
    (destined : ∃ name, IsName name ∧ target = site.cache.directory.child name)
    (tracked : site.cache.path? key = some path)
    (named : (site.files.numberAt? path).isSome)
    (displaces : site.files.Displaces staging target path) :
    ∃ name above slash, site.files.spot staging = .ok (.present above, .name name slash) ∧
      path.location = name :: above := by
  obtain ⟨own, legal, rfl, -, -, place⟩ := rooted.exists_path_eq tracked
  obtain ⟨first, above, slash, spotted, -, passes⟩ := displaces
  obtain ⟨target, targetLegal, rfl⟩ := destined
  obtain ⟨name', above', object, newName, newAbove, moved⟩ := exists_renaming renamed
  obtain ⟨slash', spotted', -⟩ := moved.spotted
  obtain ⟨newSlash, newSpotted⟩ := moved.newSpotted
  rw [spotted] at spotted'
  cases spotted'
  rw [rooted.directory] at newSpotted
  obtain ⟨-, here, -⟩ := (wellFormed.spot_child_iff directory targetLegal).mp newSpotted
  cases here
  have outside := moved.outside
  have within := (rooted.passes_in_place wellFormed directory legal named).2.2 _ passes
  have own := (List.suffix_cons_iff.mp within).resolve_right outside
  exact ⟨first, above, slash, spotted, place.trans own.symm⟩

end Site

/-- **An adoption leaves the file of another entry where it is unless it is that file which is
adopted.**  Whatever it answers, the path of an entry of another key that is left names what it
named if and only if no file has been moved that the path passes. -/
theorem other_file_kept_iff {site : Site} (reachable : site.Reachable)
    (wellFormed : site.files.WellFormed)
    (straight : ∃ home, site.files.Houses site.cache.directory home) (now : Instant) (key : String)
    (staging : Path) (size : UInt64) (validators : Validators) {other : String} {path : Path}
    (apart : other ≠ key)
    (left : (site.add now key staging size validators).2.cache.path? other = some path)
    (there : (site.files.numberAt? path).isSome) :
    site.cache.path? other = some path ∧
      ((site.add now key staging size validators).2.files.numberAt? path =
          site.files.numberAt? path ↔
        ¬∃ target, (site.add now key staging size validators).1 = .ok (.cached target) ∧
          (site.ready key size).files.Displaces staging target path) ∧
      (site.InPlace → ∀ target,
        (site.add now key staging size validators).1 = .ok (.cached target) →
          (site.ready key size).files.Displaces staging target path →
            ∃ name above slash, site.files.spot staging = .ok (.present above, .name name slash) ∧
              path.location = name :: above) := by
  have rooted := reachable.rooted
  obtain ⟨home, houses⟩ := straight
  obtain ⟨number, named⟩ := Option.isSome_iff_exists.mp there
  rcases site.add_cases now key staging size validators with
    remains | ⟨fileName, files, fileNamed, renamed, added⟩
  · -- Nothing has been moved, only entries have been dropped.
    have uncached : ∀ target,
        (site.add now key staging size validators).1 ≠ .ok (.cached target) := by
      intro target cached
      rw [cached] at remains
      cases remains
    obtain ⟨-, dropped, sheds⟩ := Site.exists_sheds_remainder remains
    have still := sheds.numberAt?_eq rooted wellFormed houses left named
    refine ⟨sheds.path_of_some left, ?_, ?_⟩
    · rw [still, named]
      exact iff_of_true rfl fun ⟨target, cached, _⟩ => uncached target cached
    · exact fun _ target cached => absurd cached (uncached target)
  · have legal := Path.isName_of_fileName? fileNamed
    obtain ⟨dropped, sheds⟩ := site.exists_sheds_ready key size
    have readyRooted := rooted.ready key size
    have readyWellFormed := sheds.wellFormed wellFormed
    rw [added] at left ⊢
    have tracked : (site.ready key size).cache.path? other = some path := by
      rw [← left]
      exact congrArg (Option.map _) ((Index.entry_insert ..).trans (if_neg apart)).symm
    have still := sheds.numberAt?_eq rooted wellFormed houses tracked named
    have readyHouses := (sheds.frame rooted wellFormed houses).1
    refine ⟨sheds.path_of_some tracked, ?_, ?_⟩
    · rw [named, readyRooted.numberAt?_rename_iff readyWellFormed
        (by rwa [readyRooted.directory, ← rooted.directory]) legal renamed tracked still]
      refine not_congr ⟨fun displaces => ⟨_, rfl, displaces⟩, ?_⟩
      rintro ⟨target, cached, displaces⟩
      cases cached
      exact displaces
    · intro inPlace target cached displaces
      cases cached
      have directory := sheds.isDirectory rooted wellFormed inPlace
      obtain ⟨name, above, slash, spotted, place⟩ :=
        readyRooted.location_eq_of_displaces readyWellFormed directory renamed
          (Site.exists_destination_eq_child _ legal) tracked (by rw [still]; rfl) displaces
      exact ⟨name, above, slash, (sheds.shrinks wellFormed).spot spotted, place⟩

/-- A stocked cache with a file of the same name outside of it. -/
def FileSystem.doubled : FileSystem :=
  untouched.create ["f"] (.file [2])

theorem FileSystem.wellFormed_doubled : doubled.WellFormed :=
  wellFormed_untouched.create wellFormed_untouched.root
    (Path.isName_of_fileName? (by decide : (Path.mk "f").fileName? = some "f")) rfl (.file [2])

/-- A file of the same name that is found through the directory of the cache and out of it again
gets a name of its own, and the owned one stays. -/
theorem other_file_kept_iff_of_same_name :
    let site := Site.stocked .doubled
    site.Reachable ∧ site.files.WellFormed ∧ site.InPlace ∧
      (∃ home, site.files.Houses site.cache.directory home) ∧
      (site.add 1 "j" ⟨"/c/../f"⟩ 1 {}).1 = .ok (.cached ⟨"/c/f-1"⟩) ∧
      (site.add 1 "j" ⟨"/c/../f"⟩ 1 {}).2.cache.path? "k" = some ⟨"/c/f"⟩ ∧
      site.files.numberAt? ⟨"/c/f"⟩ = some 2 ∧
      (site.add 1 "j" ⟨"/c/../f"⟩ 1 {}).2.files.numberAt? ⟨"/c/f"⟩ =
        site.files.numberAt? ⟨"/c/f"⟩ := by
  intro site
  have reachable : site.Reachable := Site.reachable_stocked .doubled
  have inPlace : site.InPlace := ⟨1, by decide +kernel⟩
  have directory : site.cache.directory = pathOf ["c"] := by decide +kernel
  have straight : ∃ home, site.files.Houses site.cache.directory home := by
    rw [directory]
    exact ⟨["c"], wellFormed_doubled.houses ⟨1, by decide +kernel⟩⟩
  have left : (site.add 1 "j" ⟨"/c/../f"⟩ 1 {}).2.cache.path? "k" = some ⟨"/c/f"⟩ := by
    decide +kernel
  have named : site.files.numberAt? ⟨"/c/f"⟩ = some 2 := by decide +kernel
  have spotted : site.files.spot ⟨"/c/../f"⟩ = .ok (.present [], .name "f" false) := by
    decide +kernel
  have location : (Path.mk "/c/f").location = ["f", "c"] := by decide +kernel
  have kept := other_file_kept_iff reachable wellFormed_doubled straight 1 "j" ⟨"/c/../f"⟩ 1 {}
    (by decide) left (by rw [named]; rfl)
  refine ⟨reachable, wellFormed_doubled, inPlace, straight, by decide +kernel, left, named,
    kept.2.1.mpr ?_⟩
  rintro ⟨target, cached, displaces⟩
  obtain ⟨name, above, slash, spotted', same⟩ := kept.2.2 inPlace target cached displaces
  rw [spotted] at spotted'
  cases spotted'
  rw [location] at same
  cases same

/-- **A file that the cache owns is moved away from under its entry** if its own path is that of the
file to adopt.  All files were there, and the entry is left without one. -/
theorem owned_file_taken_over :
    let site := Site.stocked .untouched
    site.Reachable ∧ site.files.WellFormed ∧ site.InPlace ∧
      (∀ key path, site.cache.path? key = some path → (site.files.numberAt? path).isSome) ∧
      (site.add 1 "j" ⟨"/c/f"⟩ 1 {}).1 = .ok (.cached ⟨"/c/f-1"⟩) ∧
      (site.add 1 "j" ⟨"/c/f"⟩ 1 {}).2.cache.path? "k" = some ⟨"/c/f"⟩ ∧
      site.files.numberAt? ⟨"/c/f"⟩ = some 2 ∧
      (site.add 1 "j" ⟨"/c/f"⟩ 1 {}).2.files.numberAt? ⟨"/c/f"⟩ = none := by
  intro site
  have named : site.files.numberAt? ⟨"/c/f"⟩ = some 2 := by decide +kernel
  refine ⟨Site.reachable_stocked .untouched, wellFormed_untouched, ⟨1, by decide +kernel⟩, ?_,
    by decide +kernel, by decide +kernel, named, by decide +kernel⟩
  intro key path tracked
  have entries : site.cache.index.entries = [("k", ⟨⟨"/c/f"⟩, 1, 0, 0, {}⟩)] := by decide +kernel
  obtain ⟨entry, found, rfl⟩ := Option.map_eq_some_iff.mp tracked
  rw [Index.entry?, entries, List.lookup_cons] at found
  split at found
  · cases found
    rw [named]
    rfl
  · cases found

end DownloadCache
