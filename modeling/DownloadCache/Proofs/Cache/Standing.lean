import DownloadCache.Proofs.Cache.Integrity
import DownloadCache.Proofs.FileSystem.Meeting

/-!
# Where a cache stands

A site is reachable if a run of a cache that was opened leads to it (`Reachable`).  During a run
others can do what they like to the file system, so little is known of the directory of the cache
but its path, which is that of a location (`Rooted`).  The directory is in place if there is a
directory at that location (`InPlace`).  More generally the path may lead elsewhere by now, through
links that others have made; what matters is that it does not lead through what the directory itself
holds (`Houses`).  Then a removal of what is under a name there leaves the way alone
(`Houses.remove_child`).

An absolute path that names an object passes the locations that are looked up on its way
(`Passes`).  If the objects there are as they were, the path names what it named
(`numberAt?_of_agree`); if each of them is as it was or gone, the path names something only if none
is gone (`isSome_numberAt?_iff`).
-/

namespace DownloadCache

set_option autoImplicit false

open FileSystem

/-! ## What a path passes -/

namespace FileSystem

/-- Whether a location is looked up on the way of a path, the last name included. -/
def Passes (files : FileSystem) (path : Path) (location : Location) : Prop :=
  (∃ first, files.start path = .present first ∧
      Meets files maxLinks first path.trail.steps.dropLast location) ∨
    ∃ name above slash, files.spot path = .ok (.present above, .name name slash) ∧
      location = name :: above

variable {files later : FileSystem} {path : Path} {name : String}

/-- What a path names whose last step is a name with no slash behind it. -/
theorem numberAt?_eq_some_iff (last : lastStep path.trail = .name name false) {number : Nat} :
    files.numberAt? path = some number ↔
      ∃ above object, files.spot path = .ok (.present above, .name name false) ∧
        name.utf8ByteSize ≤ maxNameOctets ∧ files.object? (name :: above) = some object ∧
        object.number = number := by
  constructor
  · intro named
    rw [numberAt?] at named
    split at named
    · rename_i place located
      obtain ⟨above, object, spotted, short, found, rfl⟩ := (locate_eq_ok_iff last).mp located
      rw [objectAt?, found] at named
      exact ⟨above, object, spotted, short, found, Option.some.inj named⟩
    · cases named
  · rintro ⟨above, object, spotted, short, found, rfl⟩
    exact Named.numberAt?_eq ⟨name, above, false, spotted, short, found, by simp⟩

/-- What the new path of a rename named before, if it ends in a name. -/
theorem Renaming.numberAt?_eq_some_iff {source target : Path} {name newName : String}
    {above newAbove : Location} {object : Object}
    (moved : Renaming files source target later name above object newName newAbove)
    (last : lastStep target.trail = .name newName false) {number : Nat} :
    files.numberAt? target = some number ↔
      ∃ occupant, files.object? (newName :: newAbove) = some occupant ∧
        occupant.number = number := by
  obtain ⟨slash, spotted⟩ := moved.newSpotted
  have same := (spot_eq_ok_iff.mp spotted).2.2.2
  rw [last] at same
  cases same
  rw [FileSystem.numberAt?_eq_some_iff last]
  simp [spotted, moved.newShort]

/-- An absolute path is spotted in a directory to which its steps but the last lead. -/
theorem spot_present_iff (absolute : path.isAbsolute = true) {above : Location} {last : Last} :
    files.spot path = .ok (.present above, last) ↔
      checkPath path = .ok () ∧
        Leads files maxLinks [] path.trail.steps.dropLast above ∧
        files.IsDirectory above ∧ last = lastStep path.trail := by
  rw [spot_eq_ok_iff, start, if_pos absolute, walk_present_eq_ok_iff,
    checkDirectory_present_eq_ok_iff]
  refine and_congr_right fun _ => and_congr_left' ?_
  constructor
  · rintro ⟨there, same, leads⟩
    cases same
    exact leads
  · exact fun leads => ⟨above, rfl, leads⟩

theorem passes_of_meets (absolute : path.isAbsolute = true) {location : Location}
    (meets : Meets files maxLinks [] path.trail.steps.dropLast location) :
    files.Passes path location :=
  .inl ⟨[], by rw [start, if_pos absolute], meets⟩

/-- What an absolute path passes that is spotted in a directory. -/
theorem passes_iff (absolute : path.isAbsolute = true) {above : Location}
    (spotted : files.spot path = .ok (.present above, .name name false)) {location : Location} :
    files.Passes path location ↔
      Meets files maxLinks [] path.trail.steps.dropLast location ∨ location = name :: above := by
  constructor
  · rintro (⟨first, start, meets⟩ | ⟨name', above', slash, spotted', rfl⟩)
    · rw [FileSystem.start, if_pos absolute] at start
      cases start
      exact .inl meets
    · rw [spotted] at spotted'
      cases spotted'
      exact .inr rfl
  · rintro (meets | rfl)
    · exact passes_of_meets absolute meets
    · exact .inr ⟨name, above, false, spotted, rfl⟩

/-- What lies above something that an absolute path passes it passes itself, the root apart. -/
theorem Passes.of_suffix (absolute : path.isAbsolute = true) {location : Location} {first : String}
    {rest : Location} (passes : files.Passes path location) (within : first :: rest <:+ location) :
    files.Passes path (first :: rest) := by
  have notTop : ¬first :: rest <:+ [] := by simp
  rcases passes with ⟨here, start, meets⟩ | ⟨name, above, slash, spotted, rfl⟩
  · rw [FileSystem.start, if_pos absolute] at start
    cases start
    exact passes_of_meets absolute ((meets.of_suffix within).resolve_right notTop)
  · rcases List.suffix_cons_iff.mp within with same | within
    · exact .inr ⟨name, above, slash, spotted, same⟩
    · obtain ⟨-, leads, -⟩ := (spot_present_iff absolute).mp spotted
      exact passes_of_meets absolute ((leads.meets_of_suffix within).resolve_right notTop)

/-- A path that names something finds something wherever it passes. -/
theorem isSome_of_passes (absolute : path.isAbsolute = true)
    (last : lastStep path.trail = .name name false) (named : (files.numberAt? path).isSome)
    {location : Location} (passes : files.Passes path location) :
    (files.object? location).isSome := by
  obtain ⟨number, named⟩ := Option.isSome_iff_exists.mp named
  obtain ⟨above, object, spotted, -, found, -⟩ := (numberAt?_eq_some_iff last).mp named
  obtain ⟨-, leads, -, -⟩ := (spot_present_iff absolute).mp spotted
  rcases (passes_iff absolute spotted).mp passes with meets | rfl
  · exact leads.isSome_of_meets meets
  · rw [found]
    rfl

/-- **A path names what it named if all that it passes is as it was.** -/
theorem numberAt?_of_agree (absolute : path.isAbsolute = true)
    (last : lastStep path.trail = .name name false) (wellFormed : later.WellFormed) {number : Nat}
    (named : files.numberAt? path = some number)
    (agree : ∀ location, files.Passes path location →
      later.object? location = files.object? location) :
    later.numberAt? path = some number := by
  obtain ⟨above, object, spotted, short, found, rfl⟩ := (numberAt?_eq_some_iff last).mp named
  obtain ⟨checked, leads, -, -⟩ := (spot_present_iff absolute).mp spotted
  have onWay : ∀ met, Meets files maxLinks [] path.trail.steps.dropLast met →
      later.object? met = files.object? met := fun met meets =>
    agree met (passes_of_meets absolute meets)
  have leads' := leads.of_agree onWay wellFormed fun _ => wellFormed.root
  have found' : later.object? (name :: above) = some object :=
    (agree _ ((passes_iff absolute spotted).mpr (.inr rfl))).trans found
  have held := (wellFormed.held (by rw [found']; rfl)).1
  have spotted' : later.spot path = .ok (.present above, .name name false) :=
    (spot_present_iff absolute).mpr ⟨checked, leads', held, last.symm⟩
  exact (numberAt?_eq_some_iff last).mpr ⟨above, object, spotted', short, found', rfl⟩

/-- **A path still names something only if nothing that it passes is gone,** if each of it is as it
was or gone. -/
theorem isSome_numberAt?_iff (absolute : path.isAbsolute = true)
    (last : lastStep path.trail = .name name false) (wellFormed : later.WellFormed)
    (named : (files.numberAt? path).isSome)
    (fewer : ∀ location, files.Passes path location →
      later.object? location = none ∨ later.object? location = files.object? location) :
    (later.numberAt? path).isSome ↔
      ∀ location, files.Passes path location →
        later.object? location = files.object? location := by
  obtain ⟨number, named⟩ := Option.isSome_iff_exists.mp named
  constructor
  · intro there
    obtain ⟨number', named'⟩ := Option.isSome_iff_exists.mp there
    obtain ⟨above, object, spotted, -, found, -⟩ := (numberAt?_eq_some_iff last).mp named
    obtain ⟨above', object', spotted', -, found', -⟩ := (numberAt?_eq_some_iff last).mp named'
    obtain ⟨-, leads, -, -⟩ := (spot_present_iff absolute).mp spotted
    obtain ⟨-, leads', -, -⟩ := (spot_present_iff absolute).mp spotted'
    obtain ⟨rfl, kept⟩ := leads.same_of_fewer
      (fun met meets => fewer met (passes_of_meets absolute meets)) leads'
    intro location passes
    rcases (passes_iff absolute spotted).mp passes with meets | rfl
    · exact kept location meets
    · exact (fewer _ passes).resolve_left (by simp [found'])
  · intro agree
    rw [numberAt?_of_agree absolute last wellFormed named agree]
    rfl

/-! ## Housing -/

/-- Whether a path leads to a directory at a location if it leads anywhere, and not through what
that directory holds. -/
def Houses (files : FileSystem) (directory : Path) (home : Location) : Prop :=
  ∀ there, Leads files maxLinks [] directory.trail.steps there →
    there = home ∧ ∀ met, Meets files maxLinks [] directory.trail.steps met →
      met.isBelow home = false

/-- The path of a location houses what is there, if that is a directory. -/
theorem WellFormed.houses (wellFormed : files.WellFormed) {home : Location}
    (directory : files.IsDirectory home) : files.Houses (pathOf home) home := by
  rw [Houses, steps_pathOf (wellFormed.isName_of_mem directory.isSome)]
  intro there leads
  refine ⟨((wellFormed.leads_names_iff directory).mp leads).1, fun met meets => ?_⟩
  have above := wellFormed.suffix_of_meets_names directory meets
  refine Bool.eq_false_iff.mpr fun below => ?_
  simp only [Location.isBelow, Bool.and_eq_true, bne_iff_ne, ne_eq, Location.isWithin_iff] at below
  exact below.2 (above.eq_of_length (Nat.le_antisymm above.length_le below.1.length_le))

variable {directory : Path} {home : Location}

/-- The path of a name within such a directory is spotted there only. -/
theorem Houses.spot_child (houses : files.Houses directory home)
    (absolute : directory.isAbsolute = true) (legal : IsName name) {above : Location}
    {last : Last} (spotted : files.spot (directory.child name) = .ok (.present above, last)) :
    above = home ∧ last = .name name false := by
  have absolute : (directory.child name).isAbsolute = true := by
    rw [Path.isAbsolute_child _ legal, absolute]
  obtain ⟨-, leads, -, same⟩ := (spot_present_iff absolute).mp spotted
  rw [Path.steps_child _ legal, List.dropLast_concat] at leads
  exact ⟨(houses above leads).1, same.trans (lastStep_child _ legal)⟩

theorem Houses.locate_child (houses : files.Houses directory home)
    (absolute : directory.isAbsolute = true) (legal : IsName name) {location : Location}
    (located : files.locate (directory.child name) = .ok (.present location)) :
    location = name :: home := by
  obtain ⟨above, object, spotted, -, -, same⟩ :=
    (locate_eq_ok_iff (lastStep_child _ legal)).mp located
  obtain ⟨rfl, -⟩ := houses.spot_child absolute legal spotted
  cases same
  rfl

/-- The path of a name there that names something passes, of what the directory holds, only what is
under that name. -/
theorem Houses.eq_of_passes_child (houses : files.Houses directory home)
    (absolute : directory.isAbsolute = true) (legal : IsName name)
    (named : (files.numberAt? (directory.child name)).isSome) {location : Location}
    (passes : files.Passes (directory.child name) location) {other : String}
    (within : other :: home <:+ location) : other = name := by
  have absolute : (directory.child name).isAbsolute = true := by
    rw [Path.isAbsolute_child _ legal, absolute]
  obtain ⟨number, named⟩ := Option.isSome_iff_exists.mp named
  obtain ⟨above, object, spotted, -⟩ :=
    (numberAt?_eq_some_iff (lastStep_child _ legal)).mp named
  obtain ⟨-, leads, -⟩ := (spot_present_iff absolute).mp spotted
  have onWay : files.Passes (directory.child name) location ↔ _ := passes_iff absolute spotted
  rw [Path.steps_child _ legal, List.dropLast_concat] at leads onWay
  obtain ⟨rfl, straight⟩ := houses above leads
  rcases onWay.mp passes with meets | rfl
  · exact absurd (isBelow_of_cons_suffix within) (Bool.eq_false_iff.mp (straight location meets))
  · exact (eq_of_cons_suffix_cons within).symm

/-- After a removal steps from the root lead only where they led. -/
theorem Removal.leads (removal : Removal files path later) {links : Nat} {there : Location}
    {steps : List Step} (leads : Leads later links [] steps there) :
    Leads files links [] steps there := by
  have ofSifted : ∀ {keep : Location → Bool} {files' later' : FileSystem},
      Sifted keep files' later' → Leads later' links [] steps there →
        Leads files' links [] steps there := fun sifted leads =>
    (leads.of_sifted sifted sifted.top).1
  cases removal with
  | nothing => exact leads
  | emptied => exact ofSifted (files.sifted_emptied _) leads
  | deleted => exact ofSifted (files.sifted_emptied _) (ofSifted (sifted_erase _ _ _) leads)
  | unlinked => exact ofSifted (files.sifted_erase _ _) leads

/-- **Removing what is under a name leaves the way to the directory alone.** -/
theorem Houses.remove_child (houses : files.Houses directory home)
    (absolute : directory.isAbsolute = true) (legal : IsName name)
    (removal : Removal files (directory.child name) later) :
    later.Houses directory home ∧
      ∀ location, ¬name :: home <:+ location → later.object? location = files.object? location := by
  have frame : ∀ location, ¬name :: home <:+ location →
      later.object? location = files.object? location := fun location outside =>
    removal.frame fun top located => houses.locate_child absolute legal located ▸ outside
  refine ⟨fun there leads => ?_, frame⟩
  have before := removal.leads leads
  obtain ⟨rfl, outside⟩ := houses there before
  refine ⟨rfl, fun met meets => outside met (before.meets_of_agree (fun other meets => ?_) meets)⟩
  exact frame other fun within =>
    Bool.eq_false_iff.mp (outside other meets) (isBelow_of_cons_suffix within)

end FileSystem

namespace Site

/-! ## Reachable sites -/

/-- Whether a run of a cache that was opened in a well-formed file system leads to a site. -/
def Reachable (site : Site) : Prop :=
  ∃ (files opened : FileSystem) (directory : Path) (maxSize : UInt64) (verifySize : Bool)
    (cache : Cache) (events : List Event),
    files.WellFormed ∧ files.openCache directory maxSize verifySize = (.ok cache, opened) ∧
      site = (Site.mk cache opened).run events

/-- Whether there is a directory at the location that the path of the directory of the cache
spells. -/
def InPlace (site : Site) : Prop :=
  site.files.IsDirectory site.cache.directory.location

/-- The directory of a cache has the path of a location, and the entries are paired with paths of
names in it. -/
structure Rooted (home : Location) (site : Site) : Prop where
  directory : site.cache.directory = pathOf home
  legal : ∀ name ∈ home, IsName name
  short : FileSystem.checkLength (pathOf home) = .ok ()
  paired : site.cache.index.Paired (pathOf home)

variable {home : Location} {site later : Site}

theorem Rooted.evolves (rooted : Rooted home site) (evolves : Evolves site later) :
    Rooted home later where
  directory := evolves.directory.trans rooted.directory
  legal := rooted.legal
  short := rooted.short
  paired := by
    have index := evolves.index
    rw [rooted.directory] at index
    exact index.keeps (Index.Paired (pathOf home)) Index.Paired.change rooted.paired

/-- **The cache of a reachable site is rooted.** -/
theorem Reachable.exists_rooted (reachable : site.Reachable) : ∃ home, Rooted home site := by
  obtain ⟨files, opened, directory, maxSize, verifySize, cache, events, wellFormed, opens, rfl⟩ :=
    reachable
  obtain ⟨home, sheltered⟩ := sheltered_of_openCache wellFormed opens fun _ => none
  obtain ⟨canonical, -⟩ := eq_of_openCache opens
  obtain ⟨-, _, location, -, -, short, same⟩ := canonical_eq_ok_iff.mp canonical
  have directory : cache.directory = pathOf home := sheltered.directory
  refine ⟨home, Rooted.evolves ⟨directory, ?_, ?_, sheltered.paired⟩
    (evolves_run (directory_ne_empty_of_openCache opens) events)⟩
  · exact sheltered.wellFormed.isName_of_mem sheltered.isDirectory.isSome
  · rwa [← directory, same]

theorem Rooted.location_eq (rooted : Rooted home site) : site.cache.directory.location = home := by
  rw [rooted.directory, location_pathOf rooted.legal]

/-- The path of a name in the directory spells the location of that name. -/
theorem Rooted.location_name (rooted : Rooted home site) {name : String} (legal : IsName name) :
    ((pathOf home).child name).location = name :: home := by
  rw [location_child _ legal, location_pathOf rooted.legal]

/-- The cache of a reachable site is rooted at the location that its path spells. -/
theorem Reachable.rooted (reachable : site.Reachable) :
    Rooted site.cache.directory.location site := by
  obtain ⟨home, rooted⟩ := reachable.exists_rooted
  rw [rooted.location_eq]
  exact rooted

theorem Rooted.isAbsolute (rooted : Rooted home site) :
    site.cache.directory.isAbsolute = true := by
  rw [rooted.directory, isAbsolute_pathOf]

/-- The path of an entry is that of a name in the directory. -/
theorem Rooted.exists_path_eq (rooted : Rooted home site) {key : String} {path : Path}
    (tracked : site.cache.path? key = some path) :
    ∃ name, IsName name ∧ path = (pathOf home).child name ∧ path.isAbsolute = true ∧
      lastStep path.trail = .name name false ∧ path.location = name :: home := by
  obtain ⟨entry, found, rfl⟩ := Option.map_eq_some_iff.mp tracked
  obtain ⟨name, legal, path⟩ := rooted.paired.place found
  refine ⟨name, legal, path, ?_, ?_, ?_⟩
  · rw [path, Path.isAbsolute_child _ legal, isAbsolute_pathOf]
  · rw [path, lastStep_child _ legal]
  · rw [path, rooted.location_name legal]

/-- Of what lies below the place to which the path of the directory leads, the path of an entry
passes only what is under the name that the entry owns. -/
theorem Rooted.path_eq_of_passes (rooted : Rooted home site) {there : Location}
    (houses : site.files.Houses site.cache.directory there) {key : String} {path : Path}
    (tracked : site.cache.path? key = some path) (named : (site.files.numberAt? path).isSome)
    {location : Location} (passes : site.files.Passes path location) {name : String}
    (within : name :: there <:+ location) : path = site.cache.directory.child name := by
  obtain ⟨own, legal, rfl, -⟩ := rooted.exists_path_eq tracked
  rw [← rooted.directory] at named passes ⊢
  rw [houses.eq_of_passes_child rooted.isAbsolute legal named passes within]

/-- If the directory is in place, the path of an entry that names something passes nothing but what
is under the name there, the directory and those above it. -/
theorem Rooted.passes_in_place (rooted : Rooted home site) (wellFormed : site.files.WellFormed)
    (directory : site.files.IsDirectory home) {name : String} (legal : IsName name)
    (there : (site.files.numberAt? ((pathOf home).child name)).isSome) :
    site.files.Passes ((pathOf home).child name) (name :: home) ∧
      name.utf8ByteSize ≤ maxNameOctets ∧
        ∀ location, site.files.Passes ((pathOf home).child name) location →
          location <:+ name :: home := by
  have absolute : ((pathOf home).child name).isAbsolute = true := by
    rw [Path.isAbsolute_child _ legal, isAbsolute_pathOf]
  obtain ⟨number, named⟩ := Option.isSome_iff_exists.mp there
  obtain ⟨above, object, spotted, short, -⟩ :=
    (numberAt?_eq_some_iff (lastStep_child _ legal)).mp named
  obtain ⟨-, same, -⟩ := (wellFormed.spot_child_iff directory legal).mp spotted
  cases same
  refine ⟨(passes_iff absolute spotted).mpr (.inr rfl), short, fun location passes => ?_⟩
  rcases (passes_iff absolute spotted).mp passes with meets | rfl
  · rw [Path.steps_child _ legal, List.dropLast_concat, steps_pathOf rooted.legal] at meets
    exact (wellFormed.suffix_of_meets_names directory meets).trans (List.suffix_cons name home)
  · exact List.suffix_refl _

/-! ## A stocked cache -/

/-- A site with a cache in `/c` that has adopted a file as `/c/f`, whatever others have made of the
file system since. -/
def stocked (files : FileSystem) : Site :=
  let disk := FileSystem.empty.create ["c"] .directory
  (Site.mk ⟨⟨"/c"⟩, 9, false, {}⟩ disk).run
    [.outside (disk.create ["f"] (.file [1])), .add 0 "k" ⟨"/f"⟩ 1 {}, .outside files]

theorem reachable_stocked (files : FileSystem) : (stocked files).Reachable :=
  ⟨.empty, FileSystem.empty.create ["c"] .directory, ⟨"/c"⟩, 9, false, _, _, wellFormed_empty,
    by decide +kernel, rfl⟩

end Site

/-- The file system of a stocked cache that nobody else has touched. -/
def FileSystem.untouched : FileSystem :=
  (FileSystem.empty.create ["c"] .directory).create ["f", "c"] (.file [1])

theorem FileSystem.wellFormed_untouched : untouched.WellFormed := by
  have directory := wellFormed_empty.create wellFormed_empty.root
    (Path.isName_of_fileName? (by decide : (Path.mk "c").fileName? = some "c")) rfl .directory
  exact directory.create ⟨1, rfl⟩
    (Path.isName_of_fileName? (by decide : (Path.mk "f").fileName? = some "f")) rfl (.file [1])

end DownloadCache
