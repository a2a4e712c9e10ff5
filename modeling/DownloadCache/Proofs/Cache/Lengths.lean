import DownloadCache.Proofs.Cache.Budget
import DownloadCache.Proofs.Cache.OrphanSafety
import DownloadCache.Proofs.Cache.Transfer
import DownloadCache.Proofs.FileSystem.Following
import Mathlib.Algebra.GroupWithZero.Nat

/-!
# The lengths of cached files

A cache that checks lengths measures a staging file before it moves it.  What is measured is what
the path leads to in the end, and what is moved is what the path names.  For anything but a link
these are one object, and so the path that is answered leads to something of the reported size
(`Measures.solid`).

A link is measured where it was and followed from where it is (`Measures.linked`).  A relative one
is read from another directory then, and an absolute one can lead to a file that has been evicted in
between.  So the length of what a cached link leads to need not be its size, or there may be nothing
at all (`cached_link_leads_elsewhere`).

Later events keep the lengths if the directory of the cache and the files of its entries are spared
(`Spares`): others leave them as they are, no path is removed that takes them away, and no file is
adopted that another entry owns.  Then every entry that is no link has its size as its length, and
the used bytes are the sum of the real lengths if all links stand for something of their size
(`verified_lengths`).
-/

namespace DownloadCache

set_option autoImplicit false

open FileSystem

namespace FileSystem

/-- The length of what a path leads to in the end. -/
def lengthAt (files : FileSystem) (path : Path) : Nat :=
  match files.status path with
  | .ok node => node.length
  | .error _ => 0

/-- In a coherent file system the very object is at the new location afterwards. -/
theorem Renaming.object?_target {files later : FileSystem} {staging target : Path}
    {name newName : String} {above newAbove : Location} {object : Object}
    (moved : Renaming files staging target later name above object newName newAbove)
    (coherent : files.Coherent) : later.object? (newName :: newAbove) = some object := by
  obtain ⟨occupant, found, number⟩ := moved.exists_occupant
  obtain ⟨before, there⟩ := moved.inherits _ occupant found
  rw [found, coherent before _ occupant object there moved.found number]

/-- A link is renamed by a path without a slash at the end. -/
theorem Renaming.spotted_link {files later : FileSystem} {staging target link : Path}
    {name newName : String} {above newAbove : Location} {number : Nat}
    (moved : Renaming files staging target later name above ⟨number, .link link⟩ newName newAbove) :
    files.spot staging = .ok (.present above, .name name false) := by
  obtain ⟨slash, spotted, solid⟩ := moved.spotted
  cases slash with
  | false => exact spotted
  | true =>
      have directory := solid rfl
      cases directory

end FileSystem

namespace Site

variable {site later : Site} {home : Location} {now : Instant} {key : String}
  {staging target : Path} {size : UInt64} {validators : Validators} {measured : Node}

/-! ## What is measured -/

/-- A file that is adopted with a check has been measured when its key had been dropped. -/
theorem exists_status_of_cached (verifies : site.cache.verifySize = true)
    (cached : (site.add now key staging size validators).1 = .ok (.cached target)) :
    ∃ measured, (site.drop key).files.status staging = .ok measured ∧
      measured.length = size.toNat := by
  have verifies : (site.drop key).cache.verifySize = true :=
    (site.evolves_drop key).verifySize.trans verifies
  rw [add] at cached
  split at cached
  · cases cached
  split at cached
  · cases cached
  split at cached
  · cases cached
  rename_i checked
  rw [checkLength, if_pos verifies] at checked
  split at checked
  · cases checked
  rename_i measured status
  split at checked
  · rename_i length
    exact ⟨measured, status, length⟩
  · cases checked

/-- Making room shrinks what is left when the key has been dropped. -/
theorem shrinks_ready (wellFormed : site.files.WellFormed) (key : String) (size : UInt64) :
    Shrinks (site.drop key).files (site.ready key size).files := by
  obtain ⟨evicted, made⟩ := (site.drop key).exists_sheds_makeRoomWithin size
    (site.drop key).cache.index.entries.length
  exact made.shrinks ((site.sheds_drop key).wellFormed wellFormed)

/-- What is measured is what is moved, unless that is a link. -/
theorem measured_eq_node (wellFormed : site.files.WellFormed) {files : FileSystem}
    {name newName : String} {above newAbove : Location} {object : Object}
    (moved : Renaming (site.ready key size).files staging target files name above object newName
      newAbove)
    (status : (site.drop key).files.status staging = .ok measured)
    (unlinked : ∀ link, object.node ≠ .link link) : measured = object.node := by
  have shrinks := shrinks_ready wellFormed key size
  obtain ⟨slash, spotted, solid⟩ := moved.spotted
  have same := status_of_spot (shrinks.spot spotted) moved.short (shrinks.object moved.found)
    solid unlinked
  rw [status] at same
  exact Except.ok.inj same

/-! ## What is under the path -/

/-- What a staging path named, what was measured, and what the path leads to that an adoption has
answered. -/
structure Measures (site : Site) (key : String) (staging target : Path) (size : UInt64)
    (later : Site) (source : Location) (object : Object) (measured : Node) : Prop where
  spotted : site.files.Spots staging source
  found : site.files.object? source = some object
  status : (site.drop key).files.status staging = .ok measured
  length : measured.length = size.toNat
  /-- Anything but a link is what was measured.  If the directory of the cache is not in place, the
  way of the path must be apart from what is moved. -/
  solid : (∀ link, object.node ≠ .link link) →
    (site.InPlace ∨ ∀ place, (site.ready key size).files.Spots target place →
      ¬(site.ready key size).files.GoesThrough target source ∧
        ¬(site.ready key size).files.GoesThrough target place) →
    later.files.status target = .ok measured
  /-- A link was measured where it was, and the path leads to what it stands for in the directory of
  the cache.  That is the same if it is read from the same directory and all that was looked up on
  its way is as it was. -/
  linked : ∀ link, object.node = .link link → site.InPlace →
    (site.drop key).files.StandsFor source.parent link measured ∧
      (∀ node, later.files.status target = .ok node ↔
        later.files.StandsFor site.cache.directory.location link node) ∧
      (link.isAbsolute = true ∨ source.parent = site.cache.directory.location →
        (∀ met, (site.drop key).files.LooksUp source.parent link met →
          later.files.object? met = (site.drop key).files.object? met) →
        later.files.status target = .ok measured)

/-- **An adoption with a check measures** what its path leads to afterwards, a link apart. -/
theorem Rooted.exists_measures (rooted : Rooted home site) (wellFormed : site.files.WellFormed)
    (coherent : site.files.Coherent) (verifies : site.cache.verifySize = true)
    (cached : (site.add now key staging size validators).1 = .ok (.cached target)) :
    ∃ source object measured,
      site.Measures key staging target size (site.add now key staging size validators).2 source
        object measured := by
  obtain ⟨measured, status, length⟩ := exists_status_of_cached verifies cached
  obtain ⟨files, name, above, object, newName, newAbove, moved, legal, rfl, -, vacant, added⟩ :=
    rooted.exists_renaming_of_cached cached
  have same : (site.add now key staging size validators).2.files = files :=
    congrArg (fun site : Site => site.files) added
  obtain ⟨dropped, sheds⟩ := site.exists_sheds_ready key size
  have shrinks := sheds.shrinks wellFormed
  have readyWellFormed := sheds.wellFormed wellFormed
  have readyRooted := rooted.ready key size
  have found := moved.object?_target (coherent.inherits shrinks.inherits)
  have absolute : ((pathOf home).child newName).isAbsolute = true := by
    rw [Path.isAbsolute_child _ legal, isAbsolute_pathOf]
  have still := moved.spot_target readyWellFormed absolute legal (lastStep_child _ legal) vacant
  obtain ⟨slash, spotted, -⟩ := moved.spotted
  refine ⟨name :: above, object, measured, ⟨name, above, slash, shrinks.spot spotted, rfl⟩,
    shrinks.object moved.found, status, length, ?_, ?_⟩
  · intro unlinked apart
    have ways : ¬(site.ready key size).files.GoesThrough ((pathOf home).child newName)
          (name :: above) ∧
        ¬(site.ready key size).files.GoesThrough ((pathOf home).child newName)
          (newName :: newAbove) := by
      rcases apart with inPlace | apart
      · rw [InPlace, rooted.location_eq] at inPlace
        exact (readyRooted.apart_in_place readyWellFormed
          (sheds.isDirectory rooted wellFormed inPlace) legal moved).2
      · obtain ⟨newSlash, newSpotted⟩ := moved.newSpotted
        exact apart _ ⟨newName, newAbove, newSlash, newSpotted, rfl⟩
    rw [same, measured_eq_node wellFormed moved status unlinked]
    exact status_of_spot (still ways.1 ways.2) moved.newShort found nofun unlinked
  · intro link linked inPlace
    rw [InPlace, rooted.location_eq] at inPlace
    obtain ⟨rfl, source, place⟩ := readyRooted.apart_in_place readyWellFormed
      (sheds.isDirectory rooted wellFormed inPlace) legal moved
    have still := still source place
    have directory : files.IsDirectory newAbove :=
      checkDirectory_present_eq_ok_iff.mp (spot_eq_ok_iff.mp still).2.2.1
    have wellFormed' : files.WellFormed := moved.wellFormed readyWellFormed legal vacant
    obtain ⟨number, node⟩ := object
    obtain rfl : node = .link link := linked
    have drop := shrinks_ready wellFormed key size
    have dropWellFormed := (site.sheds_drop key).wellFormed wellFormed
    have spotted' := drop.spot moved.spotted_link
    have stands := standsFor_of_status spotted' (drop.object moved.found) status
    have follows : ∀ node, files.status ((pathOf newAbove).child newName) = .ok node ↔
        files.StandsFor newAbove link node := fun node =>
      wellFormed'.status_child_iff directory legal still moved.newShort found
    rw [same, rooted.location_eq]
    refine ⟨stands, follows, fun start agree => (follows measured).mpr ?_⟩
    have held := checkDirectory_present_eq_ok_iff.mp (spot_eq_ok_iff.mp spotted').2.2.1
    exact stands.of_agree (start.imp_right Eq.symm) dropWellFormed wellFormed' held directory agree

/-! ## Later events -/

/-- Whether an event spares the directory of a cache and the files of its entries.  No file is
adopted that another entry owns, no path is removed that takes away the directory or an owned file,
and others leave these as they are, in a file system that is well-formed and coherent. -/
def Spares (site : Site) : Event → Prop
  | .add _ key staging _ _ => ∀ other path, other ≠ key → site.cache.path? other = some path →
      ¬site.files.Spots staging path.location
  | .removeUntracked path => site.ownsNamed path = false →
      ¬site.files.Takes path site.cache.directory.location ∧
        ∀ key owned, site.cache.path? key = some owned → ¬site.files.Takes path owned.location
  | .outside files => files.WellFormed ∧ files.Coherent ∧
      files.IsDirectory site.cache.directory.location ∧
      ∀ key owned, site.cache.path? key = some owned →
        files.object? owned.location = site.files.object? owned.location
  | _ => True

/-- A cache that checks lengths, with its directory in place in a coherent file system; the paths of
its entries name objects there, and those that are no links have the lengths of the entries. -/
structure Weighed (home : Location) (site : Site) : Prop where
  rooted : Rooted home site
  wellFormed : site.files.WellFormed
  coherent : site.files.Coherent
  verifies : site.cache.verifySize = true
  isDirectory : site.files.IsDirectory home
  kept : ∀ {key : String} {entry : Entry}, site.cache.index.entry? key = some entry →
    ∃ name object, Walkable home name ∧ entry.path = (pathOf home).child name ∧
      site.files.object? (name :: home) = some object ∧
      ((∀ link, object.node ≠ .link link) → object.node.length = entry.size.toNat)

/-- What enters nothing and spares the files of the entries that are left keeps lengths. -/
theorem Weighed.of_kept (weighed : Weighed home site) (evolves : Evolves site later)
    (wellFormed : later.files.WellFormed) (coherent : later.files.Coherent)
    (directory : later.files.IsDirectory home)
    (kept : ∀ {key : String} {entry : Entry}, later.cache.index.entry? key = some entry →
      ∃ before, site.cache.index.entry? key = some before ∧ before.path = entry.path ∧
        before.size = entry.size ∧
        later.files.object? before.path.location = site.files.object? before.path.location) :
    Weighed home later := by
  refine ⟨weighed.rooted.evolves evolves, wellFormed, coherent,
    evolves.verifySize.trans weighed.verifies, directory, ?_⟩
  intro key entry tracked
  obtain ⟨before, trackedBefore, path, size, same⟩ := kept tracked
  obtain ⟨name, object, walkable, place, found, length⟩ := weighed.kept trackedBefore
  rw [place, weighed.rooted.location_name walkable.legal, found] at same
  exact ⟨name, object, walkable, path ▸ place, same, size ▸ length⟩

/-- Shedding entries keeps the lengths of the others. -/
theorem Weighed.sheds (weighed : Weighed home site) {dropped : List (String × Entry)}
    (sheds : site.Sheds dropped later) (evolves : Evolves site later) : Weighed home later := by
  apply weighed.of_kept evolves (sheds.wellFormed weighed.wellFormed)
    (weighed.coherent.inherits (sheds.shrinks weighed.wellFormed).inherits)
    (sheds.isDirectory weighed.rooted weighed.wellFormed weighed.isDirectory)
  intro key entry tracked
  have before := sheds.entry_of_some tracked
  refine ⟨entry, before, rfl, rfl, ?_⟩
  apply sheds.frame_in_place weighed.rooted weighed.wellFormed weighed.isDirectory
  rintro ⟨other, gone⟩ listed within
  -- The path of a dropped entry is that of no other entry.
  have lost := sheds.mem_iff.mp listed
  obtain ⟨name, -, walkable, path, -⟩ := weighed.kept before
  obtain ⟨name', -, walkable', path', -⟩ := weighed.kept lost.1
  have within : gone.path.location <:+ entry.path.location := within
  rw [path, path', weighed.rooted.location_name walkable.legal,
    weighed.rooted.location_name walkable'.legal] at within
  obtain rfl := eq_of_cons_suffix_cons within
  obtain rfl := weighed.rooted.paired.key_eq lost.1 before (by rw [path, path'])
  rw [lost.2] at tracked
  cases tracked

/-- An adoption that answers with a path and spares the files of other entries keeps lengths. -/
theorem Weighed.adopt (weighed : Weighed home site)
    (spares : site.Spares (.add now key staging size validators))
    (cached : (site.add now key staging size validators).1 = .ok (.cached target)) :
    Weighed home (site.add now key staging size validators).2 := by
  have filled : site.cache.directory.text ≠ "" :=
    weighed.rooted.directory ▸ text_pathOf_ne_empty home
  have evolves : Evolves site (site.add now key staging size validators).2 :=
    evolves_after filled (.add now key staging size validators)
  obtain ⟨measured, status, length⟩ := exists_status_of_cached weighed.verifies cached
  obtain ⟨files, name, above, object, newName, newAbove, moved, legal, rfl, free, vacant, added⟩ :=
    weighed.rooted.exists_renaming_of_cached cached
  obtain ⟨dropped, sheds⟩ := site.exists_sheds_ready key size
  have shrinks := sheds.shrinks weighed.wellFormed
  have ready : Weighed home (site.ready key size) :=
    weighed.sheds sheds ((site.evolves_drop key).trans (evolves_makeRoom _ size))
  obtain ⟨rfl, -, -⟩ :=
    ready.rooted.apart_in_place ready.wellFormed ready.isDirectory legal moved
  obtain ⟨slash, spotted, -⟩ := moved.spotted
  obtain ⟨newSlash, newSpotted⟩ := moved.newSpotted
  obtain ⟨⟨checked, short⟩, -, -⟩ :=
    (ready.wellFormed.spot_child_iff ready.isDirectory legal).mp newSpotted
  rw [added] at evolves ⊢
  refine ⟨weighed.rooted.evolves evolves, moved.wellFormed ready.wellFormed legal vacant,
    ready.coherent.inherits moved.inherits, ready.verifies, moved.isDirectory_above, ?_⟩
  intro other entry tracked
  have looked := (Index.entry_insert ..).symm.trans tracked
  split at looked
  · -- The entry of the key is the new one.
    cases looked
    refine ⟨newName, object, ⟨legal, checked, List.forall_mem_cons.mpr ⟨moved.newShort, short⟩⟩,
      rfl, moved.object?_target ready.coherent, fun unlinked => ?_⟩
    rw [← measured_eq_node weighed.wellFormed moved status unlinked]
    exact length
  · -- The file of another entry is neither replaced nor moved.
    rename_i apart
    obtain ⟨name', object', walkable, path, found, length'⟩ := ready.kept looked
    refine ⟨name', object', walkable, path, ?_, length'⟩
    have notTarget : ¬newName :: newAbove <:+ name' :: newAbove := by
      intro within
      have owned := owns_path ready.rooted.paired looked
      rw [path, eq_of_cons_suffix_cons within, free] at owned
      cases owned
    have notSource : ¬name :: above <:+ name' :: newAbove := by
      intro within
      have own := (List.suffix_cons_iff.mp within).resolve_right moved.outside
      have before : site.cache.path? other = some entry.path := by
        rw [Cache.path?, sheds.entry_of_some looked]
        rfl
      apply spares other entry.path apart before
      rw [path, weighed.rooted.location_name walkable.legal, ← own]
      exact ⟨name, above, slash, shrinks.spot spotted, rfl⟩
    rcases moved.outcome with ⟨rfl, -⟩ | ⟨rfl, movable, -⟩
    · exact found
    · rw [movable.frame notTarget notSource]
      exact found

/-- An adoption that spares the files of other entries keeps lengths, whatever it answers. -/
theorem Weighed.add (weighed : Weighed home site)
    (spares : site.Spares (.add now key staging size validators)) :
    Weighed home (site.add now key staging size validators).2 := by
  rcases site.add_cases now key staging size validators with
    remains | ⟨fileName, files, -, -, added⟩
  · obtain ⟨-, dropped, sheds⟩ := exists_sheds_remainder remains
    have filled : site.cache.directory.text ≠ "" :=
      weighed.rooted.directory ▸ text_pathOf_ne_empty home
    exact weighed.sheds sheds (evolves_after filled (.add now key staging size validators))
  · exact weighed.adopt spares (congrArg Prod.fst added)

theorem Weighed.touch (weighed : Weighed home site) (now : Instant) (key : String) :
    Weighed home (site.touch now key) := by
  refine weighed.of_kept (.single (.touch _ now key) rfl rfl rfl) weighed.wellFormed
    weighed.coherent weighed.isDirectory ?_
  intro other entry tracked
  obtain ⟨before, found, rfl⟩ :=
    Option.map_eq_some_iff.mp ((Index.entry_touch ..).symm.trans tracked)
  obtain ⟨path, size, -⟩ := site.cache.index.accessed_keeps now key other before
  exact ⟨before, found, path.symm, size.symm, rfl⟩

/-- A removal that spares the directory and the owned files keeps lengths. -/
theorem Weighed.removeUntracked (weighed : Weighed home site) {path : Path}
    (spares : site.Spares (.removeUntracked path)) :
    Weighed home (site.removeUntracked path).2 := by
  obtain ⟨wellFormed, shrinks⟩ := shrinks_removeUntracked weighed.wellFormed path
  have same := site.cache_removeUntracked path
  have stays : ∀ {location : Location}, (site.files.object? location).isSome →
      (site.ownsNamed path = false → ¬site.files.Takes path location) →
      (site.removeUntracked path).2.files.object? location = site.files.object? location := by
    intro location there spared
    apply (object?_removeUntracked_eq_iff weighed.wellFormed there).mpr
    cases recognised : site.ownsNamed path with
    | true => exact .inl rfl
    | false => exact .inr (spared recognised)
  have location := weighed.rooted.location_eq
  refine weighed.of_kept (.of_cache_eq same) wellFormed
    (weighed.coherent.inherits shrinks.inherits) ?_ ?_
  · apply weighed.isDirectory.of_same
    exact stays weighed.isDirectory.isSome fun free => location ▸ (spares free).1
  · intro key entry tracked
    rw [same] at tracked
    refine ⟨entry, tracked, rfl, rfl, ?_⟩
    obtain ⟨name, object, walkable, place, found, -⟩ := weighed.kept tracked
    apply stays
    · rw [place, weighed.rooted.location_name walkable.legal, found]
      rfl
    · intro free
      apply (spares free).2 key
      rw [Cache.path?, tracked]
      rfl

/-- The path of a name in the directory takes away nothing but what is under that name. -/
theorem Weighed.spares_child (weighed : Weighed home site) {name : String} (legal : IsName name) :
    site.Spares (.removeUntracked (site.cache.directory.child name)) := by
  intro free
  have top : ∀ location, site.files.Takes (site.cache.directory.child name) location →
      name :: home <:+ location := by
    intro location takes
    obtain ⟨top, located, -⟩ := id takes
    have within := takes.suffix located
    rw [weighed.rooted.directory] at located
    rwa [weighed.wellFormed.locate_child weighed.isDirectory legal located] at within
  refine ⟨fun takes => ?_, fun key owned tracked takes => ?_⟩
  · have within := top _ takes
    rw [weighed.rooted.location_eq] at within
    exact not_cons_suffix name home within
  · have within := top _ takes
    obtain ⟨entry, found, rfl⟩ := Option.map_eq_some_iff.mp tracked
    obtain ⟨name', -, walkable, path, -⟩ := weighed.kept found
    rw [path, weighed.rooted.location_name walkable.legal] at within
    obtain rfl := eq_of_cons_suffix_cons within
    have owned := owns_path weighed.rooted.paired found
    rw [path, ← weighed.rooted.directory] at owned
    rw [ownsNamed, owned] at free
    cases free

theorem Weighed.sweep (weighed : Weighed home site) : Weighed home site.sweep.2 := by
  apply sweep_induction (Weighed home) weighed
  intro names listed name member later weighed'
  have legal := isName_of_list weighed.wellFormed listed name member
  exact weighed'.removeUntracked (weighed'.spares_child legal)

/-- **Every event that spares the directory and the owned files keeps lengths.** -/
theorem Weighed.after (weighed : Weighed home site) {event : Event} (spares : site.Spares event) :
    Weighed home (site.after event) := by
  cases event with
  | add now key staging size validators => exact weighed.add spares
  | touch now key => exact weighed.touch now key
  | removeKey key => exact weighed.sheds (site.sheds_drop key) (site.evolves_drop key)
  | removeUntracked path => exact weighed.removeUntracked spares
  | sweep => exact weighed.sweep
  | outside files =>
      obtain ⟨wellFormed, coherent, directory, same⟩ := spares
      rw [weighed.rooted.location_eq] at directory
      refine weighed.of_kept (.of_cache_eq rfl) wellFormed coherent directory ?_
      intro key entry tracked
      refine ⟨entry, tracked, rfl, rfl, same key entry.path ?_⟩
      rw [Cache.path?, show site.cache.index.entry? key = some entry from tracked]
      rfl

theorem Weighed.run (weighed : Weighed home site) {events : List Event}
    (spares : site.Throughout Spares events) : Weighed home (site.run events) := by
  induction events generalizing site with
  | nil => exact weighed
  | cons event rest ih => exact ih (weighed.after spares.1) spares.2

/-! ## Lengths of entries -/

/-- The path of an entry names an object that has the size of the entry as its length, or a link,
and then leads to what the link stands for. -/
theorem Weighed.exists_object (weighed : Weighed home site) {entry : Entry}
    (tracked : site.cache.index.entry? key = some entry) :
    ∃ object, site.files.object? entry.path.location = some object ∧
      ((∀ link, object.node ≠ .link link) → site.files.status entry.path = .ok object.node ∧
        object.node.length = entry.size.toNat) ∧
      ∀ link, object.node = .link link → ∀ node,
        site.files.status entry.path = .ok node ↔ site.files.StandsFor home link node := by
  obtain ⟨name, object, walkable, path, found, length⟩ := weighed.kept tracked
  have spotted := walkable.spot weighed.wellFormed weighed.isDirectory
  have short := walkable.short name List.mem_cons_self
  rw [path]
  refine ⟨object, by rw [weighed.rooted.location_name walkable.legal, found], fun unlinked => ?_,
    fun link linked node => ?_⟩
  · exact ⟨status_of_spot spotted short found nofun unlinked, length unlinked⟩
  · obtain ⟨number, node'⟩ := object
    obtain rfl : node' = .link link := linked
    exact weighed.wellFormed.status_child_iff weighed.isDirectory walkable.legal spotted short found

/-- Whether every link that an entry owns stands for something that has the size of the entry as its
length. -/
def Faithful (site : Site) : Prop :=
  ∀ key entry number link, site.cache.index.entry? key = some entry →
    site.files.object? entry.path.location = some ⟨number, .link link⟩ →
      ∃ node, site.files.StandsFor site.cache.directory.location link node ∧
        node.length = entry.size.toNat

/-- Then the path of every entry leads to something of that length. -/
theorem Weighed.lengthAt_eq (weighed : Weighed home site) (faithful : site.Faithful)
    {entry : Entry} (tracked : site.cache.index.entry? key = some entry) :
    site.files.lengthAt entry.path = entry.size.toNat := by
  have leads : ∃ node, site.files.status entry.path = .ok node ∧
      node.length = entry.size.toNat := by
    obtain ⟨⟨number, node⟩, found, solid, linked⟩ := weighed.exists_object tracked
    by_cases unlinked : ∀ link, node ≠ .link link
    · exact ⟨node, solid unlinked⟩
    · obtain ⟨link, same⟩ := not_forall_not.mp unlinked
      obtain rfl : node = .link link := same
      obtain ⟨node, stands, length⟩ := faithful key entry number link tracked found
      rw [weighed.rooted.location_eq] at stands
      exact ⟨node, (linked link rfl node).mpr stands, length⟩
  obtain ⟨node, status, length⟩ := leads
  rw [lengthAt, status]
  exact length

/-- The sum of the sizes is that of the real lengths. -/
theorem Weighed.total_eq (weighed : Weighed home site) (faithful : site.Faithful) :
    Index.total site.cache.index.entries =
      (site.cache.index.entries.map fun pair => site.files.lengthAt pair.2.path).sum := by
  have each : ∀ pair ∈ site.cache.index.entries,
      site.files.lengthAt pair.2.path = pair.2.size.toNat := by
    rintro ⟨key, entry⟩ member
    have tracked : site.cache.index.entry? key = some entry :=
      (lookup_eq_some_iff_mem weighed.rooted.paired.distinct).mpr member
    exact weighed.lengthAt_eq faithful tracked
  generalize site.cache.index.entries = entries at each
  induction entries with
  | nil => rfl
  | cons pair rest ih =>
      rw [List.forall_mem_cons] at each
      rw [Index.total_cons, List.map_cons, List.sum_cons, each.1, ih each.2]

/-- A cache that has been opened with the check has no entries to weigh. -/
theorem weighed_of_openCache {files opened : FileSystem} {directory : Path} {maxSize : UInt64}
    {cache : Cache} (wellFormed : files.WellFormed)
    (opens : files.openCache directory maxSize true = (.ok cache, opened))
    (coherent : opened.Coherent) : Weighed cache.directory.location ⟨cache, opened⟩ := by
  have reachable : Site.Reachable ⟨cache, opened⟩ :=
    ⟨files, opened, directory, maxSize, true, cache, [], wellFormed, opens, rfl⟩
  obtain ⟨home, sheltered⟩ := sheltered_of_openCache wellFormed opens fun _ => none
  obtain ⟨-, -, -, -, verifies, empty⟩ := eq_of_openCache opens
  have location : cache.directory.location = home := sheltered.location_directory
  refine ⟨reachable.rooted, sheltered.wellFormed, coherent, verifies, ?_, ?_⟩
  · exact location ▸ sheltered.isDirectory
  · intro key entry tracked
    change cache.index.entry? key = some entry at tracked
    rw [empty] at tracked
    cases tracked

end Site

/-- **Verified lengths are the lengths of what is cached, links apart.**  An adoption with a check
has measured what the path leads to that it answers, unless it was a link, which leads to what it
stands for in the directory of the cache.  As long as that directory and the owned files are spared,
the path of every entry leads to something of its size, a link apart; and the used bytes are the sum
of the real lengths if every owned link stands for something of its size. -/
theorem verified_lengths {files opened : FileSystem} {directory : Path} {maxSize : UInt64}
    {cache : Cache} (wellFormed : files.WellFormed)
    (opens : files.openCache directory maxSize true = (.ok cache, opened)) (events : List Event) :
    let start := Site.mk cache opened
    let site := start.run events
    (site.files.WellFormed → site.files.Coherent →
      ∀ now key staging size validators target,
        (site.add now key staging size validators).1 = .ok (.cached target) →
          ∃ source object measured, site.Measures key staging target size
            (site.add now key staging size validators).2 source object measured) ∧
      (opened.Coherent → start.Throughout Site.Spares events →
        (∀ key entry, site.cache.index.entry? key = some entry →
          ∃ object, site.files.object? entry.path.location = some object ∧
            ((∀ link, object.node ≠ .link link) →
              site.files.status entry.path = .ok object.node ∧
                object.node.length = entry.size.toNat) ∧
            ∀ link, object.node = .link link → ∀ node,
              site.files.status entry.path = .ok node ↔
                site.files.StandsFor cache.directory.location link node) ∧
        (maxSize < 0xffffffffffffffff → site.Faithful → site.cache.usage.usedBytes.toNat =
          (site.cache.index.entries.map fun pair => site.files.lengthAt pair.2.path).sum)) := by
  intro start site
  refine ⟨fun wellFormed' coherent => ?_, fun coherent spares => ?_⟩
  · intro now key staging size validators target cached
    have reachable : site.Reachable :=
      ⟨files, opened, directory, maxSize, true, cache, events, wellFormed, opens, rfl⟩
    have verifies : site.cache.verifySize = true :=
      (Site.evolves_run (directory_ne_empty_of_openCache opens) events).verifySize.trans
        (eq_of_openCache opens).2.2.2.2.1
    exact reachable.rooted.exists_measures wellFormed' coherent verifies cached
  · have weighed : Site.Weighed cache.directory.location site :=
      (Site.weighed_of_openCache wellFormed opens coherent).run spares
    refine ⟨fun key entry tracked => weighed.exists_object tracked, fun below faithful => ?_⟩
    rw [← weighed.total_eq faithful]
    exact (sound_run opens below events).balanced.exact

/-! ## A link that leads elsewhere -/

/-- A file system with the directory of a cache, a file, and another directory that holds a file of
the same name and a relative link to it. -/
def FileSystem.supplied : FileSystem :=
  ((((empty.create ["c"] .directory).create ["f"] (.file [1])).create ["s"] .directory).create
    ["f", "s"] (.file [2, 3])).create ["l", "s"] (.link ⟨"f"⟩)

theorem FileSystem.supplied_sound : supplied.WellFormed ∧ supplied.Numbered := by
  have create : ∀ (files : FileSystem) (name : String) (above : Location) (node : Node),
      files.WellFormed ∧ files.Numbered → files.IsDirectory above →
        (Path.mk name).fileName? = some name → files.object? (name :: above) = none →
        (files.create (name :: above) node).WellFormed ∧
          (files.create (name :: above) node).Numbered := by
    rintro files name above node ⟨wellFormed, numbered⟩ directory named vacant
    exact ⟨wellFormed.create directory (Path.isName_of_fileName? named) vacant node,
      numbered.create wellFormed directory vacant node⟩
  have cache := create .empty "c" [] .directory ⟨wellFormed_empty, numbered_empty⟩ ⟨0, rfl⟩
    (by decide) rfl
  have file := create _ "f" [] (.file [1]) cache ⟨0, rfl⟩ (by decide) rfl
  have directory := create _ "s" [] .directory file ⟨0, rfl⟩ (by decide) rfl
  have other := create _ "f" ["s"] (.file [2, 3]) directory ⟨3, rfl⟩ (by decide) rfl
  exact create _ "l" ["s"] (.link ⟨"f"⟩) other ⟨3, rfl⟩ (by decide) rfl

/-- A site with a cache that checks lengths, just opened. -/
def Site.checking : Site :=
  ⟨⟨⟨"/c"⟩, 9, true, {}⟩, FileSystem.empty.create ["c"] .directory⟩

/-- Others supply files, and one of them is adopted. -/
def Site.supply : List Event :=
  [.outside .supplied, .add 0 "k" ⟨"/f"⟩ 1 {}]

theorem Site.opens_checking :
    FileSystem.empty.openCache ⟨"/c"⟩ 9 true = (.ok checking.cache, checking.files) := by
  decide +kernel

theorem Site.coherent_checking : checking.files.Coherent :=
  (numbered_empty.create wellFormed_empty ⟨0, rfl⟩ rfl .directory).coherent

/-- This spares the directory and the files, and so does an adoption from the other directory. -/
theorem Site.spares_supply (staging : Path) (name : String)
    (spotted : (checking.run supply).files.spot staging =
      .ok (.present ["s"], .name name false)) :
    checking.Throughout Spares (supply ++ [.add 1 "j" staging 2 {}]) := by
  have location : checking.cache.directory.location = ["c"] := by decide +kernel
  have untracked : ∀ key owned, checking.cache.path? key ≠ some owned := nofun
  refine ⟨⟨supplied_sound.1, supplied_sound.2.coherent, ?_, ?_⟩, ?_, ?_, trivial⟩
  · rw [location]
    exact ⟨1, by decide +kernel⟩
  · intro key owned tracked
    exact absurd tracked (untracked key owned)
  · intro other path _ tracked
    exact absurd tracked (untracked other path)
  · rintro other path apart tracked ⟨name', above, slash, spotted', place⟩
    have spotted' : (checking.run supply).files.spot staging =
      .ok (.present above, .name name' slash) := spotted'
    rw [spotted] at spotted'
    cases spotted'
    have entries : (checking.run supply).cache.index.entries =
      [("k", ⟨⟨"/c/f"⟩, 1, 0, 0, {}⟩)] := by decide +kernel
    have tracked : (checking.run supply).cache.path? other = some path := tracked
    obtain ⟨entry, found, rfl⟩ := Option.map_eq_some_iff.mp tracked
    have listed := mem_of_lookup_eq_some found
    rw [entries, List.mem_singleton] at listed
    cases listed
    have owned : (Path.mk "/c/f").location = ["f", "c"] := by decide +kernel
    rw [owned] at place
    simp at place

theorem Site.weighed_supply : Site.Weighed ["c"] (checking.run supply) := by
  have weighed := weighed_of_openCache wellFormed_empty opens_checking coherent_checking
  have location : checking.cache.directory.location = ["c"] := by decide +kernel
  have spares : checking.Throughout Spares (supply ++ [.add 1 "j" ⟨"/s/f"⟩ 2 {}]) :=
    spares_supply _ "f" (by decide +kernel)
  rw [location] at weighed
  exact weighed.run ⟨spares.1, spares.2.1, trivial⟩

/-- A file of the same name gets a name of its own, and is what was measured. -/
theorem verified_lengths_of_same_name :
    let site := Site.checking.run Site.supply
    let later := (site.add 1 "j" ⟨"/s/f"⟩ 2 {}).2
    FileSystem.empty.openCache ⟨"/c"⟩ 9 true = (.ok Site.checking.cache, Site.checking.files) ∧
      FileSystem.empty.WellFormed ∧ site.files.WellFormed ∧ site.files.Coherent ∧
      (site.add 1 "j" ⟨"/s/f"⟩ 2 {}).1 = .ok (.cached ⟨"/c/f-1"⟩) ∧
      later.files.status ⟨"/c/f-1"⟩ = .ok (.file [2, 3]) ∧
      Site.checking.files.Coherent ∧
      Site.checking.Throughout Site.Spares (Site.supply ++ [.add 1 "j" ⟨"/s/f"⟩ 2 {}]) ∧
      later.Faithful ∧ later.cache.usage.usedBytes = 3 ∧
      (later.cache.index.entries.map fun pair => later.files.lengthAt pair.2.path).sum = 3 := by
  intro site later
  have weighed : Site.Weighed ["c"] site := Site.weighed_supply
  have cached : (site.add 1 "j" ⟨"/s/f"⟩ 2 {}).1 = .ok (.cached ⟨"/c/f-1"⟩) := by decide +kernel
  have spotted : site.files.spot ⟨"/s/f"⟩ = .ok (.present ["s"], .name "f" false) := by
    decide +kernel
  have there : site.files.object? ["f", "s"] = some ⟨4, .file [2, 3]⟩ := by decide +kernel
  have status : (site.drop "j").files.status ⟨"/s/f"⟩ = .ok (.file [2, 3]) := by decide +kernel
  have spares := Site.spares_supply _ "f" spotted
  have plain : ∀ pair ∈ later.cache.index.entries, later.files.object? pair.2.path.location ∈
      [some ⟨2, .file [1]⟩, some ⟨4, .file [2, 3]⟩] := by decide +kernel
  have faithful : later.Faithful := by
    intro key entry number link tracked found
    rw [Index.entry?] at tracked
    have member := plain (key, entry) (mem_of_lookup_eq_some tracked)
    rw [found] at member
    simp at member
  have used : later.cache.usage.usedBytes = 3 := by decide +kernel
  have inPlace : site.InPlace := ⟨1, by decide +kernel⟩
  refine ⟨Site.opens_checking, wellFormed_empty, weighed.wellFormed, weighed.coherent, cached, ?_,
    Site.coherent_checking, spares, faithful, used, ?_⟩
  · obtain ⟨source, object, measured, measures⟩ : ∃ source object measured,
        site.Measures "j" ⟨"/s/f"⟩ ⟨"/c/f-1"⟩ 2 later source object measured :=
      (verified_lengths wellFormed_empty Site.opens_checking Site.supply).1 weighed.wellFormed
        weighed.coherent 1 "j" ⟨"/s/f"⟩ 2 {} ⟨"/c/f-1"⟩ cached
    obtain ⟨name, above, slash, spotted', rfl⟩ := measures.spotted
    rw [spotted] at spotted'
    cases spotted'
    have found := measures.found
    rw [there] at found
    cases found
    have same := measures.status
    rw [status] at same
    cases same
    apply measures.solid
    · intro link same
      cases same
    · exact .inl inPlace
  · have whole : (Site.mk Site.checking.cache Site.checking.files).run
        (Site.supply ++ [.add 1 "j" ⟨"/s/f"⟩ 2 {}]) = later := Site.run_append ..
    have sum := ((verified_lengths wellFormed_empty Site.opens_checking
      (Site.supply ++ [.add 1 "j" ⟨"/s/f"⟩ 2 {}])).2 Site.coherent_checking spares).2
    rw [whole] at sum
    exact (sum (by decide) faithful).symm.trans (congrArg UInt64.toNat used)

/-- **A link that is cached leads elsewhere.**  It was measured as a file of two octets, and leads
to one of a single octet.  Nobody else has touched a file since, and the used bytes are not the sum
of the real lengths. -/
theorem cached_link_leads_elsewhere :
    let site := Site.checking.run Site.supply
    let later := (site.add 1 "j" ⟨"/s/l"⟩ 2 {}).2
    FileSystem.empty.openCache ⟨"/c"⟩ 9 true = (.ok Site.checking.cache, Site.checking.files) ∧
      Site.checking.Throughout Site.Spares (Site.supply ++ [.add 1 "j" ⟨"/s/l"⟩ 2 {}]) ∧
      site.files.WellFormed ∧ site.files.Coherent ∧ site.InPlace ∧
      (site.add 1 "j" ⟨"/s/l"⟩ 2 {}).1 = .ok (.cached ⟨"/c/l"⟩) ∧
      later.files.status ⟨"/c/l"⟩ = .ok (.file [1]) ∧ later.cache.usage.usedBytes = 3 ∧
      (later.cache.index.entries.map fun pair => later.files.lengthAt pair.2.path).sum = 2 :=
  ⟨Site.opens_checking, Site.spares_supply _ "l" (by decide +kernel),
    Site.weighed_supply.wellFormed, Site.weighed_supply.coherent, ⟨1, by decide +kernel⟩,
    by decide +kernel, by decide +kernel, by decide +kernel, by decide +kernel⟩

end DownloadCache
