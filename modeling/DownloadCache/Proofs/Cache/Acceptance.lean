import DownloadCache.Proofs.Cache.Lengths
import DownloadCache.Proofs.Cache.Reporting
import DownloadCache.Proofs.Cache.Search
import DownloadCache.Proofs.Cache.Sweeping
import DownloadCache.Proofs.FileSystem.Renaming

/-!
# When a file is adopted

A staging file outside of the directory of the cache, of the reported size and within the budget, is
adopted if three things hold when its key has been dropped and room has been made
(`adoption_succeeds_iff`).  Its path must still name it; a path that leads through what the
directory holds may not.  Neither its directory nor that of the cache may be locked, unless it is
under the chosen name already.  And the name that has been chosen for it must not be too long: a
number behind the name makes it longer, and nothing in the search for a place sees to that.

So a file is not adopted whose name is as long as names may be and is taken, though every entry may
have been evicted for it (`long_name_not_adopted`).
-/

namespace DownloadCache

set_option autoImplicit false

open FileSystem

namespace Site

variable {site : Site} {home : Location} {now : Instant} {key name fileName : String}
  {staging : Path} {size : UInt64} {validators : Validators} {above : Location}
  {content : List UInt8}

/-! ## The chosen path -/

/-- No number behind a name is spelled with the character that ends a path. -/
theorem nul_notMem_numberedName {fileName : String} (clean : '\x00' ∉ fileName.toList)
    (number : Nat) : '\x00' ∉ (numberedName fileName number).toList := by
  have digits : '\x00' ∉ Nat.toDigits 10 number := fun nul =>
    absurd (Nat.isDigit_of_mem_toDigits (b := 10) (by decide) (by decide) nul) (by decide)
  rw [numberedName]
  split
  · exact clean
  · simp [clean, digits]

/-- The directory can be listed by its path: the path can be handed over, and all names are short
enough. -/
theorem Rooted.listed_iff (rooted : Rooted home site) (wellFormed : site.files.WellFormed)
    (directory : site.files.IsDirectory home) :
    (site.files.list site.cache.directory).isOk = true ↔
      checkPath (pathOf home) = .ok () ∧ ∀ part ∈ home, part.utf8ByteSize ≤ maxNameOctets := by
  rw [rooted.directory]
  constructor
  · intro listed
    cases found : site.files.list (pathOf home) with
    | error cause =>
        rw [found] at listed
        cases listed
    | ok names => exact ((wellFormed.list_pathOf_iff directory).mp found).1
  · intro accessible
    rw [(wellFormed.list_pathOf_iff directory).mpr ⟨accessible, rfl⟩]
    rfl

/-- A name without that character, in a directory whose path can be handed over, has such a path if
it is not too long. -/
theorem checkPath_child {directory : Path} (checked : checkPath directory = .ok ())
    (clean : '\x00' ∉ name.toList)
    (fits : (directory.child name).text.utf8ByteSize ≤ maxPathOctets) :
    checkPath (directory.child name) = .ok () := by
  obtain ⟨cleanDirectory, filled, -⟩ := checkPath_eq_ok_iff.mp checked
  have some : directory.text.toList ≠ [] := fun empty => filled (String.toList_eq_nil_iff.mp empty)
  have whole := Path.toList_child directory name
  refine checkPath_eq_ok_iff.mpr ⟨?_, ?_, fits⟩
  · rw [whole]
    split <;> simp [cleanDirectory, clean]
  · intro empty
    rw [String.toList_eq_nil_iff.mpr empty] at whole
    split at whole <;> simp [some] at whole

/-! ## The stages of an adoption -/

/-- A file that passes the check of its length is settled in the site that is ready for it. -/
theorem add_eq_settle (fits : size ≤ site.cache.maxSize) (named : staging.fileName? = some fileName)
    (checked : (site.drop key).checkLength staging size = .ok ()) :
    site.add now key staging size validators =
      (site.ready key size).settle now key staging fileName size validators := by
  have same : (site.drop key).cache.maxSize = site.cache.maxSize :=
    (site.evolves_drop key).maxSize
  have small : ¬(site.drop key).cache.maxSize < size := by
    rw [same]
    exact UInt64.not_lt.mpr fits
  rw [add, if_neg small, named]
  dsimp only
  rw [checked]
  rfl

/-- A file that is still named when room has been made has passed the check of its length. -/
theorem checkLength_of_file (wellFormed : site.files.WellFormed)
    (verified : site.cache.verifySize = true → content.length = size.toNat)
    (spotted : (site.ready key size).files.spot staging = .ok (.present above, .name name false))
    (short : name.utf8ByteSize ≤ maxNameOctets) {number : Nat}
    (found : (site.ready key size).files.object? (name :: above) = some ⟨number, .file content⟩) :
    (site.drop key).checkLength staging size = .ok () := by
  have shrinks := shrinks_ready wellFormed key size
  have same : (site.drop key).cache.verifySize = site.cache.verifySize :=
    (site.evolves_drop key).verifySize
  rw [checkLength, same]
  split
  · rename_i verifies
    have status : (site.drop key).files.status staging = .ok (.file content) :=
      status_of_spot (shrinks.spot spotted) short (shrinks.object found) (by simp) (by simp)
    rw [status]
    exact if_pos (verified verifies)
  · rfl

/-- A path that passes nothing below the directory names the file that it named when room has been
made. -/
theorem Rooted.linkStatus_ready (rooted : Rooted home site) (wellFormed : site.files.WellFormed)
    (directory : site.files.IsDirectory home) (absolute : staging.isAbsolute = true)
    (spotted : site.files.spot staging = .ok (.present above, .name name false))
    (short : name.utf8ByteSize ≤ maxNameOctets) {number : Nat}
    (found : site.files.object? (name :: above) = some ⟨number, .file content⟩)
    (passes : ∀ location, site.files.Passes staging location → location.isBelow home = false) :
    (site.ready key size).files.linkStatus staging = .ok (.file content) := by
  obtain ⟨dropped, sheds⟩ := site.exists_sheds_ready key size
  have shrinks := sheds.shrinks wellFormed
  obtain ⟨-, -, -, last⟩ := spot_eq_ok_iff.mp spotted
  have named : site.files.numberAt? staging = some number :=
    (numberAt?_eq_some_iff last.symm).mpr ⟨above, _, spotted, short, found, rfl⟩
  have still := numberAt?_of_agree absolute last.symm (sheds.wellFormed wellFormed) named
    fun location passed => by
      refine sheds.frame_in_place rooted wellFormed directory fun pair listed within => ?_
      obtain ⟨own, place⟩ := sheds.exists_location_eq rooted listed
      have below := isBelow_of_cons_suffix (place ▸ within)
      rw [passes location passed] at below
      cases below
  obtain ⟨above', object, spotted', -, found', -⟩ := (numberAt?_eq_some_iff last.symm).mp still
  have same := shrinks.spot spotted'
  rw [spotted] at same
  cases same
  have same := shrinks.object found'
  rw [found] at same
  cases same
  exact linkStatus_of_spot spotted' short found' nofun

/-! ## Settling a file -/

/-- The site that is ready for a file, where its path still names it, and the path of a name that
has been chosen for it in the directory. -/
structure Offers (site : Site) (home : Location) (staging : Path) (name : String)
    (above : Location) (content : List UInt8) (fileName chosen : String) : Prop where
  rooted : Rooted home site
  wellFormed : site.files.WellFormed
  directory : site.files.IsDirectory home
  spotted : site.files.spot staging = .ok (.present above, .name name false)
  short : name.utf8ByteSize ≤ maxNameOctets
  found : ∃ number, site.files.object? (name :: above) = some ⟨number, .file content⟩
  outside : ¬home <:+ name :: above
  legal : IsName fileName
  picked : site.destination fileName = (pathOf home).child chosen
  isName : IsName chosen
  handed : checkPath ((pathOf home).child chosen) = .ok ()
  shortHome : ∀ part ∈ home, part.utf8ByteSize ≤ maxNameOctets

variable {chosen : String}

theorem Offers.newSpotted (offers : Offers site home staging name above content fileName chosen) :
    site.files.spot ((pathOf home).child chosen) = .ok (.present home, .name chosen false) :=
  (offers.wellFormed.spot_child_iff offers.directory offers.isName).mpr
    ⟨⟨offers.handed, offers.shortHome⟩, rfl, rfl⟩

/-- A file is settled under a name that is not too long if no lock forbids it. -/
theorem Offers.settle_cached (offers : Offers site home staging name above content fileName chosen)
    (fits : chosen.utf8ByteSize ≤ maxNameOctets)
    (permitted : site.files.Permits (name :: above) (chosen :: home)) :
    (site.settle now key staging fileName size validators).1 =
      .ok (.cached ((pathOf home).child chosen)) := by
  obtain ⟨number, found⟩ := offers.found
  have filled : site.cache.directory.text ≠ "" :=
    offers.rooted.directory ▸ text_pathOf_ne_empty home
  have vacant := (free_of_isTaken (isTaken_destination filled offers.legal)).2
  rw [offers.picked] at vacant
  have free : ¬site.files.IsDirectory (chosen :: home) := by
    intro directory
    rw [namesDirectory_of_spot offers.newSpotted fits directory] at vacant
    cases vacant
  obtain ⟨files, renamed⟩ := offers.wellFormed.exists_rename_of_file
    (checkPath_eq_ok_iff.mp offers.handed).1 offers.spotted offers.short found rfl
    offers.newSpotted fits offers.outside free permitted
  rw [settle, offers.picked, renamed]

/-- Under a name that is too long nothing is settled. -/
theorem Offers.settle_refused (offers : Offers site home staging name above content fileName chosen)
    (long : maxNameOctets < chosen.utf8ByteSize) :
    site.settle now key staging fileName size validators =
      (.error (.relocate staging ((pathOf home).child chosen) (.errno .nameTooLong)), site) := by
  obtain ⟨number, found⟩ := offers.found
  have refused := rename_of_long_name (checkPath_eq_ok_iff.mp offers.handed).1 offers.spotted
    offers.short found offers.newSpotted long
  rw [settle, offers.picked, refused, refuse]

/-- Where a lock forbids it nothing is settled. -/
theorem Offers.settle_locked (offers : Offers site home staging name above content fileName chosen)
    (fits : chosen.utf8ByteSize ≤ maxNameOctets)
    (forbidden : ¬site.files.Permits (name :: above) (chosen :: home)) :
    site.settle now key staging fileName size validators =
      (.error (.relocate staging ((pathOf home).child chosen) (.errno .accessDenied)), site) := by
  obtain ⟨number, found⟩ := offers.found
  have refused := offers.wellFormed.rename_of_locked (checkPath_eq_ok_iff.mp offers.handed).1
    offers.spotted offers.short found rfl offers.newSpotted fits offers.outside forbidden
  rw [settle, offers.picked, refused, refuse]

/-- A file that its path still names when room has been made is offered under the chosen name. -/
theorem Rooted.offers_ready (rooted : Rooted home site) (wellFormed : site.files.WellFormed)
    (inPlace : site.files.IsDirectory home)
    (listed : (site.files.list site.cache.directory).isOk = true)
    (spotted : site.files.spot staging = .ok (.present above, .name name false))
    (short : name.utf8ByteSize ≤ maxNameOctets) (outside : ¬home <:+ name :: above)
    (kept : (site.ready key size).files.linkStatus staging = .ok (.file content)) {number : Nat}
    (picked : (site.ready key size).destination name =
      (pathOf home).child (numberedName name number))
    (handed : ((pathOf home).child (numberedName name number)).text.utf8ByteSize ≤ maxPathOctets) :
    Offers (site.ready key size) home staging name above content name
      (numberedName name number) := by
  obtain ⟨dropped, sheds⟩ := site.exists_sheds_ready key size
  have shrinks := sheds.shrinks wellFormed
  obtain ⟨checked, -, -, last⟩ := spot_eq_ok_iff.mp spotted
  have legal := Path.isName_of_fileName? (fileName?_of_lastStep last.symm).1
  obtain ⟨accessible, shortHome⟩ := (rooted.listed_iff wellFormed inPlace).mp listed
  have clean : '\x00' ∉ name.toList := by
    intro nul
    have step : .into name ∈ staging.trail.steps := by
      rw [(steps_of_lastStep last.symm).1]
      exact List.mem_append_right _ List.mem_cons_self
    exact (checkPath_eq_ok_iff.mp checked).1 (Path.mem_of_into_mem step nul)
  have still := shrinks.spot_of_linkStatus spotted kept
  obtain ⟨-, -, file, found⟩ := spot_of_file still kept
  exact ⟨rooted.ready key size, sheds.wellFormed wellFormed,
    sheds.isDirectory rooted wellFormed inPlace, still, short, ⟨file, found⟩, outside, legal,
    picked, isName_numberedName legal number,
    checkPath_child accessible (nul_notMem_numberedName clean number) handed, shortHome⟩

/-- A file that is adopted is still named when room has been made, the name of its path is not too
long, and no lock forbids the move. -/
theorem Rooted.kept_of_cached (rooted : Rooted home site) (wellFormed : site.files.WellFormed)
    (inPlace : site.files.IsDirectory home)
    (spotted : site.files.spot staging = .ok (.present above, .name name false))
    (found : ∃ number, site.files.object? (name :: above) = some ⟨number, .file content⟩)
    (isName : IsName chosen)
    (cached : (site.add now key staging size validators).1 =
      .ok (.cached ((pathOf home).child chosen))) :
    (site.ready key size).files.linkStatus staging = .ok (.file content) ∧
      chosen.utf8ByteSize ≤ maxNameOctets ∧
      (site.ready key size).files.Permits (name :: above) (chosen :: home) := by
  obtain ⟨file, found⟩ := found
  obtain ⟨dropped, sheds⟩ := site.exists_sheds_ready key size
  have shrinks := sheds.shrinks wellFormed
  obtain ⟨files, first, newAbove, object, newName, newHome, moved, isNewName, path, -⟩ :=
    rooted.exists_renaming_of_cached cached
  obtain ⟨slash, spotted', -⟩ := moved.spotted
  have before := shrinks.spot spotted'
  rw [spotted] at before
  cases before
  have there := shrinks.object moved.found
  rw [found] at there
  cases there
  have locations := congrArg Path.location path
  rw [location_child _ isName, location_child _ isNewName, List.cons.injEq] at locations
  obtain rfl := locations.1
  obtain ⟨rfl, -⟩ := (rooted.ready key size).apart_in_place (sheds.wellFormed wellFormed)
    (sheds.isDirectory rooted wellFormed inPlace) isNewName moved
  exact ⟨linkStatus_of_spot spotted' moved.short moved.found nofun, moved.newShort, moved.permits⟩

end Site

/-- **When a file is adopted.**  Let the directory of the cache be in place, and let the staging
path name a file outside of it that is within the budget and of the reported size.  The file is
adopted, if the path that is chosen for it can be handed over, if and only if its path still names
it when room has been made, the name that is chosen is not too long, and no lock forbids the move.
If the name is too long or a lock forbids the move, the adoption fails when room has been made.  A
path that passes nothing below the directory does still name the file. -/
theorem adoption_succeeds_iff {site : Site} (reachable : site.Reachable)
    (wellFormed : site.files.WellFormed) (inPlace : site.InPlace)
    (listed : (site.files.list site.cache.directory).isOk = true) {now : Instant} {key : String}
    {staging : Path} {size : UInt64} {validators : Validators} {source : Location}
    {content : List UInt8} (spotted : site.files.Spots staging source)
    (named : site.files.linkStatus staging = .ok (.file content))
    (outside : ¬site.cache.directory.location <:+ source) (fits : size ≤ site.cache.maxSize)
    (verified : site.cache.verifySize = true → content.length = size.toNat) :
    ∃ fileName number, staging.fileName? = some fileName ∧
      let ready := site.ready key size
      let chosen := Site.numberedName fileName number
      let target := site.cache.directory.child chosen
      let kept := ready.files.linkStatus staging = .ok (.file content)
      let permitted := ready.files.Permits source (chosen :: site.cache.directory.location)
      ready.destination fileName = target ∧
        (target.text.utf8ByteSize ≤ maxPathOctets →
          ((site.add now key staging size validators).1 = .ok (.cached target) ↔
              kept ∧ chosen.utf8ByteSize ≤ maxNameOctets ∧ permitted) ∧
            (kept → maxNameOctets < chosen.utf8ByteSize →
              site.add now key staging size validators =
                (.error (.relocate staging target (.errno .nameTooLong)), ready)) ∧
            (kept → chosen.utf8ByteSize ≤ maxNameOctets → ¬permitted →
              site.add now key staging size validators =
                (.error (.relocate staging target (.errno .accessDenied)), ready))) ∧
        (staging.isAbsolute = true →
          (∀ location, site.files.Passes staging location →
            location.isBelow site.cache.directory.location = false) → kept) := by
  obtain ⟨name, above, slash, spotted, rfl⟩ := spotted
  obtain ⟨spotted, short, file, found⟩ := spot_of_file spotted named
  obtain ⟨-, -, -, last⟩ := spot_eq_ok_iff.mp spotted
  have fileNamed := (fileName?_of_lastStep last.symm).1
  have legal := Path.isName_of_fileName? fileNamed
  have rooted := reachable.rooted
  obtain ⟨number, destination⟩ : ∃ number, (site.ready key size).destination name =
      (pathOf site.cache.directory.location).child (Site.numberedName name number) :=
    ⟨_, congrArg (Path.child · _) (rooted.ready key size).directory⟩
  have same : site.cache.directory.child (Site.numberedName name number) =
      (pathOf site.cache.directory.location).child (Site.numberedName name number) :=
    congrArg (Path.child · _) rooted.directory
  refine ⟨name, number, fileNamed, ?_⟩
  dsimp only
  rw [same]
  refine ⟨destination, fun handed => ?_, fun absolute passes =>
    rooted.linkStatus_ready wellFormed inPlace absolute spotted short found passes⟩
  -- Where the path is kept, the file is settled, and the name and the locks decide.
  have offers (kept : (site.ready key size).files.linkStatus staging = .ok (.file content)) :=
    rooted.offers_ready wellFormed inPlace listed spotted short outside kept destination handed
  have settles (kept : (site.ready key size).files.linkStatus staging = .ok (.file content)) :
      site.add now key staging size validators =
        (site.ready key size).settle now key staging name size validators := by
    obtain ⟨file', found'⟩ := (offers kept).found
    exact Site.add_eq_settle fits fileNamed
      (Site.checkLength_of_file wellFormed verified (offers kept).spotted short found')
  refine ⟨⟨fun cached => ?_, ?_⟩, fun kept long => ?_, fun kept fits forbidden => ?_⟩
  · exact rooted.kept_of_cached wellFormed inPlace spotted ⟨file, found⟩
      (Site.isName_numberedName legal number) cached
  · rintro ⟨kept, fits, permitted⟩
    rw [settles kept]
    exact (offers kept).settle_cached fits permitted
  · rw [settles kept]
    exact (offers kept).settle_refused long
  · rw [settles kept]
    exact (offers kept).settle_locked fits forbidden

/-! ## Taken names -/

/-- A stocked cache with a file beside it and a directory of the same name within it. -/
def FileSystem.obstructed (name : String) : FileSystem :=
  (untouched.create [name, "c"] .directory).create [name] (.file [1])

namespace FileSystem

variable {name : String}

theorem object?_untouched {location : Location} (first : location ≠ []) (second : location ≠ ["c"])
    (third : location ≠ ["f", "c"]) : untouched.object? location = none := by
  have directory := wellFormed_empty.create wellFormed_empty.root
    (Path.isName_of_fileName? (by decide : (Path.mk "c").fileName? = some "c")) rfl .directory
  rw [untouched, directory.object?_create ⟨1, rfl⟩ rfl, if_neg third,
    wellFormed_empty.object?_create wellFormed_empty.root rfl, if_neg second, object?, empty,
    Tree.find?_leaf, if_neg first]
  rfl

/-- What there is beside the file and the directory was there before. -/
theorem obstructed_spec (legal : IsName name) (first : name ≠ "c") (second : name ≠ "f") :
    (obstructed name).WellFormed ∧ ∀ location, (obstructed name).object? location =
      if location = [name] then some ⟨4, .file [1]⟩
      else if location = [name, "c"] then some ⟨3, .directory⟩
      else untouched.object? location := by
  have vacant : untouched.object? [name, "c"] = none :=
    object?_untouched (by simp) (by simp) (by simpa using second)
  have blocked := wellFormed_untouched.create ⟨1, rfl⟩ legal vacant .directory
  have found := wellFormed_untouched.object?_create ⟨1, rfl⟩ vacant .directory
  have beside : (untouched.create [name, "c"] .directory).object? [name] = none := by
    rw [found, if_neg (by simp)]
    exact object?_untouched (by simp) (by simpa using first) (by simp)
  refine ⟨blocked.create blocked.root legal beside _, fun location => ?_⟩
  rw [obstructed, blocked.object?_create blocked.root beside, found]
  rfl

end FileSystem

/-- A file whose name is taken by a directory is adopted under a numbered name. -/
theorem adoption_succeeds_iff_of_taken_name :
    let site := Site.stocked (.obstructed "g")
    site.Reachable ∧ site.files.WellFormed ∧ site.InPlace ∧
      (site.files.list site.cache.directory).isOk = true ∧ site.files.Spots ⟨"/g"⟩ ["g"] ∧
      site.files.linkStatus ⟨"/g"⟩ = .ok (.file [1]) ∧
      (site.add 1 "j" ⟨"/g"⟩ 9 {}).1 = .ok (.cached ⟨"/c/g-1"⟩) ∧
      (site.ready "j" 9).files.linkStatus ⟨"/g"⟩ = .ok (.file [1]) := by
  intro site
  have reachable : site.Reachable := Site.reachable_stocked _
  have legal := Path.isName_of_fileName? (by decide : (Path.mk "g").fileName? = some "g")
  have wellFormed : site.files.WellFormed := (obstructed_spec legal (by decide) (by decide)).1
  have inPlace : site.InPlace := ⟨1, by decide +kernel⟩
  have listed : (site.files.list site.cache.directory).isOk = true := by decide +kernel
  have spotted : site.files.Spots ⟨"/g"⟩ ["g"] := ⟨"g", [], false, by decide +kernel, rfl⟩
  have named : site.files.linkStatus ⟨"/g"⟩ = .ok (.file [1]) := by decide +kernel
  have cached : (site.add 1 "j" ⟨"/g"⟩ 9 {}).1 = .ok (.cached ⟨"/c/g-1"⟩) := by decide +kernel
  obtain ⟨fileName, number, fileNamed, destination, decides, -⟩ :=
    @adoption_succeeds_iff site reachable wellFormed inPlace listed 1 "j" ⟨"/g"⟩ 9 {} ["g"] [1]
      spotted named (by decide +kernel) (by decide +kernel) (by decide +kernel)
  have own : (Path.mk "/g").fileName? = some "g" := by decide
  rw [fileNamed] at own
  cases own
  have picked : (site.ready "j" 9).destination "g" = ⟨"/c/g-1"⟩ := by decide +kernel
  rw [← destination, picked] at decides
  exact ⟨reachable, wellFormed, inPlace, listed, spotted, named, cached,
    ((decides (by decide)).1.mp cached).1⟩

/-! ## A name that is as long as names may be -/

/-- A name of 255 octets. -/
@[irreducible]
def longName : String :=
  String.ofList (List.replicate 255 'a')

theorem utf8ByteSize_longName : longName.utf8ByteSize = 255 := by decide +kernel

theorem mem_longName {character : Char} (member : character ∈ longName.toList) :
    character = 'a' := by
  unfold longName at member
  rw [String.toList_ofList] at member
  exact (List.mem_replicate.mp member).2

theorem longName_ne {other : String} (short : other.utf8ByteSize < 255) : longName ≠ other := by
  rintro rfl
  exact absurd utf8ByteSize_longName (Nat.ne_of_lt short)

theorem isName_longName : IsName longName where
  notEmpty := longName_ne (by decide)
  notDot := longName_ne (by decide)
  notDots := longName_ne (by decide)
  noSlash member := absurd (mem_longName member) (by decide)

/-- The path of a name within a directory is longer than both by a slash at most. -/
theorem Path.utf8ByteSize_child_le (directory : Path) (name : String) :
    (directory.child name).text.utf8ByteSize ≤
      directory.text.utf8ByteSize + 1 + name.utf8ByteSize := by
  have slash : "/".utf8ByteSize = 1 := by decide
  unfold child
  split
  · exact Nat.le_add_left _ _
  · split
    · rw [String.utf8ByteSize_append]
      omega
    · rw [String.utf8ByteSize_append, String.utf8ByteSize_append, slash]

namespace Site

/-- The numbered names of a long name are too long. -/
theorem long_numberedName {number : Nat} (numbered : number ≠ 0) :
    maxNameOctets < (numberedName longName number).utf8ByteSize := by
  have dash : "-".utf8ByteSize = 1 := by decide
  rw [numberedName, if_neg numbered, String.utf8ByteSize_append, String.utf8ByteSize_append,
    utf8ByteSize_longName, dash, maxNameOctets]
  omega

/-- No path with a name that is too long names a directory. -/
theorem namesDirectory_of_long {files : FileSystem} {directory : Path} {name : String}
    (legal : IsName name) (long : maxNameOctets < name.utf8ByteSize) :
    files.namesDirectory (directory.child name) = false := by
  cases named : files.linkStatus (directory.child name) with
  | error cause => rw [namesDirectory, named]
  | ok node =>
      obtain ⟨place, located, -⟩ := linkStatus_eq_ok_iff.mp named
      obtain ⟨-, -, -, short, -⟩ := (locate_eq_ok_iff (lastStep_child directory legal)).mp located
      exact absurd short (Nat.not_le.mpr long)

/-- A stocked cache is rooted at `c`. -/
theorem rooted_stocked (files : FileSystem) : Rooted ["c"] (stocked files) := by
  have home : (Path.mk "/c").location = ["c"] := by decide +kernel
  have rooted : Rooted (Path.mk "/c").location (stocked files) := (reachable_stocked files).rooted
  rwa [home] at rooted

/-- A stocked cache owns no path with another name than that of its entry. -/
theorem owns_stocked (files : FileSystem) {name : String} (legal : IsName name)
    (other : name ≠ "f") :
    (stocked files).cache.index.owns ((pathOf ["c"]).child name) = false := by
  have rooted := rooted_stocked files
  refine Bool.eq_false_iff.mpr fun owned => ?_
  rw [owns_iff_tracks rooted.paired, rooted.tracks_child_iff rooted.legal legal] at owned
  obtain ⟨-, key, entry, tracked, named⟩ := owned
  have listed : (key, entry) ∈ [("k", (⟨⟨"/c/f"⟩, 1, 0, 0, {}⟩ : Entry))] :=
    mem_of_lookup_eq_some tracked
  rw [List.mem_singleton] at listed
  cases listed
  have own : (Path.mk "/c/f").fileName? = some "f" := by decide
  rw [own] at named
  exact other (Option.some.inj named).symm

/-- The path of a long name in a directory with a short path can be handed over. -/
theorem checkPath_long {directory : Path} (checked : checkPath directory = .ok ())
    (short : directory.text.utf8ByteSize ≤ 2) (number : Nat) (small : number < 10) :
    checkPath (directory.child (numberedName longName number)) = .ok () := by
  have clean : '\x00' ∉ longName.toList := fun nul => absurd (mem_longName nul) (by decide)
  refine checkPath_child checked (nul_notMem_numberedName clean number) ?_
  have whole := Path.utf8ByteSize_child_le directory (numberedName longName number)
  have size : (numberedName longName number).utf8ByteSize ≤ 257 := by
    have dash : "-".utf8ByteSize = 1 := by decide
    have digit : ∀ number < 10, (toString number).utf8ByteSize = 1 := by decide
    rw [numberedName]
    split
    · exact (utf8ByteSize_longName).le.trans (by decide)
    · rw [String.utf8ByteSize_append, String.utf8ByteSize_append, utf8ByteSize_longName, dash,
        digit number small]
  rw [maxPathOctets]
  omega

/-- A file with a long name that is taken has a place for which everything else is fit. -/
theorem offers_longName :
    (stocked (.obstructed longName)).Offers ["c"] ((pathOf []).child longName) longName [] [1]
      longName (numberedName longName 1) := by
  let site := stocked (.obstructed longName)
  have legal := isName_longName
  have numbered := isName_numberedName legal 1
  obtain ⟨wellFormed, found⟩ := obstructed_spec legal (longName_ne (by decide))
    (longName_ne (by decide))
  have differs : ["c"] ≠ [longName] := fun same =>
    longName_ne (by decide) (List.cons.inj same).1.symm
  have directory : (obstructed longName).IsDirectory ["c"] :=
    ⟨1, by rw [found, if_neg differs, if_neg (by simp)]; rfl⟩
  have inside : (obstructed longName).IsDirectory [longName, "c"] :=
    ⟨3, by rw [found, if_neg (by simp), if_pos rfl]⟩
  have shortHome : ∀ part ∈ ["c"], part.utf8ByteSize ≤ maxNameOctets := by decide
  have checked : ∀ number, number < 10 →
      checkPath ((pathOf ["c"]).child (numberedName longName number)) = .ok () :=
    checkPath_long (by decide +kernel) (by decide +kernel)
  have spotted : site.files.spot ((pathOf ["c"]).child longName) =
      .ok (.present ["c"], .name longName false) :=
    (wellFormed.spot_child_iff directory legal).mpr
      ⟨⟨checked 0 (by decide), shortHome⟩, rfl, rfl⟩
  have taken : site.isTaken (site.candidate longName 0) = true := by
    have named : site.files.namesDirectory ((pathOf ["c"]).child longName) = true :=
      namesDirectory_of_spot spotted utf8ByteSize_longName.le inside
    exact Bool.or_eq_true_iff.mpr (.inr named)
  have free : site.isTaken (site.candidate longName 1) = false := by
    have other : numberedName longName 1 ≠ "f" := by
      intro same
      have long := long_numberedName one_ne_zero
      rw [same] at long
      exact absurd long (by decide)
    have notOwned : site.cache.index.owns (site.candidate longName 1) = false :=
      owns_stocked _ numbered other
    have notNamed : site.files.namesDirectory (site.candidate longName 1) = false :=
      namesDirectory_of_long numbered (long_numberedName one_ne_zero)
    rw [isTaken, notOwned, notNamed, Bool.or_self]
  have picked : site.destination longName = site.candidate longName 1 := by
    have filled : site.cache.directory.text ≠ "" := text_pathOf_ne_empty ["c"]
    obtain ⟨steps, -, search⟩ := exists_search filled legal
    exact ((Search.next taken (.free free)).unique search).1
  exact {
    rooted := rooted_stocked _
    wellFormed
    directory
    spotted := (wellFormed.spot_child_iff wellFormed.root legal).mpr
      ⟨⟨checkPath_long (by decide +kernel) (by decide +kernel) 0 (by decide), by simp⟩, rfl, rfl⟩
    short := utf8ByteSize_longName.le
    found := ⟨4, (found [longName]).trans (if_pos rfl)⟩
    outside := fun within => differs (within.eq_of_length rfl)
    legal
    picked
    isName := numbered
    handed := checked 1 (by decide)
    shortHome }

end Site

/-- **A file is not adopted if its name is as long as names may be and is taken:** the name that is
chosen is too long. -/
theorem long_name_not_adopted :
    let site := Site.stocked (.obstructed longName)
    let staging := (pathOf []).child longName
    let target := site.cache.directory.child (Site.numberedName longName 1)
    site.Reachable ∧ site.files.WellFormed ∧ site.InPlace ∧
      (site.files.list site.cache.directory).isOk = true ∧ site.files.Spots staging [longName] ∧
      site.files.linkStatus staging = .ok (.file [1]) ∧
      ¬site.cache.directory.location <:+ [longName] ∧ 1 ≤ site.cache.maxSize ∧
      site.cache.maxSize < 0xffffffffffffffff ∧ site.cache.verifySize = false ∧
      target.text.utf8ByteSize ≤ maxPathOctets ∧
      (site.add 1 "j" staging 1 {}).1 =
        .error (.relocate staging target (.errno .nameTooLong)) := by
  intro site staging target
  have offers := Site.offers_longName
  have rooted := Site.rooted_stocked (.obstructed longName)
  obtain ⟨number, found⟩ := offers.found
  have named : site.files.linkStatus staging = .ok (.file [1]) :=
    linkStatus_of_spot offers.spotted offers.short found nofun
  have fileNamed : staging.fileName? = some longName := fileName?_child _ isName_longName
  have path : (pathOf ["c"]).child (Site.numberedName longName 1) = target := rfl
  -- The budget has room for one more byte, so that no entry is dropped.
  have added : site.add 1 "j" staging 1 {} = site.settle 1 "j" staging longName 1 {} :=
    Site.add_eq_settle (by decide) fileNamed rfl
  have refused : site.settle 1 "j" staging longName 1 {} = _ :=
    offers.settle_refused (Site.long_numberedName one_ne_zero)
  refine ⟨Site.reachable_stocked _, offers.wellFormed, ?_, ?_,
    ⟨longName, [], false, offers.spotted, rfl⟩, named, ?_, by decide, by decide, rfl, ?_, ?_⟩
  · rw [Site.InPlace, rooted.location_eq]
    exact offers.directory
  · exact (rooted.listed_iff offers.wellFormed offers.directory).mpr
      ⟨by decide +kernel, offers.shortHome⟩
  · rw [rooted.location_eq]
    exact offers.outside
  · exact path ▸ (checkPath_eq_ok_iff.mp offers.handed).2.2
  · rw [added, ← path]
    exact congrArg Prod.fst refused

end DownloadCache
