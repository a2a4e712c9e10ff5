import DownloadCache.Proofs.Cache.Shedding

/-!
# Adoptions without success

A file that is too large, that has no name, or that fails the check of its length is turned down
when its key has been dropped and nothing else has happened; a file that cannot be moved, when room
has been made as well (`remainder`).  Nothing else is left behind: entries, counters and files are
those of that site (`add_cases`).

So an adoption without success sheds entries and does no more.  The key has no entry, all other
entries that are left are as they were, and of the file system only the paths of dropped entries
have been removed (`unsuccessful_adoption_sheds`).  With the directory of the cache in place, that
leaves alone whatever is not within one of these paths, such as a staging file outside of the
directory.
-/

namespace DownloadCache

set_option autoImplicit false

open FileSystem

namespace Site

/-- What is left after an adoption with an outcome other than success: the site without the key, and
with room made if the file could not be moved. -/
def remainder (site : Site) (key : String) (size : UInt64) :
    Except AdoptionError Outcome → Option Site
  | .ok (.cached _) => none
  | .error (.relocate ..) => some ((site.removeKey key).2.makeRoom size)
  | _ => some (site.removeKey key).2

variable {site left : Site} {now : Instant} {key : String} {staging : Path} {size : UInt64}
  {validators : Validators}

/-- Settling moves the file and enters it, or leaves everything as it is. -/
theorem settle_cases (site : Site) (now : Instant) (key : String) (staging : Path)
    (fileName : String) (size : UInt64) (validators : Validators) :
    let target := site.destination fileName
    (∃ files, site.files.rename staging target = .ok files ∧
      site.settle now key staging fileName size validators =
        (.ok (.cached target),
          { site.withIndex (site.cache.index.insert now key target size validators)
            with files })) ∨
      ∃ cause, site.settle now key staging fileName size validators =
        (.error (.relocate staging target cause), site) := by
  intro target
  rw [settle]
  cases renamed : site.files.rename staging target with
  | error cause => exact .inr ⟨cause, rfl⟩
  | ok files => exact .inl ⟨files, rfl, rfl⟩

/-- The check of a length does not fail for lack of a move. -/
theorem checkLength_ne_relocate {site : Site} {source target : Path} {cause : SystemError} :
    site.checkLength staging size ≠ .error (.relocate source target cause) := by
  rw [checkLength]
  split
  · split
    · simp
    · split <;> simp
  · simp

/-- **An adoption leaves what its outcome says,** or it moves a file into a site that is ready for
it and enters it. -/
theorem add_cases (site : Site) (now : Instant) (key : String) (staging : Path) (size : UInt64)
    (validators : Validators) :
    let ready := site.ready key size
    site.remainder key size (site.add now key staging size validators).1 =
        some (site.add now key staging size validators).2 ∨
      ∃ fileName files, staging.fileName? = some fileName ∧
        ready.files.rename staging (ready.destination fileName) = .ok files ∧
        site.add now key staging size validators =
          (.ok (.cached (ready.destination fileName)),
            { ready.withIndex (ready.cache.index.insert now key (ready.destination fileName) size
                validators) with files }) := by
  intro ready
  rw [add]
  split
  · exact .inl rfl
  cases named : staging.fileName? with
  | none => exact .inl rfl
  | some fileName =>
      dsimp only
      cases checked : (site.drop key).checkLength staging size with
      | error cause =>
          cases cause with
          | relocate => exact absurd checked checkLength_ne_relocate
          | _ => exact .inl rfl
      | ok _ =>
          dsimp only
          rcases ready.settle_cases now key staging fileName size validators with
            ⟨files, renamed, settled⟩ | ⟨cause, settled⟩
          · exact .inr ⟨fileName, files, rfl, renamed, settled⟩
          · left
            change site.remainder key size (ready.settle ..).1 = some (ready.settle ..).2
            rw [settled]
            rfl

/-- An adoption without success leaves what its outcome says, and nothing else. -/
theorem eq_of_remainder
    (remains : site.remainder key size (site.add now key staging size validators).1 = some left) :
    (site.add now key staging size validators).2 = left := by
  rcases site.add_cases now key staging size validators with same | ⟨_, _, -, -, added⟩
  · exact Option.some.inj (same.symm.trans remains)
  · rw [added] at remains
    cases remains

/-- What is left has shed entries, that of the key among them. -/
theorem exists_sheds_remainder {result : Except AdoptionError Outcome}
    (remains : site.remainder key size result = some left) :
    left.cache.index.entry? key = none ∧ ∃ dropped, site.Sheds dropped left := by
  have without : (site.drop key).cache.index.entry? key = none := by simp [entry_drop]
  rw [remainder.eq_def] at remains
  split at remains
  · cases remains
  · cases remains
    exact ⟨entry_makeRoomWithin without size _, site.exists_sheds_ready key size⟩
  · cases remains
    exact ⟨without, _, site.sheds_drop key⟩

end Site

/-- **An adoption without success sheds entries and does no more.** -/
theorem unsuccessful_adoption_sheds {site left : Site} (reachable : site.Reachable)
    (wellFormed : site.files.WellFormed) {now : Instant} {key : String} {staging : Path}
    {size : UInt64} {validators : Validators}
    (remains :
      site.remainder key size (site.add now key staging size validators).1 = some left) :
    let later := (site.add now key staging size validators).2
    later = left ∧ later.cache.index.entry? key = none ∧
      (∀ other entry, later.cache.index.entry? other = some entry →
        site.cache.index.entry? other = some entry) ∧
      ∃ dropped : List (String × Entry),
        (dropped.map (·.1)).Nodup ∧
        (∀ other entry, (other, entry) ∈ dropped ↔
          site.cache.index.entry? other = some entry ∧
            later.cache.index.entry? other = none) ∧
        later.files = site.files.removeAll (dropped.map (·.2.path)) ∧
        (site.InPlace →
          (∀ location, (∀ pair ∈ dropped, ¬pair.2.path.location <:+ location) →
              later.files.object? location = site.files.object? location) ∧
            ∀ location, site.files.locate staging = .ok (.present location) ∨
                site.files.resolve staging = .ok (.present location) →
              ∀ below, ¬site.cache.directory.location <:+ below ++ location →
                later.files.object? (below ++ location) =
                  site.files.object? (below ++ location)) := by
  intro later
  obtain rfl : later = left := Site.eq_of_remainder remains
  obtain ⟨untracked, dropped, sheds⟩ := Site.exists_sheds_remainder remains
  have rooted := reachable.rooted
  refine ⟨rfl, untracked, fun _ _ => sheds.entry_of_some, dropped, sheds.distinct,
    fun _ _ => sheds.mem_iff, sheds.files, fun inPlace => ?_⟩
  have frame : ∀ location, (∀ pair ∈ dropped, ¬pair.2.path.location <:+ location) →
      later.files.object? location = site.files.object? location := fun _ outside =>
    sheds.frame_in_place rooted wellFormed inPlace outside
  refine ⟨frame, fun location _ below outside => frame _ fun pair listed within => outside ?_⟩
  obtain ⟨name, place⟩ := sheds.exists_location_eq rooted listed
  rw [place] at within
  exact (List.suffix_cons name _).trans within

/-- A stocked cache with a directory beside it and an orphan of the same name within it. -/
def FileSystem.cluttered : FileSystem :=
  (untouched.create ["d"] .directory).create ["d", "c"] (.file [2])

theorem FileSystem.wellFormed_cluttered : cluttered.WellFormed := by
  have legal : IsName "d" :=
    Path.isName_of_fileName? (by decide : (Path.mk "d").fileName? = some "d")
  have beside := wellFormed_untouched.create wellFormed_untouched.root legal rfl .directory
  exact beside.create ⟨1, rfl⟩ legal rfl (.file [2])

/-- A directory cannot take the place of an orphan; it stays where it was, and an entry that was
evicted for it stays evicted. -/
theorem unsuccessful_adoption_sheds_of_blocked_directory :
    let site := Site.stocked .cluttered
    site.Reachable ∧ site.files.WellFormed ∧ site.InPlace ∧
      site.remainder "j" 9 (site.add 1 "j" ⟨"/d"⟩ 9 {}).1 = some (site.makeRoom 9) ∧
      (site.add 1 "j" ⟨"/d"⟩ 9 {}).1 =
        .error (.relocate ⟨"/d"⟩ ⟨"/c/d"⟩ (.errno .notDirectory)) ∧
      (site.add 1 "j" ⟨"/d"⟩ 9 {}).2 = site.makeRoom 9 ∧
      (site.makeRoom 9).cache.path? "k" = none ∧
      site.files.locate ⟨"/d"⟩ = .ok (.present ["d"]) ∧
      (site.add 1 "j" ⟨"/d"⟩ 9 {}).2.files.object? ["d"] = some ⟨3, .directory⟩ := by
  intro site
  have reachable : site.Reachable := Site.reachable_stocked .cluttered
  have inPlace : site.InPlace := ⟨1, by decide +kernel⟩
  have remains : site.remainder "j" 9 (site.add 1 "j" ⟨"/d"⟩ 9 {}).1 = some (site.makeRoom 9) := by
    decide +kernel
  have located : site.files.locate ⟨"/d"⟩ = .ok (.present ["d"]) := by decide +kernel
  have found : site.files.object? ["d"] = some ⟨3, .directory⟩ := by decide +kernel
  have outside : ¬site.cache.directory.location <:+ [] ++ ["d"] := by decide +kernel
  obtain ⟨same, -, -, dropped, -, -, -, frame⟩ :=
    unsuccessful_adoption_sheds reachable wellFormed_cluttered remains
  have kept := (frame inPlace).2 ["d"] (.inl located) [] outside
  rw [List.nil_append, found] at kept
  exact ⟨reachable, wellFormed_cluttered, inPlace, remains, by decide +kernel, same,
    by decide +kernel, located, kept⟩

end DownloadCache
