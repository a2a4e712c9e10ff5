import DownloadCache.Proofs.Cache.Standing
import DownloadCache.Proofs.FileSystem.Answering

/-!
# What a removal reports

The removal of a path is refused if the path is tracked, that is if it has the components of the
path of an entry (`Tracks`), or if it is recognised: it has the file name of an entry, and its
parent is a spelling of the directory of the cache (`Recognises`).  These are the two comparisons
that are made (`Rooted.ownsNamed_iff`), whatever the spelling.

The three answers tell the truth (`removal_reports`).  That nothing was removed is said of a path
that is tracked or recognised and of one that finds nothing, and then nothing has changed.  That
something was removed is said if the path found an object and finds nothing any more, and then
nothing has changed but that object and what lay below it.  The cache is left alone in any case.
-/

namespace DownloadCache

set_option autoImplicit false

open FileSystem

/-- The components of the path of a location. -/
theorem FileSystem.components_pathOf {location : Location}
    (legal : ∀ name ∈ location, IsName name) :
    (pathOf location).components = .root :: location.reverse.map .name := by
  rw [Path.components, if_pos (isAbsolute_pathOf location), steps_pathOf legal, Location.steps,
    List.filterMap_map]
  have named : (Component.ofStep? ∘ Step.into) = some ∘ Component.name := rfl
  rw [named, List.filterMap_eq_map, List.singleton_append]

/-- Locations whose paths have the same components are the same. -/
theorem FileSystem.eq_of_components_pathOf {location other : Location}
    (legal : ∀ name ∈ location, IsName name) (legal' : ∀ name ∈ other, IsName name)
    (same : (pathOf location).components = (pathOf other).components) : location = other := by
  rw [components_pathOf legal, components_pathOf legal', List.cons.injEq] at same
  have names := List.map_injective_iff.mpr (fun _ _ => Component.name.inj) same.2
  exact List.reverse_injective names

/-- A canonical path is that of a location that is spelled by names. -/
theorem FileSystem.WellFormed.exists_of_canonical {files : FileSystem}
    (wellFormed : files.WellFormed) {path directory : Path} (canonical : files.canonical path = .ok directory) :
    ∃ location, directory = pathOf location ∧ ∀ name ∈ location, IsName name := by
  obtain ⟨-, first, location, start, leads, -, rfl⟩ := canonical_eq_ok_iff.mp canonical
  have grounded := wellFormed.grounded_start path
  rw [start] at grounded
  exact ⟨location, rfl,
    wellFormed.isName_of_mem (wellFormed.isSome_of_leads leads (IsDirectory.isSome grounded))⟩

/-- The file name of the path of a name in a directory. -/
theorem fileName?_child (directory : Path) {name : String} (legal : IsName name) :
    (directory.child name).fileName? = some name :=
  (fileName?_of_lastStep (lastStep_child directory legal)).1

namespace Site

variable {home : Location} {site : Site} {path : Path}

/-! ## What is recognised -/

/-- Whether a path has the components of the path of an entry. -/
def Tracks (site : Site) (path : Path) : Prop :=
  ∃ key entry, site.cache.index.entry? key = some entry ∧ path.components = entry.path.components

/-- Whether a path has the file name of an entry, and its parent has the canonical path of the
directory of the cache. -/
def Recognises (site : Site) (path : Path) : Prop :=
  ∃ key entry fileName, site.cache.index.entry? key = some entry ∧
    entry.path.fileName? = some fileName ∧ path.fileName? = some fileName ∧
    site.files.canonical path.holder = .ok site.cache.directory

/-- A path is owned if and only if it is tracked. -/
theorem owns_iff_tracks {directory : Path} (paired : site.cache.index.Paired directory) :
    site.cache.index.owns path = true ↔ site.Tracks path := by
  constructor
  · intro owned
    obtain ⟨key, owner⟩ := Option.isSome_iff_exists.mp owned
    obtain ⟨entry, tracked, same⟩ := paired.entry owner
    exact ⟨key, entry, tracked, same.symm⟩
  · rintro ⟨key, entry, tracked, same⟩
    rw [Index.owns, same]
    exact Option.isSome_iff_exists.mpr ⟨key, paired.owner tracked⟩

/-- A name in a directory is tracked if and only if that is the directory of the cache and the name
is that of an entry. -/
theorem Rooted.tracks_child_iff (rooted : Rooted home site) {location : Location} {name : String}
    (legal : ∀ name ∈ location, IsName name) (isName : IsName name) :
    site.Tracks ((pathOf location).child name) ↔
      location = home ∧ ∃ key entry, site.cache.index.entry? key = some entry ∧
        entry.path.fileName? = some name := by
  constructor
  · rintro ⟨key, entry, tracked, same⟩
    obtain ⟨own, isOwn, place⟩ := rooted.paired.place tracked
    rw [place, Path.components_child _ isName, Path.components_child _ isOwn] at same
    obtain ⟨directory, last⟩ := List.append_inj' same rfl
    cases last
    refine ⟨eq_of_components_pathOf legal rooted.legal directory, key, entry, tracked, ?_⟩
    rw [place, fileName?_child _ isOwn]
  · rintro ⟨rfl, key, entry, tracked, named⟩
    obtain ⟨own, isOwn, place⟩ := rooted.paired.place tracked
    rw [place, fileName?_child _ isOwn] at named
    cases named
    exact ⟨key, entry, tracked, by rw [place]⟩

/-- **A path is refused if and only if it is tracked or recognised.** -/
theorem Rooted.ownsNamed_iff (rooted : Rooted home site) (wellFormed : site.files.WellFormed) :
    site.ownsNamed path = true ↔ site.Tracks path ∨ site.Recognises path := by
  rw [ownsNamed, Bool.or_eq_true, owns_iff_tracks rooted.paired, owns_iff_tracks rooted.paired,
    withCanonicalParent_eq]
  cases named : path.fileName? with
  | none =>
      simp only [or_self, Recognises, named, reduceCtorEq, false_and, and_false, exists_false,
        or_false]
  | some fileName =>
      cases canonical : site.files.canonical path.holder with
      | error cause =>
          simp only [or_self, Recognises, canonical, reduceCtorEq, and_false, exists_false,
            or_false]
      | ok directory =>
          refine or_congr_right ?_
          obtain ⟨location, rfl, legal⟩ := wellFormed.exists_of_canonical canonical
          dsimp only
          rw [rooted.tracks_child_iff legal (Path.isName_of_fileName? named)]
          constructor
          · rintro ⟨rfl, key, entry, tracked, own⟩
            exact ⟨key, entry, fileName, tracked, own, named, rooted.directory ▸ canonical⟩
          · rintro ⟨key, entry, other, tracked, own, same, canonical'⟩
            rw [named] at same
            cases same
            rw [canonical, rooted.directory] at canonical'
            have same := congrArg Path.components (Except.ok.inj canonical')
            exact ⟨eq_of_components_pathOf legal rooted.legal same, key, entry, tracked, own⟩

/-! ## The answer -/

/-- What is refused changes nothing. -/
theorem removeUntracked_of_owned (owned : site.ownsNamed path = true) :
    site.removeUntracked path = (.ok false, site) := by
  rw [removeUntracked, if_pos owned]

/-- What is not refused is answered by the removal. -/
theorem removeUntracked_eq_ok_iff (free : ¬site.ownsNamed path = true) {removed : Bool} :
    (site.removeUntracked path).1 = .ok removed ↔
      (site.files.remove path).1 = .ok removed := by
  rw [removeUntracked, if_neg free]
  obtain ⟨answer, files⟩ := site.files.remove path
  cases answer <;> simp

/-- The removal of a path that finds nothing changes nothing. -/
theorem removeUntracked_of_findsNothing (wellFormed : site.files.WellFormed)
    (nothing : site.files.FindsNothing path) : site.removeUntracked path = (.ok false, site) := by
  obtain ⟨cause, failed, absent⟩ := wellFormed.findsNothing_iff.mp nothing
  rw [removeUntracked, remove_of_noEntry failed absent]
  split <;> rfl

end Site

/-- **The answers of a removal are true, however the path is spelled.**  In any reachable state, a
path that has the file name of an entry and whose parent is a spelling of the directory of the cache
is refused, and so is a path that finds nothing; but for these only a path that is tracked is.  What
is refused changes nothing.  If something was removed, the path found an object and finds nothing
any more, and nothing has changed but the object and, if that was a directory, what lay below it.
The cache never changes. -/
theorem removal_reports {site : Site} (reachable : site.Reachable)
    (wellFormed : site.files.WellFormed) (path : Path) :
    let after := (site.removeUntracked path).2
    (site.Recognises path → site.removeUntracked path = (.ok false, site)) ∧
      (site.files.FindsNothing path → site.removeUntracked path = (.ok false, site)) ∧
      ((site.removeUntracked path).1 = .ok false ↔
        site.Recognises path ∨ site.files.FindsNothing path ∨ site.Tracks path) ∧
      ((site.removeUntracked path).1 = .ok true →
        after.files.FindsNothing path ∧
          ∃ location object, site.files.locate path = .ok (.present location) ∧
            site.files.object? location = some object ∧
            site.files.linkStatus path = .ok object.node ∧
            ∀ other, after.files.object? other ≠ site.files.object? other →
              other = location ∨ object.isDirectory = true ∧ other.isBelow location = true) ∧
      after.cache = site.cache := by
  intro after
  have refused : site.ownsNamed path = true ↔ site.Tracks path ∨ site.Recognises path :=
    reachable.rooted.ownsNamed_iff wellFormed
  refine ⟨fun recognised => Site.removeUntracked_of_owned (refused.mpr (.inr recognised)),
    Site.removeUntracked_of_findsNothing wellFormed, ⟨?_, ?_⟩, ?_, site.cache_removeUntracked path⟩
  · intro answer
    by_cases owned : site.ownsNamed path = true
    · rcases refused.mp owned with tracked | recognised
      · exact .inr (.inr tracked)
      · exact .inl recognised
    · rw [Site.removeUntracked_eq_ok_iff owned, wellFormed.remove_eq_ok_false_iff] at answer
      exact .inr (.inl answer)
  · rintro (recognised | nothing | tracked)
    · rw [Site.removeUntracked_of_owned (refused.mpr (.inr recognised))]
    · rw [Site.removeUntracked_of_findsNothing wellFormed nothing]
    · rw [Site.removeUntracked_of_owned (refused.mpr (.inl tracked))]
  · intro answer
    have free : ¬site.ownsNamed path = true := by
      intro owned
      rw [Site.removeUntracked_of_owned owned] at answer
      cases answer
    have files : after.files = (site.files.remove path).2 := by
      rw [show after = _ from Site.removeUntracked_eq site path, if_neg free]
    rw [Site.removeUntracked_eq_ok_iff free] at answer
    obtain ⟨⟨location, located⟩, nothing⟩ := wellFormed.removed_of_ok_true answer
    obtain ⟨node, there, status⟩ := wellFormed.exists_linkStatus located
    obtain ⟨object, found, rfl⟩ := Option.map_eq_some_iff.mp there
    rw [files]
    exact ⟨nothing, location, object, located, found, status, fun other lost =>
      wellFormed.eq_or_below_of_remove located found lost⟩

/-- A path to an owned file through a link, steps up and slashes is refused.  A link in the
directory of the cache is removed without what it leads to. -/
theorem removal_reports_of_link :
    let files := (untouched.create ["d"] .directory).create ["o", "d"] (.file [2])
    let site := Site.stocked (files.create ["l", "c"] (.link ⟨"../d"⟩))
    site.Reachable ∧ site.files.WellFormed ∧
      site.removeUntracked ⟨"c/l/..//c/f/"⟩ = (.ok false, site) ∧
      (site.removeUntracked ⟨"/c/l"⟩).1 = .ok true ∧
      (site.removeUntracked ⟨"/c/l"⟩).2.files.FindsNothing ⟨"/c/l"⟩ ∧
      (site.removeUntracked ⟨"/c/l"⟩).2.files.object? ["o", "d"] = some ⟨4, .file [2]⟩ := by
  intro files site
  have reachable : site.Reachable := Site.reachable_stocked _
  have wellFormed : site.files.WellFormed := by
    have name : ∀ {text : String}, (Path.mk text).fileName? = some text → IsName text :=
      Path.isName_of_fileName?
    have directory := wellFormed_untouched.create wellFormed_untouched.root
      (name (by decide : (Path.mk "d").fileName? = some "d")) rfl .directory
    have inside : files.WellFormed := directory.create ⟨3, rfl⟩
      (name (by decide : (Path.mk "o").fileName? = some "o")) rfl (.file [2])
    exact inside.create ⟨1, rfl⟩
      (name (by decide : (Path.mk "l").fileName? = some "l")) rfl (.link ⟨"../d"⟩)
  have entry : site.cache.index.entry? "k" = some ⟨⟨"/c/f"⟩, 1, 0, 0, {}⟩ := by decide +kernel
  have recognised : site.Recognises ⟨"c/l/..//c/f/"⟩ :=
    ⟨"k", _, "f", entry, by decide +kernel, by decide +kernel, by decide +kernel⟩
  have removed : (site.removeUntracked ⟨"/c/l"⟩).1 = .ok true := by decide +kernel
  refine ⟨reachable, wellFormed, (removal_reports reachable wellFormed _).1 recognised, removed,
    ((removal_reports reachable wellFormed _).2.2.2.1 removed).1, by decide +kernel⟩

end DownloadCache
