import Mathlib.Data.Finset.Card
import Mathlib.Data.Nat.Find
import DownloadCache.Proofs.Cache.Destination
import DownloadCache.Proofs.Index.Pairing

/-!
# The search for a place

The place of an adopted file is searched by trying one candidate after the other, and nothing in the
search says when to stop (`Search`).  It stops all the same, and at one place only.  A candidate
that is taken is owned or is a directory.  Different numbers give different candidates, so there are
no more taken ones than owned paths and directories together (`exists_free`).

So the search ends at the first candidate that is not taken, after no more steps than there are
owned paths and directories, and that is the place that is chosen (`destination_search`).
-/

namespace DownloadCache

set_option autoImplicit false

/-! ## What takes candidates -/

/-- The names in a directory that name directories there. -/
def FileSystem.directoryNames (files : FileSystem) (directory : Path) : Finset String :=
  ((files.list directory).toOption.getD []).toFinset.filter fun name =>
    files.namesDirectory (directory.child name) = true

/-- The paths that are owned, as lists of components. -/
def Index.ownedPaths (index : Index) : Finset (List Component) :=
  (index.owners.map (·.1)).toFinset

namespace Index

theorem mem_ownedPaths_iff {index : Index} {path : Path} :
    path.components ∈ index.ownedPaths ↔ index.owns path = true := by
  rw [ownedPaths, List.mem_toFinset, List.mem_map, owns, Option.isSome_iff_ne_none]
  constructor
  · rintro ⟨owner, listed, same⟩ absent
    exact ne_of_lookup_eq_none absent listed same
  · intro owned
    obtain ⟨key, owner⟩ := Option.ne_none_iff_exists'.mp owned
    exact ⟨_, mem_of_lookup_eq_some owner, rfl⟩

end Index

namespace Site

variable {site : Site} {fileName : String}

/-- A candidate that is taken is owned or is a directory. -/
theorem isTaken_candidate_iff (filled : site.cache.directory.text ≠ "") (legal : IsName fileName)
    (number : Nat) :
    site.isTaken (site.candidate fileName number) = true ↔
      (site.candidate fileName number).components ∈ site.cache.index.ownedPaths ∨
        numberedName fileName number ∈ site.files.directoryNames site.cache.directory := by
  rw [isTaken, Bool.or_eq_true, Index.mem_ownedPaths_iff, FileSystem.directoryNames,
    Finset.mem_filter, List.mem_toFinset, ← candidate_eq]
  refine or_congr_right ⟨fun named => ⟨?_, named⟩, And.right⟩
  rw [candidate_eq] at named
  obtain ⟨names, listed, member⟩ :=
    FileSystem.mem_list_of_namesDirectory filled (isName_numberedName legal number) named
  rw [listed]
  exact member

/-- Different numbers give different candidates, however their paths are spelled. -/
theorem components_candidate_injective (site : Site) (legal : IsName fileName) :
    Function.Injective fun number => (site.candidate fileName number).components := by
  intro first second same
  have same : (site.candidate fileName first).components =
      (site.candidate fileName second).components := same
  rw [candidate_eq, candidate_eq, Path.components_child _ (isName_numberedName legal first),
    Path.components_child _ (isName_numberedName legal second)] at same
  have last := List.append_cancel_left same
  simp only [List.cons.injEq, Component.name.injEq, and_true] at last
  exact numberedName_injective fileName last

/-- How many owned paths there are, and directories in the directory of the cache. -/
def takers (site : Site) : Nat :=
  site.cache.index.ownedPaths.card + (site.files.directoryNames site.cache.directory).card

/-- **One of the first candidates is free.**  There is one more of them than could be taken. -/
theorem exists_free (filled : site.cache.directory.text ≠ "") (legal : IsName fileName) :
    ∃ number, number ≤ site.takers ∧ site.isTaken (site.candidate fileName number) = false := by
  by_contra none
  push Not at none
  let owned := (Finset.range (site.takers + 1)).filter fun number =>
    (site.candidate fileName number).components ∈ site.cache.index.ownedPaths
  let named := (Finset.range (site.takers + 1)).filter fun number =>
    numberedName fileName number ∈ site.files.directoryNames site.cache.directory
  have covered : Finset.range (site.takers + 1) ⊆ owned ∪ named := by
    intro number tried
    have taken := none number (Nat.lt_succ_iff.mp (Finset.mem_range.mp tried))
    rw [ne_eq, Bool.not_eq_false, isTaken_candidate_iff filled legal] at taken
    rw [Finset.mem_union, Finset.mem_filter, Finset.mem_filter]
    exact taken.imp (⟨tried, ·⟩) (⟨tried, ·⟩)
  have fewOwned : owned.card ≤ site.cache.index.ownedPaths.card :=
    Finset.card_le_card_of_injOn _ (fun number member => (Finset.mem_filter.mp member).2)
      (site.components_candidate_injective legal).injOn
  have fewNamed : named.card ≤ (site.files.directoryNames site.cache.directory).card :=
    Finset.card_le_card_of_injOn _ (fun number member => (Finset.mem_filter.mp member).2)
      (numberedName_injective fileName).injOn
  have tooMany := (Finset.card_le_card covered).trans (Finset.card_union_le owned named)
  rw [Finset.card_range] at tooMany
  unfold takers at tooMany
  omega

theorem takers_le_takenBound (site : Site) : site.takers ≤ site.takenBound := by
  have owned := List.toFinset_card_le (site.cache.index.owners.map (·.1))
  have named : (site.files.directoryNames site.cache.directory).card ≤ _ :=
    (Finset.card_filter_le _ _).trans
      (List.toFinset_card_le ((site.files.list site.cache.directory).toOption.getD []))
  rw [List.length_map] at owned
  exact Nat.add_le_add owned named

/-! ## The search -/

/-- The search for a place from a numbered candidate on, the place where it ends and the steps that
it takes from candidate to candidate. -/
inductive Search (site : Site) (fileName : String) : Nat → Path → Nat → Prop where
  | free {number : Nat} (isFree : site.isTaken (site.candidate fileName number) = false) :
      Search site fileName number (site.candidate fileName number) 0
  | next {number steps : Nat} {path : Path}
      (taken : site.isTaken (site.candidate fileName number) = true)
      (rest : Search site fileName (number + 1) path steps) :
      Search site fileName number path (steps + 1)

/-- A search ends at the first candidate that is not taken. -/
theorem search_iff {first steps : Nat} {path : Path} :
    site.Search fileName first path steps ↔
      path = site.candidate fileName (first + steps) ∧
        site.isTaken (site.candidate fileName (first + steps)) = false ∧
        ∀ number, first ≤ number → number < first + steps →
          site.isTaken (site.candidate fileName number) = true := by
  induction steps generalizing first with
  | zero =>
      constructor
      · rintro ⟨isFree⟩
        exact ⟨rfl, isFree, fun number from_ before => by omega⟩
      · rintro ⟨rfl, isFree, -⟩
        exact .free isFree
  | succ steps ih =>
      have shifted : first + (steps + 1) = first + 1 + steps := by omega
      rw [shifted]
      constructor
      · rintro (_ | ⟨taken, rest⟩)
        obtain ⟨ends, isFree, before⟩ := ih.mp rest
        refine ⟨ends, isFree, fun number after earlier => ?_⟩
        rcases Nat.eq_or_lt_of_le after with rfl | later
        · exact taken
        · exact before number later earlier
      · rintro ⟨ends, isFree, before⟩
        exact .next (before first (Nat.le_refl _) (by omega))
          (ih.mpr ⟨ends, isFree, fun number after => before number (by omega)⟩)

/-- A search ends at one place only, after so many steps. -/
theorem Search.unique {first steps others : Nat} {path other : Path}
    (search : site.Search fileName first path steps)
    (again : site.Search fileName first other others) : other = path ∧ others = steps := by
  induction search generalizing other others with
  | free isFree =>
      cases again with
      | free => exact ⟨rfl, rfl⟩
      | next taken => exact absurd taken (by simp [isFree])
  | next taken _ ih =>
      cases again with
      | free isFree => exact absurd taken (by simp [isFree])
      | next _ rest =>
          obtain ⟨rfl, rfl⟩ := ih rest
          exact ⟨rfl, rfl⟩

/-- The place that is chosen is that of the first candidate that is not taken. -/
theorem exists_search (filled : site.cache.directory.text ≠ "") (legal : IsName fileName) :
    ∃ steps, steps ≤ site.takers ∧ site.Search fileName 0 (site.destination fileName) steps := by
  have free := exists_free filled legal
  obtain ⟨first, few, isFree, before⟩ : ∃ first, first ≤ site.takers ∧
      site.isTaken (site.candidate fileName first) = false ∧
        ∀ number < first, site.isTaken (site.candidate fileName number) = true := by
    have least := Nat.find_spec free
    refine ⟨Nat.find free, least.1, least.2, fun number earlier => ?_⟩
    have rejected := Nat.find_min free earlier
    rw [not_and, Bool.not_eq_false] at rejected
    exact rejected (earlier.le.trans least.1)
  have tried : (List.range (site.takenBound + 1)).find? (fun number =>
      !site.isTaken (site.candidate fileName number)) = some first := by
    rw [List.find?_range_eq_some]
    refine ⟨by rw [isFree, Bool.not_false], ?_, fun number earlier => ?_⟩
    · rw [List.mem_range]
      exact Nat.lt_succ_of_le (few.trans site.takers_le_takenBound)
    · rw [before number earlier, Bool.not_true, Bool.not_false]
  refine ⟨first, few, search_iff.mpr ⟨?_, ?_, ?_⟩⟩
  · rw [destination, tried, Option.getD_some, Nat.zero_add]
  · rw [Nat.zero_add]
    exact isFree
  · intro number _ earlier
    rw [Nat.zero_add] at earlier
    exact before number earlier

end Site

/-- **The search for a place ends, at the first candidate that is not taken.**  It takes no more
steps than there are owned paths and directories in the directory of the cache.  All candidates are
different, and the place is not the path of an entry. -/
theorem destination_search {site : Site} {fileName : String}
    (filled : site.cache.directory.text ≠ "") (legal : IsName fileName) :
    ∃ steps, site.Search fileName 0 (site.destination fileName) steps ∧
      (∀ path others, site.Search fileName 0 path others →
        path = site.destination fileName ∧ others = steps) ∧
      steps ≤ site.cache.index.ownedPaths.card +
        (site.files.directoryNames site.cache.directory).card ∧
      site.destination fileName = site.candidate fileName steps ∧
      site.cache.index.owns (site.destination fileName) = false ∧
      site.files.namesDirectory (site.destination fileName) = false ∧
      (∀ number < steps, site.cache.index.owns (site.candidate fileName number) = true ∨
        site.files.namesDirectory (site.candidate fileName number) = true) ∧
      Function.Injective (fun number => (site.candidate fileName number).components) ∧
      ∀ directory, site.cache.index.Paired directory → ∀ key entry,
        site.cache.index.entry? key = some entry →
          entry.path.components ≠ (site.destination fileName).components := by
  obtain ⟨steps, few, search⟩ := site.exists_search filled legal
  obtain ⟨ends, -, before⟩ := Site.search_iff.mp search
  rw [Nat.zero_add] at ends before
  have isFree := Site.isTaken_destination filled legal
  rw [Site.isTaken, Bool.or_eq_false_iff] at isFree
  refine ⟨steps, search, fun path others again => search.unique again, few, ends, isFree.1,
    isFree.2, ?_, site.components_candidate_injective legal, ?_⟩
  · intro number earlier
    have taken := before number (Nat.zero_le _) earlier
    rwa [Site.isTaken, Bool.or_eq_true] at taken
  · intro directory paired key entry tracked same
    have owned : site.cache.index.owns entry.path = true :=
      Option.isSome_iff_exists.mpr ⟨key, paired.owner tracked⟩
    rw [Index.owns, same] at owned
    exact Bool.false_ne_true (isFree.1.symm.trans owned)

/-- A site whose cache owns `/c/f-1` and `/c/f-1-1`, while `/c/f` and `/c/f-2` are directories and
`/c/f-3` is an orphan. -/
def Site.crowded : Site where
  cache :=
    ⟨⟨"/c"⟩, 9, false,
      ({} : Index).insert 0 "k" ⟨"/c/f-1"⟩ 1 {} |>.insert 0 "j" ⟨"/c/f-1-1"⟩ 1 {}⟩
  files := (((FileSystem.empty.create ["c"] .directory).create ["f", "c"] .directory).create
    ["f-2", "c"] .directory).create ["f-3", "c"] (.file [1])

theorem destination_search_of_names_like_candidates :
    Site.crowded.cache.directory.text ≠ "" ∧ IsName "f" ∧
      Site.crowded.destination "f" = ⟨"/c/f-3"⟩ ∧
      Site.crowded.destination "f-1" = ⟨"/c/f-1-2"⟩ ∧
      ∃ steps, Site.crowded.Search "f" 0 ⟨"/c/f-3"⟩ steps := by
  have legal : IsName "f" :=
    Path.isName_of_fileName? (by decide : (Path.mk "f").fileName? = some "f")
  have place : Site.crowded.destination "f" = ⟨"/c/f-3"⟩ := by decide +kernel
  have filled : Site.crowded.cache.directory.text ≠ "" := by decide
  obtain ⟨steps, search, -⟩ := destination_search filled legal
  exact ⟨filled, legal, place, by decide +kernel, steps, place ▸ search⟩

end DownloadCache
