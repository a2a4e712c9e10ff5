import DownloadCache.Proofs.Cache.Withdrawal

/-!
# What a sweep does

A sweep keeps the names in the directory of the cache that entries own (`tracks`) and removes the
others, as far as their paths can be handed over (`reaches`) and what is under them is released with
all that lies below it (`frees`).  So it tells the names that were listed apart as they are at the
start (`count`).  What is not under a removed name stays as it is (`Without`), but for what has been
deleted in vain below a name that could not be removed (`torn`).

While names are removed the directory stays in place and its path can be walked along
(`Accessible`), and every name is met with what was under it at the start.  Hence a sweep separates
the tracked names from the others exactly, and another one finds nothing more to remove
(`sweep_separates`).
-/

namespace DownloadCache

set_option autoImplicit false

open FileSystem

namespace FileSystem

variable {files : FileSystem} {home : Location}

/-! ## Listing -/

/-- A slash at the end of a trail spells no component. -/
theorem filterMap_allSteps (trail : Trail) :
    trail.allSteps.filterMap Component.ofStep? = trail.steps.filterMap Component.ofStep? := by
  rw [Trail.allSteps]
  split
  · simp [Component.ofStep?]
  · rfl

/-- By its canonical path a directory is listed if the path can be walked along. -/
theorem WellFormed.list_pathOf_iff (wellFormed : files.WellFormed)
    (directory : files.IsDirectory home) {names : List String} :
    files.list (pathOf home) = .ok names ↔
      (checkPath (pathOf home) = .ok () ∧ ∀ part ∈ home, part.utf8ByteSize ≤ maxNameOctets) ∧
        names = files.names home := by
  have steps := steps_pathOf (wellFormed.isName_of_mem directory.isSome)
  have spelled := filterMap_allSteps (pathOf home).trail
  rw [steps] at spelled
  rw [list, bind_eq_ok_iff]
  constructor
  · rintro ⟨place, resolved, listed⟩
    obtain ⟨isDirectory, listed⟩ := check_bind_eq_ok_iff.mp listed
    obtain ⟨checked, walked⟩ := resolve_eq_ok_iff.mp resolved
    rw [start, if_pos (isAbsolute_pathOf home)] at walked
    obtain ⟨there, rfl, leads⟩ := walk_present_eq_ok_iff.mp walked
    have isDirectory := checkDirectory_present_eq_ok_iff.mp isDirectory
    obtain ⟨rfl, short⟩ := (wellFormed.leads_names_iff directory).mp
      (leads.congr_idle isDirectory spelled.symm)
    cases listed
    exact ⟨⟨checked, short⟩, rfl⟩
  · rintro ⟨⟨checked, short⟩, rfl⟩
    have leads : Leads files maxLinks [] (pathOf home).trail.allSteps home :=
      ((wellFormed.leads_names_iff directory).mpr ⟨rfl, short⟩).congr_idle directory spelled
    refine ⟨.present home, resolve_eq_ok_iff.mpr ⟨checked, ?_⟩, ?_⟩
    · rw [start, if_pos (isAbsolute_pathOf home)]
      exact walk_present_eq_ok_iff.mpr ⟨home, rfl, leads⟩
    · exact check_bind_eq_ok_iff.mpr ⟨checkDirectory_present_eq_ok_iff.mpr directory, rfl⟩

end FileSystem

/-! ## What a sweep tells apart -/

namespace Cache

/-- Whether an entry owns a name in the directory of a cache. -/
def tracks (cache : Cache) (name : String) : Bool :=
  cache.index.entries.any fun pair => pair.2.path == cache.directory.child name

/-- Whether the path of a name in the directory of a cache can be handed over. -/
def reaches (cache : Cache) (name : String) : Bool :=
  (checkPath (cache.directory.child name)).isOk && decide (name.utf8ByteSize ≤ maxNameOctets)

end Cache

namespace Site

/-- Whether what is under a name in the directory of a cache can be removed. -/
def frees (site : Site) (name : String) : Bool :=
  site.cache.reaches name && site.files.releases (name :: site.cache.directory.location)

/-- Whether a sweep removes a name. -/
def removes (site : Site) (name : String) : Bool :=
  !site.cache.tracks name && site.frees name

/-- Whether a sweep fails to remove a name. -/
def fails (site : Site) (name : String) : Bool :=
  !site.cache.tracks name && !site.frees name

/-- What a sweep deletes below a name that it fails to remove. -/
def torn (site : Site) (name : String) : List Location :=
  if site.fails name && site.cache.reaches name then
    site.files.deletions (name :: site.cache.directory.location)
  else []

/-- The counts of a sweep with one name more. -/
def count (site : Site) (counts : SweepCounts) (name : String) : SweepCounts :=
  if site.cache.tracks name then { counts with retained := counts.retained + 1 }
  else if site.frees name then { counts with removed := counts.removed + 1 }
  else { counts with failed := counts.failed + 1 }

/-- The counts tell how many names are of each kind. -/
theorem foldl_count (site : Site) (names : List String) (counts : SweepCounts) :
    names.foldl site.count counts =
      ⟨counts.removed + names.countP site.removes,
        counts.retained + names.countP site.cache.tracks,
        counts.failed + names.countP site.fails⟩ := by
  induction names generalizing counts with
  | nil => rfl
  | cons name rest ih =>
      rw [List.foldl_cons, ih]
      cases tracked : site.cache.tracks name <;> cases freed : site.frees name <;>
        (simp [count, removes, fails, tracked, freed]; omega)

/-- What a sweep does not remove it keeps or fails to remove. -/
theorem not_removes (site : Site) (name : String) :
    (!site.removes name) = (site.cache.tracks name || site.fails name) := by
  rw [removes, fails]
  cases site.cache.tracks name <;> cases site.frees name <;> rfl

/-- Of the names that are left none is to be removed, and all others are there. -/
theorem foldl_count_filter (site : Site) (names : List String) :
    (names.filter (!site.removes ·)).foldl site.count {} =
      ⟨0, names.countP site.cache.tracks, names.countP site.fails⟩ := by
  have none : (names.filter (!site.removes ·)).countP site.removes = 0 := by
    simp [List.countP_eq_zero]
  have tracked : (names.filter (!site.removes ·)).countP site.cache.tracks =
      names.countP site.cache.tracks := by
    rw [List.countP_filter]
    exact List.countP_congr fun name _ => by simp +contextual [removes]
  have spared : (names.filter (!site.removes ·)).countP site.fails =
      names.countP site.fails := by
    rw [List.countP_filter]
    exact List.countP_congr fun name _ => by simp +contextual [removes, fails]
  rw [foldl_count, none, tracked, spared]
  simp

/-- Every name is of one kind. -/
theorem countP_kinds (site : Site) (names : List String) :
    names.countP site.removes + names.countP site.cache.tracks + names.countP site.fails =
      names.length := by
  induction names with
  | nil => rfl
  | cons name rest ih =>
      cases tracked : site.cache.tracks name <;> cases freed : site.frees name <;>
        (simp [removes, fails, tracked, freed] at ih ⊢; omega)

/-! ## One name of a sweep -/

variable {site : Site} {home : Location} {name : String}

/-- An entry owns a name if its path is that of the name in the directory. -/
theorem Rooted.tracks_iff (rooted : Rooted home site) :
    site.cache.tracks name = true ↔
      ∃ key entry, site.cache.index.entry? key = some entry ∧
        entry.path = (pathOf home).child name := by
  rw [Cache.tracks, List.any_eq_true, rooted.directory]
  constructor
  · rintro ⟨⟨key, entry⟩, member, same⟩
    have tracked := (lookup_eq_some_iff_mem rooted.paired.distinct).mpr member
    exact ⟨key, entry, tracked, by simpa using same⟩
  · rintro ⟨key, entry, tracked, same⟩
    exact ⟨(key, entry), mem_of_lookup_eq_some tracked, by simpa using same⟩

/-- **A name in the directory is recognised if and only if an entry owns it.** -/
theorem Rooted.ownsNamed_child (rooted : Rooted home site) (legal : IsName name) :
    site.ownsNamed (site.cache.directory.child name) = site.cache.tracks name := by
  -- Whatever the parent of the path is replaced by, the last component stays.
  have named : (site.cache.directory.child name).fileName? = some name := by
    rw [Path.fileName?, Path.components_child _ legal, List.getLast?_concat]
  have owned : ∀ directory : Path, site.cache.index.owns (directory.child name) = true →
      site.cache.tracks name = true := by
    intro directory owns
    obtain ⟨key, owner⟩ := Option.isSome_iff_exists.mp owns
    obtain ⟨entry, tracked, same⟩ := rooted.paired.entry owner
    obtain ⟨name', legal', path⟩ := rooted.paired.place tracked
    rw [path, Path.components_child _ legal', Path.components_child _ legal] at same
    obtain ⟨-, last⟩ := List.append_inj' same rfl
    cases last
    exact rooted.tracks_iff.mpr ⟨key, entry, tracked, path⟩
  rw [Bool.eq_iff_iff, ownsNamed, Bool.or_eq_true]
  constructor
  · rintro (owns | owns)
    · exact owned _ owns
    · rw [withCanonicalParent_eq, named] at owns
      dsimp only at owns
      split at owns
      · exact owned _ owns
      · exact owned _ owns
  · intro tracked
    obtain ⟨key, entry, found, same⟩ := rooted.tracks_iff.mp tracked
    rw [← rooted.directory] at same
    exact .inl (same ▸ owns_path rooted.paired found)

/-- The directory of a cache is in place, and its path can be walked along. -/
structure Accessible (home : Location) (site : Site) : Prop where
  rooted : Rooted home site
  wellFormed : site.files.WellFormed
  isDirectory : site.files.IsDirectory home
  checked : checkPath (pathOf home) = .ok ()
  short : ∀ part ∈ home, part.utf8ByteSize ≤ maxNameOctets

theorem Accessible.withFiles (accessible : Accessible home site) {gone : List String}
    {lost : List Location} {files : FileSystem} (without : Without home gone lost site.files files) :
    Accessible home { site with files } where
  rooted := ⟨accessible.rooted.directory, accessible.rooted.legal, accessible.rooted.short,
    accessible.rooted.paired⟩
  wellFormed := without.wellFormed
  isDirectory := without.isDirectory
  checked := accessible.checked
  short := accessible.short

/-- What is under a name that no change has reached is freed if it was, and the same is deleted
there. -/
theorem Accessible.frees_of_untouched (accessible : Accessible home site) {gone : List String}
    {lost : List Location} {files : FileSystem} (without : Without home gone lost site.files files)
    (kept : name ∉ gone) (spared : ∀ location ∈ lost, ¬name :: home <:+ location) :
    Site.frees { site with files } name = site.frees name ∧
      files.deletions (name :: home) = site.files.deletions (name :: home) := by
  have found := without.found kept spared
  refine ⟨?_, deletions_congr without.locked found⟩
  have above : files.object? home = site.files.object? home :=
    without.object_of_isBelow (isBelow_self home)
  rw [frees, frees, accessible.rooted.location_eq,
    releases_congr without.locked found (by exact above)]

/-- What is under a name that was not removed, but for what has been deleted in vain, is not freed
afterwards. -/
theorem Accessible.frees_of_torn (accessible : Accessible home site) {gone : List String}
    {lost : List Location} {files : FileSystem} (without : Without home gone lost site.files files)
    (kept : name ∉ gone)
    (torn : ∀ location, name :: home <:+ location → (location ∈ lost ↔ location ∈ site.torn name))
    (failed : site.fails name = true) : Site.frees { site with files } name = false := by
  have blocked : site.frees name = false := by
    simpa using ((Bool.and_eq_true _ _).mp failed).2
  rw [frees, accessible.rooted.location_eq] at blocked ⊢
  cases reached : site.cache.reaches name with
  | false => rfl
  | true =>
      rw [reached, Bool.true_and] at blocked
      rw [Bool.true_and]
      refine releases_of_deletions without.locked
        (without.object_of_isBelow (isBelow_self home)) (fun other within => ?_) blocked
      have lost : other ∈ lost ↔ other ∈ site.files.deletions (name :: home) := by
        rw [torn other within, Site.torn, failed, reached, accessible.rooted.location_eq]
        rfl
      rw [without.object_of_notMem kept within]
      simp only [lost]

/-- The path of a name in the directory is walkable if it can be handed over. -/
theorem Accessible.walkable_iff (accessible : Accessible home site) (legal : IsName name) :
    Walkable home name ↔ site.cache.reaches name = true := by
  rw [Cache.reaches, accessible.rooted.directory, Bool.and_eq_true, decide_eq_true_iff]
  constructor
  · intro walkable
    exact ⟨by rw [walkable.checked]; rfl, walkable.short name List.mem_cons_self⟩
  · rintro ⟨checked, fits⟩
    refine ⟨legal, ?_, List.forall_mem_cons.mpr ⟨fits, accessible.short⟩⟩
    cases result : checkPath ((pathOf home).child name) with
    | ok _ => rfl
    | error cause =>
        rw [result] at checked
        cases checked

/-- **A sweep takes a name for what it is,** and removes it with all that lies below it or fails to
do so. -/
theorem Accessible.sweepName (accessible : Accessible home site)
    (there : (site.files.object? (name :: home)).isSome) (counts : SweepCounts) :
    ∃ files, Site.sweepName (counts, site) name = (site.count counts name, { site with files }) ∧
      Without home (if site.removes name then [name] else []) (site.torn name) site.files
        files := by
  have legal := (accessible.wellFormed.held there).2
  have recognised := accessible.rooted.ownsNamed_child legal
  have kept := Without.refl accessible.wellFormed accessible.isDirectory
  rw [Site.sweepName, removeUntracked, recognised, count, removes, torn, fails, frees,
    accessible.rooted.location_eq]
  cases site.cache.tracks name with
  | true => exact ⟨site.files, rfl, kept⟩
  | false =>
      cases reached : site.cache.reaches name with
      | true =>
          have walkable := (accessible.walkable_iff legal).mpr reached
          cases released : site.files.releases (name :: home) with
          | true =>
              obtain ⟨files, removed, without⟩ := walkable.remove_of_releases
                accessible.wellFormed accessible.isDirectory there released
              rw [accessible.rooted.directory, removed]
              exact ⟨files, rfl, without⟩
          | false =>
              obtain ⟨files, failed, without⟩ := walkable.remove_of_kept
                accessible.wellFormed accessible.isDirectory there released
              rw [accessible.rooted.directory, failed]
              exact ⟨files, rfl, without⟩
      | false =>
          obtain ⟨cause, failed⟩ := remove_child_of_not_walkable accessible.wellFormed
            accessible.isDirectory legal accessible.short
            (mt (accessible.walkable_iff legal).mp (by simp [reached]))
          rw [accessible.rooted.directory, failed]
          exact ⟨site.files, rfl, kept⟩

/-- What a sweep deletes in vain is below the name that it fails to remove. -/
theorem Accessible.suffix_of_mem_torn (accessible : Accessible home site) {location : Location}
    (torn : location ∈ site.torn name) : name :: home <:+ location := by
  rw [Site.torn, accessible.rooted.location_eq] at torn
  split at torn
  · exact (suffix_of_isBelow (isBelow_of_mem_deletions torn)).1
  · cases torn

/-- **Sweeping names one after the other** tells them apart as they are at the start. -/
theorem Accessible.foldl_sweepName (accessible : Accessible home site) {names : List String}
    (distinct : names.Nodup) (there : ∀ name ∈ names, (site.files.object? (name :: home)).isSome)
    (counts : SweepCounts) :
    ∃ files, names.foldl Site.sweepName (counts, site) =
        (names.foldl site.count counts, { site with files }) ∧
      Without home (names.filter site.removes) (names.flatMap site.torn) site.files files := by
  induction names generalizing counts site with
  | nil => exact ⟨site.files, rfl, .refl accessible.wellFormed accessible.isDirectory⟩
  | cons name rest ih =>
      obtain ⟨fresh, distinct⟩ := List.nodup_cons.mp distinct
      rw [List.forall_mem_cons] at there
      obtain ⟨files, swept, first⟩ := accessible.sweepName there.1 counts
      -- The names to come are others, so they are met with what was under them at the start.
      have untouched : ∀ other ∈ rest, other ∉ (if site.removes name then [name] else []) ∧
          ∀ location ∈ site.torn name, ¬other :: home <:+ location := by
        intro other member
        have differs : other ≠ name := fun same => fresh (same ▸ member)
        refine ⟨by split <;> simp [differs], fun location torn within => differs ?_⟩
        exact eq_of_both_suffix within (accessible.suffix_of_mem_torn torn)
      have onward : ∀ other ∈ rest, (files.object? (other :: home)).isSome := by
        intro other member
        obtain ⟨kept, spared⟩ := untouched other member
        rw [first.object_of_notMem kept (List.suffix_refl _), if_neg]
        · exact there.2 other member
        · exact fun torn => spared _ torn (List.suffix_refl _)
      have frees : ∀ other ∈ rest, Site.frees { site with files } other = site.frees other :=
        fun other member => (accessible.frees_of_untouched first (untouched other member).1
          (untouched other member).2).1
      obtain ⟨files', swept', second⟩ := ih (accessible.withFiles first) distinct onward
        (site.count counts name)
      have counted : rest.foldl (Site.count { site with files }) (site.count counts name) =
          rest.foldl site.count (site.count counts name) :=
        List.foldl_ext _ _ _ fun counts other member => by
          rw [Site.count, Site.count, frees other member]
      have gone : (if site.removes name then [name] else []) ++
          rest.filter (Site.removes { site with files }) = (name :: rest).filter site.removes := by
        rw [List.filter_cons, List.filter_congr fun other member => show
          Site.removes { site with files } other = site.removes other by
            rw [Site.removes, Site.removes, frees other member]]
        split <;> rfl
      have torn : rest.flatMap (Site.torn { site with files }) = rest.flatMap site.torn :=
        List.flatMap_congr fun other member => by
          obtain ⟨kept, spared⟩ := untouched other member
          have deletions := (accessible.frees_of_untouched first kept spared).2
          rw [← accessible.rooted.location_eq] at deletions
          rw [Site.torn, Site.torn, Site.fails, Site.fails, frees other member, deletions]
      refine ⟨files', by rw [List.foldl_cons, swept, swept', counted]; rfl, ?_⟩
      have both := first.trans second
      rwa [gone, torn, ← List.flatMap_cons] at both

/-! ## Sweeps -/

/-- A directory that is in place can be listed if and only if its path can be walked along. -/
theorem Rooted.list_iff (rooted : Rooted home site) (wellFormed : site.files.WellFormed)
    (directory : site.files.IsDirectory home) {names : List String} :
    site.files.list site.cache.directory = .ok names ↔
      Accessible home site ∧ names = site.files.names home := by
  rw [rooted.directory, wellFormed.list_pathOf_iff directory]
  refine and_congr_left' ⟨fun walked => ?_, fun accessible => ?_⟩
  · exact ⟨rooted, wellFormed, directory, walked.1, walked.2⟩
  · exact ⟨accessible.checked, accessible.short⟩

/-- **A sweep tells the names in the directory apart,** and takes away those that it removes. -/
theorem Accessible.sweep (accessible : Accessible home site)
    (distinct : (site.files.names home).Nodup) :
    ∃ files, site.sweep =
        (.ok ((site.files.names home).foldl site.count {}), { site with files }) ∧
      Without home ((site.files.names home).filter site.removes)
        ((site.files.names home).flatMap site.torn) site.files files := by
  have listed := (accessible.rooted.list_iff accessible.wellFormed accessible.isDirectory).mpr
    ⟨accessible, rfl⟩
  obtain ⟨files, swept, without⟩ := accessible.foldl_sweepName distinct
    (fun name member => mem_names_iff.mp member) {}
  exact ⟨files, by rw [Site.sweep, listed]; dsimp only; rw [swept], without⟩

/-- What is lost below a name of the directory is what has been deleted there in vain. -/
theorem Accessible.mem_flatMap_torn (accessible : Accessible home site) {names : List String}
    (member : name ∈ names) {location : Location} (within : name :: home <:+ location) :
    location ∈ names.flatMap site.torn ↔ location ∈ site.torn name := by
  rw [List.mem_flatMap]
  constructor
  · rintro ⟨other, -, torn⟩
    rwa [eq_of_both_suffix within (accessible.suffix_of_mem_torn torn)]
  · exact fun torn => ⟨name, member, torn⟩

end Site

/-- **A sweep separates the names that entries own from the others.**  It tells how many there are
of each kind.  Of the names that no entry owns it removes those whose paths can be handed over and
which are released with all that lies below them; the owned ones are left as they are, with all that
lies below them, and so is all that is outside of the directory.  Below a name that could not be
removed that is lost which was deleted before something was held.  Another sweep finds nothing more
to remove. -/
theorem sweep_separates {site : Site} (reachable : site.Reachable)
    (wellFormed : site.files.WellFormed) (inPlace : site.InPlace) {counts : SweepCounts}
    (swept : site.sweep.1 = .ok counts)
    (distinct : (site.files.names site.cache.directory.location).Nodup) :
    let home := site.cache.directory.location
    let names := site.files.names home
    let later := site.sweep.2
    counts.removed + counts.retained + counts.failed = names.length ∧
      counts.retained = names.countP site.cache.tracks ∧
      counts.failed = names.countP site.fails ∧
      later.files.names home =
        names.filter (fun name => site.cache.tracks name || site.fails name) ∧
      (∀ location, location.isBelow home = false →
        later.files.object? location = site.files.object? location) ∧
      (∀ name ∈ later.files.names home, ∀ below,
        later.files.object? (below ++ name :: home) =
          if below ++ name :: home ∈ site.torn name then none
          else site.files.object? (below ++ name :: home)) ∧
      (∀ name, site.cache.tracks name = true → site.torn name = []) ∧
      later.cache = site.cache ∧
      later.sweep.1 = .ok ⟨0, counts.retained, counts.failed⟩ := by
  intro home names later
  have rooted : Site.Rooted home site := reachable.rooted
  obtain ⟨listed, found⟩ : ∃ listed, site.files.list site.cache.directory = .ok listed := by
    rw [Site.sweep] at swept
    split at swept
    · cases swept
    · exact ⟨_, ‹_›⟩
  obtain ⟨accessible, -⟩ := (rooted.list_iff wellFormed inPlace).mp found
  obtain ⟨files, same, without⟩ := accessible.sweep distinct
  have result : later = { site with files } := congrArg Prod.snd same
  rw [same] at swept
  obtain rfl := Except.ok.inj swept
  have left : files.names home = names.filter (!site.removes ·) := by
    rw [without.names]
    refine List.filter_congr fun name member => ?_
    simp [List.contains_eq_mem, List.mem_filter, show name ∈ site.files.names home from member]
  have stays : ∀ {name}, name ∈ files.names home →
      name ∈ names ∧ name ∉ names.filter site.removes := by
    intro name member
    obtain ⟨listed, kept⟩ := List.mem_filter.mp (left ▸ member)
    exact ⟨listed, fun gone => by simp [(List.mem_filter.mp gone).2] at kept⟩
  have again : ({ site with files } : Site).sweep.1 =
      .ok ((files.names home).foldl (Site.count { site with files }) {}) := by
    have fewer : (files.names home).Nodup := left ▸ distinct.filter _
    obtain ⟨files', same', -⟩ := (accessible.withFiles without).sweep fewer
    rw [same']
  -- What has not been removed once is not removed the next time.
  have counted : (files.names home).foldl (Site.count { site with files }) {} =
      (files.names home).foldl site.count {} := by
    refine List.foldl_ext _ _ _ fun counts name member => ?_
    obtain ⟨listed, kept⟩ := stays member
    cases tracked : site.cache.tracks name with
    | true => simp [Site.count, tracked]
    | false =>
        have failed : site.fails name = true := by
          have spared := (List.mem_filter.mp (left ▸ member)).2
          simpa [site.not_removes, tracked] using spared
        have blocked : site.frees name = false := by simpa [Site.fails, tracked] using failed
        have torn := fun location (within : name :: home <:+ location) =>
          accessible.mem_flatMap_torn listed within
        rw [Site.count, Site.count, blocked, accessible.frees_of_torn without kept torn failed]
  rw [counted, left, Site.foldl_count_filter] at again
  rw [result, Site.foldl_count]
  refine ⟨?_, ?_, ?_, ?_, fun location => without.object_of_isBelow, ?_, ?_, rfl, ?_⟩
  · simpa using site.countP_kinds names
  · simp [names, home]
  · simp [names, home]
  · exact left.trans (List.filter_congr fun name _ => site.not_removes name)
  · intro name member below
    obtain ⟨listed, kept⟩ := stays member
    have within := List.suffix_append below (name :: home)
    have torn : below ++ name :: home ∈ (site.files.names home).flatMap site.torn ↔ _ :=
      accessible.mem_flatMap_torn listed within
    rw [without.object_of_notMem kept within]
    simp only [torn]
  · intro name tracked
    simp [Site.torn, Site.fails, tracked]
  · simpa using again

/-- A stocked cache with an orphan, a directory that holds something. -/
def FileSystem.littered : FileSystem :=
  (untouched.create ["d", "c"] .directory).create ["x", "d", "c"] (.file [2])

/-- The same with a link in the cache to a file outside. -/
def FileSystem.linked : FileSystem :=
  (littered.create ["l", "c"] (.link ⟨"/o"⟩)).create ["o"] (.file [3])

/-- The same with a locked directory that holds something. -/
def FileSystem.crowded : FileSystem :=
  { (linked.create ["p", "c"] .directory).create ["q", "p", "c"] (.file [4]) with locked := [7] }

theorem FileSystem.wellFormed_crowded : crowded.WellFormed := by
  have named : ∀ name, (Path.mk name).fileName? = some name → IsName name := fun _ =>
    Path.isName_of_fileName?
  have directory : (untouched.create ["d", "c"] .directory).WellFormed :=
    wellFormed_untouched.create ⟨1, rfl⟩ (named "d" (by decide)) rfl .directory
  have file : littered.WellFormed :=
    directory.create ⟨3, rfl⟩ (named "x" (by decide)) rfl (.file [2])
  have link : (littered.create ["l", "c"] (.link ⟨"/o"⟩)).WellFormed :=
    file.create ⟨1, rfl⟩ (named "l" (by decide)) rfl (.link ⟨"/o"⟩)
  have target : linked.WellFormed :=
    link.create link.root (named "o" (by decide)) rfl (.file [3])
  have locked : (linked.create ["p", "c"] .directory).WellFormed :=
    target.create ⟨1, rfl⟩ (named "p" (by decide)) rfl .directory
  have held : ((linked.create ["p", "c"] .directory).create ["q", "p", "c"] (.file [4])).WellFormed :=
    locked.create ⟨7, rfl⟩ (named "q" (by decide)) rfl (.file [4])
  exact held.withLocked [7]

/-- Of a link, two directories and an owned file the file is kept, and so is the directory that
holds something and is locked; what the link leads to is left alone. -/
theorem sweep_separates_of_crowded_directory :
    let site := Site.stocked .crowded
    site.Reachable ∧ site.files.WellFormed ∧ site.InPlace ∧ site.sweep.1 = .ok ⟨2, 1, 1⟩ ∧
      (site.files.names site.cache.directory.location).Nodup ∧
      site.sweep.2.files.names site.cache.directory.location = ["p", "f"] ∧
      site.sweep.2.files.object? ["o"] = some ⟨6, .file [3]⟩ ∧
      site.sweep.2.sweep.1 = .ok ⟨0, 1, 1⟩ := by
  intro site
  have reachable : site.Reachable := Site.reachable_stocked .crowded
  have inPlace : site.InPlace := ⟨1, by decide +kernel⟩
  have swept : site.sweep.1 = .ok ⟨2, 1, 1⟩ := by decide +kernel
  have distinct : (site.files.names site.cache.directory.location).Nodup := by decide +kernel
  have kept : (site.files.names site.cache.directory.location).filter
      (fun name => site.cache.tracks name || site.fails name) = ["p", "f"] := by decide +kernel
  have outside : Location.isBelow ["o"] site.cache.directory.location = false := by decide +kernel
  have found : site.files.object? ["o"] = some ⟨6, .file [3]⟩ := by decide +kernel
  obtain ⟨-, -, -, left, frame, -, -, -, again⟩ :=
    sweep_separates reachable wellFormed_crowded inPlace swept distinct
  exact ⟨reachable, wellFormed_crowded, inPlace, swept, distinct, left.trans kept,
    (frame _ outside).trans found, again⟩

end DownloadCache
