import DownloadCache.Proofs.Cache.Destination
import DownloadCache.Proofs.Cache.Run
import DownloadCache.Proofs.Index.Change

/-!
# How a cache evolves

Whatever happens to a site, its cache keeps its directory, its budget and its setting for checks,
and its index goes through changes that are listed in `Index.Change` (`evolves_after`).  The same
is true of the stages that an adoption goes through: dropping the key (`evolves_drop`), making
room (`evolves_makeRoomWithin`) and settling (`evolves_settle`).

Room is made until the file fits or no entry is left (`entries_eq_nil_or_room`), and a key whose
entry has been dropped stays without one until the file is entered (`entry_makeRoomWithin`).
-/

namespace DownloadCache.Site

set_option autoImplicit false

/-! ## Evolution -/

/-- The cache of a site has only gone through changes of its index. -/
structure Evolves (site later : Site) : Prop where
  directory : later.cache.directory = site.cache.directory
  maxSize : later.cache.maxSize = site.cache.maxSize
  verifySize : later.cache.verifySize = site.cache.verifySize
  index : Index.Evolves site.cache.directory site.cache.maxSize site.cache.index later.cache.index

/-- A cache that stays the same has gone through no change. -/
theorem Evolves.of_cache_eq {site later : Site} (same : later.cache = site.cache) :
    Evolves site later :=
  ⟨by rw [same], by rw [same], by rw [same], by rw [same]⟩

theorem Evolves.refl (site : Site) : Evolves site site :=
  .of_cache_eq rfl

theorem Evolves.trans {first second third : Site} (before : Evolves first second)
    (after : Evolves second third) : Evolves first third where
  directory := after.directory.trans before.directory
  maxSize := after.maxSize.trans before.maxSize
  verifySize := after.verifySize.trans before.verifySize
  index := before.index.trans (by rw [← before.directory, ← before.maxSize]; exact after.index)

/-- One change of the index. -/
theorem Evolves.single {site later : Site}
    (change : Index.Change site.cache.directory site.cache.maxSize site.cache.index
      later.cache.index)
    (directory : later.cache.directory = site.cache.directory)
    (maxSize : later.cache.maxSize = site.cache.maxSize)
    (verifySize : later.cache.verifySize = site.cache.verifySize) : Evolves site later :=
  ⟨directory, maxSize, verifySize, .single change⟩

/-! ## Dropping -/

/-- Dropping an entry takes it out of the index, counts a failed removal and removes the file. -/
theorem dropEntry_eq (site : Site) (key : String) (entry : Entry) :
    ∃ failedRemovals, site.dropEntry key entry =
      { site.withIndex { site.cache.index.drop key entry with failedRemovals }
        with files := (site.files.remove entry.path).2 } := by
  rw [dropEntry]
  split <;> rename_i removed <;> rw [removed] <;> exact ⟨_, rfl⟩

theorem cache_dropEntry (site : Site) (key : String) (entry : Entry) :
    ∃ failedRemovals, (site.dropEntry key entry).cache =
      { site.cache with index := { site.cache.index.drop key entry with failedRemovals } } := by
  obtain ⟨failedRemovals, same⟩ := site.dropEntry_eq key entry
  exact ⟨failedRemovals, by rw [same]; rfl⟩

theorem evolves_dropEntry {site : Site} {key : String} {entry : Entry}
    (tracked : site.cache.index.entry? key = some entry) :
    Evolves site (site.dropEntry key entry) := by
  obtain ⟨failedRemovals, same⟩ := site.cache_dropEntry key entry
  refine ⟨by rw [same], by rw [same], by rw [same], ?_⟩
  rw [same]
  exact .tail (.single (.drop tracked)) (.count _ _ failedRemovals)

theorem evolves_drop (site : Site) (key : String) : Evolves site (site.drop key) := by
  rw [drop]
  split
  · exact .refl site
  · rename_i entry tracked
    exact evolves_dropEntry tracked

/-- What is found under a key when the entry of another one has been dropped. -/
theorem entry_drop (site : Site) (removed key : String) :
    (site.drop removed).cache.index.entry? key =
      if key = removed then none else site.cache.index.entry? key := by
  rw [drop]
  split
  · rename_i untracked
    split
    · rename_i same
      rw [same, untracked]
    · rfl
  · rename_i entry tracked
    obtain ⟨failedRemovals, same⟩ := site.cache_dropEntry removed entry
    rw [same]
    exact Index.entry_drop site.cache.index removed entry key

/-! ## Making room -/

theorem evolves_evictOldest (site : Site) : Evolves site site.evictOldest := by
  rw [evictOldest]
  split
  · exact .refl site
  · rename_i key _
    exact (evolves_drop site key).trans (.single (.count _ _ _) rfl rfl rfl)

theorem evolves_makeRoomWithin (site : Site) (size : UInt64) (entries : Nat) :
    Evolves site (site.makeRoomWithin size entries) := by
  induction entries generalizing site with
  | zero => exact .refl site
  | succ entries ih =>
      rw [makeRoomWithin]
      split
      · exact (evolves_evictOldest site).trans (ih site.evictOldest)
      · exact .refl site

theorem evolves_makeRoom (site : Site) (size : UInt64) : Evolves site (site.makeRoom size) :=
  evolves_makeRoomWithin site size _

/-- An eviction enters nothing. -/
theorem entry_evictOldest {site : Site} {key : String}
    (untracked : site.cache.index.entry? key = none) :
    site.evictOldest.cache.index.entry? key = none := by
  rw [evictOldest]
  split
  · exact untracked
  · rename_i oldest _
    have without := site.entry_drop oldest key
    rw [untracked, ite_self] at without
    exact without

/-- Making room enters nothing. -/
theorem entry_makeRoomWithin {site : Site} {key : String}
    (untracked : site.cache.index.entry? key = none) (size : UInt64) (entries : Nat) :
    (site.makeRoomWithin size entries).cache.index.entry? key = none := by
  induction entries generalizing site with
  | zero => exact untracked
  | succ entries ih =>
      rw [makeRoomWithin]
      split
      · exact ih (entry_evictOldest untracked)
      · exact untracked

/-- An eviction leaves fewer entries if there are any. -/
theorem length_entries_evictOldest_lt {site : Site} (some : site.cache.index.entries ≠ []) :
    site.evictOldest.cache.index.entries.length < site.cache.index.entries.length := by
  rw [evictOldest]
  split
  · rename_i none
    exact absurd (Index.oldest?_eq_none_iff.mp none) some
  · rename_i key oldest
    obtain ⟨entry, tracked⟩ := Index.exists_entry_of_oldest? oldest
    obtain ⟨failedRemovals, same⟩ := site.cache_dropEntry key entry
    simp only [drop, tracked, withIndex, same]
    exact Index.length_entries_drop_lt tracked

/-- Enough evictions make room or leave no entry. -/
theorem entries_eq_nil_or_room_within {site : Site} (size : UInt64) {entries : Nat}
    (enough : site.cache.index.entries.length ≤ entries) :
    (site.makeRoomWithin size entries).cache.index.entries = [] ∨
      (site.makeRoomWithin size entries).lacksRoom size = false := by
  induction entries generalizing site with
  | zero => exact .inl (List.length_eq_zero_iff.mp (Nat.le_zero.mp enough))
  | succ entries ih =>
      rw [makeRoomWithin]
      split
      · by_cases none : site.cache.index.entries = []
        · have same : site.evictOldest = site := by
            rw [evictOldest, Index.oldest?_eq_none_iff.mpr none]
          exact ih (by simp [same, none])
        · have fewer := length_entries_evictOldest_lt none
          exact ih (by omega)
      · rename_i fits
        exact .inr (by simpa using fits)

/-- Room is made until there is enough or no entry is left. -/
theorem entries_eq_nil_or_room (site : Site) (size : UInt64) :
    (site.makeRoom size).cache.index.entries = [] ∨
      (site.makeRoom size).lacksRoom size = false :=
  entries_eq_nil_or_room_within size (Nat.le_refl _)

/-! ## Adopting -/

/-- A settled file is entered if there is room for it. -/
theorem evolves_settle {site : Site} {key fileName : String} {size : UInt64}
    (filled : site.cache.directory.text ≠ "") (legal : IsName fileName)
    (untracked : site.cache.index.entry? key = none) (fits : size ≤ site.cache.maxSize)
    (room : site.cache.index.entries = [] ∨ site.lacksRoom size = false)
    (now : Instant) (staging : Path) (validators : Validators) :
    Evolves site (site.settle now key staging fileName size validators).2 := by
  rw [settle]
  dsimp only
  split
  · exact .refl site
  · obtain ⟨name, named, destination⟩ := site.exists_destination_eq_child legal
    have free := isTaken_destination filled legal
    rw [isTaken, Bool.or_eq_false_iff, destination] at free
    rw [destination]
    refine .single (.insert now validators untracked named free.1 fits ?_) rfl rfl rfl
    exact room.imp_right fun enough => UInt64.not_lt.mp (by simpa [lacksRoom] using enough)

theorem evolves_add {site : Site} (filled : site.cache.directory.text ≠ "") (now : Instant)
    (key : String) (staging : Path) (size : UInt64) (validators : Validators) :
    Evolves site (site.add now key staging size validators).2 := by
  have dropped := site.evolves_drop key
  have untracked : (site.drop key).cache.index.entry? key = none := by simp [entry_drop]
  rw [add]
  split
  · exact dropped
  rename_i fits
  split
  · exact dropped
  rename_i fileName named
  split
  · exact dropped
  have made := evolves_makeRoom (site.drop key) size
  have ready := dropped.trans made
  refine ready.trans (evolves_settle ?_ (Path.isName_of_fileName? named) ?_ ?_ ?_ _ _ _)
  · rwa [ready.directory]
  · exact entry_makeRoomWithin untracked size _
  · rw [made.maxSize]
    exact UInt64.not_lt.mp fits
  · exact entries_eq_nil_or_room _ size

/-! ## All events -/

/-- Removing an orphan leaves the cache alone. -/
theorem cache_removeUntracked (site : Site) (path : Path) :
    (site.removeUntracked path).2.cache = site.cache := by
  rw [removeUntracked]
  split
  · rfl
  · split <;> rfl

/-- Taking a name into a sweep removes its path, unless that is recognised. -/
theorem sweepName_eq (counts : SweepCounts) (site : Site) (name : String) :
    (sweepName (counts, site) name).2 =
      (site.removeUntracked (site.cache.directory.child name)).2 := by
  rw [sweepName]
  split <;> rename_i removed <;> rw [removed]

/-- What holds of a site and is kept when the paths of listed names are removed holds after a
sweep. -/
theorem sweep_induction (holds : Site → Prop) {site : Site} (start : holds site)
    (step : ∀ names, site.files.list site.cache.directory = .ok names → ∀ name ∈ names,
      ∀ later : Site, holds later →
        holds (later.removeUntracked (later.cache.directory.child name)).2) :
    holds site.sweep.2 := by
  have kept : ∀ (names : List String) (counts : SweepCounts) (later : Site), holds later →
      (∀ name ∈ names, ∀ later : Site, holds later →
        holds (later.removeUntracked (later.cache.directory.child name)).2) →
      holds (names.foldl sweepName (counts, later)).2 := by
    intro names
    induction names with
    | nil =>
        intro counts later held _
        exact held
    | cons name rest ih =>
        intro counts later held step
        rw [List.forall_mem_cons] at step
        have removed := step.1 later held
        rw [← sweepName_eq counts] at removed
        exact ih _ _ removed step.2
  rw [sweep]
  split
  · exact start
  · rename_i names listed
    exact kept names {} site start (step names listed)

/-- A sweep leaves the cache alone. -/
theorem cache_sweep (site : Site) : site.sweep.2.cache = site.cache := by
  apply sweep_induction (fun later => later.cache = site.cache) rfl
  intro names _ name _ later same
  rw [cache_removeUntracked, same]

/-- **Whatever happens, the index goes through listed changes only.** -/
theorem evolves_after {site : Site} (filled : site.cache.directory.text ≠ "") (event : Event) :
    Evolves site (site.after event) := by
  cases event with
  | add now key staging size validators => exact evolves_add filled now key staging size validators
  | touch now key => exact .single (.touch _ now key) rfl rfl rfl
  | removeKey key => exact site.evolves_drop key
  | removeUntracked path => exact .of_cache_eq (site.cache_removeUntracked path)
  | sweep => exact .of_cache_eq site.cache_sweep
  | outside files => exact .of_cache_eq rfl

theorem evolves_run {site : Site} (filled : site.cache.directory.text ≠ "")
    (events : List Event) : Evolves site (site.run events) := by
  refine run_induction (Evolves site) (.refl site) (fun later event evolves => ?_) events
  exact evolves.trans (evolves_after (by rwa [evolves.directory]) event)

end DownloadCache.Site
