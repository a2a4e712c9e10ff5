import Mathlib.Data.Finset.Card
import DownloadCache.Proofs.Cache.OrphanSafety
import DownloadCache.Proofs.Cache.Rejection
import DownloadCache.Proofs.Cache.Sweeping

/-!
# What is left over in the directory of a cache

A name in the directory of a cache that no entry owns is left over (`untracked`).  The operations of
a cache leave no such name behind without saying so: whenever one is added, a failed removal has
been counted (`Accounts`).  A file that is dropped is gone unless its removal failed; a file that is
adopted takes a name that is owned from then on; and removals of orphans and sweeps only take names
away.

This needs little of those who share the file system: they put no new names into the directory and
no link on the way to it (`Undisturbed`).  Then the path of the directory leads nowhere else, even
if the directory or one above it has been removed (`Unlinked`), and the path of every entry can be
walked along (`Tended`).
-/

namespace DownloadCache

set_option autoImplicit false

open FileSystem

/-! ## Ways without links -/

namespace FileSystem

/-- Whether there is no symbolic link at a location or above it. -/
def Unlinked (files : FileSystem) (home : Location) : Prop :=
  ∀ above number target, above <:+ home → files.object? above ≠ some ⟨number, .link target⟩

variable {files later : FileSystem} {home : Location} {name : String}

/-- There is no link on the way to a directory. -/
theorem WellFormed.unlinked (wellFormed : files.WellFormed) (directory : files.IsDirectory home) :
    files.Unlinked home := by
  intro above number target within link
  obtain ⟨other, found⟩ := wellFormed.isDirectory_of_within directory within
  rw [link] at found
  cases found

/-- A file system that shrinks gets no links. -/
theorem Unlinked.shrinks (unlinked : files.Unlinked home) (shrinks : Shrinks files later) :
    later.Unlinked home :=
  fun above number target within link => unlinked above number target within (shrinks.object link)

/-- Where there are no links, the steps into the names of a location lead there only. -/
theorem Unlinked.eq_of_leads (unlinked : files.Unlinked home) {links : Nat} {there : Location}
    (leads : Leads files links [] home.steps there) : there = home := by
  induction home generalizing links there with
  | nil =>
      cases leads
      rfl
  | cons name above ih =>
      rw [Location.steps_cons] at leads
      obtain ⟨between, fewer, -, before, last⟩ := leads.part
      have upper : files.Unlinked above := fun top number target within =>
        unlinked top number target (within.trans (List.suffix_cons name above))
      obtain rfl := ih upper before
      cases last with
      | into _ _ _ _ onward =>
          cases onward
          rfl
      | follow _ _ link _ => exact absurd link (unlinked _ _ _ (List.suffix_refl _))

/-- Where there are no links, the path of a name in a directory is spotted there only, and can be
walked along. -/
theorem Unlinked.spot_child (unlinked : files.Unlinked home) (wellFormed : files.WellFormed)
    (spelled : ∀ part ∈ home, IsName part) (legal : IsName name) {above : Location} {last : Last}
    (spotted : files.spot ((pathOf home).child name) = .ok (.present above, last)) :
    above = home ∧ files.IsDirectory home ∧ last = .name name false ∧
      (name.utf8ByteSize ≤ maxNameOctets → Walkable home name) := by
  have absolute : ((pathOf home).child name).isAbsolute = true := by
    rw [Path.isAbsolute_child _ legal, isAbsolute_pathOf]
  obtain ⟨-, leads, directory, -⟩ := (spot_present_iff absolute).mp spotted
  rw [Path.steps_child _ legal, List.dropLast_concat, steps_pathOf spelled] at leads
  obtain rfl := unlinked.eq_of_leads leads
  obtain ⟨⟨checked, short⟩, -, same⟩ := (wellFormed.spot_child_iff directory legal).mp spotted
  exact ⟨rfl, directory, same, fun fits =>
    ⟨legal, checked, List.forall_mem_cons.mpr ⟨fits, short⟩⟩⟩

end FileSystem

namespace Site

/-! ## Names that nobody owns -/

/-- The names in the directory of a cache that no entry owns. -/
def untracked (site : Site) : Finset String :=
  (site.files.names site.cache.directory.location).toFinset.filter
    fun name => site.cache.tracks name = false

/-- Whether others leave a site undisturbed: they put no new names into the directory of the cache,
and no symbolic link there or above it. -/
def Undisturbed (site : Site) : Event → Prop
  | .outside files =>
      let home := site.cache.directory.location
      files.WellFormed ∧
        (∀ name, (files.object? (name :: home)).isSome →
          (site.files.object? (name :: home)).isSome) ∧
        ∀ above number target, above <:+ home →
          files.object? above = some ⟨number, .link target⟩ →
            site.files.object? above = some ⟨number, .link target⟩
  | _ => True

/-- Others leave a site undisturbed if they change neither the directory of the cache nor anything
within it or above it. -/
theorem undisturbed_of_same {site : Site} {files : FileSystem} (wellFormed : files.WellFormed)
    (same : ∀ location, site.cache.directory.location <:+ location ∨
        location <:+ site.cache.directory.location →
      files.object? location = site.files.object? location) :
    site.Undisturbed (.outside files) := by
  refine ⟨wellFormed, fun name there => ?_, fun above number target within link => ?_⟩
  · rwa [same _ (.inl (List.suffix_cons name _))] at there
  · rwa [same above (.inr within)] at link

/-- A cache whose directory has the path of a location, without links on the way, in a well-formed
file system; the paths of its entries can be walked along. -/
structure Tended (home : Location) (site : Site) : Prop where
  rooted : Rooted home site
  wellFormed : site.files.WellFormed
  unlinked : site.files.Unlinked home
  walkable : ∀ {key : String} {entry : Entry}, site.cache.index.entry? key = some entry →
    ∃ name, Walkable home name ∧ entry.path = (pathOf home).child name

/-- Whether every name that is left over in addition comes with a failed removal. -/
def Accounts (site later : Site) : Prop :=
  later.untracked.card + site.cache.index.failedRemovals ≤
    site.untracked.card + later.cache.index.failedRemovals

variable {home : Location} {site between later : Site} {name key : String}

theorem Accounts.trans (before : site.Accounts between) (after : between.Accounts later) :
    site.Accounts later := by
  unfold Accounts at *
  omega

theorem mem_untracked (rooted : Rooted home site) :
    name ∈ site.untracked ↔
      (site.files.object? (name :: home)).isSome ∧ site.cache.tracks name = false := by
  rw [untracked, rooted.location_eq, Finset.mem_filter, List.mem_toFinset, mem_names_iff]

/-- If nothing is left over in addition, nothing has to be counted. -/
theorem Accounts.of_subset (fewer : later.untracked ⊆ site.untracked)
    (counted : site.cache.index.failedRemovals ≤ later.cache.index.failedRemovals) :
    site.Accounts later :=
  Nat.add_le_add (Finset.card_le_card fewer) counted

/-! ## Names that are taken away -/

/-- No name is left over in addition where none is new and all that are owned stay so. -/
theorem Tended.untracked_subset (tended : Tended home site) (rooted : Rooted home later)
    (names : ∀ name, (later.files.object? (name :: home)).isSome →
      later.cache.tracks name = true ∨ (site.files.object? (name :: home)).isSome)
    (owned : ∀ name, (later.files.object? (name :: home)).isSome →
      site.cache.tracks name = true → later.cache.tracks name = true) :
    later.untracked ⊆ site.untracked := by
  intro name member
  obtain ⟨there, unowned⟩ := (mem_untracked rooted).mp member
  refine (mem_untracked tended.rooted).mpr ⟨?_, Bool.eq_false_iff.mpr fun tracked => ?_⟩
  · exact (names name there).resolve_left (Bool.eq_false_iff.mp unowned)
  · exact Bool.eq_false_iff.mp unowned (owned name there tracked)

/-- Where the cache stays the same and the file system shrinks, nothing is left over in addition. -/
theorem Tended.shrinks (tended : Tended home site) (same : later.cache = site.cache)
    (wellFormed : later.files.WellFormed) (shrinks : Shrinks site.files later.files) :
    Tended home later ∧ site.Accounts later := by
  have rooted : Rooted home later := tended.rooted.evolves (.of_cache_eq same)
  refine ⟨⟨rooted, wellFormed, tended.unlinked.shrinks shrinks, ?_⟩,
    .of_subset (tended.untracked_subset rooted ?_ ?_) ?_⟩
  · rw [same]
    exact tended.walkable
  · exact fun name there => .inr (shrinks.isSome there)
  · exact fun name _ tracked => same ▸ tracked
  · rw [same]

/-- A sweep shrinks a file system. -/
theorem shrinks_sweep (wellFormed : site.files.WellFormed) :
    site.sweep.2.files.WellFormed ∧ Shrinks site.files site.sweep.2.files := by
  apply sweep_induction (fun later => later.files.WellFormed ∧ Shrinks site.files later.files)
    ⟨wellFormed, .refl _⟩
  rintro names - name - later ⟨laterWellFormed, shrinks⟩
  obtain ⟨removed, further⟩ := shrinks_removeUntracked laterWellFormed
    (later.cache.directory.child name)
  exact ⟨removed, shrinks.trans further⟩

/-! ## Dropping -/

/-- The paths of entries that are left when others have been shed can be walked along. -/
theorem Tended.sheds (tended : Tended home site) {dropped : List (String × Entry)}
    (sheds : site.Sheds dropped later) (evolves : Evolves site later) : Tended home later where
  rooted := tended.rooted.evolves evolves
  wellFormed := sheds.wellFormed tended.wellFormed
  unlinked := tended.unlinked.shrinks (sheds.shrinks tended.wellFormed)
  walkable tracked := tended.walkable (sheds.entry_of_some tracked)

theorem Tended.drop (tended : Tended home site) (key : String) : Tended home (site.drop key) :=
  tended.sheds (site.sheds_drop key) (site.evolves_drop key)

/-- A file whose removal does not fail is gone. -/
theorem Tended.fails_or_gone (tended : Tended home site) (walkable : Walkable home name) :
    (site.files.remove ((pathOf home).child name)).1.isOk = false ∨
      (site.files.remove ((pathOf home).child name)).2.object? (name :: home) = none := by
  by_cases there : (site.files.object? (name :: home)).isSome
  · have directory := (tended.wellFormed.held there).1
    cases released : site.files.releases (name :: home) with
    | true =>
        obtain ⟨later, removed, without⟩ :=
          walkable.remove_of_releases tended.wellFormed directory there released
        rw [removed, without.object, if_pos]
        · exact .inr rfl
        · simp [Location.isWithin]
    | false =>
        obtain ⟨later, failed, -⟩ :=
          walkable.remove_of_kept tended.wellFormed directory there released
        rw [failed]
        exact .inl rfl
  · have shrinks :=
      (tended.wellFormed.removal_remove ((pathOf home).child name)).shrinks tended.wellFormed
    rw [Option.not_isSome_iff_eq_none] at there
    exact .inr ((shrinks.eq_none_or_eq _).elim id fun same => same.trans there)

/-- A dropped entry is counted if its removal fails. -/
theorem failedRemovals_drop {entry : Entry} (tracked : site.cache.index.entry? key = some entry) :
    (site.drop key).cache.index.failedRemovals = site.cache.index.failedRemovals +
      if (site.files.remove entry.path).1.isOk then 0 else 1 := by
  rw [Site.drop, tracked]
  dsimp only
  rw [Site.dropEntry]
  split <;> rename_i result <;> rw [result] <;> rfl

/-- What is owned and not dropped is owned after a key has been dropped. -/
theorem Tended.tracks_drop (tended : Tended home site) {entry : Entry}
    (tracked : site.cache.index.entry? key = some entry) (walkable : Walkable home name)
    (path : entry.path = (pathOf home).child name) {other : String} (legal : IsName other)
    (apart : other ≠ name) (owned : site.cache.tracks other = true) :
    (site.drop key).cache.tracks other = true := by
  obtain ⟨holder, entry', tracked', path'⟩ := tended.rooted.tracks_iff.mp owned
  refine (tended.drop key).rooted.tracks_iff.mpr ⟨holder, entry', ?_, path'⟩
  rw [entry_drop, if_neg ?_, tracked']
  rintro rfl
  rw [tracked] at tracked'
  cases tracked'
  have same := congrArg Path.location (path.symm.trans path')
  rw [location_child _ walkable.legal, location_child _ legal] at same
  exact apart (List.cons.inj same).1.symm

/-- Of the names that are left over once a key has been dropped, only that of its entry is new. -/
theorem Tended.untracked_drop (tended : Tended home site) {entry : Entry}
    (tracked : site.cache.index.entry? key = some entry) (walkable : Walkable home name)
    (path : entry.path = (pathOf home).child name) :
    (site.drop key).untracked ⊆ insert name site.untracked := by
  have dropped := tended.drop key
  have shrinks := (site.sheds_drop key).shrinks tended.wellFormed
  intro other member
  obtain ⟨there, unowned⟩ := (mem_untracked dropped.rooted).mp member
  have legal := (dropped.wellFormed.held there).2
  rw [Finset.mem_insert]
  refine or_iff_not_imp_left.mpr fun apart => (mem_untracked tended.rooted).mpr
    ⟨shrinks.isSome there, Bool.eq_false_iff.mpr fun owned => ?_⟩
  exact Bool.eq_false_iff.mp unowned (tended.tracks_drop tracked walkable path legal apart owned)

/-- **A file that is dropped is gone unless its removal has been counted as failed.** -/
theorem Tended.accounts_drop (tended : Tended home site) (key : String) :
    site.Accounts (site.drop key) := by
  cases tracked : site.cache.index.entry? key with
  | none =>
      rw [Site.drop, tracked]
      exact Nat.le_refl _
  | some entry =>
      obtain ⟨name, walkable, path⟩ := tended.walkable tracked
      have fewer := tended.untracked_drop tracked walkable path
      have count := failedRemovals_drop tracked
      have files : (site.drop key).files = (site.files.remove ((pathOf home).child name)).2 := by
        rw [(site.sheds_drop key).files, tracked, ← path]
        rfl
      rw [path] at count
      rcases tended.fails_or_gone walkable with failed | gone
      · have atMost := (Finset.card_le_card fewer).trans (Finset.card_insert_le name site.untracked)
        rw [failed] at count
        rw [Accounts, count]
        simp only [Bool.false_eq_true, if_false]
        omega
      · have without : name ∉ (site.drop key).untracked := by
          rw [mem_untracked (tended.drop key).rooted, files, gone]
          simp
        exact .of_subset ((Finset.subset_insert_iff_of_notMem without).mp fewer)
          (count ▸ Nat.le_add_right _ _)

/-! ## Making room -/

theorem Tended.evictOldest (tended : Tended home site) :
    Tended home site.evictOldest ∧ site.Accounts site.evictOldest := by
  obtain ⟨dropped, sheds⟩ := site.exists_sheds_evictOldest
  refine ⟨tended.sheds sheds site.evolves_evictOldest, ?_⟩
  rw [Site.evictOldest]
  split
  · exact Nat.le_refl _
  · rename_i key _
    exact tended.accounts_drop key

theorem Tended.makeRoomWithin (tended : Tended home site) (size : UInt64) (entries : Nat) :
    Tended home (site.makeRoomWithin size entries) ∧
      site.Accounts (site.makeRoomWithin size entries) := by
  induction entries generalizing site with
  | zero => exact ⟨tended, Nat.le_refl _⟩
  | succ entries ih =>
      rw [Site.makeRoomWithin]
      split
      · obtain ⟨evicted, first⟩ := tended.evictOldest
        obtain ⟨made, second⟩ := ih evicted
        exact ⟨made, first.trans second⟩
      · exact ⟨tended, Nat.le_refl _⟩

/-- Where a file is settled every name that is left over is accounted for. -/
theorem Tended.ready (tended : Tended home site) (key : String) (size : UInt64) :
    Tended home (site.ready key size) ∧ site.Accounts (site.ready key size) := by
  obtain ⟨made, further⟩ := (tended.drop key).makeRoomWithin size
    (site.drop key).cache.index.entries.length
  exact ⟨made, (tended.accounts_drop key).trans further⟩

/-- A site without a key, and with room made if need be, accounts for what is left over. -/
theorem Tended.remainder (tended : Tended home site) {size : UInt64}
    {result : Except AdoptionError Outcome}
    (remains : site.remainder key size result = some later) :
    Tended home later ∧ site.Accounts later := by
  rw [Site.remainder.eq_def] at remains
  split at remains
  · cases remains
  · cases remains
    exact tended.ready key size
  · cases remains
    exact ⟨tended.drop key, tended.accounts_drop key⟩

/-! ## Adopting -/

/-- A file that is moved into the directory takes a name there that nobody owns, the path of which
can be walked along; what is not under that name is as it was or gone. -/
theorem Tended.exists_target (tended : Tended home site) {fileName : String}
    (legal : IsName fileName) {staging : Path} {files : FileSystem}
    (renamed : site.files.rename staging (site.destination fileName) = .ok files) :
    ∃ target, site.destination fileName = (pathOf home).child target ∧ Walkable home target ∧
      site.cache.index.owns ((pathOf home).child target) = false ∧ files.WellFormed ∧
      ∀ location, ¬target :: home <:+ location → (files.object? location).isSome →
        files.object? location = site.files.object? location := by
  have filled : site.cache.directory.text ≠ "" :=
    tended.rooted.directory ▸ text_pathOf_ne_empty home
  have free := free_of_isTaken (isTaken_destination filled legal)
  obtain ⟨target, targetLegal, destination⟩ := site.exists_destination_eq_child legal
  rw [tended.rooted.directory] at destination
  rw [destination] at free renamed
  obtain ⟨name, above, object, newName, newAbove, moved⟩ := exists_renaming renamed
  obtain ⟨newSlash, newSpotted⟩ := moved.newSpotted
  obtain ⟨here, directory, last, short⟩ :=
    tended.unlinked.spot_child tended.wellFormed tended.rooted.legal targetLegal newSpotted
  cases here
  cases last
  exact ⟨target, destination, short moved.newShort, free.1,
    moved.wellFormed tended.wellFormed targetLegal free.2, fun _ => moved.eq_of_isSome⟩

/-- **A file that is adopted takes a name that is owned from then on,** and no other name is new. -/
theorem Tended.insert (tended : Tended home site) {target : String}
    (untracked : site.cache.index.entry? key = none) (walkable : Walkable home target)
    (free : site.cache.index.owns ((pathOf home).child target) = false) {files : FileSystem}
    (wellFormed : files.WellFormed)
    (others : ∀ location, ¬target :: home <:+ location → (files.object? location).isSome →
      files.object? location = site.files.object? location)
    (now : Instant) (size : UInt64) (validators : Validators) :
    let later : Site := { site.withIndex
      (site.cache.index.insert now key ((pathOf home).child target) size validators) with files }
    Tended home later ∧ site.Accounts later := by
  intro later
  have entries : ∀ other, later.cache.index.entry? other =
      if other = key then
        some ⟨(pathOf home).child target, size, now, site.cache.index.nextTicket, validators⟩
      else site.cache.index.entry? other := Index.entry_insert _ _ _ _ _ _
  have rooted : Rooted home later :=
    ⟨tended.rooted.directory, tended.rooted.legal, tended.rooted.short,
      tended.rooted.paired.insert untracked walkable.legal free now size validators⟩
  refine ⟨⟨rooted, wellFormed, ?_, ?_⟩,
    .of_subset (tended.untracked_subset rooted ?_ ?_) (Nat.le_refl _)⟩
  · intro top number linked within link
    have same := others top
      (fun below => not_cons_suffix target home (below.trans within)) (by rw [link]; rfl)
    exact tended.unlinked top number linked within (same.symm.trans link)
  · intro other entry tracked
    rw [entries] at tracked
    split at tracked
    · cases tracked
      exact ⟨target, walkable, rfl⟩
    · exact tended.walkable tracked
  · intro other there
    by_cases same : other = target
    · have entered := (entries key).trans (if_pos rfl)
      exact .inl (rooted.tracks_iff.mpr ⟨key, _, entered, same ▸ rfl⟩)
    · have kept := others (other :: home)
        (fun within => same (eq_of_cons_suffix_cons within)) there
      exact .inr (kept ▸ there)
  · intro other _ owned
    obtain ⟨holder, entry, tracked, path⟩ := tended.rooted.tracks_iff.mp owned
    refine rooted.tracks_iff.mpr ⟨holder, entry, (entries holder).trans ?_, path⟩
    rw [if_neg ?_, tracked]
    rintro rfl
    rw [untracked] at tracked
    cases tracked

theorem Tended.add (tended : Tended home site) (now : Instant) (key : String) (staging : Path)
    (size : UInt64) (validators : Validators) :
    Tended home (site.add now key staging size validators).2 ∧
      site.Accounts (site.add now key staging size validators).2 := by
  rcases site.add_cases now key staging size validators with
    remains | ⟨fileName, files, named, renamed, added⟩
  · exact tended.remainder remains
  · obtain ⟨ready, before⟩ := tended.ready key size
    have untracked : (site.ready key size).cache.index.entry? key = none :=
      entry_makeRoomWithin (by simp [entry_drop]) size _
    obtain ⟨target, destination, walkable, free, wellFormed, others⟩ :=
      ready.exists_target (Path.isName_of_fileName? named) renamed
    obtain ⟨entered, after⟩ := ready.insert untracked walkable free wellFormed others now size
      validators
    rw [added, destination]
    exact ⟨entered, before.trans after⟩

/-! ## All events -/

/-- An access leaves every name with its owner. -/
theorem Tended.touch (tended : Tended home site) (now : Instant) (key : String) :
    Tended home (site.touch now key) ∧ site.Accounts (site.touch now key) := by
  have rooted : Rooted home (site.touch now key) :=
    tended.rooted.evolves (.single (.touch _ now key) rfl rfl rfl)
  have path : ∀ other entry, (site.cache.index.accessed now key other entry).path = entry.path :=
    fun other entry => (site.cache.index.accessed_keeps now key other entry).1
  refine ⟨⟨rooted, tended.wellFormed, tended.unlinked, ?_⟩,
    .of_subset (tended.untracked_subset rooted (fun _ there => .inr there) ?_) (Nat.le_refl _)⟩
  · intro other entry' tracked'
    obtain ⟨entry, tracked, rfl⟩ :=
      Option.map_eq_some_iff.mp ((Index.entry_touch ..).symm.trans tracked')
    rw [path]
    exact tended.walkable tracked
  · intro name _ owned
    obtain ⟨holder, entry, tracked, place⟩ := tended.rooted.tracks_iff.mp owned
    refine rooted.tracks_iff.mpr ⟨holder, site.cache.index.accessed now key holder entry, ?_, ?_⟩
    · exact (Index.entry_touch ..).trans (by rw [tracked]; rfl)
    · rw [path, place]

/-- Others who leave a site undisturbed leave nothing in the directory. -/
theorem Tended.outside (tended : Tended home site) {files : FileSystem}
    (undisturbed : site.Undisturbed (.outside files)) :
    Tended home { site with files } ∧ site.Accounts { site with files } := by
  obtain ⟨wellFormed, names, links⟩ := undisturbed
  rw [tended.rooted.location_eq] at names links
  have rooted : Rooted home { site with files } := tended.rooted.evolves (.of_cache_eq rfl)
  refine ⟨⟨rooted, wellFormed, ?_, tended.walkable⟩, .of_subset ?_ (Nat.le_refl _)⟩
  · exact fun above number target within link =>
      tended.unlinked above number target within (links above number target within link)
  · exact tended.untracked_subset rooted (fun name there => .inr (names name there))
      fun _ _ owned => owned

/-- **Every event accounts for the names that it leaves over.** -/
theorem Tended.after (tended : Tended home site) {event : Event}
    (undisturbed : site.Undisturbed event) :
    Tended home (site.after event) ∧ site.Accounts (site.after event) := by
  cases event with
  | add now key staging size validators => exact tended.add now key staging size validators
  | touch now key => exact tended.touch now key
  | removeKey key => exact ⟨tended.drop key, tended.accounts_drop key⟩
  | removeUntracked path =>
      obtain ⟨wellFormed, shrinks⟩ := shrinks_removeUntracked tended.wellFormed path
      exact tended.shrinks (site.cache_removeUntracked path) wellFormed shrinks
  | sweep =>
      obtain ⟨wellFormed, shrinks⟩ := shrinks_sweep tended.wellFormed
      exact tended.shrinks site.cache_sweep wellFormed shrinks
  | outside files => exact tended.outside undisturbed

theorem Tended.run (tended : Tended home site) {events : List Event}
    (undisturbed : site.Throughout Undisturbed events) :
    Tended home (site.run events) ∧ site.Accounts (site.run events) := by
  induction events generalizing site with
  | nil => exact ⟨tended, Nat.le_refl _⟩
  | cons event rest ih =>
      obtain ⟨first, further⟩ := undisturbed
      obtain ⟨after, before⟩ := tended.after first
      obtain ⟨last, onward⟩ := ih after further
      exact ⟨last, before.trans onward⟩

/-- A cache that has been opened is tended. -/
theorem tended_of_openCache {files opened : FileSystem} {directory : Path} {maxSize : UInt64}
    {verifySize : Bool} {cache : Cache} (wellFormed : files.WellFormed)
    (opens : files.openCache directory maxSize verifySize = (.ok cache, opened)) :
    Tended cache.directory.location ⟨cache, opened⟩ := by
  have reachable : Site.Reachable ⟨cache, opened⟩ :=
    ⟨files, opened, directory, maxSize, verifySize, cache, [], wellFormed, opens, rfl⟩
  obtain ⟨home, sheltered⟩ := sheltered_of_openCache wellFormed opens fun _ => none
  refine ⟨reachable.rooted, sheltered.wellFormed, sheltered.wellFormed.unlinked ?_, ?_⟩
  · rw [show cache.directory.location = home from sheltered.location_directory]
    exact sheltered.isDirectory
  · obtain ⟨-, -, -, -, -, empty⟩ := eq_of_openCache opens
    intro key entry tracked
    change cache.index.entry? key = some entry at tracked
    rw [empty] at tracked
    cases tracked

end Site

/-- **No file is left over without a failed removal that has been counted.**  While others put
nothing into the directory of a cache and no link on the way to it, there are never more names in it
that no entry owns than there were when the cache was opened and removals that have failed since.
If the directory was empty and no removal has failed, entries own all names in it. -/
theorem leftovers_counted {files opened : FileSystem} {directory : Path} {maxSize : UInt64}
    {verifySize : Bool} {cache : Cache} (wellFormed : files.WellFormed)
    (opens : files.openCache directory maxSize verifySize = (.ok cache, opened))
    (events : List Event)
    (undisturbed : Site.Throughout Site.Undisturbed ⟨cache, opened⟩ events) :
    let start := Site.mk cache opened
    let later := start.run events
    let home := cache.directory.location
    later.untracked.card ≤ start.untracked.card + later.cache.usage.failedRemovals ∧
      (opened.names home = [] → later.cache.usage.failedRemovals = 0 →
        ∀ name ∈ later.files.names home, later.cache.tracks name = true) := by
  intro start later home
  have tended : Site.Tended home start := Site.tended_of_openCache wellFormed opens
  obtain ⟨tended', accounts⟩ := tended.run undisturbed
  have none : start.cache.index.failedRemovals = 0 := by
    obtain ⟨-, -, -, -, -, empty⟩ := eq_of_openCache opens
    exact congrArg Index.failedRemovals empty
  have counted : later.untracked.card ≤
      start.untracked.card + later.cache.usage.failedRemovals := by
    rw [Site.Accounts, none] at accounts
    exact accounts
  refine ⟨counted, fun vacant succeeded name member => ?_⟩
  have clear : start.untracked = ∅ := by
    rw [Site.untracked]
    change (opened.names home).toFinset.filter _ = ∅
    rw [vacant]
    rfl
  rw [clear, succeeded, Finset.card_empty, Nat.le_zero, Finset.card_eq_zero] at counted
  refine Bool.eq_false_imp_eq_true.mp fun unowned => ?_
  have left : name ∈ later.untracked :=
    (Site.mem_untracked tended'.rooted).mpr ⟨mem_names_iff.mp member, unowned⟩
  rw [counted] at left
  cases left

/-- A directory outside of the cache, one in it that is locked, and a file in that one. -/
def FileSystem.guarded (files : FileSystem) : FileSystem :=
  { ((files.create ["d"] .directory).create ["x", "d"] .directory).create ["p", "x", "d"]
    (.file [1]) with locked := [3] }

/-- A directory that is adopted is owned.  If it cannot be removed when its entry is dropped, since
a directory in it is locked, it is left over, and the failed removal has been counted. -/
theorem leftovers_counted_of_guarded_directory :
    let cache : Cache := ⟨⟨"/c"⟩, 9, false, {}⟩
    let opened := FileSystem.empty.create ["c"] .directory
    let start := Site.mk cache opened
    let home := cache.directory.location
    let adoption := [.outside opened.guarded, .add 0 "k" ⟨"/d"⟩ 1 {}]
    let adopted := start.run adoption
    let events := adoption ++ [.removeKey "k"]
    let later := start.run events
    FileSystem.empty.WellFormed ∧
      FileSystem.empty.openCache ⟨"/c"⟩ 9 false = (.ok cache, opened) ∧
      Site.Throughout Site.Undisturbed start events ∧
      opened.names home = [] ∧ adopted.cache.usage.failedRemovals = 0 ∧
      (adopted.files.names home = ["d"] ∧
        ∀ name ∈ adopted.files.names home, adopted.cache.tracks name = true) ∧
      later.files.names home = ["d"] ∧ later.cache.tracks "d" = false ∧
      later.cache.usage.failedRemovals = 1 ∧ later.untracked.card ≤ start.untracked.card + 1 := by
  intro cache opened start home adoption adopted events later
  have location : home = ["c"] := by decide +kernel
  have named : ∀ name, (Path.mk name).fileName? = some name → IsName name := fun _ =>
    Path.isName_of_fileName?
  have first : opened.WellFormed :=
    wellFormed_empty.create wellFormed_empty.root (named "c" (by decide)) rfl .directory
  have second := first.create first.root (named "d" (by decide)) rfl .directory
  have outer : (opened.create ["d"] .directory).IsDirectory ["d"] := ⟨2, rfl⟩
  have third := second.create outer (named "x" (by decide)) rfl .directory
  have inner : ((opened.create ["d"] .directory).create ["x", "d"] .directory).IsDirectory
      ["x", "d"] := ⟨3, rfl⟩
  have fourth := third.create inner (named "p" (by decide)) rfl (.file [1])
  have beside : ∀ other, home <:+ other ∨ other <:+ home →
      opened.guarded.object? other = opened.object? other := by
    intro other near
    rw [location] at near
    have unlocked : opened.guarded.object? other =
        (((opened.create ["d"] .directory).create ["x", "d"] .directory).create ["p", "x", "d"]
          (.file [1])).object? other := rfl
    rw [unlocked, third.object?_create inner rfl, if_neg, second.object?_create outer rfl, if_neg,
      first.object?_create first.root rfl, if_neg]
    all_goals
      rintro rfl
      revert near
      decide
  have opens : FileSystem.empty.openCache ⟨"/c"⟩ 9 false = (.ok cache, opened) := by
    decide +kernel
  have arrives : start.Undisturbed (.outside opened.guarded) :=
    Site.undisturbed_of_same (fourth.withLocked [3]) beside
  have undisturbed : Site.Throughout Site.Undisturbed start events :=
    ⟨arrives, trivial, trivial, trivial⟩
  have vacant : opened.names home = [] := by decide +kernel
  have succeeded : adopted.cache.usage.failedRemovals = 0 := by decide +kernel
  have failed : later.cache.usage.failedRemovals = 1 := by decide +kernel
  have owned := (leftovers_counted wellFormed_empty opens adoption ⟨arrives, trivial, trivial⟩).2
    vacant succeeded
  have bound := (leftovers_counted wellFormed_empty opens events undisturbed).1
  exact ⟨wellFormed_empty, opens, undisturbed, vacant, succeeded, ⟨by decide +kernel, owned⟩,
    by decide +kernel, by decide +kernel, failed, failed ▸ bound⟩

end DownloadCache
