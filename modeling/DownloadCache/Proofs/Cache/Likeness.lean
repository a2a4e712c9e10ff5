import DownloadCache.Proofs.Cache.Rejection
import DownloadCache.Proofs.Cache.Shelving

/-!
# Sites that cannot be told apart

What a cache answers depends on its clock readings and tickets through the order only in which they
put its entries.  Two sites are alike if they have the same files and caches that differ in clock
readings and tickets, with the entries in the same order (`Alike`).  They answer alike, and stay
alike: when a key is dropped (`Alike.drop`) or room is made (`Alike.makeRoom`), when a file is
adopted (`Alike.add`), and whatever else happens to both (`Alike.after`), for which the clock need
not show the same on the two of them.

The order of the entries is that of a shelf.  All that the operations look at besides is the outline
of a site, which is the site without its entries and its next ticket (`outline`).
-/

namespace DownloadCache

set_option autoImplicit false

namespace Site

/-! ## Outlines -/

/-- The site without its entries and its next ticket. -/
def outline (site : Site) : Site :=
  site.withIndex { site.cache.index with entries := [], nextTicket := 0 }

theorem outline_dropEntry (site : Site) (key : String) (entry : Entry) :
    (site.dropEntry key entry).outline = site.outline.dropEntry key entry := by
  have files : site.outline.files = site.files := rfl
  rw [dropEntry, dropEntry, files]
  split <;> rfl

/-- Of the entry only its path and its size matter. -/
theorem dropEntry_congr (site : Site) (key : String) {entry entry' : Entry}
    (path : entry'.path = entry.path) (size : entry'.size = entry.size) :
    (site.outline.dropEntry key entry') = site.outline.dropEntry key entry := by
  have dropped : site.outline.cache.index.drop key entry' =
      site.outline.cache.index.drop key entry := by
    rw [Index.drop, Index.drop, path, size]
  rw [dropEntry, dropEntry, path, dropped]

theorem outline_removeUntracked (site : Site) (path : Path) :
    site.outline.removeUntracked path =
      ((site.removeUntracked path).1, (site.removeUntracked path).2.outline) := by
  have owned : site.outline.ownsNamed path = site.ownsNamed path := rfl
  have files : site.outline.files = site.files := rfl
  rw [removeUntracked, removeUntracked, owned, files]
  split
  · rfl
  · split <;> rfl

theorem outline_sweepName (counts : SweepCounts) (site : Site) (name : String) :
    sweepName (counts, site.outline) name =
      ((sweepName (counts, site) name).1, (sweepName (counts, site) name).2.outline) := by
  have removed := site.outline_removeUntracked (site.cache.directory.child name)
  have directory : site.outline.cache.directory = site.cache.directory := rfl
  rw [sweepName, sweepName, directory, removed]
  rcases site.removeUntracked _ with ⟨_ | (_ | _), _⟩ <;> rfl

theorem outline_sweep (site : Site) :
    site.outline.sweep = (site.sweep.1, site.sweep.2.outline) := by
  have fold : ∀ (names : List String) (counts : SweepCounts) (site : Site),
      names.foldl sweepName (counts, site.outline) =
        ((names.foldl sweepName (counts, site)).1,
          (names.foldl sweepName (counts, site)).2.outline) := by
    intro names
    induction names with
    | nil => exact fun _ _ => rfl
    | cons name rest ih =>
        intro counts site
        rw [List.foldl_cons, List.foldl_cons, outline_sweepName]
        exact ih _ _
  have listed : site.outline.files.list site.outline.cache.directory =
    site.files.list site.cache.directory := rfl
  rw [sweep, sweep, listed]
  split
  · rfl
  · rw [fold]

/-! ## Likeness -/

/-- The sites have the same outline, and their entries are the items of one shelf, none of them
accessed after one clock reading on each side. -/
structure Alike (latest latest' : Instant) (site other : Site) : Prop where
  sound : Sound site
  sound' : Sound other
  shelved : ∃ shelf, Shelved latest site shelf ∧ Shelved latest' other shelf
  outline : other.outline = site.outline

variable {latest latest' now now' : Instant} {site other : Site}

theorem Alike.refl {shelf : Shelf} (sound : Sound site) (shelved : Shelved latest site shelf) :
    Alike latest latest site site :=
  ⟨sound, sound, ⟨shelf, shelved, shelved⟩, rfl⟩

theorem Alike.files_eq (alike : Alike latest latest' site other) : other.files = site.files :=
  congrArg (fun site => site.files) alike.outline

theorem Alike.maxSize_eq (alike : Alike latest latest' site other) :
    other.cache.maxSize = site.cache.maxSize :=
  congrArg (fun site => site.cache.maxSize) alike.outline

/-- What is known of the entry of a key but for its recency. -/
theorem Alike.entry_eq (alike : Alike latest latest' site other) (key : String) :
    (other.cache.index.entry? key).map (fun entry => item (key, entry)) =
      (site.cache.index.entry? key).map fun entry => item (key, entry) := by
  obtain ⟨shelf, shelved, shelved'⟩ := alike.shelved
  rw [← shelved'.item?_eq alike.sound', ← shelved.item?_eq alike.sound]

theorem Alike.path?_eq (alike : Alike latest latest' site other) (key : String) :
    other.cache.path? key = site.cache.path? key := by
  have paths := congrArg (Option.map Item.path) (alike.entry_eq key)
  rwa [Option.map_map, Option.map_map] at paths

theorem Alike.validators?_eq (alike : Alike latest latest' site other) (key : String) :
    other.cache.validators? key = site.cache.validators? key := by
  have validators := congrArg (Option.map Item.validators) (alike.entry_eq key)
  rwa [Option.map_map, Option.map_map] at validators

theorem Alike.isSome_entry? (alike : Alike latest latest' site other) (key : String) :
    (other.cache.index.entry? key).isSome = (site.cache.index.entry? key).isSome := by
  have known := congrArg Option.isSome (alike.entry_eq key)
  rwa [Option.isSome_map, Option.isSome_map] at known

theorem Alike.length_entries_eq (alike : Alike latest latest' site other) :
    other.cache.index.entries.length = site.cache.index.entries.length := by
  obtain ⟨shelf, shelved, shelved'⟩ := alike.shelved
  rw [← shelved.length_eq, ← shelved'.length_eq]

theorem Alike.usage_eq (alike : Alike latest latest' site other) :
    other.cache.usage = site.cache.usage := by
  have rest : ({ other.outline.cache.usage with entries := site.cache.index.entries.length }) =
      { site.outline.cache.usage with entries := site.cache.index.entries.length } := by
    rw [alike.outline]
  rw [← alike.length_entries_eq] at rest
  rw [Cache.usage, Cache.usage, ← alike.length_entries_eq]
  exact rest

/-! ## Dropping and making room -/

theorem Alike.drop (alike : Alike latest latest' site other) (key : String) :
    Alike latest latest' (site.drop key) (other.drop key) := by
  have shelved : ∃ shelf, Shelved latest (site.drop key) shelf ∧
      Shelved latest' (other.drop key) shelf := by
    obtain ⟨shelf, shelved, shelved'⟩ := alike.shelved
    exact ⟨shelf.remove key, shelved.drop key, shelved'.drop key⟩
  refine ⟨alike.sound.drop key, alike.sound'.drop key, shelved, ?_⟩
  have known := alike.entry_eq key
  rw [Site.drop, Site.drop]
  cases found : site.cache.index.entry? key with
  | none =>
      rw [found, Option.map_none, Option.map_eq_none_iff] at known
      rw [known]
      exact alike.outline
  | some entry =>
      rw [found, Option.map_some, Option.map_eq_some_iff] at known
      obtain ⟨entry', found', same⟩ := known
      have path : entry'.path = entry.path := congrArg Item.path same
      have size : entry'.size = entry.size := congrArg Item.size same
      rw [found']
      dsimp only
      rw [outline_dropEntry, outline_dropEntry, alike.outline, dropEntry_congr _ _ path size]

theorem Alike.oldest?_eq (alike : Alike latest latest' site other) :
    other.cache.index.oldest? = site.cache.index.oldest? := by
  obtain ⟨shelf, shelved, shelved'⟩ := alike.shelved
  exact (shelved'.oldest?_eq (.refl _)).trans (shelved.oldest?_eq (.refl _)).symm

theorem Alike.evictOldest (alike : Alike latest latest' site other) :
    Alike latest latest' site.evictOldest other.evictOldest := by
  have sound := alike.sound.evolves site.evolves_evictOldest
  have sound' := alike.sound'.evolves other.evolves_evictOldest
  have oldest := alike.oldest?_eq
  rw [Site.evictOldest] at sound sound' ⊢
  rw [Site.evictOldest, oldest]
  rw [oldest] at sound'
  split
  · exact alike
  · rename_i key found
    rw [found] at sound sound'
    obtain ⟨-, -, ⟨shelf, shelved, shelved'⟩, outline⟩ := alike.drop key
    refine ⟨sound, sound', ⟨⟨shelf.items, shelf.dropped + 1⟩, ?_, ?_⟩, ?_⟩
    · exact ⟨shelved.items.imp fun _ same => ⟨same.1.congr rfl rfl, same.2⟩,
        congrArg (· + 1) shelved.dropped⟩
    · exact ⟨shelved'.items.imp fun _ same => ⟨same.1.congr rfl rfl, same.2⟩,
        congrArg (· + 1) shelved'.dropped⟩
    · exact congrArg (fun site => site.withIndex
        { site.cache.index with evictions := site.cache.index.evictions + 1 }) outline

theorem Alike.lacksRoom_eq (alike : Alike latest latest' site other) (size : UInt64) :
    other.lacksRoom size = site.lacksRoom size :=
  congrArg (fun site => site.lacksRoom size) alike.outline

theorem Alike.makeRoomWithin (alike : Alike latest latest' site other) (size : UInt64)
    (entries : Nat) :
    Alike latest latest' (site.makeRoomWithin size entries)
      (other.makeRoomWithin size entries) := by
  induction entries generalizing site other with
  | zero => exact alike
  | succ entries ih =>
      rw [Site.makeRoomWithin, Site.makeRoomWithin, alike.lacksRoom_eq]
      split
      · exact ih alike.evictOldest
      · exact alike

theorem Alike.makeRoom (alike : Alike latest latest' site other) (size : UInt64) :
    Alike latest latest' (site.makeRoom size) (other.makeRoom size) := by
  rw [Site.makeRoom, Site.makeRoom, alike.length_entries_eq]
  exact alike.makeRoomWithin size _

/-! ## Adopting -/

theorem Alike.checkLength_eq (alike : Alike latest latest' site other) (staging : Path)
    (size : UInt64) : other.checkLength staging size = site.checkLength staging size :=
  congrArg (fun site => site.checkLength staging size) alike.outline

theorem Alike.destination_eq (alike : Alike latest latest' site other) (fileName : String) :
    other.destination fileName = site.destination fileName :=
  congrArg (fun site => site.destination fileName) alike.outline

theorem Alike.verdict_eq (alike : Alike latest latest' site other) (key : String)
    (staging : Path) (size : UInt64) :
    other.verdict key staging size = site.verdict key staging size := by
  have dropped := alike.drop key
  have made := dropped.makeRoom size
  rw [verdict, verdict, dropped.checkLength_eq, made.destination_eq, made.files_eq]

/-- Settling a file has the same result on both sides, and makes the same of the outlines. -/
theorem Alike.settle_eq (alike : Alike latest latest' site other) (now now' : Instant)
    (key : String) (staging : Path) (fileName : String) (size : UInt64) (validators : Validators) :
    let settled := site.settle now key staging fileName size validators
    let settled' := other.settle now' key staging fileName size validators
    settled'.1 = settled.1 ∧ settled'.2.outline = settled.2.outline := by
  intro settled settled'
  simp only [settled, settled', settle, alike.files_eq, alike.destination_eq]
  cases site.files.rename staging (site.destination fileName) with
  | error cause => exact ⟨rfl, alike.outline⟩
  | ok files =>
      exact ⟨rfl, congrArg (fun site' => { site'.withIndex { site'.cache.index with
        owners := ((site.destination fileName).components, key) :: site'.cache.index.owners
        usedBytes := site'.cache.index.usedBytes + size } with files }) alike.outline⟩

/-- **Adopting a file has the same result on both sides, and leaves them alike.** -/
theorem Alike.add (alike : Alike latest latest' site other) (later : latest ≤ now)
    (later' : latest' ≤ now') (key : String) (staging : Path) (size : UInt64)
    (validators : Validators) :
    (other.add now' key staging size validators).1 =
        (site.add now key staging size validators).1 ∧
      Alike now now' (site.add now key staging size validators).2
        (other.add now' key staging size validators).2 := by
  have same : (other.add now' key staging size validators).1 =
        (site.add now key staging size validators).1 ∧
      (other.add now' key staging size validators).2.outline =
        (site.add now key staging size validators).2.outline := by
    have dropped := alike.drop key
    rw [Site.add, Site.add, dropped.maxSize_eq, dropped.checkLength_eq]
    split
    · exact ⟨rfl, dropped.outline⟩
    split
    · exact ⟨rfl, dropped.outline⟩
    split
    · exact ⟨rfl, dropped.outline⟩
    · exact (dropped.makeRoom size).settle_eq now now' key staging _ size validators
  refine ⟨same.1, ?_, ?_, ?_, same.2⟩
  · exact alike.sound.evolves (evolves_add alike.sound.filled now key staging size validators)
  · exact alike.sound'.evolves (evolves_add alike.sound'.filled now' key staging size validators)
  · obtain ⟨shelf, shelved, shelved'⟩ := alike.shelved
    refine ⟨_, shelved.add alike.sound later key staging size validators, ?_⟩
    rw [← alike.maxSize_eq, ← alike.verdict_eq]
    exact shelved'.add alike.sound' later' key staging size validators

/-! ## All events -/

theorem Alike.touch (alike : Alike latest latest' site other) (later : latest ≤ now)
    (later' : latest' ≤ now') (key : String) :
    Alike now now' (site.touch now key) (other.touch now' key) := by
  obtain ⟨shelf, shelved, shelved'⟩ := alike.shelved
  refine ⟨?_, ?_, ⟨_, shelved.touch alike.sound later key, ?_⟩, alike.outline⟩
  · exact alike.sound.evolves (evolves_after alike.sound.filled (.touch now key))
  · exact alike.sound'.evolves (evolves_after alike.sound'.filled (.touch now' key))
  · exact shelved'.touch alike.sound' later' key

/-- Sites stay alike when their caches stay as they are. -/
theorem Alike.of_cache_eq {after after' : Site} (alike : Alike latest latest' site other)
    (same : after.cache = site.cache) (same' : after'.cache = other.cache)
    (outline : after'.outline = after.outline) : Alike latest latest' after after' := by
  obtain ⟨shelf, shelved, shelved'⟩ := alike.shelved
  refine ⟨alike.sound.evolves (.of_cache_eq same), alike.sound'.evolves (.of_cache_eq same'),
    ⟨shelf, ⟨?_, ?_⟩, ⟨?_, ?_⟩⟩, outline⟩
  · exact same ▸ shelved.items
  · exact same ▸ shelved.dropped
  · exact same' ▸ shelved'.items
  · exact same' ▸ shelved'.dropped

theorem Alike.removeUntracked (alike : Alike latest latest' site other) (path : Path) :
    (other.removeUntracked path).1 = (site.removeUntracked path).1 ∧
      Alike latest latest' (site.removeUntracked path).2 (other.removeUntracked path).2 := by
  have removed := other.outline_removeUntracked path
  rw [alike.outline, outline_removeUntracked, Prod.mk.injEq] at removed
  exact ⟨removed.1.symm, alike.of_cache_eq (site.cache_removeUntracked path)
    (other.cache_removeUntracked path) removed.2.symm⟩

theorem Alike.sweep (alike : Alike latest latest' site other) :
    other.sweep.1 = site.sweep.1 ∧ Alike latest latest' site.sweep.2 other.sweep.2 := by
  have swept := other.outline_sweep
  rw [alike.outline, outline_sweep, Prod.mk.injEq] at swept
  exact ⟨swept.1.symm, alike.of_cache_eq site.cache_sweep other.cache_sweep swept.2.symm⟩

theorem Alike.outside (alike : Alike latest latest' site other) (files : FileSystem) :
    Alike latest latest' { site with files } { other with files } :=
  alike.of_cache_eq rfl rfl (congrArg (fun site => { site with files }) alike.outline)

end Site

end DownloadCache
