import DownloadCache.Proofs.Cache.Budget
import DownloadCache.Proofs.Index.Recency
import DownloadCache.Proofs.Shelf

/-!
# A cache as a shelf

To whoever asks for paths, validators and usage, a cache is a shelf, whose items are its entries in
the order of their last accesses (`Shelved`).  Every stage of an adoption keeps it so: the scan for
the oldest entry finds the first item, hence making room drops the surplus of the shelf
(`Shelved.makeRoomWithin`).

After a run of which the clock readings do not fall, the cache answers as the shelf does after the
corresponding requests (`answers_of_shelf`).
-/

namespace DownloadCache

set_option autoImplicit false

/-! ## Events as requests -/

/-- The clock reading that comes with an event. -/
def Event.reading? : Event → Option Instant
  | .add now .. => some now
  | .touch now _ => some now
  | _ => none

namespace Site

/-- What the file system of a site says about a file that is to be adopted: whether the file passes
the check of its length after the key has been dropped, and where it is moved after room has been
made. -/
def verdict (site : Site) (key : String) (staging : Path) (size : UInt64) : Verdict :=
  let without := site.drop key
  let made := without.makeRoom size
  let target := made.destination (staging.fileName?.getD "")
  { passes := (without.checkLength staging size).isOk
    placed := (made.files.rename staging target).toOption.map fun _ => target }

/-- What an event asks of a shelf. -/
def request (site : Site) : Event → Request
  | .add _ key staging size validators =>
      .add key staging size validators (site.verdict key staging size)
  | .touch _ key => .touch key
  | .removeKey key => .remove key
  | _ => .other

/-- What the events of a run ask of a shelf. -/
def requests : Site → List Event → List Request
  | _, [] => []
  | site, event :: rest => site.request event :: (site.after event).requests rest

end Site

/-! ## Entries as items -/

/-- What a shelf knows of an entry. -/
def item (pair : String × Entry) : Item :=
  ⟨pair.1, pair.2.path, pair.2.size, pair.2.validators⟩

theorem total_map_item (ordered : List (String × Entry)) :
    Shelf.total (ordered.map item) = Index.total ordered := by
  rw [Shelf.total, Index.total, List.foldr_map]
  rfl

theorem find?_map_item (ordered : List (String × Entry)) (key : String) :
    (ordered.map item).find? (·.key == key) =
      (ordered.lookup key).map fun entry => item (key, entry) := by
  induction ordered with
  | nil => rfl
  | cons pair rest ih =>
      obtain ⟨listed, entry⟩ := pair
      rw [List.map_cons, List.find?_cons, List.lookup_cons, ih]
      by_cases same : listed = key
      · simp [item, same]
      · simp [item, beq_eq_false_iff_ne.mpr same, beq_eq_false_iff_ne.mpr (Ne.symm same)]

theorem filter_map_item (ordered : List (String × Entry)) (key : String) :
    (ordered.map item).filter (·.key != key) =
      (ordered.filter fun pair => pair.1 != key).map item := by
  rw [List.filter_map]
  rfl

namespace Site

/-! ## The relation -/

/-- The items of a shelf are the entries of a site in the order of their last accesses, none of
them after a clock reading. -/
structure Shelved (latest : Instant) (site : Site) (shelf : Shelf) : Prop where
  items : ∃ ordered, site.cache.index.Ordered latest ordered ∧ shelf.items = ordered.map item
  dropped : shelf.dropped = site.cache.index.evictions

variable {latest now : Instant} {site : Site} {shelf : Shelf}

/-- Entries that were accessed by one reading of the clock were by any later one. -/
theorem Shelved.later (shelved : Shelved latest site shelf) (later : latest ≤ now) :
    Shelved now site shelf := by
  obtain ⟨⟨ordered, order, items⟩, dropped⟩ := shelved
  exact ⟨⟨ordered, order.later later, items⟩, dropped⟩

/-- The item of a key is that of its entry. -/
theorem Shelved.item?_eq (shelved : Shelved latest site shelf) (sound : Sound site)
    (key : String) :
    shelf.item? key = (site.cache.index.entry? key).map fun entry => item (key, entry) := by
  obtain ⟨⟨ordered, order, items⟩, -⟩ := shelved
  rw [Shelf.item?, items, find?_map_item, order.lookup_eq sound.paired]

/-- A key that has no entry has no item. -/
theorem Shelved.remove_untracked (shelved : Shelved latest site shelf) {key : String}
    (untracked : site.cache.index.entry? key = none) : shelf.remove key = shelf := by
  obtain ⟨⟨ordered, order, items⟩, -⟩ := shelved
  have kept : shelf.items.filter (·.key != key) = shelf.items := by
    rw [items, filter_map_item]
    refine congrArg _ (List.filter_eq_self.mpr fun pair member => ?_)
    simpa using ne_of_lookup_eq_none untracked (order.perm.mem_iff.mp member)
  rw [Shelf.remove, kept]

/-! ## Dropping and accesses -/

theorem Shelved.drop (shelved : Shelved latest site shelf) (key : String) :
    Shelved latest (site.drop key) (shelf.remove key) := by
  rw [Site.drop]
  split
  · rename_i untracked
    rw [shelved.remove_untracked untracked]
    exact shelved
  · rename_i entry tracked
    obtain ⟨failedRemovals, same⟩ := site.cache_dropEntry key entry
    obtain ⟨⟨ordered, order, items⟩, dropped⟩ := shelved
    refine ⟨⟨ordered.filter fun pair => pair.1 != key, ?_, ?_⟩, ?_⟩
    · rw [same]
      exact (order.drop key entry).congr rfl rfl
    · rw [Shelf.remove, items, filter_map_item]
    · rw [same]
      exact dropped

theorem Shelved.touch (shelved : Shelved latest site shelf) (sound : Sound site)
    (later : latest ≤ now) (key : String) :
    Shelved now (site.touch now key) (shelf.touch key) := by
  have found := shelved.item?_eq sound key
  cases looked : site.cache.index.entry? key with
  | none =>
      rw [Shelf.touch, shelved.remove_untracked looked, found, looked]
      obtain ⟨⟨ordered, order, items⟩, dropped⟩ := shelved
      refine ⟨⟨ordered, order.touch_untracked later looked, ?_⟩, dropped⟩
      simpa using items
  | some entry =>
      obtain ⟨⟨ordered, order, items⟩, dropped⟩ := shelved
      refine ⟨⟨_, order.touch later sound.paired looked, ?_⟩, dropped⟩
      rw [Shelf.touch, Shelf.remove, found, looked, items, filter_map_item, List.map_append]
      rfl

/-! ## Making room -/

/-- The scan for the oldest entry finds the first item, in whatever order it goes. -/
theorem Shelved.oldest?_eq (shelved : Shelved latest site shelf) {scan : List (String × Entry)}
    (same : scan.Perm site.cache.index.entries) :
    { site.cache.index with entries := scan }.oldest? = shelf.items.head?.map (·.key) := by
  obtain ⟨⟨ordered, order, items⟩, -⟩ := shelved
  rw [order.oldest?_eq same, items, List.head?_map, Option.map_map]
  rfl

theorem Shelved.length_eq (shelved : Shelved latest site shelf) :
    shelf.items.length = site.cache.index.entries.length := by
  obtain ⟨⟨ordered, order, items⟩, -⟩ := shelved
  rw [items, List.length_map, order.perm.length_eq]

/-- No key has two items. -/
theorem Shelved.distinct (shelved : Shelved latest site shelf) (sound : Sound site) :
    (shelf.items.map (·.key)).Nodup := by
  obtain ⟨⟨ordered, order, items⟩, -⟩ := shelved
  rw [items, List.map_map]
  exact (order.perm.map _).nodup_iff.mpr sound.paired.distinct

/-- The word of used bytes is the sum of the sizes of the items. -/
theorem Shelved.total_eq (shelved : Shelved latest site shelf) (sound : Sound site) :
    Shelf.total shelf.items = site.cache.index.usedBytes.toNat := by
  obtain ⟨⟨ordered, order, items⟩, -⟩ := shelved
  rw [items, total_map_item, Index.total_perm order.perm, sound.balanced.exact]

/-- An eviction drops the first item, if there is one. -/
theorem Shelved.evictOldest (shelved : Shelved latest site shelf) (sound : Sound site)
    {first : Item} {others : List Item} (items : shelf.items = first :: others) :
    Shelved latest site.evictOldest ⟨others, shelf.dropped + 1⟩ := by
  have oldest : site.cache.index.oldest? = some first.key := by
    have scanned := shelved.oldest?_eq (.refl site.cache.index.entries)
    rwa [items] at scanned
  obtain ⟨⟨ordered, order, rest⟩, dropped⟩ := shelved.drop first.key
  rw [Shelf.remove_first (shelved.distinct sound) items] at rest dropped
  rw [Site.evictOldest, oldest]
  exact ⟨⟨ordered, order.congr rfl rfl, rest⟩, congrArg (· + 1) dropped⟩

/-- **Making room drops the surplus,** as far as the number of evictions allows. -/
theorem Shelved.makeRoomWithin (shelved : Shelved latest site shelf) (sound : Sound site)
    (size : UInt64) (evictions : Nat) :
    Shelved latest (site.makeRoomWithin size evictions)
      (shelf.dropFirst (min evictions (Shelf.surplus shelf.items site.cache.maxSize size))) := by
  induction evictions generalizing site shelf with
  | zero =>
      rw [Nat.zero_min]
      exact shelved
  | succ evictions ih =>
      have decides := sound.lacksRoom_iff size
      rw [← shelved.total_eq sound] at decides
      rw [Site.makeRoomWithin]
      cases items : shelf.items with
      | nil =>
          have none : site.cache.index.oldest? = none := by
            have scanned := shelved.oldest?_eq (.refl site.cache.index.entries)
            rwa [items] at scanned
          have same : site.evictOldest = site := by rw [Site.evictOldest, none]
          have within := ih shelved sound
          rw [items, Shelf.surplus_nil, Nat.min_zero] at within
          rw [Shelf.surplus_nil, Nat.min_zero, same]
          split
          · exact within
          · exact shelved
      | cons first others =>
          have evolves := site.evolves_evictOldest
          have within := ih (shelved.evictOldest sound items) (sound.evolves evolves)
          rw [evolves.maxSize] at within
          rw [items] at decides
          rw [Shelf.surplus_cons]
          split
          · rename_i lacks
            rw [if_neg (Nat.not_le.mpr (decides.mp lacks)), Nat.succ_min_succ]
            rw [Shelf.dropFirst] at within ⊢
            rw [items, List.drop_succ_cons, Nat.add_succ, ← Nat.succ_add]
            exact within
          · rename_i fits
            rw [if_pos (Nat.not_lt.mp (mt decides.mpr fits)), Nat.min_zero]
            exact shelved

theorem Shelved.makeRoom (shelved : Shelved latest site shelf) (sound : Sound site)
    (size : UInt64) :
    Shelved latest (site.makeRoom size) (shelf.makeRoom site.cache.maxSize size) := by
  have within := shelved.makeRoomWithin sound size site.cache.index.entries.length
  have enough := Shelf.surplus_le shelf.items site.cache.maxSize size
  rw [shelved.length_eq] at enough
  rw [Nat.min_eq_right enough] at within
  exact within

/-! ## Adopting -/

/-- A file that is entered is the most recently accessed one. -/
theorem Shelved.insert (shelved : Shelved latest site shelf) (later : latest ≤ now)
    (key : String) (path : Path) (size : UInt64) (validators : Validators) (files : FileSystem) :
    Shelved now
      { site.withIndex (site.cache.index.insert now key path size validators) with files }
      (shelf.place key size validators (some path)) := by
  obtain ⟨⟨ordered, order, items⟩, dropped⟩ := shelved
  refine ⟨⟨_, order.insert later key path size validators, ?_⟩, dropped⟩
  rw [Shelf.place, items, List.map_append]
  rfl

/-- A file that could be moved is entered, and no other one. -/
theorem Shelved.settle (shelved : Shelved latest site shelf) (later : latest ≤ now)
    (key : String) (staging : Path) (fileName : String) (size : UInt64) (validators : Validators) :
    Shelved now (site.settle now key staging fileName size validators).2
      (shelf.place key size validators
        ((site.files.rename staging (site.destination fileName)).toOption.map
          fun _ => site.destination fileName)) := by
  rw [Site.settle]
  cases moved : site.files.rename staging (site.destination fileName) with
  | error cause => exact shelved.later later
  | ok files => exact shelved.insert later key (site.destination fileName) size validators files

theorem Shelved.add (shelved : Shelved latest site shelf) (sound : Sound site)
    (later : latest ≤ now) (key : String) (staging : Path) (size : UInt64)
    (validators : Validators) :
    Shelved now (site.add now key staging size validators).2
      (shelf.add site.cache.maxSize key staging size validators
        (site.verdict key staging size)) := by
  have dropped := shelved.drop key
  have budget := (site.evolves_drop key).maxSize
  have made := dropped.makeRoom (sound.drop key) size
  rw [budget] at made
  rw [Site.add, Shelf.add, Site.verdict, budget]
  dsimp only
  split
  · rename_i large
    rw [if_pos (.inl large)]
    exact dropped.later later
  rename_i fits
  split
  · rename_i unnamed
    rw [if_pos (.inr (.inl unnamed))]
    exact dropped.later later
  rename_i fileName named
  split
  · rename_i cause refused
    rw [if_pos (.inr (.inr (by rw [refused]; rfl)))]
    exact dropped.later later
  rename_i passed
  rw [if_neg (by simp [fits, named, passed, Except.isOk, Except.toBool]), named]
  exact made.settle later key staging fileName size validators

/-! ## Runs -/

/-- Every event does to the site what its request does to the shelf. -/
theorem Shelved.after (shelved : Shelved latest site shelf) (sound : Sound site) (event : Event)
    (later : ∀ now, event.reading? = some now → latest ≤ now) :
    Shelved (event.reading?.getD latest) (site.after event)
      (shelf.after site.cache.maxSize (site.request event)) := by
  have idle : ∀ other : Site, other.cache = site.cache → Shelved latest other shelf := by
    intro other same
    refine ⟨?_, ?_⟩
    · rw [same]
      exact shelved.items
    · rw [same]
      exact shelved.dropped
  cases event with
  | add now key staging size validators =>
      exact shelved.add sound (later now rfl) key staging size validators
  | touch now key => exact shelved.touch sound (later now rfl) key
  | removeKey key => exact shelved.drop key
  | removeUntracked path => exact idle _ (site.cache_removeUntracked path)
  | sweep => exact idle _ site.cache_sweep
  | outside files => exact idle _ rfl

/-- A run does to the site what its requests do to the shelf, if clock readings do not fall. -/
theorem Shelved.run (shelved : Shelved latest site shelf) (sound : Sound site)
    (events : List Event)
    (clock : (latest :: events.filterMap Event.reading?).Pairwise (· ≤ ·)) :
    ∃ latest, Shelved latest (site.run events)
      (shelf.run site.cache.maxSize (site.requests events)) := by
  induction events generalizing latest site shelf with
  | nil => exact ⟨latest, shelved⟩
  | cons event rest ih =>
      have evolves := evolves_after sound.filled event
      have first := shelved.after sound event
      rw [run_cons, requests, Shelf.run, List.foldl_cons, ← evolves.maxSize]
      rw [← evolves.maxSize] at first
      cases reading : event.reading? with
      | none =>
          rw [reading] at first
          rw [List.filterMap_cons_none reading] at clock
          exact ih (first nofun) (sound.evolves evolves) clock
      | some now =>
          rw [reading] at first
          rw [List.filterMap_cons_some reading] at clock
          obtain ⟨earliest, clock⟩ := List.pairwise_cons.mp clock
          have later := earliest now List.mem_cons_self
          refine ih (first fun _ same => ?_) (sound.evolves evolves) clock
          rwa [← Option.some.inj same]

end Site

section Opened

variable {files opened : FileSystem} {directory : Path} {maxSize : UInt64} {verifySize : Bool}
  {cache : Cache}
  (opens : files.openCache directory maxSize verifySize = (.ok cache, opened))
  (below : maxSize < 0xffffffffffffffff)

include opens

/-- A cache that has just been opened is an empty shelf. -/
theorem shelved_of_openCache : Site.Shelved 0 ⟨cache, opened⟩ {} := by
  obtain ⟨-, -, -, -, -, empty⟩ := eq_of_openCache opens
  exact ⟨⟨[], empty ▸ Index.ordered_empty 0, rfl⟩, empty ▸ rfl⟩

include below

/-- **A cache answers as a shelf.**  After a run of which the clock readings do not fall, paths,
validators and usage are those of the shelf after the corresponding requests.  In every stage of
every adoption the scan for the oldest entry, in whatever order it goes, finds the first of the
items that are left; so the order in which entries are listed never matters. -/
theorem answers_of_shelf (events : List Event)
    (clock : (events.filterMap Event.reading?).Pairwise (· ≤ ·)) :
    let site := (Site.mk cache opened).run events
    let shelf := Shelf.run maxSize {} (Site.requests ⟨cache, opened⟩ events)
    (∀ key, site.cache.path? key = (shelf.item? key).map (·.path)) ∧
      (∀ key, site.cache.validators? key = (shelf.item? key).map (·.validators)) ∧
      site.cache.usage.entries = shelf.items.length ∧
      site.cache.usage.usedBytes.toNat = Shelf.total shelf.items ∧
      site.cache.usage.evictions = shelf.dropped ∧
      ∀ key size evictions scan,
        scan.Perm (site.stage key size evictions).cache.index.entries →
          let waiting := (shelf.remove key).items
          let gone := min evictions (Shelf.surplus waiting maxSize size)
          { (site.stage key size evictions).cache.index with entries := scan }.oldest? =
            (waiting.drop gone).head?.map (·.key) := by
  intro site shelf
  obtain ⟨-, -, -, budget, -⟩ := eq_of_openCache opens
  have sound : (Site.mk cache opened).Sound := sound_of_openCache opens below
  obtain ⟨latest, shelved⟩ := (shelved_of_openCache opens).run sound events
    (List.pairwise_cons.mpr ⟨fun _ _ => Nat.zero_le _, clock⟩)
  change Site.Shelved latest site _ at shelved
  rw [budget] at shelved
  have sound : site.Sound := sound_run opens below events
  have maxSize_eq : site.cache.maxSize = maxSize := maxSize_run opens events
  refine ⟨?_, ?_, shelved.length_eq.symm, (shelved.total_eq sound).symm, shelved.dropped.symm, ?_⟩
  · intro key
    rw [Cache.path?, shelved.item?_eq sound, Option.map_map]
    rfl
  · intro key
    rw [Cache.validators?, shelved.item?_eq sound, Option.map_map]
    rfl
  · intro key size evictions scan same
    have staged := (shelved.drop key).makeRoomWithin (sound.drop key) size evictions
    rw [(site.evolves_drop key).maxSize, maxSize_eq] at staged
    exact staged.oldest?_eq same

end Opened

/-- On one clock reading, an access saves the file that was adopted first, and the second one has
to go. -/
theorem answers_of_shelf_on_one_reading :
    let disk := ((FileSystem.empty.create ["x"] (.file [1])).create ["y"] (.file [2])).create ["z"]
      (.file [3])
    let opened := disk.create ["c"] .directory
    let events := [.add 5 "a" ⟨"/x"⟩ 1 {}, .add 5 "b" ⟨"/y"⟩ 1 {}, .touch 5 "a",
      .add 5 "d" ⟨"/z"⟩ 1 {}]
    let site := (Site.mk ⟨⟨"/c"⟩, 2, false, {}⟩ opened).run events
    disk.openCache ⟨"/c"⟩ 2 false = (.ok ⟨⟨"/c"⟩, 2, false, {}⟩, opened) ∧
      (2 : UInt64) < 0xffffffffffffffff ∧
      (events.filterMap Event.reading?).Pairwise (· ≤ ·) ∧
      site.cache.path? "a" = some ⟨"/c/x"⟩ ∧ site.cache.path? "b" = none ∧
      site.cache.usage.evictions = 1 := by
  intro disk opened events site
  have opens : disk.openCache ⟨"/c"⟩ 2 false = (.ok ⟨⟨"/c"⟩, 2, false, {}⟩, opened) := by
    decide +kernel
  have below : (2 : UInt64) < 0xffffffffffffffff := by decide
  have clock : (events.filterMap Event.reading?).Pairwise (· ≤ ·) := by decide
  obtain ⟨paths, -, -, -, evictions, -⟩ := answers_of_shelf opens below events clock
  refine ⟨opens, below, clock, (paths "a").trans ?_, (paths "b").trans ?_, evictions.trans ?_⟩
  · decide +kernel
  · decide +kernel
  · decide +kernel

end DownloadCache
