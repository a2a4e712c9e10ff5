import DownloadCache.Proofs.Cache.Shelving

/-!
# Which entry is evicted

The entry that is evicted is the oldest one, and an index is scanned for it in whatever order its
entries happen to be listed.  In a decided index that order does not matter (`Index.Decided`): no
two entries have the same ticket, clock readings and tickets together order the entries as the
tickets alone do, and every scan finds the entry with the least ticket.

Entries that can be listed in the order of their last accesses are decided (`Ordered.decided`), and
they stay so through every stage of an adoption and every event, as long as the clock does not go
backwards (`Aged.run`).  Nothing is needed for that but the pairing of entries and owners; budgets
and sizes do not come into it.
-/

namespace DownloadCache

set_option autoImplicit false

namespace Index

/-! ## Tickets -/

/-- Whether the tickets of an index alone say which of its entries is the oldest. -/
structure Decided (index : Index) : Prop where
  /-- No two entries have the same ticket. -/
  distinct : ∀ key other entry entry', index.entry? key = some entry →
    index.entry? other = some entry' → key ≠ other → entry.ticket ≠ entry'.ticket
  drawn : ∀ key entry, index.entry? key = some entry → entry.ticket < index.nextTicket
  /-- Clock readings and tickets together order the entries as tickets alone do. -/
  agree : ∀ key other entry entry', index.entry? key = some entry →
    index.entry? other = some entry' →
      (entry.olderThan entry' = true ↔ entry.ticket < entry'.ticket)
  /-- The oldest key is the one with the least ticket. -/
  least : ∀ key, index.oldest? = some key ↔ ∃ entry, index.entry? key = some entry ∧
    ∀ other entry', index.entry? other = some entry' → entry.ticket ≤ entry'.ticket
  absent : index.oldest? = none ↔ ∀ key, index.entry? key = none
  /-- It is the same in whatever order the entries are listed. -/
  scan : ∀ listed, listed.Perm index.entries →
    { index with entries := listed }.oldest? = index.oldest?

variable {directory : Path} {latest : Instant} {index : Index} {ordered : List (String × Entry)}

/-- An entry that is found is in the list. -/
theorem Ordered.mem_of_entry? (order : Ordered latest index ordered) {key : String} {entry : Entry}
    (tracked : index.entry? key = some entry) : (key, entry) ∈ ordered :=
  order.perm.mem_iff.mpr (mem_of_lookup_eq_some tracked)

/-- Of two entries, the one that comes first in the list has the lesser ticket and no later clock
reading. -/
theorem Ordered.compare (order : Ordered latest index ordered) {key other : String}
    {entry entry' : Entry} (tracked : index.entry? key = some entry)
    (tracked' : index.entry? other = some entry') :
    (key = other ∧ entry = entry') ∨
      (entry.ticket < entry'.ticket ∧ entry.accessed ≤ entry'.accessed) ∨
      (entry'.ticket < entry.ticket ∧ entry'.accessed ≤ entry.accessed) := by
  have rising := order.tickets.and order.clocks
  obtain ⟨before, behind, whole⟩ := List.append_of_mem (order.mem_of_entry? tracked)
  have member' := order.mem_of_entry? tracked'
  rw [whole] at rising member'
  obtain ⟨-, onward, across⟩ := List.pairwise_append.mp rising
  rcases List.mem_append.mp member' with earlier | later
  · exact .inr (.inr (across _ earlier _ List.mem_cons_self))
  · rcases List.mem_cons.mp later with same | later
    · cases same
      exact .inl ⟨rfl, rfl⟩
    · exact .inr (.inl ((List.pairwise_cons.mp onward).1 _ later))

/-- The first entry of the list has the least ticket. -/
theorem Ordered.ticket_le {first : String × Entry} {others : List (String × Entry)}
    (order : Ordered latest index (first :: others)) {pair : String × Entry}
    (member : pair ∈ first :: others) : first.2.ticket ≤ pair.2.ticket := by
  rcases List.mem_cons.mp member with rfl | later
  · exact Nat.le_refl _
  · exact Nat.le_of_lt ((List.pairwise_cons.mp order.tickets).1 pair later)

/-- The oldest key is the one with the least ticket. -/
theorem Ordered.oldest?_eq_some_iff (order : Ordered latest index ordered)
    (paired : Paired directory index) {key : String} :
    index.oldest? = some key ↔ ∃ entry, index.entry? key = some entry ∧
      ∀ other entry', index.entry? other = some entry' → entry.ticket ≤ entry'.ticket := by
  have head : index.oldest? = ordered.head?.map (·.1) := order.oldest?_eq (.refl _)
  rw [head]
  cases ordered with
  | nil =>
      refine ⟨nofun, ?_⟩
      rintro ⟨entry, tracked, -⟩
      cases order.mem_of_entry? tracked
  | cons first others =>
      have tracked : index.entry? first.1 = some first.2 := by
        rw [← order.lookup_eq paired, List.lookup_cons_self]
      constructor
      · intro same
        cases same
        exact ⟨first.2, tracked, fun other entry' tracked' =>
          order.ticket_le (order.mem_of_entry? tracked')⟩
      · rintro ⟨entry, tracked', least⟩
        rcases List.mem_cons.mp (order.mem_of_entry? tracked') with same | later
        · rw [← same]
          rfl
        · -- What comes later has a greater ticket than the first entry.
          have greater := (List.pairwise_cons.mp order.tickets).1 _ later
          exact absurd (least first.1 first.2 tracked) (Nat.not_le.mpr greater)

/-- **Entries that can be listed in the order of their last accesses are decided.** -/
theorem Ordered.decided (order : Ordered latest index ordered) (paired : Paired directory index) :
    Decided index where
  distinct := by
    intro key other entry entry' tracked tracked' apart
    rcases order.compare tracked tracked' with ⟨same, -⟩ | ⟨before, -⟩ | ⟨before, -⟩
    · exact absurd same apart
    · exact Nat.ne_of_lt before
    · exact Nat.ne_of_gt before
  drawn _ _ tracked := order.drawn _ (order.mem_of_entry? tracked)
  agree := by
    intro key other entry entry' tracked tracked'
    rw [Entry.olderThan_iff]
    have compared := order.compare tracked tracked'
    unfold Instant at *
    rcases compared with ⟨-, rfl⟩ | ⟨ticket, clock⟩ | ⟨ticket, clock⟩ <;> omega
  least _ := order.oldest?_eq_some_iff paired
  absent := by
    rw [oldest?_eq_none_iff]
    constructor
    · intro empty key
      unfold entry?
      rw [empty]
      rfl
    · intro absent
      refine List.eq_nil_iff_forall_not_mem.mpr fun pair member => ?_
      exact ne_of_lookup_eq_none (absent pair.1) member rfl
  scan _ same := (order.oldest?_eq same).trans (order.oldest?_eq (.refl _)).symm

/-- Whether the entries of an index can be listed in the order of their last accesses, none of them
after a clock reading. -/
def Listed (latest : Instant) (index : Index) : Prop :=
  ∃ ordered, Ordered latest index ordered

end Index

namespace Site

/-! ## Adoptions -/

variable {latest now : Instant} {site later : Site}

theorem listed_drop (listed : site.cache.index.Listed latest) (key : String) :
    (site.drop key).cache.index.Listed latest := by
  rw [drop]
  split
  · exact listed
  · rename_i entry _
    obtain ⟨failedRemovals, same⟩ := site.cache_dropEntry key entry
    obtain ⟨ordered, order⟩ := listed
    rw [same]
    exact ⟨_, (order.drop key entry).congr rfl rfl⟩

theorem listed_evictOldest (listed : site.cache.index.Listed latest) :
    site.evictOldest.cache.index.Listed latest := by
  rw [evictOldest]
  split
  · exact listed
  · rename_i key _
    obtain ⟨ordered, order⟩ := listed_drop listed key
    exact ⟨ordered, order.congr rfl rfl⟩

theorem listed_makeRoomWithin (listed : site.cache.index.Listed latest) (size : UInt64)
    (entries : Nat) : (site.makeRoomWithin size entries).cache.index.Listed latest := by
  induction entries generalizing site with
  | zero => exact listed
  | succ entries ih =>
      rw [makeRoomWithin]
      split
      · exact ih (listed_evictOldest listed)
      · exact listed

theorem listed_stage (listed : site.cache.index.Listed latest) (key : String) (size : UInt64)
    (evictions : Nat) : (site.stage key size evictions).cache.index.Listed latest :=
  listed_makeRoomWithin (listed_drop listed key) size evictions

/-- A file that is entered has the latest access. -/
theorem listed_settle (listed : site.cache.index.Listed latest) (after : latest ≤ now)
    (key : String) (staging : Path) (fileName : String) (size : UInt64) (validators : Validators) :
    (site.settle now key staging fileName size validators).2.cache.index.Listed now := by
  obtain ⟨ordered, order⟩ := listed
  rw [settle]
  dsimp only
  split
  · exact ⟨ordered, order.later after⟩
  · exact ⟨_, order.insert after key _ size validators⟩

theorem listed_add (listed : site.cache.index.Listed latest) (after : latest ≤ now) (key : String)
    (staging : Path) (size : UInt64) (validators : Validators) :
    (site.add now key staging size validators).2.cache.index.Listed now := by
  have dropped := listed_drop listed key
  have early : (site.drop key).cache.index.Listed now :=
    dropped.imp fun _ order => order.later after
  rw [add]
  split
  · exact early
  split
  · exact early
  split
  · exact early
  · exact listed_settle (listed_makeRoomWithin dropped size _) after key staging _ size validators

/-! ## Runs -/

/-- A site whose cache has a directory, whose index is paired, and whose entries can be listed in
the order of their last accesses, none of them after a clock reading. -/
structure Aged (latest : Instant) (site : Site) : Prop where
  filled : site.cache.directory.text ≠ ""
  paired : site.cache.index.Paired site.cache.directory
  listed : site.cache.index.Listed latest

/-- A site stays aged through every evolution after which its entries can still be listed. -/
theorem Aged.evolves (aged : Aged latest site) (evolves : Evolves site later)
    (listed : later.cache.index.Listed now) : Aged now later := by
  refine ⟨evolves.directory ▸ aged.filled, ?_, listed⟩
  rw [evolves.directory]
  exact evolves.index.keeps (Index.Paired site.cache.directory) Index.Paired.change aged.paired

theorem Aged.decided (aged : Aged latest site) : site.cache.index.Decided := by
  obtain ⟨ordered, order⟩ := aged.listed
  exact order.decided aged.paired

theorem Aged.stage (aged : Aged latest site) (key : String) (size : UInt64) (evictions : Nat) :
    Aged latest (site.stage key size evictions) :=
  aged.evolves (site.evolves_stage key size evictions) (listed_stage aged.listed key size evictions)

/-- An access with a later clock reading leaves the entries in order. -/
theorem Aged.listed_touch (aged : Aged latest site) (after : latest ≤ now) (key : String) :
    (site.touch now key).cache.index.Listed now := by
  obtain ⟨ordered, order⟩ := aged.listed
  cases tracked : site.cache.index.entry? key with
  | none => exact ⟨ordered, order.touch_untracked after tracked⟩
  | some entry => exact ⟨_, order.touch after aged.paired tracked⟩

/-- Every event keeps a site aged, if its clock reading is not before those that came before. -/
theorem Aged.after (aged : Aged latest site) (event : Event)
    (after : ∀ now, event.reading? = some now → latest ≤ now) :
    Aged (event.reading?.getD latest) (site.after event) := by
  refine aged.evolves (evolves_after aged.filled event) ?_
  have idle : ∀ other : Site, other.cache = site.cache → other.cache.index.Listed latest :=
    fun other same => same ▸ aged.listed
  cases event with
  | add now key staging size validators =>
      exact listed_add aged.listed (after now rfl) key staging size validators
  | touch now key => exact aged.listed_touch (after now rfl) key
  | removeKey key => exact listed_drop aged.listed key
  | removeUntracked path => exact idle _ (site.cache_removeUntracked path)
  | sweep => exact idle _ site.cache_sweep
  | outside files => exact idle _ rfl

/-- **A site stays aged in every run of which the clock readings do not fall.** -/
theorem Aged.run (aged : Aged latest site) (events : List Event)
    (clock : (latest :: events.filterMap Event.reading?).Pairwise (· ≤ ·)) :
    ∃ latest, Aged latest (site.run events) := by
  induction events generalizing latest site with
  | nil => exact ⟨latest, aged⟩
  | cons event rest ih =>
      have first := aged.after event
      rw [run_cons]
      cases reading : event.reading? with
      | none =>
          rw [reading] at first
          rw [List.filterMap_cons_none reading] at clock
          exact ih (first nofun) clock
      | some now =>
          rw [reading] at first
          rw [List.filterMap_cons_some reading] at clock
          obtain ⟨earliest, clock⟩ := List.pairwise_cons.mp clock
          refine ih (first fun _ same => ?_) clock
          rw [← Option.some.inj same]
          exact earliest now List.mem_cons_self

end Site

section Opened

variable {files opened : FileSystem} {directory : Path} {maxSize : UInt64} {verifySize : Bool}
  {cache : Cache}
  (opens : files.openCache directory maxSize verifySize = (.ok cache, opened))

include opens

theorem aged_of_openCache : Site.Aged 0 ⟨cache, opened⟩ := by
  obtain ⟨-, -, -, -, -, empty⟩ := eq_of_openCache opens
  refine ⟨directory_ne_empty_of_openCache opens, ?_, [], ?_⟩
  · exact empty ▸ Index.paired_empty cache.directory
  · exact empty ▸ Index.ordered_empty 0

/-- **Which entry is evicted does not depend on how the entries are listed.**  After every run of
which the clock readings do not fall, whatever others have done to the file system, the tickets of
the entries are distinct and have all been drawn, they order the entries as clock readings and
tickets together do, and every scan finds the entry with the least ticket, or none if there is no
entry.  The same is true at every moment within an adoption. -/
theorem eviction_decided_by_tickets (events : List Event)
    (clock : (events.filterMap Event.reading?).Pairwise (· ≤ ·)) :
    let site := (Site.mk cache opened).run events
    site.cache.index.Decided ∧
      ∀ key size evictions, (site.stage key size evictions).cache.index.Decided := by
  intro site
  obtain ⟨latest, aged⟩ := (aged_of_openCache opens).run events
    (List.pairwise_cons.mpr ⟨fun _ _ => Nat.zero_le _, clock⟩)
  exact ⟨aged.decided, fun key size evictions => (aged.stage key size evictions).decided⟩

end Opened

/-- On one clock reading, an entry that was adopted first and accessed again is not the oldest,
neither for a scan as the entries are listed nor for one from the other end. -/
theorem eviction_decided_by_tickets_on_one_reading :
    let disk := (FileSystem.empty.create ["x"] (.file [1])).create ["y"] (.file [2])
    let opened := disk.create ["c"] .directory
    let events := [.add 5 "a" ⟨"/x"⟩ 1 {}, .add 5 "b" ⟨"/y"⟩ 1 {}, .touch 5 "a", .touch 5 "d"]
    let index := ((Site.mk ⟨⟨"/c"⟩, 2, false, {}⟩ opened).run events).cache.index
    disk.openCache ⟨"/c"⟩ 2 false = (.ok ⟨⟨"/c"⟩, 2, false, {}⟩, opened) ∧
      (events.filterMap Event.reading?).Pairwise (· ≤ ·) ∧
      index.entries.map (fun listed => (listed.1, listed.2.accessed, listed.2.ticket)) =
        [("b", 5, 1), ("a", 5, 2)] ∧
      index.oldest? = some "b" ∧
      { index with entries := index.entries.reverse }.oldest? = some "b" := by
  intro disk opened events index
  have opens : disk.openCache ⟨"/c"⟩ 2 false = (.ok ⟨⟨"/c"⟩, 2, false, {}⟩, opened) := by
    decide +kernel
  have clock : (events.filterMap Event.reading?).Pairwise (· ≤ ·) := by decide
  have oldest : index.oldest? = some "b" := by decide +kernel
  obtain ⟨decided, -⟩ := eviction_decided_by_tickets opens events clock
  refine ⟨opens, clock, by decide +kernel, oldest, ?_⟩
  exact (decided.scan _ (List.reverse_perm _)).trans oldest

end DownloadCache
