import DownloadCache.Proofs.Cache.Ownership
import DownloadCache.Proofs.Cache.Rejection
import Mathlib.Data.Finset.Card

/-!
# Where entries come from and where they go

An entry comes from an adoption that answers with a path, and from nothing else.  It goes in one of
three ways: it is evicted to make room, its key is removed, or its key is adopted again, whatever
becomes of that adoption.  Along a run these four are counted from what the operations answer and
from what the cache holds before them (`Site.tally`), and nothing is lost or counted twice
(`entries_conserved`): the counter of evictions is the number of entries that adoptions have cost
other keys, and no more removals have failed than entries have gone.

Every stage of an adoption moves entries one by one (`Yields`): dropping a key takes it from the
keys that have an entry (`keys_drop`), and an eviction does this and counts (`yields_evictOldest`).

No counter runs ahead of the operations (`counters_le_length`).  So it makes no difference that
tickets and counters are natural numbers here and words of 64 bits where they are kept and sent.
-/

namespace DownloadCache

set_option autoImplicit false

/-- The keys that have an entry. -/
def Cache.keys (cache : Cache) : Finset String :=
  (cache.index.entries.map (·.1)).toFinset

theorem Cache.mem_keys_iff {cache : Cache} {key : String} :
    key ∈ cache.keys ↔ (cache.index.entry? key).isSome := by
  rw [keys, List.mem_toFinset, List.mem_map]
  constructor
  · rintro ⟨pair, listed, rfl⟩
    cases found : cache.index.entry? pair.1 with
    | some entry => rfl
    | none => exact absurd rfl (ne_of_lookup_eq_none found listed)
  · intro tracked
    obtain ⟨entry, found⟩ := Option.isSome_iff_exists.mp tracked
    exact ⟨_, mem_of_lookup_eq_some found, rfl⟩

/-- No key is listed twice, so there are as many entries as keys. -/
theorem Cache.card_keys {cache : Cache} {directory : Path}
    (paired : cache.index.Paired directory) : cache.keys.card = cache.usage.entries := by
  rw [keys, List.toFinset_card_of_nodup paired.distinct, List.length_map]
  rfl

namespace Site

/-! ## What is counted -/

/-- The sum of what the events of a run count for, each in the state in which it happens. -/
def tally (measure : Site → Event → Nat) : Site → List Event → Nat
  | _, [] => 0
  | site, event :: rest => measure site event + (site.after event).tally measure rest

/-- One for an adoption that answers with a path. -/
def adoptions (site : Site) : Event → Nat
  | .add now key staging size validators =>
      match (site.add now key staging size validators).1 with
      | .ok (.cached _) => 1
      | _ => 0
  | _ => 0

/-- One for an adoption, whatever becomes of it, of a key that has an entry. -/
def replacements (site : Site) : Event → Nat
  | .add _ key .. => (site.cache.index.entry? key).isSome.toNat
  | _ => 0

/-- One for a removal of a key that answers that there was an entry. -/
def removals (site : Site) : Event → Nat
  | .removeKey key => (site.removeKey key).1.toNat
  | _ => 0

/-- How many keys other than its own an adoption costs their entries. -/
def evicted (site : Site) : Event → Nat
  | .add now key staging size validators =>
      let later := (site.add now key staging size validators).2
      ((site.cache.keys \ later.cache.keys).erase key).card
  | _ => 0

variable {site between later : Site}

/-! ## Dropping and making room -/

theorem keys_drop (site : Site) (key : String) :
    (site.drop key).cache.keys = site.cache.keys.erase key := by
  ext other
  rw [Finset.mem_erase, Cache.mem_keys_iff, Cache.mem_keys_iff, entry_drop]
  split <;> simp_all

theorem evictions_drop (site : Site) (key : String) :
    (site.drop key).cache.index.evictions = site.cache.index.evictions := by
  rw [drop]
  split
  · rfl
  · rw [dropEntry]
    split <;> rfl

theorem nextTicket_drop (site : Site) (key : String) :
    (site.drop key).cache.index.nextTicket = site.cache.index.nextTicket := by
  rw [drop]
  split
  · rfl
  · rw [dropEntry]
    split <;> rfl

/-- A removal fails only where an entry is dropped. -/
theorem failedRemovals_drop_le (site : Site) (key : String) :
    (site.drop key).cache.index.failedRemovals ≤
      site.cache.index.failedRemovals + (site.cache.index.entry? key).isSome.toNat := by
  rw [drop]
  split
  · exact Nat.le_add_right _ _
  · rename_i entry tracked
    rw [dropEntry]
    split
    · exact Nat.le_add_right _ _
    · rw [tracked]
      exact Nat.le_refl _

/-- A dropped entry is one less. -/
theorem card_keys_drop (site : Site) (key : String) :
    (site.drop key).cache.keys.card + (site.cache.index.entry? key).isSome.toNat =
      site.cache.keys.card := by
  rw [keys_drop]
  cases tracked : (site.cache.index.entry? key).isSome with
  | true => exact Finset.card_erase_add_one (Cache.mem_keys_iff.mpr tracked)
  | false =>
      have absent : key ∉ site.cache.keys := by simp [Cache.mem_keys_iff, tracked]
      rw [Finset.erase_eq_of_notMem absent]
      rfl

/-- Some keys have lost their entries to evictions, each of which has been counted, and for no more
of them a removal has failed; no ticket has been drawn. -/
structure Yields (site later : Site) : Prop where
  subset : later.cache.keys ⊆ site.cache.keys
  counted : later.cache.keys.card + later.cache.index.evictions =
    site.cache.keys.card + site.cache.index.evictions
  failures : later.cache.index.failedRemovals + later.cache.keys.card ≤
    site.cache.index.failedRemovals + site.cache.keys.card
  drawn : later.cache.index.nextTicket = site.cache.index.nextTicket

theorem Yields.refl (site : Site) : Yields site site :=
  ⟨Finset.Subset.refl _, rfl, Nat.le_refl _, rfl⟩

theorem Yields.trans (before : Yields site between) (after : Yields between later) :
    Yields site later :=
  ⟨after.subset.trans before.subset, after.counted.trans before.counted,
    after.failures.trans before.failures, after.drawn.trans before.drawn⟩

/-- The keys that are missing afterwards are as many as have been counted. -/
theorem Yields.evictions_eq (yields : Yields site later) :
    later.cache.index.evictions =
      site.cache.index.evictions + (site.cache.keys \ later.cache.keys).card := by
  have missing := Finset.card_sdiff_add_card_eq_card yields.subset
  have counted := yields.counted
  omega

theorem yields_evictOldest (site : Site) : Yields site site.evictOldest := by
  rw [evictOldest]
  split
  · exact .refl site
  · rename_i key oldest
    obtain ⟨entry, tracked⟩ := Index.exists_entry_of_oldest? oldest
    have fewer := site.card_keys_drop key
    have counter := site.evictions_drop key
    have failures := site.failedRemovals_drop_le key
    rw [tracked, Option.isSome_some, Bool.toNat_true] at fewer failures
    refine ⟨?_, ?_, ?_, site.nextTicket_drop key⟩
    · change (site.drop key).cache.keys ⊆ site.cache.keys
      rw [keys_drop]
      exact Finset.erase_subset _ _
    · change (site.drop key).cache.keys.card + ((site.drop key).cache.index.evictions + 1) = _
      omega
    · change (site.drop key).cache.index.failedRemovals + (site.drop key).cache.keys.card ≤ _
      omega

theorem yields_makeRoomWithin (site : Site) (size : UInt64) (entries : Nat) :
    Yields site (site.makeRoomWithin size entries) := by
  induction entries generalizing site with
  | zero => exact .refl site
  | succ entries ih =>
      rw [makeRoomWithin]
      split
      · exact (yields_evictOldest site).trans (ih site.evictOldest)
      · exact .refl site

/-! ## Adoptions -/

/-- An event accounts for the entries that come and go with it. -/
structure Accounted (site : Site) (event : Event) : Prop where
  entries : (site.after event).cache.keys.card + (site.after event).cache.index.evictions +
      site.removals event + site.replacements event =
    site.cache.keys.card + site.cache.index.evictions + site.adoptions event
  failures : (site.after event).cache.index.failedRemovals + (site.after event).cache.keys.card ≤
    site.cache.index.failedRemovals + site.cache.keys.card + site.adoptions event
  evictions : (site.after event).cache.index.evictions =
    site.cache.index.evictions + site.evicted event

variable {now : Instant} {key : String} {staging : Path} {size : UInt64} {validators : Validators}

/-- An adoption without success only yields after its key has been dropped. -/
theorem yields_of_remainder {result : Except AdoptionError Outcome}
    (remains : site.remainder key size result = some later) :
    Yields (site.drop key) later ∧ ∀ path, result ≠ .ok (.cached path) := by
  rw [remainder.eq_def] at remains
  split at remains
  · cases remains
  · cases remains
    exact ⟨yields_makeRoomWithin _ size _, by simp⟩
  · rename_i other _
    cases remains
    exact ⟨.refl _, fun path cached => other path cached⟩

/-- What an adoption costs other keys, it costs after its own has been dropped. -/
theorem erase_sdiff_keys (site : Site) (key : String) (kept : Finset String) :
    (site.cache.keys \ kept).erase key = (site.drop key).cache.keys \ kept := by
  rw [keys_drop, Finset.erase_sdiff_comm]

theorem accounted_add (site : Site) (now : Instant) (key : String) (staging : Path)
    (size : UInt64) (validators : Validators) :
    Accounted site (.add now key staging size validators) := by
  have dropped := site.card_keys_drop key
  have counter := site.evictions_drop key
  have failures := site.failedRemovals_drop_le key
  rcases site.add_cases now key staging size validators with remains | ⟨_, files, -, -, added⟩
  · obtain ⟨yields, unsuccessful⟩ := yields_of_remainder remains
    have none : site.adoptions (.add now key staging size validators) = 0 := by
      rw [adoptions]
      split
      · rename_i path cached
        exact absurd cached (unsuccessful path)
      · rfl
    have counted := yields.counted
    have fewer := yields.failures
    refine ⟨?_, ?_, ?_⟩
    · rw [none]
      change (site.add ..).2.cache.keys.card + (site.add ..).2.cache.index.evictions + 0 +
        (site.cache.index.entry? key).isSome.toNat = _
      omega
    · rw [none]
      change (site.add ..).2.cache.index.failedRemovals + (site.add ..).2.cache.keys.card ≤ _
      omega
    · change (site.add ..).2.cache.index.evictions =
        _ + ((site.cache.keys \ (site.add ..).2.cache.keys).erase key).card
      rw [erase_sdiff_keys, ← counter]
      exact yields.evictions_eq
  · have yields : Yields (site.drop key) (site.ready key size) := yields_makeRoomWithin _ size _
    have absent : key ∉ (site.ready key size).cache.keys := fun member =>
      Finset.notMem_erase key _ (site.keys_drop key ▸ yields.subset member)
    have keys : (site.add now key staging size validators).2.cache.keys =
        insert key (site.ready key size).cache.keys := by
      rw [added]
      exact List.toFinset_cons
    have one : site.adoptions (.add now key staging size validators) = 1 := by
      rw [adoptions, added]
    have entered := Finset.card_insert_of_notMem absent
    have counted := yields.counted
    have fewer := yields.failures
    have evictions : (site.add now key staging size validators).2.cache.index.evictions =
        (site.ready key size).cache.index.evictions := by rw [added]; rfl
    have failed : (site.add now key staging size validators).2.cache.index.failedRemovals =
        (site.ready key size).cache.index.failedRemovals := by rw [added]; rfl
    refine ⟨?_, ?_, ?_⟩
    · rw [one]
      change (site.add ..).2.cache.keys.card + (site.add ..).2.cache.index.evictions + 0 +
        (site.cache.index.entry? key).isSome.toNat = _
      rw [keys, evictions]
      omega
    · rw [one]
      change (site.add ..).2.cache.index.failedRemovals + (site.add ..).2.cache.keys.card ≤ _
      rw [keys, failed]
      omega
    · change (site.add ..).2.cache.index.evictions =
        _ + ((site.cache.keys \ (site.add ..).2.cache.keys).erase key).card
      rw [erase_sdiff_keys, keys, evictions, ← counter, Finset.sdiff_insert,
        Finset.erase_eq_of_notMem fun member => ?_]
      · exact yields.evictions_eq
      · exact Finset.notMem_erase key _ (site.keys_drop key ▸ (Finset.mem_sdiff.mp member).1)

/-! ## All events -/

/-- An event that leaves the cache alone and counts for nothing is accounted for. -/
theorem Accounted.of_cache_eq {event : Event} (same : (site.after event).cache = site.cache)
    (idle : site.adoptions event = 0 ∧ site.replacements event = 0 ∧ site.removals event = 0 ∧
      site.evicted event = 0) : Accounted site event := by
  obtain ⟨adopted, replaced, removed, costs⟩ := idle
  refine ⟨?_, ?_, ?_⟩
  · rw [same, adopted, replaced, removed]
  · rw [same, adopted]
    exact Nat.le_refl _
  · rw [same, costs]
    rfl

/-- **Every event accounts for the entries that come and go with it.** -/
theorem accounted_after (site : Site) (event : Event) : Accounted site event := by
  cases event with
  | add now key staging size validators => exact accounted_add ..
  | touch now key =>
      have keys : (site.touch now key).cache.keys = site.cache.keys := by
        change ((site.cache.index.touch now key).entries.map (·.1)).toFinset = _
        rw [Index.entries_touch, List.map_map]
        rfl
      refine ⟨?_, ?_, rfl⟩
      · change (site.touch now key).cache.keys.card + _ + 0 + 0 = _
        rw [keys]
        rfl
      · change _ + (site.touch now key).cache.keys.card ≤ _
        rw [keys]
        exact Nat.le_refl _
  | removeKey key =>
      have dropped := site.card_keys_drop key
      have counter := site.evictions_drop key
      have failures := site.failedRemovals_drop_le key
      refine ⟨?_, ?_, counter⟩
      · change (site.drop key).cache.keys.card + (site.drop key).cache.index.evictions +
          (site.cache.index.entry? key).isSome.toNat + 0 = _ + 0
        omega
      · change (site.drop key).cache.index.failedRemovals + (site.drop key).cache.keys.card ≤ _ + 0
        omega
  | removeUntracked path =>
      exact .of_cache_eq (site.cache_removeUntracked path) ⟨rfl, rfl, rfl, rfl⟩
  | sweep => exact .of_cache_eq site.cache_sweep ⟨rfl, rfl, rfl, rfl⟩
  | outside files => exact .of_cache_eq rfl ⟨rfl, rfl, rfl, rfl⟩

/-- Every run accounts for the entries that come and go in it. -/
theorem accounted_run (site : Site) (events : List Event) :
    let later := site.run events
    later.cache.keys.card + later.cache.index.evictions + site.tally removals events +
          site.tally replacements events =
        site.cache.keys.card + site.cache.index.evictions + site.tally adoptions events ∧
      later.cache.index.failedRemovals + later.cache.keys.card ≤
        site.cache.index.failedRemovals + site.cache.keys.card + site.tally adoptions events ∧
      later.cache.index.evictions = site.cache.index.evictions + site.tally evicted events := by
  induction events generalizing site with
  | nil => exact ⟨rfl, Nat.le_refl _, rfl⟩
  | cons event rest ih =>
      have step := site.accounted_after event
      obtain ⟨entries, failures, evictions⟩ := ih (site.after event)
      have entries' := step.entries
      have failures' := step.failures
      have evictions' := step.evictions
      simp only [run_cons, tally]
      omega

end Site

/-- **Entries are conserved.**  Along every run of a cache since it was opened, the adoptions that
answered with a path are as many as the entries that are left, the evictions, the removals of keys
that had an entry, and the adoptions of keys that had one.  No more removals of files have failed
than entries have gone.  The evictions are the entries that adoptions have cost keys other than
their own, each counted once. -/
theorem entries_conserved {files opened : FileSystem} {directory : Path} {maxSize : UInt64}
    {verifySize : Bool} {cache : Cache}
    (opens : files.openCache directory maxSize verifySize = (.ok cache, opened))
    (events : List Event) :
    let start := Site.mk cache opened
    let usage := (start.run events).cache.usage
    let adopted := start.tally Site.adoptions events
    adopted = usage.entries + usage.evictions + start.tally Site.removals events +
        start.tally Site.replacements events ∧
      usage.entries ≤ adopted ∧ usage.failedRemovals ≤ adopted - usage.entries ∧
      usage.evictions = start.tally Site.evicted events := by
  intro start usage adopted
  obtain ⟨entries, failures, evictions⟩ := start.accounted_run events
  have left : (start.run events).cache.keys.card = usage.entries :=
    Cache.card_keys (paired_run opens events)
  have empty : cache.index = {} := (eq_of_openCache opens).2.2.2.2.2
  have none : start.cache.keys = ∅ := by
    rw [Cache.keys, show start.cache.index = {} from empty]
    rfl
  rw [left, none, show start.cache.index = {} from empty] at entries failures
  rw [show start.cache.index = {} from empty] at evictions
  change usage.entries + usage.evictions + _ + _ = 0 + 0 + adopted at entries
  change usage.failedRemovals + usage.entries ≤ 0 + 0 + adopted at failures
  change usage.evictions = 0 + _ at evictions
  omega

/-- With a file in place of the directory, an entry whose file cannot be deleted is evicted for an
adoption that then fails; the eviction and the failed removal are counted. -/
theorem entries_conserved_of_failed_eviction :
    let cache : Cache := ⟨⟨"/c"⟩, 9, false, {}⟩
    let opened := FileSystem.empty.create ["c"] .directory
    let events := [.outside (opened.create ["f"] (.file [1])), .add 0 "k" ⟨"/f"⟩ 9 {},
      .outside (FileSystem.empty.create ["c"] (.file [])), .add 1 "j" ⟨"/g"⟩ 5 {}]
    let start := Site.mk cache opened
    FileSystem.empty.openCache ⟨"/c"⟩ 9 false = (.ok cache, opened) ∧
      start.tally Site.adoptions events = 1 ∧ start.tally Site.evicted events = 1 ∧
      (start.run events).cache.usage = ⟨0, 0, 9, 1, 1⟩ := by
  intro cache opened events start
  have opens : FileSystem.empty.openCache ⟨"/c"⟩ 9 false = (.ok cache, opened) := by
    decide +kernel
  have usage : (start.run events).cache.usage = ⟨0, 0, 9, 1, 1⟩ := by decide +kernel
  obtain ⟨adopted, -, -, evicted⟩ := entries_conserved opens events
  have removed : start.tally Site.removals events = 0 := by decide +kernel
  have replaced : start.tally Site.replacements events = 0 := by decide +kernel
  refine ⟨opens, adopted.trans ?_, evicted.symm.trans ?_, usage⟩
  · change (start.run events).cache.usage.entries + (start.run events).cache.usage.evictions +
      start.tally Site.removals events + start.tally Site.replacements events = 1
    rw [usage, removed, replaced]
    rfl
  · exact congrArg Usage.evictions usage

/-! ## Words for counters -/

namespace Site

/-- An event draws one ticket at most. -/
theorem nextTicket_after_le (site : Site) (event : Event) :
    (site.after event).cache.index.nextTicket ≤ site.cache.index.nextTicket + 1 := by
  cases event with
  | add now key staging size validators =>
      change (site.add now key staging size validators).2.cache.index.nextTicket ≤ _
      have dropped := site.nextTicket_drop key
      rcases site.add_cases now key staging size validators with remains | ⟨_, files, -, -, added⟩
      · have drawn := (yields_of_remainder remains).1.drawn
        omega
      · have drawn : (site.ready key size).cache.index.nextTicket = _ :=
          (yields_makeRoomWithin (site.drop key) size _).drawn
        rw [added]
        exact Nat.succ_le_succ (drawn.trans dropped).le
  | touch now key => exact Nat.le_refl _
  | removeKey key => exact (site.nextTicket_drop key).le.trans (Nat.le_succ _)
  | removeUntracked path =>
      rw [show (site.after (.removeUntracked path)).cache = _ from site.cache_removeUntracked path]
      exact Nat.le_succ _
  | sweep =>
      rw [show (site.after .sweep).cache = _ from site.cache_sweep]
      exact Nat.le_succ _
  | outside files => exact Nat.le_succ _

theorem nextTicket_run_le (site : Site) (events : List Event) :
    (site.run events).cache.index.nextTicket ≤ site.cache.index.nextTicket + events.length := by
  induction events generalizing site with
  | nil => exact Nat.le_refl _
  | cons event rest ih =>
      have step := site.nextTicket_after_le event
      have further := ih (site.after event)
      rw [run_cons, List.length_cons]
      omega

/-- No more files are adopted than there are events. -/
theorem tally_adoptions_le (site : Site) (events : List Event) :
    site.tally adoptions events ≤ events.length := by
  induction events generalizing site with
  | nil => exact Nat.le_refl _
  | cons event rest ih =>
      have one : site.adoptions event ≤ 1 := by
        cases event with
        | add =>
            rw [adoptions]
            split <;> omega
        | _ => exact Nat.zero_le 1
      have further := ih (site.after event)
      rw [tally, List.length_cons]
      omega

end Site

/-- **No counter runs ahead of the operations.**  After a run of a cache since it was opened neither
the next ticket nor the evictions nor the failed removals exceed the number of its events.  A run
would need 2^64 of them before a word of 64 bits could not hold one of these numbers. -/
theorem counters_le_length {files opened : FileSystem} {directory : Path} {maxSize : UInt64}
    {verifySize : Bool} {cache : Cache}
    (opens : files.openCache directory maxSize verifySize = (.ok cache, opened))
    (events : List Event) :
    let index := ((Site.mk cache opened).run events).cache.index
    index.nextTicket ≤ events.length ∧ index.evictions ≤ events.length ∧
      index.failedRemovals ≤ events.length := by
  intro index
  have empty : cache.index = {} := (eq_of_openCache opens).2.2.2.2.2
  have drawn := (Site.mk cache opened).nextTicket_run_le events
  obtain ⟨counted, failures, -⟩ := (Site.mk cache opened).accounted_run events
  have adopted := (Site.mk cache opened).tally_adoptions_le events
  have none : (Site.mk cache opened).cache.keys = ∅ := by
    rw [Cache.keys, show (Site.mk cache opened).cache.index = {} from empty]
    rfl
  rw [none, show (Site.mk cache opened).cache.index = {} from empty] at counted failures
  rw [show (Site.mk cache opened).cache.index = {} from empty] at drawn
  change _ ≤ 0 + _ at drawn
  change _ + index.evictions + _ + _ = 0 + 0 + _ at counted
  change index.failedRemovals + _ ≤ 0 + 0 + _ at failures
  refine ⟨by simpa using drawn, ?_, ?_⟩ <;> omega

end DownloadCache
