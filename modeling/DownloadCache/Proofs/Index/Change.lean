import DownloadCache.Cache.Index
import DownloadCache.Proofs.Lookup
import DownloadCache.Proofs.Path.Name
import Mathlib.Logic.Relation

/-!
# Changes of an index

The index of a cache changes in four ways: an entry is dropped, the counters of evictions and
failed removals are set, a file is entered under a key that has no entry, and an access is
counted.  `Change` lists them with what is known whenever they happen, so that an invariant of the
index is shown once for each of them and not again for each operation of the cache.
-/

namespace DownloadCache.Index

set_option autoImplicit false

/-! ## The changes -/

/-- One change of the index of a cache with a directory and a budget. -/
inductive Change (directory : Path) (maxSize : UInt64) : Index → Index → Prop where
  | drop {index : Index} {key : String} {entry : Entry} (tracked : index.entry? key = some entry) :
      Change directory maxSize index (index.drop key entry)
  | count (index : Index) (evictions failedRemovals : Nat) :
      Change directory maxSize index { index with evictions, failedRemovals }
  /-- A file that fits is entered if there is room for it or nothing else is there. -/
  | insert {index : Index} {key name : String} {size : UInt64} (now : Instant)
      (validators : Validators) (untracked : index.entry? key = none) (legal : IsName name)
      (free : index.owns (directory.child name) = false) (fits : size ≤ maxSize)
      (room : index.entries = [] ∨ saturatingAdd index.usedBytes size ≤ maxSize) :
      Change directory maxSize index
        (index.insert now key (directory.child name) size validators)
  | touch (index : Index) (now : Instant) (key : String) :
      Change directory maxSize index (index.touch now key)

/-- Changes one after the other. -/
abbrev Evolves (directory : Path) (maxSize : UInt64) : Index → Index → Prop :=
  Relation.ReflTransGen (Change directory maxSize)

/-- What every change keeps is kept. -/
theorem Evolves.keeps {directory : Path} {maxSize : UInt64} (holds : Index → Prop)
    (step : ∀ {index later : Index}, Change directory maxSize index later → holds index →
      holds later)
    {index later : Index} (evolves : Evolves directory maxSize index later)
    (start : holds index) : holds later := by
  induction evolves with
  | refl => exact start
  | tail _ change ih => exact step change ih

/-! ## Entries after a drop -/

theorem entry_drop (index : Index) (removed : String) (entry : Entry) (key : String) :
    Index.entry? (index.drop removed entry) key =
      if key = removed then none else index.entry? key := by
  rw [Index.entry?, drop, lookup_filter_bne]
  simp [Index.entry?]

/-- A drop leaves fewer entries. -/
theorem length_entries_drop_lt {index : Index} {key : String} {entry : Entry}
    (tracked : index.entry? key = some entry) :
    (index.drop key entry).entries.length < index.entries.length :=
  List.length_filter_lt_length_iff_exists.mpr
    ⟨_, mem_of_lookup_eq_some tracked, by simp⟩

/-! ## The oldest entry -/

/-- The older of two entries is one of them. -/
theorem older_eq (best candidate : String × Entry) :
    older best candidate = best ∨ older best candidate = candidate := by
  rw [older]
  split
  · exact .inr rfl
  · exact .inl rfl

/-- The oldest of some entries is one of them. -/
theorem foldl_older_mem (first : String × Entry) (others : List (String × Entry)) :
    others.foldl older first ∈ first :: others := by
  induction others generalizing first with
  | nil => simp
  | cons next rest ih =>
      have member := List.mem_cons.mp (ih (older first next))
      rw [List.foldl_cons, List.mem_cons, List.mem_cons]
      rcases older_eq first next with same | same
      · rw [same] at member ⊢
        exact member.imp_right .inr
      · rw [same] at member ⊢
        exact .inr member

/-- There is an oldest key unless there are no entries. -/
theorem oldest?_eq_none_iff {index : Index} : index.oldest? = none ↔ index.entries = [] := by
  rw [oldest?]
  split <;> simp_all

/-- The oldest key has an entry. -/
theorem exists_entry_of_oldest? {index : Index} {key : String}
    (oldest : index.oldest? = some key) : ∃ entry, index.entry? key = some entry := by
  rw [oldest?] at oldest
  split at oldest
  · cases oldest
  · rename_i first others entries
    cases oldest
    have member : others.foldl older first ∈ index.entries := by
      rw [entries]
      exact foldl_older_mem first others
    cases found : index.entry? (others.foldl older first).1 with
    | some entry => exact ⟨entry, rfl⟩
    | none => exact absurd rfl (ne_of_lookup_eq_none found member)

end DownloadCache.Index
