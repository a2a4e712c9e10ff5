import DownloadCache.Path
import DownloadCache.Validators

/-!
# The index

What the cache knows: its entries by key, and the keys by the paths of their files.  The second
map answers whether a file is owned by an entry; the two are kept in step.  It lists a path by its
components, so that all spellings of one path are one.

Entries are ordered by recency: the clock reading of the last access, and among accesses on one
reading the ticket that was drawn for it.  Tickets are drawn in rising order and never twice, so
of two entries one is always older.  The order in which entries are listed never matters.

The sizes of the entries are summed in a word of 64 bits that stops at its limits.  Tickets and
counters are natural numbers, though a running cache keeps them in words of 64 bits as well: none of
them exceeds the number of operations (`counters_le_length`), so no run is long enough to tell.
-/

namespace DownloadCache

set_option autoImplicit false

/-! ## Entries -/

/-- A reading of the clock, which never goes backwards. -/
abbrev Instant := Nat

/-- What is known about an adopted file. -/
structure Entry where
  /-- Where the file is. -/
  path : Path
  /-- The size that was reported when the file was adopted. -/
  size : UInt64
  /-- The clock reading of the last access. -/
  accessed : Instant
  /-- The ticket of the last access. -/
  ticket : Nat
  validators : Validators
deriving DecidableEq

/-- Whether an entry was accessed before another one. -/
def Entry.olderThan (entry other : Entry) : Bool :=
  entry.accessed < other.accessed ||
    (entry.accessed == other.accessed && entry.ticket < other.ticket)

/-! ## Words that stop at their limits -/

/-- The sum of two words, or the greatest word. -/
def saturatingAdd (value other : UInt64) : UInt64 :=
  if value + other < value then 0xffffffffffffffff else value + other

/-- The difference of two words, or zero. -/
def saturatingSub (value other : UInt64) : UInt64 :=
  if value < other then 0 else value - other

/-- In the range of words the sum is exact. -/
theorem toNat_saturatingAdd (value other : UInt64) :
    (saturatingAdd value other).toNat = min (value.toNat + other.toNat) 18446744073709551615 := by
  have first := value.toNat_lt
  have second := other.toNat_lt
  unfold saturatingAdd
  split
  · rename_i wraps
    rw [UInt64.lt_iff_toNat_lt, UInt64.toNat_add] at wraps
    have greatest : (0xffffffffffffffff : UInt64).toNat = 18446744073709551615 := rfl
    omega
  · rename_i fits
    rw [UInt64.lt_iff_toNat_lt, UInt64.toNat_add] at fits
    rw [UInt64.toNat_add]
    omega

/-- The difference is that of natural numbers. -/
theorem toNat_saturatingSub (value other : UInt64) :
    (saturatingSub value other).toNat = value.toNat - other.toNat := by
  unfold saturatingSub
  split
  · rename_i below
    rw [UInt64.lt_iff_toNat_lt] at below
    have zero : (0 : UInt64).toNat = 0 := rfl
    omega
  · rename_i enough
    rw [UInt64.lt_iff_toNat_lt] at enough
    rw [UInt64.toNat_sub_of_le _ _ (UInt64.le_iff_toNat_le.2 (by omega))]

/-! ## The index -/

/-- What the cache knows. -/
structure Index where
  entries : List (String × Entry) := []
  /-- The key that owns each path. -/
  owners : List (List Component × String) := []
  usedBytes : UInt64 := 0
  nextTicket : Nat := 0
  /-- How many entries were dropped to make room. -/
  evictions : Nat := 0
  /-- How many files of dropped entries could not be removed. -/
  failedRemovals : Nat := 0
deriving DecidableEq

namespace Index

/-- The entry of a key. -/
def entry? (index : Index) (key : String) : Option Entry :=
  index.entries.lookup key

/-- Whether an entry owns a path, however it is spelled. -/
def owns (index : Index) (path : Path) : Bool :=
  (index.owners.lookup path.components).isSome

/-- The index without the entry of a key; `entry` is that entry. -/
def drop (index : Index) (key : String) (entry : Entry) : Index :=
  let owned := entry.path.components
  { index with
    entries := index.entries.filter fun listed => listed.1 != key
    owners := index.owners.filter fun owner => owner.1 != owned
    usedBytes := saturatingSub index.usedBytes entry.size }

/-- The index with a new entry for a key that has none, accessed now. -/
def insert (index : Index) (now : Instant) (key : String) (path : Path) (size : UInt64)
    (validators : Validators) : Index :=
  { index with
    entries := (key, ⟨path, size, now, index.nextTicket, validators⟩) :: index.entries
    owners := (path.components, key) :: index.owners
    usedBytes := index.usedBytes + size
    nextTicket := index.nextTicket + 1 }

/-- The index after an access to a key; a ticket is drawn even if the key has no entry. -/
def touch (index : Index) (now : Instant) (key : String) : Index :=
  { index with
    entries := index.entries.map fun (listed, entry) =>
      if listed = key then (listed, { entry with accessed := now, ticket := index.nextTicket })
      else (listed, entry)
    nextTicket := index.nextTicket + 1 }

/-- The older of two entries with their keys. -/
def older (best candidate : String × Entry) : String × Entry :=
  if candidate.2.olderThan best.2 then candidate else best

/-- The key of the entry that was accessed least recently. -/
def oldest? (index : Index) : Option String :=
  match index.entries with
  | [] => none
  | first :: others => some (others.foldl older first).1

end Index

end DownloadCache
