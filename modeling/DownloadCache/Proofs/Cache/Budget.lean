import DownloadCache.Proofs.Cache.Ownership
import DownloadCache.Proofs.Index.Accounting

/-!
# The byte budget

After every run of a cache the word of used bytes is the sum of the sizes of its entries and is
within the budget, if the budget is below the greatest word.  The arithmetic of words is harmless
at every moment at which it is used: where an entry is dropped, where it is decided whether one
more has to be dropped, and where a file is entered (`budget_kept_exactly`).

The moments within an adoption are those after its key and then some of the oldest entries have
been dropped (`stage`); the last of them is the one at which the file is entered.
-/

namespace DownloadCache

set_option autoImplicit false

namespace Site

/-- The site within an adoption, after the key and then at most so many of the oldest entries have
been dropped to make room. -/
def stage (site : Site) (key : String) (size : UInt64) (evictions : Nat) : Site :=
  (site.drop key).makeRoomWithin size evictions

theorem evolves_stage (site : Site) (key : String) (size : UInt64) (evictions : Nat) :
    Evolves site (site.stage key size evictions) :=
  (site.evolves_drop key).trans (evolves_makeRoomWithin _ size evictions)

/-- Whether the arithmetic of words on the bytes of a site with a budget gives what natural
numbers give. -/
structure ExactBytes (maxSize : UInt64) (site : Site) : Prop where
  /-- The word is the sum of the sizes. -/
  sum : site.cache.index.usedBytes.toNat = Index.total site.cache.index.entries
  within : site.cache.index.usedBytes.toNat ≤ maxSize.toNat
  /-- A drop takes a size away and does not stop at zero. -/
  drop : ∀ key entry, site.cache.index.entry? key = some entry →
    entry.size.toNat ≤ site.cache.index.usedBytes.toNat ∧
      (saturatingSub site.cache.index.usedBytes entry.size).toNat =
        site.cache.index.usedBytes.toNat - entry.size.toNat
  /-- Stopping at the greatest word decides as the sum of natural numbers does. -/
  room : ∀ size : UInt64, site.lacksRoom size = true ↔
    maxSize.toNat < site.cache.index.usedBytes.toNat + size.toNat

/-- A site whose cache has a directory and a budget below the greatest word, and whose index is
paired and balanced. -/
structure Sound (site : Site) : Prop where
  filled : site.cache.directory.text ≠ ""
  below : site.cache.maxSize < 0xffffffffffffffff
  paired : site.cache.index.Paired site.cache.directory
  balanced : site.cache.index.Balanced site.cache.maxSize

variable {site later : Site}

/-- Every evolution keeps a site sound. -/
theorem Sound.evolves (sound : Sound site) (evolves : Evolves site later) : Sound later := by
  have both : later.cache.index.Paired site.cache.directory ∧
      later.cache.index.Balanced site.cache.maxSize := by
    refine evolves.index.keeps
      (fun index => index.Paired site.cache.directory ∧ index.Balanced site.cache.maxSize)
      (fun change both => ?_) ⟨sound.paired, sound.balanced⟩
    exact ⟨both.1.change change, both.2.change sound.below change both.1⟩
  refine ⟨evolves.directory ▸ sound.filled, evolves.maxSize ▸ sound.below, ?_, ?_⟩
  · rw [evolves.directory]
    exact both.1
  · rw [evolves.maxSize]
    exact both.2

theorem Sound.drop (sound : Sound site) (key : String) : Sound (site.drop key) :=
  sound.evolves (site.evolves_drop key)

theorem Sound.stage (sound : Sound site) (key : String) (size : UInt64) (evictions : Nat) :
    Sound (site.stage key size evictions) :=
  sound.evolves (site.evolves_stage key size evictions)

/-- Stopping at the greatest word decides as the sum of the sizes does. -/
theorem Sound.lacksRoom_iff (sound : Sound site) (size : UInt64) :
    site.lacksRoom size = true ↔
      site.cache.maxSize.toNat < site.cache.index.usedBytes.toNat + size.toNat := by
  rw [lacksRoom, decide_eq_true_iff]
  exact Index.maxSize_lt_saturatingAdd_iff sound.below _ size

/-- The arithmetic of words is exact on a sound site. -/
theorem Sound.exactBytes (sound : Sound site) : site.ExactBytes site.cache.maxSize where
  sum := sound.balanced.exact
  within := UInt64.le_iff_toNat_le.mp sound.balanced.within
  drop _ _ tracked :=
    ⟨UInt64.le_iff_toNat_le.mp (sound.balanced.size_le sound.paired tracked),
      toNat_saturatingSub _ _⟩
  room := sound.lacksRoom_iff

/-- When room has been made for a file, the sum with its size is within the budget. -/
theorem Sound.used_add_le (sound : Sound site) {size : UInt64}
    (fits : size ≤ site.cache.maxSize) :
    (site.makeRoom size).cache.index.usedBytes.toNat + size.toNat ≤ site.cache.maxSize.toNat := by
  have evolves := site.evolves_makeRoom size
  have made := sound.evolves evolves
  rw [← evolves.maxSize] at fits ⊢
  refine made.balanced.used_add_le made.below fits ?_
  refine (site.entries_eq_nil_or_room size).imp_right fun enough => UInt64.not_lt.mp ?_
  simpa [lacksRoom] using enough

end Site

/-! ## Runs -/

section Runs

variable {files opened : FileSystem} {directory : Path} {maxSize : UInt64} {verifySize : Bool}
  {cache : Cache}
  (opens : files.openCache directory maxSize verifySize = (.ok cache, opened))
  (below : maxSize < 0xffffffffffffffff)

include opens below

/-- A site with a cache that has just been opened is sound. -/
theorem sound_of_openCache : (Site.mk cache opened).Sound := by
  obtain ⟨-, -, -, budget, -, empty⟩ := eq_of_openCache opens
  refine ⟨directory_ne_empty_of_openCache opens, budget ▸ below, ?_, ?_⟩
  · exact empty ▸ Index.paired_empty cache.directory
  · exact empty ▸ Index.balanced_empty cache.maxSize

/-- It stays sound. -/
theorem sound_run (events : List Event) : ((Site.mk cache opened).run events).Sound :=
  (sound_of_openCache opens below).evolves
    (Site.evolves_run (directory_ne_empty_of_openCache opens) events)

omit below in
/-- The budget is the one that was asked for. -/
theorem maxSize_run (events : List Event) :
    ((Site.mk cache opened).run events).cache.maxSize = maxSize := by
  obtain ⟨-, -, -, budget, -⟩ := eq_of_openCache opens
  exact (Site.evolves_run (directory_ne_empty_of_openCache opens) events).maxSize.trans budget

/-- **The budget is kept and the account is exact.**  After every run the used bytes are the sum
of the sizes of the entries and within the budget, and the same is true at every moment within an
adoption.  At all these moments a drop takes away the size of the entry, and whether a file of any
size lacks room is decided as over natural numbers.  Where a file that fits is entered, the sum
with its size is within the budget and the word does not wrap. -/
theorem budget_kept_exactly (events : List Event) :
    let site := (Site.mk cache opened).run events
    site.ExactBytes maxSize ∧
      (∀ key size evictions, (site.stage key size evictions).ExactBytes maxSize) ∧
      ∀ key size, size ≤ maxSize →
        let used := ((site.drop key).makeRoom size).cache.index.usedBytes
        used.toNat + size.toNat ≤ maxSize.toNat ∧
          (used + size).toNat = used.toNat + size.toNat := by
  intro site
  have sound : site.Sound := sound_run opens below events
  have budget : site.cache.maxSize = maxSize := maxSize_run opens events
  refine ⟨budget ▸ sound.exactBytes, ?_, ?_⟩
  · intro key size evictions
    have staged := (sound.stage key size evictions).exactBytes
    rwa [(site.evolves_stage key size evictions).maxSize, budget] at staged
  · intro key size fits used
    have dropped := (site.evolves_drop key).maxSize.trans budget
    have enough := (sound.drop key).used_add_le (dropped ▸ fits)
    rw [dropped] at enough
    refine ⟨enough, ?_⟩
    rw [UInt64.toNat_add]
    exact Nat.mod_eq_of_lt (Nat.lt_of_le_of_lt enough maxSize.toNat_lt)

end Runs

/-- Near the greatest word, a file of a few more bytes is seen to lack room. -/
theorem budget_kept_exactly_near_greatest_word :
    let disk := FileSystem.empty.create ["c"] .directory
    let site := (Site.mk ⟨⟨"/c"⟩, 0xfffffffffffffffe, false, {}⟩ disk).run
      [.outside (disk.create ["f"] (.file [1])), .add 0 "a" ⟨"/f"⟩ 0xfffffffffffffff0 {}]
    FileSystem.empty.openCache ⟨"/c"⟩ 0xfffffffffffffffe false =
        (.ok ⟨⟨"/c"⟩, 0xfffffffffffffffe, false, {}⟩, disk) ∧
      (0xfffffffffffffffe : UInt64) < 0xffffffffffffffff ∧
      site.cache.index.usedBytes = 0xfffffffffffffff0 ∧ site.ExactBytes 0xfffffffffffffffe ∧
      site.lacksRoom 0x20 = true := by
  intro disk site
  have opens : FileSystem.empty.openCache ⟨"/c"⟩ 0xfffffffffffffffe false =
      (.ok ⟨⟨"/c"⟩, 0xfffffffffffffffe, false, {}⟩, disk) := by decide +kernel
  have below : (0xfffffffffffffffe : UInt64) < 0xffffffffffffffff := by decide
  have used : site.cache.index.usedBytes = 0xfffffffffffffff0 := by decide +kernel
  have exactBytes : site.ExactBytes 0xfffffffffffffffe := (budget_kept_exactly opens below _).1
  refine ⟨opens, below, used, exactBytes, (exactBytes.room 0x20).mpr ?_⟩
  rw [used]
  decide

end DownloadCache
