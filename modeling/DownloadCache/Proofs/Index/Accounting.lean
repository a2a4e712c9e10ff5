import DownloadCache.Proofs.Index.Pairing

/-!
# The account of bytes

The index keeps the sum of the sizes of its entries in a word.  In a balanced index the word is
that sum, taken over natural numbers, and within the budget (`Balanced`).  So the difference that
a drop takes is exact (`Balanced.size_le`), and so is the sum that is taken when a file is entered
for which there is room (`Balanced.used_add_le`).

If the budget is below the greatest word, the sum that stops at the limit is over the budget
exactly when the sum of natural numbers is (`maxSize_lt_saturatingAdd_iff`).  Every change of the
index keeps it balanced (`Balanced.change`).
-/

namespace DownloadCache.Index

set_option autoImplicit false

/-! ## The sum of sizes -/

/-- The sum of the sizes of entries. -/
def total (entries : List (String × Entry)) : Nat :=
  entries.foldr (fun pair sum => pair.2.size.toNat + sum) 0

@[simp]
theorem total_nil : total [] = 0 := rfl

@[simp]
theorem total_cons (pair : String × Entry) (rest : List (String × Entry)) :
    total (pair :: rest) = pair.2.size.toNat + total rest := rfl

/-- The order of entries does not matter. -/
theorem total_perm {entries other : List (String × Entry)} (perm : entries.Perm other) :
    total entries = total other := by
  refine perm.foldr_eq' (fun first _ second _ sum => ?_) 0
  omega

/-! ## Words -/

/-- Below the greatest word, stopping at the limit does not hide that a budget is exceeded. -/
theorem maxSize_lt_saturatingAdd_iff {maxSize : UInt64} (below : maxSize < 0xffffffffffffffff)
    (used size : UInt64) :
    maxSize < saturatingAdd used size ↔ maxSize.toNat < used.toNat + size.toNat := by
  rw [UInt64.lt_iff_toNat_lt] at below ⊢
  have greatest : (0xffffffffffffffff : UInt64).toNat = 18446744073709551615 := rfl
  rw [toNat_saturatingAdd]
  omega

/-! ## Balance -/

/-- The word is the sum of the sizes of the entries, and is within the budget. -/
structure Balanced (maxSize : UInt64) (index : Index) : Prop where
  exact : index.usedBytes.toNat = total index.entries
  within : index.usedBytes ≤ maxSize

variable {directory : Path} {maxSize : UInt64} {index later : Index}

theorem balanced_empty (maxSize : UInt64) : Balanced maxSize {} where
  exact := rfl
  within := UInt64.zero_le

/-- The sum without an entry that is dropped. -/
theorem total_drop_add (paired : Paired directory index) {key : String} {entry : Entry}
    (tracked : index.entry? key = some entry) :
    total (index.drop key entry).entries + entry.size.toNat = total index.entries := by
  rw [total_perm (perm_cons_filter_bne paired.distinct (mem_of_lookup_eq_some tracked)),
    total_cons, Nat.add_comm]
  rfl

/-- A size of an entry is never more than the sum. -/
theorem Balanced.size_le (balanced : Balanced maxSize index) (paired : Paired directory index)
    {key : String} {entry : Entry} (tracked : index.entry? key = some entry) :
    entry.size ≤ index.usedBytes := by
  have sum := total_drop_add paired tracked
  rw [UInt64.le_iff_toNat_le, balanced.exact]
  omega

theorem Balanced.drop (balanced : Balanced maxSize index) (paired : Paired directory index)
    {key : String} {entry : Entry} (tracked : index.entry? key = some entry) :
    Balanced maxSize (index.drop key entry) := by
  have sum := total_drop_add paired tracked
  have used := balanced.exact
  have within := UInt64.le_iff_toNat_le.mp balanced.within
  have difference : (index.drop key entry).usedBytes.toNat =
      index.usedBytes.toNat - entry.size.toNat := toNat_saturatingSub _ _
  refine ⟨by omega, UInt64.le_iff_toNat_le.mpr (by omega)⟩

/-- Where there is room for a file, the sum with its size is within the budget. -/
theorem Balanced.used_add_le (balanced : Balanced maxSize index)
    (below : maxSize < 0xffffffffffffffff) {size : UInt64} (fits : size ≤ maxSize)
    (room : index.entries = [] ∨ saturatingAdd index.usedBytes size ≤ maxSize) :
    index.usedBytes.toNat + size.toNat ≤ maxSize.toNat := by
  rcases room with none | enough
  · have used := balanced.exact
    rw [none, total_nil] at used
    rw [UInt64.le_iff_toNat_le] at fits
    omega
  · exact Nat.not_lt.mp (mt (maxSize_lt_saturatingAdd_iff below _ _).mpr (UInt64.not_lt.mpr enough))

theorem Balanced.insert (balanced : Balanced maxSize index) {size : UInt64}
    (room : index.usedBytes.toNat + size.toNat ≤ maxSize.toNat) (now : Instant) (key : String)
    (path : Path) (validators : Validators) :
    Balanced maxSize (index.insert now key path size validators) := by
  have bound := maxSize.toNat_lt
  have sum : (index.insert now key path size validators).usedBytes.toNat =
      index.usedBytes.toNat + size.toNat := by
    rw [Index.insert, UInt64.toNat_add]
    omega
  refine ⟨?_, UInt64.le_iff_toNat_le.mpr (by omega)⟩
  rw [sum, balanced.exact, Index.insert, total_cons, Nat.add_comm]

theorem Balanced.touch (balanced : Balanced maxSize index) (now : Instant) (key : String) :
    Balanced maxSize (index.touch now key) := by
  refine ⟨?_, balanced.within⟩
  have same : total (index.touch now key).entries = total index.entries := by
    rw [entries_touch, total, total, List.foldr_map]
    congr 1
    funext pair sum
    rw [(index.accessed_keeps now key pair.1 pair.2).2.1]
  rw [same]
  exact balanced.exact

/-- **Every change of a paired index keeps it balanced.** -/
theorem Balanced.change (below : maxSize < 0xffffffffffffffff)
    (change : Change directory maxSize index later) (paired : Paired directory index)
    (balanced : Balanced maxSize index) : Balanced maxSize later := by
  cases change with
  | drop tracked => exact balanced.drop paired tracked
  | count evictions failedRemovals => exact ⟨balanced.exact, balanced.within⟩
  | insert now validators untracked legal free fits room =>
      exact balanced.insert (balanced.used_add_le below fits room) now _ _ validators
  | touch now key => exact balanced.touch now key

end DownloadCache.Index
