import DownloadCache.Path
import DownloadCache.Validators

/-!
# Shelves

What a cache is to do, said without a clock, without tickets and without a file system.  A shelf is
a row of items in the order of their last accesses, the least recent one first.  An access moves an
item to the end.  Adoption removes the item of the key; if the file is wanted at all, it drops the
shortest prefix of the row after which the file fits (`surplus`), and if the file could be moved,
an item is put at the end.

What only the file system knows about an adoption is given as a verdict.
-/

namespace DownloadCache

set_option autoImplicit false

/-- What is known about an adopted file. -/
structure Item where
  key : String
  path : Path
  size : UInt64
  validators : Validators
deriving DecidableEq

/-- A row of items, the least recently accessed one first. -/
structure Shelf where
  items : List Item := []
  /-- How many items were dropped to make room. -/
  dropped : Nat := 0
deriving DecidableEq

/-- What the file system says about a file that is to be adopted. -/
structure Verdict where
  /-- Whether the file passes the check of its length. -/
  passes : Bool
  /-- Where the file is after it has been moved, if it could be moved. -/
  placed : Option Path
deriving DecidableEq

/-- What is asked of a shelf. -/
inductive Request where
  | add (key : String) (staging : Path) (size : UInt64) (validators : Validators)
      (verdict : Verdict)
  | touch (key : String)
  | remove (key : String)
  /-- Something that is of no concern to the shelf. -/
  | other

namespace Shelf

/-! ## Sizes -/

/-- The sum of the sizes of items. -/
def total (items : List Item) : Nat :=
  items.foldr (fun item sum => item.size.toNat + sum) 0

/-- The length of the shortest prefix after which a file of a size fits, or of the whole row. -/
def surplus (items : List Item) (maxSize size : UInt64) : Nat :=
  let enough := (List.range items.length).find? fun count =>
    total (items.drop count) + size.toNat ≤ maxSize.toNat
  enough.getD items.length

/-! ## Operations -/

/-- The item of a key. -/
def item? (shelf : Shelf) (key : String) : Option Item :=
  shelf.items.find? (·.key == key)

/-- The shelf without the item of a key. -/
def remove (shelf : Shelf) (key : String) : Shelf :=
  { shelf with items := shelf.items.filter (·.key != key) }

/-- The shelf with the item of a key moved to the end. -/
def touch (shelf : Shelf) (key : String) : Shelf :=
  { shelf with items := (shelf.remove key).items ++ (shelf.item? key).toList }

/-- The shelf without so many of the least recently accessed items. -/
def dropFirst (shelf : Shelf) (count : Nat) : Shelf :=
  ⟨shelf.items.drop count, shelf.dropped + count⟩

/-- The shelf without its surplus. -/
def makeRoom (shelf : Shelf) (maxSize size : UInt64) : Shelf :=
  shelf.dropFirst (surplus shelf.items maxSize size)

/-- The shelf with an item at the end for a file that has been moved. -/
def place (shelf : Shelf) (key : String) (size : UInt64) (validators : Validators) :
    Option Path → Shelf
  | none => shelf
  | some path => { shelf with items := shelf.items ++ [⟨key, path, size, validators⟩] }

/-- The shelf after an adoption. -/
def add (shelf : Shelf) (maxSize : UInt64) (key : String) (staging : Path) (size : UInt64)
    (validators : Validators) (verdict : Verdict) : Shelf :=
  let without := shelf.remove key
  if size > maxSize ∨ staging.fileName? = none ∨ verdict.passes = false then without
  else (without.makeRoom maxSize size).place key size validators verdict.placed

/-- The shelf after a request. -/
def after (maxSize : UInt64) (shelf : Shelf) : Request → Shelf
  | .add key staging size validators verdict =>
      shelf.add maxSize key staging size validators verdict
  | .touch key => shelf.touch key
  | .remove key => shelf.remove key
  | .other => shelf

/-- The shelf after requests, one after the other. -/
def run (maxSize : UInt64) (shelf : Shelf) (requests : List Request) : Shelf :=
  requests.foldl (after maxSize) shelf

/-- Removing the key of the first item leaves the others, if no key has two items. -/
theorem remove_first {shelf : Shelf} {first : Item} {others : List Item}
    (distinct : (shelf.items.map (·.key)).Nodup) (items : shelf.items = first :: others) :
    shelf.remove first.key = { shelf with items := others } := by
  rw [items, List.map_cons, List.nodup_cons] at distinct
  have kept : others.filter (·.key != first.key) = others := by
    refine List.filter_eq_self.mpr fun item member => ?_
    have apart : item.key ≠ first.key := fun same =>
      distinct.1 (List.mem_map.mpr ⟨item, member, same⟩)
    simpa using apart
  rw [remove, items, List.filter_cons_of_neg (by simp), kept]

/-- An access to a key that has no item changes nothing. -/
theorem touch_of_untracked {shelf : Shelf} {key : String} (untracked : shelf.item? key = none) :
    shelf.touch key = shelf := by
  have kept : shelf.items.filter (·.key != key) = shelf.items := by
    refine List.filter_eq_self.mpr fun item member => ?_
    simpa using List.find?_eq_none.mp untracked item member
  rw [touch, remove, untracked, kept, Option.toList_none, List.append_nil]

/-- An access to the key of the last item changes nothing, if no other item has the key. -/
theorem touch_of_last {shelf : Shelf} {item : Item} {others : List Item}
    (items : shelf.items = others ++ [item]) (absent : ∀ other ∈ others, other.key ≠ item.key) :
    shelf.touch item.key = shelf := by
  have kept : others.filter (·.key != item.key) = others :=
    List.filter_eq_self.mpr fun other member => by simpa using absent other member
  have missing : others.find? (·.key == item.key) = none :=
    List.find?_eq_none.mpr fun other member => by simpa using absent other member
  have found : shelf.item? item.key = some item := by
    rw [item?, items, List.find?_append, missing]
    simp
  have removed : (shelf.remove item.key).items = others := by
    simp [remove, items, List.filter_append, kept]
  rw [touch, removed, found, Option.toList_some, ← items]

/-- No item of a key is left after it has been removed. -/
theorem key_ne_of_mem_remove {shelf : Shelf} {key : String} {item : Item}
    (member : item ∈ (shelf.remove key).items) : item.key ≠ key := by
  simpa using (List.mem_filter.mp member).2

/-- A second access to a key changes nothing. -/
theorem touch_touch (shelf : Shelf) (key : String) :
    (shelf.touch key).touch key = shelf.touch key := by
  cases found : shelf.item? key with
  | none => rw [touch_of_untracked found, touch_of_untracked found]
  | some item =>
      obtain rfl : item.key = key := by simpa using List.find?_some found
      have items : (shelf.touch item.key).items = (shelf.remove item.key).items ++ [item] := by
        rw [touch, found, Option.toList_some]
      exact touch_of_last items fun other member => key_ne_of_mem_remove member

/-! ## The surplus -/

theorem surplus_le (items : List Item) (maxSize size : UInt64) :
    surplus items maxSize size ≤ items.length := by
  rw [surplus]
  cases found : (List.range items.length).find? fun count =>
      total (items.drop count) + size.toNat ≤ maxSize.toNat with
  | none => exact Nat.le_refl _
  | some count => exact Nat.le_of_lt (List.mem_range.mp (List.mem_of_find?_eq_some found))

@[simp]
theorem surplus_nil (maxSize size : UInt64) : surplus [] maxSize size = 0 :=
  rfl

/-- Nothing is dropped where the file fits, and else the first item and the surplus of the rest. -/
theorem surplus_cons (item : Item) (items : List Item) (maxSize size : UInt64) :
    surplus (item :: items) maxSize size =
      if total (item :: items) + size.toNat ≤ maxSize.toNat then 0
      else surplus items maxSize size + 1 := by
  rw [surplus, List.length_cons, List.range_succ_eq_map, List.find?_cons, List.drop_zero]
  split
  · rename_i fits
    rw [if_pos (of_decide_eq_true fits), Option.getD_some]
  · rename_i lacks
    rw [if_neg (of_decide_eq_false lacks), List.find?_map, surplus]
    simp only [Function.comp_def, List.drop_succ_cons, Nat.succ_eq_add_one]
    cases (List.range items.length).find? _ <;> rfl

/-- A file that is not larger than the budget fits after the surplus has been dropped, and after
no shorter prefix. -/
theorem surplus_spec (items : List Item) {maxSize size : UInt64} (fits : size ≤ maxSize) :
    total (items.drop (surplus items maxSize size)) + size.toNat ≤ maxSize.toNat ∧
      ∀ count < surplus items maxSize size,
        maxSize.toNat < total (items.drop count) + size.toNat := by
  induction items with
  | nil => exact ⟨by simpa [total] using UInt64.le_iff_toNat_le.mp fits, nofun⟩
  | cons item items ih =>
      rw [surplus_cons]
      split
      · rename_i enough
        exact ⟨enough, nofun⟩
      · rename_i lacks
        refine ⟨ih.1, fun count below => ?_⟩
        cases count with
        | zero => exact Nat.not_le.mp lacks
        | succ count => exact ih.2 count (Nat.lt_of_succ_lt_succ below)

end Shelf

end DownloadCache
