import DownloadCache.Lookup
import Mathlib.Data.List.Nodup

/-!
# What is listed and what is found

What is found under a key in a list of pairs is a pair of the list (`mem_of_lookup_eq_some`) and, if
no key is listed twice, any pair of it is found (`lookup_eq_some_iff_mem`).
-/

namespace DownloadCache

set_option autoImplicit false

variable {α β : Type} [BEq α] [LawfulBEq α]

/-- What is found is listed. -/
theorem mem_of_lookup_eq_some {pairs : List (α × β)} {key : α} {value : β}
    (found : pairs.lookup key = some value) : (key, value) ∈ pairs := by
  obtain ⟨before, after, rfl, -⟩ := List.lookup_eq_some_iff.mp found
  simp

/-- Under a key under which nothing is found nothing is listed. -/
theorem ne_of_lookup_eq_none {pairs : List (α × β)} {key : α} (absent : pairs.lookup key = none)
    {pair : α × β} (member : pair ∈ pairs) : pair.1 ≠ key := by
  have apart := List.lookup_eq_none_iff.mp absent pair member
  exact fun same => by simp [same] at apart

/-- What is listed is found if no key is listed twice. -/
theorem lookup_eq_some_iff_mem {pairs : List (α × β)} (distinct : (pairs.map (·.1)).Nodup)
    {key : α} {value : β} : pairs.lookup key = some value ↔ (key, value) ∈ pairs := by
  refine ⟨mem_of_lookup_eq_some, fun member => ?_⟩
  obtain ⟨before, after, rfl⟩ := List.append_of_mem member
  refine List.lookup_eq_some_iff.mpr ⟨before, after, rfl, fun pair earlier => ?_⟩
  have apart : key ≠ pair.1 := by
    simp only [List.map_append, List.map_cons] at distinct
    exact fun same => (List.nodup_append.mp distinct).2.2 _ (List.mem_map_of_mem earlier) _
      List.mem_cons_self same.symm
  simpa using apart

/-- The pairs are the one of a key and those of other keys, if no key is listed twice. -/
theorem perm_cons_filter_bne {pairs : List (α × β)} (distinct : (pairs.map (·.1)).Nodup)
    {key : α} {value : β} (member : (key, value) ∈ pairs) :
    pairs.Perm ((key, value) :: pairs.filter fun pair => pair.1 != key) := by
  induction pairs with
  | nil => cases member
  | cons pair rest ih =>
      obtain ⟨absent, distinct⟩ := List.nodup_cons.mp distinct
      rcases List.mem_cons.mp member with rfl | later
      · have others : rest.filter (fun pair => pair.1 != key) = rest := by
          refine List.filter_eq_self.mpr fun other within => ?_
          have apart : other.1 ≠ key := fun same =>
            absent (List.mem_map.mpr ⟨other, within, same⟩)
          simpa using apart
        rw [List.filter_cons_of_neg (by simp), others]
      · have apart : pair.1 ≠ key := fun same =>
          absent (List.mem_map.mpr ⟨_, later, same.symm⟩)
        rw [List.filter_cons_of_pos (by simpa using apart)]
        exact ((ih distinct later).cons pair).trans (.swap ..)

end DownloadCache
