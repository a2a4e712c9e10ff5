/-!
# Looking up in lists of pairs

What is found under a key in a list of pairs when the pairs of a key have been taken away
(`lookup_filter_bne`) and when the values have been changed (`lookup_map_values`).
-/

namespace DownloadCache

set_option autoImplicit false

variable {α β : Type} [BEq α] [LawfulBEq α]

/-- What is found under a key when the pairs of another have been taken away. -/
theorem lookup_filter_bne (pairs : List (α × β)) (removed key : α) :
    (pairs.filter fun pair => pair.1 != removed).lookup key =
      if key == removed then none else pairs.lookup key := by
  induction pairs with
  | nil => simp
  | cons pair rest ih =>
      obtain ⟨first, value⟩ := pair
      by_cases gone : first = removed
      · subst gone
        rw [List.filter_cons_of_neg (by simp), ih, List.lookup_cons]
        cases key == first <;> rfl
      · rw [List.filter_cons_of_pos (by simpa using gone), List.lookup_cons, ih, List.lookup_cons]
        cases same : key == first with
        | false => rfl
        | true =>
            have kept : (key == removed) = false := by
              rw [eq_of_beq same]
              simpa using gone
            simp [kept]

/-- What is found under a key when every value has been changed. -/
theorem lookup_map_values {γ : Type} (change : α → β → γ) (pairs : List (α × β)) (key : α) :
    (pairs.map fun pair => (pair.1, change pair.1 pair.2)).lookup key =
      (pairs.lookup key).map (change key) := by
  induction pairs with
  | nil => rfl
  | cons pair rest ih =>
      obtain ⟨first, value⟩ := pair
      rw [List.map_cons, List.lookup_cons, List.lookup_cons, ih]
      cases same : key == first with
      | false => rfl
      | true => rw [eq_of_beq same]; rfl

end DownloadCache
