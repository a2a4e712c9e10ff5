import DownloadCache.FileSystem.Removal
import DownloadCache.Proofs.FileSystem.Shrinking
import Mathlib.Data.List.TakeWhile

/-!
# Emptying a directory

A directory is emptied by deleting what lies below it one by one.  All of it is listed
(`mem_inward`), what a directory holds before the directory (`mem_of_inward_eq`).  The deletions
go on to the first object that is held, so what is deleted below a directory is deleted before it
(`mem_deletions_of_isBelow`): no deletion takes away more than one object, and what is missing when
they have come to an end is just what has been deleted (`object?_emptied`).  If nothing is held, that
is all that lay below (`deletions_of_free`), and nothing is left (`names_emptied`).

What is released can be removed with all that lies below it (`releases`).  That depends on nothing
but the tree there, the locks and the directory that holds it (`releases_congr`), and what is not
released is not released later either, when a part of it has been deleted (`releases_of_deletions`).
-/

namespace DownloadCache

set_option autoImplicit false

/-! ## What is within a tree -/

namespace Tree

mutual

/-- What is listed as within a tree goes on from the top of the tree by a name. -/
theorem exists_eq_of_mem_within (tree : Tree) (above : Location) {location : Location}
    (listed : location ∈ (tree.within above).map (·.1)) :
    ∃ front name, location = front ++ name :: above := by
  obtain ⟨object, children⟩ := tree
  rw [within] at listed
  exact exists_eq_of_mem_withinAll children above listed

theorem exists_eq_of_mem_withinAll (children : List (String × Tree)) (above : Location)
    {location : Location} (listed : location ∈ (withinAll above children).map (·.1)) :
    ∃ front name, location = front ++ name :: above := by
  match children with
  | [] => exact absurd listed List.not_mem_nil
  | (name, tree) :: rest =>
      rw [withinAll, List.map_append, List.map_cons, List.mem_append, List.mem_cons] at listed
      rcases listed with inside | rfl | others
      · obtain ⟨front, next, same⟩ := exists_eq_of_mem_within tree (name :: above) inside
        exact ⟨front ++ [next], name, by rw [same]; simp⟩
      · exact ⟨[], name, rfl⟩
      · exact exists_eq_of_mem_withinAll rest above others

end

mutual

/-- What is found strictly within a tree is listed. -/
theorem mem_within (tree : Tree) (above : Location) {front : Location} (below : front ≠ [])
    (there : (tree.find? front).isSome) : front ++ above ∈ (tree.within above).map (·.1) := by
  obtain ⟨object, children⟩ := tree
  obtain ⟨front, name, rfl⟩ := (List.eq_nil_or_concat front).resolve_left below
  rw [List.concat_eq_append, find?_append] at there
  rw [within, List.concat_eq_append, List.append_assoc]
  exact mem_withinAll children above there

theorem mem_withinAll (children : List (String × Tree)) (above : Location) {front : Location}
    {name : String} (there : ((children.lookup name).bind (·.find? front)).isSome) :
    front ++ name :: above ∈ (withinAll above children).map (·.1) := by
  match children with
  | [] => cases there
  | (first, tree) :: rest =>
      rw [withinAll, List.map_append, List.map_cons, List.mem_append, List.mem_cons]
      rw [List.lookup_cons] at there
      by_cases same : name = first
      · subst same
        rw [beq_self_eq_true] at there
        by_cases top : front = []
        · exact .inr (.inl (by rw [top]; rfl))
        · exact .inl (mem_within tree (name :: above) top there)
      · rw [beq_eq_false_iff_ne.mpr same] at there
        exact .inr (.inr (mem_withinAll rest above there))

end

/-- What goes on by one name does not go on by another. -/
theorem eq_of_append_cons_eq {front other above : Location} {name next : String}
    (same : front ++ name :: above = other ++ next :: above) : name = next :=
  (List.cons.inj (List.append_inj' same (by simp)).2).1

mutual

/-- What is found strictly below something is listed before it. -/
theorem mem_of_within_eq (tree : Tree) (above : Location) {first rest : List Location}
    {front below : Location}
    (listed : (tree.within above).map (·.1) = first ++ (front ++ above) :: rest)
    (strictly : below ≠ []) (there : (tree.find? (below ++ front)).isSome) :
    below ++ (front ++ above) ∈ first := by
  have member : front ++ above ∈ (tree.within above).map (·.1) := by simp [listed]
  obtain ⟨other, name, same⟩ := exists_eq_of_mem_within tree above member
  obtain rfl : front = other ++ [name] := List.append_cancel_right (same.trans (by simp))
  obtain ⟨object, children⟩ := tree
  rw [← List.append_assoc, find?_append] at there
  rw [within, List.append_assoc] at listed
  rw [List.append_assoc]
  exact mem_of_withinAll_eq children above listed strictly there

theorem mem_of_withinAll_eq (children : List (String × Tree)) (above : Location)
    {first rest : List Location} {front below : Location} {name : String}
    (listed : (withinAll above children).map (·.1) = first ++ (front ++ name :: above) :: rest)
    (strictly : below ≠ [])
    (there : ((children.lookup name).bind (·.find? (below ++ front))).isSome) :
    below ++ (front ++ name :: above) ∈ first := by
  match children with
  | [] => exact absurd listed (by simp [withinAll])
  | (next, tree) :: others =>
      rw [withinAll, List.map_append, List.map_cons, List.append_eq_append_iff] at listed
      rw [List.lookup_cons] at there
      by_cases same : name = next
      · subst same
        rw [beq_self_eq_true] at there
        have inside := mem_within tree (name :: above) (by simp [strictly]) there
        rw [List.append_assoc] at inside
        rcases listed with ⟨more, rfl, -⟩ | ⟨more, listed, onward⟩
        · exact List.mem_append_left _ inside
        · cases more with
          | nil => rwa [← List.append_nil first, ← listed]
          | cons head more =>
              obtain ⟨rfl, -⟩ := List.cons.inj onward
              exact mem_of_within_eq tree (name :: above) listed strictly there
      · rw [beq_eq_false_iff_ne.mpr same] at there
        rcases listed with ⟨more, rfl, onward⟩ | ⟨more, listed, onward⟩
        · cases more with
          | nil =>
              have goes : front ++ name :: above = [] ++ next :: above :=
                (List.cons.inj onward).1.symm
              exact absurd (eq_of_append_cons_eq goes) same
          | cons head more =>
              have before := mem_of_withinAll_eq others above (List.cons.inj onward).2 strictly there
              exact List.mem_append_right _ (List.mem_cons_of_mem _ before)
        · cases more with
          | nil =>
              have goes : front ++ name :: above = [] ++ next :: above := (List.cons.inj onward).1
              exact absurd (eq_of_append_cons_eq goes) same
          | cons head more =>
              obtain ⟨rfl, -⟩ := List.cons.inj onward
              have member : front ++ name :: above ∈ (tree.within (next :: above)).map (·.1) := by
                simp [listed]
              obtain ⟨other, last, goes⟩ := exists_eq_of_mem_within tree (next :: above) member
              exact absurd (eq_of_append_cons_eq (goes.trans (List.append_cons ..))) same

end

end Tree

namespace FileSystem

variable {files : FileSystem} {directory location other : Location}

/-! ## What lies below a directory -/

/-- What is listed is what is within the tree that is found. -/
theorem inward_of_find? {tree : Tree} (found : files.root.find? directory = some tree) :
    files.inward directory = ((tree.within []).map (·.1)).map (· ++ directory) := by
  rw [inward, below, found, List.map_map]
  rfl

/-- What is listed lies strictly below the directory. -/
theorem isBelow_of_mem_inward (listed : location ∈ files.inward directory) :
    location.isBelow directory = true := by
  cases found : files.root.find? directory with
  | none => simp [inward, below, found] at listed
  | some tree =>
      rw [inward_of_find? found] at listed
      obtain ⟨front, member, rfl⟩ := List.mem_map.mp listed
      obtain ⟨rest, name, rfl⟩ := tree.exists_eq_of_mem_within [] member
      exact isBelow_iff.mpr ⟨_, by simp, rfl⟩

/-- What is found strictly below a directory is listed. -/
theorem mem_inward (below : location.isBelow directory = true)
    (there : (files.object? location).isSome) : location ∈ files.inward directory := by
  obtain ⟨front, strictly, rfl⟩ := isBelow_iff.mp below
  rw [object?, Option.isSome_map, Tree.find?_append] at there
  cases found : files.root.find? directory with
  | none => simp [found] at there
  | some tree =>
      rw [found, Option.bind_some] at there
      have member := tree.mem_within [] strictly there
      rw [List.append_nil] at member
      rw [inward_of_find? found]
      exact List.mem_map_of_mem member

/-- **What lies below something is listed before it.** -/
theorem mem_of_inward_eq {first rest : List Location}
    (listed : files.inward directory = first ++ location :: rest)
    (below : other.isBelow location = true) (there : (files.object? other).isSome) :
    other ∈ first := by
  obtain ⟨deep, strictly, rfl⟩ := isBelow_iff.mp below
  cases found : files.root.find? directory with
  | none => simp [inward, FileSystem.below, found] at listed
  | some tree =>
      rw [inward_of_find? found] at listed
      obtain ⟨before, others, parted, rfl, onward⟩ := List.map_eq_append_iff.mp listed
      obtain ⟨front, behind, rfl, rfl, -⟩ := List.map_eq_cons_iff.mp onward
      rw [object?, Option.isSome_map, ← List.append_assoc, Tree.find?_append, found,
        Option.bind_some] at there
      have parted : (tree.within []).map (·.1) = before ++ (front ++ []) :: behind := by
        rw [parted, List.append_nil]
      have member := tree.mem_of_within_eq [] parted strictly there
      rw [List.append_nil] at member
      rw [← List.append_assoc]
      exact List.mem_map_of_mem member

/-! ## What is deleted -/

theorem mem_inward_of_mem_deletions (deleted : location ∈ files.deletions directory) :
    location ∈ files.inward directory :=
  (List.takeWhile_sublist _).subset deleted

theorem isBelow_of_mem_deletions (deleted : location ∈ files.deletions directory) :
    location.isBelow directory = true :=
  isBelow_of_mem_inward (mem_inward_of_mem_deletions deleted)

theorem nil_notMem_deletions (files : FileSystem) (directory : Location) :
    [] ∉ files.deletions directory := by
  intro deleted
  obtain ⟨below, strictly, same⟩ := isBelow_iff.mp (isBelow_of_mem_deletions deleted)
  exact strictly (List.append_eq_nil_iff.mp same.symm).1

/-- What is deleted is not held. -/
theorem isHeld_of_mem_deletions (deleted : location ∈ files.deletions directory) :
    files.isHeld location = false := by
  simpa using List.mem_takeWhile_imp deleted

/-- **What lies below something that is deleted is deleted,** and before it. -/
theorem mem_deletions_of_isBelow (deleted : location ∈ files.deletions directory)
    (below : other.isBelow location = true) (there : (files.object? other).isSome) :
    other ∈ files.deletions directory := by
  obtain ⟨first, rest, parted⟩ := List.append_of_mem deleted
  have listed : files.inward directory =
      first ++ location :: (rest ++ (files.inward directory).dropWhile fun location =>
        !files.isHeld location) := by
    rw [← List.cons_append, ← List.append_assoc, ← parted, deletions, List.takeWhile_append_dropWhile]
  rw [parted]
  exact List.mem_append_left _ (mem_of_inward_eq listed below there)

/-- **What is missing from an emptied directory is what has been deleted.** -/
theorem object?_emptied (files : FileSystem) (directory other : Location) :
    (files.emptied directory).object? other =
      if other ∈ files.deletions directory then none else files.object? other := by
  rw [emptied, object?_eraseAll _ (files.nil_notMem_deletions directory)]
  by_cases deleted : other ∈ files.deletions directory
  · rw [if_pos deleted, if_pos (List.any_eq_true.mpr
      ⟨other, deleted, Location.isWithin_iff.mpr (List.suffix_refl other)⟩)]
  · rw [if_neg deleted]
    split
    · rename_i within
      obtain ⟨location, deleted', within⟩ := List.any_eq_true.mp within
      have apart : other ≠ location := fun same => deleted (same ▸ deleted')
      have below : other.isBelow location = true := by simp [Location.isBelow, within, apart]
      cases found : files.object? other with
      | none => rfl
      | some object =>
          exact absurd (mem_deletions_of_isBelow deleted' below (by rw [found]; rfl)) deleted
    · rfl

/-- What is not strictly below an emptied directory stays as it is. -/
theorem object?_emptied_of_not_isBelow (outside : other.isBelow directory = false) :
    (files.emptied directory).object? other = files.object? other := by
  rw [object?_emptied, if_neg]
  intro deleted
  rw [isBelow_of_mem_deletions deleted] at outside
  cases outside

/-- Emptying a directory keeps what is not within something that is deleted. -/
theorem sifted_emptied (files : FileSystem) (directory : Location) :
    Sifted (fun other => !(files.deletions directory).any other.isWithin) files
      (files.emptied directory) :=
  files.sifted_eraseAll (files.nil_notMem_deletions directory)

/-- What is not strictly below an emptied directory is kept. -/
theorem keep_of_not_isBelow (outside : other.isBelow directory = false) :
    (!(files.deletions directory).any other.isWithin) = true := by
  rw [Bool.not_eq_true', Bool.eq_false_iff]
  intro within
  obtain ⟨location, deleted, within⟩ := List.any_eq_true.mp within
  obtain ⟨front, strictly, rfl⟩ := isBelow_iff.mp (isBelow_of_mem_deletions deleted)
  obtain ⟨further, rfl⟩ := Location.isWithin_iff.mp within
  have below : Location.isBelow (further ++ (front ++ directory)) directory = true :=
    isBelow_iff.mpr ⟨further ++ front, by simp [strictly], (List.append_assoc ..).symm⟩
  rw [below] at outside
  cases outside

/-- What is not strictly below an emptied directory is locked if it was. -/
theorem isLocked_emptied (outside : other.isBelow directory = false) :
    (files.emptied directory).isLocked other = files.isLocked other :=
  (files.sifted_emptied directory).isLocked_of_keep (keep_of_not_isBelow outside)

/-! ## What is released -/

/-- What is there is held if and only if the directory that holds it is locked. -/
theorem isHeld_cons {name : String} {above : Location}
    (there : (files.object? (name :: above)).isSome) :
    files.isHeld (name :: above) = files.isLocked above := by
  rw [isHeld, there, Bool.true_and]
  rfl

theorem isHeld_of_unlocked {name : String} {above : Location}
    (unlocked : files.isLocked above = false) : files.isHeld (name :: above) = false := by
  have unlocked : files.isLocked (Location.parent (name :: above)) = false := unlocked
  rw [isHeld, unlocked, Bool.and_false]

/-- Whether what is at a location can be removed with all that lies below it. -/
def releases (files : FileSystem) (location : Location) : Bool :=
  !files.isHeld location && !(files.inward location).any files.isHeld

theorem releases_iff :
    files.releases location = true ↔
      files.isHeld location = false ∧ (files.inward location).any files.isHeld = false := by
  rw [releases, Bool.and_eq_true, Bool.not_eq_true', Bool.not_eq_true']

/-- Nothing is held below something that holds nothing. -/
theorem WellFormed.free_of_solid (wellFormed : files.WellFormed)
    (solid : ¬files.IsDirectory location) : (files.inward location).any files.isHeld = false := by
  rw [List.any_eq_false]
  intro other listed held
  obtain ⟨there, -⟩ := (Bool.and_eq_true _ _).mp held
  have below := isBelow_of_mem_inward listed
  obtain ⟨within, apart⟩ := suffix_of_isBelow below
  exact solid (wellFormed.isDirectory_of_suffix there within (Ne.symm apart))

/-- Where nothing is held all that is listed is deleted. -/
theorem deletions_of_free (free : (files.inward directory).any files.isHeld = false) :
    files.deletions directory = files.inward directory := by
  refine List.takeWhile_eq_self_iff.mpr fun other listed => ?_
  simpa using List.any_eq_false.mp free other listed

/-- Where nothing is held the directory is empty in the end. -/
theorem names_emptied (free : (files.inward directory).any files.isHeld = false) :
    (files.emptied directory).names directory = [] := by
  refine List.eq_nil_iff_forall_not_mem.mpr fun name listed => ?_
  have left := mem_names_iff.mp listed
  have below := isBelow_of_cons_suffix (List.suffix_refl (name :: directory))
  rw [object?_emptied, deletions_of_free free] at left
  split at left
  · cases left
  · rename_i kept
    exact kept (mem_inward below left)

/-! ## Where nothing has changed -/

variable {later : FileSystem}

theorem isHeld_congr (locked : later.locked = files.locked)
    (there : later.object? location = files.object? location)
    (above : later.object? location.parent = files.object? location.parent) :
    later.isHeld location = files.isHeld location := by
  rw [isHeld, isHeld, isLocked, isLocked, there, above, locked]

/-- Where the same tree is found the same objects are found. -/
theorem object?_append_congr (found : later.root.find? location = files.root.find? location)
    (below : Location) : later.object? (below ++ location) = files.object? (below ++ location) := by
  rw [object?, object?, Tree.find?_append, Tree.find?_append, found]

theorem inward_congr (found : later.root.find? location = files.root.find? location) :
    later.inward location = files.inward location := by
  rw [inward, inward, FileSystem.below, FileSystem.below, found]

theorem isHeld_congr_of_mem (locked : later.locked = files.locked)
    (found : later.root.find? location = files.root.find? location)
    (listed : other ∈ files.inward location) : later.isHeld other = files.isHeld other := by
  obtain ⟨below, strictly, rfl⟩ := isBelow_iff.mp (isBelow_of_mem_inward listed)
  obtain ⟨name, above, rfl⟩ := List.exists_cons_of_ne_nil strictly
  exact isHeld_congr locked (object?_append_congr found _) (object?_append_congr found above)

/-- What agrees on a list goes equally far in it. -/
theorem takeWhile_congr {α : Type} {goes runs : α → Bool} {list : List α}
    (same : ∀ one ∈ list, goes one = runs one) : list.takeWhile goes = list.takeWhile runs := by
  induction list with
  | nil => rfl
  | cons first rest ih =>
      rw [List.forall_mem_cons] at same
      rw [List.takeWhile_cons, List.takeWhile_cons, same.1, ih same.2]

/-- Where the same tree is found the same is deleted. -/
theorem deletions_congr (locked : later.locked = files.locked)
    (found : later.root.find? location = files.root.find? location) :
    later.deletions location = files.deletions location := by
  rw [deletions, deletions, inward_congr found]
  exact takeWhile_congr fun other listed =>
    congrArg (!·) (isHeld_congr_of_mem locked found listed)

/-- Where the same tree is found in the same directory it is released if it was. -/
theorem releases_congr (locked : later.locked = files.locked)
    (found : later.root.find? location = files.root.find? location)
    (above : later.object? location.parent = files.object? location.parent) :
    later.releases location = files.releases location := by
  have top := isHeld_congr locked (object?_append_congr found []) above
  have below : (files.inward location).any later.isHeld = (files.inward location).any files.isHeld := by
    rw [Bool.eq_iff_iff, List.any_eq_true, List.any_eq_true]
    exact exists_congr fun other => and_congr_right fun listed => by
      rw [isHeld_congr_of_mem locked found listed]
  rw [List.nil_append] at top
  rw [releases, releases, top, inward_congr found, below]

/-- **What is not released is not released either when it has been emptied** as far as that goes. -/
theorem releases_of_deletions (locked : later.locked = files.locked)
    (above : later.object? location.parent = files.object? location.parent)
    (left : ∀ other, location <:+ other → later.object? other =
      if other ∈ files.deletions location then none else files.object? other)
    (kept : files.releases location = false) : later.releases location = false := by
  have same : ∀ {other}, location <:+ other → other ∉ files.deletions location →
      later.object? other = files.object? other :=
    fun within spared => (left _ within).trans (if_neg spared)
  have top : location ∉ files.deletions location := fun deleted => by
    simpa [isBelow_self] using isBelow_of_mem_deletions deleted
  rw [releases, Bool.and_eq_false_iff, Bool.not_eq_false', Bool.not_eq_false'] at kept ⊢
  rcases kept with held | held
  · exact .inl ((isHeld_congr locked (same (List.suffix_refl _) top) above).trans held)
  · obtain ⟨other, listed, held⟩ := List.any_eq_true.mp held
    obtain ⟨there, -⟩ := (Bool.and_eq_true _ _).mp held
    have below := isBelow_of_mem_inward listed
    obtain ⟨front, strictly, rfl⟩ := isBelow_iff.mp below
    obtain ⟨name, holder, rfl⟩ := List.exists_cons_of_ne_nil strictly
    have spared : name :: holder ++ location ∉ files.deletions location := fun deleted => by
      rw [isHeld_of_mem_deletions deleted] at held
      cases held
    -- What holds it is there as well, for it is deleted only after all that it holds.
    have holds : holder ++ location ∉ files.deletions location := fun deleted =>
      spared (mem_deletions_of_isBelow deleted (isBelow_cons_of_suffix (List.suffix_refl _)) there)
    have found := same (List.suffix_append _ location) spared
    refine .inr (List.any_eq_true.mpr ⟨_, mem_inward below (found ▸ there), ?_⟩)
    rw [isHeld_congr locked found (same (List.suffix_append holder location) holds), held]

end FileSystem

end DownloadCache
