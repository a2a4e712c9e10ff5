import DownloadCache.Proofs.Cache.Standing

/-!
# Removing what is under a name

In a directory that is in place, what is under a name is removed by the path of the name.  If the
path can be handed over and what is under the name is released, the name is gone with all that was
below it (`Walkable.remove_of_releases`).  If it is not released, the removal fails and the name
stays; what has been deleted below it until then is known (`Walkable.remove_of_kept`).  If the path
cannot be handed over, the removal fails and nothing happens (`remove_child_of_not_walkable`).

In each case some names of the directory are gone, something below others is lost, and all else is
as it was (`Without`).
-/

namespace DownloadCache.FileSystem

set_option autoImplicit false

variable {files between later : FileSystem} {home : Location} {name : String}

/-! ## Names after a deletion -/

/-- A name that is taken away is not listed, and nothing else changes in the list. -/
theorem names_erase (files : FileSystem) (name : String) (above : Location) :
    (files.erase (name :: above)).names above = (files.names above).filter (· != name) := by
  rw [names, erase, Tree.erase, Tree.find?_modify, names]
  cases files.root.find? above with
  | none => rfl
  | some directory => simp [Tree.names, Tree.removeChild, Tree.children, List.filter_map]; rfl

/-- To take away something further down leaves the names of a directory alone. -/
theorem names_erase_of_isBelow {above : Location} (below : above.isBelow home = true) :
    (files.erase (name :: above)).names home = files.names home := by
  obtain ⟨front, strictly, rfl⟩ := isBelow_iff.mp below
  rw [names, erase, Tree.erase, Tree.find?_modify_append, names]
  cases files.root.find? home with
  | none => rfl
  | some directory => exact directory.names_modify strictly _

/-- To empty what is under a name leaves the names of the directory alone. -/
theorem names_eraseAll {locations : List Location}
    (below : ∀ location ∈ locations, location.isBelow (name :: home) = true) :
    (files.eraseAll locations).names home = files.names home := by
  induction locations generalizing files with
  | nil => rfl
  | cons location rest ih =>
      rw [List.forall_mem_cons] at below
      obtain ⟨front, strictly, rfl⟩ := isBelow_iff.mp below.1
      obtain ⟨first, front, rfl⟩ := List.exists_cons_of_ne_nil strictly
      have further : Location.isBelow (front ++ name :: home) home = true :=
        isBelow_of_cons_suffix (List.suffix_append front _)
      rw [eraseAll_cons, ih below.2]
      exact names_erase_of_isBelow further

/-- To take away something leaves what is found beside it alone. -/
theorem find?_erase_of_apart {above other : Location} (apart : ¬name :: above <:+ other)
    (beside : ¬other <:+ above) :
    (files.erase (name :: above)).root.find? other = files.root.find? other :=
  (Tree.keepsOthers_removeChild name).find?_modify files.root apart beside

/-- To empty what is under a name leaves what is found under another name alone. -/
theorem find?_eraseAll {locations : List Location} {other : String} (differs : other ≠ name)
    (below : ∀ location ∈ locations, location.isBelow (name :: home) = true) :
    (files.eraseAll locations).root.find? (other :: home) = files.root.find? (other :: home) := by
  induction locations generalizing files with
  | nil => rfl
  | cons location rest ih =>
      rw [List.forall_mem_cons] at below
      obtain ⟨front, strictly, rfl⟩ := isBelow_iff.mp below.1
      obtain ⟨first, front, rfl⟩ := List.exists_cons_of_ne_nil strictly
      rw [eraseAll_cons, ih below.2]
      refine find?_erase_of_apart (fun within => ?_) fun within => ?_
      · exact differs (eq_of_cons_suffix_cons ((List.suffix_append (first :: front) _).trans within))
      · exact differs (eq_of_both_suffix (List.suffix_append front (name :: home)) within).symm

/-! ## Some names gone -/

/-- Whether some names of a directory are gone with all that was under them and what was at some
locations below others is lost, and nothing else has changed. -/
structure Without (home : Location) (gone : List String) (lost : List Location)
    (files later : FileSystem) : Prop where
  wellFormed : later.WellFormed
  isDirectory : later.IsDirectory home
  locked : later.locked = files.locked
  below : ∀ location ∈ lost, location.isBelow home = true
  names : later.names home = (files.names home).filter fun name => !gone.contains name
  object : ∀ location, later.object? location =
    if gone.any fun name => location.isWithin (name :: home) then none
    else if location ∈ lost then none
    else files.object? location
  found : ∀ {name : String}, name ∉ gone → (∀ location ∈ lost, ¬name :: home <:+ location) →
    later.root.find? (name :: home) = files.root.find? (name :: home)

theorem Without.refl (wellFormed : files.WellFormed) (directory : files.IsDirectory home) :
    Without home [] [] files files :=
  ⟨wellFormed, directory, rfl, nofun, by simp, fun _ => by simp, fun _ _ => rfl⟩

theorem Without.trans {first second : List String} {torn torn' : List Location}
    (before : Without home first torn files between)
    (after : Without home second torn' between later) :
    Without home (first ++ second) (torn ++ torn') files later where
  wellFormed := after.wellFormed
  isDirectory := after.isDirectory
  locked := after.locked.trans before.locked
  below := List.forall_mem_append.mpr ⟨before.below, after.below⟩
  names := by
    rw [after.names, before.names, List.filter_filter]
    simp [Bool.and_comm]
  object location := by
    rw [after.object, before.object, List.any_append]
    cases first.any fun name => location.isWithin (name :: home) <;>
      cases second.any fun name => location.isWithin (name :: home) <;>
      by_cases once : location ∈ torn <;> by_cases twice : location ∈ torn' <;> simp [once, twice]
  found := by
    intro name kept spared
    rw [List.mem_append, not_or] at kept
    rw [List.forall_mem_append] at spared
    exact (after.found kept.2 spared.2).trans (before.found kept.1 spared.1)

/-- What is lost below a name that is gone need not be told. -/
theorem Without.absorb {lost : List Location} (without : Without home [name] lost files later)
    (below : ∀ location ∈ lost, name :: home <:+ location) : Without home [name] [] files later where
  wellFormed := without.wellFormed
  isDirectory := without.isDirectory
  locked := without.locked
  below := nofun
  names := without.names
  object location := by
    rw [without.object]
    by_cases torn : location ∈ lost
    · simp [Location.isWithin_iff.mpr (below location torn)]
    · simp [torn]
  found := by
    intro other kept _
    refine without.found kept fun location torn within => kept ?_
    rw [eq_of_both_suffix (below location torn) within]
    exact List.mem_singleton_self _

/-- What is not strictly below the directory stays as it is. -/
theorem Without.object_of_isBelow {gone : List String} {lost : List Location}
    (without : Without home gone lost files later) {location : Location}
    (outside : location.isBelow home = false) :
    later.object? location = files.object? location := by
  rw [without.object, if_neg, if_neg]
  · intro torn
    rw [without.below location torn] at outside
    cases outside
  · intro some
    obtain ⟨name, -, within⟩ := List.any_eq_true.mp some
    exact Bool.eq_false_iff.mp outside (isBelow_of_cons_suffix (Location.isWithin_iff.mp within))

/-- What is under a name that is not gone stays as it is, but for what is lost. -/
theorem Without.object_of_notMem {gone : List String} {lost : List Location}
    (without : Without home gone lost files later) {name : String} (kept : name ∉ gone)
    {location : Location} (within : name :: home <:+ location) :
    later.object? location = if location ∈ lost then none else files.object? location := by
  rw [without.object, if_neg]
  intro some
  obtain ⟨other, member, within'⟩ := List.any_eq_true.mp some
  exact kept (eq_of_both_suffix within (Location.isWithin_iff.mp within') ▸ member)

/-- To take away a name takes away nothing else. -/
theorem without_erase (wellFormed : files.WellFormed) (directory : files.IsDirectory home)
    (name : String) : Without home [name] [] files (files.erase (name :: home)) where
  wellFormed := wellFormed.sifted (sifted_erase files name home)
  isDirectory :=
    (sifted_erase files name home).isDirectory_of_keep
      (by simpa using mt Location.isWithin_iff.mp (not_cons_suffix name home)) directory
  locked := rfl
  below := nofun
  names := by
    rw [names_erase]
    exact List.filter_congr fun other _ => by rw [Bool.eq_iff_iff]; simp
  object location := by
    rw [object?_erase]
    simp
  found := by
    intro other kept _
    refine find?_erase_of_apart (fun within => kept ?_) (not_cons_suffix other home)
    rw [eq_of_cons_suffix_cons within]
    exact List.mem_singleton_self _

/-- To empty what is under a name takes away what is deleted, and nothing else. -/
theorem without_emptied (wellFormed : files.WellFormed) (directory : files.IsDirectory home)
    (name : String) :
    Without home [] (files.deletions (name :: home)) files (files.emptied (name :: home)) where
  wellFormed := wellFormed.sifted (files.sifted_emptied _)
  isDirectory :=
    (files.sifted_emptied (name :: home)).isDirectory_of_keep
      (keep_of_not_isBelow (isBelow_cons_self name home)) directory
  locked := (files.sifted_emptied _).locked
  below location deleted :=
    isBelow_of_cons_suffix (suffix_of_isBelow (isBelow_of_mem_deletions deleted)).1
  names := by
    rw [emptied, names_eraseAll fun location deleted => isBelow_of_mem_deletions deleted]
    simp
  object location := by
    rw [object?_emptied]
    simp
  found := by
    intro other _ spared
    by_cases same : other = name
    · subst same
      cases none : files.deletions (other :: home) with
      | nil => rw [emptied, none, eraseAll_nil]
      | cons location rest =>
          have deleted : location ∈ files.deletions (other :: home) := by
            rw [none]
            exact List.mem_cons_self
          exact absurd (suffix_of_isBelow (isBelow_of_mem_deletions deleted)).1
            (spared location deleted)
    · exact find?_eraseAll same fun location deleted => isBelow_of_mem_deletions deleted

/-- What holds nothing is not changed by being emptied. -/
theorem without_deletions (wellFormed : files.WellFormed) (directory : files.IsDirectory home)
    (solid : ¬files.IsDirectory (name :: home)) :
    Without home [] (files.deletions (name :: home)) files files := by
  refine ⟨wellFormed, directory, rfl, fun location deleted => ?_, by simp, fun location => ?_,
    fun _ _ => rfl⟩
  · exact isBelow_of_cons_suffix (suffix_of_isBelow (isBelow_of_mem_deletions deleted)).1
  by_cases deleted : location ∈ files.deletions (name :: home)
  · cases found : files.object? location with
    | none => simp
    | some object =>
        obtain ⟨within, apart⟩ := suffix_of_isBelow (isBelow_of_mem_deletions deleted)
        exact absurd (wellFormed.isDirectory_of_suffix (by rw [found]; rfl) within (Ne.symm apart))
          solid
  · simp [deleted]

/-! ## Removing what is under a name -/

/-- A removal goes by the path of a walkable name to what is under it. -/
theorem Walkable.remove_eq (walkable : Walkable home name) (wellFormed : files.WellFormed)
    (directory : files.IsDirectory home) (there : (files.object? (name :: home)).isSome) :
    files.remove ((pathOf home).child name) =
      if files.nodeAt? (.present (name :: home)) = some .directory then
        files.removeTree ((pathOf home).child name) (.present (name :: home))
      else files.tolerate (files.unlink ((pathOf home).child name)) := by
  obtain ⟨object, found⟩ := Option.isSome_iff_exists.mp there
  rw [FileSystem.remove, locate_of_spot (walkable.spot wellFormed directory)
    (walkable.short name List.mem_cons_self) found (by simp)]

/-- **What is released under a walkable name is removed, and nothing else.** -/
theorem Walkable.remove_of_releases (walkable : Walkable home name)
    (wellFormed : files.WellFormed) (directory : files.IsDirectory home)
    (there : (files.object? (name :: home)).isSome)
    (released : files.releases (name :: home) = true) :
    ∃ later, files.remove ((pathOf home).child name) = (.ok true, later) ∧
      Without home [name] [] files later := by
  obtain ⟨object, found⟩ := Option.isSome_iff_exists.mp there
  have short := walkable.short name List.mem_cons_self
  obtain ⟨unlocked, free⟩ := releases_iff.mp released
  rw [isHeld_cons there] at unlocked
  rw [walkable.remove_eq wellFormed directory there]
  split
  · rename_i node
    have without := without_emptied wellFormed directory name
    have named : (files.emptied (name :: home)).IsDirectory (name :: home) :=
      (files.sifted_emptied _).isDirectory_of_keep (keep_of_not_isBelow (isBelow_self _))
        (isDirectory_of_nodeAt? node)
    have removed := removeDirectory_eq_ok_iff.mpr
      ⟨name, home, false, walkable.spot without.wellFormed without.isDirectory, short, named,
        (isLocked_emptied (isBelow_cons_self name home)).trans unlocked, names_emptied free, rfl⟩
    rw [removeTree_of_free free, removed]
    have gone := without.trans (without_erase without.wellFormed without.isDirectory name)
    rw [List.append_nil] at gone
    exact ⟨_, rfl, gone.absorb fun location deleted =>
      (suffix_of_isBelow (isBelow_of_mem_deletions deleted)).1⟩
  · rename_i node
    have kind : object.isDirectory = false := by
      refine Bool.eq_false_iff.mpr fun kind => node ?_
      rw [nodeAt?, found]
      simpa [Object.isDirectory] using kind
    rw [unlink_eq_ok_iff.mpr ⟨name, home, object, walkable.spot wellFormed directory, short, found,
      kind, unlocked, rfl⟩]
    exact ⟨_, rfl, without_erase wellFormed directory name⟩

/-- **What is not released under a walkable name is not removed,** and of what lies below it just
that is lost which is deleted before something is held. -/
theorem Walkable.remove_of_kept (walkable : Walkable home name) (wellFormed : files.WellFormed)
    (directory : files.IsDirectory home) (there : (files.object? (name :: home)).isSome)
    (kept : files.releases (name :: home) = false) :
    ∃ later, files.remove ((pathOf home).child name) = (refuse .accessDenied, later) ∧
      Without home [] (files.deletions (name :: home)) files later := by
  obtain ⟨object, found⟩ := Option.isSome_iff_exists.mp there
  have short := walkable.short name List.mem_cons_self
  rw [walkable.remove_eq wellFormed directory there]
  split
  · rename_i node
    have without := without_emptied wellFormed directory name
    refine ⟨files.emptied (name :: home), ?_, without⟩
    cases free : (files.inward (name :: home)).any files.isHeld with
    | true => exact removeTree_of_held free
    | false =>
        have locked : files.isLocked home = true := by
          rw [← isHeld_cons there]
          simpa [releases, free] using kept
        have named : (files.emptied (name :: home)).object? (name :: home) = some object :=
          (object?_emptied_of_not_isBelow (isBelow_self _)).trans found
        rw [removeTree_of_free free, removeDirectory_of_locked
          (walkable.spot without.wellFormed without.isDirectory) short named
          ((isLocked_emptied (isBelow_cons_self name home)).trans locked)]
        rfl
  · rename_i node
    have solid : ¬files.IsDirectory (name :: home) := by
      rintro ⟨number, same⟩
      exact node (by rw [nodeAt?, same]; rfl)
    have locked : files.isLocked home = true := by
      rw [← isHeld_cons there]
      simpa [releases, wellFormed.free_of_solid solid] using kept
    rw [unlink_of_locked (walkable.spot wellFormed directory) short found locked]
    exact ⟨_, rfl, without_deletions wellFormed directory solid⟩

/-! ## Paths that cannot be handed over -/

/-- A path that is not empty and cannot be handed over is not taken for one that names nothing. -/
theorem isNoEntry_of_checkPath {path : Path} (filled : path.text ≠ "") {cause : SystemError}
    (refused : checkPath path = .error cause) : cause.isNoEntry = false := by
  rw [checkPath, checkSpelling, checkLength] at refused
  by_cases nul : path.text.toList.contains '\x00'
  · rw [if_pos nul] at refused
    cases refused
    rfl
  · rw [if_neg nul, if_neg (by simpa using filled)] at refused
    split at refused
    · cases refused
      rfl
    · cases refused

/-- A path within a directory is not removed if it cannot be handed over or its name is too long. -/
theorem remove_child_of_not_walkable (wellFormed : files.WellFormed)
    (directory : files.IsDirectory home) (legal : IsName name)
    (short : ∀ part ∈ home, part.utf8ByteSize ≤ maxNameOctets) (blocked : ¬Walkable home name) :
    ∃ cause, files.remove ((pathOf home).child name) = (.error cause, files) := by
  obtain ⟨cause, failed, known⟩ : ∃ cause,
      files.locate ((pathOf home).child name) = .error cause ∧ cause.isNoEntry = false := by
    cases checked : checkPath ((pathOf home).child name) with
    | error cause =>
        refine ⟨cause, ?_, isNoEntry_of_checkPath ?_ checked⟩
        · rw [locate, lastStep_child _ legal]
          dsimp only
          rw [spot, checked]
          rfl
        · exact text_ne_empty (by rw [Path.isAbsolute_child _ legal, isAbsolute_pathOf])
    | ok _ =>
        have long : name.utf8ByteSize > maxNameOctets := by
          refine Nat.lt_of_not_le fun fits => blocked ⟨legal, checked, ?_⟩
          exact List.forall_mem_cons.mpr ⟨fits, short⟩
        have spotted := (wellFormed.spot_child_iff directory legal).mpr
          ⟨⟨checked, short⟩, rfl, rfl⟩
        refine ⟨.errno .nameTooLong, ?_, rfl⟩
        rw [locate, lastStep_child _ legal]
        dsimp only
        rw [spotted]
        simp [lookUp, Finding.lookUp, long, refuse, Bind.bind, Except.bind]
  refine ⟨cause, ?_⟩
  rw [FileSystem.remove, failed]
  simp [known]

end DownloadCache.FileSystem
