import DownloadCache.Proofs.FileSystem.Emptying

/-!
# What a removal does

A removal deletes at most what its path leads to.  It does nothing, or it empties a directory as far
as that goes, or it empties a directory and deletes it, or it deletes something else (`Removal`,
`WellFormed.removal_remove`).  In each case all that is not within the location to which the path
leads stays as it is (`Removal.frame`), and the file system shrinks (`Removal.shrinks`).

A directory is deleted by walking along its path once more when it has been emptied; the path leads
to the same directory then, since nothing new has come into its way.  So a removal takes away what
it deletes from the directory that it empties, and the object at the end of the path itself if that
is released and the path still names it (`WellFormed.object?_remove_eq_none_iff`).
-/

namespace DownloadCache.FileSystem

set_option autoImplicit false

variable {files later : FileSystem} {path : Path}

/-! ## Deleting by path -/

/-- What is deleted as an empty directory is one, under the last name of the path, in a directory
that is not locked. -/
theorem removeDirectory_eq_ok_iff :
    files.removeDirectory path = .ok later ↔
      ∃ name above slash, files.spot path = .ok (.present above, .name name slash) ∧
        name.utf8ByteSize ≤ maxNameOctets ∧ files.IsDirectory (name :: above) ∧
        files.isLocked above = false ∧ files.names (name :: above) = [] ∧
        later = files.erase (name :: above) := by
  rw [removeDirectory, bind_eq_ok_iff]
  constructor
  · rintro ⟨⟨place, last⟩, spotted, removed⟩
    obtain ⟨name, slash, rfl⟩ : ∃ name slash, last = .name name slash := by
      cases last with
      | name name slash => exact ⟨name, slash, rfl⟩
      | _ => cases removed
    obtain ⟨named, looked, removed⟩ := bind_eq_ok_iff.mp removed
    obtain ⟨above, rfl, short, rfl⟩ := lookUp_eq_ok_iff.mp looked
    rw [Finding.object?_child] at removed
    split at removed
    · cases removed
    rename_i object found
    obtain ⟨unlocked, removed⟩ := check_bind_eq_ok_iff.mp removed
    split at removed
    · cases removed
    rename_i kind
    split at removed
    case isFalse => cases removed
    rename_i empty
    cases removed
    exact ⟨name, above, slash, spotted, short,
      isDirectory_iff.mpr ⟨object, found, by simpa using kind⟩,
      checkUnlocked_eq_ok_iff.mp unlocked, List.isEmpty_iff.mp empty, rfl⟩
  · rintro ⟨name, above, slash, spotted, short, ⟨number, found⟩, unlocked, empty, rfl⟩
    have unlocked : files.checkUnlocked (Location.parent (name :: above)) = .ok () :=
      checkUnlocked_eq_ok_iff.mpr unlocked
    refine ⟨_, spotted, bind_eq_ok_iff.mpr ⟨_, lookUp_eq_ok_iff.mpr ⟨_, rfl, short, rfl⟩, ?_⟩⟩
    rw [Finding.object?_child]
    simp [finding, Finding.child, found, unlocked, Object.isDirectory, empty, pure, Except.pure,
      Bind.bind, Except.bind]

/-- What is deleted otherwise is no directory, no slash follows its name, and it is in a directory
that is not locked. -/
theorem unlink_eq_ok_iff :
    files.unlink path = .ok later ↔
      ∃ name above object, files.spot path = .ok (.present above, .name name false) ∧
        name.utf8ByteSize ≤ maxNameOctets ∧ files.object? (name :: above) = some object ∧
        object.isDirectory = false ∧ files.isLocked above = false ∧
        later = files.erase (name :: above) := by
  rw [unlink, bind_eq_ok_iff]
  constructor
  · rintro ⟨⟨place, last⟩, spotted, removed⟩
    obtain ⟨name, slash, rfl⟩ : ∃ name slash, last = .name name slash := by
      cases last with
      | name name slash => exact ⟨name, slash, rfl⟩
      | _ => cases removed
    obtain ⟨named, looked, removed⟩ := bind_eq_ok_iff.mp removed
    obtain ⟨above, rfl, short, rfl⟩ := lookUp_eq_ok_iff.mp looked
    rw [Finding.object?_child] at removed
    split at removed
    · cases removed
    rename_i object found
    split at removed
    · cases removed
    rename_i bare
    obtain ⟨unlocked, removed⟩ := check_bind_eq_ok_iff.mp removed
    split at removed
    · cases removed
    rename_i kind
    cases removed
    have bare : slash = false := by simpa using bare
    exact ⟨name, above, object, bare ▸ spotted, short, found, by simpa using kind,
      checkUnlocked_eq_ok_iff.mp unlocked, rfl⟩
  · rintro ⟨name, above, object, spotted, short, found, kind, unlocked, rfl⟩
    have unlocked : files.checkUnlocked (Location.parent (name :: above)) = .ok () :=
      checkUnlocked_eq_ok_iff.mpr unlocked
    refine ⟨_, spotted, bind_eq_ok_iff.mpr ⟨_, lookUp_eq_ok_iff.mpr ⟨_, rfl, short, rfl⟩, ?_⟩⟩
    rw [Finding.object?_child]
    simp [finding, Finding.child, found, unlocked, kind, pure, Except.pure, Bind.bind, Except.bind]

/-- From a locked directory no directory is deleted. -/
theorem removeDirectory_of_locked {name : String} {above : Location} {slash : Bool}
    {object : Object} (spotted : files.spot path = .ok (.present above, .name name slash))
    (short : name.utf8ByteSize ≤ maxNameOctets)
    (found : files.object? (name :: above) = some object)
    (locked : files.isLocked above = true) :
    files.removeDirectory path = refuse .accessDenied := by
  obtain ⟨named, looked, there, place⟩ := files.exists_lookUp_eq_ok short above
  have refused : files.checkUnlocked (Location.parent (name :: above)) = refuse .accessDenied :=
    checkUnlocked_of_locked locked
  simp only [removeDirectory, spotted, looked, there, found, place, refused, refuse, Bind.bind,
    Except.bind]

/-- From a locked directory nothing is deleted. -/
theorem unlink_of_locked {name : String} {above : Location} {object : Object}
    (spotted : files.spot path = .ok (.present above, .name name false))
    (short : name.utf8ByteSize ≤ maxNameOctets)
    (found : files.object? (name :: above) = some object)
    (locked : files.isLocked above = true) : files.unlink path = refuse .accessDenied := by
  obtain ⟨named, looked, there, place⟩ := files.exists_lookUp_eq_ok short above
  have refused : files.checkUnlocked (Location.parent (name :: above)) = refuse .accessDenied :=
    checkUnlocked_of_locked locked
  simp only [unlink, spotted, looked, there, found, place, refused, refuse, Bind.bind, Except.bind]
  exact if_neg Bool.false_ne_true

/-! ## Removals -/

/-- A directory in which something is held is emptied as far as that goes, and the removal fails. -/
theorem removeTree_of_held {location : Location}
    (held : (files.inward location).any files.isHeld = true) :
    files.removeTree path (.present location) = (refuse .accessDenied, files.emptied location) := by
  rw [removeTree, emptyAt, if_pos held]
  rfl

/-- A directory in which nothing is held is deleted by its path when it has been emptied. -/
theorem removeTree_of_free {location : Location}
    (free : (files.inward location).any files.isHeld = false) :
    files.removeTree path (.present location) =
      match (files.emptied location).removeDirectory path with
      | .ok changed => (.ok true, changed)
      | .error cause =>
          if cause.isNoEntry then (.ok true, files.emptied location)
          else (.error cause, files.emptied location) := by
  have succeeds : files.emptyAt (.present location) = (.ok (), files.emptied location) := by
    rw [emptyAt, if_neg (by simp [free])]
  unfold removeTree
  generalize files.emptyAt (.present location) = outcome at succeeds ⊢
  cases succeeds
  rfl

/-- What a removal by a path can come to. -/
inductive Removal (files : FileSystem) (path : Path) : FileSystem → Prop where
  | nothing : Removal files path files
  /-- A directory has been emptied as far as that goes. -/
  | emptied {location : Location} (located : files.locate path = .ok (.present location))
      (directory : files.IsDirectory location) : Removal files path (files.emptied location)
  /-- A directory has been emptied and deleted, and the path still led to it. -/
  | deleted {name : String} {above : Location} {slash : Bool}
      (located : files.locate path = .ok (.present (name :: above)))
      (directory : files.IsDirectory (name :: above))
      (released : files.releases (name :: above) = true)
      (spotted : (files.emptied (name :: above)).spot path =
        .ok (.present above, .name name slash)) :
      Removal files path ((files.emptied (name :: above)).erase (name :: above))
  /-- Something else has been deleted. -/
  | unlinked {name : String} {above : Location}
      (located : files.locate path = .ok (.present (name :: above)))
      (solid : ¬files.IsDirectory (name :: above))
      (released : files.releases (name :: above) = true)
      (spotted : files.spot path = .ok (.present above, .name name false)) :
      Removal files path (files.erase (name :: above))

/-- **Every removal comes to one of these.** -/
theorem WellFormed.removal_remove (wellFormed : files.WellFormed) (path : Path) :
    Removal files path (files.remove path).2 := by
  rw [remove]
  split
  · split <;> exact .nothing
  rename_i place located
  split
  · rename_i directory
    -- The path led to what is now deleted when it was not yet empty, so it is what was emptied.
    cases place with
    | deleted parent =>
        rw [removeTree, emptyAt]
        dsimp only
        split
        · rename_i changed removed
          obtain ⟨name, above, slash, spotted, short, ⟨number, found⟩, -⟩ :=
            removeDirectory_eq_ok_iff.mp removed
          rw [locate_of_spot spotted short found fun _ => rfl] at located
          cases located
        · split <;> exact .nothing
    | present location =>
        have directory := isDirectory_of_nodeAt? directory
        cases free : (files.inward location).any files.isHeld with
        | true =>
            rw [removeTree_of_held free]
            exact .emptied located directory
        | false =>
            rw [removeTree_of_free free]
            split
            · rename_i changed removed
              have shrinks := wellFormed.shrinks (files.sifted_emptied location)
              obtain ⟨name, above, slash, spotted, short, found, unlocked, -, rfl⟩ :=
                removeDirectory_eq_ok_iff.mp removed
              obtain ⟨number, found⟩ := shrinks.isDirectory found
              have same := locate_of_spot (shrinks.spot spotted) short found fun _ => rfl
              rw [located] at same
              cases same
              rw [isLocked_emptied (isBelow_cons_self name above)] at unlocked
              exact .deleted located directory (releases_iff.mpr ⟨isHeld_of_unlocked unlocked, free⟩)
                spotted
            · split <;> exact .emptied located directory
  · rw [tolerate.eq_def]
    split
    · rename_i changed removed
      obtain ⟨name, above, object, spotted, short, found, kind, unlocked, rfl⟩ :=
        unlink_eq_ok_iff.mp removed
      have same := locate_of_spot spotted short found fun slash => absurd slash Bool.false_ne_true
      rw [located] at same
      cases same
      have solid : ¬files.IsDirectory (name :: above) := by
        intro directory
        rw [directory.isDirectory_of_found found] at kind
        cases kind
      exact .unlinked located solid
        (releases_iff.mpr ⟨isHeld_of_unlocked unlocked, wellFormed.free_of_solid solid⟩) spotted
    · split <;> exact .nothing

/-! ## What a removal leaves -/

theorem Removal.wellFormed (removal : Removal files path later) (wellFormed : files.WellFormed) :
    later.WellFormed := by
  cases removal with
  | nothing => exact wellFormed
  | emptied => exact wellFormed.sifted (files.sifted_emptied _)
  | deleted =>
      exact (wellFormed.sifted (files.sifted_emptied _)).sifted (sifted_erase _ _ _)
  | unlinked => exact wellFormed.sifted (files.sifted_erase _ _)

theorem Removal.shrinks (removal : Removal files path later) (wellFormed : files.WellFormed) :
    Shrinks files later := by
  cases removal with
  | nothing => exact .refl files
  | emptied => exact wellFormed.shrinks (files.sifted_emptied _)
  | @deleted name above _ _ _ _ _ =>
      have emptied := files.sifted_emptied (name :: above)
      exact (wellFormed.shrinks emptied).trans
        ((wellFormed.sifted emptied).shrinks (sifted_erase _ name above))
  | unlinked => exact wellFormed.shrinks (files.sifted_erase _ _)

/-- What is not within the location to which the path leads stays as it is. -/
theorem Removal.frame (removal : Removal files path later) {other : Location}
    (outside : ∀ location, files.locate path = .ok (.present location) → ¬location <:+ other) :
    later.object? other = files.object? other := by
  have emptied : ∀ {location : Location}, files.locate path = .ok (.present location) →
      (files.emptied location).object? other = files.object? other := by
    intro location located
    refine object?_emptied_of_not_isBelow ?_
    rw [Location.isBelow,
      Bool.eq_false_iff.mpr (mt Location.isWithin_iff.mp (outside location located))]
    rfl
  have erased : ∀ {name : String} {above : Location} (files' : FileSystem),
      files.locate path = .ok (.present (name :: above)) →
      (files'.erase (name :: above)).object? other = files'.object? other := by
    intro name above files' located
    rw [object?_erase, if_neg (mt Location.isWithin_iff.mp (outside _ located))]
  cases removal with
  | nothing => rfl
  | emptied located => exact emptied located
  | deleted located => exact (erased _ located).trans (emptied located)
  | unlinked located => exact erased files located

/-- A directory stays one if the path does not lead to it or to a directory above it. -/
theorem Removal.isDirectory_frame (removal : Removal files path later) {other : Location}
    (directory : files.IsDirectory other)
    (outside : ∀ location, files.locate path = .ok (.present location) → ¬location <:+ other) :
    later.IsDirectory other :=
  directory.of_same (removal.frame outside)

/-! ## What a removal deletes -/

/-- Whether a removal by a path deletes what is at a location.  It must be released; a directory is
deleted if the path still names it when it has been emptied, anything else if the path names it
without a slash. -/
def Deletes (files : FileSystem) (path : Path) : Location → Prop
  | [] => False
  | name :: above =>
      files.releases (name :: above) = true ∧
        ((files.IsDirectory (name :: above) ∧
            ∃ slash, (files.emptied (name :: above)).spot path =
              .ok (.present above, .name name slash)) ∨
          (¬files.IsDirectory (name :: above) ∧
            files.spot path = .ok (.present above, .name name false)))

/-- What is deleted is named by the path before. -/
theorem WellFormed.spot_of_deletes (wellFormed : files.WellFormed) {name : String}
    {above : Location} (deletes : files.Deletes path (name :: above)) :
    ∃ slash, files.spot path = .ok (.present above, .name name slash) ∧
      (slash = true → files.IsDirectory (name :: above)) := by
  obtain ⟨-, ⟨directory, slash, spotted⟩ | ⟨-, spotted⟩⟩ := deletes
  · exact ⟨slash, (wellFormed.shrinks (files.sifted_emptied _)).spot spotted, fun _ => directory⟩
  · exact ⟨false, spotted, nofun⟩

/-- **What a removal deletes is gone.** -/
theorem WellFormed.object?_remove_of_deletes (wellFormed : files.WellFormed) {name : String}
    {above : Location} {object : Object} (found : files.object? (name :: above) = some object)
    (short : name.utf8ByteSize ≤ maxNameOctets) (deletes : files.Deletes path (name :: above)) :
    (files.remove path).2.object? (name :: above) = none := by
  have gone : ∀ files' : FileSystem,
      (files'.erase (name :: above)).object? (name :: above) = none := by
    intro files'
    rw [object?_erase, if_pos (Location.isWithin_iff.mpr (List.suffix_refl _))]
  obtain ⟨slash, spotted, solid⟩ := wellFormed.spot_of_deletes deletes
  have located := locate_of_spot spotted short found fun trailing =>
    (solid trailing).isDirectory_of_found found
  obtain ⟨released, deletes⟩ := deletes
  obtain ⟨held, free⟩ := releases_iff.mp released
  rw [isHeld_cons (by rw [found]; rfl)] at held
  rw [remove, located]
  dsimp only
  rcases deletes with ⟨⟨number, directory⟩, slash, spotted⟩ | ⟨plain, spotted⟩
  · have node : files.nodeAt? (.present (name :: above)) = some .directory := by
      rw [nodeAt?, directory]
      rfl
    have kept := (files.sifted_emptied (name :: above)).isDirectory_of_keep
      (keep_of_not_isBelow (isBelow_self _)) ⟨number, directory⟩
    have unlocked := (isLocked_emptied (isBelow_cons_self name above)).trans held
    have removed := removeDirectory_eq_ok_iff.mpr
      ⟨name, above, slash, spotted, short, kept, unlocked, names_emptied free, rfl⟩
    rw [if_pos node, removeTree_of_free free, removed]
    exact gone _
  · have node : files.nodeAt? (.present (name :: above)) ≠ some .directory := fun node =>
      plain (isDirectory_of_nodeAt? node)
    have kind : object.isDirectory = false := Bool.eq_false_iff.mpr fun kind =>
      plain (isDirectory_iff.mpr ⟨object, found, kind⟩)
    have removed := unlink_eq_ok_iff.mpr
      ⟨name, above, object, spotted, short, found, kind, held, rfl⟩
    rw [if_neg node, removed, tolerate.eq_def]
    exact gone _

/-- **What a removal changes it deletes,** unless it empties a directory above. -/
theorem Removal.deletes_of_ne (removal : Removal files path later) {other : Location}
    (apart : ∀ location, files.locate path = .ok (.present location) →
      other.isBelow location = false)
    (lost : later.object? other ≠ files.object? other) : files.Deletes path other := by
  have emptied : ∀ {location : Location}, files.locate path = .ok (.present location) →
      (files.emptied location).object? other = files.object? other :=
    fun located => object?_emptied_of_not_isBelow (apart _ located)
  have erased : ∀ {name : String} {above : Location} (files' : FileSystem),
      files.locate path = .ok (.present (name :: above)) → other ≠ name :: above →
      (files'.erase (name :: above)).object? other = files'.object? other := by
    intro name above files' located differs
    have outside := apart _ located
    simp only [Location.isBelow, bne, Bool.and_eq_false_iff, Bool.not_eq_false', beq_iff_eq]
      at outside
    rw [object?_erase, outside.resolve_right differs]
    rfl
  cases removal with
  | nothing => exact absurd rfl lost
  | emptied located => exact absurd (emptied located) lost
  | @deleted name above slash located directory released spotted =>
      by_cases same : other = name :: above
      · exact same ▸ ⟨released, .inl ⟨directory, slash, spotted⟩⟩
      · exact absurd ((erased _ located same).trans (emptied located)) lost
  | @unlinked name above located solid released spotted =>
      by_cases same : other = name :: above
      · exact same ▸ ⟨released, .inr ⟨solid, spotted⟩⟩
      · exact absurd (erased files located same) lost

/-! ## What a removal takes away -/

/-- Whether a removal by a path takes away what is at a location: what is deleted when the location
to which the path leads is emptied, and what is at that location itself if the removal deletes
it. -/
def Takes (files : FileSystem) (path : Path) (location : Location) : Prop :=
  ∃ top, files.locate path = .ok (.present top) ∧
    (location ∈ files.deletions top ∨ location = top ∧ files.Deletes path top)

/-- What is taken away is within the location to which the path leads. -/
theorem Takes.suffix {location top : Location} (takes : files.Takes path location)
    (located : files.locate path = .ok (.present top)) : top <:+ location := by
  obtain ⟨other, located', deleted | ⟨rfl, -⟩⟩ := takes <;> rw [located] at located' <;>
    cases located'
  · obtain ⟨below, -, rfl⟩ := isBelow_iff.mp (isBelow_of_mem_deletions deleted)
    exact List.suffix_append below _
  · exact List.suffix_refl _

/-- A name under which a path leads to something is not too long. -/
theorem short_of_locate {name : String} {above : Location} {slash : Bool}
    (located : files.locate path = .ok (.present (name :: above)))
    (spotted : files.spot path = .ok (.present above, .name name slash)) :
    name.utf8ByteSize ≤ maxNameOctets := by
  obtain ⟨-, walked, -, last⟩ := spot_eq_ok_iff.mp spotted
  cases slash with
  | false =>
      obtain ⟨_, _, -, short, -⟩ := (locate_eq_ok_iff last.symm).mp located
      exact short
  | true =>
      obtain ⟨steps, slash⟩ := steps_of_lastStep last.symm
      rw [locate, ← last] at located
      obtain ⟨-, whole⟩ := resolve_eq_ok_iff.mp located
      rw [Trail.allSteps, if_pos slash, steps, List.append_assoc] at whole
      obtain ⟨_, _, -, onward⟩ := leads_of_walk_append walked whole
      cases onward with
      | into _ short => exact short
      | follow _ short => exact short

/-- What is deleted from a directory that is removed is gone. -/
theorem object?_remove_of_mem_deletions {top location : Location}
    (located : files.locate path = .ok (.present top)) (directory : files.IsDirectory top)
    (deleted : location ∈ files.deletions top) :
    (files.remove path).2.object? location = none := by
  have emptied : (files.emptied top).object? location = none := by
    rw [object?_emptied, if_pos deleted]
  obtain ⟨number, found⟩ := directory
  have node : files.nodeAt? (.present top) = some .directory := by
    rw [nodeAt?, found]
    rfl
  rw [remove, located]
  dsimp only
  rw [if_pos node]
  cases free : (files.inward top).any files.isHeld with
  | true =>
      rw [removeTree_of_held free]
      exact emptied
  | false =>
      rw [removeTree_of_free free]
      split
      · rename_i removed
        obtain ⟨name, above, -, -, -, -, -, -, rfl⟩ := removeDirectory_eq_ok_iff.mp removed
        rw [object?_erase, emptied, ite_self]
      · split <;> exact emptied

/-- What is missing after a removal from below the location to which the path leads has been deleted
there. -/
theorem Removal.mem_deletions (removal : Removal files path later) {top location : Location}
    (located : files.locate path = .ok (.present top)) (directory : files.IsDirectory top)
    (below : location.isBelow top = true) (there : (files.object? location).isSome)
    (gone : later.object? location = none) : location ∈ files.deletions top := by
  have lost : later.object? location ≠ files.object? location := by
    rw [gone]
    exact fun same => by simp [← same] at there
  cases removal with
  | nothing => exact absurd rfl lost
  | emptied located' =>
      rw [located] at located'
      cases located'
      by_contra kept
      exact lost ((object?_emptied ..).trans (if_neg kept))
  | deleted located' _ released =>
      rw [located] at located'
      cases located'
      rw [deletions_of_free (releases_iff.mp released).2]
      exact mem_inward below there
  | unlinked located' solid =>
      rw [located] at located'
      cases located'
      exact absurd directory solid

/-- **A removal takes away what it is said to take away, and nothing else.** -/
theorem WellFormed.object?_remove_eq_none_iff (wellFormed : files.WellFormed) {location : Location}
    (there : (files.object? location).isSome) :
    (files.remove path).2.object? location = none ↔ files.Takes path location := by
  have removal := wellFormed.removal_remove path
  constructor
  · intro gone
    obtain ⟨top, located, within⟩ : ∃ top, files.locate path = .ok (.present top) ∧
        top <:+ location := Classical.byContradiction fun apart => by
      rw [removal.frame fun top located within => apart ⟨top, located, within⟩] at gone
      rw [gone] at there
      cases there
    refine ⟨top, located, ?_⟩
    by_cases same : location = top
    · refine .inr ⟨same, same ▸ removal.deletes_of_ne (fun other same' => ?_) ?_⟩
      · rw [located] at same'
        cases same'
        exact same ▸ isBelow_self location
      · rw [gone]
        exact fun same => by simp [← same] at there
    · have below : location.isBelow top = true := by
        simp [Location.isBelow, Location.isWithin_iff.mpr within, same]
      have directory := wellFormed.isDirectory_of_suffix there within (Ne.symm same)
      exact .inl (removal.mem_deletions located directory below there gone)
  · rintro ⟨top, located, deleted | ⟨rfl, deletes⟩⟩
    · have below := isBelow_of_mem_deletions deleted
      obtain ⟨within, apart⟩ := suffix_of_isBelow below
      exact object?_remove_of_mem_deletions located
        (wellFormed.isDirectory_of_suffix there within (Ne.symm apart)) deleted
    · obtain ⟨object, found⟩ := Option.isSome_iff_exists.mp there
      cases location with
      | nil => exact deletes.elim
      | cons name above =>
          obtain ⟨slash, spotted, -⟩ := wellFormed.spot_of_deletes deletes
          exact wellFormed.object?_remove_of_deletes found (short_of_locate located spotted) deletes

/-- What is there stays as it is if and only if it is not taken away. -/
theorem WellFormed.object?_remove_eq_iff (wellFormed : files.WellFormed) {location : Location}
    (there : (files.object? location).isSome) :
    (files.remove path).2.object? location = files.object? location ↔
      ¬files.Takes path location := by
  have shrinks := (wellFormed.removal_remove path).shrinks wellFormed
  rw [← wellFormed.object?_remove_eq_none_iff there]
  constructor
  · intro same gone
    rw [← same, gone] at there
    cases there
  · exact (shrinks.eq_none_or_eq location).resolve_left

end DownloadCache.FileSystem
