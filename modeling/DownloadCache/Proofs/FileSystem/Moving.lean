import DownloadCache.FileSystem.Change
import DownloadCache.Proofs.FileSystem.Locating
import DownloadCache.Proofs.FileSystem.WellFormed

/-!
# Moving

A rename that succeeds moves what is under the last name of one path to the last name of another,
or does nothing if both names are of one object (`exists_renaming`).  Neither location is above the
directory of the other (`Movable`).  Where there was no directory at the new name, moving keeps a
file system well-formed, with the working directory moved along (`WellFormed.move`).
-/

namespace DownloadCache.FileSystem

set_option autoImplicit false

variable {files later : FileSystem}

/-! ## Locations -/

/-- Whether something can be moved from one location to another: it is there, there is a directory
to hold it, and neither location is above the other. -/
structure Movable (files : FileSystem) (source : Location) (name : String) (above : Location) :
    Prop where
  found : (files.object? source).isSome
  held : files.IsDirectory above
  outside : ¬source <:+ above
  notAbove : ¬name :: above <:+ source

variable {source above : Location} {name : String}

theorem Movable.object?_move (movable : Movable files source name above) (other : Location) :
    (files.move source (name :: above)).object? other =
      if other.isWithin (name :: above) then
        files.object? (Location.moved (name :: above) source other)
      else if other.isWithin source then none
      else files.object? other := by
  have held : (files.object? (Location.parent (name :: above))).isSome := movable.held.isSome
  exact files.object?_move movable.found held movable.outside movable.notAbove other

/-- What is moved is found at its new location, with all that lies below it. -/
theorem Movable.object?_append (movable : Movable files source name above) (below : Location) :
    (files.move source (name :: above)).object? (below ++ name :: above) =
      files.object? (below ++ source) := by
  rw [movable.object?_move, if_pos (Location.isWithin_append below _), Location.moved_append]

/-- What is within neither location stays as it is. -/
theorem Movable.frame (movable : Movable files source name above) {other : Location}
    (notTarget : ¬name :: above <:+ other) (notSource : ¬source <:+ other) :
    (files.move source (name :: above)).object? other = files.object? other := by
  rw [movable.object?_move, if_neg (mt Location.isWithin_iff.mp notTarget),
    if_neg (mt Location.isWithin_iff.mp notSource)]

/-! ## Well-formedness -/

/-- What is within neither location and is a directory stays one. -/
theorem Movable.isDirectory_frame (movable : Movable files source name above) {other : Location}
    (notTarget : ¬name :: above <:+ other) (notSource : ¬source <:+ other)
    (directory : files.IsDirectory other) :
    (files.move source (name :: above)).IsDirectory other :=
  directory.of_same (movable.frame notTarget notSource)

/-- A directory that is moved is one at its new location. -/
theorem Movable.isDirectory_append (movable : Movable files source name above) {below : Location}
    (directory : files.IsDirectory (below ++ source)) :
    (files.move source (name :: above)).IsDirectory (below ++ name :: above) :=
  directory.of_same (movable.object?_append below)

/-- The directory that holds the new name stays one. -/
theorem Movable.isDirectory_above (movable : Movable files source name above) :
    (files.move source (name :: above)).IsDirectory above :=
  movable.isDirectory_frame (not_cons_suffix name above) movable.outside movable.held

/-- Moving takes the working directory along. -/
theorem working_move (found : (files.object? source).isSome) (target : Location) :
    (files.move source target).working =
      (files.working.sieve fun other => !other.isWithin target).relocate
        (Location.moved source target) := by
  obtain ⟨tree, found⟩ : ∃ tree, files.root.find? source = some tree := by
    simpa [object?, Option.isSome_iff_exists] using found
  simp [move, found, erase]

/-- The place of a directory is not lost with what is under a name that is not one. -/
theorem WellFormed.sieve_eq_self (wellFormed : files.WellFormed)
    (solid : ¬files.IsDirectory (name :: above)) {place : Place} (grounded : files.Grounded place) :
    (place.sieve fun other => !other.isWithin (name :: above)) = place := by
  induction place with
  | deleted parent ih => rw [Place.sieve, ih grounded]
  | present location =>
      have apart : ¬name :: above <:+ location := fun within =>
        solid (wellFormed.isDirectory_of_within grounded within)
      exact Place.sieve_present_of_keep _ (by simpa using mt Location.isWithin_iff.mp apart)

/-- Where there was no directory at the new name, the working directory is only moved along. -/
theorem WellFormed.working_move_eq (wellFormed : files.WellFormed)
    (movable : Movable files source name above) (solid : ¬files.IsDirectory (name :: above)) :
    (files.move source (name :: above)).working =
      files.working.relocate (Location.moved source (name :: above)) := by
  rw [working_move movable.found, wellFormed.sieve_eq_self solid wellFormed.working]

theorem WellFormed.grounded_move (wellFormed : files.WellFormed)
    (movable : Movable files source name above) (solid : ¬files.IsDirectory (name :: above))
    {place : Place} (grounded : files.Grounded place) :
    (files.move source (name :: above)).Grounded
      (place.relocate (Location.moved source (name :: above))) := by
  induction place with
  | deleted parent ih => exact ih grounded
  | present location =>
      change (files.move source (name :: above)).IsDirectory _
      by_cases under : source <:+ location
      · obtain ⟨below, rfl⟩ := under
        rw [Location.moved_append]
        exact movable.isDirectory_append grounded
      · -- A directory is not within the new name, which is not one.
        have apart : ¬name :: above <:+ location := fun within =>
          solid (wellFormed.isDirectory_of_within grounded within)
        rw [Location.moved, if_neg (mt Location.isWithin_iff.mp under)]
        exact movable.isDirectory_frame apart under grounded

/-- **Moving keeps a file system well-formed,** where there was no directory at the new name. -/
theorem WellFormed.move (wellFormed : files.WellFormed)
    (movable : Movable files source name above) (legal : IsName name)
    (solid : ¬files.IsDirectory (name :: above)) :
    (files.move source (name :: above)).WellFormed where
  root := by
    refine movable.isDirectory_frame (by simp) (fun top => ?_) wellFormed.root
    exact movable.outside (List.suffix_nil.mp top ▸ List.nil_suffix)
  held := by
    intro first rest found
    by_cases inTarget : name :: above <:+ first :: rest
    · rcases List.suffix_cons_iff.mp inTarget with same | ⟨below, rfl⟩
      · obtain ⟨rfl, rfl⟩ := List.cons.inj same
        exact ⟨movable.isDirectory_above, legal⟩
      · rw [← List.cons_append, movable.object?_append] at found
        obtain ⟨directory, legal⟩ := wellFormed.held found
        exact ⟨movable.isDirectory_append directory, legal⟩
    by_cases inSource : source <:+ first :: rest
    · rw [movable.object?_move, if_neg (mt Location.isWithin_iff.mp inTarget),
        if_pos (Location.isWithin_iff.mpr inSource)] at found
      cases found
    · rw [movable.frame inTarget inSource] at found
      obtain ⟨directory, legal⟩ := wellFormed.held found
      have up : rest <:+ first :: rest := List.suffix_cons first rest
      exact ⟨movable.isDirectory_frame (fun within => inTarget (within.trans up))
        (fun within => inSource (within.trans up)) directory, legal⟩
  working := by
    rw [wellFormed.working_move_eq movable solid]
    exact wellFormed.grounded_move movable solid wellFormed.working

/-! ## Renaming by path -/

/-- What can be moved is in a directory that is not locked, and so is its new name; it takes the
place of something of its own kind, a directory that of an empty one. -/
theorem checkMove_eq_ok_iff {object : Object} {source target : Location} :
    files.checkMove object source target = .ok () ↔
      files.isLocked source.parent = false ∧ files.isLocked target.parent = false ∧
        (∀ occupant, files.object? target = some occupant →
          occupant.isDirectory = object.isDirectory) ∧
        (object.isDirectory = true →
          (source.parent ≠ target.parent → files.isLocked source = false) ∧
            files.names target = []) := by
  have kind : checkKind object (files.object? target) = .ok () ↔
      ∀ occupant, files.object? target = some occupant →
        occupant.isDirectory = object.isDirectory := by
    cases files.object? target with
    | none => simp [checkKind]
    | some occupant =>
        rw [checkKind]
        cases mine : object.isDirectory <;> cases other : occupant.isDirectory <;>
          simp [other, refuse]
  rw [checkMove, check_bind_eq_ok_iff, checkUnlocked_eq_ok_iff, check_bind_eq_ok_iff,
    checkUnlocked_eq_ok_iff, check_bind_eq_ok_iff, kind]
  refine and_congr_right fun _ => and_congr_right fun _ => and_congr_right fun _ => ?_
  cases object.isDirectory with
  | false => simp [pure, Except.pure]
  | true =>
      by_cases same : source.parent = target.parent <;>
        cases empty : (files.names target).isEmpty <;>
        cases locked : files.isLocked source <;>
        simp_all [checkUnlocked, refuse, Bind.bind, Except.bind, pure, Except.pure]

/-- A move is refused by a lock on the directory of the old name or of the new one. -/
theorem checkMove_of_locked {object : Object} {source target : Location}
    (locked : files.isLocked source.parent = true ∨ files.isLocked target.parent = true) :
    files.checkMove object source target = refuse .accessDenied := by
  rw [checkMove]
  cases unlocked : files.isLocked source.parent with
  | true =>
      rw [checkUnlocked_of_locked unlocked]
      rfl
  | false =>
      rw [checkUnlocked_eq_ok_iff.mpr unlocked,
        checkUnlocked_of_locked (locked.resolve_left (by simp [unlocked]))]
      rfl

/-- A rename that has come to an end, with what was found under the last names of its paths. -/
structure Renaming (files : FileSystem) (source target : Path) (later : FileSystem)
    (name : String) (above : Location) (object : Object) (newName : String)
    (newAbove : Location) : Prop where
  spotted : ∃ slash, files.spot source = .ok (.present above, .name name slash) ∧
    (slash = true → object.isDirectory = true)
  short : name.utf8ByteSize ≤ maxNameOctets
  found : files.object? (name :: above) = some object
  newSpotted : ∃ slash, files.spot target = .ok (.present newAbove, .name newName slash)
  newShort : newName.utf8ByteSize ≤ maxNameOctets
  outside : ¬name :: above <:+ newAbove
  /-- Nothing has happened, since both names are of one object, or the object has been moved, which
  neither of the directories forbids. -/
  outcome : (later = files ∧ ∃ occupant, files.object? (newName :: newAbove) = some occupant ∧
      occupant.number = object.number) ∨
    (later = files.move (name :: above) (newName :: newAbove) ∧
      Movable files (name :: above) newName newAbove ∧
      (∀ occupant, files.object? (newName :: newAbove) = some occupant →
        occupant.number ≠ object.number) ∧
      files.isLocked above = false ∧ files.isLocked newAbove = false)

/-- **A rename moves what is under one name to another,** or does nothing if both are names of one
object. -/
theorem exists_renaming {source target : Path} (renamed : files.rename source target = .ok later) :
    ∃ name above object newName newAbove,
      Renaming files source target later name above object newName newAbove := by
  rw [rename] at renamed
  split at renamed
  · cases renamed
  obtain ⟨⟨place, last⟩, spotted, renamed⟩ := bind_eq_ok_iff.mp renamed
  obtain ⟨⟨newPlace, newLast⟩, newSpotted, renamed⟩ := bind_eq_ok_iff.mp renamed
  obtain ⟨name, slash, rfl⟩ : ∃ name slash, last = .name name slash := by
    cases last with
    | name name slash => exact ⟨name, slash, rfl⟩
    | _ => cases renamed
  obtain ⟨newName, newSlash, rfl⟩ : ∃ name slash, newLast = .name name slash := by
    cases newLast with
    | name name slash => exact ⟨name, slash, rfl⟩
    | _ => cases renamed
  obtain ⟨before, looked, renamed⟩ := bind_eq_ok_iff.mp renamed
  obtain ⟨above, rfl, short, rfl⟩ := lookUp_eq_ok_iff.mp looked
  rw [Finding.object?_child] at renamed
  split at renamed
  · cases renamed
  rename_i object found
  obtain ⟨after, looked, renamed⟩ := bind_eq_ok_iff.mp renamed
  obtain ⟨newAbove, rfl, newShort, rfl⟩ := lookUp_eq_ok_iff.mp looked
  split at renamed
  · cases renamed
  rename_i slashes
  split at renamed
  · cases renamed
  rename_i outside
  split at renamed
  · cases renamed
  rename_i notAbove
  have found : files.object? (name :: above) = some object := found
  have outside : ¬name :: above <:+ newAbove := mt Location.isWithin_iff.mpr outside
  have notAbove : ¬newName :: newAbove <:+ above := mt Location.isWithin_iff.mpr notAbove
  have solid : slash = true → object.isDirectory = true := by
    intro trailing
    cases kind : object.isDirectory with
    | true => rfl
    | false => exact absurd ⟨kind, .inl trailing⟩ slashes
  have held := checkDirectory_present_eq_ok_iff.mp (spot_eq_ok_iff.mp newSpotted).2.2.1
  -- What is moved is another object than the one whose place it takes.
  have movable : ∀ object', files.object? (newName :: newAbove) = object' →
      object' ≠ some object → Movable files (name :: above) newName newAbove := by
    intro object' found' apart
    refine ⟨by rw [found]; rfl, held, outside, fun within => ?_⟩
    rcases List.suffix_cons_iff.mp within with same | within
    · rw [same, found] at found'
      exact apart found'.symm
    · exact notAbove within
  refine ⟨name, above, object, newName, newAbove, ⟨slash, spotted, solid⟩, short, found,
    ⟨newSlash, newSpotted⟩, newShort, outside, ?_⟩
  rw [Finding.object?_child] at renamed
  change (if (files.object? (newName :: newAbove)).any _ then _ else _) = _ at renamed
  split at renamed
  · rename_i same
    cases renamed
    cases occupied : files.object? (newName :: newAbove) with
    | none => simp [occupied] at same
    | some occupant => exact .inl ⟨rfl, occupant, rfl, by simpa [occupied] using same⟩
  · rename_i apart
    obtain ⟨allowed, renamed⟩ := check_bind_eq_ok_iff.mp renamed
    cases renamed
    obtain ⟨unlocked, newUnlocked, -⟩ := checkMove_eq_ok_iff.mp allowed
    have apart : ∀ occupant, files.object? (newName :: newAbove) = some occupant →
        occupant.number ≠ object.number := by
      intro occupant occupied same
      exact apart (by simp [occupied, same])
    exact .inr ⟨rfl, movable _ rfl fun same => apart object same rfl, apart, unlocked, newUnlocked⟩

/-- What is found after a rename was there before, or is under the new name. -/
theorem Renaming.eq_of_isSome
    {source target : Path} {object : Object} {newName : String} {newAbove : Location}
    (moved : Renaming files source target later name above object newName newAbove)
    {location : Location} (apart : ¬newName :: newAbove <:+ location)
    (there : (later.object? location).isSome) :
    later.object? location = files.object? location := by
  rcases moved.outcome with ⟨rfl, -⟩ | ⟨rfl, movable, -⟩
  · rfl
  · rw [movable.object?_move, if_neg (mt Location.isWithin_iff.mp apart)] at there ⊢
    split at there
    · cases there
    · rename_i outside
      rw [if_neg outside]

end DownloadCache.FileSystem
