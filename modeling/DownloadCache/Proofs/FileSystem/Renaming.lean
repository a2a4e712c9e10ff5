import DownloadCache.Proofs.FileSystem.Following

/-!
# When a file can be renamed

A path that names a file ends in a bare name (`spot_of_file`), and so it does in what is left of a
file system, if it names something there at all (`Shrinks.spot_of_linkStatus`).  A file is renamed
to a name in a directory unless there is a directory under that name, provided that the name is not
too long and that both directories permit it (`WellFormed.exists_rename_of_file`); otherwise that is
what the rename says (`rename_of_long_name`, `WellFormed.rename_of_locked`).
-/

namespace DownloadCache

set_option autoImplicit false

/-! ## The characters of a name -/

/-- A name that a path steps into consists of characters of the path. -/
theorem Path.mem_of_into_mem {path : Path} {name : String} (member : .into name ∈ path.trail.steps)
    {character : Char} (within : character ∈ name.toList) : character ∈ path.text.toList := by
  obtain ⟨piece, listed, step⟩ := List.mem_filterMap.mp member
  have same : name = String.ofList piece := by
    unfold Step.ofPiece? at step
    split at step <;> cases step
    rfl
  rw [same, String.toList_ofList] at within
  rw [← Path.unsplit_split path.text.toList]
  exact Path.mem_unsplit_of_mem listed within

namespace FileSystem

variable {files later : FileSystem} {path staging target : Path} {name newName : String}
  {above newAbove : Location} {slash : Bool} {node : Node} {object : Object}
  {content : List UInt8}

/-! ## Paths that name files -/

theorem linkStatus_eq_ok_iff :
    files.linkStatus path = .ok node ↔
      ∃ place, files.locate path = .ok place ∧ files.nodeAt? place = some node := by
  rw [linkStatus, bind_eq_ok_iff]
  refine exists_congr fun place => and_congr_right fun _ => ?_
  cases files.nodeAt? place <;> simp [refuse, pure, Except.pure]

/-- A name with a slash behind it leads to a directory. -/
theorem isDirectory_of_locate_slash {there : Location} (last : lastStep path.trail = .name name true)
    (located : files.locate path = .ok (.present there)) : files.IsDirectory there := by
  obtain ⟨steps, slash⟩ := steps_of_lastStep last
  rw [locate, last] at located
  obtain ⟨-, walked⟩ := resolve_eq_ok_iff.mp located
  rw [Trail.allSteps, if_pos slash, steps, List.append_assoc] at walked
  obtain ⟨here, rest, departs, leads⟩ := walk_eq_present_iff.mp walked
  rw [List.singleton_append, departure_append_into, Option.map_eq_some_iff] at departs
  obtain ⟨⟨first, before⟩, -, same⟩ := departs
  cases same
  rw [List.append_cons] at leads
  obtain ⟨between, fewer, -, -, onward⟩ := leads.part
  cases onward with
  | stay directory onward =>
      cases onward
      exact directory

/-- **A path that names a file ends in a bare name.** -/
theorem spot_of_file (spotted : files.spot path = .ok (.present above, .name name slash))
    (named : files.linkStatus path = .ok (.file content)) :
    files.spot path = .ok (.present above, .name name false) ∧
      name.utf8ByteSize ≤ maxNameOctets ∧
      ∃ number, files.object? (name :: above) = some ⟨number, .file content⟩ := by
  obtain ⟨place, located, node⟩ := linkStatus_eq_ok_iff.mp named
  obtain ⟨-, -, -, last⟩ := spot_eq_ok_iff.mp spotted
  cases slash with
  | false =>
      obtain ⟨above', object, spotted', short, found, rfl⟩ :=
        (locate_eq_ok_iff last.symm).mp located
      rw [spotted] at spotted'
      cases spotted'
      rw [nodeAt?_present, found] at node
      obtain ⟨number, _⟩ := object
      cases node
      exact ⟨spotted, short, number, found⟩
  | true =>
      cases place with
      | deleted parent => cases node
      | present there =>
          obtain ⟨number, found⟩ := isDirectory_of_locate_slash last.symm located
          rw [nodeAt?_present, found] at node
          cases node

/-- In what is left a path is spotted where it was, if it names something there. -/
theorem Shrinks.spot_of_linkStatus (shrinks : Shrinks files later)
    (spotted : files.spot path = .ok (.present above, .name name slash))
    (named : later.linkStatus path = .ok node) :
    later.spot path = .ok (.present above, .name name slash) := by
  obtain ⟨place, located, -⟩ := linkStatus_eq_ok_iff.mp named
  obtain ⟨-, -, -, last⟩ := spot_eq_ok_iff.mp spotted
  obtain ⟨above', spotted', -⟩ := exists_spot_of_locate last.symm located
  have before := shrinks.spot spotted'
  rw [spotted] at before
  cases before
  exact spotted'

/-- A path names the object under its last name, be it a link. -/
theorem linkStatus_of_spot (spotted : files.spot path = .ok (.present above, .name name slash))
    (short : name.utf8ByteSize ≤ maxNameOctets)
    (found : files.object? (name :: above) = some object)
    (solid : slash = true → object.isDirectory = true) :
    files.linkStatus path = .ok object.node := by
  refine linkStatus_eq_ok_iff.mpr ⟨_, locate_of_spot spotted short found solid, ?_⟩
  rw [nodeAt?_present, found]
  rfl

/-! ## Renaming a file -/

/-- The name to which a file is renamed must not be too long. -/
theorem rename_of_long_name (clean : '\x00' ∉ target.text.toList)
    (spotted : files.spot staging = .ok (.present above, .name name slash))
    (short : name.utf8ByteSize ≤ maxNameOctets)
    (found : files.object? (name :: above) = some object)
    (newSpotted : files.spot target = .ok (.present newAbove, .name newName false))
    (long : maxNameOctets < newName.utf8ByteSize) :
    files.rename staging target = refuse .nameTooLong := by
  obtain ⟨named, looked, there, -⟩ := files.exists_lookUp_eq_ok short above
  have refused : files.lookUp newName (.present newAbove) = refuse .nameTooLong := by
    rw [lookUp, Finding.lookUp, if_pos long]
  rw [rename, if_neg (by simpa using clean)]
  simp only [spotted, newSpotted, looked, there, found, refused, Bind.bind, Except.bind, refuse]

/-- What is left of the renaming of a file to a name in a directory when both paths have been walked
along. -/
theorem WellFormed.rename_of_file (wellFormed : files.WellFormed)
    (clean : '\x00' ∉ target.text.toList)
    (spotted : files.spot staging = .ok (.present above, .name name false))
    (short : name.utf8ByteSize ≤ maxNameOctets)
    (found : files.object? (name :: above) = some object) (plain : object.isDirectory = false)
    (newSpotted : files.spot target = .ok (.present newAbove, .name newName false))
    (newShort : newName.utf8ByteSize ≤ maxNameOctets) (outside : ¬newAbove <:+ name :: above) :
    files.rename staging target =
      if (files.object? (newName :: newAbove)).any (·.number = object.number) then .ok files
      else files.checkMove object (name :: above) (newName :: newAbove) >>= fun _ =>
        .ok (files.move (name :: above) (newName :: newAbove)) := by
  obtain ⟨named, looked, there, place⟩ := files.exists_lookUp_eq_ok short above
  obtain ⟨newNamed, newLooked, newThere, newPlace⟩ := files.exists_lookUp_eq_ok newShort newAbove
  have held := checkDirectory_present_eq_ok_iff.mp (spot_eq_ok_iff.mp newSpotted).2.2.1
  have notInto : ¬Location.isWithin newAbove (name :: above) = true := by
    intro within
    have directory := wellFormed.isDirectory_of_within held (Location.isWithin_iff.mp within)
    rw [directory.isDirectory_of_found found] at plain
    cases plain
  have notAbove : ¬Location.isWithin above (newName :: newAbove) = true := by
    intro within
    exact outside ((List.suffix_cons newName newAbove).trans
      ((Location.isWithin_iff.mp within).trans (List.suffix_cons name above)))
  rw [rename, if_neg (by simpa using clean)]
  simp only [spotted, newSpotted, looked, there, found, place, newLooked, newThere, newPlace,
    Bind.bind, Except.bind, pure, Except.pure]
  rw [if_neg (by simp), if_neg (by exact notInto), if_neg (by exact notAbove)]

/-- Whether what is at one location may be renamed to another: no name need change, since both are
of one object, or neither directory is locked. -/
def Permits (files : FileSystem) (source target : Location) : Prop :=
  (files.object? target).map Object.number = (files.object? source).map Object.number ∨
    files.isLocked source.parent = false ∧ files.isLocked target.parent = false

/-- A rename has been permitted if it has come to an end. -/
theorem Renaming.permits
    (moved : Renaming files staging target later name above object newName newAbove) :
    files.Permits (name :: above) (newName :: newAbove) := by
  rcases moved.outcome with ⟨-, occupant, occupied, same⟩ | ⟨-, -, -, unlocked⟩
  · refine .inl ?_
    rw [occupied, moved.found]
    exact congrArg some same
  · exact .inr unlocked

/-- **A file is renamed to a name in a directory,** unless there is a directory under that name or a
lock forbids it. -/
theorem WellFormed.exists_rename_of_file (wellFormed : files.WellFormed)
    (clean : '\x00' ∉ target.text.toList)
    (spotted : files.spot staging = .ok (.present above, .name name false))
    (short : name.utf8ByteSize ≤ maxNameOctets)
    (found : files.object? (name :: above) = some object) (plain : object.isDirectory = false)
    (newSpotted : files.spot target = .ok (.present newAbove, .name newName false))
    (newShort : newName.utf8ByteSize ≤ maxNameOctets) (outside : ¬newAbove <:+ name :: above)
    (free : ¬files.IsDirectory (newName :: newAbove))
    (permitted : files.Permits (name :: above) (newName :: newAbove)) :
    ∃ later, files.rename staging target = .ok later := by
  rw [wellFormed.rename_of_file clean spotted short found plain newSpotted newShort outside]
  split
  · exact ⟨_, rfl⟩
  · rename_i apart
    rw [Permits, found] at permitted
    obtain ⟨unlocked, newUnlocked⟩ := permitted.resolve_left fun same => apart (by
      obtain ⟨occupant, occupied, same⟩ := Option.map_eq_some_iff.mp same
      simp [occupied, same])
    refine ⟨_, bind_eq_ok_iff.mpr ⟨(), checkMove_eq_ok_iff.mpr ⟨unlocked, newUnlocked, ?_, ?_⟩, rfl⟩⟩
    · intro occupant occupied
      rw [plain]
      exact Bool.eq_false_iff.mpr fun kind =>
        free (isDirectory_iff.mpr ⟨occupant, occupied, kind⟩)
    · rw [plain]
      nofun

/-- A file is not renamed where a lock forbids it. -/
theorem WellFormed.rename_of_locked (wellFormed : files.WellFormed)
    (clean : '\x00' ∉ target.text.toList)
    (spotted : files.spot staging = .ok (.present above, .name name false))
    (short : name.utf8ByteSize ≤ maxNameOctets)
    (found : files.object? (name :: above) = some object) (plain : object.isDirectory = false)
    (newSpotted : files.spot target = .ok (.present newAbove, .name newName false))
    (newShort : newName.utf8ByteSize ≤ maxNameOctets) (outside : ¬newAbove <:+ name :: above)
    (forbidden : ¬files.Permits (name :: above) (newName :: newAbove)) :
    files.rename staging target = refuse .accessDenied := by
  rw [wellFormed.rename_of_file clean spotted short found plain newSpotted newShort outside]
  rw [Permits, found] at forbidden
  obtain ⟨apart, unlocked⟩ := not_or.mp forbidden
  have locked : files.isLocked above = true ∨ files.isLocked newAbove = true := by
    simpa [Location.parent, Decidable.imp_iff_not_or] using unlocked
  rw [if_neg, checkMove_of_locked locked]
  · rfl
  · intro same
    cases occupied : files.object? (newName :: newAbove) with
    | none => simp [occupied] at same
    | some occupant => exact apart (by simpa [occupied] using same)

end FileSystem

end DownloadCache
