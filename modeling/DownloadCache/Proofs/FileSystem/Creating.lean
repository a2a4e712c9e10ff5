import DownloadCache.FileSystem.Change
import DownloadCache.Proofs.FileSystem.Locating
import DownloadCache.Proofs.FileSystem.WellFormed

/-!
# Creating

What is new is created under a name that a path spells, in a directory to which the path leads
(`vacancy_eq_ok_iff`, `exists_makeDirectory`).  Creating a directory and those above it that are
missing keeps a file system well-formed; if it succeeds, the path leads to a directory and to
nothing else (`WellFormed.makeDirectories`).
-/

namespace DownloadCache.FileSystem

set_option autoImplicit false

variable {files later : FileSystem} {path : Path}

/-! ## Growing -/

/-- Steps lead where they led if all that was found is found still. -/
theorem Leads.grow (kept : ∀ {location : Location} {object : Object},
      files.object? location = some object → later.object? location = some object)
    {links : Nat} {here there : Location} {steps : List Step}
    (leads : Leads files links here steps there) : Leads later links here steps there := by
  have directories : ∀ {location : Location}, files.IsDirectory location →
      later.IsDirectory location := fun ⟨number, found⟩ => ⟨number, kept found⟩
  induction leads with
  | done links here => exact .done links here
  | stay directory _ ih => exact .stay (directories directory) ih
  | up directory _ ih => exact .up (directories directory) ih
  | into directory short found solid _ ih =>
      exact .into (directories directory) short (kept found) solid ih
  | follow directory short found _ ih =>
      exact .follow (directories directory) short (kept found) ih

/-! ## Vacancies -/

/-- Something new has its place under the last name of the path, where there is nothing yet, in a
directory that is not locked. -/
theorem vacancy_eq_ok_iff {forDirectory : Bool} {location : Location} :
    files.vacancy path forDirectory = .ok location ↔
      ∃ name above slash, files.spot path = .ok (.present above, .name name slash) ∧
        name.utf8ByteSize ≤ maxNameOctets ∧ files.object? (name :: above) = none ∧
        (slash = true → forDirectory = true) ∧ files.isLocked above = false ∧
        location = name :: above := by
  rw [vacancy, bind_eq_ok_iff]
  constructor
  · rintro ⟨⟨place, last⟩, spotted, vacant⟩
    obtain ⟨name, slash, rfl⟩ : ∃ name slash, last = .name name slash := by
      cases last with
      | name name slash => exact ⟨name, slash, rfl⟩
      | _ => cases vacant
    obtain ⟨named, looked, vacant⟩ := bind_eq_ok_iff.mp vacant
    obtain ⟨above, rfl, short, rfl⟩ := lookUp_eq_ok_iff.mp looked
    rw [Finding.object?_child] at vacant
    split at vacant
    · cases vacant
    rename_i absent
    split at vacant
    · cases vacant
    rename_i accepted
    obtain ⟨unlocked, vacant⟩ := check_bind_eq_ok_iff.mp vacant
    cases vacant
    exact ⟨name, above, slash, spotted, short, by simpa [finding] using absent,
      by simpa using accepted, checkUnlocked_eq_ok_iff.mp unlocked, rfl⟩
  · rintro ⟨name, above, slash, spotted, short, absent, accepted, unlocked, rfl⟩
    refine ⟨_, spotted, bind_eq_ok_iff.mpr ⟨_, lookUp_eq_ok_iff.mpr ⟨_, rfl, short, rfl⟩, ?_⟩⟩
    have bare : ¬(slash = true ∧ forDirectory = false) := by simpa using accepted
    rw [Finding.object?_child, if_neg (by simp [finding, absent]), if_neg bare]
    exact check_bind_eq_ok_iff.mpr ⟨checkUnlocked_eq_ok_iff.mpr unlocked, rfl⟩

/-! ## One directory -/

/-- Whether a path leads to directories only. -/
def LeadsToDirectory (files : FileSystem) (path : Path) : Prop :=
  ∀ {first location : Location}, files.start path = .present first →
    Leads files maxLinks first path.trail.allSteps location → files.IsDirectory location

theorem leadsToDirectory_of_status (found : files.leadsToDirectory path = true) :
    files.LeadsToDirectory path := by
  intro first location start leads
  rw [leadsToDirectory] at found
  split at found
  case h_2 => cases found
  rename_i status
  obtain ⟨place, resolved, node⟩ := bind_eq_ok_iff.mp status
  obtain ⟨-, walked⟩ := resolve_eq_ok_iff.mp resolved
  rw [start] at walked
  obtain ⟨there, rfl, found⟩ := walk_present_eq_ok_iff.mp walked
  rw [leads.unique found]
  split at node
  · rename_i same
    cases node
    exact isDirectory_of_nodeAt? same
  · cases node

/-- A directory is created under the last name of the path, where there was nothing. -/
theorem exists_makeDirectory (made : files.makeDirectory path = .ok later) :
    ∃ name above slash, files.spot path = .ok (.present above, .name name slash) ∧
      name.utf8ByteSize ≤ maxNameOctets ∧ files.object? (name :: above) = none ∧
      later = files.create (name :: above) .directory := by
  obtain ⟨location, vacant, made⟩ := bind_eq_ok_iff.mp made
  cases made
  obtain ⟨name, above, slash, spotted, short, absent, -, -, rfl⟩ := vacancy_eq_ok_iff.mp vacant
  exact ⟨name, above, slash, spotted, short, absent, rfl⟩

theorem WellFormed.makeDirectory (wellFormed : files.WellFormed)
    (made : files.makeDirectory path = .ok later) :
    later.WellFormed ∧ later.LeadsToDirectory path := by
  obtain ⟨name, above, slash, spotted, short, vacant, rfl⟩ := exists_makeDirectory made
  obtain ⟨-, walked, held, last⟩ := spot_eq_ok_iff.mp spotted
  have held := checkDirectory_present_eq_ok_iff.mp held
  have legal := isName_of_lastStep last.symm
  have kept : ∀ {location : Location} {object : Object},
      files.object? location = some object →
        (files.create (name :: above) .directory).object? location = some object :=
    wellFormed.object?_create_of_some held vacant .directory
  have new : (files.create (name :: above) .directory).IsDirectory (name :: above) :=
    ⟨files.nextNumber, by rw [wellFormed.object?_create held vacant, if_pos rfl]⟩
  refine ⟨wellFormed.create held legal vacant .directory, fun start leads => ?_⟩
  -- The path leads to the new directory, for it leads to the one that holds it as before.
  have start : files.start path = .present _ := start
  rw [start] at walked
  obtain ⟨there, same, before⟩ := walk_present_eq_ok_iff.mp walked
  cases same
  obtain ⟨number, found⟩ := held
  obtain ⟨newNumber, newFound⟩ := new
  have into : Leads (files.create (name :: above) .directory) 0 above [.into name]
      (name :: above) :=
    .into ⟨number, kept found⟩ short newFound (by simp) (.done 0 _)
  have whole := (before.grow kept).append into
  rw [← (steps_of_lastStep last.symm).1] at whole
  rw [Trail.allSteps] at leads
  split at leads
  · rw [leads.unique (whole.append (.stay ⟨newNumber, newFound⟩ (.done 0 _)))]
    exact ⟨newNumber, newFound⟩
  · rw [leads.unique whole]
    exact ⟨newNumber, newFound⟩

/-! ## Several directories -/

/-- **Creating directories keeps a file system well-formed,** and if it succeeds the path leads to
a directory. -/
theorem WellFormed.makeDirectoriesWithin (wellFormed : files.WellFormed) (path : Path)
    (depth : Nat) :
    (files.makeDirectoriesWithin path depth).2.WellFormed ∧
      ((files.makeDirectoriesWithin path depth).1 = .ok () → path.text ≠ "" →
        (files.makeDirectoriesWithin path depth).2.LeadsToDirectory path) := by
  induction depth generalizing files path with
  | zero => exact ⟨wellFormed, nofun⟩
  | succ depth ih =>
      rw [FileSystem.makeDirectoriesWithin]
      split
      · rename_i empty
        exact ⟨wellFormed, fun _ filled => absurd (by simpa using empty) filled⟩
      split
      · rename_i made making
        obtain ⟨wellFormed, leads⟩ := wellFormed.makeDirectory making
        exact ⟨wellFormed, fun _ _ => leads⟩
      rename_i cause _
      split
      · split
        · exact ⟨wellFormed, nofun⟩
        rename_i parent _
        obtain ⟨above, -⟩ := ih wellFormed parent
        split <;> rename_i partway making <;> rw [making] at above
        · exact ⟨above, nofun⟩
        split
        · rename_i made making
          obtain ⟨wellFormed, leads⟩ := above.makeDirectory making
          exact ⟨wellFormed, fun _ _ => leads⟩
        split
        · rename_i there
          exact ⟨above, fun _ _ => leadsToDirectory_of_status there⟩
        · exact ⟨above, nofun⟩
      split
      · rename_i there
        exact ⟨wellFormed, fun _ _ => leadsToDirectory_of_status there⟩
      · exact ⟨wellFormed, nofun⟩

theorem WellFormed.makeDirectories (wellFormed : files.WellFormed) (path : Path) :
    (files.makeDirectories path).2.WellFormed ∧
      ((files.makeDirectories path).1 = .ok () → path.text ≠ "" →
        (files.makeDirectories path).2.LeadsToDirectory path) :=
  wellFormed.makeDirectoriesWithin path _

end DownloadCache.FileSystem
