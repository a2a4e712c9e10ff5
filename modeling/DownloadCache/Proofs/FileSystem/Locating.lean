import DownloadCache.Proofs.FileSystem.Leading
import DownloadCache.Proofs.Path.Name

/-!
# What paths lead to

Each way to look at a path is described by where its steps lead: `resolve` takes all of them,
`spot` all but the last (`spot_eq_ok_iff`), and `locate` reads the last one as a name if no slash
follows it (`locate_eq_ok_iff`).  Where there is a slash, the name has to be that of a directory
(`locate_of_spot`).
-/

namespace DownloadCache.FileSystem

set_option autoImplicit false

variable {files : FileSystem}

/-! ## Walks between places -/

/-- From a directory with a location a walk leads where the steps lead. -/
theorem walk_present_eq_ok_iff {here : Location} {steps : List Step} {place : Place} :
    files.walk (.present here) steps = .ok place ↔
      ∃ there, place = .present there ∧ Leads files maxLinks here steps there := by
  rw [walk.eq_def]
  dsimp only
  constructor
  · intro found
    cases walked : (files.finding here).walk maxLinks steps with
    | error cause => simp [walked, Except.map] at found
    | ok there =>
        simp only [walked, Except.map, Except.ok.injEq] at found
        exact ⟨there, found.symm, Finding.walk_eq_ok_iff.mp walked⟩
  · rintro ⟨there, rfl, leads⟩
    have walked : (files.finding here).walk maxLinks steps = .ok there :=
      Finding.walk_eq_ok_iff.mpr leads
    rw [walked]
    rfl

/-- A place with a location is a directory if there is one at the location. -/
theorem checkDirectory_present_eq_ok_iff {location : Location} :
    files.checkDirectory (.present location) = .ok () ↔ files.IsDirectory location :=
  Finding.checkDirectory_eq_ok_iff

/-- Steps go on from where the steps before them lead. -/
theorem walk_append {place : Place} {first second : List Step} {between there : Location}
    (found : files.walk place first = .ok (.present between))
    (onward : Leads files 0 between second there) :
    files.walk place (first ++ second) = .ok (.present there) := by
  induction place generalizing first with
  | present here =>
      obtain ⟨location, same, leads⟩ := walk_present_eq_ok_iff.mp found
      cases same
      exact walk_present_eq_ok_iff.mpr ⟨there, rfl, leads.append onward⟩
  | deleted parent ih =>
      induction first with
      | nil => cases found
      | cons step rest stays =>
          cases step with
          | stay => exact stays found
          | up => exact ih found
          | into name => cases found

/-- Where steps lead, they lead from where the steps before them lead. -/
theorem leads_of_walk_append {place : Place} {first second : List Step} {between : Location}
    {there : Place} (found : files.walk place first = .ok (.present between))
    (whole : files.walk place (first ++ second) = .ok there) :
    ∃ links location, there = .present location ∧ Leads files links between second location := by
  induction place generalizing first with
  | present here =>
      obtain ⟨location, rfl, leads⟩ := walk_present_eq_ok_iff.mp whole
      obtain ⟨here', same, before⟩ := walk_present_eq_ok_iff.mp found
      cases same
      obtain ⟨between', links, fewer, before', onward⟩ := leads.part
      rw [before'.unique before] at onward
      exact ⟨links, location, rfl, onward⟩
  | deleted parent ih =>
      induction first with
      | nil => cases found
      | cons step rest stays =>
          cases step with
          | stay => exact stays found whole
          | up => exact ih found whole
          | into name => cases found

/-! ## Finding by path -/

/-- Only a relative path starts in a directory that has been deleted, the working directory. -/
theorem eq_of_start_eq_deleted {path : Path} {parent : Place}
    (start : files.start path = .deleted parent) :
    path.isAbsolute = false ∧ files.working = .deleted parent := by
  rw [FileSystem.start] at start
  split at start
  · cases start
  · rename_i relative
    exact ⟨by simpa using relative, start⟩

theorem resolve_eq_ok_iff {path : Path} {place : Place} :
    files.resolve path = .ok place ↔
      checkPath path = .ok () ∧
        files.walk (files.start path) path.trail.allSteps = .ok place := by
  rw [resolve, check_bind_eq_ok_iff]

/-- The last step of a path is taken in a directory. -/
theorem spot_eq_ok_iff {path : Path} {place : Place} {last : Last} :
    files.spot path = .ok (place, last) ↔
      checkPath path = .ok () ∧
        files.walk (files.start path) path.trail.steps.dropLast = .ok place ∧
        files.checkDirectory place = .ok () ∧ last = lastStep path.trail := by
  rw [spot, check_bind_eq_ok_iff, bind_eq_ok_iff]
  refine and_congr_right fun _ => ?_
  constructor
  · rintro ⟨directory, walked, rest⟩
    obtain ⟨isDirectory, same⟩ := check_bind_eq_ok_iff.mp rest
    cases same
    exact ⟨walked, isDirectory, rfl⟩
  · rintro ⟨walked, isDirectory, rfl⟩
    exact ⟨place, walked, check_bind_eq_ok_iff.mpr ⟨isDirectory, rfl⟩⟩

theorem isDirectory_of_nodeAt? {location : Location}
    (directory : files.nodeAt? (.present location) = some .directory) :
    files.IsDirectory location := by
  obtain ⟨⟨number, node⟩, found, same⟩ := Option.map_eq_some_iff.mp directory
  have same : node = .directory := same
  exact ⟨number, same ▸ found⟩

/-- Names are looked up in directories with a location. -/
theorem lookUp_eq_ok_iff {name : String} {place : Place} {named : Finding files} :
    files.lookUp name place = .ok named ↔
      ∃ directory, place = .present directory ∧ name.utf8ByteSize ≤ maxNameOctets ∧
        named = (files.finding directory).child name := by
  cases place with
  | deleted parent => simp [lookUp, refuse]
  | present directory =>
      by_cases long : name.utf8ByteSize > maxNameOctets
      · simp [lookUp, Finding.lookUp, long, refuse, Nat.not_le.mpr long]
      · simp [lookUp, Finding.lookUp, long, Nat.le_of_not_gt long, eq_comm]

/-- Under a name that is not too long, what is looked up in a directory is what is there. -/
theorem exists_lookUp_eq_ok (files : FileSystem) {name : String}
    (short : name.utf8ByteSize ≤ maxNameOctets) (above : Location) :
    ∃ named : Finding files, files.lookUp name (.present above) = .ok named ∧
      named.object? = files.object? (name :: above) ∧ named.location = name :: above :=
  ⟨_, lookUp_eq_ok_iff.mpr ⟨above, rfl, short, rfl⟩, Finding.object?_child .., rfl⟩

/-- A path whose last step is a name with no slash behind it leads to what is under the name. -/
theorem locate_eq_ok_iff {path : Path} {name : String} {place : Place}
    (last : lastStep path.trail = .name name false) :
    files.locate path = .ok place ↔
      ∃ directory object, files.spot path = .ok (.present directory, .name name false) ∧
        name.utf8ByteSize ≤ maxNameOctets ∧
        files.object? (name :: directory) = some object ∧
        place = .present (name :: directory) := by
  rw [locate, last]
  dsimp only
  rw [bind_eq_ok_iff]
  constructor
  · rintro ⟨⟨directory, step⟩, spotted, rest⟩
    obtain ⟨-, -, -, rfl⟩ := spot_eq_ok_iff.mp spotted
    rw [last] at spotted rest
    obtain ⟨named, looked, rest⟩ := bind_eq_ok_iff.mp rest
    obtain ⟨location, rfl, short, rfl⟩ := lookUp_eq_ok_iff.mp looked
    rw [Finding.object?_child] at rest
    cases found : files.object? (name :: (files.finding location).location) with
    | none => simp [found, refuse] at rest
    | some object =>
        simp only [found] at rest
        cases rest
        exact ⟨location, object, spotted, short, found, rfl⟩
  · rintro ⟨directory, object, spotted, short, found, rfl⟩
    refine ⟨_, spotted, bind_eq_ok_iff.mpr ⟨_, lookUp_eq_ok_iff.mpr ⟨_, rfl, short, rfl⟩, ?_⟩⟩
    rw [Finding.object?_child]
    simp only [finding, found]
    rfl

/-- A path whose last step is a name consists of the steps before it and the step into the name. -/
theorem steps_of_lastStep {path : Path} {name : String} {slash : Bool}
    (last : lastStep path.trail = .name name slash) :
    path.trail.steps = path.trail.steps.dropLast ++ [.into name] ∧ path.trail.slash = slash := by
  rw [lastStep] at last
  split at last
  · cases last
  · cases last
  · cases last
  · rename_i found
    cases last
    obtain ⟨before, whole⟩ := List.getLast?_eq_some_iff.mp found
    refine ⟨?_, rfl⟩
    rw [whole, List.dropLast_concat]

/-- The last name of a path is a name. -/
theorem isName_of_lastStep {path : Path} {name : String} {slash : Bool}
    (last : lastStep path.trail = .name name slash) : IsName name := by
  have member : .into name ∈ path.trail.steps := by
    rw [(steps_of_lastStep last).1]
    exact List.mem_append_right _ List.mem_cons_self
  exact Path.isName_of_into_mem member

/-- A path leads to what is under its last name, unless that is a link. -/
theorem resolve_of_spot {path : Path} {name : String} {slash : Bool} {directory : Location}
    {object : Object} (spotted : files.spot path = .ok (.present directory, .name name slash))
    (short : name.utf8ByteSize ≤ maxNameOctets)
    (found : files.object? (name :: directory) = some object)
    (solid : slash = true → object.isDirectory = true)
    (unlinked : ∀ link, object.node ≠ .link link) :
    files.resolve path = .ok (.present (name :: directory)) := by
  obtain ⟨checked, walked, isDirectory, last⟩ := spot_eq_ok_iff.mp spotted
  have isDirectory := checkDirectory_present_eq_ok_iff.mp isDirectory
  obtain ⟨steps, trailing⟩ := steps_of_lastStep last.symm
  refine resolve_eq_ok_iff.mpr ⟨checked, ?_⟩
  rw [Trail.allSteps, trailing]
  cases slash with
  | false =>
      rw [if_neg (by simp), steps]
      exact walk_append walked (.into isDirectory short found unlinked (.done 0 _))
  | true =>
      rw [if_pos rfl, steps, List.append_assoc]
      have inside : files.IsDirectory (name :: directory) :=
        isDirectory_iff.mpr ⟨object, found, solid rfl⟩
      exact walk_append walked
        (.into isDirectory short found unlinked (.stay inside (.done 0 _)))

/-- What is under the last name of a path is what the path leads to, if a slash behind the name is
that of a directory. -/
theorem locate_of_spot {path : Path} {name : String} {slash : Bool} {directory : Location}
    {object : Object} (spotted : files.spot path = .ok (.present directory, .name name slash))
    (short : name.utf8ByteSize ≤ maxNameOctets)
    (found : files.object? (name :: directory) = some object)
    (solid : slash = true → object.isDirectory = true) :
    files.locate path = .ok (.present (name :: directory)) := by
  obtain ⟨-, -, -, last⟩ := spot_eq_ok_iff.mp spotted
  cases slash with
  | false =>
      exact (locate_eq_ok_iff last.symm).mpr ⟨directory, object, spotted, short, found, rfl⟩
  | true =>
      obtain ⟨number, same⟩ : files.IsDirectory (name :: directory) :=
        isDirectory_iff.mpr ⟨object, found, solid rfl⟩
      have resolved := resolve_of_spot spotted short same (fun _ => rfl) nofun
      rw [locate, ← last]
      exact resolved

/-- The canonical path is that of the location to which the steps lead from a location. -/
theorem canonical_eq_ok_iff {path result : Path} :
    files.canonical path = .ok result ↔
      checkSpelling path = .ok () ∧
        ∃ first location, files.start path = .present first ∧
          Leads files maxLinks first path.trail.allSteps location ∧
          checkLength (pathOf location) = .ok () ∧ result = pathOf location := by
  rw [canonical, check_bind_eq_ok_iff]
  refine and_congr_right fun _ => ?_
  constructor
  · intro found
    obtain ⟨first, start, found⟩ := bind_eq_ok_iff.mp found
    obtain ⟨location, walked, found⟩ := bind_eq_ok_iff.mp found
    obtain ⟨short, same⟩ := check_bind_eq_ok_iff.mp found
    cases same
    refine ⟨first, location, ?_, Finding.walk_eq_ok_iff.mp walked, short, rfl⟩
    cases place : files.start path with
    | present here => simpa [place, locationOf] using start
    | deleted parent => simp [place, locationOf, refuse] at start
  · rintro ⟨first, location, start, leads, short, rfl⟩
    refine bind_eq_ok_iff.mpr ⟨first, by rw [start]; rfl, bind_eq_ok_iff.mpr ⟨location, ?_, ?_⟩⟩
    · exact Finding.walk_eq_ok_iff.mpr leads
    · exact check_bind_eq_ok_iff.mpr ⟨short, rfl⟩

/-- The path of a location is spelled from the root on. -/
theorem isAbsolute_pathOf (location : Location) : (pathOf location).isAbsolute = true := by
  simp [Path.isAbsolute, pathOf]

/-- A path that is spelled from the root on is not empty. -/
theorem text_ne_empty {path : Path} (absolute : path.isAbsolute = true) : path.text ≠ "" := by
  intro empty
  rw [Path.isAbsolute, empty] at absolute
  cases absolute

theorem text_pathOf_ne_empty (location : Location) : (pathOf location).text ≠ "" :=
  text_ne_empty (isAbsolute_pathOf location)

/-! ## The path of a name within a directory -/

theorem checkPath_eq_ok_iff {path : Path} :
    checkPath path = .ok () ↔
      '\x00' ∉ path.text.toList ∧ path.text ≠ "" ∧ path.text.utf8ByteSize ≤ maxPathOctets := by
  rw [checkPath, check_bind_eq_ok_iff, checkSpelling, checkLength]
  by_cases nul : '\x00' ∈ path.text.toList
  · simp [nul]
  by_cases empty : path.text = ""
  · simp [empty, refuse]
  by_cases long : path.text.utf8ByteSize > maxPathOctets
  · simp [nul, empty, long, refuse, Nat.not_le.mpr long]
  · simp [nul, empty, long, Nat.le_of_not_gt long]

theorem lastStep_child (directory : Path) {name : String} (legal : IsName name) :
    lastStep (directory.child name).trail = .name name false := by
  rw [lastStep, Path.steps_child directory legal, List.getLast?_concat]
  simp [Path.slash_child directory legal]

end DownloadCache.FileSystem
