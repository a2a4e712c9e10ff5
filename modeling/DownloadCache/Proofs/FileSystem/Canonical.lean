import DownloadCache.Proofs.FileSystem.Shrinking
import DownloadCache.Proofs.Path.Parent

/-!
# Canonical paths

The path of a location steps into its names one after the other (`steps_pathOf`).  In a well-formed
file system it leads to a directory if and only if that is the directory at the location
(`WellFormed.leads_names_iff`); so the path of a name within a canonical directory names what is
under that name there (`WellFormed.spot_child_iff`).

Dots do not matter on the way to a directory (`Leads.congr_idle`).  Hence the holder of a path has
the canonical path of the directory in which the last name of the path is looked for
(`WellFormed.canonical_holder`).
-/

namespace DownloadCache

set_option autoImplicit false

/-! ## Locations of paths -/

/-- The name that a step goes into. -/
def Step.name? : Step → Option String
  | .into name => some name
  | _ => none

/-- The location that a path spells by its names. -/
def Path.location (path : Path) : Location :=
  (path.trail.steps.filterMap Step.name?).reverse

/-- The steps into the names of a location. -/
def Location.steps (location : Location) : List Step :=
  location.reverse.map .into

theorem Location.steps_cons (name : String) (above : Location) :
    Location.steps (name :: above) = Location.steps above ++ [.into name] := by
  simp [steps]

namespace FileSystem

theorem pieces_pathOf {location : Location} (legal : ∀ name ∈ location, IsName name) :
    (pathOf location).pieces =
      if location = [] then [[], []] else [] :: location.reverse.map String.toList := by
  have text : (pathOf location).text.toList =
      '/' :: Path.unsplit (location.reverse.map String.toList) := by
    rw [pathOf, String.toList_append, String.toList_intercalate]
    rfl
  rw [Path.pieces, text]
  have first := Path.split_append_slash [] (Path.unsplit (location.reverse.map String.toList))
  refine first.trans ?_
  split
  · rename_i top
    rw [top]
    rfl
  · rename_i filled
    rw [Path.split_unsplit (by simpa using filled)]
    · rfl
    · intro piece member
      obtain ⟨name, listed, rfl⟩ := List.mem_map.mp member
      exact (legal name (List.mem_reverse.mp listed)).noSlash

/-- The path of a location steps into its names. -/
theorem steps_pathOf {location : Location} (legal : ∀ name ∈ location, IsName name) :
    (pathOf location).trail.steps = location.steps := by
  change (pathOf location).pieces.filterMap Step.ofPiece? = location.steps
  rw [pieces_pathOf legal]
  split
  · rename_i top
    rw [top]
    rfl
  · have first : Step.ofPiece? [] = none := rfl
    rw [List.filterMap_cons_none first, List.filterMap_map, Location.steps,
      ← List.filterMap_eq_map]
    refine List.filterMap_congr fun name member => ?_
    exact (legal name (List.mem_reverse.mp member)).ofPiece?

theorem location_pathOf {location : Location} (legal : ∀ name ∈ location, IsName name) :
    (pathOf location).location = location := by
  rw [Path.location, steps_pathOf legal, Location.steps, List.filterMap_map]
  have whole : (Step.name? ∘ Step.into) = some := rfl
  rw [whole, List.filterMap_some, List.reverse_reverse]

theorem location_child (directory : Path) {name : String} (legal : IsName name) :
    (directory.child name).location = name :: directory.location := by
  have last : [Step.into name].filterMap Step.name? = [name] := rfl
  rw [Path.location, Path.steps_child directory legal, List.filterMap_append, last,
    List.reverse_append]
  rfl

/-! ## Where canonical paths lead -/

variable {files : FileSystem}

/-- The steps into the names of a directory lead to it, if no name is too long, and to nothing
else. -/
theorem WellFormed.leads_names_iff (wellFormed : files.WellFormed) {links : Nat}
    {home there : Location} (directory : files.IsDirectory home) :
    Leads files links [] home.steps there ↔
      there = home ∧ ∀ name ∈ home, name.utf8ByteSize ≤ maxNameOctets := by
  induction home generalizing links there with
  | nil =>
      constructor
      · intro leads
        cases leads
        exact ⟨rfl, nofun⟩
      · rintro ⟨rfl, -⟩
        exact .done links []
  | cons name above ih =>
      obtain ⟨number, found⟩ := directory
      have holder := (wellFormed.held (by rw [found]; rfl)).1
      rw [Location.steps_cons, List.forall_mem_cons]
      constructor
      · intro leads
        obtain ⟨between, fewer, -, before, last⟩ := leads.part
        obtain ⟨rfl, short⟩ := (ih holder).mp before
        cases last with
        | into _ fits _ _ onward =>
            cases onward
            exact ⟨rfl, fits, short⟩
        | follow _ _ link _ =>
            rw [found] at link
            cases link
      · rintro ⟨rfl, fits, short⟩
        exact ((ih holder).mpr ⟨rfl, short⟩).append
          (.into holder fits found (by simp) (.done 0 _))

/-- The path of a name within a canonical directory names what is under that name there. -/
theorem WellFormed.spot_child_iff (wellFormed : files.WellFormed) {home : Location}
    (directory : files.IsDirectory home) {name : String} (legal : IsName name) {place : Place}
    {last : Last} :
    files.spot ((pathOf home).child name) = .ok (place, last) ↔
      (checkPath ((pathOf home).child name) = .ok () ∧
        ∀ name ∈ home, name.utf8ByteSize ≤ maxNameOctets) ∧
      place = .present home ∧ last = .name name false := by
  have start : files.start ((pathOf home).child name) = .present [] := by
    rw [FileSystem.start, Path.isAbsolute_child _ legal, isAbsolute_pathOf, if_pos rfl]
  rw [spot_eq_ok_iff, start, Path.steps_child _ legal, List.dropLast_concat,
    steps_pathOf (wellFormed.isName_of_mem directory.isSome), walk_present_eq_ok_iff,
    lastStep_child _ legal]
  constructor
  · rintro ⟨checked, ⟨there, rfl, leads⟩, -, same⟩
    obtain ⟨rfl, short⟩ := (wellFormed.leads_names_iff directory).mp leads
    exact ⟨⟨checked, short⟩, rfl, same⟩
  · rintro ⟨⟨checked, short⟩, rfl, same⟩
    exact ⟨checked, ⟨home, rfl, (wellFormed.leads_names_iff directory).mpr ⟨rfl, short⟩⟩,
      checkDirectory_present_eq_ok_iff.mpr directory, same⟩

/-- Such a path leads to what is under the name, if it leads anywhere. -/
theorem WellFormed.locate_child (wellFormed : files.WellFormed) {home location : Location}
    (directory : files.IsDirectory home) {name : String} (legal : IsName name)
    (located : files.locate ((pathOf home).child name) = .ok (.present location)) :
    location = name :: home := by
  obtain ⟨above, object, spotted, -, -, same⟩ :=
    (locate_eq_ok_iff (lastStep_child _ legal)).mp located
  obtain ⟨-, here, -⟩ := (wellFormed.spot_child_iff directory legal).mp spotted
  cases here
  cases same
  rfl

/-! ## Dots on the way -/

/-- Only dots spell no component. -/
theorem eq_stay_of_ofStep? {step : Step} (idle : Component.ofStep? step = none) : step = .stay := by
  cases step with
  | stay => rfl
  | up => cases idle
  | into name => cases idle

/-- Other steps are told by the components that they spell. -/
theorem eq_of_ofStep? {step other : Step} {component : Component}
    (spelled : Component.ofStep? step = some component)
    (same : Component.ofStep? other = some component) : other = step := by
  cases step <;> cases other <;> cases spelled <;> cases same <;> rfl

/-- Dots are steps in place. -/
theorem Leads.stays {links : Nat} {here there : Location} {idle steps : List Step}
    (directory : files.IsDirectory here) (dots : ∀ step ∈ idle, Component.ofStep? step = none)
    (onward : Leads files links here steps there) :
    Leads files links here (idle ++ steps) there := by
  induction idle with
  | nil => exact onward
  | cons step rest ih =>
      rw [eq_stay_of_ofStep? (dots step List.mem_cons_self)]
      exact .stay directory (ih fun other member => dots other (List.mem_cons_of_mem _ member))

/-- Steps that spell the same components lead to the same directory. -/
theorem Leads.congr_idle {links : Nat} {here there : Location} {steps other : List Step}
    (leads : Leads files links here steps there) (directory : files.IsDirectory there)
    (same : other.filterMap Component.ofStep? = steps.filterMap Component.ofStep?) :
    Leads files links here other there := by
  -- Each step of the one way that is no dot stands behind some dots in the other.
  have behind : ∀ {step : Step} {rest : List Step} {component : Component} {other : List Step},
      Component.ofStep? step = some component →
      other.filterMap Component.ofStep? = (step :: rest).filterMap Component.ofStep? →
      ∃ idle more, other = idle ++ step :: more ∧
        (∀ step ∈ idle, Component.ofStep? step = none) ∧
        more.filterMap Component.ofStep? = rest.filterMap Component.ofStep? := by
    intro step rest component other spelled same
    rw [List.filterMap_cons_some spelled] at same
    obtain ⟨idle, first, more, rfl, dots, firstSpelled, rest⟩ := List.filterMap_eq_cons_iff.mp same
    exact ⟨idle, more, by rw [eq_of_ofStep? spelled firstSpelled], dots, rest⟩
  induction leads generalizing other with
  | done links here =>
      have dots := List.filterMap_eq_nil_iff.mp same
      simpa using Leads.stays directory dots (.done links here)
  | stay _ _ ih => exact ih directory same
  | up holder _ ih =>
      obtain ⟨idle, more, rfl, dots, same⟩ := behind rfl same
      exact .stays holder dots (.up holder (ih directory same))
  | into holder short found solid _ ih =>
      obtain ⟨idle, more, rfl, dots, same⟩ := behind rfl same
      exact .stays holder dots (.into holder short found solid (ih directory same))
  | follow holder short found _ ih =>
      obtain ⟨idle, more, rfl, dots, same⟩ := behind rfl same
      refine .stays holder dots (.follow holder short found (ih directory ?_))
      rw [List.filterMap_append, List.filterMap_append, same]

/-! ## The holder of a path -/

/-- The last name of a path is its file name, and a component. -/
theorem fileName?_of_lastStep {path : Path} {name : String} {slash : Bool}
    (last : lastStep path.trail = .name name slash) :
    path.fileName? = some name ∧ Path.spelled path.pieces =
      path.trail.steps.dropLast.filterMap Component.ofStep? ++ [.name name] := by
  have steps := (steps_of_lastStep last).1
  have spelled : path.trail.steps.filterMap Component.ofStep? =
      path.trail.steps.dropLast.filterMap Component.ofStep? ++ [.name name] := by
    conv_lhs => rw [steps, List.filterMap_append]
    rfl
  refine ⟨?_, path.filterMap_steps ▸ spelled⟩
  rw [Path.fileName?, Path.components, spelled, ← List.append_assoc, List.getLast?_concat]

/-- **The holder of a path has the canonical path of the directory in which the last name of the
path is looked for,** if the path does not start in a directory that has been deleted. -/
theorem canonical_holder {path : Path} {name : String} {slash : Bool} {directory first : Location}
    (start : files.start path = .present first)
    (spotted : files.spot path = .ok (.present directory, .name name slash))
    (short : checkLength (pathOf directory) = .ok ()) :
    files.canonical path.holder = .ok (pathOf directory) := by
  obtain ⟨checked, walked, isDirectory, last⟩ := spot_eq_ok_iff.mp spotted
  have isDirectory := checkDirectory_present_eq_ok_iff.mp isDirectory
  obtain ⟨-, spelled⟩ := fileName?_of_lastStep last.symm
  obtain ⟨filled, absolute, components, clean⟩ :=
    Path.holder_spec (by rw [spelled]; exact List.concat_ne_nil _ _)
  rw [spelled, List.dropLast_concat, ← Path.filterMap_steps] at components
  rw [start] at walked
  obtain ⟨there, same, leads⟩ := walk_present_eq_ok_iff.mp walked
  cases same
  refine canonical_eq_ok_iff.mpr ⟨?_, first, directory, ?_, ?_, short, rfl⟩
  · have clean := clean (checkPath_eq_ok_iff.mp checked).1
    simp [checkSpelling, filled, clean]
  · rw [← start, FileSystem.start, FileSystem.start, absolute]
  · refine leads.congr_idle isDirectory ?_
    rw [Trail.allSteps]
    split
    · rw [List.filterMap_append, components]
      simp [Component.ofStep?]
    · exact components

end FileSystem

end DownloadCache
