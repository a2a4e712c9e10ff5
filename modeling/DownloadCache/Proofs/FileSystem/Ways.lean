import DownloadCache.Proofs.FileSystem.Meeting
import DownloadCache.Proofs.FileSystem.Moving

/-!
# The ways of paths

The way of a path leads to the directory in which its last step is taken.  It starts at the root or
in the working directory, and if that has been deleted, steps up lead out of it first; so a way has
a first location and the steps that are left from there (`way`), and a path is spotted where these
lead (`spot_iff_way`).  A path that names something has something under its last name there
(`exists_spot_of_locate`).

A move changes what is at two locations.  A path whose way is apart from both is spotted where it
was (`Movable.spot_of_apart`).  A path whose last name was at the old location finds nothing any
more (`Movable.object?_of_spot`), unless its way goes through the new location or starts within what
is moved.  A way goes through something only if that is a directory or a link (`not_goesThrough`).
-/

namespace DownloadCache.FileSystem

set_option autoImplicit false

/-! ## Departures -/

/-- Where steps from a place first have a location, and the steps that are left there.  In a
directory that has been deleted no name is found. -/
def departure : Place → List Step → Option (Location × List Step)
  | .present here, steps => some (here, steps)
  | .deleted _, [] => none
  | .deleted parent, .stay :: rest => departure (.deleted parent) rest
  | .deleted parent, .up :: rest => departure parent rest
  | .deleted _, .into _ :: _ => none

variable {files later : FileSystem}

/-- A walk comes to a location where the steps after its departure lead. -/
theorem walk_eq_present_iff {place : Place} {steps : List Step} {there : Location} :
    files.walk place steps = .ok (.present there) ↔
      ∃ here rest, departure place steps = some (here, rest) ∧
        Leads files maxLinks here rest there := by
  induction steps generalizing place with
  | nil =>
      cases place with
      | present here => simp [walk_present_eq_ok_iff, departure]
      | deleted parent => simp [walk, departure]
  | cons step rest ih =>
      cases place with
      | present here => simp [walk_present_eq_ok_iff, departure]
      | deleted parent =>
          cases step with
          | stay => exact ih
          | up => exact ih
          | into name => simp [walk, departure, refuse]

/-- Steps behind a name are taken after the departure. -/
theorem departure_append_into (place : Place) (first : List Step) (name : String)
    (rest : List Step) :
    departure place (first ++ .into name :: rest) =
      (departure place first).map fun start => (start.1, start.2 ++ .into name :: rest) := by
  induction first generalizing place with
  | nil => cases place <;> rfl
  | cons step first ih =>
      cases place with
      | present here => rfl
      | deleted parent =>
          cases step with
          | stay => exact ih _
          | up => exact ih _
          | into name => rfl

/-- A walk into a name comes to a location or to nothing. -/
theorem exists_of_walk_into {place there : Place} {first rest : List Step} {name : String}
    (found : files.walk place (first ++ .into name :: rest) = .ok there) :
    ∃ location, there = .present location := by
  induction first generalizing place with
  | nil =>
      cases place with
      | present here =>
          obtain ⟨location, same, -⟩ := walk_present_eq_ok_iff.mp found
          exact ⟨location, same⟩
      | deleted parent => cases found
  | cons step first ih =>
      cases place with
      | present here =>
          obtain ⟨location, same, -⟩ := walk_present_eq_ok_iff.mp found
          exact ⟨location, same⟩
      | deleted parent =>
          cases step with
          | stay => exact ih found
          | up => exact ih found
          | into name => cases found

/-- Where locations change, the departure changes with them. -/
theorem departure_relocate (change : Location → Location) (place : Place) (steps : List Step) :
    departure (place.relocate change) steps =
      (departure place steps).map fun start => (change start.1, start.2) := by
  induction steps generalizing place with
  | nil => cases place <;> rfl
  | cons step rest ih =>
      cases place with
      | present here => rfl
      | deleted parent =>
          cases step with
          | stay => exact ih (.deleted parent)
          | up => exact ih parent
          | into name => rfl

/-! ## Ways -/

/-- Where the way of a path first has a location, and the steps that are left there but the last
one of the path. -/
def way (files : FileSystem) (path : Path) : Option (Location × List Step) :=
  departure (files.start path) path.trail.steps.dropLast

variable {path : Path} {name : String} {slash : Bool} {above location : Location}

/-- A path is spotted in a directory to which its way leads. -/
theorem spot_iff_way {last : Last} :
    files.spot path = .ok (.present above, last) ↔
      checkPath path = .ok () ∧
        (∃ here rest, files.way path = some (here, rest) ∧ Leads files maxLinks here rest above) ∧
        files.IsDirectory above ∧ last = lastStep path.trail := by
  rw [spot_eq_ok_iff, walk_eq_present_iff, checkDirectory_present_eq_ok_iff]
  rfl

/-- What a path leads to that ends in a name is under that name where the path is spotted, or is
found by following it. -/
theorem exists_spot_of_locate {place : Place} (last : lastStep path.trail = .name name slash)
    (located : files.locate path = .ok place) :
    ∃ above, files.spot path = .ok (.present above, .name name slash) ∧
      (files.object? (name :: above)).isSome := by
  cases slash with
  | false =>
      obtain ⟨above, object, spotted, -, found, -⟩ := (locate_eq_ok_iff last).mp located
      exact ⟨above, spotted, by rw [found]; rfl⟩
  | true =>
      rw [locate, last] at located
      obtain ⟨checked, walked⟩ := resolve_eq_ok_iff.mp located
      obtain ⟨steps, slash⟩ := steps_of_lastStep last
      rw [Trail.allSteps, if_pos slash, steps, List.append_assoc] at walked
      obtain ⟨there, rfl⟩ := exists_of_walk_into walked
      obtain ⟨here, rest, departs, leads⟩ := walk_eq_present_iff.mp walked
      rw [List.singleton_append, departure_append_into, Option.map_eq_some_iff] at departs
      obtain ⟨⟨here', rest'⟩, departs, same⟩ := departs
      cases same
      obtain ⟨between, fewer, -, before, onward⟩ := leads.part
      have entered : files.IsDirectory between ∧ (files.object? (name :: between)).isSome := by
        cases onward with
        | into directory _ found _ _ => exact ⟨directory, by rw [found]; rfl⟩
        | follow directory _ found _ => exact ⟨directory, by rw [found]; rfl⟩
      exact ⟨between, spot_iff_way.mpr ⟨checked, ⟨_, _, departs, before⟩, entered.1, last.symm⟩,
        entered.2⟩

/-- Whether the way of a path starts at a location or below it. -/
def StartsWithin (files : FileSystem) (path : Path) (location : Location) : Prop :=
  ∃ here rest, files.way path = some (here, rest) ∧ location <:+ here

/-- Whether something at a location or below it is looked up on the way of a path. -/
def GoesThrough (files : FileSystem) (path : Path) (location : Location) : Prop :=
  ∃ here rest met, files.way path = some (here, rest) ∧ Meets files maxLinks here rest met ∧
    location <:+ met

theorem way_of_isAbsolute (files : FileSystem) (absolute : path.isAbsolute = true) :
    files.way path = some ([], path.trail.steps.dropLast) := by
  rw [way, start, if_pos absolute, departure]

/-- The way of an absolute path starts at the root, which is within nothing else. -/
theorem not_startsWithin (files : FileSystem) (absolute : path.isAbsolute = true)
    (filled : location ≠ []) : ¬files.StartsWithin path location := by
  rintro ⟨here, rest, departs, within⟩
  rw [way_of_isAbsolute files absolute] at departs
  cases departs
  exact filled (List.suffix_nil.mp within)

/-- Steps lead to a directory from a directory only. -/
theorem Leads.isDirectory_start {links : Nat} {here there : Location} {steps : List Step}
    (leads : Leads files links here steps there) (directory : files.IsDirectory there) :
    files.IsDirectory here := by
  cases leads <;> assumption

/-- On the way to a directory directories and links are looked up only. -/
theorem Leads.isDirectory_or_link_of_meets {links : Nat} {here there met : Location}
    {steps : List Step} (leads : Leads files links here steps there)
    (directory : files.IsDirectory there) (meets : Meets files links here steps met) :
    files.IsDirectory met ∨ ∃ number target, files.object? met = some ⟨number, .link target⟩ := by
  induction leads with
  | done => cases meets
  | stay _ _ ih => cases meets with | stay onward => exact ih directory onward
  | up _ _ ih => cases meets with | up onward => exact ih directory onward
  | into _ _ found solid onward ih =>
      cases meets with
      | here => exact .inl (onward.isDirectory_start directory)
      | into _ _ further => exact ih directory further
      | follow link _ =>
          rw [found] at link
          cases link
          exact absurd rfl (solid _)
  | follow _ _ found _ ih =>
      cases meets with
      | here => exact .inr ⟨_, _, found⟩
      | into other solid _ =>
          rw [found] at other
          cases other
          exact absurd rfl (solid _)
      | follow link further =>
          rw [found] at link
          cases link
          exact ih directory further

/-- **The way of a path goes through a location only if there is a directory or a link.** -/
theorem not_goesThrough (wellFormed : files.WellFormed) {last : Last}
    (spotted : files.spot path = .ok (.present above, last)) (solid : ¬files.IsDirectory location)
    (unlinked : ∀ number target, files.object? location ≠ some ⟨number, .link target⟩) :
    ¬files.GoesThrough path location := by
  rintro ⟨here, rest, met, departs, meets, within⟩
  obtain ⟨-, ⟨here', rest', departs', leads⟩, directory, -⟩ := spot_iff_way.mp spotted
  rw [departs] at departs'
  cases departs'
  by_cases same : location = met
  · subst same
    rcases leads.isDirectory_or_link_of_meets directory meets with here | ⟨number, target, link⟩
    · exact solid here
    · exact unlinked number target link
  · exact solid (wellFormed.isDirectory_of_suffix (leads.isSome_of_meets meets) within same)

/-! ## Ways after a move -/

variable {source newAbove : Location} {newName : String}

/-- A move takes the start of a way along. -/
theorem Movable.way_eq (movable : Movable files source newName newAbove)
    (wellFormed : files.WellFormed) (solid : ¬files.IsDirectory (newName :: newAbove))
    (path : Path) :
    (files.move source (newName :: newAbove)).way path =
      (files.way path).map fun start =>
        (Location.moved source (newName :: newAbove) start.1, start.2) := by
  have start : (files.move source (newName :: newAbove)).start path =
      (files.start path).relocate (Location.moved source (newName :: newAbove)) := by
    rw [FileSystem.start, FileSystem.start]
    split
    · have top : ¬source <:+ [] := fun within =>
        movable.outside (List.suffix_nil.mp within ▸ List.nil_suffix)
      rw [Place.relocate, Location.moved, if_neg (mt Location.isWithin_iff.mp top)]
    · exact wellFormed.working_move_eq movable solid
  rw [way, way, start, departure_relocate]

/-- **Where a path of what is moved is spotted afterwards, nothing is left,** if its way neither
goes through the new location nor starts within what is moved. -/
theorem Movable.object?_of_spot (movable : Movable files (name :: above) newName newAbove)
    (wellFormed : files.WellFormed) (solid : ¬files.IsDirectory (newName :: newAbove))
    (spotted : files.spot path = .ok (.present above, .name name slash))
    (outside : ¬files.StartsWithin path (name :: above))
    (apart : ¬files.GoesThrough path (newName :: newAbove)) {above' : Location} {last : Last}
    (spotted' : (files.move (name :: above) (newName :: newAbove)).spot path =
      .ok (.present above', last)) :
    (files.move (name :: above) (newName :: newAbove)).object? (name :: above') = none := by
  obtain ⟨-, ⟨here, rest, departs, leads⟩, -⟩ := spot_iff_way.mp spotted
  have way := movable.way_eq wellFormed solid path
  have stays : ¬name :: above <:+ here := fun within => outside ⟨here, rest, departs, within⟩
  rw [departs, Option.map_some, Location.moved, if_neg (mt Location.isWithin_iff.mp stays)] at way
  obtain ⟨-, ⟨here', rest', departs', leads'⟩, -⟩ := spot_iff_way.mp spotted'
  rw [way] at departs'
  cases departs'
  have fewer : ∀ met, Meets files maxLinks here rest met →
      (files.move (name :: above) (newName :: newAbove)).object? met = none ∨
        (files.move (name :: above) (newName :: newAbove)).object? met = files.object? met := by
    intro met meets
    have elsewhere : ¬newName :: newAbove <:+ met := fun within =>
      apart ⟨here, rest, met, departs, meets, within⟩
    rw [movable.object?_move, if_neg (mt Location.isWithin_iff.mp elsewhere)]
    split
    · exact .inl rfl
    · exact .inr rfl
  obtain ⟨rfl, -⟩ := leads.same_of_fewer fewer leads'
  rw [movable.object?_move, if_neg (mt Location.isWithin_iff.mp movable.notAbove),
    if_pos (Location.isWithin_iff.mpr (List.suffix_refl _))]

/-- **A path is spotted where it was after a move** if its way starts and goes apart from both
locations. -/
theorem Movable.spot_of_apart (movable : Movable files source newName newAbove)
    (wellFormed : files.WellFormed) (legal : IsName newName)
    (solid : ¬files.IsDirectory (newName :: newAbove)) {last : Last}
    (spotted : files.spot path = .ok (.present above, last))
    (outside : ¬files.StartsWithin path source) (apart : ¬files.GoesThrough path source)
    (apart' : ¬files.GoesThrough path (newName :: newAbove))
    (held : (files.move source (newName :: newAbove)).IsDirectory above) :
    (files.move source (newName :: newAbove)).spot path = .ok (.present above, last) := by
  obtain ⟨checked, ⟨here, rest, departs, leads⟩, directory, same⟩ := spot_iff_way.mp spotted
  have stays : ¬source <:+ here := fun within => outside ⟨here, rest, departs, within⟩
  have way := movable.way_eq wellFormed solid path
  rw [departs, Option.map_some, Location.moved, if_neg (mt Location.isWithin_iff.mp stays)] at way
  refine spot_iff_way.mpr ⟨checked, ⟨here, rest, way, ?_⟩, held, same⟩
  refine leads.of_agree (fun met meets => ?_) (wellFormed.move movable legal solid) fun start => ?_
  · exact movable.frame (fun within => apart' ⟨here, rest, met, departs, meets, within⟩)
      fun within => apart ⟨here, rest, met, departs, meets, within⟩
  · exact movable.isDirectory_frame
      (fun within => solid (wellFormed.isDirectory_of_within start within)) stays start

end DownloadCache.FileSystem
