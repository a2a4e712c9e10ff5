import DownloadCache.Proofs.FileSystem.Moving
import DownloadCache.Proofs.FileSystem.Ways

/-!
# What paths lead to in the end

Two calls look at one path differently: the status of a path follows a link at its end, and a rename
takes the link itself.  For anything but a link they agree (`status_of_spot`).  A link stands for
what its own path leads to from the directory that holds it (`StandsFor`).  The path of a name in a
directory that is in place leads to what the link there stands for, and to nothing else
(`WellFormed.status_child_iff`).  It stands for the same in another file system if it is read from
the same directory, and if all that is looked up on its way is the same (`StandsFor.of_agree`).

In a coherent file system objects with one number are one object (`Coherent`).  Deleting and moving
bring no new objects (`Inherits`), so they keep a file system coherent.
-/

namespace DownloadCache.FileSystem

set_option autoImplicit false

variable {files later : FileSystem} {links fewer : Nat} {home above here there : Location}
  {name : String} {steps : List Step} {path link : Path} {node : Node} {object : Object}
  {slash : Bool}

/-! ## The number of links -/

/-- More links may be replaced than have to be. -/
theorem Leads.mono (leads : Leads files fewer here steps there) (fit : fewer ≤ links) :
    Leads files links here steps there := by
  induction fit with
  | refl => exact leads
  | step _ ih => exact ih.succ

/-- The names of a directory replace no link, so that all are left for the steps behind them. -/
theorem WellFormed.leads_names_append_iff (wellFormed : files.WellFormed)
    (directory : files.IsDirectory home)
    (short : ∀ name ∈ home, name.utf8ByteSize ≤ maxNameOctets) :
    Leads files links [] (home.steps ++ steps) there ↔ Leads files links home steps there := by
  induction home generalizing steps with
  | nil => rfl
  | cons name above ih =>
      obtain ⟨number, found⟩ := directory
      have holder := (wellFormed.held (by rw [found]; rfl)).1
      rw [List.forall_mem_cons] at short
      rw [Location.steps_cons, List.append_assoc, ih holder short.2]
      constructor
      · intro leads
        cases leads with
        | into _ _ _ _ onward => exact onward
        | follow _ _ link _ =>
            rw [found] at link
            cases link
      · exact fun onward => .into holder short.1 found (by simp) onward

/-! ## The status of a path -/

theorem nodeAt?_present (files : FileSystem) (location : Location) :
    files.nodeAt? (.present location) = (files.object? location).map (·.node) := rfl

theorem status_eq_ok_iff :
    files.status path = .ok node ↔
      ∃ place, files.resolve path = .ok place ∧ files.nodeAt? place = some node := by
  rw [status, bind_eq_ok_iff]
  refine exists_congr fun place => and_congr_right fun _ => ?_
  cases files.nodeAt? place <;> simp [refuse, pure, Except.pure]

/-- What is under the last name of a path is what the path leads to, unless it is a link. -/
theorem status_of_spot (spotted : files.spot path = .ok (.present above, .name name slash))
    (short : name.utf8ByteSize ≤ maxNameOctets)
    (found : files.object? (name :: above) = some object)
    (solid : slash = true → object.isDirectory = true)
    (unlinked : ∀ link, object.node ≠ .link link) : files.status path = .ok object.node :=
  status_eq_ok_iff.mpr ⟨.present (name :: above),
    resolve_of_spot spotted short found solid unlinked, by rw [nodeAt?_present, found]; rfl⟩

/-! ## Links -/

/-- Where the path of a link in a directory starts. -/
def linkStart (above : Location) (link : Path) : Location :=
  if link.isAbsolute then [] else above

/-- Whether a link in a directory stands for an object.  It is one of the links that a walk may
replace. -/
def StandsFor (files : FileSystem) (above : Location) (link : Path) (node : Node) : Prop :=
  ∃ there, Leads files (maxLinks - 1) (linkStart above link) link.trail.allSteps there ∧
    files.nodeAt? (.present there) = some node

/-- Whether a location is looked up when a link in a directory is followed. -/
def LooksUp (files : FileSystem) (above : Location) (link : Path) (met : Location) : Prop :=
  Meets files (maxLinks - 1) (linkStart above link) link.trail.allSteps met

/-- **A path that ends in a link leads to what the link stands for.** -/
theorem standsFor_of_status {number : Nat}
    (spotted : files.spot path = .ok (.present above, .name name false))
    (found : files.object? (name :: above) = some ⟨number, .link link⟩)
    (status : files.status path = .ok node) : files.StandsFor above link node := by
  obtain ⟨-, ⟨here, rest, departs, before⟩, -, last⟩ := spot_iff_way.mp spotted
  obtain ⟨steps, trailing⟩ := steps_of_lastStep last.symm
  obtain ⟨place, resolved, node⟩ := status_eq_ok_iff.mp status
  obtain ⟨-, walked⟩ := resolve_eq_ok_iff.mp resolved
  rw [Trail.allSteps, trailing, if_neg (by simp), steps] at walked
  obtain ⟨there, rfl⟩ := exists_of_walk_into walked
  obtain ⟨here', rest', departs', leads⟩ := walk_eq_present_iff.mp walked
  rw [way] at departs
  rw [departure_append_into, departs, Option.map_some] at departs'
  cases departs'
  obtain ⟨between, fewer, fit, before', onward⟩ := leads.part
  cases before'.unique before
  cases onward with
  | into _ _ other solid _ =>
      rw [found] at other
      cases other
      exact absurd rfl (solid _)
  | follow _ _ same onward =>
      rw [found] at same
      cases same
      rw [List.append_nil] at onward
      exact ⟨there, onward.mono (Nat.le_sub_one_of_lt fit), node⟩

/-- **The path of a name in a directory that is in place leads to what the link there stands for,**
and to nothing else. -/
theorem WellFormed.status_child_iff (wellFormed : files.WellFormed)
    (directory : files.IsDirectory home) (legal : IsName name)
    (spotted : files.spot ((pathOf home).child name) = .ok (.present home, .name name false))
    (fits : name.utf8ByteSize ≤ maxNameOctets) {number : Nat}
    (found : files.object? (name :: home) = some ⟨number, .link link⟩) :
    files.status ((pathOf home).child name) = .ok node ↔ files.StandsFor home link node := by
  refine ⟨standsFor_of_status spotted found, ?_⟩
  rintro ⟨there, leads, node⟩
  obtain ⟨⟨checked, short⟩, -, -⟩ := (wellFormed.spot_child_iff directory legal).mp spotted
  refine status_eq_ok_iff.mpr ⟨.present there, resolve_eq_ok_iff.mpr ⟨checked, ?_⟩, node⟩
  have start : files.start ((pathOf home).child name) = .present [] := by
    rw [FileSystem.start, Path.isAbsolute_child _ legal, isAbsolute_pathOf, if_pos rfl]
  rw [start, Trail.allSteps, Path.slash_child _ legal, if_neg (by simp), Path.steps_child _ legal,
    steps_pathOf (wellFormed.isName_of_mem directory.isSome)]
  refine walk_present_eq_ok_iff.mpr ⟨there, rfl,
    (wellFormed.leads_names_append_iff directory short).mpr (.follow directory fits found ?_)⟩
  rw [List.append_nil]
  exact leads

/-- **A link stands for what it stood for** if it is read from the same directory and all that is
looked up is as it was. -/
theorem StandsFor.of_agree {other : Location} (stands : files.StandsFor above link node)
    (same : link.isAbsolute = true ∨ other = above) (wellFormed : files.WellFormed)
    (laterWellFormed : later.WellFormed) (directory : files.IsDirectory above)
    (laterDirectory : later.IsDirectory other)
    (agree : ∀ met, files.LooksUp above link met → later.object? met = files.object? met) :
    later.StandsFor other link node := by
  obtain ⟨there, leads, node⟩ := stands
  have start : linkStart other link = linkStart above link := by
    rw [linkStart, linkStart]
    rcases same with absolute | rfl
    · rw [if_pos absolute, if_pos absolute]
    · rfl
  have first : files.IsDirectory (linkStart above link) := by
    rw [linkStart]
    split
    · exact wellFormed.root
    · exact directory
  have laterFirst : later.IsDirectory (linkStart above link) := by
    rw [← start, linkStart]
    split
    · exact laterWellFormed.root
    · exact laterDirectory
  refine ⟨there, start ▸ leads.of_agree agree laterWellFormed fun _ => laterFirst, ?_⟩
  rcases leads.meets_of_suffix (List.suffix_refl there) with meets | within
  · rw [nodeAt?_present, agree there meets]
    exact node
  · -- What lies above the start is a directory before and after.
    obtain ⟨number, found⟩ := wellFormed.isDirectory_of_within first within
    obtain ⟨number', found'⟩ := laterWellFormed.isDirectory_of_within laterFirst within
    rw [nodeAt?_present, found] at node
    rw [nodeAt?_present, found']
    exact node

/-! ## Coherence -/

/-- Whether objects with one number are one object. -/
def Coherent (files : FileSystem) : Prop :=
  ∀ location other object object', files.object? location = some object →
    files.object? other = some object' → object.number = object'.number → object = object'

/-- Whether all that is found was found before, maybe elsewhere. -/
def Inherits (files later : FileSystem) : Prop :=
  ∀ location object, later.object? location = some object →
    ∃ other, files.object? other = some object

theorem Shrinks.inherits (shrinks : Shrinks files later) : files.Inherits later :=
  fun location _ found => ⟨location, shrinks.object found⟩

/-- A rename brings no new objects. -/
theorem Renaming.inherits {source target : Path} {newName : String} {newAbove : Location}
    (moved : Renaming files source target later name above object newName newAbove) :
    files.Inherits later := by
  intro location object found
  rcases moved.outcome with ⟨rfl, -⟩ | ⟨rfl, movable, -⟩
  · exact ⟨location, found⟩
  · rw [movable.object?_move] at found
    split at found
    · exact ⟨_, found⟩
    · split at found
      · cases found
      · exact ⟨location, found⟩

theorem Coherent.inherits (coherent : files.Coherent) (inherits : files.Inherits later) :
    later.Coherent := by
  intro location other object object' found found' same
  obtain ⟨before, found⟩ := inherits location object found
  obtain ⟨before', found'⟩ := inherits other object' found'
  exact coherent before before' object object' found found' same

/-- A coherent file system in which the number that the next object gets is new. -/
structure Numbered (files : FileSystem) : Prop where
  coherent : files.Coherent
  fresh : ∀ location object, files.object? location = some object →
    object.number < files.nextNumber

theorem numbered_empty : empty.Numbered := by
  have only : ∀ location object, empty.object? location = some object →
      object = ⟨0, .directory⟩ := by
    intro location object found
    rw [object?, empty, Tree.find?_leaf] at found
    split at found
    · cases found
      rfl
    · cases found
  constructor
  · intro location other object object' found found' _
    rw [only location object found, only other object' found']
  · intro location object found
    rw [only location object found]
    exact Nat.zero_lt_one

/-- What is created is a new object. -/
theorem Numbered.create (numbered : files.Numbered) (wellFormed : files.WellFormed)
    (directory : files.IsDirectory above) (vacant : files.object? (name :: above) = none)
    (node : Node) : (files.create (name :: above) node).Numbered := by
  have found := wellFormed.object?_create directory vacant node
  constructor
  · intro location other object object' one two same
    rw [found] at one two
    split at one <;> split at two
    · rw [← Option.some.inj one, ← Option.some.inj two]
    · obtain rfl := Option.some.inj one
      exact absurd same (Nat.ne_of_gt (numbered.fresh other object' two))
    · obtain rfl := Option.some.inj two
      exact absurd same (Nat.ne_of_lt (numbered.fresh location object one))
    · exact numbered.coherent location other object object' one two same
  · intro location object one
    have next : (files.create (name :: above) node).nextNumber = files.nextNumber + 1 := rfl
    rw [found] at one
    rw [next]
    split at one
    · obtain rfl := Option.some.inj one
      exact Nat.lt_succ_self _
    · exact Nat.lt_succ_of_lt (numbered.fresh location object one)

end DownloadCache.FileSystem
