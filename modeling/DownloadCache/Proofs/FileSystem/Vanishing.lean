import DownloadCache.Proofs.FileSystem.Removing
import DownloadCache.Proofs.FileSystem.Ways

/-!
# What is not found any more

Steps that led somewhere before some objects were deleted lead there still, or come to a name under
which nothing is found (`Leads.walk_sifted`).  They never come to anything else that stops a walk,
such as a file where there was a directory.  The same holds of walks between places, and of paths
(`WellFormed.locate_sifted`).  So what has been deleted by a path is not found by the path any more
(`WellFormed.locate_erase`).
-/

namespace DownloadCache.FileSystem

set_option autoImplicit false

variable {files later : FileSystem} {keep : Location → Bool} {links : Nat} {here there : Location}
  {steps rest : List Step} {path : Path} {place : Place} {name : String} {above : Location}

/-! ## Taking a step -/

namespace Finding

variable {files : FileSystem} {here : Finding files}

theorem walk_nil : here.walk links [] = .ok here.location := by
  cases links <;> rfl

theorem walk_stay (directory : files.IsDirectory here.location) :
    here.walk links (.stay :: rest) = here.walk links rest := by
  have checked := checkDirectory_eq_ok_iff.mpr directory
  cases links <;> simp only [walk, walkWith, checked, Bind.bind, Except.bind]

theorem walk_up (directory : files.IsDirectory here.location) :
    here.walk links (.up :: rest) = here.parent.walk links rest := by
  have checked := checkDirectory_eq_ok_iff.mpr directory
  cases links <;> simp only [walk, walkWith, checked, Bind.bind, Except.bind]

theorem lookUp_eq_ok (short : name.utf8ByteSize ≤ maxNameOctets) :
    here.lookUp name = .ok (here.child name) := by
  rw [lookUp, if_neg (Nat.not_lt.mpr short)]

theorem walk_into_absent (directory : files.IsDirectory here.location)
    (short : name.utf8ByteSize ≤ maxNameOctets)
    (absent : files.object? (name :: here.location) = none) :
    here.walk links (.into name :: rest) = refuse .noEntry := by
  have checked := checkDirectory_eq_ok_iff.mpr directory
  cases links <;>
    simp only [walk, walkWith, checked, lookUp_eq_ok short, object?_child, absent, Bind.bind,
      Except.bind]

theorem walk_into_solid {object : Object} (directory : files.IsDirectory here.location)
    (short : name.utf8ByteSize ≤ maxNameOctets)
    (found : files.object? (name :: here.location) = some object)
    (solid : ∀ target, object.node ≠ .link target) :
    here.walk links (.into name :: rest) = (here.child name).walk links rest := by
  have checked := checkDirectory_eq_ok_iff.mpr directory
  obtain ⟨number, node⟩ := object
  cases node with
  | link target => exact absurd rfl (solid target)
  | _ =>
      cases links <;>
        simp only [walk, walkWith, checked, lookUp_eq_ok short, object?_child, found, Bind.bind,
          Except.bind]

theorem walk_follow {number : Nat} {target : Path} (directory : files.IsDirectory here.location)
    (short : name.utf8ByteSize ≤ maxNameOctets)
    (found : files.object? (name :: here.location) = some ⟨number, .link target⟩) :
    here.walk (links + 1) (.into name :: rest) =
      (if target.isAbsolute then files.finding [] else here).walk links
        (target.trail.allSteps ++ rest) := by
  have checked := checkDirectory_eq_ok_iff.mpr directory
  simp only [walk, walkWith, checked, lookUp_eq_ok short, object?_child, found, Bind.bind,
    Except.bind]

end Finding

/-! ## Walks in what is left -/

/-- **Steps lead where they led, or come to a name under which nothing is found.** -/
theorem Leads.walk_sifted (leads : Leads files links here steps there)
    (sifted : Sifted keep files later) (kept : keep here = true) :
    (later.finding here).walk links steps = .ok there ∨
      (later.finding here).walk links steps = refuse .noEntry := by
  induction leads with
  | done links here => exact .inl Finding.walk_nil
  | stay directory _ ih =>
      rw [Finding.walk_stay (sifted.isDirectory_of_keep kept directory)]
      exact ih kept
  | @up _ here _ _ directory _ ih =>
      have above : keep here.parent = true := by
        cases here with
        | nil => exact kept
        | cons name above => exact sifted.upward kept
      rw [Finding.walk_up (sifted.isDirectory_of_keep kept directory)]
      exact ih above
  | @into _ here _ _ name _ directory short found solid _ ih =>
      have directory : later.IsDirectory (later.finding here).location :=
        sifted.isDirectory_of_keep kept directory
      have left := sifted.object (name :: here)
      split at left
      · rename_i further
        have child := ((later.finding here).child name).eq_finding
        rw [Finding.walk_into_solid directory short (left.trans found) solid, child]
        exact ih further
      · exact .inr (Finding.walk_into_absent directory short left)
  | @follow _ here _ _ name _ target directory short found _ ih =>
      have directory : later.IsDirectory (later.finding here).location :=
        sifted.isDirectory_of_keep kept directory
      have left := sifted.object (name :: here)
      split at left
      · have first : keep (if target.isAbsolute then [] else here) = true := by
          split
          · exact sifted.top
          · exact kept
        have start : (if target.isAbsolute then later.finding [] else later.finding here) =
            later.finding (if target.isAbsolute then [] else here) := by
          split <;> rfl
        rw [Finding.walk_follow directory short (left.trans found), start]
        exact ih first
      · exact .inr (Finding.walk_into_absent directory short left)

/-- From a place that is kept a walk leads to a place that is kept, or finds nothing. -/
theorem walk_sifted_of_keep (sifted : Sifted keep files later) {there : Place}
    (kept : keep here = true) (walked : files.walk (.present here) steps = .ok there) :
    later.walk (.present here) steps = .ok (there.sieve keep) ∨
      later.walk (.present here) steps = refuse .noEntry := by
  obtain ⟨last, rfl, leads⟩ := walk_present_eq_ok_iff.mp walked
  rcases leads.walk_sifted sifted kept with found | absent
  · have found : later.walk (.present here) steps = .ok (.present last) := by
      rw [walk, found]
      rfl
    rw [(walk_of_sifted_of_keep sifted kept found).2]
    exact .inl found
  · refine .inr ?_
    rw [walk, absent]
    rfl

/-- **A walk leads to what the sieve has made of the place to which it led, or finds nothing.** -/
theorem WellFormed.walk_sifted (wellFormed : files.WellFormed) (sifted : Sifted keep files later)
    {there : Place} (grounded : files.Grounded place) (walked : files.walk place steps = .ok there) :
    later.walk (place.sieve keep) steps = .ok (there.sieve keep) ∨
      later.walk (place.sieve keep) steps = refuse .noEntry := by
  -- Induction on the steps: a place that is lost is left only by steps up.
  induction steps generalizing place with
  | nil =>
      have same : there = place := by
        cases place with
        | deleted parent => exact (Except.ok.inj walked).symm
        | present here =>
            obtain ⟨last, rfl, leads⟩ := walk_present_eq_ok_iff.mp walked
            cases leads
            rfl
      rw [same]
      cases sieved : place.sieve keep with
      | deleted parent => exact .inl rfl
      | present here => exact .inl (walk_present_eq_ok_iff.mpr ⟨here, rfl, .done _ _⟩)
  | cons step rest ih =>
      cases place with
      | deleted parent =>
          cases step with
          | stay =>
              have walked : files.walk (.deleted parent) rest = .ok there := walked
              exact ih grounded walked
          | up =>
              have walked : files.walk parent rest = .ok there := walked
              exact ih grounded walked
          | into name => cases walked
      | present here =>
          by_cases kept : keep here = true
          · rw [Place.sieve_present_of_keep keep kept]
            exact walk_sifted_of_keep sifted kept walked
          cases here with
          | nil => exact absurd sifted.top kept
          | cons name above =>
              have lost := Place.sieve_present_cons keep (Bool.eq_false_iff.mpr kept)
              obtain ⟨last, rfl, leads⟩ := walk_present_eq_ok_iff.mp walked
              cases leads with
              | stay directory onward =>
                  have grounded : files.Grounded (.present (name :: above)) := directory
                  have rest := ih grounded (walk_present_eq_ok_iff.mpr ⟨last, rfl, onward⟩)
                  rw [lost] at rest ⊢
                  exact rest
              | up directory onward =>
                  rw [lost]
                  have grounded : files.Grounded (.present above) :=
                    (wellFormed.held directory.isSome).1
                  exact ih grounded (walk_present_eq_ok_iff.mpr ⟨last, rfl, onward⟩)
              | into => exact .inr (by rw [lost]; rfl)
              | follow => exact .inr (by rw [lost]; rfl)

/-! ## Paths in what is left -/

/-- Where a path starts is grounded. -/
theorem WellFormed.grounded_start (wellFormed : files.WellFormed) (path : Path) :
    files.Grounded (files.start path) := by
  rw [start]
  split
  · exact wellFormed.root
  · exact wellFormed.working

theorem Sifted.start_eq (sifted : Sifted keep files later) (path : Path) :
    later.start path = (files.start path).sieve keep := by
  rw [start, start, sifted.working]
  split <;> rfl

/-- A path finds nothing if there is nothing under its last name where it is spotted. -/
theorem locate_of_absent (spotted : files.spot path = .ok (place, .name name false))
    (absent : ∀ directory, place = .present directory →
      name.utf8ByteSize ≤ maxNameOctets ∧ files.object? (name :: directory) = none) :
    files.locate path = refuse .noEntry := by
  obtain ⟨-, -, -, last⟩ := spot_eq_ok_iff.mp spotted
  rw [locate, ← last]
  simp only [spotted, Bind.bind, Except.bind]
  cases place with
  | deleted parent => rfl
  | present directory =>
      obtain ⟨short, nothing⟩ := absent directory rfl
      have looked : files.lookUp name (.present directory) =
          .ok ((files.finding directory).child name) :=
        lookUp_eq_ok_iff.mpr ⟨directory, rfl, short, rfl⟩
      have gone : ((files.finding directory).child name).object? = none := by
        rw [Finding.object?_child]
        exact nothing
      simp only [looked, gone, Option.isSome_none, Bool.false_eq_true, if_false]

/-- A path whose last step is no bare name is followed to the end. -/
theorem locate_eq_resolve (other : ∀ name, lastStep path.trail ≠ .name name false) :
    files.locate path = files.resolve path := by
  rw [locate]
  split
  · rename_i name last
    exact absurd last (other name)
  · rfl

/-- **A path leads to what the sieve has made of the place to which it led, or finds nothing.** -/
theorem WellFormed.locate_sifted (wellFormed : files.WellFormed) (sifted : Sifted keep files later)
    (located : files.locate path = .ok place) :
    later.locate path = .ok (place.sieve keep) ∨ later.locate path = refuse .noEntry := by
  have grounded := wellFormed.grounded_start path
  have start := sifted.start_eq path
  by_cases bare : ∃ name, lastStep path.trail = .name name false
  · obtain ⟨name, last⟩ := bare
    obtain ⟨directory, object, spotted, short, found, rfl⟩ := (locate_eq_ok_iff last).mp located
    obtain ⟨checked, walked, isDirectory, -⟩ := spot_eq_ok_iff.mp spotted
    have isDirectory := checkDirectory_present_eq_ok_iff.mp isDirectory
    rcases wellFormed.walk_sifted sifted grounded walked with onward | absent
    · rw [← start] at onward
      by_cases kept : keep directory = true
      · rw [Place.sieve_present_of_keep keep kept] at onward
        have spotted : later.spot path = .ok (.present directory, .name name false) :=
          spot_eq_ok_iff.mpr ⟨checked, onward, checkDirectory_present_eq_ok_iff.mpr
            (sifted.isDirectory_of_keep kept isDirectory), last.symm⟩
        have left := sifted.object (name :: directory)
        split at left
        · rename_i further
          rw [Place.sieve_present_of_keep keep further]
          exact .inl ((locate_eq_ok_iff last).mpr
            ⟨directory, object, spotted, short, left.trans found, rfl⟩)
        · refine .inr (locate_of_absent spotted fun other same => ?_)
          cases same
          exact ⟨short, left⟩
      · cases directory with
        | nil => exact absurd sifted.top kept
        | cons first above =>
            rw [Place.sieve_present_cons keep (Bool.eq_false_iff.mpr kept)] at onward
            exact .inr (locate_of_absent
              (spot_eq_ok_iff.mpr ⟨checked, onward, rfl, last.symm⟩) nofun)
    · refine .inr ?_
      rw [locate, last]
      simp only [spot, checked, start, absent, Bind.bind, Except.bind, refuse]
  · have bare := not_exists.mp bare
    rw [locate_eq_resolve bare] at located ⊢
    obtain ⟨checked, walked⟩ := resolve_eq_ok_iff.mp located
    rcases wellFormed.walk_sifted sifted grounded walked with onward | absent
    · exact .inl (resolve_eq_ok_iff.mpr ⟨checked, start ▸ onward⟩)
    · refine .inr ?_
      simp only [resolve, checked, start, absent, Bind.bind, Except.bind]

/-- A path whose last step is a name leads to a location. -/
theorem exists_location_of_lastStep {slash : Bool} (last : lastStep path.trail = .name name slash)
    (located : files.locate path = .ok place) : ∃ location, place = .present location := by
  cases slash with
  | false =>
      obtain ⟨directory, -, -, -, -, rfl⟩ := (locate_eq_ok_iff last).mp located
      exact ⟨_, rfl⟩
  | true =>
      rw [locate_eq_resolve (by simp [last])] at located
      obtain ⟨-, walked⟩ := resolve_eq_ok_iff.mp located
      obtain ⟨steps, slash⟩ := steps_of_lastStep last
      rw [Trail.allSteps, if_pos slash, steps, List.append_assoc] at walked
      exact exists_of_walk_into walked

/-- **What has been deleted by a path is not found by the path any more.** -/
theorem WellFormed.locate_erase (wellFormed : files.WellFormed) {slash : Bool}
    (last : lastStep path.trail = .name name slash)
    (located : files.locate path = .ok (.present (name :: above))) :
    (files.erase (name :: above)).locate path = refuse .noEntry := by
  rcases wellFormed.locate_sifted (files.sifted_erase name above) located with found | absent
  · have within : name :: above <:+ name :: above := List.suffix_refl _
    rw [Place.sieve_present_cons _ (by simp [Location.isWithin_iff.mpr within])] at found
    obtain ⟨location, same⟩ := exists_location_of_lastStep last found
    cases same
  · exact absent

end DownloadCache.FileSystem
