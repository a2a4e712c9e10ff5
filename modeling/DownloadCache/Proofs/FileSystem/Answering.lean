import DownloadCache.Proofs.FileSystem.Following
import DownloadCache.Proofs.FileSystem.Vanishing

/-!
# What a removal answers

If a path leads somewhere, its last step is taken in a directory (`WellFormed.exists_spot`) and
there is something at its end (`WellFormed.isSome_nodeAt?`).  So deleting by such a path never finds
nothing, whatever else may stop it.  Hence a removal says that there was nothing if and only if the
path finds nothing (`WellFormed.remove_eq_ok_false_iff`).  If it says that something was removed,
the path found an object before and finds nothing afterwards (`WellFormed.removed_of_ok_true`); that
holds too if the path went through the directory that was emptied and could not be walked along once
more.
-/

namespace DownloadCache.FileSystem

set_option autoImplicit false

variable {files later : FileSystem} {links : Nat} {here there : Location} {steps rest : List Step}
  {path : Path} {place : Place} {cause : SystemError}

/-! ## Where the last step is taken -/

/-- A walk takes each of its steps in a directory. -/
theorem exists_walk_of_append {there : Place} {first : List Step} {step : Step}
    (walked : files.walk place (first ++ step :: rest) = .ok there) :
    ∃ between, files.walk place first = .ok between ∧ files.checkDirectory between = .ok () := by
  induction first generalizing place with
  | nil =>
      cases place with
      | deleted parent => exact ⟨.deleted parent, rfl, rfl⟩
      | present here =>
          refine ⟨.present here, walk_present_eq_ok_iff.mpr ⟨here, rfl, .done _ _⟩, ?_⟩
          obtain ⟨last, -, leads⟩ := walk_present_eq_ok_iff.mp walked
          rw [checkDirectory_present_eq_ok_iff]
          cases leads <;> assumption
  | cons other first ih =>
      cases place with
      | deleted parent =>
          cases other with
          | stay =>
              have walked : files.walk (.deleted parent) (first ++ step :: rest) = .ok there :=
                walked
              exact ih walked
          | up =>
              have walked : files.walk parent (first ++ step :: rest) = .ok there := walked
              exact ih walked
          | into name => cases walked
      | present here =>
          obtain ⟨last, -, leads⟩ := walk_present_eq_ok_iff.mp walked
          obtain ⟨between, fewer, -, before, onward⟩ := leads.part
          refine ⟨.present between, walk_present_eq_ok_iff.mpr ⟨between, rfl, before⟩, ?_⟩
          rw [checkDirectory_present_eq_ok_iff]
          cases onward <;> assumption

theorem WellFormed.checkDirectory_of_grounded (grounded : files.Grounded place) :
    files.checkDirectory place = .ok () := by
  cases place with
  | deleted parent => rfl
  | present location => exact checkDirectory_present_eq_ok_iff.mpr grounded

/-- What a path leads to is the end of a step that is taken in a directory. -/
theorem WellFormed.exists_spot (wellFormed : files.WellFormed)
    (located : files.locate path = .ok place) :
    ∃ directory, files.spot path = .ok (directory, lastStep path.trail) := by
  by_cases named : ∃ name slash, lastStep path.trail = .name name slash
  · obtain ⟨name, slash, last⟩ := named
    obtain ⟨above, spotted, -⟩ := exists_spot_of_locate last located
    exact ⟨.present above, last ▸ spotted⟩
  · rw [locate_eq_resolve fun name last => named ⟨name, false, last⟩] at located
    obtain ⟨checked, walked⟩ := resolve_eq_ok_iff.mp located
    obtain ⟨directory, before, isDirectory⟩ : ∃ directory,
        files.walk (files.start path) path.trail.steps.dropLast = .ok directory ∧
          files.checkDirectory directory = .ok () := by
      cases filled : path.trail.steps.getLast? with
      | none =>
          have empty := List.getLast?_eq_none_iff.mp filled
          refine ⟨files.start path, ?_,
            checkDirectory_of_grounded (wellFormed.grounded_start path)⟩
          rw [empty]
          cases files.start path with
          | deleted parent => rfl
          | present here => exact walk_present_eq_ok_iff.mpr ⟨here, rfl, .done _ _⟩
      | some step =>
          obtain ⟨first, whole⟩ := List.getLast?_eq_some_iff.mp filled
          have all : ∃ more, path.trail.allSteps = first ++ step :: more := by
            rw [Trail.allSteps, whole]
            split
            · exact ⟨[.stay], List.append_assoc _ _ _⟩
            · exact ⟨[], rfl⟩
          obtain ⟨more, all⟩ := all
          rw [all] at walked
          rw [whole, List.dropLast_concat]
          exact exists_walk_of_append walked
    exact ⟨directory, spot_eq_ok_iff.mpr ⟨checked, before, isDirectory, rfl⟩⟩

/-! ## What is at the end of a path -/

/-- Steps from something lead to something. -/
theorem WellFormed.isSome_of_leads (wellFormed : files.WellFormed)
    (leads : Leads files links here steps there) (some : (files.object? here).isSome) :
    (files.object? there).isSome := by
  induction leads with
  | done => exact some
  | stay _ _ ih => exact ih some
  | @up _ here _ _ directory _ ih =>
      cases here with
      | nil => exact ih some
      | cons name above => exact ih (wellFormed.held some).1.isSome
  | into _ _ found _ _ ih => exact ih (by rw [found]; rfl)
  | follow _ _ _ _ ih =>
      apply ih
      split
      · exact wellFormed.root.isSome
      · exact some

/-- A grounded place is left for a directory. -/
theorem Grounded.isDirectory_of_departure (grounded : files.Grounded place)
    (departs : departure place steps = some (here, rest)) : files.IsDirectory here := by
  induction steps generalizing place with
  | nil =>
      cases place with
      | deleted parent => cases departs
      | present location =>
          cases departs
          exact grounded
  | cons step steps ih =>
      cases place with
      | present location =>
          cases departs
          exact grounded
      | deleted parent =>
          cases step with
          | stay =>
              have departs : departure (.deleted parent) steps = some (here, rest) := departs
              exact ih grounded departs
          | up =>
              have within : files.Grounded parent := grounded
              exact ih within departs
          | into name => cases departs

theorem WellFormed.isSome_nodeAt?_of_walk (wellFormed : files.WellFormed) {there : Place}
    (grounded : files.Grounded place) (walked : files.walk place steps = .ok there) :
    (files.nodeAt? there).isSome := by
  cases there with
  | deleted parent => rfl
  | present last =>
      obtain ⟨here, rest, departs, leads⟩ := walk_eq_present_iff.mp walked
      rw [nodeAt?_present, Option.isSome_map]
      exact wellFormed.isSome_of_leads leads (grounded.isDirectory_of_departure departs).isSome

/-- Where a path leads there is something. -/
theorem WellFormed.isSome_nodeAt? (wellFormed : files.WellFormed)
    (located : files.locate path = .ok place) : (files.nodeAt? place).isSome := by
  by_cases bare : ∃ name, lastStep path.trail = .name name false
  · obtain ⟨name, last⟩ := bare
    obtain ⟨directory, object, -, -, found, rfl⟩ := (locate_eq_ok_iff last).mp located
    rw [nodeAt?_present, found]
    rfl
  · rw [locate_eq_resolve (not_exists.mp bare)] at located
    obtain ⟨-, walked⟩ := resolve_eq_ok_iff.mp located
    exact wellFormed.isSome_nodeAt?_of_walk (wellFormed.grounded_start path) walked

/-- Whether nothing is found under a path. -/
def FindsNothing (files : FileSystem) (path : Path) : Prop :=
  ∃ cause, files.linkStatus path = .error cause ∧ cause.isNoEntry = true

/-- What a path leads to has a status. -/
theorem WellFormed.exists_linkStatus (wellFormed : files.WellFormed)
    (located : files.locate path = .ok place) :
    ∃ node, files.nodeAt? place = some node ∧ files.linkStatus path = .ok node := by
  obtain ⟨node, found⟩ := Option.isSome_iff_exists.mp (wellFormed.isSome_nodeAt? located)
  refine ⟨node, found, ?_⟩
  simp only [linkStatus, located, found, Bind.bind, Except.bind, pure, Except.pure]

theorem linkStatus_of_error (failed : files.locate path = .error cause) :
    files.linkStatus path = .error cause := by
  simp only [linkStatus, failed, Bind.bind, Except.bind]

theorem findsNothing_of_noEntry (failed : files.locate path = refuse .noEntry) :
    files.FindsNothing path :=
  ⟨_, linkStatus_of_error failed, rfl⟩

/-- Nothing is found under a path that leads to no entry. -/
theorem WellFormed.findsNothing_iff (wellFormed : files.WellFormed) :
    files.FindsNothing path ↔
      ∃ cause, files.locate path = .error cause ∧ cause.isNoEntry = true := by
  constructor
  · rintro ⟨cause, failed, absent⟩
    cases located : files.locate path with
    | error other =>
        rw [linkStatus_of_error located] at failed
        cases failed
        exact ⟨cause, rfl, absent⟩
    | ok place =>
        obtain ⟨node, -, status⟩ := wellFormed.exists_linkStatus located
        rw [status] at failed
        cases failed
  · rintro ⟨cause, failed, absent⟩
    exact ⟨cause, linkStatus_of_error failed, absent⟩

/-! ## Deleting what is found -/

/-- What is refused for another reason is there. -/
theorem isNoEntry_of_refuse {α : Type} {number : Errno} {cause : SystemError}
    (refused : (refuse number : Except SystemError α) = .error cause) (other : number ≠ .noEntry) :
    cause.isNoEntry = false := by
  cases refused
  cases number <;> first | rfl | exact absurd rfl other

theorem isNoEntry_of_checkUnlocked {directory : Location}
    (refused : files.checkUnlocked directory = .error cause) : cause.isNoEntry = false := by
  rw [checkUnlocked] at refused
  split at refused
  · exact isNoEntry_of_refuse refused (by decide)
  · cases refused

/-- A look-up where a path is spotted that leads somewhere finds an object, if the name is not too
long. -/
theorem isNoEntry_or_exists_of_lookUp {name : String} {above : Location}
    (there : (files.object? (name :: above)).isSome) :
    (∃ cause, files.lookUp name (.present above) = .error cause ∧ cause.isNoEntry = false) ∨
      ∃ named object, files.lookUp name (.present above) = .ok named ∧
        named.object? = some object := by
  by_cases short : name.utf8ByteSize ≤ maxNameOctets
  · obtain ⟨object, found⟩ := Option.isSome_iff_exists.mp there
    refine .inr ⟨_, object, lookUp_eq_ok_iff.mpr ⟨above, rfl, short, rfl⟩, ?_⟩
    rw [Finding.object?_child]
    exact found
  · refine .inl ⟨.errno .nameTooLong, ?_, rfl⟩
    rw [lookUp, Finding.lookUp, if_pos (Nat.not_le.mp short), refuse]

/-- Deleting a directory by a path that leads somewhere never finds nothing. -/
theorem WellFormed.isNoEntry_of_removeDirectory (wellFormed : files.WellFormed)
    (located : files.locate path = .ok place)
    (failed : files.removeDirectory path = .error cause) : cause.isNoEntry = false := by
  obtain ⟨directory, spotted⟩ := wellFormed.exists_spot located
  simp only [removeDirectory, spotted, Bind.bind, Except.bind] at failed
  cases last : lastStep path.trail with
  | name name slash =>
      obtain ⟨above, spotted', there⟩ := exists_spot_of_locate last located
      rw [spotted, last] at spotted'
      cases spotted'
      simp only [last] at failed
      rcases isNoEntry_or_exists_of_lookUp there with
        ⟨other, refused, plain⟩ | ⟨named, object, looked, found⟩
      · simp only [refused, Except.error.injEq] at failed
        exact failed ▸ plain
      · simp only [looked, found] at failed
        cases unlocked : files.checkUnlocked named.location.parent with
        | error other =>
            simp only [unlocked, Except.error.injEq] at failed
            exact failed ▸ isNoEntry_of_checkUnlocked unlocked
        | ok _ =>
            simp only [unlocked] at failed
            split at failed
            · exact isNoEntry_of_refuse failed (by decide)
            · split at failed
              · cases failed
              · exact isNoEntry_of_refuse failed (by decide)
  | _ =>
      simp only [last] at failed
      exact isNoEntry_of_refuse failed (by decide)

/-- Deleting anything else by a path that leads somewhere never finds nothing. -/
theorem WellFormed.isNoEntry_of_unlink (wellFormed : files.WellFormed)
    (located : files.locate path = .ok place) (failed : files.unlink path = .error cause) :
    cause.isNoEntry = false := by
  obtain ⟨directory, spotted⟩ := wellFormed.exists_spot located
  simp only [unlink, spotted, Bind.bind, Except.bind] at failed
  cases last : lastStep path.trail with
  | name name slash =>
      obtain ⟨above, spotted', there⟩ := exists_spot_of_locate last located
      rw [spotted, last] at spotted'
      cases spotted'
      simp only [last] at failed
      rcases isNoEntry_or_exists_of_lookUp there with
        ⟨other, refused, plain⟩ | ⟨named, object, looked, found⟩
      · simp only [refused, Except.error.injEq] at failed
        exact failed ▸ plain
      · simp only [looked, found] at failed
        split at failed
        · exact isNoEntry_of_refuse failed (by split <;> decide)
        · cases unlocked : files.checkUnlocked named.location.parent with
          | error other =>
              simp only [unlocked, Except.error.injEq] at failed
              exact failed ▸ isNoEntry_of_checkUnlocked unlocked
          | ok _ =>
              simp only [unlocked] at failed
              split at failed
              · exact isNoEntry_of_refuse failed (by decide)
              · cases failed
  | _ =>
      simp only [last] at failed
      exact isNoEntry_of_refuse failed (by decide)

/-! ## What a removal answers -/

/-- A removal of nothing changes nothing. -/
theorem remove_of_noEntry (failed : files.locate path = .error cause)
    (absent : cause.isNoEntry = true) : files.remove path = (.ok false, files) := by
  simp only [remove, failed, absent, if_true]

/-- **A removal says that there was nothing if and only if the path finds nothing.** -/
theorem WellFormed.remove_eq_ok_false_iff (wellFormed : files.WellFormed) :
    (files.remove path).1 = .ok false ↔ files.FindsNothing path := by
  rw [wellFormed.findsNothing_iff]
  constructor
  · intro answer
    cases located : files.locate path with
    | error cause =>
        rw [remove, located] at answer
        dsimp only at answer
        split at answer
        · rename_i absent
          exact ⟨cause, rfl, absent⟩
        · cases answer
    | ok place =>
        rw [remove, located] at answer
        dsimp only at answer
        split at answer
        · rw [removeTree] at answer
          split at answer
          · cases answer
          · split at answer
            · cases answer
            · split at answer <;> cases answer
        · rw [tolerate.eq_def] at answer
          split at answer
          · cases answer
          · rename_i cause failed
            rw [wellFormed.isNoEntry_of_unlink located failed] at answer
            cases answer
  · rintro ⟨cause, failed, absent⟩
    rw [remove_of_noEntry failed absent]

/-- Where an emptied directory has been deleted by its path, or could not be found by it, the path
finds nothing. -/
theorem WellFormed.findsNothing_of_removeTree (wellFormed : files.WellFormed)
    (located : files.locate path = .ok place)
    (answer : (files.removeTree path place).1 = .ok true) :
    (files.removeTree path place).2.FindsNothing path := by
  have emptied : (files.emptyAt place).2.WellFormed ∧
      ((∃ left, (files.emptyAt place).2.locate path = .ok left) ∨
        (files.emptyAt place).2.locate path = refuse .noEntry) := by
    cases place with
    | deleted parent => exact ⟨wellFormed, .inl ⟨_, located⟩⟩
    | present location =>
        have sifted := files.sifted_emptied location
        exact ⟨wellFormed.sifted sifted,
          (wellFormed.locate_sifted sifted located).imp_left fun left => ⟨_, left⟩⟩
  rw [removeTree] at answer ⊢
  generalize files.emptyAt place = emptying at emptied answer ⊢
  obtain ⟨cause | _, left⟩ := emptying
  · cases answer
  obtain ⟨wellFormed, found⟩ := emptied
  dsimp only at wellFormed found answer ⊢
  split
  · rename_i removed
    obtain ⟨name, above, slash, spotted, short, ⟨number, there⟩, -, -, rfl⟩ :=
      removeDirectory_eq_ok_iff.mp removed
    obtain ⟨-, -, -, last⟩ := spot_eq_ok_iff.mp spotted
    exact findsNothing_of_noEntry
      (wellFormed.locate_erase last.symm (locate_of_spot spotted short there fun _ => rfl))
  · rename_i cause failed
    rw [failed] at answer
    dsimp only at answer
    split at answer
    · rename_i absent
      rcases found with ⟨left, found⟩ | nothing
      · rw [wellFormed.isNoEntry_of_removeDirectory found failed] at absent
        cases absent
      · rw [if_pos absent]
        exact findsNothing_of_noEntry nothing
    · cases answer

/-- A directory that has been deleted cannot be deleted once more. -/
theorem WellFormed.present_of_removeTree (wellFormed : files.WellFormed)
    (located : files.locate path = .ok place)
    (answer : (files.removeTree path place).1 = .ok true) :
    ∃ location, place = .present location := by
  cases place with
  | present location => exact ⟨location, rfl⟩
  | deleted parent =>
      rw [removeTree, emptyAt] at answer
      dsimp only at answer
      split at answer
      · rename_i removed
        obtain ⟨name, above, slash, spotted, short, ⟨number, there⟩, -⟩ :=
          removeDirectory_eq_ok_iff.mp removed
        rw [locate_of_spot spotted short there fun _ => rfl] at located
        cases located
      · rename_i cause failed
        rw [wellFormed.isNoEntry_of_removeDirectory located failed] at answer
        cases answer

/-- **A removal that says that something was removed** has found something at a location by the
path, and the path finds nothing any more. -/
theorem WellFormed.removed_of_ok_true (wellFormed : files.WellFormed)
    (answer : (files.remove path).1 = .ok true) :
    (∃ location, files.locate path = .ok (.present location)) ∧
      (files.remove path).2.FindsNothing path := by
  cases located : files.locate path with
  | error cause =>
      rw [remove, located] at answer
      dsimp only at answer
      split at answer <;> cases answer
  | ok place =>
      rw [remove, located] at answer ⊢
      dsimp only at answer ⊢
      split
      · rename_i directory
        rw [if_pos directory] at answer
        obtain ⟨location, rfl⟩ := wellFormed.present_of_removeTree located answer
        exact ⟨⟨location, rfl⟩, wellFormed.findsNothing_of_removeTree located answer⟩
      · rename_i other
        rw [if_neg other, tolerate.eq_def] at answer
        rw [tolerate.eq_def]
        split at answer
        · rename_i removed
          obtain ⟨name, above, object, spotted, short, there, -, -, rfl⟩ :=
            unlink_eq_ok_iff.mp removed
          obtain ⟨-, -, -, last⟩ := spot_eq_ok_iff.mp spotted
          have found := locate_of_spot spotted short there (by simp)
          rw [located] at found
          cases found
          exact ⟨⟨_, rfl⟩, findsNothing_of_noEntry (wellFormed.locate_erase last.symm located)⟩
        · split at answer <;> cases answer

/-- What a removal changes is the object that the path finds or, if that is a directory, lies below
it. -/
theorem WellFormed.eq_or_below_of_remove (wellFormed : files.WellFormed) {location other : Location}
    {object : Object} (located : files.locate path = .ok (.present location))
    (found : files.object? location = some object)
    (lost : (files.remove path).2.object? other ≠ files.object? other) :
    other = location ∨ object.isDirectory = true ∧ other.isBelow location = true := by
  have removal := wellFormed.removal_remove path
  have there : (files.object? other).isSome := by
    rw [Option.isSome_iff_ne_none]
    intro absent
    rcases (removal.shrinks wellFormed).eq_none_or_eq other with gone | same
    · exact lost (gone.trans absent.symm)
    · exact lost same
  have within : location <:+ other := by
    by_contra outside
    refine lost (removal.frame fun top same => ?_)
    rw [located] at same
    cases same
    exact outside
  by_cases same : other = location
  · exact .inl same
  · have directory := wellFormed.isDirectory_of_suffix there within (Ne.symm same)
    refine .inr ⟨directory.isDirectory_of_found found, ?_⟩
    simp [Location.isBelow, Location.isWithin_iff.mpr within, same]

end DownloadCache.FileSystem
