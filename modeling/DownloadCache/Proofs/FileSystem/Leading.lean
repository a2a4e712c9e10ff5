import DownloadCache.FileSystem.Walk
import DownloadCache.Proofs.Attempt

/-!
# Where steps lead

The relation `Leads` says where steps lead from a location when so many symbolic links may be
replaced: every step is taken in a directory, and a link that is met is replaced by the steps of
its target.  A walk finds a location exactly when the steps lead there (`walk_eq_ok_iff`), so that
walks are compared by comparing the steps of this relation.

Steps that lead somewhere can be parted anywhere (`Leads.part`) and go on from where they lead
(`Leads.append`).
-/

namespace DownloadCache.FileSystem

set_option autoImplicit false

/-! ## Directories -/

/-- Whether there is a directory at a location. -/
def IsDirectory (files : FileSystem) (location : Location) : Prop :=
  ∃ number, files.object? location = some ⟨number, .directory⟩

theorem isDirectory_iff {files : FileSystem} {location : Location} :
    files.IsDirectory location ↔
      ∃ object, files.object? location = some object ∧ object.isDirectory = true := by
  constructor
  · rintro ⟨number, found⟩
    exact ⟨_, found, rfl⟩
  · rintro ⟨⟨number, node⟩, found, directory⟩
    have same : node = .directory := by simpa [Object.isDirectory] using directory
    exact ⟨number, same ▸ found⟩

theorem IsDirectory.isSome {files : FileSystem} {location : Location}
    (directory : files.IsDirectory location) : (files.object? location).isSome := by
  obtain ⟨number, found⟩ := directory
  rw [found]
  rfl

/-- What is found where there is a directory is one. -/
theorem IsDirectory.isDirectory_of_found {files : FileSystem} {location : Location}
    {object : Object} (directory : files.IsDirectory location)
    (found : files.object? location = some object) : object.isDirectory = true := by
  obtain ⟨number, same⟩ := directory
  rw [found] at same
  cases same
  rfl

/-- Where the same is found as at a directory, there is one. -/
theorem IsDirectory.of_same {files later : FileSystem} {location other : Location}
    (directory : files.IsDirectory location)
    (same : later.object? other = files.object? location) : later.IsDirectory other := by
  obtain ⟨number, found⟩ := directory
  exact ⟨number, same.trans found⟩

theorem Finding.object?_child {files : FileSystem} (here : Finding files) (name : String) :
    (here.child name).object? = files.object? (name :: here.location) :=
  (here.child name).object?_eq

/-- Only a directory passes the check. -/
theorem Finding.checkDirectory_eq_ok_iff {files : FileSystem} {here : Finding files} :
    here.checkDirectory = .ok () ↔ files.IsDirectory here.location := by
  rw [checkDirectory, here.object?_eq, IsDirectory]
  split
  · simp_all
  · rename_i object other found
    obtain ⟨number, node⟩ := object
    simp only [found, Option.some.injEq, Object.mk.injEq, refuse, reduceCtorEq, false_iff,
      not_exists, not_and]
    intro _ _ same
    exact other number (same ▸ rfl)
  · simp_all [refuse]

/-! ## Leading -/

/-- Where steps lead from a location when so many links may be replaced. -/
inductive Leads (files : FileSystem) : Nat → Location → List Step → Location → Prop where
  | done (links : Nat) (here : Location) : Leads files links here [] here
  | stay {links : Nat} {here there : Location} {rest : List Step}
      (directory : files.IsDirectory here) (onward : Leads files links here rest there) :
      Leads files links here (.stay :: rest) there
  | up {links : Nat} {here there : Location} {rest : List Step}
      (directory : files.IsDirectory here) (onward : Leads files links here.parent rest there) :
      Leads files links here (.up :: rest) there
  | into {links : Nat} {here there : Location} {rest : List Step} {name : String}
      {object : Object} (directory : files.IsDirectory here)
      (short : name.utf8ByteSize ≤ maxNameOctets)
      (found : files.object? (name :: here) = some object)
      (solid : ∀ target, object.node ≠ .link target)
      (onward : Leads files links (name :: here) rest there) :
      Leads files links here (.into name :: rest) there
  | follow {links : Nat} {here there : Location} {rest : List Step} {name : String}
      {number : Nat} {target : Path} (directory : files.IsDirectory here)
      (short : name.utf8ByteSize ≤ maxNameOctets)
      (found : files.object? (name :: here) = some ⟨number, .link target⟩)
      (onward : Leads files links (if target.isAbsolute then [] else here)
        (target.trail.allSteps ++ rest) there) :
      Leads files (links + 1) here (.into name :: rest) there

variable {files : FileSystem}

/-- A step is taken if it is taken in a directory. -/
theorem Finding.walkWith_cons
    (follow : Finding files → Path → List Step → Except SystemError Location)
    (here : Finding files) (step : Step) (rest : List Step) {location : Location} :
    here.walkWith follow (step :: rest) = .ok location ↔
      files.IsDirectory here.location ∧
        match step with
        | .stay => here.walkWith follow rest = .ok location
        | .up => here.parent.walkWith follow rest = .ok location
        | .into name =>
            name.utf8ByteSize ≤ maxNameOctets ∧
              ∃ object, files.object? (name :: here.location) = some object ∧
                match object.node with
                | .link target => follow here target rest = .ok location
                | _ => (here.child name).walkWith follow rest = .ok location := by
  rw [← checkDirectory_eq_ok_iff, walkWith.eq_def]
  dsimp only
  rw [check_bind_eq_ok_iff]
  refine and_congr_right fun _ => ?_
  cases step with
  | stay => rfl
  | up => rfl
  | into name =>
    dsimp only
    rw [bind_eq_ok_iff]
    by_cases long : name.utf8ByteSize > maxNameOctets
    · simp [lookUp, long, refuse, Nat.not_le.mpr long]
    · have found : here.lookUp name = .ok (here.child name) := by rw [lookUp, if_neg long]
      simp only [found, Except.ok.injEq, exists_eq_left', Nat.le_of_not_gt long, true_and,
        object?_child]
      cases files.object? (name :: here.location) with
      | none => simp [refuse]
      | some object =>
        obtain ⟨number, node⟩ := object
        cases node <;> simp

/-- A walk goes where the steps lead if links are followed to where they lead. -/
theorem Finding.walkWith_eq_ok_iff {links : Nat}
    {follow : Finding files → Path → List Step → Except SystemError Location}
    (followed : ∀ (here : Finding files) (target : Path) (rest : List Step) (location : Location),
      follow here target rest = .ok location ↔
        ∃ fewer, links = fewer + 1 ∧
          Leads files fewer (if target.isAbsolute then [] else here.location)
            (target.trail.allSteps ++ rest) location)
    {here : Finding files} {steps : List Step} {location : Location} :
    here.walkWith follow steps = .ok location ↔
      Leads files links here.location steps location := by
  induction steps generalizing here with
  | nil =>
      constructor
      · intro found
        cases found
        exact .done links here.location
      · intro leads
        cases leads
        rfl
  | cons step rest ih =>
      rw [walkWith_cons]
      constructor
      · rintro ⟨directory, taken⟩
        cases step with
        | stay => exact .stay directory (ih.mp taken)
        | up => exact .up directory (ih.mp taken)
        | into name =>
            obtain ⟨short, ⟨number, node⟩, found, onward⟩ := taken
            cases node with
            | link target =>
                obtain ⟨fewer, rfl, leads⟩ := (followed here target rest location).mp onward
                exact .follow directory short found leads
            | directory => exact .into directory short found (by simp) (ih.mp onward)
            | file content => exact .into directory short found (by simp) (ih.mp onward)
            | socket => exact .into directory short found (by simp) (ih.mp onward)
      · intro leads
        cases leads with
        | stay directory onward => exact ⟨directory, ih.mpr onward⟩
        | up directory onward => exact ⟨directory, ih.mpr onward⟩
        | @into _ _ _ _ name object directory short found solid onward =>
            refine ⟨directory, short, object, found, ?_⟩
            split
            · rename_i target link
              exact absurd link (solid target)
            · exact ih.mpr onward
        | follow directory short found onward =>
            exact ⟨directory, short, _, found, (followed _ _ _ _).mpr ⟨_, rfl, onward⟩⟩

/-- A walk finds a location exactly when the steps lead there. -/
theorem Finding.walk_eq_ok_iff {links : Nat} {here : Finding files} {steps : List Step}
    {location : Location} :
    here.walk links steps = .ok location ↔ Leads files links here.location steps location := by
  induction links generalizing here steps location with
  | zero => exact walkWith_eq_ok_iff fun _ _ _ _ => by simp [refuse]
  | succ links ih =>
      refine walkWith_eq_ok_iff fun here target rest location => ?_
      have start : (if target.isAbsolute then files.finding [] else here).location =
          if target.isAbsolute then [] else here.location := by
        split <;> rfl
      rw [ih, start]
      simp

namespace Leads

variable {links : Nat} {here between there : Location} {first second : List Step}

/-- Steps lead to one location only. -/
theorem unique {other : Location} {steps : List Step} (leads : Leads files links here steps there)
    (leads' : Leads files links here steps other) : there = other := by
  have found : (files.finding here).walk links steps = .ok there := Finding.walk_eq_ok_iff.mpr leads
  rw [Finding.walk_eq_ok_iff.mpr leads'] at found
  exact (Except.ok.inj found).symm

/-- More links may be replaced than have to be. -/
theorem succ {steps : List Step} (leads : Leads files links here steps there) :
    Leads files (links + 1) here steps there := by
  induction leads with
  | done links here => exact .done _ here
  | stay directory _ ih => exact .stay directory ih
  | up directory _ ih => exact .up directory ih
  | into directory short found solid _ ih => exact .into directory short found solid ih
  | follow directory short found _ ih => exact .follow directory short found ih

/-- Steps go on from where the steps before them lead. -/
theorem append (leads : Leads files links here first between)
    (onward : Leads files 0 between second there) :
    Leads files links here (first ++ second) there := by
  induction leads with
  | done links here =>
      induction links with
      | zero => exact onward
      | succ links ih => exact ih.succ
  | stay directory _ ih => exact .stay directory (ih onward)
  | up directory _ ih => exact .up directory (ih onward)
  | into directory short found solid _ ih => exact .into directory short found solid (ih onward)
  | follow directory short found _ ih =>
      exact .follow directory short found (by simpa using ih onward)

/-- Steps that lead somewhere can be parted anywhere. -/
theorem part (leads : Leads files links here (first ++ second) there) :
    ∃ between fewer, fewer ≤ links ∧ Leads files links here first between ∧
      Leads files fewer between second there := by
  generalize whole : first ++ second = steps at leads
  induction leads generalizing first with
  | done links here =>
      obtain ⟨rfl, rfl⟩ := List.append_eq_nil_iff.mp whole
      exact ⟨here, links, Nat.le_refl _, .done links here, .done links here⟩
  | stay directory onward ih =>
      cases first with
      | nil =>
          cases whole
          exact ⟨_, _, Nat.le_refl _, .done _ _, .stay directory onward⟩
      | cons step first =>
          obtain ⟨rfl, rest⟩ := List.cons.inj whole
          obtain ⟨between, fewer, fit, before, after⟩ := ih rest
          exact ⟨between, fewer, fit, .stay directory before, after⟩
  | up directory onward ih =>
      cases first with
      | nil =>
          cases whole
          exact ⟨_, _, Nat.le_refl _, .done _ _, .up directory onward⟩
      | cons step first =>
          obtain ⟨rfl, rest⟩ := List.cons.inj whole
          obtain ⟨between, fewer, fit, before, after⟩ := ih rest
          exact ⟨between, fewer, fit, .up directory before, after⟩
  | into directory short found solid onward ih =>
      cases first with
      | nil =>
          cases whole
          exact ⟨_, _, Nat.le_refl _, .done _ _, .into directory short found solid onward⟩
      | cons step first =>
          obtain ⟨rfl, rest⟩ := List.cons.inj whole
          obtain ⟨between, fewer, fit, before, after⟩ := ih rest
          exact ⟨between, fewer, fit, .into directory short found solid before, after⟩
  | follow directory short found onward ih =>
      cases first with
      | nil =>
          cases whole
          exact ⟨_, _, Nat.le_refl _, .done _ _, .follow directory short found onward⟩
      | cons step first =>
          obtain ⟨rfl, rfl⟩ := List.cons.inj whole
          obtain ⟨between, fewer, fit, before, after⟩ := ih (List.append_assoc _ first second)
          exact ⟨between, fewer, Nat.le_succ_of_le fit, .follow directory short found before, after⟩

end Leads

end DownloadCache.FileSystem
