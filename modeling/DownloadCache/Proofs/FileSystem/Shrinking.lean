import DownloadCache.Proofs.FileSystem.Locating
import DownloadCache.Proofs.FileSystem.WellFormed

/-!
# Walks in what is left

Steps that lead somewhere after some objects have been deleted led there before (`Leads.of_sifted`),
and so did walks that start where what was deleted has put the working directory
(`WellFormed.walk_of_sifted`).  So a file system that shrinks neither names new objects nor leads
a path to another directory (`Shrinks`).
-/

namespace DownloadCache.FileSystem

set_option autoImplicit false

variable {files between later : FileSystem} {keep : Location → Bool}

/-! ## Steps -/

/-- Steps from a location that is kept led to where they lead now, and that is kept as well. -/
theorem Leads.of_sifted (sifted : Sifted keep files later) {links : Nat} {here there : Location}
    {steps : List Step} (leads : Leads later links here steps there) (kept : keep here = true) :
    Leads files links here steps there ∧ keep there = true := by
  induction leads with
  | done links here => exact ⟨.done links here, kept⟩
  | stay directory _ ih =>
      obtain ⟨onward, there⟩ := ih kept
      exact ⟨.stay (sifted.isDirectory directory) onward, there⟩
  | @up _ here _ _ directory _ ih =>
      have above : keep here.parent = true := by
        cases here with
        | nil => exact kept
        | cons name above => exact sifted.upward kept
      obtain ⟨onward, there⟩ := ih above
      exact ⟨.up (sifted.isDirectory directory) onward, there⟩
  | into directory short found solid _ ih =>
      obtain ⟨onward, there⟩ := ih (sifted.keep_of_isSome (by rw [found]; rfl))
      exact ⟨.into (sifted.isDirectory directory) short (sifted.object_of_some found) solid onward,
        there⟩
  | @follow _ here _ _ _ _ target directory short found _ ih =>
      have first : keep (if target.isAbsolute then [] else here) = true := by
        split
        · exact sifted.top
        · exact kept
      obtain ⟨onward, there⟩ := ih first
      exact ⟨.follow (sifted.isDirectory directory) short (sifted.object_of_some found) onward,
        there⟩

/-! ## Walks between places -/

/-- From a place that is kept a walk leads to where it led. -/
theorem walk_of_sifted_of_keep (sifted : Sifted keep files later) {location : Location}
    {steps : List Step} {there : Place} (kept : keep location = true)
    (found : later.walk (.present location) steps = .ok there) :
    files.walk (.present location) steps = .ok there ∧ there.sieve keep = there := by
  obtain ⟨last, rfl, leads⟩ := walk_present_eq_ok_iff.mp found
  obtain ⟨leads, kept⟩ := leads.of_sifted sifted kept
  exact ⟨walk_present_eq_ok_iff.mpr ⟨last, rfl, leads⟩, Place.sieve_present_of_keep keep kept⟩

/-- From what the sieve has made of a place, a walk leads to what the sieve has made of the place
to which it led. -/
theorem WellFormed.walk_of_sifted (wellFormed : files.WellFormed)
    (sifted : Sifted keep files later) {place there : Place} {steps : List Step}
    (grounded : files.Grounded place) (found : later.walk (place.sieve keep) steps = .ok there) :
    ∃ before, files.walk place steps = .ok before ∧ there = before.sieve keep := by
  -- Induction on the steps: a place that is lost is left only by steps up.
  induction steps generalizing place with
  | nil =>
      cases place with
      | deleted parent =>
          cases found
          exact ⟨.deleted parent, rfl, rfl⟩
      | present location =>
          refine ⟨.present location, walk_present_eq_ok_iff.mpr ⟨location, rfl, .done _ _⟩, ?_⟩
          cases sieved : (Place.present location).sieve keep with
          | deleted parent => rw [sieved] at found; cases found; rfl
          | present other =>
              rw [sieved] at found
              obtain ⟨last, rfl, leads⟩ := walk_present_eq_ok_iff.mp found
              cases leads
              rfl
  | cons step rest ih =>
      cases place with
      | deleted parent =>
          cases step with
          | stay =>
              have found : later.walk ((Place.deleted parent).sieve keep) rest = .ok there := found
              exact ih grounded found
          | up =>
              have found : later.walk (parent.sieve keep) rest = .ok there := found
              exact ih grounded found
          | into name => cases found
      | present location =>
          by_cases kept : keep location = true
          · rw [Place.sieve_present_of_keep keep kept] at found
            obtain ⟨found, same⟩ := walk_of_sifted_of_keep sifted kept found
            exact ⟨there, found, same.symm⟩
          cases location with
          | nil => exact absurd sifted.top kept
          | cons name above =>
              have lost := Place.sieve_present_cons keep (Bool.eq_false_iff.mpr kept)
              have directory : files.IsDirectory (name :: above) := grounded
              rw [lost] at found
              cases step with
              | stay =>
                  have found : later.walk ((Place.present (name :: above)).sieve keep) rest =
                      .ok there := by rwa [lost]
                  obtain ⟨before, walked, same⟩ := ih grounded found
                  obtain ⟨last, rfl, leads⟩ := walk_present_eq_ok_iff.mp walked
                  exact ⟨_, walk_present_eq_ok_iff.mpr ⟨last, rfl, .stay directory leads⟩, same⟩
              | up =>
                  have found : later.walk ((Place.present above).sieve keep) rest = .ok there :=
                    found
                  have grounded : files.Grounded (.present above) :=
                    (wellFormed.held directory.isSome).1
                  obtain ⟨before, walked, same⟩ := ih grounded found
                  obtain ⟨last, rfl, leads⟩ := walk_present_eq_ok_iff.mp walked
                  exact ⟨_, walk_present_eq_ok_iff.mpr ⟨last, rfl, .up directory leads⟩, same⟩
              | into first => cases found

/-- What the sieve leaves at a location was there before. -/
theorem eq_of_sieve_eq_present {place : Place} {location : Location}
    (same : place.sieve keep = .present location) : place = .present location := by
  cases place with
  | deleted parent => cases same
  | present other =>
      cases other with
      | nil => exact same
      | cons name above =>
          rw [Place.sieve, Place.ofLocation] at same
          split at same
          · exact same
          · cases same

/-! ## Shrinking -/

/-- What is found was found before, and where a path leads to a directory it led to that
directory. -/
structure Shrinks (files later : FileSystem) : Prop where
  object : ∀ {location : Location} {object : Object}, later.object? location = some object →
    files.object? location = some object
  spot : ∀ {path : Path} {directory : Location} {last : Last},
    later.spot path = .ok (.present directory, last) →
      files.spot path = .ok (.present directory, last)

theorem Shrinks.refl (files : FileSystem) : Shrinks files files :=
  ⟨id, id⟩

theorem Shrinks.trans (first : Shrinks files between) (second : Shrinks between later) :
    Shrinks files later :=
  ⟨fun found => first.object (second.object found), fun found => first.spot (second.spot found)⟩

theorem Shrinks.isDirectory (shrinks : Shrinks files later) {location : Location}
    (directory : later.IsDirectory location) : files.IsDirectory location := by
  obtain ⟨number, found⟩ := directory
  exact ⟨number, shrinks.object found⟩

theorem Shrinks.isSome (shrinks : Shrinks files later) {location : Location}
    (there : (later.object? location).isSome) : (files.object? location).isSome := by
  obtain ⟨object, found⟩ := Option.isSome_iff_exists.mp there
  rw [shrinks.object found]
  rfl

/-- What was there is as it was or gone. -/
theorem Shrinks.eq_none_or_eq (shrinks : Shrinks files later) (location : Location) :
    later.object? location = none ∨ later.object? location = files.object? location := by
  cases left : later.object? location with
  | none => exact .inl rfl
  | some object => exact .inr (shrinks.object left).symm

/-- **Sifting shrinks a well-formed file system.** -/
theorem WellFormed.shrinks (wellFormed : files.WellFormed) (sifted : Sifted keep files later) :
    Shrinks files later where
  object := sifted.object_of_some
  spot := by
    intro path directory last spotted
    obtain ⟨checked, walked, isDirectory, same⟩ := spot_eq_ok_iff.mp spotted
    have grounded : files.Grounded (files.start path) := by
      rw [start]
      split
      · exact wellFormed.root
      · exact wellFormed.working
    have start : later.start path = (files.start path).sieve keep := by
      rw [FileSystem.start, FileSystem.start, sifted.working]
      split <;> rfl
    rw [start] at walked
    obtain ⟨before, walked, sieved⟩ := wellFormed.walk_of_sifted sifted grounded walked
    rw [eq_of_sieve_eq_present sieved.symm] at walked
    have isDirectory := checkDirectory_present_eq_ok_iff.mp isDirectory
    exact spot_eq_ok_iff.mpr ⟨checked, walked,
      checkDirectory_present_eq_ok_iff.mpr (sifted.isDirectory isDirectory), same⟩

end DownloadCache.FileSystem
