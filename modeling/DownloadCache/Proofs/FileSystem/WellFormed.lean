import DownloadCache.Proofs.FileSystem.Leading
import DownloadCache.Proofs.Lookup
import DownloadCache.Proofs.Path.Name

/-!
# Well-formed file systems

In a well-formed file system the root is a directory, whatever is found is held by a directory
under what a path can spell as a name, and the working directory is a directory or has been deleted
from within one (`WellFormed`).  So all that lies above something is a directory
(`WellFormed.isDirectory_of_suffix`).

A change that deletes sifts: it keeps what is at some locations as it is and loses the rest, with
all that lies below something that is lost (`Sifted`).  Sifting keeps a file system well-formed
(`WellFormed.sifted`), and so does putting something into a directory (`WellFormed.put`), be it new
(`WellFormed.create`) or one more name of what is there already.
-/

namespace DownloadCache.FileSystem

set_option autoImplicit false

variable {files later : FileSystem}

/-! ## Locations -/

/-- Nothing is within what lies below it. -/
theorem not_cons_suffix (name : String) (above : Location) : ¬name :: above <:+ above :=
  fun within => absurd within.length_le (by simp)

/-- What is within two names of one directory is within one name. -/
theorem eq_of_both_suffix {name other : String} {above location : Location}
    (within : name :: above <:+ location) (within' : other :: above <:+ location) :
    name = other := by
  have same := (List.suffix_of_suffix_length_le within within' (by simp)).eq_of_length (by simp)
  exact (List.cons.inj same).1

/-- What is within a name of its own directory has that name. -/
theorem eq_of_cons_suffix_cons {name other : String} {above : Location}
    (within : name :: above <:+ other :: above) : other = name := by
  rcases List.suffix_cons_iff.mp within with same | within
  · exact (List.cons.inj same).1.symm
  · exact absurd within (not_cons_suffix name above)

/-- What is within a name of a directory lies strictly below the directory. -/
theorem isBelow_of_cons_suffix {name : String} {above location : Location}
    (within : name :: above <:+ location) : location.isBelow above = true := by
  have up : above <:+ location := (List.suffix_cons name above).trans within
  have apart : location ≠ above := by
    rintro rfl
    exact not_cons_suffix name location within
  simp [Location.isBelow, Location.isWithin_iff.mpr up, apart]

/-- What lies strictly below a location goes on from it. -/
theorem isBelow_iff {location directory : Location} :
    location.isBelow directory = true ↔ ∃ below, below ≠ [] ∧ location = below ++ directory := by
  rw [Location.isBelow, Bool.and_eq_true, Location.isWithin_iff, bne_iff_ne]
  constructor
  · rintro ⟨⟨below, rfl⟩, apart⟩
    exact ⟨below, fun top => apart (by rw [top]; rfl), rfl⟩
  · rintro ⟨below, strictly, rfl⟩
    exact ⟨List.suffix_append below directory, by simpa using strictly⟩

/-- What is held by something within a directory lies strictly below the directory. -/
theorem isBelow_cons_of_suffix {name : String} {above directory : Location}
    (within : directory <:+ above) : Location.isBelow (name :: above) directory = true := by
  obtain ⟨below, rfl⟩ := within
  exact isBelow_iff.mpr ⟨name :: below, by simp, rfl⟩

theorem suffix_of_isBelow {location directory : Location}
    (below : location.isBelow directory = true) :
    directory <:+ location ∧ location ≠ directory := by
  simpa [Location.isBelow, Location.isWithin_iff] using below

theorem isBelow_self (location : Location) : location.isBelow location = false := by
  simp [Location.isBelow]

/-- What holds something is not below it. -/
theorem isBelow_cons_self (name : String) (above : Location) :
    above.isBelow (name :: above) = false := by
  simp [Location.isBelow, mt Location.isWithin_iff.mp (not_cons_suffix name above)]

/-! ## Names -/

/-- What is listed is what is found under a name. -/
theorem mem_names_iff {name : String} {directory : Location} :
    name ∈ files.names directory ↔ (files.object? (name :: directory)).isSome := by
  rw [names, object?, Option.isSome_map, Tree.find?]
  cases files.root.find? directory with
  | none => simp
  | some tree =>
      rw [Option.map_some, Option.getD_some, Option.bind_some, Tree.child?, Tree.names,
        List.mem_map]
      constructor
      · rintro ⟨pair, within, rfl⟩
        rw [Option.isSome_iff_ne_none]
        exact fun absent => ne_of_lookup_eq_none absent within rfl
      · intro found
        obtain ⟨child, lookedUp⟩ := Option.isSome_iff_exists.mp found
        exact ⟨_, mem_of_lookup_eq_some lookedUp, rfl⟩

/-! ## Well-formedness -/

/-- Whether a place is a directory or that of one that has been deleted from within such a
place. -/
def Grounded (files : FileSystem) : Place → Prop
  | .present location => files.IsDirectory location
  | .deleted parent => files.Grounded parent

/-- The root is a directory, whatever is found is held by a directory under a name, and the working
directory is grounded. -/
structure WellFormed (files : FileSystem) : Prop where
  root : files.IsDirectory []
  held : ∀ {name : String} {above : Location}, (files.object? (name :: above)).isSome →
    files.IsDirectory above ∧ IsName name
  working : files.Grounded files.working

theorem wellFormed_empty : empty.WellFormed where
  root := ⟨0, rfl⟩
  held := by
    intro name above found
    rw [object?, empty, Tree.find?_leaf, if_neg (List.cons_ne_nil name above)] at found
    cases found
  working := ⟨0, rfl⟩

/-- All that lies above something is a directory. -/
theorem WellFormed.isDirectory_of_suffix (wellFormed : files.WellFormed)
    {location above : Location} (found : (files.object? location).isSome)
    (within : above <:+ location) (apart : above ≠ location) : files.IsDirectory above := by
  induction location with
  | nil => exact absurd (List.suffix_nil.mp within) apart
  | cons name rest ih =>
      have directory := (wellFormed.held found).1
      rcases List.suffix_cons_iff.mp within with same | within
      · exact absurd same apart
      · by_cases next : above = rest
        · rwa [next]
        · exact ih directory.isSome within next

/-- All that a directory is within is a directory. -/
theorem WellFormed.isDirectory_of_within (wellFormed : files.WellFormed)
    {location above : Location} (directory : files.IsDirectory location)
    (within : above <:+ location) : files.IsDirectory above := by
  by_cases same : above = location
  · exact same ▸ directory
  · exact wellFormed.isDirectory_of_suffix directory.isSome within same

/-- The location of something is spelled by names. -/
theorem WellFormed.isName_of_mem (wellFormed : files.WellFormed) {location : Location}
    (found : (files.object? location).isSome) : ∀ name ∈ location, IsName name := by
  induction location with
  | nil => nofun
  | cons first rest ih =>
      obtain ⟨directory, legal⟩ := wellFormed.held found
      intro name member
      rcases List.mem_cons.mp member with rfl | member
      · exact legal
      · exact ih directory.isSome name member

/-- A place stays grounded if directories stay directories. -/
theorem Grounded.mono (kept : ∀ location, files.IsDirectory location → later.IsDirectory location)
    {place : Place} (grounded : files.Grounded place) : later.Grounded place := by
  induction place with
  | present location => exact kept location grounded
  | deleted parent ih => exact ih grounded

/-- Which directories are locked has no part in it. -/
theorem WellFormed.withLocked (wellFormed : files.WellFormed) (locked : List Nat) :
    { files with locked }.WellFormed := by
  have kept : ∀ location, files.IsDirectory location →
      { files with locked }.IsDirectory location := fun _ directory => directory
  exact ⟨wellFormed.root, wellFormed.held, wellFormed.working.mono kept⟩

/-! ## Sifting -/

/-- What is at some locations is kept as it is, and the rest is lost; below something that is lost
nothing is kept. -/
structure Sifted (keep : Location → Bool) (files later : FileSystem) : Prop where
  top : keep [] = true
  upward : ∀ {name : String} {above : Location}, keep (name :: above) = true → keep above = true
  object : ∀ location, later.object? location =
    if keep location then files.object? location else none
  working : later.working = files.working.sieve keep
  locked : later.locked = files.locked

/-- Taking away what is under a name keeps what is not within it. -/
theorem sifted_erase (files : FileSystem) (name : String) (above : Location) :
    Sifted (fun other => !other.isWithin (name :: above)) files (files.erase (name :: above)) where
  top := by simp [Location.isWithin]
  upward := by
    intro first rest kept
    simp only [Bool.not_eq_true', Bool.eq_false_iff, ne_eq, Location.isWithin_iff] at kept ⊢
    exact fun within => kept (within.trans (List.suffix_cons first rest))
  object location := by
    rw [object?_erase]
    cases location.isWithin (name :: above) <;> rfl
  working := rfl
  locked := rfl

/-- What is kept by one sieve is for the next to keep. -/
theorem ofLocation_of_keep {keep further : Location → Bool}
    (upward : ∀ {name : String} {above : Location}, keep (name :: above) = true →
      keep above = true) {location : Location} (kept : keep location = true) :
    Place.ofLocation (fun other => keep other && further other) location =
      Place.ofLocation further location := by
  induction location with
  | nil => rfl
  | cons name above ih => simp only [Place.ofLocation, kept, Bool.true_and, ih (upward kept)]

/-- What passes two sieves passes what they keep both. -/
theorem sieve_sieve {keep further : Location → Bool}
    (upward : ∀ {name : String} {above : Location}, keep (name :: above) = true →
      keep above = true) (place : Place) :
    (place.sieve keep).sieve further = place.sieve fun other => keep other && further other := by
  induction place with
  | deleted parent ih => exact congrArg Place.deleted ih
  | present location =>
      induction location with
      | nil => rfl
      | cons name above ih =>
          by_cases kept : keep (name :: above) = true
          · rw [Place.sieve_present_of_keep keep kept]
            exact (ofLocation_of_keep upward kept).symm
          · rw [Bool.not_eq_true] at kept
            rw [Place.sieve_present_cons keep kept, Place.sieve_present_cons _ (by simp [kept]), ← ih]
            rfl

/-- Sifting twice keeps what is kept both times. -/
theorem Sifted.trans {keep further : Location → Bool} {between : FileSystem}
    (first : Sifted keep files between) (second : Sifted further between later) :
    Sifted (fun other => keep other && further other) files later where
  top := by rw [first.top, second.top, Bool.and_self]
  upward := by
    intro name above kept
    obtain ⟨once, twice⟩ := (Bool.and_eq_true _ _).mp kept
    rw [first.upward once, second.upward twice, Bool.and_self]
  object location := by
    rw [second.object, first.object]
    cases keep location <;> cases further location <;> rfl
  working := by rw [second.working, first.working, sieve_sieve first.upward]
  locked := second.locked.trans first.locked

theorem Sifted.refl (files : FileSystem) : Sifted (fun _ => true) files files where
  top := rfl
  upward _ := rfl
  object _ := rfl
  working := by
    induction files.working with
    | deleted parent ih => exact congrArg Place.deleted ih
    | present location => exact (Place.sieve_present_of_keep _ rfl).symm
  locked := rfl

/-- Taking away what is at some locations keeps what is not within one of them. -/
theorem sifted_eraseAll (files : FileSystem) {locations : List Location}
    (named : [] ∉ locations) :
    Sifted (fun other => !locations.any other.isWithin) files (files.eraseAll locations) := by
  induction locations generalizing files with
  | nil => exact .refl files
  | cons location rest ih =>
      obtain ⟨below, others⟩ := not_or.mp (mt List.mem_cons.mpr named)
      obtain ⟨name, above, rfl⟩ := List.exists_cons_of_ne_nil (Ne.symm below)
      have sifted := (files.sifted_erase name above).trans (ih (files.erase (name :: above)) others)
      simpa only [eraseAll_cons, List.any_cons, Bool.not_or] using sifted

variable {keep : Location → Bool}

/-- What is found after sifting was there before. -/
theorem Sifted.object_of_some (sifted : Sifted keep files later) {location : Location}
    {object : Object} (found : later.object? location = some object) :
    files.object? location = some object := by
  rw [sifted.object] at found
  split at found
  · exact found
  · cases found

/-- What is found after sifting has been kept. -/
theorem Sifted.keep_of_isSome (sifted : Sifted keep files later) {location : Location}
    (found : (later.object? location).isSome) : keep location = true := by
  rw [sifted.object] at found
  split at found
  · assumption
  · cases found

/-- What is kept is locked if it was. -/
theorem Sifted.isLocked_of_keep (sifted : Sifted keep files later) {location : Location}
    (kept : keep location = true) : later.isLocked location = files.isLocked location := by
  rw [isLocked, isLocked, sifted.object, if_pos kept, sifted.locked]

theorem Sifted.isDirectory_of_keep (sifted : Sifted keep files later) {location : Location}
    (kept : keep location = true) (directory : files.IsDirectory location) :
    later.IsDirectory location :=
  directory.of_same (by rw [sifted.object, if_pos kept])

theorem Sifted.isDirectory (sifted : Sifted keep files later) {location : Location}
    (directory : later.IsDirectory location) : files.IsDirectory location := by
  obtain ⟨number, found⟩ := directory
  exact ⟨number, sifted.object_of_some found⟩

/-- A place is grounded after sifting in what the sieve makes of it. -/
theorem WellFormed.grounded_sieve (wellFormed : files.WellFormed)
    (sifted : Sifted keep files later) {place : Place} (grounded : files.Grounded place) :
    later.Grounded (place.sieve keep) := by
  induction place with
  | deleted parent ih => exact ih grounded
  | present location =>
      rw [Place.sieve]
      induction location with
      | nil => exact sifted.isDirectory_of_keep sifted.top grounded
      | cons name above ih =>
          rw [Place.ofLocation]
          split
          · rename_i kept
            exact sifted.isDirectory_of_keep kept grounded
          · exact ih (wellFormed.held grounded.isSome).1

theorem WellFormed.sifted (wellFormed : files.WellFormed) (sifted : Sifted keep files later) :
    later.WellFormed where
  root := sifted.isDirectory_of_keep sifted.top wellFormed.root
  held := by
    intro name above found
    obtain ⟨object, found⟩ := Option.isSome_iff_exists.mp found
    have before := sifted.object_of_some found
    obtain ⟨directory, legal⟩ := wellFormed.held (by rw [before]; rfl)
    have kept := sifted.upward (sifted.keep_of_isSome (by rw [found]; rfl))
    exact ⟨sifted.isDirectory_of_keep kept directory, legal⟩
  working := by
    rw [sifted.working]
    exact wellFormed.grounded_sieve sifted wellFormed.working

/-! ## Creating -/

/-- An object that is put where there was nothing is found there, and nothing else changes. -/
theorem WellFormed.object?_put (wellFormed : files.WellFormed) {name : String}
    {above : Location} (directory : files.IsDirectory above)
    (vacant : files.object? (name :: above) = none) (object : Object) (other : Location) :
    (files.put (name :: above) object).object? other =
      if other = name :: above then some object else files.object? other := by
  have holder : (files.object? (Location.parent (name :: above))).isSome := directory.isSome
  refine (files.object?_put object holder other).trans ?_
  split
  · rfl
  · rename_i apart
    split
    · rename_i within
      cases found : files.object? other with
      | none => rfl
      | some object =>
          have above := wellFormed.isDirectory_of_suffix (by rw [found]; rfl)
            (Location.isWithin_iff.mp within) (Ne.symm apart)
          rw [IsDirectory, vacant] at above
          simp at above
    · rfl

theorem WellFormed.put (wellFormed : files.WellFormed) {name : String} {above : Location}
    (directory : files.IsDirectory above) (legal : IsName name)
    (vacant : files.object? (name :: above) = none) (object : Object) :
    (files.put (name :: above) object).WellFormed := by
  have found := wellFormed.object?_put directory vacant object
  have kept : ∀ location, files.IsDirectory location →
      (files.put (name :: above) object).IsDirectory location := by
    intro location directory
    refine directory.of_same ((found location).trans (if_neg ?_))
    rintro rfl
    obtain ⟨number, there⟩ := directory
    rw [vacant] at there
    cases there
  refine ⟨kept _ wellFormed.root, fun some => ?_, wellFormed.working.mono kept⟩
  rw [found] at some
  split at some
  · rename_i same
    obtain ⟨rfl, rfl⟩ := List.cons.inj same
    exact ⟨kept _ directory, legal⟩
  · obtain ⟨directory, legal⟩ := wellFormed.held some
    exact ⟨kept _ directory, legal⟩

/-- Something new is found where there was nothing, and nothing else changes. -/
theorem WellFormed.object?_create (wellFormed : files.WellFormed) {name : String}
    {above : Location} (directory : files.IsDirectory above)
    (vacant : files.object? (name :: above) = none) (node : Node) (other : Location) :
    (files.create (name :: above) node).object? other =
      if other = name :: above then some ⟨files.nextNumber, node⟩ else files.object? other :=
  wellFormed.object?_put directory vacant ⟨files.nextNumber, node⟩ other

/-- What was found before something is created is found still. -/
theorem WellFormed.object?_create_of_some (wellFormed : files.WellFormed) {name : String}
    {above location : Location} (directory : files.IsDirectory above)
    (vacant : files.object? (name :: above) = none) (node : Node) {object : Object}
    (found : files.object? location = some object) :
    (files.create (name :: above) node).object? location = some object := by
  have apart : location ≠ name :: above := fun same => by simp [same, vacant] at found
  rw [wellFormed.object?_create directory vacant node, if_neg apart, found]

theorem WellFormed.create (wellFormed : files.WellFormed) {name : String} {above : Location}
    (directory : files.IsDirectory above) (legal : IsName name)
    (vacant : files.object? (name :: above) = none) (node : Node) :
    (files.create (name :: above) node).WellFormed := by
  have put := wellFormed.put directory legal vacant ⟨files.nextNumber, node⟩
  have kept : ∀ location,
      (files.put (name :: above) ⟨files.nextNumber, node⟩).IsDirectory location →
        (files.create (name :: above) node).IsDirectory location := fun _ => id
  exact ⟨put.root, put.held, put.working.mono kept⟩

end DownloadCache.FileSystem
