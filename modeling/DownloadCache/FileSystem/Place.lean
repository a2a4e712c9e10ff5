/-!
# Locations and places

A location tells where an object is: it is the list of the names that are met from the object up
to the root, its own name first.  So the location of a directory is the tail of the location of
what it holds, and what lies below a directory has the location of that directory at its end.

A directory has a location until it is deleted.  Whoever works in it at that time stays in it:
nothing can be found or created there any more, but the directory itself and the way up to its
parent remain.  So the place of a directory is a location or, if it has been deleted, the place
that its parent has.  The parent may be moved or deleted later on, and its place changes
accordingly (`relocate`, `sieve`).
-/

namespace DownloadCache

set_option autoImplicit false

/-! ## Locations -/

/-- The names from an object up to the root. -/
abbrev Location := List String

namespace Location

/-- The location of the directory that holds an object; the root holds itself. -/
def parent (location : Location) : Location :=
  location.tail

/-- Whether a location is a directory's own or lies below it. -/
def isWithin (location directory : Location) : Bool :=
  directory.isSuffixOf location

/-- Whether a location lies strictly below another. -/
def isBelow (location directory : Location) : Bool :=
  location.isWithin directory && location != directory

/-- A location after what is at one location has been moved to another. -/
def moved (source target location : Location) : Location :=
  if location.isWithin source then location.take (location.length - source.length) ++ target
  else location

/-- A location is within a directory if that directory's location stands at its end. -/
theorem isWithin_iff {location directory : Location} :
    location.isWithin directory = true ↔ directory <:+ location :=
  List.isSuffixOf_iff_suffix

theorem isWithin_append (below directory : Location) :
    isWithin (below ++ directory) directory = true :=
  isWithin_iff.mpr (List.suffix_append below directory)

/-- What is moved keeps the way to it from the directory that is moved. -/
theorem moved_append (source target below : Location) :
    moved source target (below ++ source) = below ++ target := by
  simp [moved, isWithin_append]

end Location

/-! ## Places of directories -/

/-- Where a directory is. -/
inductive Place where
  /-- At a location. -/
  | present (location : Location)
  /-- Nowhere: it has been deleted from within a directory with a place of its own. -/
  | deleted (parent : Place)
deriving DecidableEq

namespace Place

/-- The place of a directory after locations have changed. -/
def relocate (change : Location → Location) : Place → Place
  | .present location => .present (change location)
  | .deleted parent => .deleted (parent.relocate change)

/-- The place of a directory that was at a location, after all that is not kept has been deleted.
The root cannot be deleted. -/
def ofLocation (keep : Location → Bool) : Location → Place
  | [] => .present []
  | name :: above =>
      if keep (name :: above) then .present (name :: above) else .deleted (ofLocation keep above)

/-- The place of a directory after all that is not kept has been deleted. -/
def sieve (keep : Location → Bool) : Place → Place
  | .present location => ofLocation keep location
  | .deleted parent => .deleted (parent.sieve keep)

/-! ## What is deleted and what is not -/

/-- A directory that is kept stays at its location. -/
theorem sieve_present_of_keep (keep : Location → Bool) {location : Location}
    (kept : keep location = true) : (present location).sieve keep = present location := by
  cases location with
  | nil => rfl
  | cons name above => simp [sieve, ofLocation, kept]

/-- A directory that is not kept has been deleted, from within what its parent has become. -/
theorem sieve_present_cons (keep : Location → Bool) {name : String} {above : Location}
    (lost : keep (name :: above) = false) :
    (present (name :: above)).sieve keep = deleted ((present above).sieve keep) := by
  simp [sieve, ofLocation, lost]

end Place

end DownloadCache
