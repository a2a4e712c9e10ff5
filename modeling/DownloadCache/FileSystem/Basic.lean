import DownloadCache.FileSystem.Error
import DownloadCache.FileSystem.Tree

/-!
# File systems

A file system is a tree of objects with a directory at its root.  It is read and changed by
location; an object that is put somewhere is found only if there is something to hold it, and what
is taken away goes with all that lies below it (`object?_put`, `object?_erase`, `object?_eraseAll`,
`object?_move`).

The working directory is remembered by its place, which every change keeps true: it moves with the
directory, and it is still a place when the directory has been deleted.

A directory can be locked, as one is without the permission to write to it: no name can be put into
it or taken out of it, though it can be listed and walked through.  This is all that is modelled of
permissions; what is there can always be read, and a file that is there can always be written.  The
tree is one file system with nothing mounted in it, which is neither read-only nor full, and no
object is kept from being deleted by a use that is made of it.  So nothing fails with `EXDEV`,
`EROFS` or `ENOSPC`, and nothing but the root with `EBUSY`.  Names are texts: there are none whose
octets are not UTF-8.
-/

namespace DownloadCache

set_option autoImplicit false

/-- A file system and the working directory of those who use it. -/
structure FileSystem where
  root : Tree
  /-- Where the working directory is. -/
  working : Place
  /-- The number that the next new object gets. -/
  nextNumber : Nat
  /-- The numbers of the directories that are locked. -/
  locked : List Nat
deriving DecidableEq

namespace FileSystem

/-- The file system with a root and nothing else. -/
def empty : FileSystem where
  root := .leaf ⟨0, .directory⟩
  working := .present []
  nextNumber := 1
  locked := []

/-- The object at a location. -/
def object? (files : FileSystem) (location : Location) : Option Object :=
  (files.root.find? location).map (·.object)

/-- The object at a place; a directory that has been deleted is not among the objects. -/
def objectAt? (files : FileSystem) : Place → Option Object
  | .present location => files.object? location
  | .deleted _ => none

/-- What is at a place; a directory that has been deleted is a directory still. -/
def nodeAt? (files : FileSystem) : Place → Option Node
  | .present location => (files.object? location).map (·.node)
  | .deleted _ => some .directory

/-- Whether a directory is locked. -/
def isLocked (files : FileSystem) (directory : Location) : Bool :=
  match files.object? directory with
  | some object => files.locked.contains object.number
  | none => false

/-- The absolute path of a location. -/
def pathOf (location : Location) : Path :=
  ⟨"/" ++ "/".intercalate location.reverse⟩

/-- The names directly within a location. -/
def names (files : FileSystem) (directory : Location) : List String :=
  ((files.root.find? directory).map (·.names)).getD []

/-- All that lies strictly below a location, each object after those below it; the locations go up
to there and no further. -/
def below (files : FileSystem) (directory : Location) : List (Location × Object) :=
  ((files.root.find? directory).map (·.within [])).getD []

/-! ## Changes at locations -/

/-- Puts an object at a location, in the place of what is there. -/
def put (files : FileSystem) (location : Location) (object : Object) : FileSystem :=
  { files with root := files.root.insert location (.leaf object) }

/-- Puts a new object at a location. -/
def create (files : FileSystem) (location : Location) (node : Node) : FileSystem :=
  { files.put location ⟨files.nextNumber, node⟩ with nextNumber := files.nextNumber + 1 }

/-- Takes away what is at a location, with all that lies below it. -/
def erase (files : FileSystem) (location : Location) : FileSystem :=
  { files with
    root := files.root.erase location
    working := files.working.sieve fun other => !other.isWithin location }

/-- Takes away what is at some locations, one after the other. -/
def eraseAll (files : FileSystem) (locations : List Location) : FileSystem :=
  locations.foldl erase files

@[simp] theorem eraseAll_nil (files : FileSystem) : files.eraseAll [] = files :=
  rfl

@[simp] theorem eraseAll_cons (files : FileSystem) (location : Location) (rest : List Location) :
    files.eraseAll (location :: rest) = (files.erase location).eraseAll rest :=
  rfl

/-- Moves what is at a location, with all that lies below it, in the place of what is at another
location. -/
def move (files : FileSystem) (source target : Location) : FileSystem :=
  match files.root.find? source with
  | none => files
  | some tree =>
      let kept := files.erase target
      { kept with
        root := (kept.root.erase source).insert target tree
        working := kept.working.relocate (Location.moved source target) }

/-- Changes every object. -/
def mapObjects (files : FileSystem) (change : Object → Object) : FileSystem :=
  { files with root := files.root.map change }

/-! ## What is found after a change -/

/-- An object that is put where something can hold it is found and holds nothing, and nothing
else changes. -/
theorem object?_put (files : FileSystem) {location : Location} (object : Object)
    (held : (files.object? location.parent).isSome) (other : Location) :
    (files.put location object).object? other =
      if other = location then some object
      else if other.isWithin location then none
      else files.object? other := by
  have held : (files.root.find? location.parent).isSome := by simpa [object?] using held
  by_cases under : location <:+ other
  · rw [if_pos (Location.isWithin_iff.mpr under)]
    obtain ⟨below, rfl⟩ := under
    rw [object?, put, Tree.find?_append, Tree.find?_insert _ _ held, Option.bind_some,
      Tree.find?_leaf]
    by_cases top : below = [] <;> simp [top, Tree.leaf, Tree.object]
  · have differs : other ≠ location := fun same => under (by simp [same])
    rw [if_neg differs, if_neg (mt Location.isWithin_iff.mp under)]
    exact files.root.object_find?_insert (.leaf object) under

/-- Nothing is found within a location whose object is taken away, and nothing else changes. -/
theorem object?_erase (files : FileSystem) (name : String) (above other : Location) :
    (files.erase (name :: above)).object? other =
      if other.isWithin (name :: above) then none else files.object? other := by
  by_cases under : name :: above <:+ other
  · rw [if_pos (Location.isWithin_iff.mpr under)]
    obtain ⟨below, rfl⟩ := under
    rw [object?, erase, Tree.find?_append, Tree.find?_erase]
    rfl
  · rw [if_neg (mt Location.isWithin_iff.mp under)]
    exact files.root.object_find?_erase under

/-- Nothing is found within locations whose objects are taken away, and nothing else changes. -/
theorem object?_eraseAll (files : FileSystem) {locations : List Location}
    (named : [] ∉ locations) (other : Location) :
    (files.eraseAll locations).object? other =
      if locations.any other.isWithin then none else files.object? other := by
  induction locations generalizing files with
  | nil => rfl
  | cons location rest ih =>
      obtain ⟨below, others⟩ := not_or.mp (mt List.mem_cons.mpr named)
      obtain ⟨name, above, rfl⟩ := List.exists_cons_of_ne_nil (Ne.symm below)
      rw [eraseAll_cons, ih _ others, object?_erase, List.any_cons]
      cases other.isWithin (name :: above) <;> simp

/-- What is moved is found at its new location with all that lies below it and no longer at its
old one, and nothing else changes.  The new location must be one that something can hold, not
within what is moved, and not above it. -/
theorem object?_move (files : FileSystem) {source target : Location}
    (found : (files.object? source).isSome) (held : (files.object? target.parent).isSome)
    (outside : ¬source <:+ target.parent) (notAbove : ¬target <:+ source) (other : Location) :
    (files.move source target).object? other =
      if other.isWithin target then files.object? (Location.moved target source other)
      else if other.isWithin source then none
      else files.object? other := by
  obtain ⟨tree, foundTree⟩ : ∃ tree, files.root.find? source = some tree := by
    simpa [object?, Option.isSome_iff_exists] using found
  have moved : (files.move source target).root =
      ((files.root.erase target).erase source).insert target tree := by
    simp [move, foundTree, erase]
  have parentApart : ¬target <:+ target.parent := by
    cases target with
    | nil => exact absurd List.nil_suffix notAbove
    | cons name above => exact fun within => absurd within.length_le (by simp [Location.parent])
  have heldTree : (((files.root.erase target).erase source).find? target.parent).isSome := by
    have kept := ((files.root.erase target).object_find?_erase outside).trans
      (files.root.object_find?_erase parentApart)
    have held : ((files.root.find? target.parent).map Tree.object).isSome := held
    rw [← kept] at held
    simpa using held
  rw [object?, moved]
  by_cases inTarget : target <:+ other
  · rw [if_pos (Location.isWithin_iff.mpr inTarget)]
    obtain ⟨below, rfl⟩ := inTarget
    rw [Tree.find?_append, Tree.find?_insert _ _ heldTree, Location.moved_append, object?,
      Tree.find?_append, foundTree]
  · rw [if_neg (mt Location.isWithin_iff.mp inTarget), Tree.object_find?_insert _ _ inTarget]
    by_cases inSource : source <:+ other
    · rw [if_pos (Location.isWithin_iff.mpr inSource)]
      obtain ⟨below, rfl⟩ := inSource
      cases source with
      | nil => exact absurd List.nil_suffix outside
      | cons name above => rw [Tree.find?_append, Tree.find?_erase]; rfl
    · rw [if_neg (mt Location.isWithin_iff.mp inSource), Tree.object_find?_erase _ inSource]
      exact files.root.object_find?_erase inTarget

/-- Every object that is changed is found where it was. -/
theorem object?_mapObjects (files : FileSystem) (change : Object → Object) (location : Location) :
    (files.mapObjects change).object? location = (files.object? location).map change := by
  rw [object?, mapObjects, Tree.find?_map, object?]
  cases files.root.find? location with
  | none => rfl
  | some tree => cases tree; rfl

end FileSystem

end DownloadCache
