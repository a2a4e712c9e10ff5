import DownloadCache.FileSystem.Basic

/-!
# Findings

A finding is a location together with the tree that is found there.  What the tree holds is found
from it by one name more (`child`), so that nobody who goes down has to start at the root again.
A finding says nothing that its location does not say already (`eq_finding`, `object?_eq`).
-/

namespace DownloadCache.FileSystem

set_option autoImplicit false

/-- Refuses with an error number. -/
def refuse {α : Type} (number : Errno) : Except SystemError α :=
  .error (.errno number)

/-- How many octets a name may have. -/
def maxNameOctets : Nat := 255

/-- A location and the tree that is found there, if there is one. -/
structure Finding (files : FileSystem) where
  location : Location
  tree? : Option Tree
  found : files.root.find? location = tree?

/-- What is found at a location. -/
def finding (files : FileSystem) (location : Location) : Finding files :=
  ⟨location, files.root.find? location, rfl⟩

namespace Finding

/-- The object that is found. -/
def object? {files : FileSystem} (here : Finding files) : Option Object :=
  here.tree?.map (·.object)

/-- What is found one step up; the root is above itself. -/
def parent {files : FileSystem} (here : Finding files) : Finding files :=
  files.finding here.location.parent

/-- What is found under a name. -/
def child {files : FileSystem} (here : Finding files) (name : String) : Finding files where
  location := name :: here.location
  tree? := here.tree?.bind (·.child? name)
  found := by rw [Tree.find?, here.found]

/-- Refuses what is no directory. -/
def checkDirectory {files : FileSystem} (here : Finding files) : Except SystemError Unit :=
  match here.object? with
  | some ⟨_, .directory⟩ => .ok ()
  | some _ => refuse .notDirectory
  | none => refuse .noEntry

/-- What is found under a name, which must not be too long. -/
def lookUp {files : FileSystem} (here : Finding files) (name : String) :
    Except SystemError (Finding files) :=
  if name.utf8ByteSize > maxNameOctets then refuse .nameTooLong else .ok (here.child name)

/-- A finding is what is found at its location. -/
theorem eq_finding {files : FileSystem} (here : Finding files) :
    here = files.finding here.location := by
  obtain ⟨location, tree?, found⟩ := here
  subst found
  rfl

/-- The object that is found is the object at the location. -/
theorem object?_eq {files : FileSystem} (here : Finding files) :
    here.object? = files.object? here.location := by
  rw [object?, ← here.found, FileSystem.object?]

end Finding

end DownloadCache.FileSystem
