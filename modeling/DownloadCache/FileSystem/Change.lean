import DownloadCache.FileSystem.Walk

/-!
# Changing a file system

The calls that create, delete, move, read and list.  A call that fails changes nothing.  Deleting
and creating act on the last step of a path as it is spelled: a link there is not followed, and a
path that ends in a dot names nothing that could be created or deleted.

A name is not created, deleted or moved in a directory that is locked.  Where more than one thing
speaks against a call, which of them is answered follows the order in which the system looks at
them: what is there and how the path ends come first, then the lock, then what kind of object it is
and whether it is empty.
-/

namespace DownloadCache.FileSystem

set_option autoImplicit false

/-- Refuses to change the names in a directory that is locked. -/
def checkUnlocked (files : FileSystem) (directory : Location) : Except SystemError Unit :=
  if files.isLocked directory then refuse .accessDenied else .ok ()

theorem checkUnlocked_eq_ok_iff {files : FileSystem} {directory : Location} :
    files.checkUnlocked directory = .ok () ↔ files.isLocked directory = false := by
  rw [checkUnlocked]
  cases files.isLocked directory <;> simp [refuse]

theorem checkUnlocked_of_locked {files : FileSystem} {directory : Location}
    (locked : files.isLocked directory = true) :
    files.checkUnlocked directory = refuse .accessDenied :=
  if_pos locked

/-! ## Creating -/

/-- The location where a new object can be created, if there is nothing yet.  A slash behind its
name is accepted for a directory only. -/
def vacancy (files : FileSystem) (path : Path) (forDirectory : Bool) :
    Except SystemError Location := do
  match ← files.spot path with
  | (directory, .name name slash) => do
      let named ← files.lookUp name directory
      if named.object?.isSome then refuse .exists
      else if slash ∧ forDirectory = false then refuse .noEntry
      else
        files.checkUnlocked named.location.parent
        return named.location
  | _ => refuse .exists

/-- Creates a directory. -/
def makeDirectory (files : FileSystem) (path : Path) : Except SystemError FileSystem := do
  return files.create (← files.vacancy path true) .directory

/-- Creates a symbolic link. -/
def makeLink (files : FileSystem) (path target : Path) : Except SystemError FileSystem := do
  return files.create (← files.vacancy path false) (.link target)

/-- Gives an object that is no directory one more name. -/
def makeName (files : FileSystem) (path target : Path) : Except SystemError FileSystem := do
  let named ← files.locate target
  let location ← files.vacancy path false
  match files.objectAt? named with
  | none => refuse .notPermitted
  | some object =>
      if object.isDirectory then refuse .notPermitted else return files.put location object

/-- Creates a directory and those above it that are missing; a directory that is there already
will do.  `depth` bounds how many there are above it. -/
def makeDirectoriesWithin (files : FileSystem) (path : Path) :
    Nat → Except SystemError Unit × FileSystem
  | 0 => (refuse .noEntry, files)
  | depth + 1 =>
      if path.text.isEmpty then (.ok (), files)
      else
        match files.makeDirectory path with
        | .ok made => (.ok (), made)
        | .error cause =>
            if cause.isNoEntry then
              match path.parent? with
              | none => (.error cause, files)
              | some parent =>
                  match makeDirectoriesWithin files parent depth with
                  | (.error cause, partway) => (.error cause, partway)
                  | (.ok (), partway) =>
                      match partway.makeDirectory path with
                      | .ok made => (.ok (), made)
                      | .error cause =>
                          if partway.leadsToDirectory path then (.ok (), partway)
                          else (.error cause, partway)
            else if files.leadsToDirectory path then (.ok (), files)
            else (.error cause, files)

/-- Creates a directory and those above it that are missing.  A path has fewer components than
characters, which bounds how far up the missing ones reach. -/
def makeDirectories (files : FileSystem) (path : Path) :
    Except SystemError Unit × FileSystem :=
  makeDirectoriesWithin files path (path.text.length + 1)

/-! ## Deleting -/

/-- Deletes what a path names, unless that is a directory. -/
def unlink (files : FileSystem) (path : Path) : Except SystemError FileSystem := do
  match ← files.spot path with
  | (directory, .name name slash) => do
      let named ← files.lookUp name directory
      match named.object? with
      | none => refuse .noEntry
      | some object =>
          if slash then refuse (if object.isDirectory then .isDirectory else .notDirectory)
          else
            files.checkUnlocked named.location.parent
            if object.isDirectory then refuse .isDirectory
            else return files.erase named.location
  | _ => refuse .isDirectory

/-- Deletes an empty directory. -/
def removeDirectory (files : FileSystem) (path : Path) : Except SystemError FileSystem := do
  match ← files.spot path with
  | (_, .root) => refuse .busy
  | (_, .stay) => refuse .invalid
  | (_, .up) => refuse .notEmpty
  | (directory, .name name _) => do
      let named ← files.lookUp name directory
      match named.object? with
      | none => refuse .noEntry
      | some object =>
          files.checkUnlocked named.location.parent
          if object.isDirectory = false then refuse .notDirectory
          else if (files.names named.location).isEmpty then return files.erase named.location
          else refuse .notEmpty

/-! ## Moving -/

/-- Refuses to put an object in the place of one of another kind. -/
def checkKind (object : Object) : Option Object → Except SystemError Unit
  | none => .ok ()
  | some old =>
      if object.isDirectory then
        if old.isDirectory then .ok () else refuse .notDirectory
      else if old.isDirectory then refuse .isDirectory
      else .ok ()

/-- Refuses a move that a lock forbids, and to put an object in the place of one of another kind or
of a directory that is not empty.  A directory that comes under another one must not be locked
itself, since it holds the way up. -/
def checkMove (files : FileSystem) (object : Object) (source target : Location) :
    Except SystemError Unit := do
  files.checkUnlocked source.parent
  files.checkUnlocked target.parent
  checkKind object (files.object? target)
  if object.isDirectory then
    if source.parent ≠ target.parent then files.checkUnlocked source
    if (files.names target).isEmpty = false then refuse .notEmpty

/-- Moves an object with all that lies below it.  What the new name named before is replaced; if
that is the same object under another name, nothing happens. -/
def rename (files : FileSystem) (source target : Path) : Except SystemError FileSystem := do
  if target.text.toList.contains '\x00' then throw .nulInPath
  let (sourceDirectory, sourceLast) ← files.spot source
  let (targetDirectory, targetLast) ← files.spot target
  match sourceLast, targetLast with
  | .name sourceName sourceSlash, .name targetName targetSlash => do
      let before ← files.lookUp sourceName sourceDirectory
      match before.object? with
      | none => refuse .noEntry
      | some object =>
          let after ← files.lookUp targetName targetDirectory
          if object.isDirectory = false ∧ (sourceSlash ∨ targetSlash) then refuse .notDirectory
          else if after.location.parent.isWithin before.location then refuse .invalid
          else if before.location.parent.isWithin after.location then refuse .notEmpty
          else if after.object?.any (·.number = object.number) then return files
          else
            files.checkMove object before.location after.location
            return files.move before.location after.location
  | _, _ => refuse .busy

/-! ## Reading and listing -/

/-- The content of a file. -/
def read (files : FileSystem) (path : Path) : Except SystemError (List UInt8) := do
  match ← files.status path with
  | .file content => return content
  | .socket => refuse .noDevice
  | _ => refuse .isDirectory

/-- The names in a directory. -/
def list (files : FileSystem) (path : Path) : Except SystemError (List String) := do
  let place ← files.resolve path
  files.checkDirectory place
  match place with
  | .present location => return files.names location
  | .deleted _ => return []

/-! ## Writing -/

/-- Gives every name of an object new content. -/
def replaceContent (files : FileSystem) (number : Nat) (content : List UInt8) : FileSystem :=
  files.mapObjects fun object =>
    if object.number = number then ⟨number, .file content⟩ else object

/-- Writes a file, which is created if it is missing; a link is followed, and followed further
from where it leads while links replaced on the way are counted by `links`. -/
def writeWithin (files : FileSystem) (content : List UInt8) :
    Nat → Path → Except SystemError FileSystem
  | 0, _ => refuse .tooManyLinks
  | links + 1, path => do
      match files.resolve path with
      | .ok place =>
          match files.objectAt? place with
          | some ⟨number, .file _⟩ => return files.replaceContent number content
          | some ⟨_, .socket⟩ => refuse .noDevice
          | _ => refuse .isDirectory
      | .error cause =>
          if cause.isNoEntry then
            match ← files.spot path with
            | (directory, .name name slash) => do
                let named ← files.lookUp name directory
                match named.object? with
                | some ⟨_, .link target⟩ =>
                    if target.isAbsolute then writeWithin files content links target
                    else
                      writeWithin files content links
                        ⟨(pathOf named.location.parent).text ++ "/" ++ target.text⟩
                | _ =>
                    if slash then refuse .isDirectory
                    else
                      files.checkUnlocked named.location.parent
                      return files.create named.location (.file content)
            | _ => refuse .isDirectory
          else .error cause

/-- Writes a file, which is created if it is missing. -/
def write (files : FileSystem) (path : Path) (content : List UInt8) :
    Except SystemError FileSystem :=
  writeWithin files content (maxLinks + 1) path

end DownloadCache.FileSystem
