import DownloadCache.FileSystem.Change

/-!
# Removing whatever a path names

A file, a link or a socket is deleted; a directory is deleted with all that lies below it, links
among it without what they lead to.  A path that names nothing is no failure.

A directory is first emptied and then deleted by its path.  It is emptied object by object, what a
directory holds before the directory, up to the first object that is held, which is one in a locked
directory: what has been deleted by then stays deleted, and the removal fails.  In which order the
objects of one directory come is left open by the system; here it is the order in the tree, which
can be any.

When the directory is empty, the path is walked along once more for that, and in the meantime a
directory that it passes through may be gone; that counts as done.  A path that leads to a directory
but does not end in a name that can be deleted, as one that ends in dots or in a slash behind a
link, leaves the directory empty and fails; so does the path of a directory that is held.
-/

namespace DownloadCache.FileSystem

set_option autoImplicit false

/-- Takes a deletion that finds nothing for one that has nothing to do. -/
def tolerate (files : FileSystem) :
    Except SystemError FileSystem → Except SystemError Bool × FileSystem
  | .ok changed => (.ok true, changed)
  | .error cause => if cause.isNoEntry then (.ok false, files) else (.error cause, files)

/-! ## Emptying a directory -/

/-- What lies below a directory, in the order in which it is deleted. -/
def inward (files : FileSystem) (directory : Location) : List Location :=
  (files.below directory).map fun (location, _) => location ++ directory

/-- Whether there is something at a location that may not be deleted, since the directory that holds
it is locked. -/
def isHeld (files : FileSystem) (location : Location) : Bool :=
  (files.object? location).isSome && files.isLocked location.parent

/-- What is deleted when a directory is emptied. -/
def deletions (files : FileSystem) (directory : Location) : List Location :=
  (files.inward directory).takeWhile fun location => !files.isHeld location

/-- What becomes of a file system when a directory is emptied. -/
def emptied (files : FileSystem) (directory : Location) : FileSystem :=
  files.eraseAll (files.deletions directory)

/-- Empties a directory; one that has been deleted holds nothing. -/
def emptyAt (files : FileSystem) : Place → Except SystemError Unit × FileSystem
  | .present location =>
      (if (files.inward location).any files.isHeld then refuse .accessDenied else .ok (),
        files.emptied location)
  | .deleted _ => (.ok (), files)

/-! ## Removing -/

/-- Empties a directory and deletes it by its path. -/
def removeTree (files : FileSystem) (path : Path) (place : Place) :
    Except SystemError Bool × FileSystem :=
  match files.emptyAt place with
  | (.error cause, emptied) => (.error cause, emptied)
  | (.ok (), emptied) =>
      match emptied.removeDirectory path with
      | .ok changed => (.ok true, changed)
      | .error cause => if cause.isNoEntry then (.ok true, emptied) else (.error cause, emptied)

/-- Removes what a path names, and says whether there was anything. -/
def remove (files : FileSystem) (path : Path) : Except SystemError Bool × FileSystem :=
  match files.locate path with
  | .error cause => if cause.isNoEntry then (.ok false, files) else (.error cause, files)
  | .ok place =>
      if files.nodeAt? place = some .directory then files.removeTree path place
      else files.tolerate (files.unlink path)

end DownloadCache.FileSystem
