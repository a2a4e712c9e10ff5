import DownloadCache.Causes
import DownloadCache.Cache.Basic
import DownloadCache.FileSystem.Change

/-!
# Opening a cache

The directory of the cache is created if it is missing and its path is made canonical, so that
the paths of entries are absolute and are spelled as a sweep spells them.  A cache starts with an
empty index: what is in the directory already is an orphan.
-/

namespace DownloadCache

set_option autoImplicit false

/-- Why a cache could not be opened. -/
inductive OpeningError where
  | create (directory : Path) (cause : SystemError)
  | resolve (directory : Path) (cause : SystemError)
deriving DecidableEq

/-- The texts of an error about opening a cache. -/
def OpeningError.chain : OpeningError → Causes
  | .create directory cause =>
      ⟨s!"Failed to create cache directory: {directory.shown}", [cause.message]⟩
  | .resolve directory cause =>
      ⟨s!"Failed to resolve cache directory: {directory.shown}", [cause.message]⟩

/-- Opens a cache in a directory. -/
def FileSystem.openCache (files : FileSystem) (directory : Path) (maxSize : UInt64)
    (verifySize : Bool) : Except OpeningError Cache × FileSystem :=
  match files.makeDirectories directory with
  | (.error cause, partway) => (.error (.create directory cause), partway)
  | (.ok (), made) =>
      match made.canonical directory with
      | .error cause => (.error (.resolve directory cause), made)
      | .ok path => (.ok ⟨path, maxSize, verifySize, {}⟩, made)

end DownloadCache
