import DownloadCache.Causes
import DownloadCache.Cache.Adoption

/-!
# Removing orphans

A path is removed unless an entry owns it.  To decide that, the path is compared with the owned
ones as it is spelled and once more with its parent made canonical, so that a relative spelling
or one through links is recognised; its last component is left as it is, since a link there is an
object of its own.

A sweep does this for every name in the directory of the cache.
-/

namespace DownloadCache

set_option autoImplicit false

/-- The path with its parent made canonical, where it has one that can be. -/
def FileSystem.withCanonicalParent (files : FileSystem) (path : Path) : Path :=
  match path.fileName? with
  | none => path
  | some fileName =>
      let parent := match path.parent? with
        | some parent => if parent.text.isEmpty then ⟨"."⟩ else parent
        | none => ⟨"."⟩
      match files.canonical parent with
      | .ok directory => directory.child fileName
      | .error _ => path

/-- Why a path could not be removed. -/
structure RemovalError where
  path : Path
  cause : SystemError
deriving DecidableEq

/-- The text of an error about a removal. -/
def RemovalError.message (error : RemovalError) : String :=
  s!"Failed to remove {error.path.shown}: {error.cause.message}"

/-- What a sweep did. -/
structure SweepCounts where
  /-- Orphans that were removed. -/
  removed : Nat := 0
  /-- Names that were kept because an entry owns them. -/
  retained : Nat := 0
  /-- Orphans that could not be removed. -/
  failed : Nat := 0
deriving DecidableEq

/-- Why a sweep did not take place. -/
structure SweepError where
  directory : Path
  cause : SystemError
deriving DecidableEq

/-- The texts of an error about a sweep. -/
def SweepError.chain (error : SweepError) : Causes :=
  ⟨s!"Failed to list cache directory: {error.directory.shown}", [error.cause.message]⟩

namespace Site

/-- Whether an entry owns what a path names. -/
def ownsNamed (site : Site) (path : Path) : Bool :=
  site.cache.index.owns path || site.cache.index.owns (site.files.withCanonicalParent path)

/-- Removes what a path names unless an entry owns it, and says whether anything was removed. -/
def removeUntracked (site : Site) (path : Path) : Except RemovalError Bool × Site :=
  if site.ownsNamed path then (.ok false, site)
  else
    match site.files.remove path with
    | (.ok removed, files) => (.ok removed, { site with files })
    | (.error cause, files) => (.error ⟨path, cause⟩, { site with files })

/-- Takes one name of the directory into a sweep. -/
def sweepName (swept : SweepCounts × Site) (name : String) : SweepCounts × Site :=
  let (counts, site) := swept
  match site.removeUntracked (site.cache.directory.child name) with
  | (.ok true, after) => ({ counts with removed := counts.removed + 1 }, after)
  | (.ok false, after) => ({ counts with retained := counts.retained + 1 }, after)
  | (.error _, after) => ({ counts with failed := counts.failed + 1 }, after)

/-- Removes all orphans from the directory of the cache. -/
def sweep (site : Site) : Except SweepError SweepCounts × Site :=
  match site.files.list site.cache.directory with
  | .error cause => (.error ⟨site.cache.directory, cause⟩, site)
  | .ok names =>
      let (counts, after) := names.foldl sweepName ({}, site)
      (.ok counts, after)

end Site

end DownloadCache
