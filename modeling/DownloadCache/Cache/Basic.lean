import DownloadCache.Cache.Index
import DownloadCache.FileSystem.Removal

/-!
# The cache and its site

A cache is a directory, a byte budget and an index.  Together with the file system in which the
directory lies it makes a site; every operation takes a site to a site, and what it answers
besides depends on the site alone.

Deleting the file of a dropped entry is attempted once.  If it fails, the file stays behind as an
orphan and the failure is counted; the entry is gone either way.
-/

namespace DownloadCache

set_option autoImplicit false

/-! ## Caches -/

/-- A disk cache for downloaded artifacts. -/
structure Cache where
  /-- The directory that holds adopted files, as a canonical path. -/
  directory : Path
  /-- The byte budget. -/
  maxSize : UInt64
  /-- Whether the length of a staging file is checked against the reported size. -/
  verifySize : Bool
  index : Index
deriving DecidableEq

/-- The usage of a cache at one point in time. -/
structure Usage where
  entries : Nat
  usedBytes : UInt64
  maxBytes : UInt64
  evictions : Nat
  failedRemovals : Nat
deriving DecidableEq

/-- The usage of a cache. -/
def Cache.usage (cache : Cache) : Usage where
  entries := cache.index.entries.length
  usedBytes := cache.index.usedBytes
  maxBytes := cache.maxSize
  evictions := cache.index.evictions
  failedRemovals := cache.index.failedRemovals

/-- Where the file of a key is.  Asking does not count as an access. -/
def Cache.path? (cache : Cache) (key : String) : Option Path :=
  (cache.index.entry? key).map (·.path)

/-- The validators of a key. -/
def Cache.validators? (cache : Cache) (key : String) : Option Validators :=
  (cache.index.entry? key).map (·.validators)

/-! ## Sites -/

/-- A cache and the file system in which its directory lies. -/
structure Site where
  cache : Cache
  files : FileSystem
deriving DecidableEq

namespace Site

/-- The site with another index. -/
def withIndex (site : Site) (index : Index) : Site :=
  { site with cache := { site.cache with index } }

/-- Drops an entry, the entry of a key, with its file. -/
def dropEntry (site : Site) (key : String) (entry : Entry) : Site :=
  let dropped := site.cache.index.drop key entry
  match site.files.remove entry.path with
  | (.ok _, files) => { site.withIndex dropped with files }
  | (.error _, files) =>
      { site.withIndex { dropped with failedRemovals := dropped.failedRemovals + 1 } with files }

/-- Drops the entry of a key with its file, if there is one. -/
def drop (site : Site) (key : String) : Site :=
  match site.cache.index.entry? key with
  | none => site
  | some entry => site.dropEntry key entry

/-- Removes a key and deletes its file, and says whether there was an entry. -/
def removeKey (site : Site) (key : String) : Bool × Site :=
  ((site.cache.index.entry? key).isSome, site.drop key)

/-- Counts an access to a key. -/
def touch (site : Site) (now : Instant) (key : String) : Site :=
  site.withIndex (site.cache.index.touch now key)

end Site

end DownloadCache
