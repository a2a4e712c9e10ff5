import DownloadCache.Cache.Basic
import DownloadCache.FileSystem.Change

/-!
# Adopting files

A staging file is adopted under a key by moving it into the directory of the cache.  An entry
that the key already has is dropped first, whatever becomes of the new file.  A file larger than
the whole budget is not adopted.  Otherwise the least recently accessed entries are dropped until
the file fits, a name is found for it, and it is moved.

The name is the file's own or, where that is taken, the first of it with `-1`, `-2` and so on
that is free.  Owned paths and directories are taken.  A file that nobody owns is an orphan; it
does not take a name and is replaced.  The number is a natural number, though a running cache counts
in a word of 64 bits: one that is tried is at most that of the paths and names there are
(`takenBound`), of which there would have to be 2^64.
-/

namespace DownloadCache

set_option autoImplicit false

/-! ## Outcomes -/

/-- What became of a file that could have been adopted. -/
inductive Outcome where
  /-- The file is now at a path in the cache. -/
  | cached (path : Path)
  /-- The file is larger than the whole budget. -/
  | tooLarge
deriving DecidableEq

/-- Where an adopted file is. -/
def Outcome.path? : Outcome → Option Path
  | .cached path => some path
  | .tooLarge => none

/-- Why a file could not be adopted. -/
inductive AdoptionError where
  | relocate (source target : Path) (cause : SystemError)
  | sizeMismatch (path : Path) (reported : UInt64) (actual : Nat)
  | noFileName (path : Path)
  | system (cause : SystemError)
deriving DecidableEq

/-- The text of an error about an adoption. -/
def AdoptionError.message : AdoptionError → String
  | .relocate source target cause =>
      s!"Failed to move {source.shown} into cache at {target.shown}: {cause.message}"
  | .sizeMismatch path reported actual =>
      s!"Staging file {path.shown} is {actual} bytes, caller reported {reported.toNat}"
  | .noFileName path => s!"Staging path has no file name: {path.shown}"
  | .system cause => s!"I/O error: {cause.message}"

namespace Site

/-! ## Room -/

/-- Drops the least recently accessed entry, if there is one, and counts the eviction. -/
def evictOldest (site : Site) : Site :=
  match site.cache.index.oldest? with
  | none => site
  | some key =>
      let without := site.drop key
      without.withIndex
        { without.cache.index with evictions := without.cache.index.evictions + 1 }

/-- Whether so many more bytes do not fit. -/
def lacksRoom (site : Site) (size : UInt64) : Bool :=
  saturatingAdd site.cache.index.usedBytes size > site.cache.maxSize

/-- Drops entries until so many more bytes fit, but no more than a given number. -/
def makeRoomWithin (site : Site) (size : UInt64) : Nat → Site
  | 0 => site
  | entries + 1 =>
      if site.lacksRoom size then site.evictOldest.makeRoomWithin size entries else site

/-- Drops the least recently accessed entries until so many more bytes fit or none is left. -/
def makeRoom (site : Site) (size : UInt64) : Site :=
  site.makeRoomWithin size site.cache.index.entries.length

/-! ## Names -/

/-- Whether a path cannot take a new file. -/
def isTaken (site : Site) (candidate : Path) : Bool :=
  site.cache.index.owns candidate || site.files.namesDirectory candidate

/-- The candidates for the place of a file: its own name, then numbered ones. -/
def candidate (site : Site) (fileName : String) (number : Nat) : Path :=
  site.cache.directory.child
    (if number = 0 then fileName else fileName ++ "-" ++ toString number)

/-- How many candidates can be taken at most: one for each owned path and one for each name in
the directory of the cache. -/
def takenBound (site : Site) : Nat :=
  let names := (site.files.list site.cache.directory).toOption.getD []
  site.cache.index.owners.length + names.length

/-- The place for a file: the first candidate that is not taken. -/
def destination (site : Site) (fileName : String) : Path :=
  let numbers := List.range (site.takenBound + 1)
  let free := numbers.find? fun number => !site.isTaken (site.candidate fileName number)
  site.candidate fileName (free.getD (site.takenBound + 1))

/-! ## Adoption -/

/-- Moves a staging file to its place, room having been made, and enters it into the index. -/
def settle (site : Site) (now : Instant) (key : String) (staging : Path) (fileName : String)
    (size : UInt64) (validators : Validators) : Except AdoptionError Outcome × Site :=
  let target := site.destination fileName
  match site.files.rename staging target with
  | .error cause => (.error (.relocate staging target cause), site)
  | .ok files =>
      (.ok (.cached target),
        { site.withIndex (site.cache.index.insert now key target size validators) with files })

/-- Refuses a staging file whose length differs from the reported size, if that is checked. -/
def checkLength (site : Site) (staging : Path) (size : UInt64) : Except AdoptionError Unit :=
  if site.cache.verifySize then
    match site.files.status staging with
    | .error cause => .error (.system cause)
    | .ok node =>
        if node.length = size.toNat then .ok ()
        else .error (.sizeMismatch staging size node.length)
  else .ok ()

/-- Adopts a staging file under a key. -/
def add (site : Site) (now : Instant) (key : String) (staging : Path) (size : UInt64)
    (validators : Validators) : Except AdoptionError Outcome × Site :=
  let without := site.drop key
  if size > without.cache.maxSize then (.ok .tooLarge, without)
  else
    match staging.fileName? with
    | none => (.error (.noFileName staging), without)
    | some fileName =>
        match without.checkLength staging size with
        | .error cause => (.error cause, without)
        | .ok () => (without.makeRoom size).settle now key staging fileName size validators

end Site

end DownloadCache
