import DownloadCache.FileSystem.Finding

/-!
# Walking along paths

How a path finds an object.  A walk starts at the root or at the working directory and goes from
finding to finding, one step of the path after the other; every step needs a directory to be taken
in.  In a directory that has been deleted no name is found, but a walk can stay in it and leave it
upwards.  A symbolic link on the way is replaced by the steps of its target, and a walk replaces
forty links at most.

`resolve` follows a link at the end of a path as well, `locate` does not unless a slash follows
it, and `spot` stops before the last step, for calls that create or delete what the step names.
-/

namespace DownloadCache.FileSystem

set_option autoImplicit false

/-! ## Limits -/

/-- How many octets a path may have. -/
def maxPathOctets : Nat := 4095

/-- How many symbolic links a walk replaces. -/
def maxLinks : Nat := 40

/-- Refuses a spelling that is no path. -/
def checkSpelling (path : Path) : Except SystemError Unit :=
  if path.text.toList.contains '\x00' then .error .nulInPath
  else if path.text.isEmpty then refuse .noEntry
  else .ok ()

/-- Refuses a path that is too long to be handed over. -/
def checkLength (path : Path) : Except SystemError Unit :=
  if path.text.utf8ByteSize > maxPathOctets then refuse .nameTooLong else .ok ()

/-- Refuses a path that cannot be walked along whatever the file system holds. -/
def checkPath (path : Path) : Except SystemError Unit := do
  checkSpelling path
  checkLength path

/-! ## Steps -/

/-- Walks on from a finding; `follow` says where a link leads that is met from a directory, with
the steps behind it. -/
def Finding.walkWith {files : FileSystem}
    (follow : Finding files → Path → List Step → Except SystemError Location) :
    Finding files → List Step → Except SystemError Location
  | here, [] => .ok here.location
  | here, step :: rest => do
      here.checkDirectory
      match step with
      | .stay => walkWith follow here rest
      | .up => walkWith follow here.parent rest
      | .into name => do
          let there ← here.lookUp name
          match there.object? with
          | none => refuse .noEntry
          | some ⟨_, .link target⟩ => follow here target rest
          | some _ => walkWith follow there rest

/-- Walks on from a finding and replaces so many links at most. -/
def Finding.walk {files : FileSystem} :
    Nat → Finding files → List Step → Except SystemError Location
  | 0 => walkWith fun _ _ _ => refuse .tooManyLinks
  | links + 1 =>
      walkWith fun here target rest =>
        walk links (if target.isAbsolute then files.finding [] else here)
          (target.trail.allSteps ++ rest)

/-- Walks on from a place.  In a directory that has been deleted no name is found. -/
def walk (files : FileSystem) : Place → List Step → Except SystemError Place
  | .present location, steps => ((files.finding location).walk maxLinks steps).map .present
  | .deleted parent, [] => .ok (.deleted parent)
  | .deleted parent, .stay :: rest => files.walk (.deleted parent) rest
  | .deleted parent, .up :: rest => files.walk parent rest
  | .deleted _, .into _ :: _ => refuse .noEntry

/-- Refuses a place that is no directory. -/
def checkDirectory (files : FileSystem) : Place → Except SystemError Unit
  | .present location => (files.finding location).checkDirectory
  | .deleted _ => .ok ()

/-- What is found under a name at a place. -/
def lookUp (files : FileSystem) (name : String) : Place → Except SystemError (Finding files)
  | .present directory => (files.finding directory).lookUp name
  | .deleted _ => refuse .noEntry

/-- Where a path starts: at the root or at the working directory. -/
def start (files : FileSystem) (path : Path) : Place :=
  if path.isAbsolute then .present [] else files.working

/-! ## Where paths lead -/

/-- Where a path leads, links followed to the end. -/
def resolve (files : FileSystem) (path : Path) : Except SystemError Place := do
  checkPath path
  files.walk (files.start path) path.trail.allSteps

/-- What the last step of a path is. -/
inductive Last where
  /-- The path has no steps. -/
  | root
  | stay
  | up
  /-- A name, and whether a slash follows it. -/
  | name (text : String) (slash : Bool)
deriving DecidableEq

/-- The last step of a trail. -/
def lastStep (trail : Trail) : Last :=
  match trail.steps.getLast? with
  | none => .root
  | some .stay => .stay
  | some .up => .up
  | some (.into name) => .name name trail.slash

/-- The directory in which the last step of a path is to be taken, and that step. -/
def spot (files : FileSystem) (path : Path) : Except SystemError (Place × Last) := do
  checkPath path
  let directory ← files.walk (files.start path) path.trail.steps.dropLast
  files.checkDirectory directory
  return (directory, lastStep path.trail)

/-- Where a path leads; a link at the end is not followed unless a slash follows it. -/
def locate (files : FileSystem) (path : Path) : Except SystemError Place :=
  match lastStep path.trail with
  | .name _ false => do
      match ← files.spot path with
      | (directory, .name name _) => do
          let named ← files.lookUp name directory
          if named.object?.isSome then return .present named.location else refuse .noEntry
      | (directory, _) => return directory
  | _ => files.resolve path

/-- What a path leads to, links followed to the end. -/
def status (files : FileSystem) (path : Path) : Except SystemError Node := do
  match files.nodeAt? (← files.resolve path) with
  | some node => return node
  | none => refuse .noEntry

/-- What a path names, be it a link. -/
def linkStatus (files : FileSystem) (path : Path) : Except SystemError Node := do
  match files.nodeAt? (← files.locate path) with
  | some node => return node
  | none => refuse .noEntry

/-- Whether a path leads to anything. -/
def pathExists (files : FileSystem) (path : Path) : Bool :=
  (files.status path).isOk

/-- Whether a path leads to a directory. -/
def leadsToDirectory (files : FileSystem) (path : Path) : Bool :=
  match files.status path with
  | .ok .directory => true
  | _ => false

/-- Whether a path names a directory, not counting a link to one. -/
def namesDirectory (files : FileSystem) (path : Path) : Bool :=
  match files.linkStatus path with
  | .ok .directory => true
  | _ => false

/-! ## Absolute paths -/

/-- The location of a directory; one that has been deleted is refused. -/
def locationOf : Place → Except SystemError Location
  | .present location => .ok location
  | .deleted _ => refuse .noEntry

/-- The absolute path without links, dots and repeated slashes.  It is found name by name from a
directory that must have a location, and what must not be too long is the absolute path and not
the spelling. -/
def canonical (files : FileSystem) (path : Path) : Except SystemError Path := do
  checkSpelling path
  let first ← locationOf (files.start path)
  let location ← (files.finding first).walk maxLinks path.trail.allSteps
  checkLength (pathOf location)
  return pathOf location

end DownloadCache.FileSystem
