import DownloadCache.Cache.Orphans
import DownloadCache.FileSystem.Socket
import DownloadCache.Text.Blank
import DownloadCache.Wire.Response

/-!
# The server

The server listens on a socket and answers commands, one line each.  A connection is a sequence
of octets cut at line feeds; the last line needs none.  Every line that holds more than blanks is
answered by one line, in order, and the cache is as the commands before have left it.  A line
that is no command is answered by an error and changes nothing.  A line that is not text ends the
connection: neither it nor anything behind it is answered.
-/

namespace DownloadCache

set_option autoImplicit false

/-! ## Commands -/

/-- The result of a sweep on the wire. -/
def SweepCounts.tally (counts : SweepCounts) : Wire.SweepTally where
  removed := UInt64.ofNat counts.removed
  retained := UInt64.ofNat counts.retained
  failed := UInt64.ofNat counts.failed

/-- The version of the protocol that the server speaks. -/
def protocolVersion : UInt32 := 1

/-- The usage of a cache on the wire. -/
def Usage.status (usage : Usage) : Wire.Status where
  version := protocolVersion
  healthy := true
  entries := UInt64.ofNat usage.entries
  usedBytes := usage.usedBytes
  maxBytes := usage.maxBytes
  evictions := UInt64.ofNat usage.evictions
  failedRemovals := UInt64.ofNat usage.failedRemovals

/-- The response to an adoption. -/
def adoptionResponse : Except AdoptionError Outcome → Wire.Response
  | .ok (.cached path) => .added true (some path.text)
  | .ok .tooLarge => .added false none
  | .error cause => .failure s!"Add failed: {cause.message}"

/-- The response to the removal of a key. -/
def keyRemovalResponse (key : String) (removed : Bool) : Wire.Response :=
  .success (some (if removed then s!"Removed {key}" else s!"{key} was not cached"))

/-- The response to the removal of a path. -/
def pathRemovalResponse (path : String) : Except RemovalError Bool → Wire.Response
  | .ok true => .success (some s!"Removed {path}")
  | .ok false => .success none
  | .error cause => .failure s!"Remove failed: {cause.message}"

/-- The response to a sweep. -/
def sweepResponse : Except SweepError SweepCounts → Wire.Response
  | .ok counts => .swept counts.tally
  | .error cause => .failure s!"Sweep failed: {cause.chain.oneLine}"

namespace Site

/-- Carries out a command. -/
def execute (site : Site) (now : Instant) : Wire.Command → Wire.Response × Site
  | .add key staging size validators =>
      let (result, after) := site.add now key ⟨staging⟩ size validators
      (adoptionResponse result, after)
  | .locate key => (.location ((site.cache.path? key).map (·.text)), site)
  | .touch key => (.success none, site.touch now key)
  | .remove key =>
      let (removed, after) := site.removeKey key
      (keyRemovalResponse key removed, after)
  | .removeUntracked path =>
      let (result, after) := site.removeUntracked ⟨path⟩
      (pathRemovalResponse path result, after)
  | .validatorsOf key => (.validators (site.cache.validators? key), site)
  | .sweep =>
      let (result, after) := site.sweep
      (sweepResponse result, after)
  | .status => (.status site.cache.usage.status, site)

/-! ## Lines -/

/-- Answers a line that holds more than blanks, its blanks trimmed. -/
def answer (site : Site) (now : Instant) (line : List Char) : Wire.Response × Site :=
  match Wire.Command.read (Text.Utf8.encode line) with
  | .ok command => site.execute now command
  | .error cause => (.failure s!"Invalid command: {cause.message}", site)

/-- Answers the lines of a connection up to the first that is not text; `clock` gives the reading
at each line. -/
def answerLines (site : Site) (clock : Nat → Instant) :
    List (List UInt8) → List Wire.Response × Site
  | [] => ([], site)
  | line :: rest =>
      match Text.Utf8.decode line with
      | .error _ => ([], site)
      | .ok text =>
          let trimmed := Text.trim text
          let later := fun number => clock (number + 1)
          if trimmed.isEmpty then site.answerLines later rest
          else
            let (response, after) := site.answer (clock 0) trimmed
            let (responses, final) := after.answerLines later rest
            (response :: responses, final)

end Site

/-! ## Connections -/

/-- Cuts octets into lines; what follows the last line feed is a line if it is not empty. -/
def cutLines : List UInt8 → List (List UInt8)
  | [] => []
  | octet :: rest =>
      if octet = 0x0a then [] :: cutLines rest
      else
        match cutLines rest with
        | [] => [[octet]]
        | line :: lines => (octet :: line) :: lines

/-- The octets of a response: its written form and a line feed. -/
def Wire.Response.line (response : Wire.Response) : List Char :=
  response.write ++ ['\n']

/-- Answers a connection. -/
def Site.converse (site : Site) (clock : Nat → Instant) (octets : List UInt8) :
    List Wire.Response × Site :=
  site.answerLines clock (cutLines octets)

/-! ## Listening -/

/-- A server and the socket on which it is to listen. -/
structure Server where
  socket : Path
  /-- The address at which it listens, once it has been started. -/
  listener : Option Address := none
deriving DecidableEq

/-- Why a server could not be started, stopped or run. -/
inductive ServerError where
  | removeExisting (cause : SystemError)
  | bind (socket : Path) (cause : SystemError)
  | remove (cause : SystemError)
  | notStarted
deriving DecidableEq

/-- The texts of an error about a server. -/
def ServerError.chain : ServerError → Causes
  | .removeExisting cause => ⟨"Failed to remove existing socket file", [cause.message]⟩
  | .bind socket cause => ⟨s!"Failed to bind Unix socket: {socket.shown}", [cause.message]⟩
  | .remove cause => ⟨"Failed to remove socket file", [cause.message]⟩
  | .notStarted => ⟨"Server not started", []⟩

namespace Server

/-- Starts a server while some addresses are in use.  What the path of its socket leads to is
deleted first. -/
def start (server : Server) (inUse : List Address) (files : FileSystem) :
    Except ServerError Server × FileSystem :=
  let cleaned :=
    if files.pathExists server.socket then files.unlink server.socket else .ok files
  match cleaned with
  | .error cause => (.error (.removeExisting cause), files)
  | .ok vacant =>
      match vacant.bind inUse server.socket with
      | .error cause => (.error (.bind server.socket cause), vacant)
      | .ok (address, bound) => (.ok { server with listener := some address }, bound)

/-- Refuses to run a server that has not been started. -/
def checkStarted (server : Server) : Except ServerError Unit :=
  if server.listener.isSome then .ok () else .error .notStarted

/-- Stops a server and deletes what the path of its socket leads to. -/
def stop (server : Server) (files : FileSystem) : Except ServerError Unit × FileSystem :=
  if files.pathExists server.socket then
    match files.unlink server.socket with
    | .ok cleaned => (.ok (), cleaned)
    | .error cause => (.error (.remove cause), files)
  else (.ok (), files)

end Server

end DownloadCache
