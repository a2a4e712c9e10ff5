import DownloadCache.Cache.Opening
import DownloadCache.Client
import DownloadCache.CommandLine
import DownloadCache.Config.Loading
import DownloadCache.Server

/-!
# The program

What the program does with its arguments: explain itself, run the daemon, or ask a running daemon
and print its answer.  Bad arguments are explained with the help text; what fails later is
reported with its causes.
-/

namespace DownloadCache

set_option autoImplicit false

/-! ## Exits -/

/-- What a process leaves behind. -/
structure Exit where
  code : Nat := 0
  output : String := ""
  errors : String := ""
deriving DecidableEq

/-- The exit of a process that failed. -/
def Exit.failure (chain : Causes) : Exit where
  code := 1
  errors := s!"Error: {chain.report}\n"

/-- The exit after arguments that were not understood. -/
def Exit.misused (cause : CommandLine.ArgumentError) : Exit where
  code := 1
  errors := s!"Error: {cause.chain.oneLine}\n{CommandLine.helpText}"

/-- The exit after help. -/
def Exit.helped : Exit where
  errors := CommandLine.helpText

/-! ## Tasks -/

/-- What remains to be done once arguments and configuration have been read. -/
inductive Job where
  | serve (config : Config)
  | ask (socket : Path) (command : Wire.Command)
deriving DecidableEq

/-- Reads arguments and configuration. -/
def Job.prepare (files : FileSystem) (environment : Environment) (arguments : List String) :
    Except Exit Job :=
  match CommandLine.read arguments with
  | .error cause => .error (.misused cause)
  | .ok (.help, _) => .error .helped
  | .ok (task, flags) =>
      match Config.load files environment flags.config with
      | .error cause => .error (.failure cause.chain)
      | .ok loaded =>
          let config := flags.override loaded
          match task with
          | .sweep => .ok (.ask config.socket .sweep)
          | .status => .ok (.ask config.socket .status)
          | _ => .ok (.serve config)

/-! ## Asking -/

/-- The lines that report how a cache is doing. -/
def Wire.Status.lines (status : Wire.Status) : String :=
  s!"Entries:          {status.entries.toNat}\n" ++
    s!"Used:             {status.usedBytes.toNat} / {status.maxBytes.toNat} bytes\n" ++
    s!"Evictions:        {status.evictions.toNat}\n" ++
    s!"Failed removals:  {status.failedRemovals.toNat}\n"

/-- The line that reports a sweep. -/
def Wire.SweepTally.line (tally : Wire.SweepTally) : String :=
  s!"Removed {tally.removed.toNat} orphaned paths " ++
    s!"({tally.retained.toNat} retained, {tally.failed.toNat} failed)\n"

/-- The exit of a process that asked and was answered. -/
def Exit.answered (command : Wire.Command) (response : Wire.Response) : Exit :=
  match command, response with
  | .sweep, .swept tally => { output := tally.line }
  | .status, .status report => { output := report.lines }
  | _, other => .failure ⟨s!"Unexpected response: {other.shown}", []⟩

/-- The exit of a process that asked. -/
def Exit.asked (command : Wire.Command) :
    Except Client.RequestError Wire.Response → Exit
  | .ok response => .answered command response
  | .error cause => .failure cause.chain

/-! ## Serving -/

/-- A running daemon. -/
structure Daemon where
  cache : Cache
  server : Server
deriving DecidableEq

/-- Starts a daemon while some addresses are in use: opens its cache, sweeps it, since all that is
in its directory is an orphan, and starts its server. -/
def Daemon.start (files : FileSystem) (inUse : List Address) (config : Config) :
    Except Exit Daemon × FileSystem :=
  match files.openCache config.directory config.maxSize config.verifySize with
  | (.error cause, partway) => (.error (.failure cause.chain), partway)
  | (.ok cache, opened) =>
      let swept := (Site.mk cache opened).sweep.2
      match ({ socket := config.socket } : Server).start inUse swept.files with
      | (.error cause, partway) => (.error (.failure cause.chain), partway)
      | (.ok server, started) => (.ok ⟨swept.cache, server⟩, started)

/-- Stops a daemon. -/
def Daemon.stop (daemon : Daemon) (files : FileSystem) : Exit × FileSystem :=
  match daemon.server.stop files with
  | (.ok (), stopped) => ({}, stopped)
  | (.error cause, partway) => (.failure cause.chain, partway)

end DownloadCache
