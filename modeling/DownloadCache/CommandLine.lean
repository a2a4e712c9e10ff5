import DownloadCache.Config

/-!
# The command line

Arguments are read from left to right.  A flag takes the argument behind it as its value,
whatever that looks like.  A word for help may come anywhere and wins over the other commands;
`serve`, `sweep` and `status` are accepted only while no command has been given.
-/

namespace DownloadCache.CommandLine

set_option autoImplicit false

/-- What the program is asked to do. -/
inductive Task where
  | serve
  | sweep
  | status
  | help
deriving DecidableEq

/-- The flags that override settings; of each the last one counts. -/
structure Flags where
  config : Option Path := none
  directory : Option Path := none
  maxSize : Option UInt64 := none
  socket : Option Path := none
deriving DecidableEq

/-- Why arguments were not understood. -/
inductive ArgumentError where
  | missingValue (flag : String)
  | maxSize (cause : ByteSizeError)
  | unknown (argument : String)
deriving DecidableEq

/-- The texts of an error about arguments. -/
def ArgumentError.chain : ArgumentError → Causes
  | .missingValue flag => ⟨s!"Missing value for {flag}", []⟩
  | .maxSize cause => ⟨"Invalid --max-size", [cause.message]⟩
  | .unknown argument => ⟨s!"Unknown argument: {argument}", []⟩

/-! ## Arguments -/

/-- Whether an argument is a flag. -/
def isFlag (argument : String) : Bool :=
  ["--config", "--dir", "--socket", "--max-size"].contains argument

/-- Whether an argument asks for help. -/
def isHelpWord (argument : String) : Bool :=
  ["help", "--help", "-h"].contains argument

/-- The task that an argument names, help left aside. -/
def task? : String → Option Task
  | "serve" => some .serve
  | "sweep" => some .sweep
  | "status" => some .status
  | _ => none

/-- Takes the value of a flag. -/
def Flags.set (flags : Flags) (flag value : String) : Except ArgumentError Flags :=
  match flag with
  | "--config" => .ok { flags with config := some ⟨value⟩ }
  | "--dir" => .ok { flags with directory := some ⟨value⟩ }
  | "--socket" => .ok { flags with socket := some ⟨value⟩ }
  | _ =>
      match ByteSize.read value with
      | .ok size => .ok { flags with maxSize := some size }
      | .error cause => .error (.maxSize cause)

/-- Reads arguments on behind the task and the flags that have been given. -/
def readFrom (task : Option Task) (flags : Flags) :
    List String → Except ArgumentError (Option Task × Flags)
  | [] => .ok (task, flags)
  | [argument] =>
      if isFlag argument then .error (.missingValue argument)
      else if isHelpWord argument then .ok (some .help, flags)
      else
        match task, task? argument with
        | none, some named => .ok (some named, flags)
        | _, _ => .error (.unknown argument)
  | argument :: value :: rest =>
      if isFlag argument then
        match flags.set argument value with
        | .ok further => readFrom task further rest
        | .error cause => .error cause
      else if isHelpWord argument then readFrom (some .help) flags (value :: rest)
      else
        match task, task? argument with
        | none, some named => readFrom (some named) flags (value :: rest)
        | _, _ => .error (.unknown argument)

/-- Reads the arguments behind the name of the program; without a command it is to serve. -/
def read (arguments : List String) : Except ArgumentError (Task × Flags) :=
  (readFrom none {} arguments).map fun (task, flags) => (task.getD .serve, flags)

/-- The settings with the flags applied. -/
def Flags.override (flags : Flags) (config : Config) : Config :=
  { config with
    directory := flags.directory.getD config.directory
    maxSize := flags.maxSize.getD config.maxSize
    socket := flags.socket.getD config.socket }

/-! ## Help -/

/-- The text that explains the command line. -/
def helpText : String :=
  "Artifact Cache Daemon - LRU disk cache for downloaded artifacts

USAGE:
    artifact-cache-daemon [serve] [OPTIONS]   # Run the daemon (default)
    artifact-cache-daemon sweep [OPTIONS]     # Sweep orphaned files now
    artifact-cache-daemon status [OPTIONS]    # Show cache usage
    artifact-cache-daemon help

OPTIONS:
    --config <path>     JSON config file
    --dir <path>        Cache directory
    --max-size <size>   Byte budget (accepts K, M, G suffixes)
    --socket <path>     Unix socket path

ENVIRONMENT:
    ARTIFACT_CACHE_DIR          Cache directory
    ARTIFACT_CACHE_MAX_SIZE     Byte budget
    ARTIFACT_CACHE_VERIFY_SIZE  Check staged file sizes on add (true/false)
    ARTIFACT_CACHE_SOCKET       Unix socket path
    ARTIFACT_CACHE_SWEEP_SECS   Seconds between orphan sweeps
    RUST_LOG                    Log filter (trace, debug, info, warn, error)

"

end DownloadCache.CommandLine
