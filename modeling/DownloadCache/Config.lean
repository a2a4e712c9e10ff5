import DownloadCache.ByteSize
import DownloadCache.Causes
import DownloadCache.Json.Record
import DownloadCache.Path

/-!
# Configuration

The settings of the cache and its daemon, gathered from four layers.  Each layer overrides the
ones before it, field by field: the defaults, a JSON file, the environment, and the flags of the
command line.
-/

namespace DownloadCache

set_option autoImplicit false

/-! ## Settings -/

/-- The settings of the cache and its daemon. -/
structure Config where
  /-- The directory that holds adopted files. -/
  directory : Path
  /-- The byte budget. -/
  maxSize : UInt64
  /-- Whether the length of a staging file is checked against the reported size. -/
  verifySize : Bool
  /-- The socket on which the daemon listens. -/
  socket : Path
  /-- The seconds between sweeps. -/
  sweepSeconds : UInt64
deriving DecidableEq

/-- The variables of a process. -/
structure Environment where
  /-- The names that are set, and their values. -/
  values : List (String × String)
  /-- The home directory of the account, which stands in where `HOME` is not set or empty. -/
  accountHome : String := "/root"

/-- The value of a variable. -/
def Environment.get? (environment : Environment) (name : String) : Option String :=
  environment.values.lookup name

/-- The home directory. -/
def Environment.home (environment : Environment) : Path :=
  match environment.get? "HOME" with
  | none => ⟨environment.accountHome⟩
  | some "" => ⟨environment.accountHome⟩
  | some home => ⟨home⟩

/-- The directory for the caches of all programs; a relative one is not accepted. -/
def Environment.cacheHome (environment : Environment) : Path :=
  match environment.get? "XDG_CACHE_HOME" with
  | some directory =>
      if (Path.mk directory).isAbsolute then ⟨directory⟩ else environment.home.child ".cache"
  | none => environment.home.child ".cache"

/-- The settings without any file, variable or flag. -/
def Config.default (environment : Environment) : Config where
  directory := environment.cacheHome.child "artifact-cache"
  maxSize := 1073741824
  verifySize := false
  socket := ⟨"/tmp/artifact-cache.sock"⟩
  sweepSeconds := 600

/-! ## Errors -/

/-- Why a switch cannot be read: its text after trimming, in lower case. -/
structure SwitchError where
  text : String
deriving DecidableEq

/-- The text of an error about a switch. -/
def SwitchError.message (error : SwitchError) : String :=
  s!"expected a boolean, got {Text.quoted error.text}"

/-- A variable that cannot be read. -/
inductive EnvironmentError where
  | maxSize (cause : ByteSizeError)
  | verifySize (cause : SwitchError)
  | sweepSeconds (text : String) (cause : Decimal.WordError)
deriving DecidableEq

/-- The texts of an error about a variable. -/
def EnvironmentError.chain : EnvironmentError → Causes
  | .maxSize cause => ⟨"Invalid ARTIFACT_CACHE_MAX_SIZE", [cause.message]⟩
  | .verifySize cause => ⟨"Invalid ARTIFACT_CACHE_VERIFY_SIZE", [cause.message]⟩
  | .sweepSeconds text cause =>
      ⟨s!"Invalid ARTIFACT_CACHE_SWEEP_SECS: {Text.quoted text}", [cause.message]⟩

/-! ## The file -/

/-- The form of a configuration file: each field may be absent and keeps its value then. -/
def Config.form (absent : Config) : Json.Form Config :=
  ((Json.Members.cons
      (.withDefault "cacheDir" ((Json.Form.text "path string").map Path.mk) absent.directory)
    (.cons (.withDefault "maxSize" .word absent.maxSize)
    (.cons (.withDefault "verifySize" .switch absent.verifySize)
    (.cons (.withDefault "socketPath" ((Json.Form.text "path string").map Path.mk) absent.socket)
    (.cons (.withDefault "sweepInterval" .word absent.sweepSeconds) .nil))))).form
      "struct CacheConfig").map
    fun (directory, maxSize, verifySize, socket, sweepSeconds, ()) =>
      ⟨directory, maxSize, verifySize, socket, sweepSeconds⟩

/-- Reads a configuration file over the settings that stand for absent fields. -/
def Config.readFile (absent : Config) (content : Json.Octets) : Except Json.Error Config :=
  Json.readWhole (Config.form absent).read content

/-! ## The environment -/

/-- A character in lower case, if it is an ASCII letter. -/
def lowerAscii (character : Char) : Char :=
  if 'A' ≤ character ∧ character ≤ 'Z' then Char.ofNat (character.toNat + 32) else character

/-- Reads a switch, in either case and with blanks around it. -/
def readSwitch (text : String) : Except SwitchError Bool :=
  let word := String.ofList ((Text.trim text.toList).map lowerAscii)
  if word ∈ ["1", "true", "yes", "on"] then .ok true
  else if word ∈ ["0", "false", "no", "off"] then .ok false
  else .error ⟨word⟩

/-- A variable and what its value does to the settings. -/
structure Override where
  name : String
  apply : String → Config → Except EnvironmentError Config

/-- The variables that override settings, in the order in which they are looked at. -/
def Config.overrides : List Override := [
  ⟨"ARTIFACT_CACHE_DIR", fun text config => .ok { config with directory := ⟨text⟩ }⟩,
  ⟨"ARTIFACT_CACHE_MAX_SIZE", fun text config =>
    match ByteSize.read text with
    | .ok size => .ok { config with maxSize := size }
    | .error cause => .error (.maxSize cause)⟩,
  ⟨"ARTIFACT_CACHE_VERIFY_SIZE", fun text config =>
    match readSwitch text with
    | .ok verify => .ok { config with verifySize := verify }
    | .error cause => .error (.verifySize cause)⟩,
  ⟨"ARTIFACT_CACHE_SOCKET", fun text config => .ok { config with socket := ⟨text⟩ }⟩,
  ⟨"ARTIFACT_CACHE_SWEEP_SECS", fun text config =>
    match Decimal.readWord (Text.trim text.toList) with
    | .ok seconds => .ok { config with sweepSeconds := seconds }
    | .error cause => .error (.sweepSeconds text cause)⟩]

/-- Applies overrides one after the other up to the first that cannot be read, and says which
that is. -/
def Config.applyOverrides (environment : Environment) :
    List Override → Config → Config × Option EnvironmentError
  | [], config => (config, none)
  | override :: rest, config =>
      match environment.get? override.name with
      | none => Config.applyOverrides environment rest config
      | some text =>
          match override.apply text config with
          | .ok further => Config.applyOverrides environment rest further
          | .error cause => (config, some cause)

/-- Applies the environment; the settings whose variables come before the first that cannot be
read are changed even then. -/
def Config.applyEnvironment (config : Config) (environment : Environment) :
    Config × Option EnvironmentError :=
  Config.applyOverrides environment Config.overrides config

end DownloadCache
