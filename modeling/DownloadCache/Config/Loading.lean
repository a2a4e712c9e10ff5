import DownloadCache.Config
import DownloadCache.FileSystem.Change

/-!
# Loading the configuration

The defaults or a file, and the environment over them.
-/

namespace DownloadCache

set_option autoImplicit false

/-- Why the configuration could not be loaded. -/
inductive ConfigError where
  | read (file : Path) (cause : SystemError)
  | malformed (file : Path) (cause : Json.Error)
  | environment (cause : EnvironmentError)
deriving DecidableEq

/-- The texts of an error about the configuration. -/
def ConfigError.chain : ConfigError → Causes
  | .read file cause => ⟨s!"Failed to read config file: {file.shown}", [cause.message]⟩
  | .malformed file cause => ⟨s!"Failed to parse config file: {file.shown}", [cause.message]⟩
  | .environment cause => cause.chain

/-- The settings from the defaults and a file, if one is given. -/
def Config.fromFile (files : FileSystem) (environment : Environment) :
    Option Path → Except ConfigError Config
  | none => .ok (Config.default environment)
  | some file =>
      match files.read file with
      | .error cause => .error (.read file cause)
      | .ok content =>
          match Config.readFile (Config.default environment) content with
          | .error cause => .error (.malformed file cause)
          | .ok config => .ok config

/-- The settings from the defaults, a file if one is given, and the environment. -/
def Config.load (files : FileSystem) (environment : Environment) (file : Option Path) :
    Except ConfigError Config :=
  match Config.fromFile files environment file with
  | .error cause => .error cause
  | .ok config =>
      match config.applyEnvironment environment with
      | (_, some cause) => .error (.environment cause)
      | (loaded, none) => .ok loaded

end DownloadCache
