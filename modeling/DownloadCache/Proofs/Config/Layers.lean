import DownloadCache.Daemon
import DownloadCache.Proofs.CommandLine
import DownloadCache.Proofs.Config.Switches
import DownloadCache.Proofs.Json.Drafting

/-!
# The layers of the configuration

The settings come from the defaults, a file, the environment and the flags.  Of each layer it is
told apart from the others what it says: a file by the fields of its object (`Config.Tells`), the
environment by the values of its variables, and the flags by the last value of each.

A file is read over any settings exactly if it says something, and then what it does not say is
kept (`Config.readFile_eq_ok_iff`).  Variables are looked at in order and up to the first whose
value is invalid (`Environment.Invalid`); those before it are applied even then
(`Config.changes_applyEnvironment`).  So the effective settings are, each for itself, what the last
layer that says something about it says, and there are none exactly if the file that is asked for
says nothing or a variable is invalid (`Config.effective_by_layers`).  With them the program does
its task, and without them it fails (`Job.prepare_eq_ok_iff`).
-/

namespace DownloadCache

set_option autoImplicit false

open CommandLine (groups lastValue)
open Json (Field Form ObjectText Octets)

/-! ## The file -/

/-- Settings as far as something is said about them. -/
structure Config.Said where
  directory? : Option Path := none
  maxSize? : Option UInt64 := none
  verifySize? : Option Bool := none
  socket? : Option Path := none
  sweepSeconds? : Option UInt64 := none

/-- The settings with what is said in place of what was. -/
def Config.Said.over (said : Config.Said) (before : Config) : Config where
  directory := said.directory?.getD before.directory
  maxSize := said.maxSize?.getD before.maxSize
  verifySize := said.verifySize?.getD before.verifySize
  socket := said.socket?.getD before.socket
  sweepSeconds := said.sweepSeconds?.getD before.sweepSeconds

/-- The form of a path in a configuration file. -/
def Config.pathForm : Form Path :=
  (Form.text "path string").map Path.mk

/-- What a configuration file says: an object of which each field stands there once or not at all,
and in which values of other names can be passed over. -/
def Config.Tells (content : Octets) (said : Config.Said) : Prop :=
  ∃ parts, ObjectText parts content ∧
    Field "cacheDir" Config.pathForm parts said.directory? ∧
    Field "maxSize" .word parts said.maxSize? ∧
    Field "verifySize" .switch parts said.verifySize? ∧
    Field "socketPath" Config.pathForm parts said.socket? ∧
    Field "sweepInterval" .word parts said.sweepSeconds? ∧
    ∀ part ∈ parts,
      part.name ∉ ["cacheDir", "maxSize", "verifySize", "socketPath", "sweepInterval"] →
        Json.skipValue part.2 = .ok []

/-- The members of a configuration file, with values for those that are absent. -/
def Config.fileMembers (absent : Config) : Json.Members [Path, UInt64, Bool, Path, UInt64] :=
  .cons (.withDefault "cacheDir" Config.pathForm absent.directory)
    (.cons (.withDefault "maxSize" .word absent.maxSize)
    (.cons (.withDefault "verifySize" .switch absent.verifySize)
    (.cons (.withDefault "socketPath" Config.pathForm absent.socket)
    (.cons (.withDefault "sweepInterval" .word absent.sweepSeconds) .nil))))

theorem Config.names_fileMembers (absent : Config) : absent.fileMembers.names =
    ["cacheDir", "maxSize", "verifySize", "socketPath", "sweepInterval"] :=
  rfl

theorem Config.bounded_fileMembers (absent : Config) : absent.fileMembers.Bounded := by
  have path : Json.Bounded Config.pathForm.read := (Json.bounded_readText _).map Path.mk
  have word : Json.Bounded Form.word.read := Json.bounded_readCount _ _
  exact ⟨path, word, Json.bounded_readSwitch, path, word, trivial⟩

/-- The settings that the values of a file are. -/
def Config.ofTuple : Json.Tuple [Path, UInt64, Bool, Path, UInt64] → Config
  | (directory, maxSize, verifySize, socket, sweepSeconds, ()) =>
      ⟨directory, maxSize, verifySize, socket, sweepSeconds⟩

/-- What is said as the draft of a file. -/
def Config.Said.draft (said : Config.Said) : Json.Draft [Path, UInt64, Bool, Path, UInt64] :=
  (said.directory?, said.maxSize?, said.verifySize?, said.socket?, said.sweepSeconds?, ())

/-- What stands for an absent field completes a draft. -/
theorem Config.complete_fileMembers (absent : Config) (said : Config.Said) :
    (absent.fileMembers.complete said.draft).map Config.ofTuple = .ok (said.over absent) := by
  simp only [fileMembers, Said.draft, Json.Members.complete, Json.Member.withDefault,
    Option.or_some, Except.map, Said.over, ofTuple]

/-- **A file that is no list is read if it says something, and what it does not say is kept.** -/
theorem Config.readFile_eq_ok_iff {absent config : Config} {content : Octets}
    (noList : (Json.skipSpace content).head? ≠ some Json.openBracket) :
    Config.readFile absent content = .ok config ↔
      ∃ said, Config.Tells content said ∧ config = said.over absent := by
  have distinct : absent.fileMembers.names.Nodup := by
    rw [names_fileMembers]
    decide
  have whole : Config.readFile absent content = .ok config ↔
      ∃ values, Json.readWhole (absent.fileMembers.read "struct CacheConfig") content =
        .ok values ∧ Config.ofTuple values = config :=
    (absent.fileMembers.form "struct CacheConfig").readWhole_map_eq_ok_iff
  rw [whole]
  simp only [Json.Members.readWhole_eq_ok_iff absent.bounded_fileMembers distinct _ noList]
  constructor
  · rintro ⟨values, ⟨parts, ⟨directory?, maxSize?, verifySize?, socket?, sweepSeconds?, ⟨⟩⟩, text,
      ⟨directory, maxSize, verifySize, socket, sweepSeconds, -⟩, passes, complete⟩, rfl⟩
    refine ⟨⟨directory?, maxSize?, verifySize?, socket?, sweepSeconds?⟩,
      ⟨parts, text, directory, maxSize, verifySize, socket, sweepSeconds, passes⟩, ?_⟩
    have completed := absent.complete_fileMembers
      ⟨directory?, maxSize?, verifySize?, socket?, sweepSeconds?⟩
    exact Except.ok.inj ((congrArg (Except.map Config.ofTuple) complete).symm.trans completed)
  · rintro ⟨said, ⟨parts, text, directory, maxSize, verifySize, socket, sweepSeconds, passes⟩, rfl⟩
    obtain ⟨values, complete, same⟩ := map_eq_ok_iff.mp (absent.complete_fileMembers said)
    exact ⟨values, ⟨parts, said.draft, text,
      ⟨directory, maxSize, verifySize, socket, sweepSeconds, trivial⟩, passes, complete⟩, same⟩

/-! ## The environment -/

/-- The names of the variables that override settings, in the order in which they are looked at. -/
def Environment.order : List String :=
  ["ARTIFACT_CACHE_DIR", "ARTIFACT_CACHE_MAX_SIZE", "ARTIFACT_CACHE_VERIFY_SIZE",
    "ARTIFACT_CACHE_SOCKET", "ARTIFACT_CACHE_SWEEP_SECS"]

section Environment

variable (environment : Environment)

/-- What a variable says: its value if it is set and can be read. -/
def Environment.value? {α ε : Type} (name : String) (read : String → Except ε α) : Option α :=
  (environment.get? name).bind fun text => (read text).toOption

/-- Whether a variable is set to a value that cannot be read. -/
def Environment.Refuses {α ε : Type} (name : String) (read : String → Except ε α) : Prop :=
  ∃ text cause, environment.get? name = some text ∧ read text = .error cause

/-- The seconds that a text means, with blanks around them. -/
def readSeconds (text : String) : Except Decimal.WordError UInt64 :=
  Decimal.readWord (Text.trim text.toList)

/-- What the environment says. -/
def Environment.said : Config.Said where
  directory? := (environment.get? "ARTIFACT_CACHE_DIR").map Path.mk
  maxSize? := environment.value? "ARTIFACT_CACHE_MAX_SIZE" ByteSize.read
  verifySize? := environment.value? "ARTIFACT_CACHE_VERIFY_SIZE" readSwitch
  socket? := (environment.get? "ARTIFACT_CACHE_SOCKET").map Path.mk
  sweepSeconds? := environment.value? "ARTIFACT_CACHE_SWEEP_SECS" readSeconds

/-- Whether a variable has an invalid value.  A path is never invalid. -/
inductive Environment.Invalid : String → Prop
  | maxSize : environment.Refuses "ARTIFACT_CACHE_MAX_SIZE" ByteSize.read →
      Invalid "ARTIFACT_CACHE_MAX_SIZE"
  | verifySize : environment.Refuses "ARTIFACT_CACHE_VERIFY_SIZE" readSwitch →
      Invalid "ARTIFACT_CACHE_VERIFY_SIZE"
  | sweepSeconds : environment.Refuses "ARTIFACT_CACHE_SWEEP_SECS" readSeconds →
      Invalid "ARTIFACT_CACHE_SWEEP_SECS"

/-- Whether neither a variable nor one of those before it is invalid. -/
def Environment.Reaches (name : String) : Prop :=
  ∀ earlier ∈ order.takeWhile (· ≠ name) ++ [name], ¬environment.Invalid earlier

/-- How a setting is changed by the environment: to what its variable says if that is reached, and
not at all if it is not. -/
structure Environment.Applies {α : Type} (name : String) (said? : Option α) (before after : α) :
    Prop where
  reached : environment.Reaches name → after = said?.getD before
  kept : ¬environment.Reaches name → after = before

/-- How all settings are changed by the environment. -/
structure Environment.Changes (before after : Config) : Prop where
  directory : environment.Applies "ARTIFACT_CACHE_DIR" environment.said.directory?
    before.directory after.directory
  maxSize : environment.Applies "ARTIFACT_CACHE_MAX_SIZE" environment.said.maxSize?
    before.maxSize after.maxSize
  verifySize : environment.Applies "ARTIFACT_CACHE_VERIFY_SIZE" environment.said.verifySize?
    before.verifySize after.verifySize
  socket : environment.Applies "ARTIFACT_CACHE_SOCKET" environment.said.socket?
    before.socket after.socket
  sweepSeconds : environment.Applies "ARTIFACT_CACHE_SWEEP_SECS" environment.said.sweepSeconds?
    before.sweepSeconds after.sweepSeconds

variable {environment}

theorem Environment.invalid_iff {name : String} : environment.Invalid name ↔
    (name = "ARTIFACT_CACHE_MAX_SIZE" ∧
      environment.Refuses "ARTIFACT_CACHE_MAX_SIZE" ByteSize.read) ∨
    (name = "ARTIFACT_CACHE_VERIFY_SIZE" ∧
      environment.Refuses "ARTIFACT_CACHE_VERIFY_SIZE" readSwitch) ∨
    (name = "ARTIFACT_CACHE_SWEEP_SECS" ∧
      environment.Refuses "ARTIFACT_CACHE_SWEEP_SECS" readSeconds) := by
  constructor
  · rintro (refuses | refuses | refuses)
    · exact .inl ⟨rfl, refuses⟩
    · exact .inr (.inl ⟨rfl, refuses⟩)
    · exact .inr (.inr ⟨rfl, refuses⟩)
  · rintro (⟨rfl, refuses⟩ | ⟨rfl, refuses⟩ | ⟨rfl, refuses⟩)
    · exact .maxSize refuses
    · exact .verifySize refuses
    · exact .sweepSeconds refuses

/-- A variable for a switch says what is written in it. -/
theorem Environment.value?_readSwitch_eq_some_iff {name : String} {value : Bool} :
    environment.value? name readSwitch = some value ↔
      ∃ text, environment.get? name = some text ∧ SwitchWritten value text.toList := by
  rw [value?, Option.bind_eq_some_iff]
  refine exists_congr fun text => and_congr_right fun _ => ?_
  rw [← readSwitch_eq_ok_iff]
  cases readSwitch text <;> simp [Except.toOption]

/-- A variable for a switch is refused if no switch is written in it. -/
theorem Environment.refuses_readSwitch_iff {name : String} :
    environment.Refuses name readSwitch ↔
      ∃ text, environment.get? name = some text ∧ ∀ value, ¬SwitchWritten value text.toList := by
  simp only [Refuses, ← exists_readSwitch_eq_error_iff, exists_and_left]

/-- Whether an override sets a setting to what a reader makes of the value of a variable. -/
structure Override.Reads {α ε : Type} (override : Override) (name : String)
    (read : String → Except ε α) (cause : String → ε → EnvironmentError)
    (put : α → Config → Config) : Prop where
  named : override.name = name
  taken : ∀ text value config, read text = .ok value →
    override.apply text config = .ok (put value config)
  refused : ∀ text found config, read text = .error found →
    override.apply text config = .error (cause text found)

/-- A variable that is refused ends the overriding. -/
theorem Config.applyOverrides_refused {α ε : Type} {override : Override} {name : String}
    {read : String → Except ε α} {cause : String → ε → EnvironmentError}
    {put : α → Config → Config} (reads : override.Reads name read cause put) {text : String}
    {found : ε} (value : environment.get? name = some text) (refused : read text = .error found)
    (rest : List Override) (config : Config) :
    Config.applyOverrides environment (override :: rest) config =
      (config, some (cause text found)) := by
  simp only [Config.applyOverrides, reads.named, value, reads.refused text found config refused]

/-- A variable that is not refused sets what it says, if it says something. -/
theorem Config.applyOverrides_taken {α ε : Type} {override : Override} {name : String}
    {read : String → Except ε α} {cause : String → ε → EnvironmentError}
    {put : α → Config → Config} (reads : override.Reads name read cause put)
    (taken : ¬environment.Refuses name read)
    {config : Config} {setting : α} (same : put setting config = config) (rest : List Override) :
    Config.applyOverrides environment (override :: rest) config =
      Config.applyOverrides environment rest
        (put ((environment.value? name read).getD setting) config) := by
  rw [Config.applyOverrides, Environment.value?, reads.named]
  cases value : environment.get? name with
  | none => rw [Option.bind_none, Option.getD_none, same]
  | some text =>
      cases found : read text with
      | error found => exact absurd ⟨text, _, value, found⟩ taken
      | ok setting =>
          simp only [reads.taken text setting config found, found, Option.bind_some,
            Except.toOption, Option.getD_some]

/-- Reads a path, which any text is. -/
def readPath (text : String) : Except Empty Path :=
  .ok ⟨text⟩

theorem Environment.not_refuses_readPath (name : String) :
    ¬environment.Refuses name readPath :=
  nofun

theorem Environment.value?_readPath (name : String) :
    environment.value? name readPath = (environment.get? name).map Path.mk := by
  rw [value?]
  cases environment.get? name <;> rfl

/-- **Five variables set one setting each.** -/
theorem Config.exists_overrides_eq : ∃ directory maxSize verifySize socket sweepSeconds,
    Config.overrides = [directory, maxSize, verifySize, socket, sweepSeconds] ∧
    directory.Reads "ARTIFACT_CACHE_DIR" readPath (fun _ => nofun)
      (fun directory config => { config with directory := directory }) ∧
    maxSize.Reads "ARTIFACT_CACHE_MAX_SIZE" ByteSize.read (fun _ => .maxSize)
      (fun size config => { config with maxSize := size }) ∧
    verifySize.Reads "ARTIFACT_CACHE_VERIFY_SIZE" readSwitch (fun _ => .verifySize)
      (fun verify config => { config with verifySize := verify }) ∧
    socket.Reads "ARTIFACT_CACHE_SOCKET" readPath (fun _ => nofun)
      (fun socket config => { config with socket := socket }) ∧
    sweepSeconds.Reads "ARTIFACT_CACHE_SWEEP_SECS" readSeconds .sweepSeconds
      (fun seconds config => { config with sweepSeconds := seconds }) := by
  refine ⟨_, _, _, _, _, rfl, ⟨rfl, ?_, nofun⟩, ⟨rfl, ?_, ?_⟩, ⟨rfl, ?_, ?_⟩, ⟨rfl, ?_, nofun⟩,
    ⟨rfl, ?_, ?_⟩⟩
  · rintro text _ config ⟨⟩
    rfl
  · intro text size config read
    simp only [read]
  · intro text found config refused
    simp only [refused]
  · intro text verify config read
    simp only [read]
  · intro text found config refused
    simp only [refused]
  · rintro text _ config ⟨⟩
    rfl
  · intro text seconds config read
    rw [readSeconds] at read
    simp only [read]
  · intro text found config refused
    rw [readSeconds] at refused
    simp only [refused]

/-! ## How far variables are applied -/

theorem Environment.reaches_directory : environment.Reaches "ARTIFACT_CACHE_DIR" := by
  simp [Reaches, order, invalid_iff]

theorem Environment.reaches_maxSize_iff : environment.Reaches "ARTIFACT_CACHE_MAX_SIZE" ↔
    ¬environment.Refuses "ARTIFACT_CACHE_MAX_SIZE" ByteSize.read := by
  simp [Reaches, order, invalid_iff]

theorem Environment.reaches_verifySize_iff : environment.Reaches "ARTIFACT_CACHE_VERIFY_SIZE" ↔
    environment.Reaches "ARTIFACT_CACHE_MAX_SIZE" ∧
      ¬environment.Refuses "ARTIFACT_CACHE_VERIFY_SIZE" readSwitch := by
  simp [Reaches, order, invalid_iff]

theorem Environment.reaches_socket_iff : environment.Reaches "ARTIFACT_CACHE_SOCKET" ↔
    environment.Reaches "ARTIFACT_CACHE_VERIFY_SIZE" := by
  simp [Reaches, order, invalid_iff]

theorem Environment.reaches_sweepSeconds_iff : environment.Reaches "ARTIFACT_CACHE_SWEEP_SECS" ↔
    environment.Reaches "ARTIFACT_CACHE_SOCKET" ∧
      ¬environment.Refuses "ARTIFACT_CACHE_SWEEP_SECS" readSeconds := by
  simp [Reaches, order, invalid_iff, and_assoc]

/-- Variables are invalid unless the last one is reached. -/
theorem Environment.exists_invalid_iff : (∃ name, environment.Invalid name) ↔
    ¬environment.Reaches "ARTIFACT_CACHE_SWEEP_SECS" := by
  constructor
  · rintro ⟨name, invalid⟩ reaches
    refine reaches name ?_ invalid
    rcases invalid_iff.mp invalid with ⟨rfl, -⟩ | ⟨rfl, -⟩ | ⟨rfl, -⟩ <;> decide
  · intro missed
    by_contra valid
    exact missed fun earlier _ invalid => valid ⟨earlier, invalid⟩

theorem Environment.Applies.of_reaches {α : Type} {name : String} {said? : Option α}
    {before after : α} (reaches : environment.Reaches name) (same : after = said?.getD before) :
    environment.Applies name said? before after :=
  ⟨fun _ => same, fun missed => absurd reaches missed⟩

theorem Environment.Applies.of_not_reaches {α : Type} {name : String} {said? : Option α}
    {before after : α} (missed : ¬environment.Reaches name) (same : after = before) :
    environment.Applies name said? before after :=
  ⟨fun reaches => absurd reaches missed, fun _ => same⟩

/-- **The environment changes the settings whose variables are reached, and fails if a variable is
invalid.** -/
theorem Config.changes_applyEnvironment (config : Config) :
    environment.Changes config (config.applyEnvironment environment).1 ∧
      ((∃ cause, (config.applyEnvironment environment).2 = some cause) ↔
        ∃ name, environment.Invalid name) := by
  obtain ⟨directory, maxSize, verifySize, socket, sweepSeconds, overrides, directoryReads,
    maxSizeReads, verifySizeReads, socketReads, sweepSecondsReads⟩ := Config.exists_overrides_eq
  have path := environment.value?_readPath
  have toDirectory := environment.reaches_directory
  have toMaxSize := environment.reaches_maxSize_iff
  have toVerifySize := environment.reaches_verifySize_iff
  have toSocket := environment.reaches_socket_iff
  have toSweepSeconds := environment.reaches_sweepSeconds_iff
  rw [Config.applyEnvironment, overrides, Environment.exists_invalid_iff,
    Config.applyOverrides_taken directoryReads (Environment.not_refuses_readPath _) rfl, path]
  -- The cases are which variable is refused first.
  by_cases maxSizeRefused : environment.Refuses "ARTIFACT_CACHE_MAX_SIZE" ByteSize.read
  · have missed : ¬environment.Reaches "ARTIFACT_CACHE_MAX_SIZE" :=
      fun reaches => toMaxSize.mp reaches maxSizeRefused
    have missedVerify := fun reaches => missed (toVerifySize.mp reaches).1
    have missedSocket := fun reaches => missedVerify (toSocket.mp reaches)
    have missedSweep := fun reaches => missedSocket (toSweepSeconds.mp reaches).1
    obtain ⟨text, found, value, refused⟩ := maxSizeRefused
    rw [Config.applyOverrides_refused maxSizeReads value refused]
    exact ⟨⟨.of_reaches toDirectory rfl, .of_not_reaches missed rfl,
      .of_not_reaches missedVerify rfl, .of_not_reaches missedSocket rfl,
      .of_not_reaches missedSweep rfl⟩, fun _ => missedSweep, fun _ => ⟨_, rfl⟩⟩
  have reachesMaxSize := toMaxSize.mpr maxSizeRefused
  rw [Config.applyOverrides_taken maxSizeReads maxSizeRefused rfl]
  by_cases verifySizeRefused : environment.Refuses "ARTIFACT_CACHE_VERIFY_SIZE" readSwitch
  · have missed : ¬environment.Reaches "ARTIFACT_CACHE_VERIFY_SIZE" :=
      fun reaches => (toVerifySize.mp reaches).2 verifySizeRefused
    have missedSocket := fun reaches => missed (toSocket.mp reaches)
    have missedSweep := fun reaches => missedSocket (toSweepSeconds.mp reaches).1
    obtain ⟨text, found, value, refused⟩ := verifySizeRefused
    rw [Config.applyOverrides_refused verifySizeReads value refused]
    exact ⟨⟨.of_reaches toDirectory rfl, .of_reaches reachesMaxSize rfl,
      .of_not_reaches missed rfl, .of_not_reaches missedSocket rfl,
      .of_not_reaches missedSweep rfl⟩, fun _ => missedSweep, fun _ => ⟨_, rfl⟩⟩
  have reachesVerifySize := toVerifySize.mpr ⟨reachesMaxSize, verifySizeRefused⟩
  have reachesSocket := toSocket.mpr reachesVerifySize
  rw [Config.applyOverrides_taken verifySizeReads verifySizeRefused rfl,
    Config.applyOverrides_taken socketReads (Environment.not_refuses_readPath _) rfl, path]
  by_cases sweepSecondsRefused : environment.Refuses "ARTIFACT_CACHE_SWEEP_SECS" readSeconds
  · have missed : ¬environment.Reaches "ARTIFACT_CACHE_SWEEP_SECS" :=
      fun reaches => (toSweepSeconds.mp reaches).2 sweepSecondsRefused
    obtain ⟨text, found, value, refused⟩ := sweepSecondsRefused
    rw [Config.applyOverrides_refused sweepSecondsReads value refused]
    exact ⟨⟨.of_reaches toDirectory rfl, .of_reaches reachesMaxSize rfl,
      .of_reaches reachesVerifySize rfl, .of_reaches reachesSocket rfl,
      .of_not_reaches missed rfl⟩, fun _ => missed, fun _ => ⟨_, rfl⟩⟩
  have reachesSweepSeconds := toSweepSeconds.mpr ⟨reachesSocket, sweepSecondsRefused⟩
  rw [Config.applyOverrides_taken sweepSecondsReads sweepSecondsRefused rfl]
  exact ⟨⟨.of_reaches toDirectory rfl, .of_reaches reachesMaxSize rfl,
    .of_reaches reachesVerifySize rfl, .of_reaches reachesSocket rfl,
    .of_reaches reachesSweepSeconds rfl⟩, nofun, fun missed => absurd reachesSweepSeconds missed⟩

/-- An environment without invalid variables changes the settings to what it says. -/
theorem Config.applyEnvironment_eq (valid : ∀ name, ¬environment.Invalid name) (config : Config) :
    config.applyEnvironment environment = (environment.said.over config, none) := by
  obtain ⟨changes, fails⟩ := @Config.changes_applyEnvironment environment config
  have reaches : ∀ name, environment.Reaches name := fun _ earlier _ => valid earlier
  have settings : (config.applyEnvironment environment).1 = environment.said.over config := by
    rw [Said.over, ← changes.directory.reached (reaches _), ← changes.maxSize.reached (reaches _),
      ← changes.verifySize.reached (reaches _), ← changes.socket.reached (reaches _),
      ← changes.sweepSeconds.reached (reaches _)]
  have noFault : (config.applyEnvironment environment).2 = none := by
    rw [Option.eq_none_iff_forall_ne_some]
    intro cause fault
    obtain ⟨name, invalid⟩ := fails.mp ⟨cause, fault⟩
    exact valid name invalid
  exact Prod.ext settings noFault

end Environment

/-! ## All layers -/

/-- What the file says that is asked for, and nothing if none is. -/
def Config.FileTells (files : FileSystem) : Option String → Config.Said → Prop
  | none, said => said = {}
  | some file, said => ∃ content, files.read ⟨file⟩ = .ok content ∧ Config.Tells content said

/-- Whether none of the files that may be asked for is a list. -/
def Config.NoList (files : FileSystem) (file? : Option String) : Prop :=
  ∀ file ∈ file?, ∀ content, files.read ⟨file⟩ = .ok content →
    (Json.skipSpace content).head? ≠ some Json.openBracket

/-- The settings that the program has in the end: those that are loaded, and the flags over them. -/
def Config.effective (files : FileSystem) (environment : Environment)
    (flags : CommandLine.Flags) : Except ConfigError Config :=
  (Config.load files environment flags.config).map flags.override

/-- What is done with settings for a task other than help. -/
def Job.ofTask (config : Config) : CommandLine.Task → Job
  | .sweep => .ask config.socket .sweep
  | .status => .ask config.socket .status
  | _ => .serve config

/-- The program fails or does its task with the effective settings, unless it is to explain
itself. -/
theorem Job.prepare_eq (files : FileSystem) (environment : Environment) {arguments : List String}
    {task : CommandLine.Task} {flags : CommandLine.Flags}
    (accepted : CommandLine.read arguments = .ok (task, flags)) (noHelp : task ≠ .help) :
    Job.prepare files environment arguments =
      match Config.effective files environment flags with
      | .error cause => .error (.failure cause.chain)
      | .ok config => .ok (.ofTask config task) := by
  rw [Job.prepare, accepted, Config.effective]
  cases task with
  | help => exact absurd rfl noHelp
  | serve | sweep | status =>
      dsimp only
      cases Config.load files environment flags.config <;> rfl

/-- The settings of a file are those that it says, over the defaults. -/
theorem Config.fromFile_eq_ok_iff {files : FileSystem} {environment : Environment}
    {file? : Option String} (noList : Config.NoList files file?) {config : Config} :
    Config.fromFile files environment (file?.map Path.mk) = .ok config ↔
      ∃ said, Config.FileTells files file? said ∧ config = said.over (.default environment) := by
  cases file? with
  | none =>
      constructor
      · intro same
        exact ⟨{}, rfl, (Except.ok.inj same).symm⟩
      · rintro ⟨said, rfl, rfl⟩
        rfl
  | some file =>
      rw [Option.map_some, fromFile]
      cases read : files.read ⟨file⟩ with
      | error cause =>
          refine ⟨nofun, ?_⟩
          rintro ⟨said, ⟨content, found, -⟩, -⟩
          cases read.symm.trans found
      | ok content =>
          have known : Config.readFile (.default environment) content = .ok config ↔ _ :=
            Config.readFile_eq_ok_iff (noList file rfl content read)
          refine Iff.trans ?_ (known.trans ?_)
          · dsimp only
            cases Config.readFile (.default environment) content <;> simp
          constructor
          · rintro ⟨said, tells, same⟩
            exact ⟨said, ⟨content, read, tells⟩, same⟩
          · rintro ⟨said, ⟨_, found, tells⟩, same⟩
            obtain rfl := Except.ok.inj (read.symm.trans found)
            exact ⟨said, tells, same⟩

/-- Settings are loaded if no variable is invalid: those that the environment says, over those of
the file. -/
theorem Config.load_eq_ok_iff {files : FileSystem} {environment : Environment}
    {file? : Option Path} {loaded : Config} :
    Config.load files environment file? = .ok loaded ↔
      (∀ name, ¬environment.Invalid name) ∧
        ∃ config, Config.fromFile files environment file? = .ok config ∧
          loaded = environment.said.over config := by
  rw [load]
  cases Config.fromFile files environment file? with
  | error cause => simp
  | ok config =>
      by_cases invalid : ∃ name, environment.Invalid name
      · obtain ⟨cause, fault⟩ := config.changes_applyEnvironment.2.mpr invalid
        have result : config.applyEnvironment environment =
            ((config.applyEnvironment environment).1, some cause) := Prod.ext rfl fault
        dsimp only
        rw [result]
        exact ⟨nofun, fun ⟨valid, _⟩ => invalid.elim fun name is => absurd is (valid name)⟩
      · have valid := not_exists.mp invalid
        simp [Config.applyEnvironment_eq valid, valid, eq_comm]

/-- The effective settings are what the flags say over what the environment says over what the file
says over the defaults. -/
theorem Config.effective_eq_ok_iff (environment : Environment) {files : FileSystem}
    {flags : CommandLine.Flags} {file? : Option String} (same : flags.config = file?.map Path.mk)
    (noList : Config.NoList files file?) (config : Config) :
    Config.effective files environment flags = .ok config ↔
      (∀ name, ¬environment.Invalid name) ∧ ∃ said, Config.FileTells files file? said ∧
        config = flags.override (environment.said.over (said.over (.default environment))) := by
  simp only [effective, map_eq_ok_iff, load_eq_ok_iff, same, fromFile_eq_ok_iff noList]
  constructor
  · rintro ⟨_, ⟨valid, _, ⟨said, tells, rfl⟩, rfl⟩, rfl⟩
    exact ⟨valid, said, tells, rfl⟩
  · rintro ⟨valid, said, tells, rfl⟩
    exact ⟨_, ⟨valid, _, ⟨said, tells, rfl⟩, rfl⟩, rfl⟩

/-- **The program does its task with the effective settings,** and it does nothing if there are
none, unless it is to explain itself. -/
theorem Job.prepare_eq_ok_iff (environment : Environment) {files : FileSystem}
    {arguments : List String} {task : CommandLine.Task} {flags : CommandLine.Flags}
    (accepted : CommandLine.read arguments = .ok (task, flags)) (noHelp : task ≠ .help)
    (noList : Config.NoList files (lastValue "--config" (groups arguments))) (job : Job) :
    Job.prepare files environment arguments = .ok job ↔
      (∀ name, ¬environment.Invalid name) ∧
        ∃ said, Config.FileTells files (lastValue "--config" (groups arguments)) said ∧
          job = .ofTask
            (flags.override (environment.said.over (said.over (.default environment)))) task := by
  obtain ⟨-, -, same⟩ := CommandLine.read_eq_ok_iff.mp accepted
  have settled := Config.effective_eq_ok_iff environment (congrArg (·.config) same) noList
  have prepared : Job.prepare files environment arguments = .ok job ↔
      ∃ config, Config.effective files environment flags = .ok config ∧
        job = .ofTask config task := by
    rw [Job.prepare_eq files environment accepted noHelp]
    cases Config.effective files environment flags <;> simp [eq_comm]
  simp only [prepared, settled]
  constructor
  · rintro ⟨_, ⟨valid, said, tells, rfl⟩, rfl⟩
    exact ⟨valid, said, tells, rfl⟩
  · rintro ⟨valid, said, tells, rfl⟩
    exact ⟨_, ⟨valid, said, tells, rfl⟩, rfl⟩

/-- Nothing is said if a file is asked for that cannot be read or tells nothing. -/
theorem Config.not_exists_fileTells_iff {files : FileSystem} {file? : Option String} :
    (¬∃ said, Config.FileTells files file? said) ↔
      ∃ file ∈ file?, ∀ content, files.read ⟨file⟩ = .ok content →
        ∀ said, ¬Config.Tells content said := by
  cases file? with
  | none => exact ⟨fun nothing => absurd ⟨{}, rfl⟩ nothing, fun ⟨_, file, _⟩ => nomatch file⟩
  | some file =>
      constructor
      · exact fun nothing => ⟨file, rfl, fun content read said tells =>
          nothing ⟨said, content, read, tells⟩⟩
      · rintro ⟨_, ⟨⟩, nothing⟩ ⟨said, content, read, tells⟩
        exact nothing content read said tells

/-- **Each setting is what the last layer tells that tells something about it.**  For arguments that
are accepted and a file that is no list, the settings fail exactly if a file is asked for that
cannot be read or tells nothing, or if a variable is invalid, whatever the flags are.  Otherwise
every setting, apart from all others, is the last value of its flag, else the value of its variable,
else that of the file, else the default.  Over any settings the environment changes exactly those
whose variables are reached, also if it fails. -/
theorem Config.effective_by_layers (files : FileSystem) (environment : Environment)
    {arguments : List String} {task : CommandLine.Task} {flags : CommandLine.Flags}
    (accepted : CommandLine.read arguments = .ok (task, flags))
    (noList : Config.NoList files (lastValue "--config" (groups arguments))) :
    ((∃ cause, Config.effective files environment flags = .error cause) ↔
      (∃ file ∈ lastValue "--config" (groups arguments), ∀ content,
        files.read ⟨file⟩ = .ok content → ∀ said, ¬Config.Tells content said) ∨
      ∃ name, environment.Invalid name) ∧
    (∀ config, Config.effective files environment flags = .ok config ↔
      (∀ name, ¬environment.Invalid name) ∧
      ∃ said, Config.FileTells files (lastValue "--config" (groups arguments)) said ∧
        config.directory = (((lastValue "--dir" (groups arguments)).map Path.mk).or
          (environment.said.directory?.or said.directory?)).getD
            (Config.default environment).directory ∧
        config.maxSize = (((lastValue "--max-size" (groups arguments)).bind fun text =>
          (ByteSize.read text).toOption).or (environment.said.maxSize?.or said.maxSize?)).getD
            (Config.default environment).maxSize ∧
        config.verifySize = (environment.said.verifySize?.or said.verifySize?).getD
          (Config.default environment).verifySize ∧
        config.socket = (((lastValue "--socket" (groups arguments)).map Path.mk).or
          (environment.said.socket?.or said.socket?)).getD (Config.default environment).socket ∧
        config.sweepSeconds = (environment.said.sweepSeconds?.or said.sweepSeconds?).getD
          (Config.default environment).sweepSeconds) ∧
    ∀ before : Config, environment.Changes before (before.applyEnvironment environment).1 ∧
      ((∃ cause, (before.applyEnvironment environment).2 = some cause) ↔
        ∃ name, environment.Invalid name) := by
  obtain ⟨-, -, rfl⟩ := CommandLine.read_eq_ok_iff.mp accepted
  have settled : ∀ config, Config.effective files environment
      (CommandLine.flagsOf (groups arguments)) = .ok config ↔ _ :=
    Config.effective_eq_ok_iff environment rfl noList
  refine ⟨?_, fun config => ?_, fun before => before.changes_applyEnvironment⟩
  · have fails : (∃ cause, Config.effective files environment
        (CommandLine.flagsOf (groups arguments)) = .error cause) ↔
        ¬∃ config, Config.effective files environment
          (CommandLine.flagsOf (groups arguments)) = .ok config := by
      cases Config.effective files environment (CommandLine.flagsOf (groups arguments)) <;> simp
    rw [fails, ← Config.not_exists_fileTells_iff]
    simp only [settled]
    constructor
    · intro nothing
      by_contra some
      rw [not_or, not_not, not_exists] at some
      obtain ⟨⟨said, tells⟩, valid⟩ := some
      exact nothing ⟨_, valid, said, tells, rfl⟩
    · rintro (nothing | ⟨name, invalid⟩) ⟨config, valid, said, tells, -⟩
      · exact nothing ⟨said, tells⟩
      · exact valid name invalid
  · rw [settled]
    refine and_congr_right fun _ => exists_congr fun said => and_congr_right fun _ => ?_
    simp only [CommandLine.Flags.override, Said.over, CommandLine.flagsOf, Option.getD_or]
    obtain ⟨directory, maxSize, verifySize, socket, sweepSeconds⟩ := config
    rw [Config.mk.injEq]

/-- A file system with a configuration file. -/
def FileSystem.configured : FileSystem :=
  FileSystem.empty.create ["c"] (.file (Text.Utf8.encode "\x7b\"verifySize\": true\x7d".toList))

/-- Arguments that ask for a file and set the budget twice. -/
def CommandLine.budgeted : List String :=
  ["--config", "/c", "--max-size", "1", "status", "--max-size", "2K"]

/-- The last flag wins over a variable, a variable over the default, and the file as well; but a
variable that is invalid is not saved by the flag. -/
theorem Config.effective_by_layers_of_budgeted :
    CommandLine.read CommandLine.budgeted =
        .ok (.status, { config := some ⟨"/c"⟩, maxSize := some 2048 }) ∧
      Config.NoList .configured (lastValue "--config" (groups CommandLine.budgeted)) ∧
      (∃ config, Config.effective .configured
          ⟨[("ARTIFACT_CACHE_MAX_SIZE", "7"), ("ARTIFACT_CACHE_DIR", "/e")], "/root"⟩
          { config := some ⟨"/c"⟩, maxSize := some 2048 } = .ok config ∧
        config.directory = ⟨"/e"⟩ ∧ config.maxSize = 2048 ∧ config.verifySize = true) ∧
      ∃ cause, Config.effective .configured ⟨[("ARTIFACT_CACHE_MAX_SIZE", "7T")], "/root"⟩
        { config := some ⟨"/c"⟩, maxSize := some 2048 } = .error cause := by
  have accepted : CommandLine.read CommandLine.budgeted =
      .ok (.status, { config := some ⟨"/c"⟩, maxSize := some 2048 }) := by decide
  have noList : Config.NoList .configured
      (lastValue "--config" (groups CommandLine.budgeted)) := by
    rintro _ ⟨⟩ _ ⟨⟩
    decide
  have layered := Config.effective_by_layers .configured
    ⟨[("ARTIFACT_CACHE_MAX_SIZE", "7"), ("ARTIFACT_CACHE_DIR", "/e")], "/root"⟩ accepted noList
  have spoilt := Config.effective_by_layers .configured
    ⟨[("ARTIFACT_CACHE_MAX_SIZE", "7T")], "/root"⟩ accepted noList
  refine ⟨accepted, noList, ⟨⟨⟨"/e"⟩, 2048, true, ⟨"/tmp/artifact-cache.sock"⟩, 600⟩, rfl, ?_⟩,
    spoilt.1.mpr (.inr ⟨_, .maxSize ⟨"7T", _, rfl, rfl⟩⟩)⟩
  obtain ⟨-, said, -, directory, maxSize, -⟩ := (layered.2.1 _).mp rfl
  exact ⟨directory, maxSize, rfl⟩

end DownloadCache
