import DownloadCache.Json.Tagged
import DownloadCache.Validators

/-!
# Commands on the wire

What a downloader asks of the cache, as one line of JSON: an object whose member `type` names
the command.
-/

namespace DownloadCache.Wire

set_option autoImplicit false

/-- A command from a downloader. -/
inductive Command where
  /-- Adopt a staging file of a reported size under a key. -/
  | add (key staging : String) (size : UInt64) (validators : Validators)
  /-- Where the file of a key is. -/
  | locate (key : String)
  /-- Count an access to a key. -/
  | touch (key : String)
  /-- Drop a key and its file. -/
  | remove (key : String)
  /-- Delete a path unless an entry owns it. -/
  | removeUntracked (path : String)
  /-- The validators of a key. -/
  | validatorsOf (key : String)
  /-- Sweep orphans. -/
  | sweep
  /-- How the cache is doing. -/
  | status
deriving DecidableEq

/-! ## Writing -/

/-- The members of a command, its tag first. -/
def Command.members : Command → List (String × List Char)
  | .add key staging size validators =>
      [("type", Json.writeString "add"), ("key", Json.writeString key),
        ("stagingPath", Json.writeString staging), ("size", Json.writeCount size),
        ("cachingInfo", validators.write)]
  | .locate key => [("type", Json.writeString "pathForKey"), ("key", Json.writeString key)]
  | .touch key => [("type", Json.writeString "recordAccess"), ("key", Json.writeString key)]
  | .remove key => [("type", Json.writeString "removeEntry"), ("key", Json.writeString key)]
  | .removeUntracked path =>
      [("type", Json.writeString "removeFileIfUntracked"), ("path", Json.writeString path)]
  | .validatorsOf key => [("type", Json.writeString "info"), ("key", Json.writeString key)]
  | .sweep => [("type", Json.writeString "sweep")]
  | .status => [("type", Json.writeString "getStatus")]

/-- The written form of a command. -/
def Command.write (command : Command) : List Char :=
  Json.writeObject command.members

/-! ## Reading -/

/-- A string member that has to be there. -/
def textMember (name : String) : Json.Member String :=
  .required name (.text "a string")

/-- A kind of command with one text. -/
def Command.textVariant (name label text : String) (meaning : String → Command) :
    Json.Variant Command :=
  .record name label (.cons (textMember text) .nil) fun (value, ()) => meaning value

/-- The kinds of commands. -/
def Command.variants : List (Json.Variant Command) := [
  .record "add" "struct variant Command::Add"
    (.cons (textMember "key") (.cons (textMember "stagingPath")
      (.cons (.required "size" .word)
        (.cons (.withDefault "cachingInfo" Validators.form {}) .nil))))
    fun (key, staging, size, validators, ()) => .add key staging size validators,
  textVariant "pathForKey" "struct variant Command::PathForKey" "key" .locate,
  textVariant "recordAccess" "struct variant Command::RecordAccess" "key" .touch,
  textVariant "removeEntry" "struct variant Command::RemoveEntry" "key" .remove,
  textVariant "removeFileIfUntracked" "struct variant Command::RemoveFileIfUntracked" "path"
    .removeUntracked,
  textVariant "info" "struct variant Command::Info" "key" .validatorsOf,
  .bare "sweep" .sweep,
  .bare "getStatus" .status]

/-- Reads a command. -/
def Command.read (input : Json.Octets) : Except Json.Error Command :=
  Json.readWholeTagged "internally tagged enum Command" Command.variants input

end DownloadCache.Wire
