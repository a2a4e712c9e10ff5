import DownloadCache.Wire.Command

/-!
# Responses on the wire

What the cache answers to a command, as one line of JSON: an object whose member `type` names
the kind of answer.
-/

namespace DownloadCache.Wire

set_option autoImplicit false

/-- What a sweep did: orphans removed, paths retained, and orphans that could not be removed. -/
structure SweepTally where
  removed : UInt64
  retained : UInt64
  failed : UInt64
deriving DecidableEq

/-- How a cache is doing. -/
structure Status where
  /-- The version of this protocol. -/
  version : UInt32
  healthy : Bool
  entries : UInt64
  usedBytes : UInt64
  maxBytes : UInt64
  evictions : UInt64
  failedRemovals : UInt64
deriving DecidableEq

/-- An answer to a command. -/
inductive Response where
  | success (message : Option String)
  | failure (message : String)
  /-- Whether a file was adopted, and where it is then. -/
  | added (accepted : Bool) (path : Option String)
  | location (path : Option String)
  | validators (known : Option Validators)
  | swept (tally : SweepTally)
  | status (report : Status)
deriving DecidableEq

/-! ## Writing -/

/-- The members of a response, its tag first. -/
def Response.members : Response → List (String × List Char)
  | .success message =>
      [("type", Json.writeString "success"),
        ("message", Json.writeOptional Json.writeString message)]
  | .failure message =>
      [("type", Json.writeString "error"), ("error", Json.writeString message)]
  | .added accepted path =>
      [("type", Json.writeString "added"), ("accepted", Json.writeSwitch accepted),
        ("path", Json.writeOptional Json.writeString path)]
  | .location path =>
      [("type", Json.writeString "path"), ("path", Json.writeOptional Json.writeString path)]
  | .validators known =>
      [("type", Json.writeString "info"),
        ("cachingInfo", Json.writeOptional Validators.write known)]
  | .swept tally =>
      [("type", Json.writeString "swept"), ("removed", Json.writeCount tally.removed),
        ("retained", Json.writeCount tally.retained), ("failed", Json.writeCount tally.failed)]
  | .status report =>
      [("type", Json.writeString "status"), ("version", Json.writeCount report.version.toUInt64),
        ("healthy", Json.writeSwitch report.healthy),
        ("entries", Json.writeCount report.entries),
        ("usedBytes", Json.writeCount report.usedBytes),
        ("maxBytes", Json.writeCount report.maxBytes),
        ("evictions", Json.writeCount report.evictions),
        ("failedRemovals", Json.writeCount report.failedRemovals)]

/-- The written form of a response. -/
def Response.write (response : Response) : List Char :=
  Json.writeObject response.members

/-! ## Reading -/

/-- The kinds of responses. -/
def Response.variants : List (Json.Variant Response) := [
  .record "success" "struct variant Response::Success"
    (.cons (.optional "message" (.text "a string")) .nil)
    fun (message, ()) => .success message,
  .record "error" "struct variant Response::Error" (.cons (textMember "error") .nil)
    fun (message, ()) => .failure message,
  .record "added" "struct variant Response::Added"
    (.cons (.required "accepted" .switch) (.cons (.optional "path" (.text "a string")) .nil))
    fun (accepted, path, ()) => .added accepted path,
  .record "path" "struct variant Response::Path"
    (.cons (.optional "path" (.text "a string")) .nil)
    fun (path, ()) => .location path,
  .record "info" "struct variant Response::Info"
    (.cons (.optional "cachingInfo" Validators.form) .nil)
    fun (known, ()) => .validators known,
  .record "swept" "struct variant Response::Swept"
    (.cons (.required "removed" .tally) (.cons (.required "retained" .tally)
      (.cons (.required "failed" .tally) .nil)))
    fun (removed, retained, failed, ()) => .swept ⟨removed, retained, failed⟩,
  .record "status" "struct variant Response::Status"
    (.cons (.required "version" .halfWord) (.cons (.required "healthy" .switch)
      (.cons (.required "entries" .tally) (.cons (.required "usedBytes" .word)
        (.cons (.required "maxBytes" .word) (.cons (.required "evictions" .word)
          (.cons (.required "failedRemovals" .word) .nil)))))))
    fun (version, healthy, entries, used, max, evictions, failed, ()) =>
      .status ⟨version, healthy, entries, used, max, evictions, failed⟩]

/-- Reads a response. -/
def Response.read (input : Json.Octets) : Except Json.Error Response :=
  Json.readWholeTagged "internally tagged enum Response" Response.variants input

/-! ## Shown form -/

/-- A response as an error text shows it. -/
def Response.shown : Response → String
  | .success message =>
      "Success \x7b message: " ++ showOptional Text.quoted message ++ " \x7d"
  | .failure message => "Error \x7b error: " ++ Text.quoted message ++ " \x7d"
  | .added accepted path =>
      "Added \x7b accepted: " ++ toString accepted ++ ", path: " ++
        showOptional Text.quoted path ++ " \x7d"
  | .location path => "Path \x7b path: " ++ showOptional Text.quoted path ++ " \x7d"
  | .validators known =>
      "Info \x7b caching_info: " ++ showOptional Validators.shown known ++ " \x7d"
  | .swept tally =>
      "Swept \x7b removed: " ++ toString tally.removed ++ ", retained: " ++
        toString tally.retained ++ ", failed: " ++ toString tally.failed ++ " \x7d"
  | .status report =>
      "Status \x7b version: " ++ toString report.version ++ ", healthy: " ++
        toString report.healthy ++ ", entries: " ++ toString report.entries ++
        ", used_bytes: " ++ toString report.usedBytes ++ ", max_bytes: " ++
        toString report.maxBytes ++ ", evictions: " ++ toString report.evictions ++
        ", failed_removals: " ++ toString report.failedRemovals ++ " \x7d"

end DownloadCache.Wire
