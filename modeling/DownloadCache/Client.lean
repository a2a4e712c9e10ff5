import DownloadCache.Causes
import DownloadCache.FileSystem.Error
import DownloadCache.Path
import DownloadCache.Text.Blank
import DownloadCache.Wire.Response

/-!
# The client

A client sends one command as a line and takes one line for the response.  What it gets from the
other side is a sequence of octets; only the first line of it counts.
-/

namespace DownloadCache.Client

set_option autoImplicit false

/-- Why a request had no response. -/
inductive RequestError where
  | connect (socket : Path) (cause : SystemError)
  | unreadable (cause : SystemError)
  /-- The connection was closed before anything came back. -/
  | closed
  | malformed (cause : Json.Error)
deriving DecidableEq

/-- The texts of an error about a request. -/
def RequestError.chain : RequestError → Causes
  | .connect socket cause =>
      ⟨s!"Failed to connect to cache daemon at {socket.shown}", [cause.message]⟩
  | .unreadable cause => ⟨"Failed to read response", [cause.message]⟩
  | .closed => ⟨"Cache daemon closed the connection without responding", []⟩
  | .malformed cause => ⟨"Failed to parse response", [cause.message]⟩

/-- The line that is sent for a command. -/
def line (command : Wire.Command) : List Char :=
  command.write ++ ['\n']

/-- The first line of octets, its line feed included if there is one. -/
def firstLine : List UInt8 → List UInt8
  | [] => []
  | octet :: rest => if octet = 0x0a then [octet] else octet :: firstLine rest

/-- Takes the response from what came back. -/
def response (received : List UInt8) : Except RequestError Wire.Response :=
  let line := firstLine received
  if line.isEmpty then .error .closed
  else
    match Text.Utf8.decode line with
    | .error defect => .error (.unreadable (.notText defect))
    | .ok text =>
        match Wire.Response.read (Text.Utf8.encode (Text.trim text)) with
        | .ok response => .ok response
        | .error cause => .error (.malformed cause)

/-- The response to a request: what came back from a socket, or why nothing could be sent. -/
def request (socket : Path) (exchange : Except SystemError (List UInt8)) :
    Except RequestError Wire.Response :=
  match exchange with
  | .error cause => .error (.connect socket cause)
  | .ok received => response received

end DownloadCache.Client
