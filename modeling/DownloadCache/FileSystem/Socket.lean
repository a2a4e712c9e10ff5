import DownloadCache.FileSystem.Change

/-!
# Sockets

A socket is bound to an address.  Most addresses are names in the file system.  A path that
starts with the NUL character is an address outside of it, which creates no object and is free
again when nobody listens there any more; an empty path is no address at all, so that nobody can
connect to what is bound to it.

The path of a socket is handed over in a field of fixed length, so it is limited more tightly
than other paths.
-/

namespace DownloadCache

set_option autoImplicit false

/-- What a socket is bound to. -/
inductive Address where
  | unnamed
  /-- The socket with a number in the file system. -/
  | file (number : Nat)
  /-- A name outside of the file system. -/
  | outside (name : String)
deriving DecidableEq

namespace FileSystem

/-- How many octets the path of a socket may have, a NUL at its end not counted. -/
def maxSocketPathOctets : Nat := 107

/-- The name outside of the file system that a path stands for, if it stands for one. -/
def outsideName? (path : Path) : Option String :=
  match path.text.toList with
  | '\x00' :: name => some (String.ofList name)
  | _ => none

/-- Refuses a path that cannot be the path of a socket. -/
def checkSocketPath (path : Path) : Except SystemError Unit :=
  match outsideName? path with
  | some name =>
      if name.utf8ByteSize > maxSocketPathOctets then .error .outsideNameTooLong else .ok ()
  | none =>
      if path.text.toList.contains '\x00' then .error .nulInSocketPath
      else if path.text.utf8ByteSize > maxSocketPathOctets then .error .socketPathTooLong
      else .ok ()

/-- Binds a socket, and gives its address, which must not be one of those in use. -/
def bind (files : FileSystem) (inUse : List Address) (path : Path) :
    Except SystemError (Address × FileSystem) := do
  checkSocketPath path
  match outsideName? path with
  | some name =>
      if inUse.contains (.outside name) then refuse .addressInUse else return (.outside name, files)
  | none =>
      if path.text.isEmpty then return (.unnamed, files)
      else
        match files.vacancy path false with
        | .ok location => return (.file files.nextNumber, files.create location .socket)
        | .error (.errno .exists) => refuse .addressInUse
        | .error cause => throw cause

/-- The address that a path leads to. -/
def connect (files : FileSystem) (path : Path) : Except SystemError Address := do
  checkSocketPath path
  match outsideName? path with
  | some name => return .outside name
  | none =>
      if path.text.isEmpty then refuse .invalid
      else
        match files.objectAt? (← files.resolve path) with
        | some ⟨number, .socket⟩ => return .file number
        | _ => refuse .refused

end FileSystem

end DownloadCache
