import DownloadCache.Path

/-!
# Objects of a file system

Directories, files, symbolic links and sockets.  An object carries a number of its own: a file
that is moved keeps it, and a file that has two names is found under both with one number.
-/

namespace DownloadCache

set_option autoImplicit false

/-- What an object is. -/
inductive Node where
  | directory
  | file (content : List UInt8)
  /-- A symbolic link: the path that it stands for. -/
  | link (target : Path)
  | socket
deriving DecidableEq

/-- An object with its number. -/
structure Object where
  number : Nat
  node : Node
deriving DecidableEq

/-- Whether an object is a directory. -/
def Object.isDirectory (object : Object) : Bool :=
  object.node == .directory

/-- The length that is reported for an object.  What is reported for a directory depends on how the
file system keeps it; this is a directory that fits into one block of the usual size. -/
def Node.length : Node → Nat
  | .file content => content.length
  | .directory => 4096
  | .link target => target.text.utf8ByteSize
  | .socket => 0

end DownloadCache
