import DownloadCache.Text.Utf8

/-!
# Errors of the system

What can stop a call into the system: an error number of POSIX, a path that cannot be handed
over at all, or octets that are not text where text was asked for.
-/

namespace DownloadCache

set_option autoImplicit false

/-- An error number. -/
inductive Errno where
  | notPermitted
  | noEntry
  | noDevice
  | accessDenied
  | busy
  | exists
  | notDirectory
  | isDirectory
  | invalid
  | nameTooLong
  | notEmpty
  | tooManyLinks
  | addressInUse
  | refused
deriving DecidableEq

/-- The value of an error number. -/
def Errno.code : Errno → Nat
  | .notPermitted => 1
  | .noEntry => 2
  | .noDevice => 6
  | .accessDenied => 13
  | .busy => 16
  | .exists => 17
  | .notDirectory => 20
  | .isDirectory => 21
  | .invalid => 22
  | .nameTooLong => 36
  | .notEmpty => 39
  | .tooManyLinks => 40
  | .addressInUse => 98
  | .refused => 111

/-- What an error number means. -/
def Errno.meaning : Errno → String
  | .notPermitted => "Operation not permitted"
  | .noEntry => "No such file or directory"
  | .noDevice => "No such device or address"
  | .accessDenied => "Permission denied"
  | .busy => "Device or resource busy"
  | .exists => "File exists"
  | .notDirectory => "Not a directory"
  | .isDirectory => "Is a directory"
  | .invalid => "Invalid argument"
  | .nameTooLong => "File name too long"
  | .notEmpty => "Directory not empty"
  | .tooManyLinks => "Too many levels of symbolic links"
  | .addressInUse => "Address already in use"
  | .refused => "Connection refused"

/-- What stops a call into the system. -/
inductive SystemError where
  | errno (number : Errno)
  /-- The path holds the character that ends a path. -/
  | nulInPath
  | nulInSocketPath
  | socketPathTooLong
  /-- The name of a socket outside of the file system is too long. -/
  | outsideNameTooLong
  | notText (defect : Text.Utf8.Defect)
deriving DecidableEq

/-- The text of an error of the system. -/
def SystemError.message : SystemError → String
  | .errno number => s!"{number.meaning} (os error {number.code})"
  | .nulInPath => "file name contained an unexpected NUL byte"
  | .nulInSocketPath => "paths must not contain interior null bytes"
  | .socketPathTooLong => "path must be shorter than SUN_LEN"
  | .outsideNameTooLong => "abstract socket name must be shorter than SUN_LEN"
  | .notText defect => defect.message

/-- Whether an error says that there is nothing at the path. -/
def SystemError.isNoEntry : SystemError → Bool
  | .errno .noEntry => true
  | _ => false

end DownloadCache
