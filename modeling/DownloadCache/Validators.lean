import DownloadCache.Json.Printer
import DownloadCache.Json.Record

/-!
# Validators

What a downloader keeps beside an artifact to ask later whether its copy is still fresh.  The
cache never interprets validators; it hands them back as they came.
-/

namespace DownloadCache

set_option autoImplicit false

/-- The validators of an artifact, each of which may be unknown. -/
structure Validators where
  /-- The entity tag from the last successful fetch. -/
  etag : Option String := none
  /-- The time of the last change, as the last successful fetch reported it. -/
  lastModified : Option String := none
deriving DecidableEq

/-- Whether no validator is known. -/
def Validators.isEmpty (validators : Validators) : Bool :=
  validators.etag.isNone && validators.lastModified.isNone

/-- The validators with both known. -/
def Validators.known (etag lastModified : String) : Validators :=
  ⟨some etag, some lastModified⟩

/-! ## Written form -/

/-- The members that are written: those that are known. -/
def Validators.members (validators : Validators) : List (String × List Char) :=
  (validators.etag.map fun etag => ("etag", Json.writeString etag)).toList ++
    (validators.lastModified.map fun time => ("lastModified", Json.writeString time)).toList

/-- The written form of validators. -/
def Validators.write (validators : Validators) : List Char :=
  Json.writeObject validators.members

/-- The form in which validators are read. -/
def Validators.form : Json.Form Validators :=
  let known (name : String) : Json.Member (Option String) :=
    .withDefault name (Json.Form.text "a string").optional none
  ((Json.Members.cons (known "etag") (.cons (known "lastModified") .nil)).form
      "struct CachingInfo").map fun (etag, lastModified, ()) => ⟨etag, lastModified⟩

/-- Reads validators from a text. -/
def Validators.read (input : Json.Octets) : Except Json.Error Validators :=
  Json.readWhole Validators.form.read input

/-! ## Shown form -/

/-- A value that may be absent, as an error text shows it. -/
def showOptional {α : Type} (shown : α → String) : Option α → String
  | none => "None"
  | some value => s!"Some({shown value})"

/-- Validators as an error text shows them. -/
def Validators.shown (validators : Validators) : String :=
  "CachingInfo \x7b etag: " ++ showOptional Text.quoted validators.etag ++ ", last_modified: " ++
    showOptional Text.quoted validators.lastModified ++ " \x7d"

end DownloadCache
