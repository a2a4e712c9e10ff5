import DownloadCache.Text.Quoted

/-!
# Paths

A path is kept as its caller spelled it.  Two readings of the spelling matter.  Its components
decide which paths are the same, what the file name is and what the parent is; repeated slashes,
slashes at the end and dots after the first component do not count.  Its trail is what a file
system walks along; there a dot is a step of its own, and a slash at the end asks for a
directory.
-/

namespace DownloadCache

set_option autoImplicit false

/-- A path as its caller spelled it. -/
structure Path where
  text : String
deriving DecidableEq

/-- A path as error texts show it. -/
def Path.shown (path : Path) : String :=
  Text.quoted path.text

/-! ## Pieces -/

/-- What stands before the first slash of a spelling, and the pieces behind it. -/
def Path.cut : List Char → List Char × List (List Char)
  | [] => ([], [])
  | character :: rest =>
      let (piece, pieces) := Path.cut rest
      if character = '/' then ([], piece :: pieces) else (character :: piece, pieces)

/-- The pieces of a spelling between its slashes, empty ones included; there is always one. -/
def Path.split (text : List Char) : List (List Char) :=
  (Path.cut text).1 :: (Path.cut text).2

/-- Pieces with slashes between them. -/
def Path.unsplit (pieces : List (List Char)) : List Char :=
  ['/'].intercalate pieces

/-- Whether a spelling starts at the root. -/
def Path.isAbsolute (path : Path) : Bool :=
  path.text.toList.head? == some '/'

/-- The pieces of a path. -/
def Path.pieces (path : Path) : List (List Char) :=
  Path.split path.text.toList

/-! ## Trails -/

/-- A step along a path. -/
inductive Step where
  /-- A dot: stay in the directory. -/
  | stay
  /-- Two dots: up to the parent. -/
  | up
  /-- A name: down to the object of that name. -/
  | into (name : String)
deriving DecidableEq

/-- The step that a piece asks for, if it is not empty. -/
def Step.ofPiece? : List Char → Option Step
  | [] => none
  | ['.'] => some .stay
  | ['.', '.'] => some .up
  | piece => some (.into (String.ofList piece))

/-- What a file system walks along. -/
structure Trail where
  fromRoot : Bool
  steps : List Step
  /-- Whether a slash follows the last step. -/
  slash : Bool

/-- The trail of a path. -/
def Path.trail (path : Path) : Trail where
  fromRoot := path.isAbsolute
  steps := path.pieces.filterMap Step.ofPiece?
  slash := path.pieces.getLast? == some []

/-- The steps of a trail, a slash at the end read as one more step in place. -/
def Trail.allSteps (trail : Trail) : List Step :=
  if trail.slash then trail.steps ++ [.stay] else trail.steps

/-! ## Components -/

/-- A component of a path. -/
inductive Component where
  | root
  /-- A dot at the start. -/
  | here
  /-- Two dots. -/
  | parent
  | name (text : String)
deriving DecidableEq

/-- The component that a step is, unless it is a dot. -/
def Component.ofStep? : Step → Option Component
  | .stay => none
  | .up => some .parent
  | .into text => some (.name text)

/-- The components of a path. -/
def Path.components (path : Path) : List Component :=
  let start :=
    if path.isAbsolute then [.root]
    else if path.pieces.head? == some ['.'] then [.here]
    else []
  start ++ path.trail.steps.filterMap Component.ofStep?

/-- The last component, if it is a name. -/
def Path.fileName? (path : Path) : Option String :=
  match path.components.getLast? with
  | some (.name name) => some name
  | _ => none

/-! ## Parents and children -/

/-- Whether a piece counts as a component wherever it stands. -/
def Path.counts (piece : List Char) : Bool :=
  !piece.isEmpty && piece != ['.']

/-- Pieces without those at the end that do not count. -/
def Path.dropIdle (pieces : List (List Char)) : List (List Char) :=
  (pieces.reverse.dropWhile fun piece => !Path.counts piece).reverse

/-- Pieces without those at the end that do not count; a dot at the start counts. -/
def Path.dropIdleAfter (leadingDot : Bool) (pieces : List (List Char)) : List (List Char) :=
  match leadingDot, pieces with
  | true, dot :: rest => dot :: Path.dropIdle rest
  | _, other => Path.dropIdle other

/-- The path without its last component, unless it has none or is the root. -/
def Path.parent? (path : Path) : Option Path :=
  let body := if path.isAbsolute then path.text.toList.drop 1 else path.text.toList
  let pieces := Path.split body
  let leadingDot := !path.isAbsolute && pieces.head? == some ['.']
  match Path.dropIdleAfter leadingDot pieces with
  | [] => none
  | counted =>
      let kept := counted.dropLast
      let text := Path.unsplit (Path.dropIdleAfter (leadingDot && !kept.isEmpty) kept)
      some ⟨String.ofList (if path.isAbsolute then '/' :: text else text)⟩

/-- The path of a name within a directory. -/
def Path.child (directory : Path) (name : String) : Path :=
  if directory.text.isEmpty then ⟨name⟩
  else if directory.text.toList.getLast? == some '/' then ⟨directory.text ++ name⟩
  else ⟨directory.text ++ "/" ++ name⟩

/-! ## Cutting and joining -/

/-- Cutting at slashes loses nothing. -/
theorem Path.unsplit_split (text : List Char) : Path.unsplit (Path.split text) = text := by
  induction text with
  | nil => rfl
  | cons character rest ih =>
      by_cases slash : character = '/'
      · subst slash
        simpa [Path.split, Path.cut, Path.unsplit, List.intercalate] using ih
      · cases pieces : (Path.cut rest).2 <;>
          simp_all [Path.split, Path.cut, Path.unsplit, List.intercalate]

/-- No piece holds a slash. -/
theorem Path.slash_notMem_of_mem_split {text piece : List Char}
    (within : piece ∈ Path.split text) : '/' ∉ piece := by
  induction text generalizing piece with
  | nil => simp_all [Path.split, Path.cut]
  | cons character rest ih =>
      by_cases slash : character = '/'
      · subst slash
        simp only [Path.split, Path.cut, if_true, List.mem_cons] at within ih
        rcases within with rfl | further
        · simp
        · exact ih further
      · simp only [Path.split, Path.cut, if_neg slash, List.mem_cons] at within ih
        rcases within with rfl | further
        · simpa [Ne.symm slash] using ih (Or.inl rfl)
        · exact ih (Or.inr further)

end DownloadCache
