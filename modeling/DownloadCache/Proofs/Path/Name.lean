import DownloadCache.Path

/-!
# Names in paths

A name is what a path spells as one component: it is not empty, is no dot and no pair of dots, and
holds no slash.  The last component of a path and every name that a path walks into are names in
this sense (`isName_of_fileName?`, `isName_of_into_mem`).

The path of a name within a directory adds one component and one step to those of the directory,
however the directory is spelled (`components_child`, `steps_child`).
-/

namespace DownloadCache

set_option autoImplicit false

/-- What a path can spell as one component. -/
structure IsName (name : String) : Prop where
  notEmpty : name ≠ ""
  notDot : name ≠ "."
  notDots : name ≠ ".."
  noSlash : '/' ∉ name.toList

namespace Path

/-! ## Cutting at a slash -/

theorem cut_append_slash (first second : List Char) :
    cut (first ++ '/' :: second) = ((cut first).1, (cut first).2 ++ split second) := by
  induction first with
  | nil => simp [cut, split]
  | cons character rest ih =>
      rw [List.cons_append, cut, ih, cut]
      by_cases slash : character = '/' <;> simp [slash]

/-- A slash parts the pieces before it from those behind it. -/
theorem split_append_slash (first second : List Char) :
    split (first ++ '/' :: second) = split first ++ split second := by
  simp only [split, cut_append_slash, List.cons_append]

/-- A text without slashes is one piece. -/
theorem split_of_notMem {text : List Char} (clean : '/' ∉ text) : split text = [text] := by
  induction text with
  | nil => rfl
  | cons character rest ih =>
      obtain ⟨apart, clean⟩ := not_or.mp (mt List.mem_cons.mpr clean)
      have whole : cut rest = (rest, []) := by simpa [split, Prod.ext_iff] using ih clean
      simp [split, cut, whole, Ne.symm apart]

theorem unsplit_cons (piece : List Char) {pieces : List (List Char)} (more : pieces ≠ []) :
    unsplit (piece :: pieces) = piece ++ '/' :: unsplit pieces := by
  obtain ⟨next, rest, rfl⟩ := List.exists_cons_of_ne_nil more
  simp [unsplit, List.intercalate]

/-- Joining loses nothing if no piece holds a slash. -/
theorem split_unsplit {pieces : List (List Char)} (some : pieces ≠ [])
    (clean : ∀ piece ∈ pieces, '/' ∉ piece) : split (unsplit pieces) = pieces := by
  induction pieces with
  | nil => exact absurd rfl some
  | cons piece rest ih =>
      have here := split_of_notMem (clean piece List.mem_cons_self)
      by_cases last : rest = []
      · simpa [last, unsplit, List.intercalate] using here
      · rw [unsplit_cons piece last, split_append_slash, here,
          ih last fun other member => clean other (List.mem_cons_of_mem _ member)]
        rfl

end Path

/-! ## Steps into names -/

/-- A name is a step into it. -/
theorem IsName.ofPiece? {name : String} (legal : IsName name) :
    Step.ofPiece? name.toList = some (.into name) := by
  have whole := String.ofList_toList (s := name)
  obtain ⟨notEmpty, notDot, notDots, -⟩ := legal
  unfold Step.ofPiece?
  split
  · rename_i empty
    exact absurd (whole.symm.trans (by rw [empty])) notEmpty
  · rename_i dot
    exact absurd (whole.symm.trans (by rw [dot])) notDot
  · rename_i dots
    exact absurd (whole.symm.trans (by rw [dots])) notDots
  · rw [whole]

/-- Only a name is stepped into. -/
theorem isName_of_ofPiece? {piece : List Char} {name : String} (clean : '/' ∉ piece)
    (step : Step.ofPiece? piece = some (.into name)) : IsName name := by
  unfold Step.ofPiece? at step
  split at step
  · cases step
  · cases step
  · cases step
  · rename_i notEmpty notDot notDots
    cases step
    refine ⟨?_, ?_, ?_, by rwa [String.toList_ofList]⟩
    · exact fun same => notEmpty (by simpa using congrArg String.toList same)
    · exact fun same => notDot (by simpa using congrArg String.toList same)
    · exact fun same => notDots (by simpa using congrArg String.toList same)

namespace Path

/-- What a path steps into is a name. -/
theorem isName_of_into_mem {path : Path} {name : String}
    (member : .into name ∈ path.trail.steps) : IsName name := by
  obtain ⟨piece, within, step⟩ := List.mem_filterMap.mp member
  exact isName_of_ofPiece? (slash_notMem_of_mem_split within) step

/-- The last component of a path is a name if it is not a root or dots. -/
theorem isName_of_fileName? {path : Path} {name : String}
    (named : path.fileName? = some name) : IsName name := by
  have last : path.components.getLast? = some (.name name) := by
    unfold fileName? at named
    split at named
    · rename_i found
      cases named
      exact found
    · cases named
  rcases List.mem_append.mp (List.mem_of_getLast? last) with start | step
  · split at start
    · simp at start
    · split at start <;> simp at start
  · obtain ⟨step, within, counted⟩ := List.mem_filterMap.mp step
    cases step with
    | stay => cases counted
    | up => cases counted
    | into text =>
        cases counted
        exact isName_of_into_mem within

end Path

/-- Numbered names are names. -/
theorem IsName.numbered {name : String} (legal : IsName name) (number : Nat) :
    IsName (name ++ "-" ++ toString number) := by
  have digits : '/' ∉ Nat.toDigits 10 number := fun slash =>
    absurd (Nat.isDigit_of_mem_toDigits (b := 10) (by decide) (by decide) slash) (by decide)
  have dash : '-' ∈ (name ++ "-" ++ toString number).toList := by simp
  refine ⟨?_, ?_, ?_, ?_⟩
  · exact fun same => absurd (same ▸ dash) (by decide)
  · exact fun same => absurd (same ▸ dash) (by decide)
  · exact fun same => absurd (same ▸ dash) (by decide)
  · simp [legal.noSlash, digits]

namespace Path

/-! ## The path of a name within a directory -/

variable {name : String}

theorem toList_child (directory : Path) (name : String) :
    (directory.child name).text.toList =
      if directory.text.toList = [] ∨ directory.text.toList.getLast? = some '/' then
        directory.text.toList ++ name.toList
      else directory.text.toList ++ '/' :: name.toList := by
  unfold child
  by_cases empty : directory.text = ""
  · simp [empty]
  · have filled : directory.text.isEmpty = false := by simpa using empty
    by_cases slash : directory.text.toList.getLast? = some '/'
    · simp [filled, slash]
    · simp [filled, slash, empty]

/-- The pieces of a path and then a name, an empty piece at the end being dropped. -/
theorem pieces_child (directory : Path) (legal : IsName name) :
    ∃ before, (directory.child name).pieces = before ++ [name.toList] ∧
      (directory.pieces = before ∨ directory.pieces = before ++ [[]]) := by
  have whole := split_of_notMem legal.noSlash
  rw [pieces, toList_child]
  split
  · rename_i ends
    rcases ends with empty | slash
    · refine ⟨[], ?_, .inr ?_⟩
      · simpa [empty] using whole
      · rw [pieces, empty]
        rfl
    · obtain ⟨before, text⟩ := List.getLast?_eq_some_iff.mp slash
      refine ⟨split before, ?_, .inr ?_⟩
      · rw [text, List.append_assoc]
        exact (split_append_slash before name.toList).trans (by rw [whole])
      · rw [pieces, text]
        exact split_append_slash before []
  · refine ⟨directory.pieces, ?_, .inl rfl⟩
    rw [split_append_slash, whole]
    rfl

/-- The path of a name leads through the steps of its directory and into the name. -/
theorem steps_child (directory : Path) (legal : IsName name) :
    (directory.child name).trail.steps = directory.trail.steps ++ [.into name] := by
  have last : [name.toList].filterMap Step.ofPiece? = [.into name] := by
    rw [List.filterMap_cons_some legal.ofPiece?, List.filterMap_nil]
  obtain ⟨before, pieces, same | same⟩ := directory.pieces_child legal
  · simp only [trail, pieces, same, List.filterMap_append, last]
  · have idle : [[]].filterMap Step.ofPiece? = [] := rfl
    simp only [trail, pieces, same, List.filterMap_append, last, idle, List.append_nil]

/-- No slash follows the name. -/
theorem slash_child (directory : Path) (legal : IsName name) :
    (directory.child name).trail.slash = false := by
  obtain ⟨before, pieces, -⟩ := directory.pieces_child legal
  simp [trail, pieces, legal.notEmpty]

/-- The path of a name starts where the path of its directory starts. -/
theorem isAbsolute_child (directory : Path) (legal : IsName name) :
    (directory.child name).isAbsolute = directory.isAbsolute := by
  rw [isAbsolute, isAbsolute, toList_child]
  cases text : directory.text.toList with
  | nil =>
      have notSlash : name.toList.head? ≠ some '/' := fun same =>
        legal.noSlash (List.mem_of_head? same)
      simpa using notSlash
  | cons character rest => split <;> rfl

/-- The path of a name has one component more than the path of its directory. -/
theorem components_child (directory : Path) (legal : IsName name) :
    (directory.child name).components = directory.components ++ [.name name] := by
  have head : ((directory.child name).pieces.head? == some ['.']) =
      (directory.pieces.head? == some ['.']) := by
    have notDot : name.toList ≠ ['.'] := fun same =>
      legal.notDot (by simpa using congrArg String.ofList same)
    obtain ⟨before, pieces, same | same⟩ := directory.pieces_child legal
    · have some : before ≠ [] := by
        rw [← same]
        simp [Path.pieces, split]
      obtain ⟨first, rest, rfl⟩ := List.exists_cons_of_ne_nil some
      rw [pieces, same]
      rfl
    · rw [pieces, same]
      cases before with
      | nil => simp [notDot]
      | cons first rest => rfl
  rw [components, components, steps_child directory legal, isAbsolute_child directory legal, head]
  simp [Component.ofStep?]

end Path

end DownloadCache
