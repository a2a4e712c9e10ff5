import DownloadCache.Proofs.Path.Name
import Mathlib.Data.List.DropRight

/-!
# The parent of a path

The parent of a path is found by cutting its spelling, and what is cut away are pieces that do not
count and the last one that counts.  So the parent spells the components of the path but the last,
it starts where the path starts, and it has no character that the path does not have
(`exists_parent`).  A path of one name has the directory in which it starts as its parent, which is
spelled as a dot (`holder`).
-/

namespace DownloadCache.Path

set_option autoImplicit false

/-! ## What pieces spell -/

/-- The component that a piece spells, if it counts. -/
def spelled? (piece : List Char) : Option Component :=
  (Step.ofPiece? piece).bind Component.ofStep?

/-- The components that pieces spell. -/
def spelled (pieces : List (List Char)) : List Component :=
  pieces.filterMap spelled?

theorem filterMap_steps (path : Path) :
    path.trail.steps.filterMap Component.ofStep? = spelled path.pieces := by
  rw [trail, List.filterMap_filterMap]
  rfl

@[simp]
theorem spelled_nil_piece (pieces : List (List Char)) : spelled ([] :: pieces) = spelled pieces :=
  rfl

theorem spelled_append (first second : List (List Char)) :
    spelled (first ++ second) = spelled first ++ spelled second :=
  List.filterMap_append

/-- A piece spells a component if it counts. -/
theorem isSome_spelled? (piece : List Char) : (spelled? piece).isSome = counts piece := by
  unfold spelled? Step.ofPiece? counts
  split
  · rfl
  · rfl
  · rfl
  · rename_i notEmpty notDot _
    have notEmpty : piece ≠ [] := notEmpty
    have notDot : piece ≠ ['.'] := notDot
    simp [Component.ofStep?, notEmpty, notDot]

/-- Pieces spell nothing if none of them counts. -/
theorem spelled_eq_nil_iff {pieces : List (List Char)} :
    spelled pieces = [] ↔ ∀ piece ∈ pieces, counts piece = false := by
  rw [spelled, List.filterMap_eq_nil_iff]
  refine forall₂_congr fun piece _ => ?_
  rw [← isSome_spelled?, Option.isSome_eq_false_iff, Option.isNone_iff_eq_none]

/-- A piece that counts spells one component. -/
theorem exists_spelled_eq {piece : List Char} (counted : counts piece = true) :
    ∃ component, spelled [piece] = [component] := by
  rw [← isSome_spelled?] at counted
  obtain ⟨component, same⟩ := Option.isSome_iff_exists.mp counted
  exact ⟨component, by rw [spelled, List.filterMap_cons_some same, List.filterMap_nil]⟩

/-! ## Pieces at the end -/

theorem dropIdle_eq (pieces : List (List Char)) :
    dropIdle pieces = pieces.rdropWhile fun piece => !counts piece :=
  rfl

theorem spelled_dropIdle (pieces : List (List Char)) :
    spelled (dropIdle pieces) = spelled pieces := by
  have idle : spelled (pieces.rtakeWhile fun piece => !counts piece) = [] :=
    spelled_eq_nil_iff.mpr fun piece member => by simpa using List.mem_rtakeWhile_imp member
  have whole := spelled_append (dropIdle pieces) (pieces.rtakeWhile fun piece => !counts piece)
  rw [idle, List.append_nil, dropIdle_eq, List.rdropWhile_append_rtakeWhile] at whole
  exact whole.symm

theorem spelled_dropIdleAfter (leadingDot : Bool) (pieces : List (List Char)) :
    spelled (dropIdleAfter leadingDot pieces) = spelled pieces := by
  unfold dropIdleAfter
  split
  · rename_i dot rest
    have first := spelled_append [dot]
    exact (first _).trans ((congrArg _ (spelled_dropIdle rest)).trans (first rest).symm)
  · exact spelled_dropIdle pieces

theorem dropIdle_prefix_pieces (pieces : List (List Char)) : dropIdle pieces <+: pieces := by
  rw [dropIdle_eq]
  exact List.rdropWhile_prefix _ pieces

theorem dropIdleAfter_prefix_pieces (leadingDot : Bool) (pieces : List (List Char)) :
    dropIdleAfter leadingDot pieces <+: pieces := by
  unfold dropIdleAfter
  split
  · exact (List.prefix_cons_inj _).mpr (dropIdle_prefix_pieces _)
  · exact dropIdle_prefix_pieces pieces

/-- The last piece that is left counts, if any does. -/
theorem exists_dropIdle_eq {pieces : List (List Char)} (some : spelled pieces ≠ []) :
    ∃ before piece, dropIdle pieces = before ++ [piece] ∧ counts piece = true := by
  have filled : dropIdle pieces ≠ [] := fun empty => some (by
    rw [← spelled_dropIdle, empty]
    rfl)
  refine ⟨_, _, (List.dropLast_append_getLast filled).symm, ?_⟩
  have last : ¬(!counts ((dropIdle pieces).getLast filled)) = true :=
    List.rdropWhile_last_not _ pieces filled
  simpa using last

theorem exists_dropIdleAfter_eq (leadingDot : Bool) {pieces : List (List Char)}
    (some : spelled pieces ≠ []) :
    ∃ before piece, dropIdleAfter leadingDot pieces = before ++ [piece] ∧
      counts piece = true := by
  unfold dropIdleAfter
  split
  · rename_i dot rest
    by_cases further : spelled rest = []
    · have idle := spelled_eq_nil_iff.mp further
      have none : dropIdle rest = [] := by
        rw [dropIdle_eq, List.rdropWhile_eq_nil_iff]
        exact fun piece member => by simp [idle piece member]
      refine ⟨[], dot, by rw [none]; rfl, Bool.not_eq_false _ ▸ fun lost => some ?_⟩
      refine spelled_eq_nil_iff.mpr fun piece member => ?_
      rcases List.mem_cons.mp member with rfl | member
      · exact lost
      · exact idle piece member
    · obtain ⟨before, piece, same, counted⟩ := exists_dropIdle_eq further
      exact ⟨dot :: before, piece, by rw [same]; rfl, counted⟩
  · exact exists_dropIdle_eq some

/-! ## Joining -/

/-- Joined pieces start as the first of them does. -/
theorem head?_unsplit (character : Char) (piece : List Char) (rest : List (List Char)) :
    (unsplit ((character :: piece) :: rest)).head? = some character := by
  by_cases last : rest = []
  · simp [last, unsplit, List.intercalate]
  · rw [unsplit_cons _ last]
    rfl

/-- What is within joined pieces is a slash or within one of them. -/
theorem mem_of_mem_unsplit {pieces : List (List Char)} {character : Char}
    (member : character ∈ unsplit pieces) :
    character = '/' ∨ ∃ piece ∈ pieces, character ∈ piece := by
  induction pieces with
  | nil => cases member
  | cons piece rest ih =>
      by_cases last : rest = []
      · subst last
        exact .inr ⟨piece, List.mem_cons_self, by simpa [unsplit, List.intercalate] using member⟩
      · rw [unsplit_cons piece last, List.mem_append, List.mem_cons] at member
        rcases member with here | rfl | later
        · exact .inr ⟨piece, List.mem_cons_self, here⟩
        · exact .inl rfl
        · rcases ih later with slash | ⟨other, listed, within⟩
          · exact .inl slash
          · exact .inr ⟨other, List.mem_cons_of_mem _ listed, within⟩

/-- What is within a piece is within the pieces joined. -/
theorem mem_unsplit_of_mem {pieces : List (List Char)} {piece : List Char} {character : Char}
    (listed : piece ∈ pieces) (within : character ∈ piece) : character ∈ unsplit pieces := by
  induction pieces with
  | nil => cases listed
  | cons first rest ih =>
      by_cases last : rest = []
      · subst last
        rw [List.mem_singleton] at listed
        simpa [unsplit, List.intercalate, ← listed] using within
      · rw [unsplit_cons first last, List.mem_append, List.mem_cons]
        rcases List.mem_cons.mp listed with rfl | later
        · exact .inl within
        · exact .inr (.inr (ih later))

/-- Pieces without slashes spell what they spelled when they are joined and cut again. -/
theorem spelled_split_unsplit {pieces : List (List Char)}
    (clean : ∀ piece ∈ pieces, '/' ∉ piece) :
    spelled (split (unsplit pieces)) = spelled pieces := by
  by_cases empty : pieces = []
  · rw [empty]
    rfl
  · rw [split_unsplit empty clean]

/-! ## The parent -/

/-- What stands before the pieces that a parent is cut from. -/
theorem pieces_of_isAbsolute {path : Path} (absolute : path.isAbsolute = true) :
    path.text.toList = '/' :: path.text.toList.drop 1 ∧
      path.pieces = [] :: split (path.text.toList.drop 1) := by
  have head : path.text.toList.head? = some '/' := by simpa [isAbsolute] using absolute
  obtain ⟨rest, text⟩ := List.head?_eq_some_iff.mp head
  rw [pieces, text]
  exact ⟨rfl, rfl⟩

/-- The first piece of a path that does not start at the root is not empty, unless the path is. -/
theorem exists_head_of_isAbsolute {path : Path} (relative : path.isAbsolute = false)
    (some : path.text.toList ≠ []) :
    ∃ character piece rest, path.pieces = (character :: piece) :: rest ∧ character ≠ '/' := by
  obtain ⟨character, rest, text⟩ := List.exists_cons_of_ne_nil some
  have apart : character ≠ '/' := by simpa [isAbsolute, text] using relative
  refine ⟨character, (cut rest).1, (cut rest).2, ?_, apart⟩
  rw [pieces, text, split, cut]
  simp [apart]

/-- The text of a path behind a slash at its start. -/
def body (path : Path) : List Char :=
  if path.isAbsolute then path.text.toList.drop 1 else path.text.toList

theorem spelled_split_body (path : Path) : spelled (split path.body) = spelled path.pieces := by
  unfold body
  split
  · rename_i absolute
    rw [(pieces_of_isAbsolute absolute).2, spelled_nil_piece]
  · rfl

/-- The parent is cut from the pieces before the last one that counts. -/
theorem exists_parent?_eq {path : Path} (spells : spelled path.pieces ≠ []) :
    ∃ kept component, kept <+: split path.body ∧
      spelled path.pieces = spelled kept ++ [component] ∧
      path.parent? = some ⟨String.ofList
        (if path.isAbsolute then '/' :: unsplit kept else unsplit kept)⟩ := by
  rw [← spelled_split_body] at spells
  generalize leading : (!path.isAbsolute && (split path.body).head? == some ['.']) = leadingDot
  obtain ⟨before, piece, counted, counts⟩ := exists_dropIdleAfter_eq leadingDot spells
  obtain ⟨component, last⟩ := exists_spelled_eq counts
  refine ⟨dropIdleAfter (leadingDot && !before.isEmpty) before, component, ?_, ?_, ?_⟩
  · have prefixed := dropIdleAfter_prefix_pieces leadingDot (split path.body)
    rw [counted] at prefixed
    exact (dropIdleAfter_prefix_pieces _ before).trans
      ((List.prefix_append before [piece]).trans prefixed)
  · rw [← spelled_split_body, ← spelled_dropIdleAfter leadingDot, counted, spelled_append, last,
      spelled_dropIdleAfter]
  · rw [body] at counted leading
    rw [parent?]
    simp only [leading, counted]
    cases before with
    | nil => rfl
    | cons first rest =>
        have dropped : ((first :: rest) ++ [piece]).dropLast = first :: rest :=
          List.dropLast_concat
        rw [List.cons_append] at dropped
        simp only [List.cons_append, dropped]

/-- **A path that spells a component has a parent, which spells the components but the last.**  It
starts where the path starts, and it has no character that the path does not have, but slashes. -/
theorem exists_parent {path : Path} (spells : spelled path.pieces ≠ []) :
    ∃ parent, path.parent? = some parent ∧ parent.isAbsolute = path.isAbsolute ∧
      spelled parent.pieces = (spelled path.pieces).dropLast ∧
      ∀ character ∈ parent.text.toList, character = '/' ∨ character ∈ path.text.toList := by
  obtain ⟨kept, component, within, whole, found⟩ := exists_parent?_eq spells
  have clean : ∀ piece ∈ kept, '/' ∉ piece := fun piece member =>
    slash_notMem_of_mem_split (within.subset member)
  have ofBody : ∀ character ∈ unsplit kept, character = '/' ∨ character ∈ path.body := by
    intro character member
    refine (mem_of_mem_unsplit member).imp_right fun ⟨piece, listed, inside⟩ => ?_
    rw [← unsplit_split path.body]
    exact mem_unsplit_of_mem (within.subset listed) inside
  refine ⟨_, found, ?_⟩
  rw [whole, List.dropLast_concat, ← spelled_split_unsplit clean]
  cases absolute : path.isAbsolute with
  | true =>
      refine ⟨by simp [isAbsolute], ?_, ?_⟩
      · rw [pieces, if_pos rfl, String.toList_ofList]
        rfl
      · intro character member
        rw [if_pos rfl, String.toList_ofList, List.mem_cons] at member
        rcases member with rfl | member
        · exact .inl rfl
        · refine (ofBody character member).imp_right fun inside => ?_
          rw [body, if_pos absolute] at inside
          exact List.mem_of_mem_drop inside
  | false =>
      refine ⟨?_, ?_, ?_⟩
      · rw [isAbsolute, if_neg (by simp), String.toList_ofList]
        rw [body, if_neg (by simp [absolute])] at within
        have filled : path.text.toList ≠ [] := fun empty => spells (by rw [pieces, empty]; rfl)
        obtain ⟨character, piece, rest, first, apart⟩ :=
          exists_head_of_isAbsolute absolute filled
        rw [← pieces, first] at within
        cases kept with
        | nil => rfl
        | cons other more =>
            obtain ⟨rfl, -⟩ := List.cons_prefix_cons.mp within
            rw [head?_unsplit]
            simpa using apart
      · rw [pieces, if_neg (by simp), String.toList_ofList]
      · intro character member
        rw [if_neg (by simp), String.toList_ofList] at member
        refine (ofBody character member).imp_right fun inside => ?_
        rwa [body, if_neg (by simp [absolute])] at inside

/-- The directory in which the last component of a path is looked for: its parent, or the one in
which the path starts. -/
def holder (path : Path) : Path :=
  match path.parent? with
  | some parent => if parent.text.isEmpty then ⟨"."⟩ else parent
  | none => ⟨"."⟩

/-- **The holder spells the components but the last.**  It starts where the path starts, and it can
be handed over if the path can. -/
theorem holder_spec {path : Path} (spells : spelled path.pieces ≠ []) :
    path.holder.text ≠ "" ∧ path.holder.isAbsolute = path.isAbsolute ∧
      spelled path.holder.pieces = (spelled path.pieces).dropLast ∧
      ('\x00' ∉ path.text.toList → '\x00' ∉ path.holder.text.toList) := by
  obtain ⟨parent, found, absolute, components, characters⟩ := exists_parent spells
  rw [holder, found]
  dsimp only
  split
  · rename_i empty
    have empty : parent.text = "" := by simpa using empty
    refine ⟨by decide, ?_, ?_, fun _ => by decide⟩
    · rw [← absolute, isAbsolute, isAbsolute, empty]
      rfl
    · rw [← components, pieces, pieces, empty]
      rfl
  · rename_i filled
    refine ⟨by simpa using filled, absolute, components, fun clean nul => ?_⟩
    exact clean ((characters _ nul).resolve_left (by decide))

end DownloadCache.Path
