import DownloadCache.Cache.Orphans
import DownloadCache.Proofs.FileSystem.Canonical
import DownloadCache.Proofs.Index.Pairing

/-!
# What a removal recognises

Before a path is removed it is compared with the owned ones.  However the path is spelled, and
through whatever links it goes, it is recognised if it names an owned file in the directory of the
cache and does not start in a directory that has been deleted (`ownsNamed_of_spot`).

A relative path that starts in a directory that has been deleted is never recognised
(`ownsNamed_eq_false`), since the canonical path of its parent cannot be found; it can still lead
out of that directory by steps up.
-/

namespace DownloadCache

set_option autoImplicit false

variable {site : Site} {directory path : Path} {home : Location} {name : String}

/-- The path that is compared with the owned ones, by the holder of the path. -/
theorem FileSystem.withCanonicalParent_eq (files : FileSystem) (path : Path) :
    files.withCanonicalParent path =
      match path.fileName? with
      | none => path
      | some fileName =>
          match files.canonical path.holder with
          | .ok directory => directory.child fileName
          | .error _ => path := by
  unfold withCanonicalParent Path.holder
  rfl

namespace Site

/-- The path of an entry is owned. -/
theorem owns_path (paired : site.cache.index.Paired directory) {key : String} {entry : Entry}
    (tracked : site.cache.index.entry? key = some entry) :
    site.cache.index.owns entry.path = true :=
  Option.isSome_iff_exists.mpr ⟨key, paired.owner tracked⟩

/-- **Every path that names an owned file is recognised,** if it does not start in a directory that
has been deleted. -/
theorem ownsNamed_of_spot (paired : site.cache.index.Paired directory) {key : String}
    {entry : Entry} (tracked : site.cache.index.entry? key = some entry)
    (place : entry.path = (FileSystem.pathOf home).child name)
    (short : FileSystem.checkLength (FileSystem.pathOf home) = .ok ()) {first : Location}
    {slash : Bool} (start : site.files.start path = .present first)
    (spotted : site.files.spot path = .ok (.present home, .name name slash)) :
    site.ownsNamed path = true := by
  obtain ⟨-, -, -, last⟩ := FileSystem.spot_eq_ok_iff.mp spotted
  obtain ⟨named, -⟩ := FileSystem.fileName?_of_lastStep last.symm
  have canonical := FileSystem.canonical_holder start spotted short
  have same : site.files.withCanonicalParent path = entry.path := by
    rw [FileSystem.withCanonicalParent_eq, named, place]
    dsimp only
    rw [canonical]
  rw [ownsNamed, same, owns_path paired tracked, Bool.or_true]

end Site

end DownloadCache
