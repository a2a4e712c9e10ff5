import DownloadCache.FileSystem.Socket
import DownloadCache.Proofs.FileSystem.Creating
import DownloadCache.Proofs.FileSystem.Following
import DownloadCache.Proofs.FileSystem.Removing
import DownloadCache.Proofs.FileSystem.Vanishing

/-!
# Binding sockets

A path is bound in the file system if it fits into the address of a socket and has a vacancy
(`bind_eq_ok_iff_vacancy`), and what is created there is found by connecting
(`connect_of_spot`).

Whoever makes room for a socket deletes what the path names.  A path is spotted after a deletion
where it was before unless its way goes through what was deleted (`WellFormed.spot_erase_iff`).
-/

namespace DownloadCache.FileSystem

set_option autoImplicit false

variable {files later : FileSystem} {path : Path} {name : String} {above directory : Location}
  {last : Last}

/-! ## Paths after a change -/

/-- Paths are spotted where they were after something has been created. -/
theorem WellFormed.spot_create (wellFormed : files.WellFormed) (holder : files.IsDirectory above)
    (vacant : files.object? (name :: above) = none) (node : Node)
    (spotted : files.spot path = .ok (.present directory, last)) :
    (files.create (name :: above) node).spot path = .ok (.present directory, last) := by
  have kept : ∀ {location : Location} {object : Object},
      files.object? location = some object →
        (files.create (name :: above) node).object? location = some object :=
    wellFormed.object?_create_of_some holder vacant node
  obtain ⟨checked, ⟨here, rest, departs, leads⟩, ⟨number, found⟩, same⟩ := spot_iff_way.mp spotted
  exact spot_iff_way.mpr
    ⟨checked, ⟨here, rest, departs, leads.grow kept⟩, ⟨number, kept found⟩, same⟩

/-- Deleting what is no directory leaves the directories. -/
theorem WellFormed.isDirectory_erase (wellFormed : files.WellFormed)
    (solid : ¬files.IsDirectory (name :: above)) (kept : files.IsDirectory directory) :
    (files.erase (name :: above)).IsDirectory directory := by
  refine (files.sifted_erase name above).isDirectory_of_keep ?_ kept
  have apart : ¬name :: above <:+ directory := fun within =>
    solid (wellFormed.isDirectory_of_within kept within)
  simpa using mt Location.isWithin_iff.mp apart

/-- Deleting what is no directory leaves the starts of all ways. -/
theorem WellFormed.way_erase (wellFormed : files.WellFormed)
    (solid : ¬files.IsDirectory (name :: above)) (path : Path) :
    (files.erase (name :: above)).way path = files.way path := by
  rw [way, way, (files.sifted_erase name above).start_eq path,
    wellFormed.sieve_eq_self solid (wellFormed.grounded_start path)]

/-- **A path is spotted where it was unless its way goes through what has been deleted.** -/
theorem WellFormed.spot_erase_iff (wellFormed : files.WellFormed)
    (solid : ¬files.IsDirectory (name :: above))
    (spotted : files.spot path = .ok (.present directory, last)) :
    (files.erase (name :: above)).spot path = .ok (.present directory, last) ↔
      ¬files.GoesThrough path (name :: above) := by
  have erased := files.object?_erase name above
  have gone : ∀ {met : Location}, name :: above <:+ met →
      (files.erase (name :: above)).object? met = none := fun within => by
    rw [erased, if_pos (Location.isWithin_iff.mpr within)]
  have kept : ∀ {met : Location}, ¬name :: above <:+ met →
      (files.erase (name :: above)).object? met = files.object? met := fun apart => by
    rw [erased, if_neg (mt Location.isWithin_iff.mp apart)]
  obtain ⟨checked, ⟨here, rest, departs, leads⟩, held, same⟩ := spot_iff_way.mp spotted
  rw [spot_iff_way, wellFormed.way_erase solid]
  constructor
  · rintro ⟨-, ⟨here', rest', departs', leads'⟩, -⟩ ⟨here'', rest'', met, departs'', meets, within⟩
    rw [departs] at departs' departs''
    cases departs'
    cases departs''
    -- What is met on a way that still leads somewhere is there as before.
    obtain ⟨-, agree⟩ := leads.same_of_fewer
      (fun met _ => (em (name :: above <:+ met)).imp gone kept) leads'
    have there := leads.isSome_of_meets meets
    rw [← agree met meets, gone within] at there
    cases there
  · intro apart
    refine ⟨checked, ⟨here, rest, departs, ?_⟩, wellFormed.isDirectory_erase solid held, same⟩
    refine leads.of_agree (fun met meets => kept fun within => ?_)
      (wellFormed.sifted (files.sifted_erase name above)) (wellFormed.isDirectory_erase solid)
    exact apart ⟨here, rest, met, departs, meets, within⟩

/-! ## Binding and connecting -/

/-- A path without the NUL character is a path in the file system. -/
theorem outsideName?_eq_none (clean : '\x00' ∉ path.text.toList) : outsideName? path = none := by
  rw [outsideName?]
  split
  · rename_i same
    rw [same] at clean
    exact absurd List.mem_cons_self clean
  · rfl

theorem checkSocketPath_eq_ok_iff (clean : '\x00' ∉ path.text.toList) :
    checkSocketPath path = .ok () ↔ path.text.utf8ByteSize ≤ maxSocketPathOctets := by
  rw [checkSocketPath, outsideName?_eq_none clean]
  simp [clean]

/-- **A path is bound in the file system if it fits into the address of a socket and has a
vacancy.** -/
theorem bind_eq_ok_iff_vacancy {inUse : List Address} {address : Address}
    (filled : path.text ≠ "") (clean : '\x00' ∉ path.text.toList) :
    files.bind inUse path = .ok (address, later) ↔
      path.text.utf8ByteSize ≤ maxSocketPathOctets ∧
        ∃ location, files.vacancy path false = .ok location ∧
          address = .file files.nextNumber ∧ later = files.create location .socket := by
  rw [bind, check_bind_eq_ok_iff, checkSocketPath_eq_ok_iff clean, outsideName?_eq_none clean]
  refine and_congr_right fun _ => ?_
  have some : path.text.isEmpty = false := by simpa using filled
  dsimp only
  rw [some, if_neg Bool.false_ne_true]
  constructor
  · intro bound
    split at bound
    · rename_i location vacant
      cases bound
      exact ⟨location, vacant, rfl, rfl⟩
    · cases bound
    · cases bound
  · rintro ⟨location, vacant, rfl, rfl⟩
    rw [vacant]
    rfl

/-- Connecting finds the socket under the last name of a path. -/
theorem connect_of_spot {number : Nat} (filled : path.text ≠ "")
    (clean : '\x00' ∉ path.text.toList) (fits : path.text.utf8ByteSize ≤ maxSocketPathOctets)
    (spotted : files.spot path = .ok (.present above, .name name false))
    (short : name.utf8ByteSize ≤ maxNameOctets)
    (found : files.object? (name :: above) = some ⟨number, .socket⟩) :
    files.connect path = .ok (.file number) := by
  have resolved := resolve_of_spot spotted short found nofun nofun
  have some : path.text.isEmpty = false := by simpa using filled
  rw [connect, check_bind_eq_ok_iff]
  refine ⟨(checkSocketPath_eq_ok_iff clean).mpr fits, ?_⟩
  rw [outsideName?_eq_none clean]
  dsimp only
  rw [some, if_neg Bool.false_ne_true, resolved]
  refine bind_eq_ok_iff.mpr ⟨_, rfl, ?_⟩
  rw [objectAt?, found]
  rfl

end DownloadCache.FileSystem
