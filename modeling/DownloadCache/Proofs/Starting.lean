import DownloadCache.Server
import DownloadCache.Proofs.FileSystem.Binding

/-!
# Starting a server

A server that is started deletes what the path of its socket leads to before it binds the path, and
not all that can be deleted can be replaced by a socket.  What cannot is forfeited (`Forfeited`):
the path is too long for a socket, or its way goes through the very link that it names.  A start
that succeeds puts a socket in its place and changes nothing else (`Placed`).

A start is refused without a change, forfeits something or places a socket
(`Server.start_comesTo`).  So a start that fails is harmless if nothing is forfeited, and only then
(`failed_start_harmless_iff`).  Even a file is lost if its path is too long for a socket
(`file_lost_without_socket`).
-/

namespace DownloadCache

set_option autoImplicit false

namespace FileSystem

variable {files later vacant : FileSystem} {path : Path} {name : String} {location above : Location}

/-! ## Making room -/

/-- What is deleted to make room for a socket: the path leads to something and ends in a name, under
which there is no directory, in a directory that is not locked. -/
structure Cleared (files : FileSystem) (path : Path) (location : Location) : Prop where
  /-- A link is deleted only if it leads to something. -/
  leads : files.pathExists path = true
  bare : ∃ name, lastStep path.trail = .name name false
  located : files.locate path = .ok (.present location)
  solid : ¬files.IsDirectory location
  unlocked : files.isLocked location.parent = false

/-- What is deleted though no socket can take its place. -/
structure Forfeited (files : FileSystem) (path : Path) (location : Location) : Prop
    extends files.Cleared path location where
  unbound : maxSocketPathOctets < path.text.utf8ByteSize ∨ files.GoesThrough path location

/-- What is cleared is under the last name of the path. -/
theorem Cleared.exists_spot (cleared : files.Cleared path location) :
    ∃ name above object, location = name :: above ∧
      files.spot path = .ok (.present above, .name name false) ∧
      name.utf8ByteSize ≤ maxNameOctets ∧ files.object? (name :: above) = some object ∧
      object.isDirectory = false := by
  obtain ⟨name, last⟩ := cleared.bare
  obtain ⟨above, object, spotted, short, found, same⟩ := (locate_eq_ok_iff last).mp cleared.located
  cases same
  exact ⟨name, above, object, rfl, spotted, short, found, Bool.eq_false_iff.mpr fun kind =>
    cleared.solid (isDirectory_iff.mpr ⟨object, found, kind⟩)⟩

theorem Cleared.unique {other : Location} (cleared : files.Cleared path location)
    (cleared' : files.Cleared path other) : location = other := by
  have same := cleared.located.symm.trans cleared'.located
  cases same
  rfl

/-- Where the path of a socket leads to something, deleting that is clearing it. -/
theorem unlink_iff_cleared (leads : files.pathExists path = true) :
    files.unlink path = .ok later ↔
      ∃ location, files.Cleared path location ∧ later = files.erase location := by
  constructor
  · intro deleted
    obtain ⟨name, above, object, spotted, short, found, kind, unlocked, rfl⟩ :=
      unlink_eq_ok_iff.mp deleted
    obtain ⟨-, -, -, last⟩ := spot_eq_ok_iff.mp spotted
    refine ⟨name :: above, ⟨leads, ⟨name, last.symm⟩, locate_of_spot spotted short found nofun, ?_,
      unlocked⟩, rfl⟩
    intro directory
    rw [directory.isDirectory_of_found found] at kind
    cases kind
  · rintro ⟨location, cleared, rfl⟩
    obtain ⟨name, above, object, rfl, spotted, short, found, kind⟩ := cleared.exists_spot
    exact unlink_eq_ok_iff.mpr
      ⟨name, above, object, spotted, short, found, kind, cleared.unlocked, rfl⟩

/-- What is forfeited for a path that fits into the address of a socket is a link. -/
theorem Forfeited.isLink (forfeited : files.Forfeited path location)
    (wellFormed : files.WellFormed) (fits : path.text.utf8ByteSize ≤ maxSocketPathOctets) :
    ∃ number target, files.object? location = some ⟨number, .link target⟩ := by
  obtain ⟨name, above, object, rfl, spotted, -⟩ := forfeited.exists_spot
  by_contra unlinked
  exact not_goesThrough wellFormed spotted forfeited.solid (by simpa using unlinked)
    (forfeited.unbound.resolve_left (Nat.not_lt.mpr fits))

/-! ## Vacated places -/

/-- A file system in which a place is free; in the other one there may be something, though no
directory. -/
structure Vacated (files vacant : FileSystem) (location : Location) : Prop where
  wellFormed : vacant.WellFormed
  shrinks : files.Shrinks vacant
  solid : ¬files.IsDirectory location
  free : vacant.object? location = none
  frame : ∀ other, other ≠ location → vacant.object? other = files.object? other
  working : vacant.working = files.working
  nextNumber : vacant.nextNumber = files.nextNumber
  locked : vacant.locked = files.locked

theorem WellFormed.vacated_self (wellFormed : files.WellFormed)
    (free : files.object? location = none) : files.Vacated files location where
  wellFormed := wellFormed
  shrinks := .refl files
  solid := fun ⟨_, found⟩ => by simp [free] at found
  free := free
  frame _ _ := rfl
  working := rfl
  nextNumber := rfl
  locked := rfl

theorem WellFormed.vacated_erase (wellFormed : files.WellFormed)
    (solid : ¬files.IsDirectory (name :: above)) :
    files.Vacated (files.erase (name :: above)) (name :: above) where
  wellFormed := wellFormed.sifted (files.sifted_erase name above)
  shrinks := wellFormed.shrinks (files.sifted_erase name above)
  solid := solid
  free := by rw [object?_erase, if_pos (Location.isWithin_iff.mpr (List.suffix_refl _))]
  frame other apart := by
    rw [object?_erase]
    split
    · rename_i within
      -- Nothing lies below what is no directory.
      have within := Location.isWithin_iff.mp within
      cases found : files.object? other with
      | none => rfl
      | some object =>
          exact absurd (wellFormed.isDirectory_of_suffix (by rw [found]; rfl) within apart.symm)
            solid
    · rfl
  working := wellFormed.sieve_eq_self solid wellFormed.working
  nextNumber := rfl
  locked := rfl

/-- The directory that holds a vacated place is locked if it was before. -/
theorem Vacated.isLocked_eq (vacated : files.Vacated vacant (name :: above)) :
    vacant.isLocked above = files.isLocked above := by
  rw [isLocked, isLocked, vacated.locked, vacated.frame above (List.cons_ne_self name above).symm]

/-! ## The new socket -/

/-- A new socket is where the path leads, in the place of what the path named before, and nothing
else has changed. -/
structure Placed (files later : FileSystem) (path : Path) (location : Location) : Prop where
  located : later.locate path = .ok (.present location)
  socket : later.object? location = some ⟨files.nextNumber, .socket⟩
  /-- No object had the number of the socket before. -/
  fresh : ∀ other object, files.object? other = some object → object.number ≠ files.nextNumber
  connects : later.connect path = .ok (.file files.nextNumber)
  /-- What the path named before was where the socket is. -/
  replaced : ∀ place, files.locate path = .ok place → place = .present location
  solid : ¬files.IsDirectory location
  frame : ∀ other, other ≠ location → later.object? other = files.object? other
  working : later.working = files.working
  locked : later.locked = files.locked

/-- **A socket that is bound at a vacated place is new there and changes nothing else.** -/
theorem Vacated.placed (vacated : files.Vacated vacant (name :: above))
    (numbered : files.Numbered) (filled : path.text ≠ "") (clean : '\x00' ∉ path.text.toList)
    (fits : path.text.utf8ByteSize ≤ maxSocketPathOctets)
    (spotted : vacant.spot path = .ok (.present above, .name name false))
    (short : name.utf8ByteSize ≤ maxNameOctets) :
    files.Placed (vacant.create (name :: above) .socket) path (name :: above) := by
  obtain ⟨-, -, held, last⟩ := spot_eq_ok_iff.mp spotted
  have held := checkDirectory_present_eq_ok_iff.mp held
  have created := vacated.wellFormed.object?_create held vacated.free .socket
  have found : (vacant.create (name :: above) .socket).object? (name :: above) =
      some ⟨files.nextNumber, .socket⟩ := by
    rw [created, if_pos rfl, vacated.nextNumber]
  have after := vacated.wellFormed.spot_create held vacated.free .socket spotted
  exact {
    located := locate_of_spot after short found nofun
    socket := found
    fresh := fun other object there => Nat.ne_of_lt (numbered.fresh other object there)
    connects := connect_of_spot filled clean fits after short found
    replaced := by
      intro place located
      obtain ⟨before, object, spotted', -, -, rfl⟩ := (locate_eq_ok_iff last.symm).mp located
      have same := spotted'.symm.trans (vacated.shrinks.spot spotted)
      cases same
      rfl
    solid := vacated.solid
    frame := fun other apart => by rw [created, if_neg apart, vacated.frame other apart]
    working := vacated.working
    locked := vacated.locked }

/-- What is not forfeited leaves a path that can be bound. -/
theorem Cleared.spot_of_kept (cleared : files.Cleared path (name :: above))
    (wellFormed : files.WellFormed) (kept : ¬files.Forfeited path (name :: above)) :
    path.text.utf8ByteSize ≤ maxSocketPathOctets ∧ name.utf8ByteSize ≤ maxNameOctets ∧
      (files.erase (name :: above)).spot path = .ok (.present above, .name name false) := by
  obtain ⟨_, _, _, same, spotted, short, -⟩ := cleared.exists_spot
  cases same
  obtain ⟨fits, apart⟩ := not_or.mp fun unbound => kept ⟨cleared, unbound⟩
  exact ⟨Nat.not_lt.mp fits, short,
    (wellFormed.spot_erase_iff cleared.solid spotted).mpr apart⟩

/-- **What is cleared can be replaced by a socket unless it is forfeited.** -/
theorem Cleared.bind_iff (cleared : files.Cleared path (name :: above))
    (wellFormed : files.WellFormed) (filled : path.text ≠ "")
    (clean : '\x00' ∉ path.text.toList) (inUse : List Address) {address : Address} :
    (files.erase (name :: above)).bind inUse path = .ok (address, later) ↔
      ¬files.Forfeited path (name :: above) ∧ address = .file files.nextNumber ∧
        later = (files.erase (name :: above)).create (name :: above) .socket := by
  have vacated := wellFormed.vacated_erase cleared.solid
  rw [bind_eq_ok_iff_vacancy filled clean]
  constructor
  · rintro ⟨fits, location, vacancy, rfl, rfl⟩
    obtain ⟨name', above', slash, spotted', -, -, -, -, rfl⟩ := vacancy_eq_ok_iff.mp vacancy
    obtain ⟨_, _, _, same, spotted, -⟩ := cleared.exists_spot
    cases same
    -- The path is spotted after the deletion where it was before.
    have same := spotted.symm.trans (vacated.shrinks.spot spotted')
    cases same
    refine ⟨fun forfeited => ?_, rfl, rfl⟩
    rcases forfeited.unbound with long | through
    · exact absurd fits (Nat.not_le.mpr long)
    · exact (wellFormed.spot_erase_iff cleared.solid spotted).mp spotted' through
  · rintro ⟨kept, rfl, rfl⟩
    obtain ⟨fits, short, spotted⟩ := cleared.spot_of_kept wellFormed kept
    -- The socket is to be created where something has just been deleted, so there is no lock.
    exact ⟨fits, _, vacancy_eq_ok_iff.mpr
      ⟨name, above, false, spotted, short, vacated.free, nofun,
        vacated.isLocked_eq.trans cleared.unlocked, rfl⟩, rfl, rfl⟩

end FileSystem

open FileSystem

namespace Server

variable {server : Server} {files : FileSystem}

/-! ## What comes of a start -/

/-- The server after an attempt to start it; a start that fails leaves it as it was. -/
def after (server : Server) : Except ServerError Server → Server
  | .ok started => started
  | .error _ => server

/-- What a start comes to. -/
inductive ComesTo (server : Server) (files : FileSystem) :
    Except ServerError Server × FileSystem → Prop where
  /-- Nothing is deleted, and the server is not started. -/
  | refused (cause : ServerError)
      (kept : ∀ location, ¬files.Forfeited server.socket location) :
      ComesTo server files (.error cause, files)
  /-- Something is deleted, and the server is not started. -/
  | forfeited (location : Location) (cause : SystemError)
      (lost : files.Forfeited server.socket location) :
      ComesTo server files (.error (.bind server.socket cause), files.erase location)
  /-- The server listens at a new socket. -/
  | placed (location : Location) (later : FileSystem)
      (kept : ∀ location, ¬files.Forfeited server.socket location)
      (placed : files.Placed later server.socket location) :
      ComesTo server files
        (.ok { server with listener := some (.file files.nextNumber) }, later)

/-- A start that has nothing to delete. -/
theorem start_comesTo_of_absent (inUse : List Address) (wellFormed : files.WellFormed)
    (numbered : files.Numbered) (filled : server.socket.text ≠ "")
    (clean : '\x00' ∉ server.socket.text.toList)
    (absent : files.pathExists server.socket = false) :
    ComesTo server files (server.start inUse files) := by
  have kept : ∀ location, ¬files.Forfeited server.socket location := fun location forfeited => by
    have leads := forfeited.leads
    rw [absent] at leads
    cases leads
  rw [start, absent]
  simp only [Bool.false_eq_true, if_false]
  cases bound : files.bind inUse server.socket with
  | error cause => exact .refused _ kept
  | ok bound' =>
      obtain ⟨address, later⟩ := bound'
      obtain ⟨fits, location, vacancy, rfl, rfl⟩ := (bind_eq_ok_iff_vacancy filled clean).mp bound
      obtain ⟨name, above, slash, spotted, short, free, bare, -, rfl⟩ :=
        vacancy_eq_ok_iff.mp vacancy
      have bare : slash = false := by simpa using bare
      rw [bare] at spotted
      exact .placed _ _ kept
        ((wellFormed.vacated_self free).placed numbered filled clean fits spotted short)

/-- **A start is refused, forfeits something or places a socket.** -/
theorem start_comesTo (inUse : List Address) (wellFormed : files.WellFormed)
    (numbered : files.Numbered) (filled : server.socket.text ≠ "")
    (clean : '\x00' ∉ server.socket.text.toList) :
    ComesTo server files (server.start inUse files) := by
  cases leads : files.pathExists server.socket with
  | false => exact start_comesTo_of_absent inUse wellFormed numbered filled clean leads
  | true =>
      rw [start, leads, if_pos rfl]
      cases deleted : files.unlink server.socket with
      | error cause =>
          refine .refused _ fun location forfeited => ?_
          have deleted' := (unlink_iff_cleared leads).mpr ⟨location, forfeited.toCleared, rfl⟩
          rw [deleted] at deleted'
          cases deleted'
      | ok vacant =>
          obtain ⟨location, cleared, rfl⟩ := (unlink_iff_cleared leads).mp deleted
          obtain ⟨name, above, -, rfl, -⟩ := cleared.exists_spot
          dsimp only
          cases bound : (files.erase (name :: above)).bind inUse server.socket with
          | error cause =>
              -- Only what is forfeited keeps the path from being bound.
              refine .forfeited _ cause (by_contra fun kept => ?_)
              have bound' := (cleared.bind_iff wellFormed filled clean inUse).mpr ⟨kept, rfl, rfl⟩
              rw [bound] at bound'
              cases bound'
          | ok bound' =>
              obtain ⟨address, later⟩ := bound'
              obtain ⟨kept, rfl, rfl⟩ := (cleared.bind_iff wellFormed filled clean inUse).mp bound
              obtain ⟨fits, short, spotted⟩ := cleared.spot_of_kept wellFormed kept
              refine .placed _ _ (fun other forfeited => ?_)
                ((wellFormed.vacated_erase cleared.solid).placed numbered filled clean fits
                  spotted short)
              exact kept (cleared.unique forfeited.toCleared ▸ forfeited)

end Server

/-! ## Starts that fail -/

/-- A file system with one object in its root. -/
def FileSystem.single (name : String) (node : Node) : FileSystem :=
  empty.create [name] node

theorem FileSystem.wellFormed_single {name : String} (legal : IsName name) (node : Node) :
    (single name node).WellFormed ∧ (single name node).Numbered :=
  ⟨wellFormed_empty.create wellFormed_empty.root legal rfl node,
    numbered_empty.create wellFormed_empty wellFormed_empty.root rfl node⟩

/-- **A start that fails changes nothing unless it has deleted what it cannot replace,** and then
it says that the socket cannot be bound; whichever it is, the server is not started.  A start that
succeeds puts a new socket in the place of what the path named, and changes nothing else. -/
theorem failed_start_harmless_iff {server : Server} {files : FileSystem} (inUse : List Address)
    (wellFormed : files.WellFormed) (numbered : files.Numbered) (idle : server.listener = none)
    (filled : server.socket.text ≠ "") (clean : '\x00' ∉ server.socket.text.toList) :
    let (result, later) := server.start inUse files
    (∀ cause, result = .error cause →
      (server.after result).checkStarted = .error .notStarted ∧
        (later = files ↔ ∀ location, ¬files.Forfeited server.socket location)) ∧
    (∀ location, files.Forfeited server.socket location →
      (∃ cause, result = .error (.bind server.socket cause)) ∧ later = files.erase location ∧
        (server.socket.text.utf8ByteSize ≤ maxSocketPathOctets →
          ∃ number target, files.object? location = some ⟨number, .link target⟩)) ∧
    ∀ started, result = .ok started →
      started.listener = some (.file files.nextNumber) ∧
        ∃ location, files.Placed later server.socket location := by
  have idle : server.checkStarted = .error .notStarted := by
    rw [Server.checkStarted, idle]
    rfl
  have comesTo := Server.start_comesTo inUse wellFormed numbered filled clean
  generalize server.start inUse files = outcome at comesTo
  cases comesTo with
  | refused cause kept =>
      refine ⟨fun _ _ => ⟨idle, by simpa using kept⟩, fun location lost => ?_, nofun⟩
      exact absurd lost (kept location)
  | forfeited location cause lost =>
      refine ⟨fun _ _ => ⟨idle, ?_⟩, fun other lost' => ?_, nofun⟩
      · obtain ⟨name, above, object, rfl, -, -, found, -⟩ := lost.exists_spot
        refine iff_of_false (fun same => ?_) fun kept => kept _ lost
        have gone := (wellFormed.vacated_erase lost.solid).free
        rw [same, found] at gone
        cases gone
      · obtain rfl := lost.unique lost'.toCleared
        exact ⟨⟨cause, rfl⟩, rfl, lost.isLink wellFormed⟩
  | placed location later kept placed =>
      refine ⟨nofun, fun other lost => absurd lost (kept other), ?_⟩
      rintro started same
      cases same
      exact ⟨rfl, location, placed⟩

/-- A path that goes through the link that it names: the link is lost, and the socket is not
bound. -/
theorem failed_start_harmless_iff_of_link_on_way :
    let files := FileSystem.single "l" (.link ⟨"."⟩)
    let server : Server := { socket := ⟨"/l/l"⟩ }
    files.WellFormed ∧ files.Numbered ∧ server.listener = none ∧ server.socket.text ≠ "" ∧
      '\x00' ∉ server.socket.text.toList ∧ files.Forfeited server.socket ["l"] ∧
      (∃ cause, (server.start [] files).1 = .error (.bind server.socket cause)) ∧
      (server.start [] files).2 = files.erase ["l"] := by
  intro files server
  have legal := Path.isName_of_fileName? (by decide : (Path.mk "l").fileName? = some "l")
  obtain ⟨wellFormed, numbered⟩ := wellFormed_single legal (.link ⟨"."⟩)
  have filled : server.socket.text ≠ "" := by decide
  have clean : '\x00' ∉ server.socket.text.toList := by decide +kernel
  have way : files.way server.socket = some ([], [.into "l"]) := by decide +kernel
  have lost : files.Forfeited server.socket ["l"] := {
    leads := by decide +kernel
    bare := ⟨"l", by decide +kernel⟩
    located := by decide +kernel
    solid := nofun
    unlocked := by decide +kernel
    unbound := .inr ⟨[], _, ["l"], way, .here _ _ _ _, List.suffix_refl _⟩ }
  obtain ⟨-, harm, -⟩ := failed_start_harmless_iff [] wellFormed numbered rfl filled clean
  obtain ⟨failed, left, -⟩ := harm ["l"] lost
  exact ⟨wellFormed, numbered, rfl, filled, clean, lost, failed, left⟩

/-- A name of 107 octets, so that its path in the root is too long for a socket. -/
def socketName : String :=
  String.ofList (List.replicate 107 'a')

/-- **A server that cannot be started deletes a file** whose path is too long for a socket. -/
theorem file_lost_without_socket :
    let files := FileSystem.single socketName (.file [1])
    let server : Server := { socket := ⟨"/" ++ socketName⟩ }
    files.WellFormed ∧ files.Numbered ∧ server.listener = none ∧ server.socket.text ≠ "" ∧
      '\x00' ∉ server.socket.text.toList ∧
      files.linkStatus server.socket = .ok (.file [1]) ∧
      (server.start [] files).1 = .error (.bind server.socket .socketPathTooLong) ∧
      (server.start [] files).2 ≠ files ∧
      (server.start [] files).2.linkStatus server.socket = .error (.errno .noEntry) := by
  intro files server
  have gone : (server.start [] files).2.linkStatus server.socket = .error (.errno .noEntry) := by
    decide +kernel
  have there : files.linkStatus server.socket = .ok (.file [1]) := by decide +kernel
  have legal := Path.isName_of_fileName?
    (by decide +kernel : (Path.mk socketName).fileName? = some socketName)
  obtain ⟨wellFormed, numbered⟩ := wellFormed_single legal (.file [1])
  refine ⟨wellFormed, numbered, rfl, by decide +kernel, by decide +kernel, there,
    by decide +kernel, fun same => ?_, gone⟩
  rw [same, there] at gone
  cases gone

end DownloadCache
