import DownloadCache.Proofs.Cache.Rejection
import DownloadCache.Proofs.Cache.Shelving
import Mathlib.Algebra.GroupWithZero.Nat

/-!
# Two budgets

Two caches with different budgets are asked for the same keys, each of which always has the same
size.  A key that a cache has is touched; one that it lacks is fetched and adopted.  The keys of
each cache, in the order of their last accesses, then make a row (`Ranked`), and the row of the
smaller cache is a suffix of the row of the larger one.

The step that carries this is the adoption in both caches.  Either drops the shortest prefix of its
row after which the file fits; what is left of the smaller row fits into the larger cache as well,
so no more than what stands before it is dropped there (`suffix_of_shortest`).  Hence a larger
budget never turns a hit into a miss (`larger_budget_keeps_hits`).
-/

namespace DownloadCache

set_option autoImplicit false

/-! ## Requests -/

/-- What is asked of a cache. -/
inductive Demand where
  /-- Remove a key. -/
  | remove (key : String)
  /-- Get the file of a key, or fetch it. -/
  | fetch (key : String)

/-- What a cache meets when something is asked of it. -/
structure Occasion where
  /-- The file system as others have left it. -/
  files : FileSystem
  /-- The reading of the clock. -/
  now : Instant
  /-- Where a fetched file is. -/
  staging : Path
  /-- The validators of a fetched file. -/
  validators : Validators

namespace Site

/-- The adoption of a fetched file. -/
def fetch (site : Site) (size : String → UInt64) (key : String) (occasion : Occasion) :
    Except AdoptionError Outcome × Site :=
  ({ site with files := occasion.files } : Site).add occasion.now key occasion.staging (size key)
    occasion.validators

/-- The site after a demand: a key that is there is touched, and one that is not is fetched. -/
def serve (site : Site) (size : String → UInt64) (occasion : Occasion) : Demand → Site
  | .remove key => (({ site with files := occasion.files } : Site).removeKey key).2
  | .fetch key =>
      if (site.cache.path? key).isSome then
        ({ site with files := occasion.files } : Site).touch occasion.now key
      else (site.fetch size key occasion).2

/-- Whether a file that is fetched for a demand, if one is, is adopted. -/
def Adopts (site : Site) (size : String → UInt64) (occasion : Occasion) : Demand → Prop
  | .remove _ => True
  | .fetch key =>
      (site.cache.path? key).isSome ∨ ∃ path, (site.fetch size key occasion).1 = .ok (.cached path)

/-- The site after demands, one after the other. -/
def serveAll (size : String → UInt64) : Site → List (Demand × Occasion) → Site
  | site, [] => site
  | site, (demand, occasion) :: rest => (site.serve size occasion demand).serveAll size rest

/-- Whether every file that is fetched is adopted. -/
def AdoptsAll (size : String → UInt64) : Site → List (Demand × Occasion) → Prop
  | _, [] => True
  | site, (demand, occasion) :: rest =>
      site.Adopts size occasion demand ∧ (site.serve size occasion demand).AdoptsAll size rest

/-! ## Rows of keys -/

/-- The sum of the sizes of keys. -/
def weight (size : String → UInt64) (keys : List String) : Nat :=
  (keys.map fun key => (size key).toNat).sum

/-- The keys of a sound site with a budget, in the order of their last accesses, none of them after
a reading of the clock; each has its fixed size. -/
structure Ranked (size : String → UInt64) (maxSize : UInt64) (latest : Instant) (site : Site)
    (keys : List String) : Prop where
  sound : site.Sound
  budget : site.cache.maxSize = maxSize
  shelf : ∃ shelf, Shelved latest site shelf ∧ shelf.items.map (·.key) = keys ∧
    ∀ item ∈ shelf.items, item.size = size item.key

theorem total_eq_weight {size : String → UInt64} {items : List Item}
    (sized : ∀ item ∈ items, item.size = size item.key) :
    Shelf.total items = weight size (items.map (·.key)) := by
  induction items with
  | nil => rfl
  | cons item rest ih =>
      rw [List.forall_mem_cons] at sized
      have rest := ih sized.2
      simp only [Shelf.total, weight, List.foldr_cons, List.map_cons, List.sum_cons] at rest ⊢
      rw [rest, sized.1]

/-- **What is left of the shorter row is left of the longer one.**  Of the first row so much is
dropped that a file fits, of the second no more than is needed for that in a larger budget. -/
theorem suffix_of_shortest {size : String → UInt64} {first second : List String}
    (suffix : first <:+ second) {dropped surplus fileSize small large : Nat}
    (fits : weight size (first.drop dropped) + fileSize ≤ small) (smaller : small ≤ large)
    (shortest : ∀ count < surplus, large < weight size (second.drop count) + fileSize) :
    first.drop dropped <:+ second.drop surplus := by
  obtain ⟨ahead, rfl⟩ := suffix
  -- So many keys stand before what is left of the first row; without them the file fits.
  have before : (ahead ++ first).drop (ahead.length + dropped) = first.drop dropped :=
    List.drop_length_add_append dropped
  have enough : surplus ≤ ahead.length + dropped := by
    by_contra more
    have lacks := shortest _ (Nat.not_le.mp more)
    rw [before] at lacks
    omega
  rw [← before]
  exact List.drop_suffix_drop_left _ enough

section Ranked

variable {size : String → UInt64} {maxSize : UInt64} {latest now : Instant} {site : Site}
  {keys : List String}

/-- The keys of the row are those that have a path. -/
theorem Ranked.isSome_path?_iff (ranked : Ranked size maxSize latest site keys) (key : String) :
    (site.cache.path? key).isSome ↔ key ∈ keys := by
  obtain ⟨shelf, shelved, rfl, -⟩ := ranked.shelf
  have found := shelved.item?_eq ranked.sound key
  have same : (site.cache.path? key).isSome = (shelf.item? key).isSome := by
    rw [found, Cache.path?, Option.isSome_map, Option.isSome_map]
  rw [same, Shelf.item?, List.find?_isSome, List.mem_map]
  simp only [beq_iff_eq]

/-- What others do to the file system does not concern the row. -/
theorem Ranked.withFiles (ranked : Ranked size maxSize latest site keys) (files : FileSystem) :
    Ranked size maxSize latest { site with files } keys := by
  obtain ⟨shelf, shelved, row⟩ := ranked.shelf
  exact ⟨ranked.sound.evolves (.of_cache_eq rfl), ranked.budget,
    shelf, ⟨shelved.items, shelved.dropped⟩, row⟩

theorem Ranked.later (ranked : Ranked size maxSize latest site keys) (later : latest ≤ now) :
    Ranked size maxSize now site keys := by
  obtain ⟨shelf, shelved, row⟩ := ranked.shelf
  exact ⟨ranked.sound, ranked.budget, shelf, shelved.later later, row⟩

/-- A key that is dropped leaves its row. -/
theorem Ranked.drop (ranked : Ranked size maxSize latest site keys) (key : String) :
    Ranked size maxSize latest (site.drop key) (keys.filter (· != key)) := by
  obtain ⟨shelf, shelved, rfl, sized⟩ := ranked.shelf
  refine ⟨ranked.sound.drop key, (site.evolves_drop key).maxSize.trans ranked.budget,
    shelf.remove key, shelved.drop key, ?_, fun item member => ?_⟩
  · rw [Shelf.remove, List.filter_map]
    rfl
  · exact sized item (List.mem_of_mem_filter member)

/-- A key that is touched goes to the end of its row. -/
theorem Ranked.touch (ranked : Ranked size maxSize latest site keys) (later : latest ≤ now)
    {key : String} (member : key ∈ keys) :
    Ranked size maxSize now (site.touch now key) (keys.filter (· != key) ++ [key]) := by
  have evolves := evolves_after ranked.sound.filled (.touch now key)
  obtain ⟨shelf, shelved, rfl, sized⟩ := ranked.shelf
  obtain ⟨item, found⟩ : ∃ item, shelf.item? key = some item := by
    obtain ⟨item, listed, same⟩ := List.mem_map.mp member
    exact Option.isSome_iff_exists.mp (List.find?_isSome.mpr ⟨item, listed, beq_iff_eq.mpr same⟩)
  have same : item.key = key := by
    have named := List.find?_some (p := fun listed : Item => listed.key == key) found
    exact beq_iff_eq.mp named
  refine ⟨ranked.sound.evolves evolves, evolves.maxSize.trans ranked.budget,
    shelf.touch key, shelved.touch ranked.sound later key, ?_, fun touched member => ?_⟩
  · rw [Shelf.touch, found, Shelf.remove, List.map_append, List.filter_map, Option.toList_some,
      List.map_singleton, same]
    rfl
  · rw [Shelf.touch, found, Shelf.remove, List.mem_append] at member
    rcases member with kept | last
    · exact sized touched (List.mem_of_mem_filter kept)
    · rw [Option.mem_toList, Option.some.injEq] at last
      exact last ▸ sized item (List.mem_of_find?_eq_some found)

/-- An adoption that succeeds found the file to be fit for it and could move it. -/
theorem verdict_of_cached {key : String} {staging target : Path} {fileSize : UInt64}
    {validators : Validators}
    (cached : (site.add now key staging fileSize validators).1 = .ok (.cached target)) :
    fileSize ≤ site.cache.maxSize ∧ staging.fileName? ≠ none ∧
      site.verdict key staging fileSize = ⟨true, some target⟩ := by
  have budget := (site.evolves_drop key).maxSize
  rw [Site.add] at cached
  split at cached
  · cases cached
  rename_i fits
  split at cached
  · cases cached
  rename_i fileName named
  split at cached
  · cases cached
  rename_i passed
  rw [budget] at fits
  refine ⟨UInt64.not_lt.mp fits, by simp [named], ?_⟩
  rw [verdict, passed, named, Option.getD_some]
  rcases settle_cases ((site.drop key).makeRoom fileSize) now key staging fileName fileSize
    validators with ⟨files, renamed, settled⟩ | ⟨cause, settled⟩
  · rw [settled] at cached
    cases cached
    rw [renamed]
    rfl
  · rw [settled] at cached
    cases cached

/-- **A file that is adopted pushes out the shortest prefix of the row after which it fits,** and
its key goes to the end. -/
theorem Ranked.adopt (ranked : Ranked size maxSize latest site keys) (later : latest ≤ now)
    {key : String} (absent : key ∉ keys) {staging target : Path} {validators : Validators}
    (cached : (site.add now key staging (size key) validators).1 = .ok (.cached target)) :
    ∃ surplus,
      Ranked size maxSize now (site.add now key staging (size key) validators).2
        (keys.drop surplus ++ [key]) ∧
      weight size (keys.drop surplus) + (size key).toNat ≤ maxSize.toNat ∧
      ∀ count < surplus, maxSize.toNat < weight size (keys.drop count) + (size key).toNat := by
  have evolves := evolves_after ranked.sound.filled (.add now key staging (size key) validators)
  have untracked : site.cache.index.entry? key = none := by
    have lacks := (not_congr (ranked.isSome_path?_iff key)).mpr absent
    simpa [Cache.path?] using lacks
  obtain ⟨fits, named, verdict⟩ := verdict_of_cached cached
  obtain ⟨shelf, shelved, rfl, sized⟩ := ranked.shelf
  have added := shelved.add ranked.sound later key staging (size key) validators
  rw [ranked.budget] at fits added
  rw [Shelf.add, verdict, shelved.remove_untracked untracked,
    if_neg (by simp [named, UInt64.not_lt.mpr fits])] at added
  have spec := Shelf.surplus_spec shelf.items fits
  have weighs (count : Nat) : Shelf.total (shelf.items.drop count) =
      weight size ((shelf.items.map (·.key)).drop count) := by
    rw [← List.map_drop]
    exact total_eq_weight fun item member => sized item (List.mem_of_mem_drop member)
  simp only [weighs] at spec
  refine ⟨_, ⟨ranked.sound.evolves evolves, evolves.maxSize.trans ranked.budget, _, added, ?_,
    fun item member => ?_⟩, spec⟩
  · simp only [Shelf.place, Shelf.makeRoom, Shelf.dropFirst, List.map_append, List.map_drop,
      List.map_singleton]
  · rcases List.mem_append.mp member with kept | last
    · exact sized item (List.mem_of_mem_drop kept)
    · rw [List.mem_singleton.mp last]

end Ranked

/-! ## Both caches -/

section Both

variable {size : String → UInt64} {small large : UInt64} {latest₁ latest₂ : Instant}
  {site₁ site₂ : Site}

/-- The row of one site is a suffix of the row of another one with a larger budget. -/
structure Included (size : String → UInt64) (small large : UInt64) (latest₁ latest₂ : Instant)
    (site₁ site₂ : Site) : Prop where
  smaller : small ≤ large
  rows : ∃ keys₁ keys₂, Ranked size small latest₁ site₁ keys₁ ∧
    Ranked size large latest₂ site₂ keys₂ ∧ keys₁ <:+ keys₂

/-- A key that the first site has is one that the second site has. -/
theorem Included.isSome_path? (included : Included size small large latest₁ latest₂ site₁ site₂)
    {key : String} (hit : (site₁.cache.path? key).isSome) : (site₂.cache.path? key).isSome := by
  obtain ⟨keys₁, keys₂, first, second, suffix⟩ := included.rows
  exact (second.isSome_path?_iff key).mpr (suffix.subset ((first.isSome_path?_iff key).mp hit))

/-- **A demand keeps the rows so.**  A key that is dropped leaves both rows; one that is there goes
to the end; one that is fetched pushes out no more of the second row than stands before what is
left of the first. -/
theorem Included.serve (included : Included size small large latest₁ latest₂ site₁ site₂)
    {occasion₁ occasion₂ : Occasion} (later₁ : latest₁ ≤ occasion₁.now)
    (later₂ : latest₂ ≤ occasion₂.now) (demand : Demand)
    (adopts₁ : site₁.Adopts size occasion₁ demand) (adopts₂ : site₂.Adopts size occasion₂ demand) :
    Included size small large occasion₁.now occasion₂.now (site₁.serve size occasion₁ demand)
      (site₂.serve size occasion₂ demand) := by
  obtain ⟨keys₁, keys₂, first, second, suffix⟩ := included.rows
  have smaller : small.toNat ≤ large.toNat := UInt64.le_iff_toNat_le.mp included.smaller
  have first := first.withFiles occasion₁.files
  have second := second.withFiles occasion₂.files
  refine ⟨included.smaller, ?_⟩
  cases demand with
  | remove key =>
      exact ⟨_, _, (first.drop key).later later₁, (second.drop key).later later₂, suffix.filter _⟩
  | fetch key =>
      have ends {row₁ row₂ : List String} (suffix : row₁ <:+ row₂) :
          row₁ ++ [key] <:+ row₂ ++ [key] := List.suffix_append_self_iff.mpr suffix
      by_cases hit₁ : (site₁.cache.path? key).isSome
      · have hit₂ := included.isSome_path? hit₁
        rw [Site.serve, Site.serve, if_pos hit₁, if_pos hit₂]
        exact ⟨_, _, first.touch later₁ ((first.isSome_path?_iff key).mp hit₁),
          second.touch later₂ ((second.isSome_path?_iff key).mp hit₂), ends (suffix.filter _)⟩
      obtain ⟨target₁, cached₁⟩ := adopts₁.resolve_left hit₁
      have absent₁ := mt (first.isSome_path?_iff key).mpr hit₁
      obtain ⟨dropped, adopted₁, fits, -⟩ := first.adopt later₁ absent₁ cached₁
      rw [Site.serve, if_neg hit₁]
      by_cases hit₂ : (site₂.cache.path? key).isSome
      · rw [Site.serve, if_pos hit₂]
        refine ⟨_, _, adopted₁, second.touch later₂ ((second.isSome_path?_iff key).mp hit₂),
          ends ((List.drop_suffix dropped keys₁).trans ?_)⟩
        have kept : keys₁.filter (· != key) = keys₁ :=
          List.filter_eq_self.mpr fun listed member => bne_iff_ne.mpr
            fun same => absent₁ (same ▸ member)
        rw [← kept]
        exact suffix.filter _
      · obtain ⟨target₂, cached₂⟩ := adopts₂.resolve_left hit₂
        have absent₂ := mt (second.isSome_path?_iff key).mpr hit₂
        obtain ⟨surplus, adopted₂, -, shortest⟩ := second.adopt later₂ absent₂ cached₂
        rw [Site.serve, if_neg hit₂]
        exact ⟨_, _, adopted₁, adopted₂, ends (suffix_of_shortest suffix fits smaller shortest)⟩

end Both

end Site

/-! ## Runs -/

/-- A demand that is made of two caches. -/
structure Round where
  demand : Demand
  /-- What the first cache meets. -/
  first : Occasion
  /-- What the second cache meets. -/
  second : Occasion

/-- What a round is for the first cache. -/
def Round.atFirst (round : Round) : Demand × Occasion :=
  (round.demand, round.first)

/-- What a round is for the second cache. -/
def Round.atSecond (round : Round) : Demand × Occasion :=
  (round.demand, round.second)

/-- What is adopted in a whole run is adopted in the rounds that come first. -/
theorem Site.AdoptsAll.take {size : String → UInt64} {site : Site}
    {demands : List (Demand × Occasion)} (adopts : site.AdoptsAll size demands) (count : Nat) :
    site.AdoptsAll size (demands.take count) := by
  induction demands generalizing site count with
  | nil => rw [List.take_nil]; exact adopts
  | cons first rest ih =>
      cases count with
      | zero => trivial
      | succ count => exact ⟨adopts.1, ih adopts.2 count⟩

/-- Rounds keep the row of one site a suffix of the row of the other. -/
theorem Site.Included.serveAll {size : String → UInt64} {small large : UInt64}
    {latest₁ latest₂ : Instant} {site₁ site₂ : Site}
    (included : Included size small large latest₁ latest₂ site₁ site₂) {rounds : List Round}
    (clock₁ : (latest₁ :: rounds.map (·.first.now)).Pairwise (· ≤ ·))
    (clock₂ : (latest₂ :: rounds.map (·.second.now)).Pairwise (· ≤ ·))
    (adopts₁ : site₁.AdoptsAll size (rounds.map Round.atFirst))
    (adopts₂ : site₂.AdoptsAll size (rounds.map Round.atSecond)) :
    ∃ latest₁ latest₂, Included size small large latest₁ latest₂
      (site₁.serveAll size (rounds.map Round.atFirst))
      (site₂.serveAll size (rounds.map Round.atSecond)) := by
  induction rounds generalizing latest₁ latest₂ site₁ site₂ with
  | nil => exact ⟨latest₁, latest₂, included⟩
  | cons round rest ih =>
      obtain ⟨earliest₁, clock₁⟩ := List.pairwise_cons.mp clock₁
      obtain ⟨earliest₂, clock₂⟩ := List.pairwise_cons.mp clock₂
      have served := included.serve (earliest₁ _ List.mem_cons_self)
        (earliest₂ _ List.mem_cons_self) round.demand adopts₁.1 adopts₂.1
      exact ih served clock₁ clock₂ adopts₁.2 adopts₂.2

section Opened

variable {files opened : FileSystem} {directory : Path} {maxSize : UInt64} {verifySize : Bool}
  {cache : Cache}

/-- A cache that has just been opened has an empty row. -/
theorem ranked_of_openCache
    (opens : files.openCache directory maxSize verifySize = (.ok cache, opened))
    (below : maxSize < 0xffffffffffffffff) (size : String → UInt64) :
    Site.Ranked size maxSize 0 ⟨cache, opened⟩ [] := by
  obtain ⟨-, -, -, budget, -, empty⟩ := eq_of_openCache opens
  refine ⟨sound_of_openCache opens below, budget, {}, ⟨⟨[], ?_, rfl⟩, empty ▸ rfl⟩, rfl, nofun⟩
  exact empty ▸ Index.ordered_empty 0

end Opened

section Budgets

variable {files₁ files₂ opened₁ opened₂ : FileSystem} {directory₁ directory₂ : Path}
  {small large : UInt64} {verifySize₁ verifySize₂ : Bool} {cache₁ cache₂ : Cache}

/-- **A larger budget never turns a hit into a miss.**  Two caches are opened with a budget each,
the first not larger than the second, and are asked for the same: in every round a key is removed
from both, or each of them that has the key touches it and the other one fetches and adopts it, at
the size that the key always has.  If every file that is fetched is adopted and the clock of neither
cache goes backwards, then after every round the second cache has each key that the first one has.
The file systems, directories, staging files and validators of the two have nothing to do with each
other, and others may change the file systems between the rounds. -/
theorem larger_budget_keeps_hits
    (opens₁ : files₁.openCache directory₁ small verifySize₁ = (.ok cache₁, opened₁))
    (opens₂ : files₂.openCache directory₂ large verifySize₂ = (.ok cache₂, opened₂))
    (smaller : small ≤ large) (below : large < 0xffffffffffffffff) (size : String → UInt64)
    (rounds : List Round)
    (clock₁ : (rounds.map (·.first.now)).Pairwise (· ≤ ·))
    (clock₂ : (rounds.map (·.second.now)).Pairwise (· ≤ ·))
    (adopts₁ : (Site.mk cache₁ opened₁).AdoptsAll size (rounds.map Round.atFirst))
    (adopts₂ : (Site.mk cache₂ opened₂).AdoptsAll size (rounds.map Round.atSecond))
    (count : Nat) (key : String) :
    let first := (Site.mk cache₁ opened₁).serveAll size ((rounds.take count).map Round.atFirst)
    let second := (Site.mk cache₂ opened₂).serveAll size ((rounds.take count).map Round.atSecond)
    (first.cache.path? key).isSome → (second.cache.path? key).isSome := by
  intro first second
  have start : Site.Included size small large 0 0 ⟨cache₁, opened₁⟩ ⟨cache₂, opened₂⟩ :=
    ⟨smaller, [], [], ranked_of_openCache opens₁ (UInt64.lt_of_le_of_lt smaller below) size,
      ranked_of_openCache opens₂ below size, List.suffix_refl []⟩
  have taken₁ := adopts₁.take count
  have taken₂ := adopts₂.take count
  rw [← List.map_take] at taken₁ taken₂
  have later {readings : List Instant} (clock : readings.Pairwise (· ≤ ·)) :
      (0 :: readings.take count).Pairwise (· ≤ ·) :=
    List.pairwise_cons.mpr ⟨fun _ _ => Nat.zero_le _, clock.sublist (List.take_sublist _ _)⟩
  have clock₁ := later clock₁
  have clock₂ := later clock₂
  rw [← List.map_take] at clock₁ clock₂
  obtain ⟨latest₁, latest₂, included⟩ := start.serveAll clock₁ clock₂ taken₁ taken₂
  exact included.isSome_path?

end Budgets

/-- Three files are fetched, each of one byte: with a budget of two bytes the first one has to go,
with one of three bytes it stays. -/
theorem larger_budget_keeps_hits_of_three_fetches :
    let disk := ((FileSystem.empty.create ["x"] (.file [1])).create ["y"] (.file [2])).create ["z"]
      (.file [3])
    let opened := disk.create ["c"] .directory
    let site (budget : UInt64) := Site.mk ⟨⟨"/c"⟩, budget, false, {}⟩ opened
    let adoptions : List Event :=
      [.add 1 "a" ⟨"/x"⟩ 1 {}, .add 2 "b" ⟨"/y"⟩ 1 {}, .add 3 "d" ⟨"/z"⟩ 1 {}]
    let occasion (budget : UInt64) (number : Nat) (staging : Path) : Occasion :=
      ⟨((site budget).run (adoptions.take number)).files, number, staging, {}⟩
    let rounds : List Round :=
      [⟨.fetch "a", occasion 2 0 ⟨"/x"⟩, occasion 3 0 ⟨"/x"⟩⟩,
        ⟨.fetch "b", occasion 2 1 ⟨"/y"⟩, occasion 3 1 ⟨"/y"⟩⟩,
        ⟨.fetch "d", occasion 2 2 ⟨"/z"⟩, occasion 3 2 ⟨"/z"⟩⟩]
    let first := (site 2).serveAll (fun _ => 1) (rounds.map Round.atFirst)
    let second := (site 3).serveAll (fun _ => 1) (rounds.map Round.atSecond)
    disk.openCache ⟨"/c"⟩ 2 false = (.ok (site 2).cache, opened) ∧
      disk.openCache ⟨"/c"⟩ 3 false = (.ok (site 3).cache, opened) ∧
      (2 : UInt64) ≤ 3 ∧ (3 : UInt64) < 0xffffffffffffffff ∧
      (rounds.map (·.first.now)).Pairwise (· ≤ ·) ∧ (rounds.map (·.second.now)).Pairwise (· ≤ ·) ∧
      (site 2).AdoptsAll (fun _ => 1) (rounds.map Round.atFirst) ∧
      (site 3).AdoptsAll (fun _ => 1) (rounds.map Round.atSecond) ∧
      first.cache.path? "a" = none ∧ second.cache.path? "a" = some ⟨"/c/x"⟩ ∧
      ∀ key, (first.cache.path? key).isSome → (second.cache.path? key).isSome := by
  intro disk opened site adoptions occasion rounds first second
  have opens₁ : disk.openCache ⟨"/c"⟩ 2 false = (.ok (site 2).cache, opened) := by decide +kernel
  have opens₂ : disk.openCache ⟨"/c"⟩ 3 false = (.ok (site 3).cache, opened) := by decide +kernel
  have smaller : (2 : UInt64) ≤ 3 := by decide
  have below : (3 : UInt64) < 0xffffffffffffffff := by decide
  have clock₁ : (rounds.map (·.first.now)).Pairwise (· ≤ ·) := by decide
  have clock₂ : (rounds.map (·.second.now)).Pairwise (· ≤ ·) := by decide
  have adopts₁ : (site 2).AdoptsAll (fun _ => 1) (rounds.map Round.atFirst) :=
    ⟨.inr ⟨⟨"/c/x"⟩, by decide +kernel⟩, .inr ⟨⟨"/c/y"⟩, by decide +kernel⟩,
      .inr ⟨⟨"/c/z"⟩, by decide +kernel⟩, trivial⟩
  have adopts₂ : (site 3).AdoptsAll (fun _ => 1) (rounds.map Round.atSecond) :=
    ⟨.inr ⟨⟨"/c/x"⟩, by decide +kernel⟩, .inr ⟨⟨"/c/y"⟩, by decide +kernel⟩,
      .inr ⟨⟨"/c/z"⟩, by decide +kernel⟩, trivial⟩
  refine ⟨opens₁, opens₂, smaller, below, clock₁, clock₂, adopts₁, adopts₂, ?_, ?_, fun key => ?_⟩
  · decide +kernel
  · decide +kernel
  · exact larger_budget_keeps_hits opens₁ opens₂ smaller below (fun _ => 1) rounds clock₁ clock₂
      adopts₁ adopts₂ 3 key

end DownloadCache
