import DownloadCache.Proofs.Cache.Likeness

/-!
# Calls that leave no trace

Some calls to a cache are idle: nobody can tell afterwards whether they have been made.  To ask for
a path, for validators or for the usage is always idle.  To count an access is so for a key that has
no entry, and for one that has just been accessed or adopted; to remove a key, for one that has no
entry (`Idle`).

An idle access does change the cache: it draws a ticket and notes a clock reading, so all later
accesses get other ones.  But it leaves the entries in the same order, hence the site alike to the
one without the call, and alike sites answer every later call in the same way and change their files
in the same way (`Alike.call`, `Alike.proceed`).  So a call that is put into a run where it is idle
is not seen later (`idle_call_unseen`).
-/

namespace DownloadCache

set_option autoImplicit false

/-! ## Calls -/

/-- The event with another reading of the clock. -/
def Event.retimed (now : Instant) : Event → Event
  | .add _ key staging size validators => .add now key staging size validators
  | .touch _ key => .touch now key
  | event => event

/-- A call to a cache, or something that others do to the file system. -/
inductive Call where
  | act (event : Event)
  | path (key : String)
  | validators (key : String)
  | usage

/-- The clock reading that comes with a call. -/
def Call.reading? : Call → Option Instant
  | .act event => event.reading?
  | _ => none

/-- The same call, with whatever the clock shows. -/
inductive Call.Retimed : Call → Call → Prop where
  | act (event : Event) (now : Instant) : Retimed (.act event) (.act (event.retimed now))
  | path (key : String) : Retimed (.path key) (.path key)
  | validators (key : String) : Retimed (.validators key) (.validators key)
  | usage : Retimed .usage .usage

/-- What is answered to a call. -/
inductive Reply where
  | adopted (result : Except AdoptionError Outcome)
  | removed (found : Bool)
  | discarded (result : Except RemovalError Bool)
  | swept (result : Except SweepError SweepCounts)
  | path (path : Option Path)
  | validators (validators : Option Validators)
  | usage (usage : Usage)
  | none

/-- What can be seen of a call: the reply, and the usage and the files after it. -/
structure Sight where
  reply : Reply
  usage : Usage
  files : FileSystem

namespace Site

/-- What a site answers to a call. -/
def reply (site : Site) : Call → Reply
  | .act (.add now key staging size validators) =>
      .adopted (site.add now key staging size validators).1
  | .act (.removeKey key) => .removed (site.removeKey key).1
  | .act (.removeUntracked path) => .discarded (site.removeUntracked path).1
  | .act .sweep => .swept site.sweep.1
  | .act _ => .none
  | .path key => .path (site.cache.path? key)
  | .validators key => .validators (site.cache.validators? key)
  | .usage => .usage site.cache.usage

/-- The site after a call. -/
def afterCall (site : Site) : Call → Site
  | .act event => site.after event
  | _ => site

/-- The site after calls, one after the other. -/
def proceed (site : Site) (calls : List Call) : Site :=
  calls.foldl afterCall site

/-- What can be seen of calls, one after the other. -/
def sights : Site → List Call → List Sight
  | _, [] => []
  | site, call :: rest =>
      let later := site.afterCall call
      ⟨site.reply call, later.cache.usage, later.files⟩ :: later.sights rest

theorem proceed_append (site : Site) (first second : List Call) :
    site.proceed (first ++ second) = (site.proceed first).proceed second :=
  List.foldl_append

/-- A call that nobody can tell to have been made after some others. -/
inductive Idle (start : Site) : List Call → Call → Prop where
  | path (before : List Call) (key : String) : Idle start before (.path key)
  | validators (before : List Call) (key : String) : Idle start before (.validators key)
  | usage (before : List Call) : Idle start before .usage
  | removeUntracked {before : List Call} {key : String}
      (untracked : (start.proceed before).cache.path? key = none) :
      Idle start before (.act (.removeKey key))
  | touchUntracked {before : List Call} {key : String}
      (untracked : (start.proceed before).cache.path? key = none) (now : Instant) :
      Idle start before (.act (.touch now key))
  | touchAgain (earlier : List Call) (first second : Instant) (key : String) :
      Idle start (earlier ++ [.act (.touch first key)]) (.act (.touch second key))
  | touchAdopted {earlier : List Call} {first : Instant} {key : String} {staging : Path}
      {size : UInt64} {validators : Validators} {path : Path}
      (cached : ((start.proceed earlier).add first key staging size validators).1 =
        .ok (.cached path)) (second : Instant) :
      Idle start (earlier ++ [.act (.add first key staging size validators)])
        (.act (.touch second key))

/-! ## The clock -/

/-- The clock readings that come with some calls do not fall, and none is before a first one. -/
def Punctual (first : Instant) (calls : List Call) : Prop :=
  (first :: calls.filterMap Call.reading?).Pairwise (· ≤ ·)

variable {latest latest' now : Instant} {site other : Site} {made made' : Call}
  {others : List Call}

theorem Punctual.le_reading (punctual : Punctual latest (made :: others)) :
    ∀ now, made.reading? = some now → latest ≤ now := by
  intro now reading
  rw [Punctual, List.filterMap_cons_some reading] at punctual
  exact (List.pairwise_cons.mp punctual).1 now List.mem_cons_self

theorem Punctual.rest (punctual : Punctual latest (made :: others)) :
    Punctual (made.reading?.getD latest) others := by
  rw [Punctual] at punctual ⊢
  cases reading : made.reading? with
  | none => rwa [List.filterMap_cons_none reading] at punctual
  | some now =>
      rw [List.filterMap_cons_some reading] at punctual
      exact (List.pairwise_cons.mp punctual).2

/-- The clock reading after some calls. -/
def lastReading (first : Instant) (calls : List Call) : Instant :=
  calls.foldl (fun latest call => call.reading?.getD latest) first

/-- A beginning is punctual, and so is what follows it. -/
theorem Punctual.parts {before : List Call} (punctual : Punctual latest (before ++ others)) :
    Punctual latest before ∧ Punctual (lastReading latest before) others := by
  constructor
  · rw [Punctual, List.filterMap_append] at punctual
    exact punctual.sublist ((List.sublist_append_left _ _).cons_cons _)
  · induction before generalizing latest with
    | nil => exact punctual
    | cons call before ih => exact ih (rest punctual)

/-! ## Calls to sites that are alike -/

/-- Sites that are alike stay so whatever happens to both. -/
theorem Alike.after (alike : Alike latest latest' site other) (event : Event) (now : Instant)
    (later : ∀ now, event.reading? = some now → latest ≤ now)
    (later' : ∀ reading, (event.retimed now).reading? = some reading → latest' ≤ reading) :
    other.reply (.act (event.retimed now)) = site.reply (.act event) ∧
      Alike (event.reading?.getD latest) ((event.retimed now).reading?.getD latest')
        (site.after event) (other.after (event.retimed now)) := by
  cases event with
  | add first key staging size validators =>
      have added := alike.add (later _ rfl) (later' _ rfl) key staging size validators
      exact ⟨congrArg Reply.adopted added.1, added.2⟩
  | touch first key => exact ⟨rfl, alike.touch (later _ rfl) (later' _ rfl) key⟩
  | removeKey key => exact ⟨congrArg Reply.removed (alike.isSome_entry? key), alike.drop key⟩
  | removeUntracked path =>
      have removed := alike.removeUntracked path
      exact ⟨congrArg Reply.discarded removed.1, removed.2⟩
  | sweep => exact ⟨congrArg Reply.swept alike.sweep.1, alike.sweep.2⟩
  | outside files => exact ⟨rfl, alike.outside files⟩

/-- **Sites that are alike answer alike and stay alike.** -/
theorem Alike.call (alike : Alike latest latest' site other) (retimed : made.Retimed made')
    (later : ∀ now, made.reading? = some now → latest ≤ now)
    (later' : ∀ now, made'.reading? = some now → latest' ≤ now) :
    other.reply made' = site.reply made ∧
      Alike (made.reading?.getD latest) (made'.reading?.getD latest') (site.afterCall made)
        (other.afterCall made') := by
  cases retimed with
  | act event now => exact alike.after event now later later'
  | path key => exact ⟨congrArg Reply.path (alike.path?_eq key), alike⟩
  | validators key => exact ⟨congrArg Reply.validators (alike.validators?_eq key), alike⟩
  | usage => exact ⟨congrArg Reply.usage alike.usage_eq, alike⟩

/-- The same is seen of the same calls to sites that are alike. -/
theorem Alike.sights_eq (alike : Alike latest latest' site other) {calls calls' : List Call}
    (retimed : List.Forall₂ Call.Retimed calls calls') (punctual : Punctual latest calls)
    (punctual' : Punctual latest' calls') : other.sights calls' = site.sights calls := by
  induction retimed generalizing latest latest' site other with
  | nil => rfl
  | cons first _ ih =>
      obtain ⟨reply, later⟩ := alike.call first punctual.le_reading punctual'.le_reading
      rw [sights, sights, reply, later.usage_eq, later.files_eq,
        ih later punctual.rest punctual'.rest]

/-! ## Idle calls -/

/-- A site stays sound and shelved through calls. -/
theorem Shelved.proceed {shelf : Shelf} (shelved : Shelved latest site shelf)
    (sound : Sound site) {calls : List Call} (punctual : Punctual latest calls) :
    Sound (site.proceed calls) ∧
      ∃ shelf, Shelved (lastReading latest calls) (site.proceed calls) shelf := by
  induction calls generalizing latest site shelf with
  | nil => exact ⟨sound, shelf, shelved⟩
  | cons call rest ih =>
      have step : Sound (site.afterCall call) ∧
          ∃ shelf, Shelved (call.reading?.getD latest) (site.afterCall call) shelf := by
        cases call with
        | act event =>
            exact ⟨sound.evolves (evolves_after sound.filled event),
              _, shelved.after sound event punctual.le_reading⟩
        | _ => exact ⟨sound, shelf, shelved⟩
      obtain ⟨sound', shelf', shelved'⟩ := step
      exact ih shelved' sound' punctual.rest

/-- An access that changes nothing on the shelf leaves the site alike. -/
theorem Shelved.alike_touch {shelf : Shelf} (shelved : Shelved latest site shelf)
    (sound : Sound site) (later : latest ≤ now) {key : String} (same : shelf.touch key = shelf) :
    Alike latest now site (site.touch now key) := by
  refine ⟨sound, ?_, ⟨shelf, shelved, ?_⟩, rfl⟩
  · exact sound.evolves (evolves_after sound.filled (.touch now key))
  · exact same ▸ shelved.touch sound later key

/-- An access to a key that has no entry changes nothing on the shelf. -/
theorem Shelved.touch_eq_of_untracked {shelf : Shelf} (shelved : Shelved latest site shelf)
    (sound : Sound site) {key : String} (untracked : site.cache.index.entry? key = none) :
    shelf.touch key = shelf := by
  refine Shelf.touch_of_untracked ?_
  rw [shelved.item?_eq sound, untracked, Option.map_none]

/-- After an adoption that answers with a path, an access to its key changes nothing on the
shelf. -/
theorem Shelved.exists_touch_eq_of_cached {shelf : Shelf} (shelved : Shelved latest site shelf)
    (sound : Sound site) {key : String} {staging : Path} {size : UInt64} {validators : Validators}
    {path : Path} (later : latest ≤ now)
    (cached : (site.add now key staging size validators).1 = .ok (.cached path)) :
    ∃ shelf, Shelved now (site.add now key staging size validators).2 shelf ∧
      shelf.touch key = shelf := by
  rcases site.add_cases now key staging size validators with
    remains | ⟨fileName, files, -, -, added⟩
  · rw [cached] at remains
    cases remains
  · have made := (shelved.drop key).makeRoom (sound.drop key) size
    have entered := made.insert later key ((site.ready key size).destination fileName) size
      validators files
    rw [added]
    refine ⟨_, entered, ?_⟩
    let item : Item := ⟨key, (site.ready key size).destination fileName, size, validators⟩
    refine Shelf.touch_of_last (show _ = _ ++ [item] from rfl) fun other member => ?_
    exact Shelf.key_ne_of_mem_remove (List.mem_of_mem_drop member)

/-- **An idle call leaves a site alike to the one without it.** -/
theorem Idle.alike {start : Site} {shelf : Shelf} {before : List Call} {idle : Call}
    (harmless : Idle start before idle) (shelved : Shelved latest start shelf)
    (sound : Sound start) {after : List Call}
    (punctual : Punctual latest (before ++ idle :: after)) :
    Alike (lastReading latest before) (lastReading latest (before ++ [idle]))
      (start.proceed before) ((start.proceed before).afterCall idle) := by
  obtain ⟨first, second⟩ := punctual.parts
  obtain ⟨sound', shelf', shelved'⟩ := shelved.proceed sound first
  have reading := second.le_reading
  have last : lastReading latest (before ++ [idle]) =
      idle.reading?.getD (lastReading latest before) := List.foldl_append
  rw [last]
  cases harmless with
  | path | validators | usage => exact .refl sound' shelved'
  | @removeUntracked _ key untracked =>
      have absent := Option.map_eq_none_iff.mp untracked
      have same : (start.proceed before).drop key = start.proceed before := by
        rw [Site.drop, absent]
      change Alike _ _ (start.proceed before) ((start.proceed before).drop key)
      rw [same]
      exact .refl sound' shelved'
  | @touchUntracked _ key untracked now =>
      have absent := Option.map_eq_none_iff.mp untracked
      exact shelved'.alike_touch sound' (reading now rfl)
        (shelved'.touch_eq_of_untracked sound' absent)
  | touchAgain earlier previous now key =>
      obtain ⟨early, late⟩ := first.parts
      obtain ⟨sound'', shelf'', shelved''⟩ := shelved.proceed sound early
      have accessed := shelved''.touch sound'' (late.le_reading previous rfl) key
      have again := reading now rfl
      rw [proceed_append] at sound' ⊢
      rw [lastReading, List.foldl_append] at again ⊢
      exact accessed.alike_touch sound' again (shelf''.touch_touch key)
  | @touchAdopted earlier previous key staging size validators path cached now =>
      obtain ⟨early, late⟩ := first.parts
      obtain ⟨sound'', shelf'', shelved''⟩ := shelved.proceed sound early
      obtain ⟨_, adopted, same⟩ :=
        shelved''.exists_touch_eq_of_cached sound'' (late.le_reading previous rfl) cached
      have again := reading now rfl
      rw [proceed_append] at sound' ⊢
      rw [lastReading, List.foldl_append] at again ⊢
      exact adopted.alike_touch sound' again same

end Site

/-- **An idle call is not seen later.**  A run of calls to a cache since it was opened, in which the
clock does not go backwards, is made once more with an idle call put into it, and with whatever the
clock then shows after that call, if it still does not go backwards.  The call leaves the usage and
the files as they are, and all calls after it have the same replies as in the run without it, the
usage after each of them is the same, and so is the file system. -/
theorem idle_call_unseen {files opened : FileSystem} {directory : Path} {maxSize : UInt64}
    {verifySize : Bool} {cache : Cache}
    (opens : files.openCache directory maxSize verifySize = (.ok cache, opened))
    (below : maxSize < 0xffffffffffffffff) {before after after' : List Call} {idle : Call}
    (harmless : Site.Idle ⟨cache, opened⟩ before idle)
    (retimed : List.Forall₂ Call.Retimed after after')
    (clock : ((before ++ after).filterMap Call.reading?).Pairwise (· ≤ ·))
    (clock' : ((before ++ idle :: after').filterMap Call.reading?).Pairwise (· ≤ ·)) :
    let site := (Site.mk cache opened).proceed before
    let idled := site.afterCall idle
    idled.cache.usage = site.cache.usage ∧ idled.files = site.files ∧
      idled.sights after' = site.sights after := by
  intro site idled
  have sound : (Site.mk cache opened).Sound := sound_of_openCache opens below
  have start : Site.Shelved 0 ⟨cache, opened⟩ {} := shelved_of_openCache opens
  have punctual : Site.Punctual 0 (before ++ after) :=
    List.pairwise_cons.mpr ⟨fun _ _ => Nat.zero_le _, clock⟩
  have punctual' : Site.Punctual 0 (before ++ idle :: after') :=
    List.pairwise_cons.mpr ⟨fun _ _ => Nat.zero_le _, clock'⟩
  have alike := harmless.alike start sound punctual'
  rw [List.append_cons] at punctual'
  exact ⟨alike.usage_eq, alike.files_eq,
    alike.sights_eq retimed punctual.parts.2 punctual'.parts.2⟩

/-- An access right after an adoption takes a later clock reading and moves those of all later
calls, but the eviction that follows takes the same key. -/
theorem idle_call_unseen_of_access_after_adoption :
    let disk := ((FileSystem.empty.create ["x"] (.file [1])).create ["y"] (.file [2])).create ["z"]
      (.file [3])
    let opened := disk.create ["c"] .directory
    let earlier : List Call := [.act (.add 5 "a" ⟨"/x"⟩ 1 {})]
    let before := earlier ++ [.act (.add 5 "b" ⟨"/y"⟩ 1 {})]
    let after : List Call := [.act (.add 5 "d" ⟨"/z"⟩ 1 {}), .path "a"]
    let after' : List Call := [.act (.add 8 "d" ⟨"/z"⟩ 1 {}), .path "a"]
    let site := (Site.mk ⟨⟨"/c"⟩, 2, false, {}⟩ opened).proceed before
    let idled := site.afterCall (.act (.touch 7 "b"))
    disk.openCache ⟨"/c"⟩ 2 false = (.ok ⟨⟨"/c"⟩, 2, false, {}⟩, opened) ∧
      (2 : UInt64) < 0xffffffffffffffff ∧
      Site.Idle ⟨⟨⟨"/c"⟩, 2, false, {}⟩, opened⟩ before (.act (.touch 7 "b")) ∧
      List.Forall₂ Call.Retimed after after' ∧
      ((before ++ after).filterMap Call.reading?).Pairwise (· ≤ ·) ∧
      ((before ++ .act (.touch 7 "b") :: after').filterMap Call.reading?).Pairwise (· ≤ ·) ∧
      idled.cache.index ≠ site.cache.index ∧ idled.sights after' = site.sights after ∧
      (idled.sights after').map (·.usage) = [⟨2, 2, 2, 1, 0⟩, ⟨2, 2, 2, 1, 0⟩] := by
  intro disk opened earlier before after after' site idled
  have opens : disk.openCache ⟨"/c"⟩ 2 false = (.ok ⟨⟨"/c"⟩, 2, false, {}⟩, opened) := by
    decide +kernel
  have below : (2 : UInt64) < 0xffffffffffffffff := by decide
  have cached : (((Site.mk ⟨⟨"/c"⟩, 2, false, {}⟩ opened).proceed earlier).add 5 "b" ⟨"/y"⟩ 1
      {}).1 = .ok (.cached ⟨"/c/y"⟩) := by decide +kernel
  have harmless : Site.Idle ⟨⟨⟨"/c"⟩, 2, false, {}⟩, opened⟩ before (.act (.touch 7 "b")) :=
    .touchAdopted cached 7
  have retimed : List.Forall₂ Call.Retimed after after' :=
    .cons (.act (.add 5 "d" ⟨"/z"⟩ 1 {}) 8) (.cons (.path "a") .nil)
  have clock : ((before ++ after).filterMap Call.reading?).Pairwise (· ≤ ·) := by decide
  have clock' : ((before ++ .act (.touch 7 "b") :: after').filterMap Call.reading?).Pairwise
      (· ≤ ·) := by decide
  have differs : idled.cache.index ≠ site.cache.index := by decide +kernel
  have unseen : idled.sights after' = site.sights after :=
    (idle_call_unseen opens below harmless retimed clock clock').2.2
  refine ⟨opens, below, harmless, retimed, clock, clock', differs, unseen, ?_⟩
  rw [unseen]
  decide +kernel

end DownloadCache
