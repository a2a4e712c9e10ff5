import DownloadCache.Proofs.Index.Pairing

/-!
# The order of accesses

The entries of an index can be listed in the order in which they were accessed last: their tickets
rise along the list, and their clock readings do not fall (`Ordered`).  So an entry was accessed
before those that come later in the list, and the oldest key is the first one, in whatever order
the entries are scanned (`Ordered.oldest?_eq`).

A drop takes an entry out of the list, an access moves it to the end, and a file that is entered is
added at the end, if the clock has not gone backwards.
-/

namespace DownloadCache

set_option autoImplicit false

/-! ## Comparing entries -/

theorem Entry.olderThan_iff {entry other : Entry} :
    entry.olderThan other = true ↔
      entry.accessed < other.accessed ∨
        entry.accessed = other.accessed ∧ entry.ticket < other.ticket := by
  simp [olderThan]

/-- An entry that is not older than one that is not older than a third is not older than that. -/
theorem Entry.not_olderThan_trans {first second third : Entry}
    (above : ¬first.olderThan second = true) (below : ¬second.olderThan third = true) :
    ¬first.olderThan third = true := by
  rw [olderThan_iff] at above below ⊢
  unfold Instant at *
  omega

namespace Index

/-- Neither of two entries is older than the older one. -/
theorem not_olderThan_older (best candidate : String × Entry) :
    ¬best.2.olderThan (older best candidate).2 = true ∧
      ¬candidate.2.olderThan (older best candidate).2 = true := by
  rw [older]
  split
  · rename_i before
    rw [Entry.olderThan_iff] at before ⊢
    rw [Entry.olderThan_iff]
    unfold Instant at *
    omega
  · rename_i after
    refine ⟨?_, after⟩
    rw [Entry.olderThan_iff]
    unfold Instant at *
    omega

/-- None of some entries is older than the oldest of them. -/
theorem not_olderThan_foldl_older (first : String × Entry) (others : List (String × Entry)) :
    ∀ pair ∈ first :: others, ¬pair.2.olderThan (others.foldl older first).2 = true := by
  induction others generalizing first with
  | nil => simp [Entry.olderThan_iff]
  | cons next rest ih =>
      have least := ih (older first next)
      obtain ⟨first_le, next_le⟩ := not_olderThan_older first next
      have best := least _ List.mem_cons_self
      intro pair member
      rw [List.foldl_cons]
      rcases List.mem_cons.mp member with rfl | member
      · exact Entry.not_olderThan_trans first_le best
      · rcases List.mem_cons.mp member with rfl | member
        · exact Entry.not_olderThan_trans next_le best
        · exact least pair (List.mem_cons_of_mem _ member)

/-! ## The order -/

/-- A list of the entries of an index in the order in which they were accessed last, none of them
after a clock reading. -/
structure Ordered (latest : Instant) (index : Index) (ordered : List (String × Entry)) :
    Prop where
  perm : ordered.Perm index.entries
  tickets : ordered.Pairwise fun earlier later => earlier.2.ticket < later.2.ticket
  clocks : ordered.Pairwise fun earlier later => earlier.2.accessed ≤ later.2.accessed
  drawn : ∀ pair ∈ ordered, pair.2.ticket < index.nextTicket
  past : ∀ pair ∈ ordered, pair.2.accessed ≤ latest

variable {directory : Path} {latest now : Instant} {index : Index}
  {ordered : List (String × Entry)}

theorem ordered_empty (latest : Instant) : Ordered latest {} [] where
  perm := .nil
  tickets := .nil
  clocks := .nil
  drawn := nofun
  past := nofun

/-- Entries that were accessed by one reading of the clock were by any later one. -/
theorem Ordered.later (order : Ordered latest index ordered) (later : latest ≤ now) :
    Ordered now index ordered :=
  { order with past := fun pair member => Nat.le_trans (order.past pair member) later }

/-- What the entries of the list are is what those of the index are. -/
theorem Ordered.lookup_eq (order : Ordered latest index ordered)
    (paired : Paired directory index) (key : String) :
    ordered.lookup key = index.entry? key := by
  have distinct : (ordered.map (·.1)).Nodup := (order.perm.map _).nodup_iff.mpr paired.distinct
  refine Option.ext fun entry => ?_
  rw [lookup_eq_some_iff_mem distinct, entry?, lookup_eq_some_iff_mem paired.distinct]
  exact order.perm.mem_iff

/-- Counters do not matter for the order. -/
theorem Ordered.congr (order : Ordered latest index ordered) {later : Index}
    (entries : later.entries = index.entries) (nextTicket : later.nextTicket = index.nextTicket) :
    Ordered latest later ordered :=
  { order with perm := entries ▸ order.perm, drawn := nextTicket ▸ order.drawn }

theorem Ordered.drop (order : Ordered latest index ordered) (key : String) (entry : Entry) :
    Ordered latest (index.drop key entry) (ordered.filter fun pair => pair.1 != key) where
  perm := order.perm.filter _
  tickets := order.tickets.filter _
  clocks := order.clocks.filter _
  drawn pair member := order.drawn pair (List.mem_filter.mp member).1
  past pair member := order.past pair (List.mem_filter.mp member).1

/-- An entry whose ticket was just drawn comes last. -/
theorem Ordered.append (order : Ordered latest index ordered) (later : latest ≤ now)
    {after : Index} {pair : String × Entry} (accessed : pair.2.accessed = now)
    (ticket : pair.2.ticket = index.nextTicket)
    (nextTicket : after.nextTicket = index.nextTicket + 1)
    (perm : (pair :: index.entries).Perm after.entries) :
    Ordered now after (ordered ++ [pair]) where
  perm := (List.perm_append_singleton _ _).trans ((order.perm.cons _).trans perm)
  tickets := by
    refine List.pairwise_append.mpr ⟨order.tickets, List.pairwise_singleton _ _, ?_⟩
    intro earlier member last same
    rw [List.mem_singleton.mp same, ticket]
    exact order.drawn earlier member
  clocks := by
    refine List.pairwise_append.mpr ⟨order.clocks, List.pairwise_singleton _ _, ?_⟩
    intro earlier member last same
    rw [List.mem_singleton.mp same, accessed]
    exact Nat.le_trans (order.past earlier member) later
  drawn := by
    intro listed member
    rw [nextTicket]
    rcases List.mem_append.mp member with before | last
    · exact Nat.lt_succ_of_lt (order.drawn listed before)
    · rw [List.mem_singleton.mp last, ticket]
      exact Nat.lt_succ_self _
  past := by
    intro listed member
    rcases List.mem_append.mp member with before | last
    · exact Nat.le_trans (order.past listed before) later
    · rw [List.mem_singleton.mp last]
      exact Nat.le_of_eq accessed

theorem Ordered.insert (order : Ordered latest index ordered) (later : latest ≤ now)
    (key : String) (path : Path) (size : UInt64) (validators : Validators) :
    Ordered now (index.insert now key path size validators)
      (ordered ++ [(key, ⟨path, size, now, index.nextTicket, validators⟩)]) :=
  order.append later rfl rfl rfl (.refl _)

/-- An access to a key leaves the entries of other keys as they are. -/
theorem map_accessed_eq_self (index : Index) (now : Instant) {key : String}
    {pairs : List (String × Entry)} (absent : ∀ pair ∈ pairs, pair.1 ≠ key) :
    (pairs.map fun pair => (pair.1, index.accessed now key pair.1 pair.2)) = pairs := by
  refine (List.map_congr_left fun pair member => ?_).trans (List.map_id pairs)
  rw [accessed, if_neg (absent pair member), id]

/-- An access to a key that has an entry moves the entry to the end. -/
theorem Ordered.touch (order : Ordered latest index ordered) (later : latest ≤ now)
    (paired : Paired directory index) {key : String} {entry : Entry}
    (tracked : index.entry? key = some entry) :
    Ordered now (index.touch now key) ((ordered.filter fun pair => pair.1 != key) ++
      [(key, { entry with accessed := now, ticket := index.nextTicket })]) := by
  refine (order.drop key entry).append later rfl rfl rfl ?_
  have whole := perm_cons_filter_bne paired.distinct (mem_of_lookup_eq_some tracked)
  have absent : ∀ pair ∈ index.entries.filter fun pair => pair.1 != key, pair.1 ≠ key :=
    fun pair member => by simpa using (List.mem_filter.mp member).2
  have others := index.map_accessed_eq_self now absent
  rw [entries_touch]
  refine List.Perm.trans ?_ (whole.map _).symm
  rw [List.map_cons, others, accessed, if_pos rfl]
  exact .refl _

/-- An access to a key that has no entry only draws a ticket. -/
theorem Ordered.touch_untracked (order : Ordered latest index ordered) (later : latest ≤ now)
    {key : String} (untracked : index.entry? key = none) :
    Ordered now (index.touch now key) ordered := by
  have same : (index.touch now key).entries = index.entries := by
    rw [entries_touch]
    exact index.map_accessed_eq_self now fun pair member => ne_of_lookup_eq_none untracked member
  exact { order.later later with
    perm := same ▸ order.perm
    drawn := fun pair member => Nat.lt_succ_of_lt (order.drawn pair member) }

/-! ## The oldest entry -/

/-- The first entry of the list is older than any other one. -/
theorem Ordered.olderThan_of_mem {first : String × Entry} {others : List (String × Entry)}
    (order : Ordered latest index (first :: others)) {other : String × Entry}
    (member : other ∈ others) : first.2.olderThan other.2 = true := by
  have ticket := (List.pairwise_cons.mp order.tickets).1 other member
  have clock := (List.pairwise_cons.mp order.clocks).1 other member
  rw [Entry.olderThan_iff]
  unfold Instant at *
  omega

/-- **The oldest key is the first of the list,** in whatever order the entries are scanned. -/
theorem Ordered.oldest?_eq (order : Ordered latest index ordered) {scan : List (String × Entry)}
    (same : scan.Perm index.entries) :
    { index with entries := scan }.oldest? = ordered.head?.map (·.1) := by
  have perm : scan.Perm ordered := same.trans order.perm.symm
  cases ordered with
  | nil => rw [List.perm_nil.mp perm]; rfl
  | cons first others =>
      cases scan with
      | nil => exact absurd perm.symm.eq_nil (by simp)
      | cons start rest =>
          have found := perm.mem_iff.mp (foldl_older_mem start rest)
          have least := not_olderThan_foldl_older start rest first
            (perm.mem_iff.mpr List.mem_cons_self)
          rcases List.mem_cons.mp found with here | later
          · exact congrArg (some ·.1) here
          · exact absurd (order.olderThan_of_mem later) least

end Index

end DownloadCache
