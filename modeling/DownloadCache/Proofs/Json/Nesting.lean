import DownloadCache.Proofs.Json.Coverage
import DownloadCache.Proofs.Json.Members

/-!
# How far values extend

A value with brackets extends to the bracket that closes it, whatever follows.  So what has been
read as a value is read in the same way wherever it stands, as long as no number goes on behind it
(`bounded_readValue`).

The induction is on the room for brackets.  Elements and members are both gathered item by item, up
to and with the bracket that closes them (`gather`, `itemOrClose`, `readElements_iff`,
`readMembers_iff`).  A reader has to look at the first octet of an element before it reads the
element, and at no more (`Bracketing`); so items are gathered by a bounded reader if each is read by
one (`Bracketing.bounded_gather`).  The number of rounds does not matter as long as there is one for
every octet (`gather_of_length_lt`).
-/

namespace DownloadCache.Json

set_option autoImplicit false

/-! ## Items -/

section Gather

variable {β : Type} (item : Bool → Octets → Except Fault (Option β × Octets))

/-- Reads items up to the bracket that closes them, in so many rounds at most. -/
def gather : Nat → Bool → List β → Octets → Except Fault (List β × Octets)
  | 0, _, _, input => .error (Breach.endInValue.within input)
  | rounds + 1, first, read, input =>
      item first input >>= fun
        | (none, rest) => .ok (read.reverse, rest)
        | (some found, rest) => gather rounds false (found :: read) rest

variable {item}

theorem gather_succ_eq_ok_iff {rounds : Nat} {first : Bool} {read found : List β}
    {input rest : Octets} :
    gather item (rounds + 1) first read input = .ok (found, rest) ↔
      (item first input = .ok (none, rest) ∧ found = read.reverse) ∨
        ∃ next between, item first input = .ok (some next, between) ∧
          gather item rounds false (next :: read) between = .ok (found, rest) := by
  rw [gather, bind_eq_ok_iff]
  constructor
  · rintro ⟨⟨next?, between⟩, one, others⟩
    cases next? with
    | none =>
        obtain ⟨rfl, rfl⟩ := Prod.mk.inj (Except.ok.inj others)
        exact .inl ⟨one, rfl⟩
    | some next => exact .inr ⟨next, between, one, others⟩
  · rintro (⟨one, rfl⟩ | ⟨next, between, one, others⟩)
    · exact ⟨_, one, rfl⟩
    · exact ⟨_, one, others⟩

theorem bounded_gather (bounded : ∀ first, Bounded (item first))
    (ended : ∀ ⦃input found rest⦄, item false input = .ok (found, rest) → Ended input)
    (rounds : Nat) (first : Bool) (read : List β) : Bounded (gather item rounds first read) := by
  induction rounds generalizing first read with
  | zero => exact bounded_error _
  | succ rounds ih =>
      refine (bounded first).bind (fun found? => ?_) fun found? input result rest gathered => ?_
      · cases found? with
        | none => exact bounded_ok read.reverse
        | some found => exact ih false (found :: read)
      · cases found? with
        | none => exact .inl (Prod.mk.inj (Except.ok.inj gathered)).2.symm
        | some found =>
            cases rounds with
            | zero => cases gathered
            | succ rounds =>
                obtain ⟨_, one, -⟩ := bind_eq_ok_iff.mp gathered
                exact .inr (ended one)

/-- **More rounds than octets are enough.** -/
theorem gather_of_length_lt
    (shorter : ∀ ⦃first input found rest⦄, item first input = .ok (found, rest) →
      rest.length < input.length) {rounds enough : Nat} {first : Bool} {read found : List β}
    {input rest : Octets} (gathered : gather item rounds first read input = .ok (found, rest))
    (more : input.length < enough) : gather item enough first read input = .ok (found, rest) := by
  induction rounds generalizing enough first read input with
  | zero => cases gathered
  | succ rounds ih =>
      obtain ⟨enough, rfl⟩ := Nat.exists_eq_succ_of_ne_zero (Nat.ne_zero_of_lt more)
      rw [gather_succ_eq_ok_iff] at gathered ⊢
      refine gathered.imp_right fun ⟨next, between, one, others⟩ => ⟨next, between, one, ?_⟩
      have less := shorter one
      exact ih others (by omega)

/-- Items are gathered by a bounded reader that has as many rounds as there are octets. -/
theorem bounded_gather_all (bounded : ∀ first, Bounded (item first))
    (ended : ∀ ⦃input found rest⦄, item false input = .ok (found, rest) → Ended input)
    (shorter : ∀ ⦃first input found rest⦄, item first input = .ok (found, rest) →
      rest.length < input.length) :
    Bounded fun input => gather item (input.length + 1) true [] input := by
  intro input found rest gathered
  obtain ⟨taken, whole, again⟩ := bounded_gather bounded ended _ true [] gathered
  exact ⟨taken, whole, fun further free =>
    gather_of_length_lt shorter (again further free) (Nat.lt_succ_self _)⟩

end Gather

/-! ## Brackets around items -/

/-- What a bracket is for the items behind it: a reader that finds the next item or the end, and one
that closes the bracket there.  An item is found by what leads to it and by its first octet, the end
by the octets up to and with the closing bracket; and an item that is not the first one is only
found where no number goes on. -/
structure Bracketing (next? : Bool → Octets → Except Fault (Option Octets))
    (close : Octets → Except Fault Octets) : Prop where
  lead : ∀ ⦃first input start⦄, next? first input = .ok (some start) →
    ∃ lead, input = lead ++ start ∧
      ∀ other, other.head? = start.head? → next? first (lead ++ other) = .ok (some other)
  last : ∀ ⦃first input rest⦄, next? first input = .ok none → close input = .ok rest →
    ∃ taken, input = taken ++ rest ∧ taken ≠ [] ∧
      ∀ further, next? first (taken ++ further) = .ok none ∧ close (taken ++ further) = .ok further
  ended : ∀ ⦃input found⦄, next? false input = .ok found → Ended input

section Items

variable {β : Type} (next? : Bool → Octets → Except Fault (Option Octets))
  (close : Octets → Except Fault Octets) (item : Octets → Except Fault (β × Octets))

/-- Reads the next item, or the bracket that closes them. -/
def itemOrClose (first : Bool) (input : Octets) : Except Fault (Option β × Octets) :=
  next? first input >>= fun
    | none => (close input).map fun rest => (none, rest)
    | some start => (item start).map fun (found, rest) => (some found, rest)

variable {next? close item}

theorem itemOrClose_eq_none_iff {first : Bool} {input rest : Octets} :
    itemOrClose next? close item first input = .ok (none, rest) ↔
      next? first input = .ok none ∧ close input = .ok rest := by
  rw [itemOrClose, bind_eq_ok_iff]
  constructor
  · rintro ⟨_ | start, found, read⟩
    · obtain ⟨_, closed, same⟩ := map_eq_ok_iff.mp read
      obtain ⟨-, rfl⟩ := Prod.mk.inj same
      exact ⟨found, closed⟩
    · obtain ⟨_, -, same⟩ := map_eq_ok_iff.mp read
      cases (Prod.mk.inj same).1
  · rintro ⟨found, closed⟩
    exact ⟨none, found, map_eq_ok_iff.mpr ⟨rest, closed, rfl⟩⟩

theorem itemOrClose_eq_some_iff {first : Bool} {found : β} {input rest : Octets} :
    itemOrClose next? close item first input = .ok (some found, rest) ↔
      ∃ start, next? first input = .ok (some start) ∧ item start = .ok (found, rest) := by
  rw [itemOrClose, bind_eq_ok_iff]
  constructor
  · rintro ⟨_ | start, next, read⟩
    · obtain ⟨_, -, same⟩ := map_eq_ok_iff.mp read
      cases (Prod.mk.inj same).1
    · obtain ⟨_, one, same⟩ := map_eq_ok_iff.mp read
      obtain ⟨value, rfl⟩ := Prod.mk.inj same
      exact ⟨start, next, Option.some.inj value ▸ one⟩
  · rintro ⟨start, next, one⟩
    exact ⟨some start, next, map_eq_ok_iff.mpr ⟨_, one, rfl⟩⟩

section Bracketing

variable (bracketing : Bracketing next? close) (bounded : Bounded item)
  (nonempty : ∀ found, item [] ≠ .ok (found, []))
include bracketing bounded nonempty

/-- What an item or the end takes is not nothing, and is taken again. -/
theorem Bracketing.exists_taken {first : Bool} {found? : Option β} {input rest : Octets}
    (read : itemOrClose next? close item first input = .ok (found?, rest)) :
    ∃ taken, input = taken ++ rest ∧ taken ≠ [] ∧ ∀ further, Ended further →
      itemOrClose next? close item first (taken ++ further) = .ok (found?, further) := by
  cases found? with
  | none =>
      obtain ⟨next, closed⟩ := itemOrClose_eq_none_iff.mp read
      obtain ⟨taken, whole, some, again⟩ := bracketing.last next closed
      exact ⟨taken, whole, some, fun further _ => itemOrClose_eq_none_iff.mpr (again further)⟩
  | some found =>
      obtain ⟨start, next, one⟩ := itemOrClose_eq_some_iff.mp read
      obtain ⟨lead, rfl, leads⟩ := bracketing.lead next
      obtain ⟨taken, rfl, again⟩ := bounded one
      have some : taken ≠ [] := by
        rintro rfl
        exact nonempty found (again [] ended_nil)
      refine ⟨lead ++ taken, (List.append_assoc ..).symm, List.append_ne_nil_of_right_ne_nil _ some,
        fun further ended => ?_⟩
      rw [List.append_assoc]
      refine itemOrClose_eq_some_iff.mpr ⟨taken ++ further, leads _ ?_, again further ended⟩
      rw [List.head?_append_of_ne_nil _ some, List.head?_append_of_ne_nil _ some]

/-- **Items are gathered up to the bracket that closes them by a bounded reader,** if each of them
is read by one. -/
theorem Bracketing.bounded_gather :
    Bounded fun input =>
      gather (itemOrClose next? close item) (input.length + 1) true [] input := by
  refine bounded_gather_all (fun first input found rest read => ?_)
    (fun input found rest read => ?_) (fun first input found rest read => ?_)
  · obtain ⟨taken, whole, -, again⟩ := bracketing.exists_taken bounded nonempty read
    exact ⟨taken, whole, again⟩
  · obtain ⟨next, one, -⟩ := bind_eq_ok_iff.mp read
    exact bracketing.ended one
  · obtain ⟨taken, rfl, some, -⟩ := bracketing.exists_taken bounded nonempty read
    have taken_pos := List.length_pos_of_ne_nil some
    rw [List.length_append]
    omega

end Bracketing

end Items

/-! ## Lists and objects -/

theorem exists_cons_of_head? {first : UInt8} {rest other : Octets}
    (same : other.head? = (first :: rest).head?) : ∃ tail, other = first :: tail := by
  cases other with
  | nil => cases same
  | cons octet tail => exact ⟨tail, by rw [Option.some.inj same]⟩

/-- A closing bracket behind white space is closed, whatever follows. -/
theorem exists_taken_of_skipSpace {input rest : Octets} {mark : UInt8}
    (visible : isSpace mark = false) (same : skipSpace input = mark :: rest) :
    ∃ taken, input = taken ++ rest ∧ taken ≠ [] ∧
      ∀ further, skipSpace (taken ++ further) = mark :: further := by
  obtain ⟨blank, isBlank, whole⟩ := exists_eq_skipSpace input
  refine ⟨blank ++ [mark], ?_, List.append_ne_nil_of_right_ne_nil _ (List.cons_ne_nil _ _),
    fun further => ?_⟩
  · rw [whole, same, List.append_assoc, List.singleton_append]
  · rw [List.append_assoc, List.singleton_append, skipSpace_blank_cons isBlank visible]

theorem bracketing_list : Bracketing nextElement? closeList where
  lead first input start next := by
    obtain ⟨blank, isBlank, whole⟩ := exists_eq_skipSpace input
    rw [nextElement?] at next
    split at next
    · cases next
    · rename_i octet rest same
      rw [same] at whole
      have visible := isSpace_of_skipSpace same
      split_ifs at next with close separated single
      · cases next
      · split at next
        · cases next
        · rename_i octet' rest' same'
          obtain ⟨blank', isBlank', whole'⟩ := exists_eq_skipSpace rest
          split_ifs at next with close'
          obtain rfl := Option.some.inj (Except.ok.inj next)
          refine ⟨blank ++ octet :: blank', ?_, fun other first => ?_⟩
          · rw [whole, whole', same', List.append_assoc, List.cons_append]
          · obtain ⟨tail, rfl⟩ := exists_cons_of_head? first
            rw [List.append_assoc, List.cons_append, nextElement?,
              skipSpace_blank_cons isBlank visible]
            dsimp only
            rw [if_neg close, if_pos separated,
              skipSpace_blank_cons isBlank' (isSpace_of_skipSpace same')]
            exact if_neg close'
      · obtain rfl := Option.some.inj (Except.ok.inj next)
        refine ⟨blank, whole, fun other first => ?_⟩
        obtain ⟨tail, rfl⟩ := exists_cons_of_head? first
        rw [nextElement?, skipSpace_blank_cons isBlank visible]
        dsimp only
        rw [if_neg close, if_neg separated, if_pos single]
  last first input rest next close := by
    rw [closeList] at close
    split at close
    · cases close
    · rename_i octet behind same
      split_ifs at close with closed separated
      · obtain rfl := Except.ok.inj close
        subst closed
        obtain ⟨taken, whole, some, again⟩ := exists_taken_of_skipSpace rfl same
        refine ⟨taken, whole, some, fun further => ?_⟩
        rw [nextElement?, closeList, again]
        exact ⟨rfl, rfl⟩
      · split at close
        · cases close
        · split_ifs at close
  ended input found next := by
    rw [nextElement?] at next
    split at next
    · cases next
    · rename_i octet rest same
      refine ended_of_skipSpace same ?_
      split_ifs at next with close separated
      · subst close
        decide
      · obtain ⟨rfl, -⟩ := separated
        decide
      · contradiction

theorem bracketing_object : Bracketing nextName? closeObject where
  lead first input start next := by
    obtain ⟨blank, isBlank, whole⟩ := exists_eq_skipSpace input
    rw [nextName?] at next
    split at next
    · cases next
    · rename_i octet rest same
      rw [same] at whole
      have visible := isSpace_of_skipSpace same
      split_ifs at next with close separated single quoted
      · cases next
      · split at next
        · cases next
        · rename_i octet' rest' same'
          obtain ⟨blank', isBlank', whole'⟩ := exists_eq_skipSpace rest
          split_ifs at next with quoted
          obtain rfl := Option.some.inj (Except.ok.inj next)
          refine ⟨blank ++ octet :: (blank' ++ [octet']), ?_, fun other _ => ?_⟩
          · rw [whole, whole', same']
            simp
          · rw [List.append_assoc, List.cons_append, List.append_assoc, List.singleton_append,
              nextName?, skipSpace_blank_cons isBlank visible]
            dsimp only
            rw [if_neg close, if_pos separated,
              skipSpace_blank_cons isBlank' (isSpace_of_skipSpace same')]
            exact if_pos quoted
      · obtain rfl := Option.some.inj (Except.ok.inj next)
        refine ⟨blank ++ [octet], ?_, fun other _ => ?_⟩
        · rw [whole, List.append_assoc, List.singleton_append]
        · rw [List.append_assoc, List.singleton_append, nextName?,
            skipSpace_blank_cons isBlank visible]
          dsimp only
          rw [if_neg close, if_neg separated, if_pos single, if_pos quoted]
  last first input rest next close := by
    rw [closeObject] at close
    split at close
    · cases close
    · rename_i octet behind same
      split_ifs at close with closed
      obtain rfl := Except.ok.inj close
      subst closed
      obtain ⟨taken, whole, some, again⟩ := exists_taken_of_skipSpace rfl same
      refine ⟨taken, whole, some, fun further => ?_⟩
      rw [nextName?, closeObject, again]
      exact ⟨rfl, rfl⟩
  ended input found next := by
    rw [nextName?] at next
    split at next
    · cases next
    · rename_i octet rest same
      refine ended_of_skipSpace same ?_
      split_ifs at next with close separated
      · subst close
        decide
      · obtain ⟨rfl, -⟩ := separated
        decide
      · contradiction

/-- Reads a member behind the quote that opens its name. -/
def readMember {α : Type} (value : Octets → Except Fault (α × Octets)) (start : Octets) :
    Except Fault ((String × α) × Octets) :=
  readString start >>= fun (name, behindName) =>
    readColon behindName >>= fun behindColon =>
      (value behindColon).map fun (member, rest) => ((name, member), rest)

section Loops

variable {α : Type} {inner : Octets → Except Fault (α × Octets)}

theorem readMember_eq_ok_iff {start rest : Octets} {name : String} {member : α} :
    readMember inner start = .ok ((name, member), rest) ↔
      ∃ behindName behindColon, readString start = .ok (name, behindName) ∧
        readColon behindName = .ok behindColon ∧ inner behindColon = .ok (member, rest) := by
  rw [readMember, bind_eq_ok_iff]
  constructor
  · rintro ⟨⟨text, behindName⟩, named, read⟩
    obtain ⟨behindColon, colon, read⟩ := bind_eq_ok_iff.mp read
    obtain ⟨⟨found, last⟩, value, same⟩ := map_eq_ok_iff.mp read
    obtain ⟨both, rfl⟩ := Prod.mk.inj same
    obtain ⟨rfl, rfl⟩ := Prod.mk.inj both
    exact ⟨behindName, behindColon, named, colon, value⟩
  · rintro ⟨behindName, behindColon, named, colon, value⟩
    exact ⟨_, named, bind_eq_ok_iff.mpr ⟨_, colon, map_eq_ok_iff.mpr ⟨_, value, rfl⟩⟩⟩

/-- Elements are read up to the bracket that closes their list if they are gathered. -/
theorem readElements_iff {rounds : Nat} {first : Bool} {read elements : List α}
    {input rest : Octets} :
    (∃ between, readElements inner rounds first read input = .ok (elements, between) ∧
      closeList between = .ok rest) ↔
      gather (itemOrClose nextElement? closeList inner) rounds first read input =
        .ok (elements, rest) := by
  induction rounds generalizing first read input with
  | zero =>
      constructor
      · rintro ⟨_, none, -⟩
        cases none
      · exact nofun
  | succ rounds ih =>
      rw [gather_succ_eq_ok_iff]
      constructor
      · rintro ⟨between, inside, close⟩
        obtain ⟨_ | start, next, inside⟩ := bind_eq_ok_iff.mp inside
        · obtain ⟨rfl, rfl⟩ := Prod.mk.inj (Except.ok.inj inside)
          exact .inl ⟨itemOrClose_eq_none_iff.mpr ⟨next, close⟩, rfl⟩
        · obtain ⟨⟨value, behind⟩, element, others⟩ := bind_eq_ok_iff.mp inside
          exact .inr ⟨value, behind, itemOrClose_eq_some_iff.mpr ⟨start, next, element⟩,
            ih.mp ⟨between, others, close⟩⟩
      · rintro (⟨none, rfl⟩ | ⟨value, behind, one, others⟩)
        · obtain ⟨next, close⟩ := itemOrClose_eq_none_iff.mp none
          exact ⟨input, bind_eq_ok_iff.mpr ⟨_, next, rfl⟩, close⟩
        · obtain ⟨start, next, element⟩ := itemOrClose_eq_some_iff.mp one
          obtain ⟨between, others, close⟩ := ih.mpr others
          exact ⟨between, bind_eq_ok_iff.mpr ⟨_, next, bind_eq_ok_iff.mpr ⟨_, element, others⟩⟩,
            close⟩

/-- Members are read up to the brace that closes their object if they are gathered. -/
theorem readMembers_iff {rounds : Nat} {first : Bool} {read members : List (String × α)}
    {input rest : Octets} :
    (∃ between, readMembers inner rounds first read input = .ok (members, between) ∧
      closeObject between = .ok rest) ↔
      gather (itemOrClose nextName? closeObject (readMember inner)) rounds first read input =
        .ok (members, rest) := by
  induction rounds generalizing first read input with
  | zero =>
      constructor
      · rintro ⟨_, none, -⟩
        cases none
      · exact nofun
  | succ rounds ih =>
      rw [gather_succ_eq_ok_iff]
      constructor
      · rintro ⟨between, inside, close⟩
        obtain ⟨_ | start, next, inside⟩ := bind_eq_ok_iff.mp inside
        · obtain ⟨rfl, rfl⟩ := Prod.mk.inj (Except.ok.inj inside)
          exact .inl ⟨itemOrClose_eq_none_iff.mpr ⟨next, close⟩, rfl⟩
        · obtain ⟨⟨name, behindName⟩, named, inside⟩ := bind_eq_ok_iff.mp inside
          obtain ⟨behindColon, colon, inside⟩ := bind_eq_ok_iff.mp inside
          obtain ⟨⟨member, behind⟩, value, others⟩ := bind_eq_ok_iff.mp inside
          have one := readMember_eq_ok_iff.mpr ⟨behindName, behindColon, named, colon, value⟩
          exact .inr ⟨(name, member), behind, itemOrClose_eq_some_iff.mpr ⟨start, next, one⟩,
            ih.mp ⟨between, others, close⟩⟩
      · rintro (⟨none, rfl⟩ | ⟨⟨name, member⟩, behind, one, others⟩)
        · obtain ⟨next, close⟩ := itemOrClose_eq_none_iff.mp none
          exact ⟨input, bind_eq_ok_iff.mpr ⟨_, next, rfl⟩, close⟩
        · obtain ⟨start, next, one⟩ := itemOrClose_eq_some_iff.mp one
          obtain ⟨behindName, behindColon, named, colon, value⟩ := readMember_eq_ok_iff.mp one
          obtain ⟨between, others, close⟩ := ih.mpr others
          exact ⟨between, bind_eq_ok_iff.mpr ⟨_, next, bind_eq_ok_iff.mpr ⟨_, named,
            bind_eq_ok_iff.mpr ⟨_, colon, bind_eq_ok_iff.mpr ⟨_, value, others⟩⟩⟩⟩, close⟩

theorem bounded_readMember (bounded : Bounded inner) : Bounded (readMember inner) := by
  refine (bounded_readStringFrom .plain []).bind (fun name => ?_)
    fun name input result rest read => ?_
  · have member : Bounded fun behindName =>
        passing readColon behindName >>= fun colon =>
          (inner colon.2).map fun (member, rest) => ((name, member), rest) :=
      closed_readColon.bind fun _ => bounded.map fun member => (name, member)
    convert member using 2 with behindName
    dsimp only [passing]
    cases readColon behindName <;> rfl
  · obtain ⟨behindColon, colon, -⟩ := bind_eq_ok_iff.mp read
    exact .inr (ended_of_readColon colon)

end Loops

/-! ## Values -/

/-- What is read as a value starts with an octet. -/
theorem readValueWith_nil {inner : Option (Octets → Except Fault (Value × Octets))}
    (result : Value × Octets) : readValueWith inner [] ≠ .ok result :=
  nofun

theorem readMember_nil {α : Type} {inner : Octets → Except Fault (α × Octets)}
    (result : (String × α) × Octets) : readMember inner [] ≠ .ok result :=
  nofun

/-- A list is read by a bounded reader if its elements are. -/
theorem bounded_readArray {inner : Octets → Except Fault (Value × Octets)} (bounded : Bounded inner)
    (nonempty : ∀ value, inner [] ≠ .ok (value, [])) :
    Bounded fun rest => readElements inner (rest.length + 1) true [] rest >>=
      fun (elements, further) => closeList further >>= fun behind =>
        .ok (Value.array elements, behind) := by
  intro input value rest read
  obtain ⟨⟨elements, between⟩, inside, read⟩ := bind_eq_ok_iff.mp read
  obtain ⟨behind, close, same⟩ := bind_eq_ok_iff.mp read
  obtain ⟨rfl, rfl⟩ := Prod.mk.inj (Except.ok.inj same)
  obtain ⟨taken, whole, again⟩ :=
    bracketing_list.bounded_gather bounded nonempty (readElements_iff.mp ⟨between, inside, close⟩)
  refine ⟨taken, whole, fun further ended => ?_⟩
  obtain ⟨between, inside, close⟩ := readElements_iff.mpr (again further ended)
  exact bind_eq_ok_iff.mpr ⟨_, inside, bind_eq_ok_iff.mpr ⟨_, close, rfl⟩⟩

/-- An object is read by a bounded reader if the values of its members are. -/
theorem bounded_readObject {inner : Octets → Except Fault (Value × Octets)}
    (bounded : Bounded inner) :
    Bounded fun rest => readMembers inner (rest.length + 1) true [] rest >>=
      fun (members, further) => closeObject further >>= fun behind =>
        .ok (Value.object members, behind) := by
  intro input value rest read
  obtain ⟨⟨members, between⟩, inside, read⟩ := bind_eq_ok_iff.mp read
  obtain ⟨behind, close, same⟩ := bind_eq_ok_iff.mp read
  obtain ⟨rfl, rfl⟩ := Prod.mk.inj (Except.ok.inj same)
  obtain ⟨taken, whole, again⟩ :=
    bracketing_object.bounded_gather (bounded_readMember bounded) (fun _ => readMember_nil _)
      (readMembers_iff.mp ⟨between, inside, close⟩)
  refine ⟨taken, whole, fun further ended => ?_⟩
  obtain ⟨between, inside, close⟩ := readMembers_iff.mpr (again further ended)
  exact bind_eq_ok_iff.mpr ⟨_, inside, bind_eq_ok_iff.mpr ⟨_, close, rfl⟩⟩

/-- A value is read by a bounded reader if the values in its brackets are. -/
theorem bounded_readValueWith {inner : Option (Octets → Except Fault (Value × Octets))}
    (bounded : ∀ element ∈ inner, Bounded element ∧ ∀ value, element [] ≠ .ok (value, [])) :
    Bounded (readValueWith inner) := by
  refine bounded_startValue fun octet => ?_
  obtain ⟨-, brackets⟩ | ⟨reader, boundedScalar, scalar⟩ := readScalar?_cases octet
  · simp only [brackets]
    cases inner with
    | none => exact bounded_error fun rest => Breach.tooDeep.within (octet :: rest)
    | some element =>
        obtain ⟨boundedElement, nonempty⟩ := bounded element rfl
        by_cases list : octet = openBracket
        · simp only [if_pos list]
          exact bounded_readArray boundedElement nonempty
        · simp only [if_neg list]
          exact bounded_readObject boundedElement
  · simpa only [scalar] using boundedScalar

/-- **A value is read in the same way wherever it stands,** as long as no number goes on behind
it. -/
theorem bounded_readValue (room : Nat) : Bounded (readValue room) := by
  induction room with
  | zero => exact bounded_readValueWith nofun
  | succ room ih =>
      refine bounded_readValueWith fun element same => ?_
      obtain rfl := Option.some.inj same
      refine ⟨ih, fun value => ?_⟩
      cases room <;> exact readValueWith_nil _

end DownloadCache.Json
