import DownloadCache.Proofs.Json.Coverage
import DownloadCache.Proofs.Json.Members
import DownloadCache.Proofs.Json.Skipping

/-!
# Records member by member

A record is read from an object whose members are listed in any order.  Every member of the record
stands in the object once or not at all; where it stands, its octets are read by its form
(`Field`), and the values of all other names are passed over (`Members.Drafted`).  If the octets
that a form reads are told by themselves, an object is read as a record exactly if it is of this
kind (`Members.read_eq_ok_iff`).

The proof goes along the members of the object, with the draft of the record as it is filled
(`Members.Fills`); what a draft is filled with is then told field by field
(`Members.fills_blank_iff`).
-/

namespace DownloadCache.Json

set_option autoImplicit false

/-! ## Fields -/

/-- What a field of a record is in an object: absent, or what its form reads from the octets of the
one member that has its name. -/
inductive Field {α : Type} (name : String) (form : Form α) (parts : List Part) : Option α → Prop
  | absent : parts.filter (·.name = name) = [] → Field name form parts none
  | present {part : Part} {meaning : α} : parts.filter (·.name = name) = [part] →
      form.read part.2 = .ok (meaning, []) → Field name form parts (some meaning)

/-- What the fields of a record are in an object. -/
def Members.Drafted : {types : List Type} → Members types → List Part → Draft types → Prop
  | _, .nil, _, _ => True
  | _, .cons member others, parts, (found?, further) =>
      Field member.name member.form parts found? ∧ others.Drafted parts further

/-- Whether the values of all names that are no fields can be passed over. -/
def Members.Passes {types : List Type} (members : Members types) (parts : List Part) : Prop :=
  ∀ part ∈ parts, part.name ∉ members.names → skipValue part.2 = .ok []

/-- Whether every form reads a value in the same way wherever it stands. -/
def Members.Bounded : {types : List Type} → Members types → Prop
  | _, .nil => True
  | _, .cons member others => Json.Bounded member.form.read ∧ others.Bounded

/-! ## One member -/

/-- How a draft changes at a member of an object. -/
def Members.Takes : {types : List Type} → Members types → Draft types → Part → Draft types → Prop
  | _, .nil, _, part, _ => skipValue part.2 = .ok []
  | _, .cons member others, (known, further), part, (known', further') =>
      if member.name = part.name then
        (known = none ∧ ∃ meaning, member.form.read part.2 = .ok (meaning, []) ∧
          known' = some meaning) ∧ further' = further
      else known' = known ∧ others.Takes further part further'

/-- Where a member has been read into a draft, its value stands behind its colon. -/
theorem Members.exists_of_readNamed {types : List Type} {members : Members types}
    (bounded : members.Bounded) {draft filled : Draft types} {name : Name} {input rest : Octets}
    (read : members.readNamed draft name.text input = .ok (filled, rest)) :
    ∃ value, readColon input = .ok (value ++ rest) ∧ members.Takes draft (name, value) filled := by
  induction members with
  | nil =>
      obtain ⟨behindColon, colon, read⟩ := bind_eq_ok_iff.mp (within_eq_ok_iff.mp read)
      obtain ⟨last, skipped, same⟩ := bind_eq_ok_iff.mp read
      obtain ⟨-, rfl⟩ := Prod.mk.inj (Except.ok.inj same)
      obtain ⟨value, rfl, alone⟩ := bounded_skipValue.reads_alone (passing_eq_ok_iff.mpr skipped)
      exact ⟨value, colon, passing_eq_ok_iff.mp alone⟩
  | cons member others ih =>
      obtain ⟨known, further⟩ := draft
      obtain ⟨boundedMember, boundedOthers⟩ := bounded
      rw [Members.readNamed] at read
      by_cases same : member.name = name.text
      · rw [if_pos same] at read
        cases known with
        | some known => cases read
        | none =>
            obtain ⟨behindColon, colon, read⟩ := bind_eq_ok_iff.mp (within_eq_ok_iff.mp read)
            obtain ⟨⟨meaning, last⟩, found, result⟩ := bind_eq_ok_iff.mp read
            obtain ⟨rfl, rfl⟩ := Prod.mk.inj (Except.ok.inj result)
            obtain ⟨value, rfl, alone⟩ := boundedMember.reads_alone found
            exact ⟨value, colon, (if_pos same).mpr ⟨⟨rfl, meaning, alone, rfl⟩, rfl⟩⟩
      · rw [if_neg same] at read
        obtain ⟨⟨between, last⟩, found, result⟩ := bind_eq_ok_iff.mp read
        obtain ⟨rfl, rfl⟩ := Prod.mk.inj (Except.ok.inj result)
        obtain ⟨value, colon, takes⟩ := ih boundedOthers found
        exact ⟨value, colon, (if_neg same).mpr ⟨rfl, takes⟩⟩

/-- A member whose value stands behind its colon is read into a draft. -/
theorem Members.readNamed_eq_ok {types : List Type} {members : Members types}
    (bounded : members.Bounded) {draft filled : Draft types} {part : Part} {input rest : Octets}
    (colon : readColon input = .ok (part.2 ++ rest)) (ended : Ended rest)
    (takes : members.Takes draft part filled) :
    members.readNamed draft part.name input = .ok (filled, rest) := by
  induction members with
  | nil =>
      have skipped := bounded_skipValue.reads_on (passing_eq_ok_iff.mpr takes) ended
      rw [Members.readNamed, within_eq_ok_iff, bind_eq_ok_iff]
      exact ⟨_, colon, bind_eq_ok_iff.mpr ⟨rest, passing_eq_ok_iff.mp skipped, rfl⟩⟩
  | cons member others ih =>
      obtain ⟨known, further⟩ := draft
      obtain ⟨filled, filledFurther⟩ := filled
      obtain ⟨boundedMember, boundedOthers⟩ := bounded
      rw [Members.readNamed]
      rw [Members.Takes] at takes
      by_cases same : member.name = part.name
      · rw [if_pos same] at takes ⊢
        obtain ⟨⟨rfl, meaning, alone, rfl⟩, rfl⟩ := takes
        exact within_eq_ok_iff.mpr (bind_eq_ok_iff.mpr ⟨_, colon,
          bind_eq_ok_iff.mpr ⟨_, boundedMember.reads_on alone ended, rfl⟩⟩)
      · rw [if_neg same] at takes ⊢
        obtain ⟨rfl, takes⟩ := takes
        exact bind_eq_ok_iff.mpr ⟨_, ih boundedOthers takes, rfl⟩

/-! ## All members -/

/-- How a draft changes along the members of an object. -/
def Members.Fills {types : List Type} (members : Members types) :
    Draft types → List Part → Draft types → Prop
  | draft, [], filled => filled = draft
  | draft, part :: parts, filled =>
      ∃ between, members.Takes draft part between ∧ members.Fills between parts filled

section Reading

variable {types : List Type} {members : Members types} {values : Tuple types}

/-- **What is read as the members of an object is listed, and fills the draft.** -/
theorem Members.exists_of_readObject (bounded : members.Bounded) {rounds : Nat} {first : Bool}
    {draft : Draft types} {input behind rest : Octets}
    (read : members.readObject rounds first draft input = .ok (values, behind))
    (close : closeObject behind = .ok rest) :
    ∃ parts filled, Listed first parts input rest ∧ members.Fills draft parts filled ∧
      members.complete filled = .ok values := by
  induction rounds generalizing first draft input with
  | zero => cases read
  | succ rounds ih =>
      rw [Members.readObject] at read
      obtain ⟨next, found, read⟩ := bind_eq_ok_iff.mp read
      have found := within_eq_ok_iff.mp found
      cases next with
      | none =>
          dsimp only at read
          split at read
          · rename_i known complete
            obtain ⟨rfl, rfl⟩ := Prod.mk.inj (Except.ok.inj read)
            exact ⟨[], draft, listed_nil_of_closeObject close, rfl, complete⟩
          · cases read
      | some start =>
          obtain ⟨⟨text, behindName⟩, named, read⟩ := bind_eq_ok_iff.mp read
          obtain ⟨⟨further, between⟩, member, others⟩ := bind_eq_ok_iff.mp read
          obtain ⟨name, rfl, rfl⟩ := exists_name (within_eq_ok_iff.mp named)
          obtain ⟨value, colon, takes⟩ := Members.exists_of_readNamed bounded member
          obtain ⟨parts, filled, listed, fills, complete⟩ := ih others
          exact ⟨(name, value) :: parts, filled, listed_of_nextName? found colon listed,
            ⟨further, takes, fills⟩, complete⟩

/-- **From an object whose members fill the draft, they are read.** -/
theorem Members.readObject_eq_ok (bounded : members.Bounded) {parts : List Part} {rounds : Nat}
    (enough : parts.length < rounds) {first : Bool} {draft filled : Draft types}
    {input rest : Octets} (listed : Listed first parts input rest)
    (fills : members.Fills draft parts filled) (complete : members.complete filled = .ok values) :
    ∃ behind, members.readObject rounds first draft input = .ok (values, behind) ∧
      closeObject behind = .ok rest := by
  induction parts generalizing rounds first draft input with
  | nil =>
      obtain ⟨rounds, rfl⟩ := Nat.exists_eq_add_of_lt enough
      obtain ⟨none, close⟩ := listed.read_end
      refine ⟨input, ?_, close⟩
      obtain rfl : filled = draft := fills
      rw [Members.readObject, none]
      simp only [within, bind, Except.bind, complete]
      rfl
  | cons part parts ih =>
      obtain ⟨rounds, rfl⟩ := Nat.exists_eq_succ_of_ne_zero (Nat.ne_zero_of_lt enough)
      obtain ⟨between, takes, fills⟩ := fills
      obtain ⟨start, behindName, further, next, name, colon, listed⟩ := listed.read_name
      obtain ⟨behind, others, close⟩ := ih (Nat.lt_of_succ_lt_succ enough) listed fills
      refine ⟨behind, ?_, close⟩
      have member := Members.readNamed_eq_ok bounded colon listed.ended takes
      rw [Members.readObject, next]
      simp only [within, bind, Except.bind, name, member]
      exact others

end Reading

/-! ## Field by field -/

/-- How a field is filled by the members that have its name. -/
def Member.Fills {α : Type} (member : Member α) : Option α → List Part → Option α → Prop
  | known, [], filled => filled = known
  | known, part :: parts, filled =>
      known = none ∧ ∃ meaning, member.form.read part.2 = .ok (meaning, []) ∧
        member.Fills (some meaning) parts filled

/-- A field is filled by one member at most. -/
theorem Member.fills_iff {α : Type} {member : Member α} {parts : List Part} {filled : Option α} :
    member.Fills none (parts.filter (·.name = member.name)) filled ↔
      Field member.name member.form parts filled := by
  constructor
  · intro fills
    match named : parts.filter (·.name = member.name) with
    | [] =>
        rw [named] at fills
        obtain rfl : filled = none := fills
        exact .absent named
    | [part] =>
        rw [named] at fills
        obtain ⟨-, meaning, read, rfl⟩ := fills
        exact .present named read
    | part :: other :: others =>
        rw [named] at fills
        obtain ⟨-, meaning, -, again, -⟩ := fills
        cases again
  · rintro (named | ⟨named, read⟩)
    · rw [named]
      rfl
    · rw [named]
      exact ⟨rfl, _, read, rfl⟩

/-- **The members of an object fill the fields of a record apart from each other.** -/
theorem Members.fills_cons_iff {α : Type} {types : List Type} {member : Member α}
    {others : Members types} {known filled : Option α} {further filledFurther : Draft types}
    {parts : List Part} :
    (Members.cons member others).Fills (known, further) parts (filled, filledFurther) ↔
      member.Fills known (parts.filter (·.name = member.name)) filled ∧
        others.Fills further (parts.filter (·.name ≠ member.name)) filledFurther := by
  induction parts generalizing known further with
  | nil => exact Prod.mk.injEq .. ▸ Iff.rfl
  | cons part parts ih =>
      have step : (Members.cons member others).Fills (known, further) (part :: parts)
          (filled, filledFurther) ↔ ∃ known' further',
            (Members.cons member others).Takes (known, further) part (known', further') ∧
              (Members.cons member others).Fills (known', further') parts
                (filled, filledFurther) :=
        ⟨fun ⟨between, both⟩ => ⟨between.1, between.2, both⟩,
          fun ⟨known', further', both⟩ => ⟨(known', further'), both⟩⟩
      rw [step]
      simp only [ih, Members.Takes]
      by_cases same : part.name = member.name
      · rw [List.filter_cons_of_pos (by simpa using same),
          List.filter_cons_of_neg (by simpa using same)]
        simp only [if_pos same.symm]
        constructor
        · rintro ⟨_, _, ⟨⟨rfl, meaning, read, rfl⟩, rfl⟩, fills, fillsOthers⟩
          exact ⟨⟨rfl, meaning, read, fills⟩, fillsOthers⟩
        · rintro ⟨⟨rfl, meaning, read, fills⟩, fillsOthers⟩
          exact ⟨_, _, ⟨⟨rfl, meaning, read, rfl⟩, rfl⟩, fills, fillsOthers⟩
      · rw [List.filter_cons_of_neg (by simpa using same),
          List.filter_cons_of_pos (by simpa using same)]
        simp only [if_neg (Ne.symm same)]
        constructor
        · rintro ⟨_, further', ⟨rfl, takes⟩, fills, fillsOthers⟩
          exact ⟨fills, further', takes, fillsOthers⟩
        · rintro ⟨fills, further', takes, fillsOthers⟩
          exact ⟨_, further', ⟨rfl, takes⟩, fills, fillsOthers⟩

/-- Members of another name are of no consequence for a field. -/
theorem Field.filter_iff {α : Type} {name other : String} (different : name ≠ other)
    {form : Form α} {parts : List Part} {found? : Option α} :
    Field name form (parts.filter (·.name ≠ other)) found? ↔ Field name form parts found? := by
  have same : (parts.filter (·.name ≠ other)).filter (·.name = name) =
      parts.filter (·.name = name) := by
    rw [List.filter_filter]
    refine List.filter_congr fun part _ => ?_
    by_cases named : part.name = name
    · simp [named, different]
    · simp [named]
  constructor
  · rintro (absent | ⟨present, read⟩)
    · exact .absent (same ▸ absent)
    · exact .present (same ▸ present) read
  · rintro (absent | ⟨present, read⟩)
    · exact .absent (same.symm ▸ absent)
    · exact .present (same.symm ▸ present) read

theorem Members.drafted_filter_iff {types : List Type} {members : Members types} {other : String}
    (foreign : other ∉ members.names) {parts : List Part} {draft : Draft types} :
    members.Drafted (parts.filter (·.name ≠ other)) draft ↔ members.Drafted parts draft := by
  induction members with
  | nil => exact Iff.rfl
  | cons member others ih =>
      obtain ⟨different, foreign⟩ := List.ne_and_not_mem_of_not_mem_cons foreign
      exact and_congr (Field.filter_iff different.symm) (ih foreign)

theorem Members.passes_cons_iff {α : Type} {types : List Type} {member : Member α}
    {others : Members types} {parts : List Part} :
    (Members.cons member others).Passes parts ↔
      others.Passes (parts.filter (·.name ≠ member.name)) := by
  simp only [Members.Passes, Members.names, List.mem_filter, List.mem_cons, not_or,
    decide_eq_true_eq, and_imp]

/-- **A blank draft is filled with what the fields are in the object,** if no two of them have one
name. -/
theorem Members.fills_blank_iff {types : List Type} {members : Members types}
    (distinct : members.names.Nodup) {parts : List Part} {filled : Draft types} :
    members.Fills members.blank parts filled ↔
      members.Drafted parts filled ∧ members.Passes parts := by
  induction members generalizing parts with
  | nil =>
      induction parts with
      | nil => exact ⟨fun _ => ⟨trivial, nofun⟩, fun _ => rfl⟩
      | cons part parts ih =>
          have passes : Members.nil.Passes (part :: parts) ↔
              skipValue part.2 = .ok [] ∧ Members.nil.Passes parts := by
            simp only [Members.Passes, Members.names, List.not_mem_nil, not_false_eq_true,
              forall_true_left, List.forall_mem_cons]
          rw [passes]
          constructor
          · rintro ⟨between, skipped, fills⟩
            exact ⟨trivial, skipped, (ih.mp fills).2⟩
          · rintro ⟨-, skipped, passes⟩
            exact ⟨(), skipped, ih.mpr ⟨trivial, passes⟩⟩
  | cons member others ih =>
      obtain ⟨found?, further⟩ := filled
      obtain ⟨foreign, distinct⟩ := List.nodup_cons.mp distinct
      rw [Members.blank, Members.fills_cons_iff, ih distinct, Member.fills_iff,
        Members.drafted_filter_iff foreign, ← Members.passes_cons_iff, Members.Drafted, and_assoc]

/-! ## Whole texts -/

theorem readWhole_eq_ok_iff {α : Type} {reader : Octets → Except Fault (α × Octets)}
    {text : Octets} {value : α} : readWhole reader text = .ok value ↔
      ∃ rest, reader text = .ok (value, rest) ∧ Blank rest := by
  rw [readWhole]
  cases reader text with
  | error fault => simp
  | ok result =>
      obtain ⟨found, rest⟩ := result
      cases ended : readEnd rest with
      | error fault => simp [← readEnd_eq_ok_iff, ended]
      | ok => simp [← readEnd_eq_ok_iff, ended]

/-- A text is read with another meaning if it is read. -/
theorem Form.readWhole_map_eq_ok_iff {α β : Type} (form : Form α) {meaning : α → β}
    {text : Octets} {meant : β} :
    readWhole (form.map meaning).read text = .ok meant ↔
      ∃ value, readWhole form.read text = .ok value ∧ meaning value = meant := by
  simp only [readWhole_eq_ok_iff, Form.map, map_eq_ok_iff]
  constructor
  · rintro ⟨_, ⟨⟨value, rest⟩, read, same⟩, blank⟩
    obtain ⟨rfl, rfl⟩ := Prod.mk.inj same
    exact ⟨value, ⟨rest, read, blank⟩, rfl⟩
  · rintro ⟨value, ⟨rest, read, blank⟩, rfl⟩
    exact ⟨rest, ⟨⟨value, rest⟩, read, rfl⟩, blank⟩

/-- **A text that is no list is read as a record if it is an object in which the fields are as the
record asks for,** and in which the values of all other names can be passed over. -/
theorem Members.readWhole_eq_ok_iff {types : List Type} {members : Members types}
    (bounded : members.Bounded) (distinct : members.names.Nodup) (label : String) {text : Octets}
    (noList : (skipSpace text).head? ≠ some openBracket) {values : Tuple types} :
    readWhole (members.read label) text = .ok values ↔
      ∃ parts draft, ObjectText parts text ∧ members.Drafted parts draft ∧ members.Passes parts ∧
        members.complete draft = .ok values := by
  rw [Json.readWhole_eq_ok_iff]
  constructor
  · rintro ⟨rest, read, blank⟩
    rw [Members.read] at read
    obtain ⟨⟨octet, input⟩, start, read⟩ := bind_eq_ok_iff.mp read
    have same := skipSpace_of_startValue start
    have noBracket : octet ≠ openBracket := by
      rintro rfl
      exact noList (congrArg List.head? same)
    dsimp only at read
    rw [if_neg noBracket] at read
    by_cases object : octet = openBrace
    · rw [if_pos object] at read
      obtain ⟨behind, read, close⟩ := finishObject_eq_ok_iff.mp read
      obtain ⟨parts, filled, listed, fills, complete⟩ :=
        Members.exists_of_readObject bounded read close
      obtain ⟨drafted, passes⟩ := (Members.fills_blank_iff distinct).mp fills
      exact ⟨parts, filled, ⟨input, rest, object ▸ same, listed, blank⟩, drafted, passes, complete⟩
    · rw [if_neg object] at read
      cases read
  · rintro ⟨parts, draft, ⟨input, rest, same, listed, blank⟩, drafted, passes, complete⟩
    have fills := (Members.fills_blank_iff distinct).mpr ⟨drafted, passes⟩
    obtain ⟨behind, read, close⟩ := Members.readObject_eq_ok bounded
      (Nat.lt_succ_of_lt listed.length_lt) listed fills complete
    refine ⟨rest, ?_, blank⟩
    rw [Members.read, startValue, same]
    exact finishObject_eq_ok_iff.mpr ⟨behind, read, close⟩

end DownloadCache.Json
