import Mathlib.Data.List.Perm.Basic
import Mathlib.Data.List.Nodup
import DownloadCache.Json.Tagged

/-!
# Filling in records

The values of a record are put into a draft one after the other.  A name that is no field leaves
the draft as it is (`Members.put_of_notMem`), and values of two names can be put in either order
(`Members.put_comm`).  So what an object with distinct names stands for does not depend on the order
of its members, nor on members that are no fields: a kind of record is tolerant
(`Variant.Tolerant`), whether it has fields (`Variant.tolerant_record`) or not
(`Variant.tolerant_bare`).
-/

namespace DownloadCache.Json

set_option autoImplicit false

/-! ## One value -/

/-- The names of the fields. -/
def Members.names : {types : List Type} → Members types → List String
  | _, .nil => []
  | _, .cons member others => member.name :: others.names

/-- A name that is no field leaves the draft as it is. -/
theorem Members.put_of_notMem {types : List Type} (members : Members types) (draft : Draft types)
    {name : String} (foreign : name ∉ members.names) (value : Value) :
    members.put draft name value = .ok draft := by
  induction members with
  | nil => rfl
  | cons member others ih =>
      obtain ⟨known, further⟩ := draft
      obtain ⟨other, foreign⟩ := List.ne_and_not_mem_of_not_mem_cons foreign
      rw [Members.put, if_neg (Ne.symm other), ih further foreign]
      rfl

/-- What putting a value of a field comes to. -/
theorem Members.put_cons_eq_ok_iff {α : Type} {types : List Type} {member : Member α}
    {others : Members types} {known : Option α} {further : Draft types} {name : String}
    {value : Value} {draft : Draft (α :: types)} :
    (Members.cons member others).put (known, further) name value = .ok draft ↔
      (member.name = name ∧ known = none ∧
        ∃ meaning, member.form.ofValue value = .ok meaning ∧ draft = (some meaning, further)) ∨
      (member.name ≠ name ∧
        ∃ behind, others.put further name value = .ok behind ∧ draft = (known, behind)) := by
  rw [Members.put]
  by_cases same : member.name = name
  · rw [if_pos same]
    cases known with
    | some known => simp [same]
    | none =>
        cases meant : member.form.ofValue value with
        | error mismatch => simp [same, Except.map]
        | ok meaning =>
            constructor
            · exact fun put => .inl ⟨same, rfl, meaning, rfl, (Except.ok.inj put).symm⟩
            · rintro (⟨-, -, _, ⟨⟩, rfl⟩ | ⟨other, -⟩)
              · rfl
              · exact absurd same other
  · rw [if_neg same]
    cases others.put further name value with
    | error mismatch => simp [same, Except.map]
    | ok behind =>
        constructor
        · exact fun put => .inr ⟨same, behind, rfl, (Except.ok.inj put).symm⟩
        · rintro (⟨here, -⟩ | ⟨-, _, ⟨⟩, rfl⟩)
          · exact absurd here same
          · rfl

/-- **Values of two names can be put in either order.** -/
theorem Members.put_comm {types : List Type} {members : Members types}
    {draft between filled : Draft types} {first second : String} (different : first ≠ second)
    {value other : Value} (putFirst : members.put draft first value = .ok between)
    (putSecond : members.put between second other = .ok filled) :
    ∃ instead, members.put draft second other = .ok instead ∧
      members.put instead first value = .ok filled := by
  induction members with
  | nil => exact ⟨filled, putSecond, putFirst⟩
  | cons member others ih =>
      obtain ⟨known, further⟩ := draft
      rcases Members.put_cons_eq_ok_iff.mp putFirst with
        ⟨here, rfl, meaning, meant, rfl⟩ | ⟨elsewhere, behind, put, rfl⟩
      · obtain ⟨same, -⟩ | ⟨elsewhere, behind, put, rfl⟩ :=
          Members.put_cons_eq_ok_iff.mp putSecond
        · exact absurd (here.symm.trans same) different
        · exact ⟨(none, behind),
            Members.put_cons_eq_ok_iff.mpr (.inr ⟨elsewhere, behind, put, rfl⟩),
            Members.put_cons_eq_ok_iff.mpr (.inl ⟨here, rfl, meaning, meant, rfl⟩)⟩
      · obtain ⟨here, rfl, meaning, meant, rfl⟩ | ⟨elsewhere', behind', put', rfl⟩ :=
          Members.put_cons_eq_ok_iff.mp putSecond
        · exact ⟨(some meaning, further),
            Members.put_cons_eq_ok_iff.mpr (.inl ⟨here, rfl, meaning, meant, rfl⟩),
            Members.put_cons_eq_ok_iff.mpr (.inr ⟨elsewhere, behind, put, rfl⟩)⟩
        · obtain ⟨instead, putSecond, putFirst⟩ := ih put put'
          exact ⟨(known, instead),
            Members.put_cons_eq_ok_iff.mpr (.inr ⟨elsewhere', instead, putSecond, rfl⟩),
            Members.put_cons_eq_ok_iff.mpr (.inr ⟨elsewhere, behind', putFirst, rfl⟩)⟩

/-- A field is put once. -/
theorem Members.put_ne_ok_of_put {types : List Type} {members : Members types}
    {draft between filled : Draft types} {name : String} (field : name ∈ members.names)
    {value : Value} (put : members.put draft name value = .ok between) (other : Value) :
    members.put between name other ≠ .ok filled := by
  induction members with
  | nil => cases field
  | cons member others ih =>
      obtain ⟨known, further⟩ := draft
      intro again
      rcases Members.put_cons_eq_ok_iff.mp put with
        ⟨here, -, meaning, -, rfl⟩ | ⟨elsewhere, behind, first, rfl⟩
      · obtain ⟨-, none, -⟩ | ⟨elsewhere, -⟩ := Members.put_cons_eq_ok_iff.mp again
        · cases none
        · exact elsewhere here
      · obtain ⟨here, -⟩ | ⟨-, last, again, -⟩ := Members.put_cons_eq_ok_iff.mp again
        · exact elsewhere here
        · exact ih ((List.mem_cons.mp field).resolve_left (Ne.symm elsewhere)) first again

/-! ## All values -/

theorem Members.putAll_cons_eq_ok_iff {types : List Type} {members : Members types}
    {draft filled : Draft types} {member : String × Value} {named : List (String × Value)} :
    members.putAll draft (member :: named) = .ok filled ↔
      ∃ between, members.put draft member.1 member.2 = .ok between ∧
        members.putAll between named = .ok filled := by
  rw [Members.putAll]
  cases members.put draft member.1 member.2 <;> simp [bind, Except.bind]

/-- **The value of a field can be put last,** wherever it stands among the others. -/
theorem Members.putAll_around_iff {types : List Type} {members : Members types}
    {draft filled : Draft types} {name : String} (field : name ∈ members.names) {value : Value}
    {before after : List (String × Value)} :
    members.putAll draft (before ++ (name, value) :: after) = .ok filled ↔
      ∃ between, members.putAll draft (before ++ after) = .ok between ∧
        members.put between name value = .ok filled := by
  induction before generalizing draft with
  | cons member before ih =>
      simp only [List.cons_append, Members.putAll_cons_eq_ok_iff, ih]
      constructor
      · rintro ⟨further, first, between, others, last⟩
        exact ⟨between, ⟨further, first, others⟩, last⟩
      · rintro ⟨between, ⟨further, first, others⟩, last⟩
        exact ⟨further, first, between, others, last⟩
  | nil =>
      rw [List.nil_append, List.nil_append, Members.putAll_cons_eq_ok_iff]
      induction after generalizing draft with
      | nil =>
          constructor
          · rintro ⟨between, first, same⟩
            exact ⟨draft, rfl, first.trans same⟩
          · rintro ⟨between, same, last⟩
            obtain rfl := Except.ok.inj same
            exact ⟨filled, last, rfl⟩
      | cons member after ih =>
          simp only [Members.putAll_cons_eq_ok_iff] at ih ⊢
          constructor
          · rintro ⟨between, first, both, second, others⟩
            have different : name ≠ member.1 := by
              rintro rfl
              exact Members.put_ne_ok_of_put field first member.2 second
            obtain ⟨instead, second, first⟩ := Members.put_comm different first second
            obtain ⟨last, others, first⟩ := ih.mp ⟨both, first, others⟩
            exact ⟨last, ⟨instead, second, others⟩, first⟩
          · rintro ⟨last, ⟨instead, second, others⟩, first⟩
            obtain ⟨both, first, others⟩ := ih.mpr ⟨last, others, first⟩
            have different : member.1 ≠ name := by
              rintro rfl
              exact Members.put_ne_ok_of_put field second value first
            obtain ⟨between, first, second⟩ := Members.put_comm different second first
            exact ⟨between, first, both, second, others⟩

/-- Members that are no fields are passed over. -/
theorem Members.putAll_filter {types : List Type} (members : Members types) (draft : Draft types)
    (named : List (String × Value)) :
    members.putAll draft (named.filter (·.1 ∈ members.names)) = members.putAll draft named := by
  induction named generalizing draft with
  | nil => rfl
  | cons member named ih =>
      by_cases field : member.1 ∈ members.names
      · rw [List.filter_cons_of_pos (by simpa using field), Members.putAll, Members.putAll]
        exact congrArg _ (funext fun between => ih between)
      · rw [List.filter_cons_of_neg (by simpa using field), ih, Members.putAll,
          members.put_of_notMem draft field]
        rfl

/-- **Values of distinct names can be put in any order.** -/
theorem Members.putAll_perm {types : List Type} {members : Members types}
    {draft filled : Draft types} {named arranged : List (String × Value)}
    (rearranged : named.Perm arranged) (distinct : (named.map Prod.fst).Nodup)
    (put : members.putAll draft named = .ok filled) :
    members.putAll draft arranged = .ok filled := by
  induction rearranged generalizing draft with
  | nil => exact put
  | cons member _ ih =>
      obtain ⟨between, first, others⟩ := Members.putAll_cons_eq_ok_iff.mp put
      exact Members.putAll_cons_eq_ok_iff.mpr
        ⟨between, first, ih (List.nodup_cons.mp distinct).2 others⟩
  | swap second first named =>
      obtain ⟨between, putFirst, put⟩ := Members.putAll_cons_eq_ok_iff.mp put
      obtain ⟨both, putSecond, others⟩ := Members.putAll_cons_eq_ok_iff.mp put
      have different : first.1 ≠ second.1 := (List.nodup_cons.mp distinct).1 ∘ fun same => by
        rw [same]
        exact List.mem_cons_self
      obtain ⟨instead, putSecond, putFirst⟩ := Members.put_comm different putFirst putSecond
      exact Members.putAll_cons_eq_ok_iff.mpr
        ⟨instead, putSecond, Members.putAll_cons_eq_ok_iff.mpr ⟨both, putFirst, others⟩⟩
  | trans first second ihFirst ihSecond =>
      exact ihSecond ((first.map Prod.fst).nodup_iff.mp distinct) (ihFirst distinct put)

/-! ## Whole records -/

theorem Members.complete_cons_eq_ok_iff {α : Type} {types : List Type} {member : Member α}
    {others : Members types} {known : Option α} {further : Draft types}
    {values : Tuple (α :: types)} :
    (Members.cons member others).complete (known, further) = .ok values ↔
      ∃ value behind, known.or member.inObject? = some value ∧
        others.complete further = .ok behind ∧ values = (value, behind) := by
  rw [Members.complete]
  cases known.or member.inObject? with
  | none => simp
  | some value =>
      cases others.complete further with
      | error mismatch => simp [Except.map]
      | ok behind =>
          constructor
          · exact fun same => ⟨value, behind, rfl, rfl, (Except.ok.inj same).symm⟩
          · rintro ⟨_, _, ⟨⟩, ⟨⟩, rfl⟩
            rfl

/-- What an object stands for as a record of some kind. -/
theorem Variant.ofValue_record_eq_ok_iff {α : Type} {types : List Type} {name label : String}
    {members : Members types} {meaning : Tuple types → α} {named : List (String × Value)}
    {meant : α} : (Variant.record name label members meaning).ofValue (.object named) = .ok meant ↔
      ∃ draft values, members.putAll members.blank named = .ok draft ∧
        members.complete draft = .ok values ∧ meant = meaning values := by
  change (members.ofValue label (.object named)).map meaning = .ok meant ↔ _
  rw [Members.ofValue]
  cases members.putAll members.blank named with
  | error mismatch => simp [bind, Except.bind, Except.map]
  | ok draft =>
      cases complete : members.complete draft <;>
        simp [bind, Except.bind, Except.map, complete, eq_comm]

/-! ## Kinds of records -/

/-- Whether a kind of record passes over the order of members with distinct names, and over members
that are not among the fields of what is meant. -/
def Variant.Tolerant {α : Type} (variant : Variant α) (fields : α → List String) : Prop :=
  ∀ ⦃named further arranged : List (String × Value)⦄ ⦃meaning : α⦄,
    (named.map Prod.fst).Nodup → arranged.Perm (named ++ further) →
      variant.ofValue (.object named) = .ok meaning →
        (∀ member ∈ further, member.1 ∉ fields meaning) →
          variant.ofValue (.object arranged) = .ok meaning

/-- An object stands for the same values in any order, and with members that are no fields. -/
theorem Members.ofValue_rearranged {types : List Type} {members : Members types} {label : String}
    {named further arranged : List (String × Value)} {values : Tuple types}
    (distinct : (named.map Prod.fst).Nodup) (rearranged : arranged.Perm (named ++ further))
    (meant : members.ofValue label (.object named) = .ok values)
    (foreign : ∀ member ∈ further, member.1 ∉ members.names) :
    members.ofValue label (.object arranged) = .ok values := by
  have none : further.filter (·.1 ∈ members.names) = [] :=
    List.filter_eq_nil_iff.mpr fun member found => by simpa using foreign member found
  have fields : (named.filter (·.1 ∈ members.names)).Perm
      (arranged.filter (·.1 ∈ members.names)) := by
    have both := (rearranged.filter (·.1 ∈ members.names)).symm
    rwa [List.filter_append, none, List.append_nil] at both
  rw [Members.ofValue] at meant ⊢
  cases put : members.putAll members.blank named with
  | error mismatch =>
      rw [put] at meant
      cases meant
  | ok filled =>
      rw [← members.putAll_filter] at put
      have instead := Members.putAll_perm fields
        (distinct.sublist (List.filter_sublist.map Prod.fst)) put
      rw [members.putAll_filter] at put instead
      rw [put] at meant
      rw [instead]
      exact meant

theorem Variant.tolerant_record {α : Type} {types : List Type} (name label : String)
    (members : Members types) (meaning : Tuple types → α) {fields : α → List String}
    (known : ∀ values, members.names ⊆ fields (meaning values)) :
    (Variant.record name label members meaning).Tolerant fields := by
  intro named further arranged meant distinct rearranged read foreign
  change (members.ofValue label (.object named)).map meaning = .ok meant at read
  cases values : members.ofValue label (.object named) with
  | error mismatch =>
      rw [values] at read
      cases read
  | ok found =>
      rw [values] at read
      obtain rfl : meaning found = meant := Except.ok.inj read
      have instead := Members.ofValue_rearranged distinct rearranged values
        fun member inFurther field => foreign member inFurther (known found field)
      exact congrArg (Except.map meaning) instead

theorem Variant.tolerant_bare {α : Type} (name : String) (meaning : α) (fields : α → List String) :
    (Variant.bare name meaning).Tolerant fields :=
  fun _ _ _ _ _ _ read _ => read

end DownloadCache.Json
