import DownloadCache.Proofs.Json.Nesting
import DownloadCache.Proofs.Json.NumberToken

/-!
# Tagged records member by member

A tagged record is read from an object whose members are listed in any order.  The octets of a
member need not be known to be a value: all that is asked of them is that nothing but the whole of
them can be read as one (`Undivided`), as it is of values and of all numbers.  Then every reader of
the record goes from member to member; it is read as what the kind that the tag names makes of the
values of the others (`readWholeTagged_objectText`), and it is refused if one of them is no value.

What is collected from the members (`Collects`) depends on each of them alone: another value in the
place of one is collected in its place (`Collects.exists_around`).
-/

namespace DownloadCache.Json

set_option autoImplicit false

/-! ## Values in their places -/

/-- What a bounded reader leaves untouched it has no need of. -/
theorem Bounded.reads_front {α : Type} {reader : Octets → Except Fault (α × Octets)}
    (bounded : Bounded reader) {octets rest : Octets} {value : α}
    (read : reader (octets ++ rest) = .ok (value, rest)) : reader octets = .ok (value, []) := by
  obtain ⟨taken, whole, alone⟩ := bounded.reads_alone read
  obtain rfl := List.append_cancel_right whole
  exact alone

theorem bounded_readContent : Bounded readContent :=
  bounded_readValue _

/-- Whether nothing but the whole of octets can be read as a value where they stand. -/
def Undivided (octets : Octets) : Prop :=
  ∀ ⦃behind value rest⦄, Ended behind → readContent (octets ++ behind) = .ok (value, rest) →
    rest = behind

/-- Octets that are read as a value by themselves are so wherever they stand. -/
theorem undivided_of_readContent {octets : Octets} {value : Value}
    (read : readContent octets = .ok (value, [])) : Undivided octets := by
  intro behind found rest ended again
  rw [bounded_readContent.reads_on read ended] at again
  exact (Prod.mk.inj (Except.ok.inj again)).2.symm

/-! ## Numbers in their places -/

theorem readScalar?_of_startsNumber {octet : UInt8} (starts : startsNumber octet = true)
    (input : Octets) : readScalar? octet input =
      some ((readNumber octet input).map fun (number, rest) => (.number number, rest)) := by
  have other {mark : UInt8} (foreign : startsNumber mark = false) : octet ≠ mark := by
    rintro rfl
    exact Bool.noConfusion (foreign.symm.trans starts)
  rw [readScalar?, if_neg (other rfl), if_neg (other rfl), if_neg (other rfl), if_pos starts]

theorem isSpace_of_startsNumber {octet : UInt8} (starts : startsNumber octet = true) :
    isSpace octet = false := by
  rw [← Bool.not_eq_true]
  intro space
  simp only [isSpace, Bool.or_eq_true, beq_iff_eq] at space
  rcases space with ((rfl | rfl) | rfl) | rfl <;> cases starts

namespace NumberToken

variable (token : NumberToken) {blank : Octets} (isBlank : Blank blank)
include isBlank

/-- A number is read as a value as it is read as a number. -/
theorem readContent_cases {rest : Octets} (ended : Ended rest) :
    (token.IsPlain ∧ token.value ≤ maxSignificand) ∧
        readContent (blank ++ token.octets ++ rest) =
          .ok (.number (.count token.value.toUInt64), rest) ∨
      ¬(token.IsPlain ∧ token.value ≤ maxSignificand) ∧
        ∀ value behind, readContent (blank ++ token.octets ++ rest) = .ok (value, behind) →
          behind = rest ∧ ∃ number, value = .number number ∧ ∀ count, number ≠ .count count := by
  obtain ⟨octet, further, whole, starts, read⟩ := token.readNumber_cases ended
  have same : skipSpace (blank ++ token.octets ++ rest) = octet :: further := by
    rw [List.append_assoc, whole, skipSpace_blank_cons isBlank (isSpace_of_startsNumber starts)]
  rw [readContent, readValue_of_scalar _ same (readScalar?_of_startsNumber starts further)]
  refine read.imp (And.imp_right fun exact => by rw [exact]; rfl) (And.imp_right ?_)
  intro uncounted value behind content
  obtain ⟨⟨number, last⟩, found, same⟩ := map_eq_ok_iff.mp content
  obtain ⟨rfl, rfl⟩ := Prod.mk.inj same
  obtain ⟨left, noCount⟩ := uncounted found
  exact ⟨left, number, rfl, noCount⟩

theorem undivided : Undivided (blank ++ token.octets) := by
  intro behind value rest ended read
  rcases token.readContent_cases isBlank ended with ⟨-, exact⟩ | ⟨-, others⟩
  · rw [exact] at read
    exact (Prod.mk.inj (Except.ok.inj read)).2.symm
  · exact (others value rest read).1

/-- **A number is read as a count exactly if it is plain and fits a word,** and the count is what it
denotes. -/
theorem readContent_count_iff {count : UInt64} :
    readContent (blank ++ token.octets) = .ok (.number (.count count), []) ↔
      token.IsPlain ∧ count.toNat = token.value := by
  have cases := token.readContent_cases isBlank ended_nil
  rw [List.append_nil] at cases
  rcases cases with ⟨⟨plain, small⟩, exact⟩ | ⟨never, others⟩
  · rw [exact]
    have denotes : token.value.toUInt64.toNat = token.value :=
      UInt64.toNat_ofNat_of_lt' (Nat.lt_succ_of_le small)
    constructor
    · intro same
      obtain ⟨rfl⟩ := (Prod.mk.inj (Except.ok.inj same)).1
      exact ⟨plain, denotes⟩
    · rintro ⟨-, same⟩
      rw [← UInt64.toNat_inj.mp (same.trans denotes.symm)]
  · constructor
    · intro read
      obtain ⟨-, number, same, noCount⟩ := others _ _ read
      obtain ⟨rfl⟩ := same
      exact absurd rfl (noCount count)
    · rintro ⟨plain, same⟩
      exact absurd ⟨plain, same ▸ Nat.le_of_lt_succ count.toNat_lt⟩ never

end NumberToken

/-! ## Collecting -/

section Tagged

variable {α : Type} {variants : List (Variant α)}

theorem bounded_readTag (variants : List (Variant α)) : Bounded (readTag variants) := by
  refine bounded_startValue fun octet => ?_
  by_cases quoted : octet = quoteMark
  · simp only [if_pos quoted]
    refine (bounded_readStringFrom .plain []).bind (fun name => ?_)
      fun name input result rest read => ?_
    · cases found : variants.find? fun variant => variant.name == name with
      | none =>
          simp only [found]
          exact bounded_error (Mismatch.unknownVariant name (variants.map (·.name))).before
      | some variant =>
          simp only [found]
          exact bounded_ok variant
    · dsimp only at read
      split at read
      · exact .inl (Prod.mk.inj (Except.ok.inj read)).2.symm
      · cases read
  · simp only [if_neg quoted]
    exact bounded_error _

theorem readTag_eq_ok_iff {input rest : Octets} {variant : Variant α} :
    readTag variants input = .ok (variant, rest) ↔
      ∃ behind name, startValue input = .ok (quoteMark, behind) ∧
        readString behind = .ok (name, rest) ∧
          variants.find? (fun variant => variant.name == name) = some variant := by
  rw [readTag, bind_eq_ok_iff]
  constructor
  · rintro ⟨⟨octet, behind⟩, start, read⟩
    dsimp only at read
    split_ifs at read with quoted
    obtain ⟨⟨name, last⟩, string, read⟩ := bind_eq_ok_iff.mp read
    dsimp only at read
    split at read
    · rename_i found known
      obtain ⟨rfl, rfl⟩ := Prod.mk.inj (Except.ok.inj read)
      exact ⟨behind, name, quoted ▸ start, string, known⟩
    · cases read
  · rintro ⟨behind, name, start, string, known⟩
    refine ⟨_, start, ?_⟩
    dsimp only
    rw [if_pos rfl, bind_eq_ok_iff]
    refine ⟨_, string, ?_⟩
    simp only [known]
    rfl

/-- Where a tag is read, a value is read. -/
theorem exists_readContent_of_readTag {input rest : Octets} {variant : Variant α}
    (read : readTag variants input = .ok (variant, rest)) :
    ∃ value, readContent input = .ok (value, rest) := by
  obtain ⟨behind, name, start, string, -⟩ := readTag_eq_ok_iff.mp read
  refine ⟨.text name, ?_⟩
  rw [readContent, readValue_of_scalar _ (skipSpace_of_startValue start)
    (readScalar?_quoteMark behind), string]
  rfl

/-- What the members of a tagged record come to: the kind that the tag names, if the tag is among
them, and the values of the others in their order. -/
inductive Collects (variants : List (Variant α)) :
    List Part → Option (Variant α) → List (String × Value) → Prop
  | nil : Collects variants [] none []
  | tag {part : Part} {parts : List Part} {variant : Variant α} {named : List (String × Value)} :
      part.name = tagName → readTag variants part.2 = .ok (variant, []) →
        Collects variants parts none named → Collects variants (part :: parts) (some variant) named
  | other {part : Part} {parts : List Part} {variant? : Option (Variant α)}
      {named : List (String × Value)} {value : Value} : part.name ≠ tagName →
        readContent part.2 = .ok (value, []) → Collects variants parts variant? named →
          Collects variants (part :: parts) variant? ((part.name, value) :: named)

/-- What a reader of a tagged record does at a member. -/
theorem readTaggedObject_part (variants : List (Variant α)) {first : Bool} {part : Part}
    {parts : List Part} {input rest : Octets} (listed : Listed first (part :: parts) input rest) :
    ∃ behindName behind, Listed false parts behind rest ∧
      ∀ rounds tag? read, readTaggedObject variants (rounds + 1) first tag? read input =
        if part.name = tagName then
          if tag?.isSome then .error (.mismatch (.duplicateField tagName) behindName)
          else within (readTag variants (part.2 ++ behind)) >>= fun (variant, rest) =>
            readTaggedObject variants rounds false (some variant) read rest
        else within (readContent (part.2 ++ behind)) >>= fun (value, rest) =>
          readTaggedObject variants rounds false tag? ((part.name, value) :: read) rest := by
  obtain ⟨start, behindName, behind, next, name, colon, listed⟩ := listed.read_name
  refine ⟨behindName, behind, listed, fun rounds tag? read => ?_⟩
  cases tag? with
  | none | some tag =>
      rw [readTaggedObject, next]
      simp only [within, bind, Except.bind, name, colon]

/-- **What is collected is read,** behind a tag that was met before or with the tag to come. -/
theorem Collects.readTaggedObject_eq_ok {parts : List Part} {variant? tag? : Option (Variant α)}
    {named : List (String × Value)} (collects : Collects variants parts variant? named)
    {variant : Variant α} (known : tag?.or variant? = some variant)
    (once : tag? = none ∨ variant? = none) {rounds : Nat} (enough : parts.length < rounds)
    {first : Bool} (read : List (String × Value)) {input rest : Octets}
    (listed : Listed first parts input rest) :
    ∃ behind, readTaggedObject variants rounds first tag? read input =
        .ok ((variant, .object (read.reverse ++ named)), behind) ∧
      closeObject behind = .ok rest := by
  induction collects generalizing tag? rounds first read input with
  | nil =>
      obtain ⟨rounds, rfl⟩ := Nat.exists_eq_add_of_lt enough
      obtain ⟨none, close⟩ := listed.read_end
      rw [Option.or_none] at known
      subst known
      refine ⟨input, ?_, close⟩
      rw [readTaggedObject, none, List.append_nil]
      rfl
  | @tag part parts kind named tagged tag _ ih =>
      obtain ⟨rounds, rfl⟩ := Nat.exists_eq_succ_of_ne_zero (Nat.ne_zero_of_lt enough)
      obtain rfl : tag? = none := once.resolve_right (Option.some_ne_none _)
      obtain ⟨behindName, behind, listed, step⟩ := readTaggedObject_part variants listed
      rw [step, if_pos tagged, (bounded_readTag variants).reads_on tag listed.ended]
      exact ih known (.inr rfl) (Nat.lt_of_succ_lt_succ enough) read listed
  | @other part parts variant? named value untagged content _ ih =>
      obtain ⟨rounds, rfl⟩ := Nat.exists_eq_succ_of_ne_zero (Nat.ne_zero_of_lt enough)
      obtain ⟨behindName, behind, listed, step⟩ := readTaggedObject_part variants listed
      obtain ⟨last, others, close⟩ :=
        ih known once (Nat.lt_of_succ_lt_succ enough) ((part.name, value) :: read) listed
      refine ⟨last, ?_, close⟩
      rw [List.reverse_cons, List.append_assoc] at others
      rw [step, if_neg untagged, bounded_readContent.reads_on content listed.ended]
      exact others

/-- **What is read has been collected,** behind a tag that was met before or with the tag among
it. -/
theorem exists_collects_of_readTaggedObject {parts : List Part}
    (undivided : ∀ part ∈ parts, Undivided part.2) {tag? : Option (Variant α)} {rounds : Nat}
    (enough : parts.length < rounds) {first : Bool} {read : List (String × Value)}
    {input behind rest : Octets} (listed : Listed first parts input rest) {variant : Variant α}
    {value : Value} (result : readTaggedObject variants rounds first tag? read input =
      .ok ((variant, value), behind)) :
    ∃ variant? named, Collects variants parts variant? named ∧ tag?.or variant? = some variant ∧
      (tag? = none ∨ variant? = none) ∧ value = .object (read.reverse ++ named) ∧
        closeObject behind = .ok rest := by
  induction parts generalizing tag? rounds first read input with
  | nil =>
      obtain ⟨rounds, rfl⟩ := Nat.exists_eq_add_of_lt enough
      obtain ⟨none, close⟩ := listed.read_end
      cases tag? with
      | none =>
          rw [readTaggedObject, none] at result
          cases result
      | some tag =>
          rw [readTaggedObject, none] at result
          obtain ⟨⟨rfl, rfl⟩, rfl⟩ := Except.ok.inj result
          exact ⟨_, [], .nil, rfl, .inr rfl, by rw [List.append_nil], close⟩
  | cons part parts ih =>
      obtain ⟨rounds, rfl⟩ := Nat.exists_eq_succ_of_ne_zero (Nat.ne_zero_of_lt enough)
      obtain ⟨whole, undivided⟩ := List.forall_mem_cons.mp undivided
      obtain ⟨behindName, between, listed, step⟩ := readTaggedObject_part variants listed
      rw [step] at result
      by_cases tagged : part.name = tagName
      · rw [if_pos tagged] at result
        cases tag? with
        | some tag => cases result
        | none =>
            obtain ⟨⟨kind, last⟩, tag, others⟩ := bind_eq_ok_iff.mp result
            have tag := within_eq_ok_iff.mp tag
            obtain ⟨_, content⟩ := exists_readContent_of_readTag tag
            obtain rfl := whole listed.ended content
            obtain ⟨variant?, named, collects, known, once, value, close⟩ :=
              ih undivided (Nat.lt_of_succ_lt_succ enough) listed others
            obtain rfl : variant? = none := once.resolve_left (Option.some_ne_none _)
            have alone := (bounded_readTag variants).reads_front tag
            exact ⟨some kind, named, .tag tagged alone collects, known, .inl rfl, value, close⟩
      · rw [if_neg tagged] at result
        obtain ⟨⟨found, last⟩, content, others⟩ := bind_eq_ok_iff.mp result
        have content := within_eq_ok_iff.mp content
        obtain rfl := whole listed.ended content
        obtain ⟨variant?, named, collects, known, once, rfl, close⟩ :=
          ih undivided (Nat.lt_of_succ_lt_succ enough) listed others
        refine ⟨variant?, (part.name, found) :: named,
          .other tagged (bounded_readContent.reads_front content) collects, known, once, ?_, close⟩
        rw [List.reverse_cons, List.append_assoc]
        rfl

/-- **A text that is an object is read as what the kind that its tag names makes of the values of
the other members.** -/
theorem readWholeTagged_objectText (expected : String) {parts : List Part} {text : Octets}
    (object : ObjectText parts text) (undivided : ∀ part ∈ parts, Undivided part.2) {meaning : α} :
    readWholeTagged expected variants text = .ok meaning ↔
      ∃ variant named, Collects variants parts (some variant) named ∧
        variant.ofValue (.object named) = .ok meaning := by
  obtain ⟨input, rest, opening, listed, blank⟩ := object
  have enough : parts.length < input.length + 1 := Nat.lt_succ_of_lt listed.length_lt
  have record : readTagged expected variants text =
      finishObject (readTaggedObject variants (input.length + 1) true none [] input) := by
    rw [readTagged, startValue_of_skipSpace opening]
    rfl
  have ended : readEnd rest = .ok () := readEnd_eq_ok_iff.mpr blank
  rw [readWholeTagged_eq_ok_iff, record]
  constructor
  · rintro ⟨variant, value, last, read, meant, -⟩
    obtain ⟨behind, read, -⟩ := finishObject_eq_ok_iff.mp read
    obtain ⟨variant?, named, collects, known, -, rfl, -⟩ :=
      exists_collects_of_readTaggedObject undivided enough listed read
    obtain rfl : variant? = some variant := known
    exact ⟨variant, named, collects, meant⟩
  · rintro ⟨variant, named, collects, meant⟩
    obtain ⟨behind, read, close⟩ :=
      collects.readTaggedObject_eq_ok rfl (.inl rfl) enough [] listed
    exact ⟨variant, .object named, rest, finishObject_eq_ok_iff.mpr ⟨behind, read, close⟩, meant,
      ended⟩

/-- The kind is one of those that a tag may name. -/
theorem Collects.variant_mem {parts : List Part} {variant? : Option (Variant α)}
    {named : List (String × Value)} (collects : Collects variants parts variant? named) :
    ∀ variant ∈ variant?, variant ∈ variants := by
  induction collects with
  | nil => exact nofun
  | tag _ tag _ _ =>
      rintro _ ⟨⟩
      obtain ⟨_, _, -, -, known⟩ := readTag_eq_ok_iff.mp tag
      exact List.mem_of_find?_eq_some known
  | other _ _ _ ih => exact ih

/-! ## One member in the place of another -/

theorem Collects.unique {parts : List Part} {variant? other? : Option (Variant α)}
    {named others : List (String × Value)} (collects : Collects variants parts variant? named)
    (again : Collects variants parts other? others) : variant? = other? ∧ named = others := by
  induction collects generalizing other? others with
  | nil =>
      cases again
      exact ⟨rfl, rfl⟩
  | tag tagged tag _ ih =>
      cases again with
      | tag _ same again =>
          obtain ⟨rfl, -⟩ := Prod.mk.inj (Except.ok.inj (tag.symm.trans same))
          exact ⟨rfl, (ih again).2⟩
      | other untagged _ _ => exact absurd tagged untagged
  | other untagged content _ ih =>
      cases again with
      | tag tagged _ _ => exact absurd tagged untagged
      | other _ same again =>
          obtain ⟨rfl, -⟩ := Prod.mk.inj (Except.ok.inj (content.symm.trans same))
          obtain ⟨variant, named⟩ := ih again
          exact ⟨variant, congrArg _ named⟩

/-- **Another value in the place of a member is collected in its place.** -/
theorem Collects.exists_around {before after : List Part} {part : Part}
    (untagged : part.name ≠ tagName) {variant? : Option (Variant α)}
    {named : List (String × Value)}
    (collects : Collects variants (before ++ part :: after) variant? named) :
    ∃ namedBefore value namedAfter, named = namedBefore ++ (part.name, value) :: namedAfter ∧
      readContent part.2 = .ok (value, []) ∧
        ∀ other instead, other.name = part.name → readContent other.2 = .ok (instead, []) →
          Collects variants (before ++ other :: after) variant?
            (namedBefore ++ (part.name, instead) :: namedAfter) := by
  induction before generalizing variant? named with
  | nil =>
      cases collects with
      | tag tagged _ _ => exact absurd tagged untagged
      | @other _ _ _ named value _ content collects =>
          refine ⟨[], value, named, rfl, content, fun other instead same content => ?_⟩
          rw [← same]
          exact .other (same ▸ untagged) content collects
  | cons first before ih =>
      cases collects with
      | tag tagged tag collects =>
          obtain ⟨namedBefore, value, namedAfter, rfl, content, replaced⟩ := ih collects
          exact ⟨namedBefore, value, namedAfter, rfl, content,
            fun other instead same content => .tag tagged tag (replaced other instead same content)⟩
      | @other _ _ _ named found untagged found' collects =>
          obtain ⟨namedBefore, value, namedAfter, rfl, content, replaced⟩ := ih collects
          exact ⟨(first.name, found) :: namedBefore, value, namedAfter, rfl, content,
            fun other instead same content =>
              .other untagged found' (replaced other instead same content)⟩

end Tagged

end DownloadCache.Json
