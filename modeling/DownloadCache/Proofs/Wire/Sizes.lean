import DownloadCache.Proofs.Json.Tagging
import DownloadCache.Proofs.Wire.Tolerance

/-!
# Sizes of additions

The size in an addition is read exactly or not at all (`Command.size_read_exactly`).  An object that
is an addition with some number as its size is one with another number as its size exactly if that
number is written in digits only and fits a word, and the size is then the number that the digits
denote.  A sign, a fraction or an exponent is refused whatever the value, and so is every greater
integer: such numbers are kept as something else than counts while the tag is looked for, and a size
is asked for as a count.

The number is read where it stands as it is by itself, and all else in the object is read as it was
(`Collects.exists_around`).  Its value is one of the values of the kind of record, and can be put
there last (`Members.putAll_around_iff`).
-/

namespace DownloadCache

set_option autoImplicit false

open Json

/-! ## Words -/

/-- A word is what a count stands for, and nothing else. -/
theorem Json.Form.word_eq_ok_iff {value : Value} {word : UInt64} :
    Form.word.ofValue value = .ok word ↔ value = .number (.count word) := by
  constructor
  · intro meant
    cases value with
    | number number =>
        cases number with
        | count count =>
            rw [Form.word_ofValue] at meant
            rw [Except.ok.inj meant]
        | negative | double => cases meant
    | null | boolean | text | array | object => cases meant
  · rintro rfl
    exact Form.word_ofValue word

namespace Wire

/-! ## Additions -/

/-- The members of an addition. -/
def Command.additionMembers : Members [String, String, UInt64, Validators] :=
  .cons (textMember "key") (.cons (textMember "stagingPath")
    (.cons (.required "size" .word) (.cons (.withDefault "cachingInfo" Validators.form {}) .nil)))

/-- What the members of an addition stand for. -/
def Command.additionOf : Tuple [String, String, UInt64, Validators] → Command :=
  fun (key, staging, size, validators, ()) => .add key staging size validators

/-- The kind of command that an addition is. -/
def Command.additionVariant : Variant Command :=
  .record "add" "struct variant Command::Add" additionMembers additionOf

theorem Command.ofValue_textVariant_ne {name label text : String} {meaning : String → Command}
    {command : Command} (other : ∀ value, meaning value ≠ command) (value : Value) :
    (textVariant name label text meaning).ofValue value ≠ .ok command := by
  intro meant
  obtain ⟨⟨found, ⟨⟩⟩, -, same⟩ := map_eq_ok_iff.mp meant
  exact other found same

theorem Command.ofValue_bare_ne {name : String} {meaning command : Command}
    (other : meaning ≠ command) (value : Value) :
    (Variant.bare name meaning).ofValue value ≠ .ok command := by
  intro meant
  rw [Variant.bare] at meant
  dsimp only at meant
  split at meant
  · exact other (Except.ok.inj meant)
  · cases meant
  · exact other (Except.ok.inj meant)

/-- No other kind of command gives an addition. -/
theorem Command.eq_additionVariant {variant : Variant Command} (kind : variant ∈ variants)
    {value : Value} {key staging : String} {size : UInt64} {validators : Validators}
    (meant : variant.ofValue value = .ok (.add key staging size validators)) :
    variant = additionVariant := by
  simp only [variants, List.mem_cons, List.not_mem_nil, or_false] at kind
  rcases kind with rfl | rfl | rfl | rfl | rfl | rfl | rfl | rfl
  · rfl
  iterate 5 exact absurd meant (ofValue_textVariant_ne (fun _ => Command.noConfusion) value)
  · exact absurd meant (ofValue_bare_ne Command.noConfusion value)
  · exact absurd meant (ofValue_bare_ne Command.noConfusion value)

/-- What a value in the place of the size comes to. -/
theorem Command.put_size_iff {key? staging? : Option String} {size? : Option UInt64}
    {further : Draft [Validators]} {filled : Draft [String, String, UInt64, Validators]}
    {value : Value} :
    additionMembers.put (key?, staging?, size?, further) "size" value = .ok filled ↔
      size? = none ∧ ∃ size, value = .number (.count size) ∧
        filled = (key?, staging?, some size, further) := by
  constructor
  · intro put
    obtain ⟨here, -⟩ | ⟨-, _, behindKey, rfl⟩ := Members.put_cons_eq_ok_iff.mp put
    · exact absurd here (by decide)
    obtain ⟨here, -⟩ | ⟨-, _, last, rfl⟩ := Members.put_cons_eq_ok_iff.mp behindKey
    · exact absurd here (by decide)
    obtain ⟨-, none, size, meant, rfl⟩ | ⟨elsewhere, -⟩ := Members.put_cons_eq_ok_iff.mp last
    · exact ⟨none, size, Form.word_eq_ok_iff.mp meant, rfl⟩
    · exact absurd rfl elsewhere
  · rintro ⟨none, size, count, rfl⟩
    have meant : Form.word.ofValue value = .ok size := Form.word_eq_ok_iff.mpr count
    refine Members.put_cons_eq_ok_iff.mpr (.inr ⟨by decide, _, ?_, rfl⟩)
    refine Members.put_cons_eq_ok_iff.mpr (.inr ⟨by decide, _, ?_, rfl⟩)
    exact Members.put_cons_eq_ok_iff.mpr (.inl ⟨rfl, none, size, meant, rfl⟩)

/-- What a draft with a size is completed to. -/
theorem Command.complete_size_iff {key? staging? : Option String} {size : UInt64}
    {further : Draft [Validators]} {command : Command} :
    (∃ values, additionMembers.complete (key?, staging?, some size, further) = .ok values ∧
      command = additionOf values) ↔
      ∃ key staging validators, key? = some key ∧ staging? = some staging ∧
        further.1.or (some {}) = some validators ∧ command = .add key staging size validators := by
  obtain ⟨validators?, _⟩ := further
  constructor
  · rintro ⟨values, complete, rfl⟩
    obtain ⟨key, _, hasKey, behindKey, rfl⟩ := Members.complete_cons_eq_ok_iff.mp complete
    obtain ⟨staging, _, hasStaging, behindStaging, rfl⟩ :=
      Members.complete_cons_eq_ok_iff.mp behindKey
    obtain ⟨_, _, same, last, rfl⟩ := Members.complete_cons_eq_ok_iff.mp behindStaging
    obtain ⟨validators, _, hasValidators, -, rfl⟩ := Members.complete_cons_eq_ok_iff.mp last
    obtain rfl := Option.some.inj same
    exact ⟨key, staging, validators, Option.or_none.symm.trans hasKey,
      Option.or_none.symm.trans hasStaging, hasValidators, rfl⟩
  · rintro ⟨key, staging, validators, rfl, rfl, hasValidators, rfl⟩
    refine ⟨(key, staging, size, validators, ()), ?_, rfl⟩
    refine Members.complete_cons_eq_ok_iff.mpr ⟨key, (staging, size, validators, ()), rfl, ?_, rfl⟩
    refine Members.complete_cons_eq_ok_iff.mpr ⟨staging, (size, validators, ()), rfl, ?_, rfl⟩
    refine Members.complete_cons_eq_ok_iff.mpr ⟨size, (validators, ()), rfl, ?_, rfl⟩
    exact Members.complete_cons_eq_ok_iff.mpr ⟨validators, (), hasValidators, rfl, rfl⟩

/-- **Of an addition, the size can be replaced by a count and by nothing else.** -/
theorem Command.ofValue_around_iff {before after : List (String × Value)} {sized instead : Value}
    {key staging : String} {size : UInt64} {validators : Validators}
    (meant : additionVariant.ofValue (.object (before ++ ("size", sized) :: after)) =
      .ok (.add key staging size validators)) {command : Command} :
    additionVariant.ofValue (.object (before ++ ("size", instead) :: after)) = .ok command ↔
      ∃ count, instead = .number (.count count) ∧
        command = .add key staging count validators := by
  have field : "size" ∈ additionMembers.names := by decide
  have around {value : Value} {command : Command} :
      additionVariant.ofValue (.object (before ++ ("size", value) :: after)) = .ok command ↔
        ∃ key? staging? further, additionMembers.putAll additionMembers.blank (before ++ after) =
            .ok (key?, staging?, none, further) ∧
          ∃ count, value = .number (.count count) ∧ ∃ key staging validators, key? = some key ∧
            staging? = some staging ∧ further.1.or (some {}) = some validators ∧
              command = .add key staging count validators := by
    rw [additionVariant, Variant.ofValue_record_eq_ok_iff]
    simp only [Members.putAll_around_iff field, ← complete_size_iff]
    constructor
    · rintro ⟨draft, values, ⟨⟨key?, staging?, size?, further⟩, put, last⟩, complete, rfl⟩
      obtain ⟨rfl, count, same, rfl⟩ := put_size_iff.mp last
      exact ⟨key?, staging?, further, put, count, same, values, complete, rfl⟩
    · rintro ⟨key?, staging?, further, put, count, same, values, complete, rfl⟩
      exact ⟨_, values, ⟨_, put, put_size_iff.mpr ⟨rfl, count, same, rfl⟩⟩, complete, rfl⟩
  obtain ⟨key?, staging?, further, put, _, -, _, _, _, rfl, rfl, hasValidators, same⟩ :=
    around.mp meant
  obtain ⟨rfl, rfl, rfl, rfl⟩ := Command.add.inj same
  rw [around]
  constructor
  · rintro ⟨_, _, further', put', count, counted, key', staging', validators', rfl, rfl,
      hasValidators', rfl⟩
    cases put.symm.trans put'
    exact ⟨count, counted, by rw [Option.some.inj (hasValidators.symm.trans hasValidators')]⟩
  · rintro ⟨count, counted, rfl⟩
    exact ⟨_, _, further, put, count, counted, key, staging, validators, rfl, rfl, hasValidators,
      rfl⟩

/-! ## Objects -/

/-- Whether an object is an addition but for its size: the octets of every other member are read as
a value, and with some number as its size the object is read as an addition. -/
structure Command.AdditionBut (name : Name) (before after : List Part) (key staging : String)
    (validators : Validators) : Prop where
  named : name.text = "size"
  valued : ∀ part ∈ before ++ after, ∃ value, readContent part.2 = .ok (value, [])
  sized : ∃ (token : NumberToken) (text : Octets) (size : UInt64),
    ObjectText (before ++ (name, token.octets) :: after) text ∧
      Command.read text = .ok (.add key staging size validators)

section Sizes

variable {name : Name} {before after : List Part} {key staging : String} {validators : Validators}
  (addition : Command.AdditionBut name before after key staging validators)
include addition

/-- No member can be read in part, whatever number the size is. -/
theorem Command.AdditionBut.undivided (token : NumberToken) {blank : Octets}
    (isBlank : Blank blank) :
    ∀ part ∈ before ++ (name, blank ++ token.octets) :: after, Undivided part.2 := by
  intro part member
  rcases List.mem_append.mp member with member | member
  · obtain ⟨value, read⟩ := addition.valued part (List.mem_append_left after member)
    exact undivided_of_readContent read
  rcases List.mem_cons.mp member with rfl | member
  · exact token.undivided isBlank
  · obtain ⟨value, read⟩ := addition.valued part (List.mem_append_right before member)
    exact undivided_of_readContent read

/-- **With a number as its size, the object is read as an addition with a count as its size,** if
the number is read as one. -/
theorem Command.AdditionBut.read_eq_ok_iff (token : NumberToken) {blank : Octets}
    (isBlank : Blank blank) {text : Octets}
    (object : ObjectText (before ++ (name, blank ++ token.octets) :: after) text)
    {command : Command} : Command.read text = .ok command ↔
      ∃ size, readContent (blank ++ token.octets) = .ok (.number (.count size), []) ∧
        command = .add key staging size validators := by
  have untagged (octets : Octets) : Part.name (name, octets) ≠ tagName := by
    rw [Part.name, addition.named]
    decide
  obtain ⟨token₀, text₀, size₀, object₀, read₀⟩ := addition.sized
  have undivided₀ := addition.undivided token₀ (List.forall_mem_nil _)
  obtain ⟨variant, named, collects, meant⟩ :=
    (readWholeTagged_objectText _ object₀ undivided₀).mp read₀
  obtain rfl := eq_additionVariant (collects.variant_mem _ rfl) meant
  obtain ⟨namedBefore, value₀, namedAfter, rfl, -, replaced⟩ :=
    collects.exists_around (untagged token₀.octets)
  have size : Part.name (name, token₀.octets) = "size" := addition.named
  rw [size] at meant replaced
  rw [Command.read, readWholeTagged_objectText _ object (addition.undivided token isBlank)]
  constructor
  · rintro ⟨variant, others, again, meantNow⟩
    obtain ⟨_, value, _, -, content, -⟩ :=
      again.exists_around (untagged (blank ++ token.octets))
    have instead := replaced (name, blank ++ token.octets) value addition.named content
    obtain ⟨same, rfl⟩ := again.unique instead
    obtain rfl := Option.some.inj same
    obtain ⟨count, rfl, rfl⟩ := (ofValue_around_iff meant).mp meantNow
    exact ⟨count, content, rfl⟩
  · rintro ⟨count, content, rfl⟩
    exact ⟨_, _, replaced (name, blank ++ token.octets) _ addition.named content,
      (ofValue_around_iff meant).mpr ⟨count, rfl, rfl⟩⟩

/-- **The size in an addition is read exactly or not at all.**  An object that is an addition but
for its size is read with a number as its size exactly if the number is written in digits only,
without a zero in front of others, and denotes less than 2⁶⁴.  What is read is the addition with
that very number as its size. -/
theorem Command.size_read_exactly (token : NumberToken) {blank : Octets} (isBlank : Blank blank)
    {text : Octets}
    (object : ObjectText (before ++ (name, blank ++ token.octets) :: after) text) :
    ((∃ command, Command.read text = .ok command) ↔
      token.IsPlain ∧ token.value ≤ 2 ^ 64 - 1) ∧
    ∀ command, Command.read text = .ok command →
      ∃ size, size.toNat = token.value ∧ command = .add key staging size validators := by
  simp only [addition.read_eq_ok_iff token isBlank object, token.readContent_count_iff isBlank]
  refine ⟨⟨?_, ?_⟩, ?_⟩
  · rintro ⟨_, size, ⟨plain, denotes⟩, -⟩
    exact ⟨plain, denotes ▸ Nat.le_of_lt_succ size.toNat_lt⟩
  · rintro ⟨plain, small⟩
    have denotes : (UInt64.ofNat token.value).toNat = token.value :=
      UInt64.toNat_ofNat_of_lt' (Nat.lt_succ_of_le small)
    exact ⟨_, _, ⟨plain, denotes⟩, rfl⟩
  · rintro command ⟨size, ⟨-, denotes⟩, rfl⟩
    exact ⟨size, denotes, rfl⟩

end Sizes

/-- A member whose value is a text. -/
def textPart (name text : String) : Part :=
  (.ofText name, quoteMark :: bodyOctets text)

/-- The members of an addition without its size. -/
def unsized : List Part :=
  [textPart "type" "add", textPart "key" "k", textPart "stagingPath" "s"]

/-- An addition with a number as its size. -/
def sizedText (token : NumberToken) : Octets :=
  objectOctets (unsized ++ [(.ofText "size", token.octets)])

theorem additionBut_unsized : Command.AdditionBut (.ofText "size") unsized [] "k" "s" {} where
  named := rfl
  valued := by
    have valued (name text : String) :
        ∃ value, readContent (textPart name text).2 = .ok (value, []) := by
      have same : skipSpace (quoteMark :: bodyOctets text) = quoteMark :: bodyOctets text :=
        skipSpace_cons rfl _
      have string : readString (bodyOctets text) = .ok (text, []) := (Name.ofText text).reads
      refine ⟨.text text, ?_⟩
      rw [textPart, readContent, readValue_of_scalar _ same (readScalar?_quoteMark _), string]
      rfl
    rw [List.append_nil]
    simp only [unsized, List.forall_mem_cons]
    exact ⟨valued .., valued .., valued .., List.forall_mem_nil _⟩
  sized := ⟨⟨false, ⟨7, []⟩, none, none⟩, _, 7, objectText_objectOctets _, rfl⟩

/-- The greatest word is read as it is.  The number above it is refused, and so are a zero with a
sign, whole numbers with a fraction or an exponent, and a seven behind zeros. -/
theorem Command.size_read_exactly_of_greatest_word :
    Command.AdditionBut (.ofText "size") unsized [] "k" "s" {} ∧ Blank [] ∧
      (∃ command, Command.read
          (sizedText ⟨false, ⟨1, [8, 4, 4, 6, 7, 4, 4, 0, 7, 3, 7, 0, 9, 5, 5, 1, 6, 1, 5]⟩, none,
            none⟩) = .ok command ∧ command = .add "k" "s" 18446744073709551615 {}) ∧
      ∀ token ∈ [
        ⟨false, ⟨1, [8, 4, 4, 6, 7, 4, 4, 0, 7, 3, 7, 0, 9, 5, 5, 1, 6, 1, 6]⟩, none, none⟩,
        ⟨true, ⟨0, []⟩, none, none⟩,
        ⟨false, ⟨1, []⟩, some ⟨0, []⟩, none⟩,
        ⟨false, ⟨1, []⟩, none, some ⟨false, none, ⟨3, []⟩⟩⟩,
        ⟨false, ⟨0, [0, 7]⟩, none, none⟩],
        ¬∃ command, Command.read (sizedText token) = .ok command := by
  have blank : Blank [] := List.forall_mem_nil _
  have exactly (token : NumberToken) := Command.size_read_exactly additionBut_unsized token blank
    (objectText_objectOctets (unsized ++ [(.ofText "size", token.octets)]))
  refine ⟨additionBut_unsized, blank, ?_, fun token member accepted => ?_⟩
  · obtain ⟨accepts, exact⟩ := exactly
      ⟨false, ⟨1, [8, 4, 4, 6, 7, 4, 4, 0, 7, 3, 7, 0, 9, 5, 5, 1, 6, 1, 5]⟩, none, none⟩
    obtain ⟨command, read⟩ := accepts.mpr (by decide)
    obtain ⟨size, denotes, rfl⟩ := exact command read
    obtain rfl : size = 18446744073709551615 := UInt64.toNat_inj.mp denotes
    exact ⟨_, read, rfl⟩
  · have plain := (exactly token).1.mp accepted
    clear accepted
    revert token
    decide

end Wire

end DownloadCache
