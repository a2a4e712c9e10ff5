import Mathlib.Data.List.DropRight
import DownloadCache.Json.Tagged
import DownloadCache.Proofs.Json.Extent

/-!
# Layouts of values

A text is laid out from tokens with any white space in front of each token and behind the last
(`Laid`); a value is written as a term, and a term as tokens (`Term.tokens`).  Two texts that are
laid out from the same tokens differ in insignificant white space only.

What stands behind white space is the first token (`laid_cons_iff`), and a scalar or a name is read
wherever it stands, since no number goes on behind it unless another scalar follows
(`Scalar.reads_on`, `Name.reads_on`).
-/

namespace DownloadCache.Json

set_option autoImplicit false

/-! ## Tokens -/

/-- Octets that are read as one value without brackets. -/
structure Scalar where
  first : UInt8
  others : Octets
  value : Value
  reads : readScalar? first others = some (.ok (value, []))

/-- The octets of a string behind its opening quote, where it stands as a name. -/
structure Name where
  others : Octets
  text : String
  reads : readString others = .ok (text, [])

/-- What a text consists of, white space apart. -/
inductive Token where
  | comma
  | colon
  | openBracket
  | closeBracket
  | openBrace
  | closeBrace
  | name (written : Name)
  | scalar (written : Scalar)

/-- The octets of a token. -/
def Token.octets : Token → Octets
  | .comma => [Json.comma]
  | .colon => [Json.colon]
  | .openBracket => [Json.openBracket]
  | .closeBracket => [Json.closeBracket]
  | .openBrace => [Json.openBrace]
  | .closeBrace => [Json.closeBrace]
  | .name written => quoteMark :: written.others
  | .scalar written => written.first :: written.others

/-- Whether octets are white space. -/
def Blank (octets : Octets) : Prop :=
  ∀ octet ∈ octets, isSpace octet = true

instance (octets : Octets) : Decidable (Blank octets) :=
  List.decidableBAll (fun octet => isSpace octet = true) octets

/-- Whether a text consists of tokens, with any white space around them. -/
inductive Laid : List Token → Octets → Prop
  | nil {blank : Octets} : Blank blank → Laid [] blank
  | cons {token : Token} {tokens : List Token} {blank rest : Octets} :
      Blank blank → Laid tokens rest → Laid (token :: tokens) (blank ++ (token.octets ++ rest))

/-! ## Terms -/

/-- A value as it is written. -/
inductive Term where
  | scalar (written : Scalar)
  | array (elements : List Term)
  | object (members : List (Name × Term))

/-- Items with commas between them, the first of them behind the opening bracket or behind another
item. -/
def row : Bool → List (List Token) → List Token
  | _, [] => []
  | true, item :: others => item ++ row false others
  | false, item :: others => .comma :: (item ++ row false others)

/-- The tokens of a value. -/
def Term.tokens : Term → List Token
  | .scalar written => [.scalar written]
  | .array elements =>
      .openBracket :: (row true (elements.map fun element => element.tokens) ++ [.closeBracket])
  | .object members =>
      .openBrace ::
        (row true (members.map fun member => .name member.1 :: .colon :: member.2.tokens) ++
          [.closeBrace])
decreasing_by
  · have smaller := List.sizeOf_lt_of_mem ‹_ ∈ elements›
    simp only [Term.array.sizeOf_spec]
    omega
  · have smaller := List.sizeOf_lt_of_mem ‹_ ∈ members›
    have parts : sizeOf member = 1 + sizeOf member.1 + sizeOf member.2 := Prod.mk.sizeOf_spec ..
    simp only [Term.object.sizeOf_spec]
    omega

/-- The value of a term, if no more brackets are open at a time than there is room for. -/
def Term.value? : Nat → Term → Option Value
  | _, .scalar written => some written.value
  | 0, _ => none
  | room + 1, .array elements => (elements.mapM (Term.value? room)).map .array
  | room + 1, .object members =>
      (members.mapM fun member => (Term.value? room member.2).map fun value =>
        (member.1.text, value)).map .object

/-- A member as it is written. -/
abbrev Binding := Name × Term

/-- The name of a member. -/
def Binding.name (binding : Binding) : String :=
  binding.1.text

/-- The tokens of a member. -/
def Binding.tokens (binding : Binding) : List Token :=
  .name binding.1 :: .colon :: binding.2.tokens

/-- The name and the value of a member. -/
def Binding.value? (room : Nat) (binding : Binding) : Option (String × Value) :=
  (binding.2.value? room).map fun value => (binding.name, value)

theorem Term.tokens_array (elements : List Term) :
    (Term.array elements).tokens =
      .openBracket :: (row true (elements.map Term.tokens) ++ [.closeBracket]) := by
  rw [Term.tokens]

theorem Term.tokens_object (members : List Binding) :
    (Term.object members).tokens =
      .openBrace :: (row true (members.map Binding.tokens) ++ [.closeBrace]) := by
  rw [Term.tokens]
  rfl

theorem Term.value?_array (room : Nat) (elements : List Term) :
    (Term.array elements).value? (room + 1) =
      (elements.mapM (Term.value? room)).map .array :=
  rfl

theorem Term.value?_object (room : Nat) (members : List Binding) :
    (Term.object members).value? (room + 1) =
      (members.mapM (Binding.value? room)).map .object :=
  rfl

/-! ## White space -/

theorem skipSpace_append {blank : Octets} (isBlank : Blank blank) (rest : Octets) :
    skipSpace (blank ++ rest) = skipSpace rest :=
  List.dropWhile_append_of_pos isBlank

theorem blank_skipSpace_iff {octets : Octets} : Blank octets ↔ skipSpace octets = [] :=
  List.dropWhile_eq_nil_iff.symm

theorem Scalar.isSpace_first (written : Scalar) : isSpace written.first = false := by
  obtain ⟨first, others, value, reads⟩ := written
  by_contra space
  rw [Bool.not_eq_false] at space
  simp only [isSpace, Bool.or_eq_true, beq_iff_eq] at space
  rcases space with ((rfl | rfl) | rfl) | rfl <;> cases reads

/-- A string is read behind a quote. -/
theorem readScalar?_quoteMark (input : Octets) : readScalar? quoteMark input =
    some ((readString input).map fun (text, rest) => (.text text, rest)) :=
  rfl

/-- No value starts like what may stand between values. -/
theorem Scalar.first_ne (written : Scalar) :
    written.first ≠ Json.comma ∧ written.first ≠ Json.closeBracket := by
  obtain ⟨first, others, value, reads⟩ := written
  constructor <;> (rintro rfl; cases reads)

theorem Token.exists_octets (token : Token) :
    ∃ octet others, token.octets = octet :: others ∧ isSpace octet = false := by
  cases token with
  | scalar written => exact ⟨_, _, rfl, written.isSpace_first⟩
  | _ => exact ⟨_, _, rfl, rfl⟩

/-- White space ends where a token starts. -/
theorem Token.skipSpace_octets (token : Token) (rest : Octets) :
    skipSpace (token.octets ++ rest) = token.octets ++ rest := by
  obtain ⟨octet, others, same, mark⟩ := token.exists_octets
  rw [same, List.cons_append]
  exact List.dropWhile_cons_of_neg (by rw [mark]; decide)

theorem laid_nil_iff {input : Octets} : Laid [] input ↔ skipSpace input = [] :=
  ⟨fun | .nil blank => blank_skipSpace_iff.mp blank,
    fun none => .nil (blank_skipSpace_iff.mpr none)⟩

/-- **Behind white space, a text that is laid out from tokens goes on with the first of them.** -/
theorem laid_cons_iff {token : Token} {tokens : List Token} {input : Octets} :
    Laid (token :: tokens) input ↔
      ∃ rest, skipSpace input = token.octets ++ rest ∧ Laid tokens rest := by
  constructor
  · rintro (_ | @⟨_, _, blank, rest, isBlank, laid⟩)
    exact ⟨rest, by rw [skipSpace_append isBlank, token.skipSpace_octets], laid⟩
  · rintro ⟨rest, same, laid⟩
    have whole : input = input.takeWhile isSpace ++ (token.octets ++ rest) := by
      rw [← same]
      exact List.takeWhile_append_dropWhile.symm
    rw [whole]
    exact .cons (fun _ member => List.mem_takeWhile_imp member) laid

theorem skipSpace_skipSpace (input : Octets) : skipSpace (skipSpace input) = skipSpace input :=
  List.dropWhile_idempotent _ input

/-- White space in front is insignificant. -/
theorem laid_skipSpace_iff {tokens : List Token} {input : Octets} :
    Laid tokens (skipSpace input) ↔ Laid tokens input := by
  cases tokens with
  | nil => rw [laid_nil_iff, laid_nil_iff, skipSpace_skipSpace]
  | cons token tokens => rw [laid_cons_iff, laid_cons_iff, skipSpace_skipSpace]

/-- There are at least as many octets as tokens. -/
theorem Laid.length_le {tokens : List Token} {input : Octets} (laid : Laid tokens input) :
    tokens.length ≤ input.length := by
  induction laid with
  | nil => exact Nat.zero_le _
  | @cons token tokens blank rest isBlank laid ih =>
      obtain ⟨octet, others, same, -⟩ := token.exists_octets
      simp only [same, List.length_append, List.length_cons]
      omega

/-- Tokens may be laid out with the same white space in front of each. -/
theorem laid_flatMap {blank : Octets} (isBlank : Blank blank) (tokens : List Token) :
    Laid tokens (tokens.flatMap fun token => blank ++ token.octets) := by
  induction tokens with
  | nil => exact .nil (List.forall_mem_nil _)
  | cons token tokens ih =>
      rw [List.flatMap_cons, List.append_assoc]
      exact .cons isBlank ih

/-! ## Ends of scalars -/

/-- Whether tokens do not start with a scalar. -/
def Parted (tokens : List Token) : Prop :=
  ∀ written, tokens.head? ≠ some (.scalar written)

/-- White space ends every number. -/
theorem ended_of_isSpace {octet : UInt8} (space : isSpace octet = true) (rest : Octets) :
    Ended (octet :: rest) := by
  rw [ended_cons]
  simp only [isSpace, Bool.or_eq_true, beq_iff_eq] at space
  rcases space with ((rfl | rfl) | rfl) | rfl <;> decide

/-- No number goes on where a text goes on with white space or with a token that is no scalar. -/
theorem Laid.ended {tokens : List Token} {input : Octets} (laid : Laid tokens input)
    (parted : Parted tokens) : Ended input := by
  cases laid with
  | nil blank =>
      cases input with
      | nil => exact ended_nil
      | cons octet rest => exact ended_of_isSpace (blank octet List.mem_cons_self) rest
  | @cons token tokens blank rest isBlank laid =>
      cases blank with
      | cons octet blank => exact ended_of_isSpace (isBlank octet List.mem_cons_self) _
      | nil =>
          cases token with
          | scalar written => exact absurd rfl (parted written)
          | _ => exact ended_cons.mpr (by decide)

/-- A scalar is read wherever it ends. -/
theorem Scalar.reads_on (written : Scalar) {rest : Octets} (ended : Ended rest) :
    readScalar? written.first (written.others ++ rest) = some (.ok (written.value, rest)) := by
  have closed := written.reads
  rcases readScalar?_cases written.first with ⟨-, none⟩ | ⟨reader, bounded, read⟩
  · rw [none] at closed
    cases closed
  · rw [read] at closed
    obtain ⟨taken, same, again⟩ := bounded (Option.some.inj closed)
    rw [List.append_nil] at same
    rw [read, same, again rest ended]

/-- A name is read wherever it ends. -/
theorem Name.reads_on (written : Name) {rest : Octets} (ended : Ended rest) :
    readString (written.others ++ rest) = .ok (written.text, rest) := by
  obtain ⟨taken, same, again⟩ := bounded_readStringFrom .plain [] written.reads
  rw [List.append_nil] at same
  rw [same]
  exact again rest ended

end DownloadCache.Json
