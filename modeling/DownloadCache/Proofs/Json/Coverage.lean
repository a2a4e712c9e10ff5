import DownloadCache.Proofs.Json.Arrangement

/-!
# Everything that is read is laid out

Whatever a reader has read, it has read from tokens: what it took off a text is laid out from the
tokens of a term, so that the whole text is laid out from these and from whatever the rest is laid
out from (`Spans`).  This holds of values (`exists_term_of_readValue`) and of tagged records
(`exists_bindings_of_readTaggedObject`), so every text that is read as an object with a tag is laid
out from an object (`exists_laid_of_readWholeTagged`): a statement about all terms and all their
layouts is one about all texts.
-/

namespace DownloadCache.Json

set_option autoImplicit false

/-! ## Spans -/

/-- Whether tokens stand between a text and what is left of it. -/
def Spans (tokens : List Token) (input rest : Octets) : Prop :=
  ∀ ⦃left : List Token⦄, Laid left rest → Laid (tokens ++ left) input

theorem Spans.append {first second : List Token} {input between rest : Octets}
    (spans : Spans first input between) (further : Spans second between rest) :
    Spans (first ++ second) input rest := by
  intro left laid
  rw [List.append_assoc]
  exact spans (further laid)

theorem spans_token (token : Token) {input rest : Octets}
    (same : skipSpace input = token.octets ++ rest) : Spans [token] input rest :=
  fun _ laid => laid_cons_iff.mpr ⟨rest, same, laid⟩

/-- White space in front is spanned by whatever follows it. -/
theorem spans_skipSpace_iff {tokens : List Token} {input rest : Octets} :
    Spans tokens (skipSpace input) rest ↔ Spans tokens input rest :=
  ⟨fun spans _ laid => laid_skipSpace_iff.mp (spans laid),
    fun spans _ laid => laid_skipSpace_iff.mpr (spans laid)⟩

/-! ## Scalars and names -/

/-- What is read as a value without brackets is a scalar. -/
theorem exists_scalar {octet : UInt8} {input rest : Octets} {value : Value}
    (read : readScalar? octet input = some (.ok (value, rest))) :
    ∃ written : Scalar, octet :: input = (Token.scalar written).octets ++ rest := by
  rcases readScalar?_cases octet with ⟨-, none⟩ | ⟨reader, bounded, same⟩
  · rw [none] at read
    cases read
  · rw [same] at read
    obtain ⟨taken, rfl, again⟩ := bounded (Option.some.inj read)
    have closed : readScalar? octet taken = some (.ok (value, [])) := by
      have alone := again [] ended_nil
      rw [List.append_nil] at alone
      rw [same, alone]
    exact ⟨⟨octet, taken, value, closed⟩, rfl⟩

/-- What is read as a string is a name. -/
theorem exists_name {input rest : Octets} {text : String}
    (read : readString input = .ok (text, rest)) :
    ∃ name : Name, name.text = text ∧ input = name.others ++ rest := by
  obtain ⟨taken, rfl, again⟩ := bounded_readStringFrom .plain [] read
  have closed := again [] ended_nil
  rw [List.append_nil] at closed
  exact ⟨⟨taken, text, closed⟩, rfl, rfl⟩

/-! ## Brackets -/

theorem skipSpace_of_startValue {input rest : Octets} {octet : UInt8}
    (start : startValue input = .ok (octet, rest)) : skipSpace input = octet :: rest := by
  rw [startValue] at start
  split at start
  · cases start
  · obtain ⟨rfl, rfl⟩ := Prod.mk.inj (Except.ok.inj start)
    assumption

/-- Elements in a row span what leads to the first of them as well. -/
theorem spans_row_of_nextElement? {first : Bool} {item : List Token} {items : List (List Token)}
    {input start between rest : Octets} (next : nextElement? first input = .ok (some start))
    (spans : Spans item start between) (further : Spans (row false items) between rest) :
    Spans (row first (item :: items)) input rest := by
  rw [nextElement?] at next
  split at next
  · cases next
  · rename_i octet behind same
    split_ifs at next with close separated single
    · cases next
    · obtain ⟨rfl, rfl⟩ := separated
      split at next
      · cases next
      · rename_i octet' behind' same'
        split_ifs at next
        obtain rfl := Option.some.inj (Except.ok.inj next)
        rw [← same'] at spans
        exact (spans_token .comma same).append
          ((spans_skipSpace_iff.mp spans).append further)
    · obtain rfl := Option.some.inj (Except.ok.inj next)
      subst single
      rw [← same] at spans
      exact (spans_skipSpace_iff.mp spans).append further

theorem spans_of_closeList {input rest : Octets} (close : closeList input = .ok rest) :
    Spans [.closeBracket] input rest := by
  rw [closeList] at close
  split at close
  · cases close
  · rename_i octet behind same
    split_ifs at close with closed separated
    · obtain rfl := Except.ok.inj close
      subst closed
      exact spans_token .closeBracket same
    · split at close
      · cases close
      · split_ifs at close

theorem spans_of_closeObject {input rest : Octets} (close : closeObject input = .ok rest) :
    Spans [.closeBrace] input rest := by
  rw [closeObject] at close
  split at close
  · cases close
  · rename_i octet behind same
    split_ifs at close with closed
    obtain rfl := Except.ok.inj close
    subst closed
    exact spans_token .closeBrace same

theorem spans_of_readColon {input rest : Octets} (read : readColon input = .ok rest) :
    Spans [.colon] input rest := by
  rw [readColon] at read
  split at read
  · cases read
  · rename_i octet behind same
    split_ifs at read with found
    obtain rfl := Except.ok.inj read
    subst found
    exact spans_token .colon same

/-- Members in a row span what leads to the name of the first of them as well. -/
theorem spans_row_of_nextName? {first : Bool} {name : Name} {item : List Token}
    {items : List (List Token)} {input behindName between rest : Octets}
    (next : nextName? first input = .ok (some (name.others ++ behindName)))
    (spans : Spans item behindName between) (further : Spans (row false items) between rest) :
    Spans (row first ((.name name :: item) :: items)) input rest := by
  have named {before : Octets}
      (same : skipSpace before = quoteMark :: (name.others ++ behindName)) :
      Spans (.name name :: item) before between :=
    (spans_token (.name name) same).append spans
  rw [nextName?] at next
  split at next
  · cases next
  · rename_i octet behind same
    split_ifs at next with close separated single quoted
    · cases next
    · obtain ⟨rfl, rfl⟩ := separated
      split at next
      · cases next
      · rename_i octet' behind' same'
        split_ifs at next with quoted
        obtain rfl := Option.some.inj (Except.ok.inj next)
        subst quoted
        exact (spans_token .comma same).append ((named same').append further)
    · obtain rfl := Option.some.inj (Except.ok.inj next)
      subst single quoted
      exact (named same).append further

/-! ## Values -/

section Loops

variable {room : Nat}
  (inner : ∀ ⦃input value rest⦄, readValue room input = .ok (value, rest) →
    ∃ term : Term, Spans term.tokens input rest)
include inner

theorem exists_elements_of_readElements {rounds : Nat} {first : Bool} {read elements : List Value}
    {input rest : Octets}
    (result : readElements (readValue room) rounds first read input = .ok (elements, rest)) :
    ∃ terms : List Term, Spans (row first (terms.map Term.tokens)) input rest := by
  induction rounds generalizing first read input with
  | zero => cases result
  | succ rounds ih =>
      obtain ⟨next, found, result⟩ := bind_eq_ok_iff.mp result
      cases next with
      | none =>
          obtain ⟨-, rfl⟩ := Prod.mk.inj (Except.ok.inj result)
          exact ⟨[], fun _ laid => laid⟩
      | some start =>
          obtain ⟨⟨value, between⟩, element, result⟩ := bind_eq_ok_iff.mp result
          obtain ⟨term, spans⟩ := inner element
          obtain ⟨terms, further⟩ := ih result
          exact ⟨term :: terms, spans_row_of_nextElement? found spans further⟩

theorem exists_bindings_of_readMembers {rounds : Nat} {first : Bool}
    {read members : List (String × Value)} {input rest : Octets}
    (result : readMembers (readValue room) rounds first read input = .ok (members, rest)) :
    ∃ bindings : List Binding, Spans (row first (bindings.map Binding.tokens)) input rest := by
  induction rounds generalizing first read input with
  | zero => cases result
  | succ rounds ih =>
      obtain ⟨next, found, result⟩ := bind_eq_ok_iff.mp result
      cases next with
      | none =>
          obtain ⟨-, rfl⟩ := Prod.mk.inj (Except.ok.inj result)
          exact ⟨[], fun _ laid => laid⟩
      | some start =>
          obtain ⟨⟨text, behindName⟩, named, result⟩ := bind_eq_ok_iff.mp result
          obtain ⟨behindColon, colon, result⟩ := bind_eq_ok_iff.mp result
          obtain ⟨⟨value, between⟩, member, others⟩ := bind_eq_ok_iff.mp result
          obtain ⟨name, -, rfl⟩ := exists_name named
          obtain ⟨term, spans⟩ := inner member
          obtain ⟨bindings, further⟩ := ih others
          exact ⟨(name, term) :: bindings,
            spans_row_of_nextName? found ((spans_of_readColon colon).append spans) further⟩

end Loops

/-- What is read as a value is a scalar, or brackets with what another reader reads in them. -/
theorem readValueWith_cases {inner : Option (Octets → Except Fault (Value × Octets))}
    {input rest : Octets} {value : Value}
    (read : readValueWith inner input = .ok (value, rest)) :
    (∃ written : Scalar, Spans [.scalar written] input rest) ∨
      ∃ element, inner = some element ∧ ∃ behind between,
        (skipSpace input = openBracket :: behind ∧ Spans [.closeBracket] between rest ∧
          ∃ elements, readElements element (behind.length + 1) true [] behind =
            .ok (elements, between)) ∨
        (skipSpace input = openBrace :: behind ∧ Spans [.closeBrace] between rest ∧
          ∃ members, readMembers element (behind.length + 1) true [] behind =
            .ok (members, between)) := by
  obtain ⟨⟨octet, behind⟩, start, read⟩ := bind_eq_ok_iff.mp read
  have same := skipSpace_of_startValue start
  cases scalar : readScalar? octet behind with
  | some found =>
      simp only [scalar] at read
      rw [read] at scalar
      obtain ⟨written, octets⟩ := exists_scalar scalar
      exact .inl ⟨written, spans_token _ (same.trans octets)⟩
  | none =>
      simp only [scalar] at read
      cases inner with
      | none => cases read
      | some element =>
          refine .inr ⟨element, rfl, behind, ?_⟩
          dsimp only at read
          by_cases list : octet = openBracket
          · rw [if_pos list] at read
            obtain ⟨⟨elements, between⟩, inside, read⟩ := bind_eq_ok_iff.mp read
            obtain ⟨last, close, read⟩ := bind_eq_ok_iff.mp read
            obtain ⟨-, rfl⟩ := Prod.mk.inj (Except.ok.inj read)
            exact ⟨between, .inl ⟨list ▸ same, spans_of_closeList close, elements, inside⟩⟩
          · rw [if_neg list] at read
            obtain ⟨⟨members, between⟩, inside, read⟩ := bind_eq_ok_iff.mp read
            obtain ⟨last, close, read⟩ := bind_eq_ok_iff.mp read
            obtain ⟨-, rfl⟩ := Prod.mk.inj (Except.ok.inj read)
            have object : octet = openBrace := by
              rcases readScalar?_cases octet with ⟨opening, -⟩ | ⟨reader, -, always⟩
              · exact opening.resolve_left list
              · cases scalar.symm.trans (always behind)
            exact ⟨between, .inr ⟨object ▸ same, spans_of_closeObject close, members, inside⟩⟩

/-- **What is read as a value is laid out from a term.** -/
theorem exists_term_of_readValue {room : Nat} {input rest : Octets} {value : Value}
    (read : readValue room input = .ok (value, rest)) :
    ∃ term : Term, Spans term.tokens input rest := by
  induction room generalizing input value rest with
  | zero =>
      obtain ⟨written, spans⟩ | ⟨element, none, -⟩ := readValueWith_cases read
      · exact ⟨.scalar written, by rwa [Term.tokens]⟩
      · cases none
  | succ room ih =>
      have inner := fun input value rest => @ih input rest value
      obtain ⟨written, spans⟩ | ⟨element, same, behind, between, brackets⟩ :=
        readValueWith_cases read
      · exact ⟨.scalar written, by rwa [Term.tokens]⟩
      obtain rfl := Option.some.inj same
      obtain ⟨opening, closing, elements, inside⟩ | ⟨opening, closing, members, inside⟩ :=
        brackets
      · obtain ⟨terms, spans⟩ := exists_elements_of_readElements inner inside
        refine ⟨.array terms, ?_⟩
        rw [Term.tokens_array]
        exact (spans_token .openBracket opening).append (spans.append closing)
      · obtain ⟨bindings, spans⟩ := exists_bindings_of_readMembers inner inside
        refine ⟨.object bindings, ?_⟩
        rw [Term.tokens_object]
        exact (spans_token .openBrace opening).append (spans.append closing)

/-! ## Tagged records -/

section Tagged

variable {α : Type} {variants : List (Variant α)}

/-- What is read as a tag is laid out from a term. -/
theorem exists_term_of_readTag {input rest : Octets} {variant : Variant α}
    (read : readTag variants input = .ok (variant, rest)) :
    ∃ term : Term, Spans term.tokens input rest := by
  obtain ⟨⟨octet, behind⟩, start, read⟩ := bind_eq_ok_iff.mp read
  have same := skipSpace_of_startValue start
  dsimp only at read
  split_ifs at read with quoted
  · obtain ⟨⟨text, last⟩, string, read⟩ := bind_eq_ok_iff.mp read
    have scalar : readScalar? octet behind = some (.ok (.text text, last)) := by
      rw [quoted, readScalar?_quoteMark, string]
      rfl
    obtain ⟨written, octets⟩ := exists_scalar scalar
    have spans : Spans (Term.scalar written).tokens input last := by
      rw [Term.tokens]
      exact spans_token _ (same.trans octets)
    dsimp only at read
    split at read
    · obtain ⟨-, rfl⟩ := Prod.mk.inj (Except.ok.inj read)
      exact ⟨.scalar written, spans⟩
    · cases read

theorem within_eq_ok_iff {β : Type} {result : Except Fault β} {value : β} :
    within result = .ok value ↔ result = .ok value := by
  cases result <;> simp [within]

/-- What is read as the members of a tagged record is laid out from members. -/
theorem exists_bindings_of_readTaggedObject {rounds : Nat} {first : Bool}
    {tag? : Option (Variant α)} {read : List (String × Value)} {input rest : Octets}
    {found : Variant α × Value}
    (result : readTaggedObject variants rounds first tag? read input = .ok (found, rest)) :
    ∃ bindings : List Binding, Spans (row first (bindings.map Binding.tokens)) input rest := by
  induction rounds generalizing first tag? read input with
  | zero => cases result
  | succ rounds ih =>
      obtain ⟨next, name, result⟩ := bind_eq_ok_iff.mp result
      rw [within_eq_ok_iff] at name
      cases next with
      | none =>
          cases tag? with
          | none => cases result
          | some variant =>
              obtain ⟨-, rfl⟩ := Prod.mk.inj (Except.ok.inj result)
              exact ⟨[], fun _ laid => laid⟩
      | some start =>
          obtain ⟨⟨text, behindName⟩, named, inner⟩ := bind_eq_ok_iff.mp result
          obtain ⟨written, -, rfl⟩ := exists_name (within_eq_ok_iff.mp named)
          have member {behindColon between : Octets} {term : Term}
              (colon : readColon behindName = .ok behindColon)
              (spans : Spans term.tokens behindColon between)
              (further : ∃ bindings : List Binding,
                Spans (row false (bindings.map Binding.tokens)) between rest) :
              ∃ bindings : List Binding,
                Spans (row first (bindings.map Binding.tokens)) input rest := by
            obtain ⟨bindings, further⟩ := further
            exact ⟨(written, term) :: bindings,
              spans_row_of_nextName? name ((spans_of_readColon colon).append spans) further⟩
          dsimp only at inner
          by_cases tagged : text = tagName
          · rw [if_pos tagged] at inner
            by_cases again : tag?.isSome = true
            · rw [if_pos again] at inner
              cases inner
            · rw [if_neg again] at inner
              obtain ⟨behindColon, colon, inner⟩ := bind_eq_ok_iff.mp inner
              obtain ⟨⟨variant, between⟩, tag, others⟩ := bind_eq_ok_iff.mp inner
              obtain ⟨term, spans⟩ := exists_term_of_readTag (within_eq_ok_iff.mp tag)
              exact member (within_eq_ok_iff.mp colon) spans (ih others)
          · rw [if_neg tagged] at inner
            obtain ⟨behindColon, colon, inner⟩ := bind_eq_ok_iff.mp inner
            obtain ⟨⟨value, between⟩, content, others⟩ := bind_eq_ok_iff.mp inner
            obtain ⟨term, spans⟩ := exists_term_of_readValue (within_eq_ok_iff.mp content)
            exact member (within_eq_ok_iff.mp colon) spans (ih others)

/-- **A text that starts with a brace and is read as a tagged record is laid out from an object.**
-/
theorem exists_laid_of_readWholeTagged {expected : String} {text : Octets} {meaning : α}
    (opening : (skipSpace text).head? = some openBrace)
    (read : readWholeTagged expected variants text = .ok meaning) :
    ∃ bindings : List Binding, Laid (Term.object bindings).tokens text := by
  obtain ⟨variant, value, last, read, -, ended⟩ := readWholeTagged_eq_ok_iff.mp read
  obtain ⟨⟨octet, rest⟩, start, read⟩ := bind_eq_ok_iff.mp read
  have same := skipSpace_of_startValue start
  obtain rfl : octet = openBrace := by
    rw [same] at opening
    exact Option.some.inj opening
  obtain ⟨behind, read, close⟩ := finishObject_eq_ok_iff.mp read
  obtain ⟨bindings, spans⟩ := exists_bindings_of_readTaggedObject read
  have blank : Laid [] last := by
    rw [laid_nil_iff]
    rw [readEnd] at ended
    split at ended
    · assumption
    · cases ended
  refine ⟨bindings, ?_⟩
  have whole := (spans_token .openBrace same).append (spans.append (spans_of_closeObject close))
  have laid := whole blank
  rw [List.append_nil] at laid
  rw [Term.tokens_object]
  exact laid

end Tagged

end DownloadCache.Json
