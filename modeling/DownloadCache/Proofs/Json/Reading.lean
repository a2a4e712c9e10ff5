import DownloadCache.Proofs.Json.Layout

/-!
# Reading what is laid out

A reader sees the tokens of a text and not its white space.  Of a text that is laid out from the
tokens of a term and from others, a reader of values gives the value of the term and leaves a text
that is laid out from the others; it fails if the term opens more brackets than there is room for
(`Term.gives_readValue`).

One statement covers success and failure: a reader gives what is expected, if anything is
(`Gives`), and readers one after the other give what is expected of them one after the other
(`Gives.bind`).  The induction is on the room for brackets, as the reader's own recursion is; within
brackets it goes along the elements or the members.
-/

namespace DownloadCache.Json

set_option autoImplicit false

/-! ## Brackets and names -/

theorem startValue_laid {token : Token} {tokens : List Token} {input : Octets} {octet : UInt8}
    {others : Octets} (starts : token.octets = octet :: others)
    (laid : Laid (token :: tokens) input) :
    ∃ rest, startValue input = .ok (octet, others ++ rest) ∧ Laid tokens rest := by
  obtain ⟨rest, same, laid⟩ := laid_cons_iff.mp laid
  refine ⟨rest, ?_, laid⟩
  rw [startValue, same, starts]
  rfl

/-- A value starts with a bracket that opens or with a scalar, so with neither a comma nor a
bracket that closes a list. -/
theorem Term.tokens_eq_cons (term : Term) :
    ∃ token tokens octet others, term.tokens = token :: tokens ∧ token.octets = octet :: others ∧
      octet ≠ comma ∧ octet ≠ closeBracket := by
  cases term with
  | scalar written =>
      rw [Term.tokens]
      exact ⟨_, _, _, _, rfl, rfl, written.first_ne⟩
  | array elements | object members =>
      rw [Term.tokens]
      exact ⟨_, _, _, _, rfl, rfl, by decide⟩

theorem nextElement?_closeBracket {first : Bool} {tokens : List Token} {input : Octets}
    (laid : Laid (.closeBracket :: tokens) input) : nextElement? first input = .ok none := by
  obtain ⟨rest, same, -⟩ := laid_cons_iff.mp laid
  rw [nextElement?, same]
  rfl

/-- Behind the opening bracket or a comma, the next element starts. -/
theorem nextElement?_row {first : Bool} {term : Term} {items : List (List Token)}
    {tokens : List Token} {input : Octets}
    (laid : Laid (row first (term.tokens :: items) ++ tokens) input) :
    ∃ start, nextElement? first input = .ok (some start) ∧
      Laid (term.tokens ++ (row false items ++ tokens)) start := by
  obtain ⟨token, others, octet, further, start, octets, noComma, noEnd⟩ := term.tokens_eq_cons
  cases first with
  | true =>
      rw [row, List.append_assoc] at laid
      refine ⟨skipSpace input, ?_, laid_skipSpace_iff.mpr laid⟩
      rw [start, List.cons_append] at laid
      obtain ⟨rest, same, -⟩ := laid_cons_iff.mp laid
      rw [nextElement?, same, octets]
      simp only [List.cons_append, if_neg noEnd, if_neg (not_and_of_not_left _ noComma), if_true]
  | false =>
      rw [row, List.cons_append, List.append_assoc] at laid
      obtain ⟨rest, same, laid⟩ := laid_cons_iff.mp laid
      refine ⟨skipSpace rest, ?_, laid_skipSpace_iff.mpr laid⟩
      rw [start, List.cons_append] at laid
      obtain ⟨behind, same', -⟩ := laid_cons_iff.mp laid
      rw [nextElement?, same]
      dsimp only [Token.octets, List.cons_append, List.nil_append]
      rw [if_neg (by decide), if_pos ⟨rfl, rfl⟩, same', octets]
      exact if_neg noEnd

theorem closeList_laid {tokens : List Token} {input : Octets}
    (laid : Laid (.closeBracket :: tokens) input) :
    ∃ rest, closeList input = .ok rest ∧ Laid tokens rest := by
  obtain ⟨rest, same, laid⟩ := laid_cons_iff.mp laid
  refine ⟨rest, ?_, laid⟩
  rw [closeList, same]
  rfl

theorem nextName?_laid_closeBrace {first : Bool} {tokens : List Token} {input : Octets}
    (laid : Laid (.closeBrace :: tokens) input) : nextName? first input = .ok none := by
  obtain ⟨rest, same, -⟩ := laid_cons_iff.mp laid
  rw [nextName?, same]
  rfl

theorem closeObject_laid {tokens : List Token} {input : Octets}
    (laid : Laid (.closeBrace :: tokens) input) :
    ∃ rest, closeObject input = .ok rest ∧ Laid tokens rest := by
  obtain ⟨rest, same, laid⟩ := laid_cons_iff.mp laid
  refine ⟨rest, ?_, laid⟩
  rw [closeObject, same]
  rfl

/-- **Behind the opening brace or a comma, the next name is read, and then its colon.** -/
theorem readName_laid {first : Bool} {binding : Binding} {items : List (List Token)}
    {tokens : List Token} {input : Octets}
    (laid : Laid (row first (binding.tokens :: items) ++ tokens) input) :
    ∃ start behindName behindColon, nextName? first input = .ok (some start) ∧
      readString start = .ok (binding.name, behindName) ∧ readColon behindName = .ok behindColon ∧
      Laid (binding.2.tokens ++ (row false items ++ tokens)) behindColon := by
  have next : ∃ rest, nextName? first input = .ok (some (binding.1.others ++ rest)) ∧
      Laid (.colon :: (binding.2.tokens ++ (row false items ++ tokens))) rest := by
    cases first with
    | true =>
        rw [row, List.append_assoc] at laid
        obtain ⟨rest, same, laid⟩ := laid_cons_iff.mp laid
        refine ⟨rest, ?_, laid⟩
        rw [nextName?, same]
        rfl
    | false =>
        rw [row, List.cons_append, List.append_assoc] at laid
        obtain ⟨behind, same, laid⟩ := laid_cons_iff.mp laid
        obtain ⟨rest, same', laid⟩ := laid_cons_iff.mp laid
        refine ⟨rest, ?_, laid⟩
        rw [nextName?, same]
        dsimp only [Token.octets, List.cons_append, List.nil_append]
        rw [if_neg (by decide), if_pos ⟨rfl, rfl⟩, same']
        rfl
  obtain ⟨rest, next, laid⟩ := next
  have name := binding.1.reads_on (laid.ended nofun)
  obtain ⟨behind, same, laid⟩ := laid_cons_iff.mp laid
  refine ⟨_, rest, behind, next, name, ?_, laid⟩
  rw [readColon, same]
  rfl

/-! ## What is expected -/

section Gives

variable {α β ε : Type} {left tokens : List Token}

/-- Whether a reader gives the value that is expected and leaves a text that is laid out from the
tokens left, or fails if none is expected. -/
def Gives (result : Except ε (α × Octets)) (expected? : Option α) (left : List Token) : Prop :=
  match expected? with
  | some value => ∃ rest, result = .ok (value, rest) ∧ Laid left rest
  | none => ∃ fault, result = .error fault

theorem gives_ok {value : α} {rest : Octets} (laid : Laid left rest) :
    Gives (.ok (value, rest) : Except ε (α × Octets)) (some value) left :=
  ⟨rest, rfl, laid⟩

theorem gives_error (fault : ε) : Gives (.error fault : Except ε (α × Octets)) none left :=
  ⟨fault, rfl⟩

/-- Readers one after the other give what is expected of them one after the other. -/
theorem Gives.bind {result : Except ε (α × Octets)} {expected? : Option α}
    {next : α × Octets → Except ε (β × Octets)} {further? : α → Option β}
    (gives : Gives result expected? left)
    (further : ∀ value rest, Laid left rest → Gives (next (value, rest)) (further? value) tokens) :
    Gives (result >>= next) (expected?.bind further?) tokens := by
  cases expected? with
  | none =>
      obtain ⟨fault, rfl⟩ := gives
      exact ⟨fault, rfl⟩
  | some value =>
      obtain ⟨rest, rfl, laid⟩ := gives
      exact further value rest laid

end Gives

/-! ## Rows -/

theorem length_le_length_row (first : Bool) {items : List (List Token)}
    (nonempty : ∀ item ∈ items, item ≠ []) : items.length ≤ (row first items).length := by
  induction items generalizing first with
  | nil => exact Nat.zero_le _
  | cons item items ih =>
      rw [List.forall_mem_cons] at nonempty
      have further := ih false nonempty.2
      have some := List.length_pos_iff.mpr nonempty.1
      cases first <;> simp only [row, List.length_append, List.length_cons] <;> omega

/-- There are at least as many octets as items. -/
theorem Laid.length_items_lt {first : Bool} {items : List (List Token)} {tokens : List Token}
    {input : Octets} (laid : Laid (row first items ++ tokens) input)
    (nonempty : ∀ item ∈ items, item ≠ []) : items.length < input.length + 1 := by
  have inRow := length_le_length_row first nonempty
  have octets := laid.length_le
  rw [List.length_append] at octets
  omega

theorem Term.tokens_ne_nil {elements : List Term} :
    ∀ item ∈ elements.map Term.tokens, item ≠ [] := by
  intro item member
  obtain ⟨term, -, rfl⟩ := List.mem_map.mp member
  obtain ⟨token, tokens, -, -, same, -⟩ := term.tokens_eq_cons
  rw [same]
  exact List.cons_ne_nil token tokens

theorem Binding.tokens_ne_nil {members : List Binding} :
    ∀ item ∈ members.map Binding.tokens, item ≠ [] := by
  intro item member
  obtain ⟨binding, -, rfl⟩ := List.mem_map.mp member
  exact List.cons_ne_nil _ _

/-- What follows an item is no scalar. -/
theorem parted_row (items : List (List Token)) (token : Token) (tokens : List Token)
    (closing : ∀ written, token ≠ .scalar written) :
    Parted (row false items ++ token :: tokens) := by
  intro written
  cases items with
  | nil => exact fun same => closing written (Option.some.inj same)
  | cons item items => exact nofun

/-! ## Values -/

section Loops

variable {room : Nat}
  (inner : ∀ (term : Term) (left : List Token) (input : Octets), Parted left →
    Laid (term.tokens ++ left) input → Gives (readValue room input) (term.value? room) left)
include inner

/-- **Elements are read as the values of their terms,** up to the closing bracket. -/
theorem gives_readElements (elements : List Term) {rounds : Nat} (enough : elements.length < rounds)
    (first : Bool) (read : List Value) {left : List Token} {input : Octets}
    (laid : Laid (row first (elements.map Term.tokens) ++ .closeBracket :: left) input) :
    Gives (readElements (readValue room) rounds first read input)
      ((elements.mapM (Term.value? room)).map (read.reverse ++ ·)) (.closeBracket :: left) := by
  induction elements generalizing rounds first read input with
  | nil =>
      obtain ⟨rounds, rfl⟩ := Nat.exists_eq_add_of_lt enough
      rw [readElements, nextElement?_closeBracket laid]
      change Gives (.ok (read.reverse, input)) (some (read.reverse ++ [])) _
      rw [List.append_nil]
      exact gives_ok laid
  | cons term elements ih =>
      obtain ⟨rounds, rfl⟩ := Nat.exists_eq_succ_of_ne_zero (Nat.ne_zero_of_lt enough)
      obtain ⟨start, next, laid⟩ := nextElement?_row laid
      have values : ((term :: elements).mapM (Term.value? room)).map (read.reverse ++ ·) =
          (term.value? room).bind fun value =>
            (elements.mapM (Term.value? room)).map ((value :: read).reverse ++ ·) := by
        rw [List.mapM_cons]
        cases term.value? room <;> cases elements.mapM (Term.value? room) <;> simp
      rw [readElements, next, values]
      have parted := parted_row (elements.map Term.tokens) .closeBracket left nofun
      exact (inner term _ start parted laid).bind fun value rest laid =>
        ih (Nat.lt_of_succ_lt_succ enough) false (value :: read) laid

/-- **Members are read as their names and the values of their terms,** up to the closing
brace. -/
theorem gives_readMembers (members : List Binding) {rounds : Nat}
    (enough : members.length < rounds) (first : Bool) (read : List (String × Value))
    {left : List Token} {input : Octets}
    (laid : Laid (row first (members.map Binding.tokens) ++ .closeBrace :: left) input) :
    Gives (readMembers (readValue room) rounds first read input)
      ((members.mapM (Binding.value? room)).map (read.reverse ++ ·)) (.closeBrace :: left) := by
  induction members generalizing rounds first read input with
  | nil =>
      obtain ⟨rounds, rfl⟩ := Nat.exists_eq_add_of_lt enough
      rw [readMembers, nextName?_laid_closeBrace laid]
      change Gives (.ok (read.reverse, input)) (some (read.reverse ++ [])) _
      rw [List.append_nil]
      exact gives_ok laid
  | cons member members ih =>
      obtain ⟨rounds, rfl⟩ := Nat.exists_eq_succ_of_ne_zero (Nat.ne_zero_of_lt enough)
      obtain ⟨start, behindName, behindColon, next, name, colon, laid⟩ := readName_laid laid
      have values : ((member :: members).mapM (Binding.value? room)).map (read.reverse ++ ·) =
          (member.2.value? room).bind fun value =>
            (members.mapM (Binding.value? room)).map
              (((member.name, value) :: read).reverse ++ ·) := by
        rw [List.mapM_cons]
        cases value : member.2.value? room <;> cases members.mapM (Binding.value? room) <;>
          simp [Binding.value?, value]
      rw [readMembers, next, values]
      simp only [bind, Except.bind, name, colon]
      exact (inner member.2 _ behindColon (parted_row _ .closeBrace _ nofun) laid).bind
        fun value rest laid =>
          ih (Nat.lt_of_succ_lt_succ enough) false ((member.name, value) :: read) laid

/-- A list is read as the values of its elements. -/
theorem gives_readValue_array (elements : List Term) {left : List Token} {input : Octets}
    (laid : Laid ((Term.array elements).tokens ++ left) input) :
    Gives (readValue (room + 1) input) ((Term.array elements).value? (room + 1)) left := by
  rw [Term.tokens_array, List.cons_append, List.append_assoc, List.singleton_append] at laid
  obtain ⟨rest, start, laid⟩ := startValue_laid rfl laid
  have enough := laid.length_items_lt Term.tokens_ne_nil
  rw [List.length_map] at enough
  have read := gives_readElements inner elements enough true [] laid
  have values : ((elements.mapM (Term.value? room)).map .array : Option Value) =
      ((elements.mapM (Term.value? room)).map (([] : List Value).reverse ++ ·)).bind
        fun values => some (.array values) := by
    cases elements.mapM (Term.value? room) <;> rfl
  rw [readValue, readValueWith, start, Term.value?_array, values]
  refine read.bind fun values rest laid => ?_
  obtain ⟨behind, close, laid⟩ := closeList_laid laid
  simp only [close]
  exact gives_ok laid

/-- An object is read as its names with the values of their terms. -/
theorem gives_readValue_object (members : List Binding) {left : List Token} {input : Octets}
    (laid : Laid ((Term.object members).tokens ++ left) input) :
    Gives (readValue (room + 1) input) ((Term.object members).value? (room + 1)) left := by
  rw [Term.tokens_object, List.cons_append, List.append_assoc, List.singleton_append] at laid
  obtain ⟨rest, start, laid⟩ := startValue_laid rfl laid
  have enough := laid.length_items_lt Binding.tokens_ne_nil
  rw [List.length_map] at enough
  have read := gives_readMembers inner members enough true [] laid
  have values : ((members.mapM (Binding.value? room)).map .object : Option Value) =
      ((members.mapM (Binding.value? room)).map
        (([] : List (String × Value)).reverse ++ ·)).bind fun values => some (.object values) := by
    cases members.mapM (Binding.value? room) <;> rfl
  rw [readValue, readValueWith, start, Term.value?_object, values]
  refine read.bind fun values rest laid => ?_
  obtain ⟨behind, close, laid⟩ := closeObject_laid laid
  simp only [close]
  exact gives_ok laid

end Loops

/-- A scalar is read in whatever room there is. -/
theorem Scalar.gives_readValue (room : Nat) (written : Scalar) {left : List Token} {input : Octets}
    (parted : Parted left) (laid : Laid (.scalar written :: left) input) :
    Gives (readValue room input) (some written.value) left := by
  obtain ⟨rest, start, laid⟩ := startValue_laid rfl laid
  have scalar := written.reads_on (laid.ended parted)
  cases room with
  | zero | succ room =>
      rw [readValue, readValueWith, start]
      simp only [bind, Except.bind, scalar]
      exact gives_ok laid

/-- **A value is read from its tokens, whatever the white space,** if no more brackets are open at a
time than there is room for. -/
theorem Term.gives_readValue (room : Nat) (term : Term) {left : List Token} {input : Octets}
    (parted : Parted left) (laid : Laid (term.tokens ++ left) input) :
    Gives (readValue room input) (term.value? room) left := by
  induction room generalizing term left input with
  | zero =>
      cases term with
      | scalar written =>
          rw [Term.tokens] at laid
          exact written.gives_readValue 0 parted laid
      | array elements =>
          rw [Term.tokens_array] at laid
          obtain ⟨rest, start, laid⟩ := startValue_laid rfl laid
          rw [readValue, readValueWith, start]
          exact gives_error _
      | object members =>
          rw [Term.tokens_object] at laid
          obtain ⟨rest, start, laid⟩ := startValue_laid rfl laid
          rw [readValue, readValueWith, start]
          exact gives_error _
  | succ room ih =>
      have inner := fun term left input => @ih term left input
      cases term with
      | scalar written =>
          rw [Term.tokens] at laid
          exact written.gives_readValue (room + 1) parted laid
      | array elements => exact gives_readValue_array inner elements laid
      | object members => exact gives_readValue_object inner members laid

/-- **A text that is laid out from a value is read as that value,** if there is room for its
brackets. -/
theorem Term.readWhole_laid (room : Nat) {term : Term} {text : Octets}
    (laid : Laid term.tokens text) {value : Value} :
    readWhole (readValue room) text = .ok value ↔ term.value? room = some value := by
  have gives := @Term.gives_readValue room term [] text nofun (by rwa [List.append_nil])
  rw [readWhole]
  cases expected : term.value? room with
  | none =>
      obtain ⟨fault, read⟩ := expected ▸ gives
      rw [read]
      exact ⟨nofun, nofun⟩
  | some known =>
      obtain ⟨rest, read, blank⟩ := expected ▸ gives
      have ended : readEnd rest = .ok () := by rw [readEnd, laid_nil_iff.mp blank]
      rw [read]
      simp only [ended, Except.ok.injEq, Option.some.injEq]

end DownloadCache.Json
