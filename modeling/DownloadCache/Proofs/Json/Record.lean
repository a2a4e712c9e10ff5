import DownloadCache.Json.Tagged
import DownloadCache.Proofs.Json.Chaining
import DownloadCache.Proofs.Json.Numeral

/-!
# Records that are written and read

An object that is written is read member by member.  What is written for a value is read as the
value wherever a comma or a closing brace follows (`Spells`), so the members of an object can be
taken one after the other: each leaves the reader at the comma of the next (`queue`).

Nothing is said here about what the values of a record stand for: a record of several kinds is
read as what its kind makes of its values (`readWholeTagged_writeObject`).
-/

namespace DownloadCache.Json

set_option autoImplicit false

open Text.Utf8

/-! ## Values -/

/-- Whether a text is read as a value wherever it ends. -/
def Spells (room : Nat) (text : List Char) (value : Value) : Prop :=
  ∀ rest, Delimited rest → readValue room (encode text ++ rest) = .ok (value, rest)

/-- An octet that is no white space starts a value. -/
theorem startValue_cons {octet : UInt8} (mark : isSpace octet = false) (rest : Octets) :
    startValue (octet :: rest) = .ok (octet, rest) :=
  startValue_of_skipSpace (skipSpace_cons mark rest)

/-- A value without brackets is read in whatever room there is. -/
theorem readValue_scalar (room : Nat) {octet : UInt8} {rest : Octets}
    {scalar : Except Fault (Value × Octets)} (mark : isSpace octet = false)
    (read : readScalar? octet rest = some scalar) : readValue room (octet :: rest) = scalar :=
  readValue_of_scalar room (skipSpace_cons mark rest) read

theorem spells_writeNull (room : Nat) : Spells room writeNull .null :=
  fun _ _ => readValue_scalar room (by decide) rfl

theorem spells_writeSwitch (room : Nat) (value : Bool) :
    Spells room (writeSwitch value) (.boolean value) := by
  intro rest _
  cases value with
  | true | false => exact readValue_scalar room (by decide) rfl

theorem spells_writeString (room : Nat) (text : String) :
    Spells room (writeString text) (.text text) := by
  intro rest _
  rw [encode_writeString, List.cons_append]
  refine readValue_scalar room (by decide) ?_
  change some ((readString (bodyOctets text ++ rest)).map _) = _
  rw [readString_body]
  rfl

/-- A digit opens a number. -/
theorem readScalar?_digitOctet {digit : Nat} (small : digit < 10) (rest : Octets) :
    readScalar? (digitOctet digit) rest =
      some ((readNumber (digitOctet digit) rest).map
        fun (number, further) => (.number number, further)) := by
  interval_cases digit <;> rfl

theorem spells_writeCount (room : Nat) (value : UInt64) :
    Spells room (writeCount value) (.number (.count value)) := by
  intro rest delimited
  obtain ⟨digit, further, small, octets, read⟩ := readNumber_writeCount value delimited
  have mark : isSpace (digitOctet digit) = false := by interval_cases digit <;> rfl
  rw [octets]
  refine readValue_scalar room mark ?_
  rw [readScalar?_digitOctet small, read]
  rfl

/-! ## Members -/

/-- Whether a written member is read as a name and a value. -/
def SpellsMember (room : Nat) (member : String × List Char) (named : String × Value) : Prop :=
  member.1 = named.1 ∧ Spells room member.2 named.2

theorem Spells.member {room : Nat} {text : List Char} {value : Value}
    (spells : Spells room text value) (name : String) :
    SpellsMember room (name, text) (name, value) :=
  ⟨rfl, spells⟩

/-- The octet in front of a member, unless it is the first one. -/
def separator : Bool → Octets
  | true => []
  | false => [comma]

/-- The octets of members up to the closing brace, the first of them behind the opening brace or
behind another member. -/
def queue : Bool → List (String × List Char) → Octets
  | _, [] => []
  | first, member :: others =>
      separator first ++ (encode (writeMember member) ++ queue false others)

theorem encode_writeMember (member : String × List Char) :
    encode (writeMember member) =
      quoteMark :: (bodyOctets member.1 ++ colon :: encode member.2) := by
  rw [writeMember, encode_append, encode_writeString, encode_cons]
  rfl

theorem encode_writeMembers (members : List (String × List Char)) :
    encode (writeMembers members) = queue true members := by
  induction members with
  | nil => rfl
  | cons member others ih =>
      cases others with
      | nil => exact (List.append_nil _).symm
      | cons second others =>
          rw [writeMembers, encode_append, encode_cons, ih]
          · rfl
          · exact List.cons_ne_nil _ _

/-- There are at least as many octets as members. -/
theorem length_le_length_queue (first : Bool) (members : List (String × List Char)) :
    members.length ≤ (queue first members).length := by
  induction members generalizing first with
  | nil => exact Nat.zero_le _
  | cons member others ih =>
      have further := ih false
      rw [queue, encode_writeMember, List.length_append, List.length_append, List.length_cons,
        List.length_cons]
      omega

/-- What follows a member ends its value. -/
theorem delimited_queue (members : List (String × List Char)) (rest : Octets) :
    Delimited (queue false members ++ closeBrace :: rest) := by
  cases members with
  | nil => exact delimited_closeBrace rest
  | cons member others => exact delimited_comma _

/-! ## Reading members

What every reader of members does first: it finds the name of the next member, then the name's
text, then the colon, and then the value is read. -/

/-- What is to be read where a member comes first. -/
theorem queue_cons_append (first : Bool) (member : String × List Char)
    (others : List (String × List Char)) (rest : Octets) :
    queue first (member :: others) ++ rest =
      separator first ++ quoteMark :: (bodyOctets member.1 ++
        colon :: (encode member.2 ++ (queue false others ++ rest))) := by
  simp only [queue, encode_writeMember, List.append_assoc, List.cons_append]

/-- The quote of the next name follows the brace or the comma. -/
theorem nextName?_separator (first : Bool) (rest : Octets) :
    nextName? first (separator first ++ quoteMark :: rest) = .ok (some rest) := by
  cases first <;> rfl

/-- The brace ends the members. -/
theorem nextName?_closeBrace (first : Bool) (rest : Octets) :
    nextName? first (closeBrace :: rest) = .ok none := by
  cases first <;> rfl

theorem readColon_cons (rest : Octets) : readColon (colon :: rest) = .ok rest :=
  rfl

/-- **Members that are written are read as what they were,** up to the closing brace. -/
theorem readMembers_queue {room : Nat} {members : List (String × List Char)}
    {named : List (String × Value)} (spelled : List.Forall₂ (SpellsMember room) members named)
    {rounds : Nat} (enough : members.length < rounds) (first : Bool)
    (read : List (String × Value)) (rest : Octets) :
    readMembers (readValue room) rounds first read (queue first members ++ closeBrace :: rest) =
      .ok (read.reverse ++ named, closeBrace :: rest) := by
  induction spelled generalizing rounds first read with
  | nil =>
      obtain ⟨rounds, rfl⟩ := Nat.exists_eq_add_of_lt enough
      rw [List.append_nil]
      simp only [readMembers, queue, List.nil_append, nextName?_closeBrace, bind, Except.bind]
      rfl
  | @cons member named members others spells _ ih =>
      obtain ⟨rounds, rfl⟩ := Nat.exists_eq_succ_of_ne_zero (Nat.ne_zero_of_lt enough)
      obtain ⟨name, value⟩ := named
      obtain ⟨rfl, spells⟩ := spells
      rw [queue_cons_append, readMembers]
      simp only [nextName?_separator, readString_body, readColon_cons,
        spells _ (delimited_queue members rest), bind, Except.bind]
      rw [ih (Nat.lt_of_succ_lt_succ enough), List.reverse_cons, List.append_assoc]
      rfl

/-- **The members behind the tag are read as what they were.** -/
theorem readTaggedObject_queue {α : Type} (variants : List (Variant α)) (variant : Variant α)
    {members : List (String × List Char)} {named : List (String × Value)}
    (spelled : List.Forall₂ (SpellsMember (maxDepth - 1)) members named)
    (untagged : ∀ member ∈ members, member.1 ≠ tagName)
    {rounds : Nat} (enough : members.length < rounds) (first : Bool)
    (read : List (String × Value)) (rest : Octets) :
    readTaggedObject variants rounds first (some variant) read
        (queue first members ++ closeBrace :: rest) =
      .ok ((variant, .object (read.reverse ++ named)), closeBrace :: rest) := by
  induction spelled generalizing rounds first read with
  | nil =>
      obtain ⟨rounds, rfl⟩ := Nat.exists_eq_add_of_lt enough
      rw [List.append_nil]
      simp only [readTaggedObject, queue, List.nil_append, nextName?_closeBrace, within, bind,
        Except.bind]
      rfl
  | @cons member named members others spells _ ih =>
      obtain ⟨rounds, rfl⟩ := Nat.exists_eq_succ_of_ne_zero (Nat.ne_zero_of_lt enough)
      obtain ⟨name, value⟩ := named
      obtain ⟨rfl, spells⟩ := spells
      rw [List.forall_mem_cons] at untagged
      rw [queue_cons_append, readTaggedObject]
      simp only [nextName?_separator, readString_body, readColon_cons, readContent,
        if_neg untagged.1, spells _ (delimited_queue members rest), within, bind, Except.bind]
      rw [ih untagged.2 (Nat.lt_of_succ_lt_succ enough), List.reverse_cons, List.append_assoc]
      rfl

/-! ## Objects -/

theorem encode_writeObject (members : List (String × List Char)) (rest : Octets) :
    encode (writeObject members) ++ rest =
      openBrace :: (queue true members ++ closeBrace :: rest) := by
  rw [writeObject, encode_cons, encode_append, encode_writeMembers, List.append_assoc,
    List.append_assoc]
  rfl

/-- **An object that is written is read as its members** where there is room for one more
bracket. -/
theorem spells_writeObject {room : Nat} {members : List (String × List Char)}
    {named : List (String × Value)} (spelled : List.Forall₂ (SpellsMember room) members named) :
    Spells (room + 1) (writeObject members) (.object named) := by
  intro rest _
  have enough : members.length < (queue true members ++ closeBrace :: rest).length + 1 := by
    have atLeast := length_le_length_queue true members
    rw [List.length_append]
    omega
  have brace : readScalar? openBrace (queue true members ++ closeBrace :: rest) = none := rfl
  rw [encode_writeObject, readValue, readValueWith, startValue_cons (by decide)]
  simp only [bind, Except.bind, brace]
  rw [if_neg (by decide), readMembers_queue spelled enough]
  rfl

theorem spells_writeOptional {α : Type} {room : Nat} {write : α → List Char} {meaning : α → Value}
    (spelled : ∀ value, Spells room (write value) (meaning value)) (value? : Option α) :
    Spells room (writeOptional write value?) ((value?.map meaning).getD .null) := by
  cases value? with
  | none => exact spells_writeNull room
  | some value => exact spelled value

/-! ## Records of several kinds -/

section Tagged

variable {α : Type} {variants : List (Variant α)} {tag : String} {variant : Variant α}
  {members : List (String × List Char)} {named : List (String × Value)}

/-- A tag that is written is read as the kind of its name. -/
theorem readTag_writeString
    (kind : variants.find? (fun variant => variant.name == tag) = some variant)
    (rest : Octets) :
    readTag variants (encode (writeString tag) ++ rest) = .ok (variant, rest) := by
  rw [encode_writeString, List.cons_append, readTag, startValue_cons (by decide)]
  simp only [bind, Except.bind, if_pos, readString_body, kind]
  rfl

/-- **The tag and the members behind it are read as what they were.** -/
theorem readTaggedObject_tag
    (kind : variants.find? (fun variant => variant.name == tag) = some variant)
    (spelled : List.Forall₂ (SpellsMember (maxDepth - 1)) members named)
    (untagged : ∀ member ∈ members, member.1 ≠ tagName) {rounds : Nat}
    (enough : members.length + 1 < rounds) (rest : Octets) :
    readTaggedObject variants rounds true none []
        (queue true ((tagName, writeString tag) :: members) ++ closeBrace :: rest) =
      .ok ((variant, .object named), closeBrace :: rest) := by
  obtain ⟨rounds, rfl⟩ := Nat.exists_eq_succ_of_ne_zero (Nat.ne_zero_of_lt enough)
  rw [queue_cons_append, readTaggedObject]
  simp only [nextName?_separator, readString_body, readColon_cons, readTag_writeString kind, within,
    bind, Except.bind, if_pos, Option.isSome_none, Bool.false_eq_true, if_false]
  exact readTaggedObject_queue variants variant spelled untagged (Nat.lt_of_succ_lt_succ enough)
    false [] rest

/-- **A record that is written with its tag first is read as what its kind makes of its
values.** -/
theorem readWholeTagged_writeObject (expected : String)
    (kind : variants.find? (fun variant => variant.name == tag) = some variant)
    (spelled : List.Forall₂ (SpellsMember (maxDepth - 1)) members named)
    (untagged : ∀ member ∈ members, member.1 ≠ tagName) {meaning : α}
    (meant : variant.ofValue (.object named) = .ok meaning) :
    readWholeTagged expected variants
        (encode (writeObject ((tagName, writeString tag) :: members))) = .ok meaning := by
  have octets := encode_writeObject ((tagName, writeString tag) :: members) []
  rw [List.append_nil] at octets
  have atLeast := length_le_length_queue true ((tagName, writeString tag) :: members)
  have enough : members.length + 1 <
      (queue true ((tagName, writeString tag) :: members) ++ [closeBrace]).length + 1 := by
    rw [List.length_append]
    exact Nat.lt_succ_of_le (Nat.le_trans atLeast (Nat.le_add_right _ _))
  have record : readTagged expected variants
      (openBrace :: (queue true ((tagName, writeString tag) :: members) ++ [closeBrace])) =
        .ok ((variant, .object named), []) := by
    rw [readTagged, startValue_cons (by decide)]
    simp only [bind, Except.bind]
    rw [if_neg (by decide), if_pos trivial, readTaggedObject_tag kind spelled untagged enough []]
    rfl
  rw [octets, readWholeTagged, record]
  simp only [meant]
  rfl

end Tagged

/-! ## One line -/

theorem inline_writeSwitch (value : Bool) : Inline (writeSwitch value) := by
  cases value <;> decide

theorem inline_writeCount (value : UInt64) : Inline (writeCount value) :=
  inline_digits value.toNat

theorem inline_writeOptional {α : Type} {write : α → List Char}
    (inline : ∀ value, Inline (write value)) (value? : Option α) :
    Inline (writeOptional write value?) := by
  cases value? with
  | none => exact (by decide : Inline writeNull)
  | some value => exact inline value

theorem inline_writeMember {member : String × List Char} (inline : Inline member.2) :
    Inline (writeMember member) :=
  inline_append.mpr ⟨inline_writeString member.1, inline_cons.mpr ⟨by decide, inline⟩⟩

/-- **An object stays in one line** if all its values do. -/
theorem inline_writeObject {members : List (String × List Char)}
    (inline : ∀ member ∈ members, Inline member.2) : Inline (writeObject members) := by
  have within : Inline (writeMembers members) := by
    induction members with
    | nil => exact inline_nil
    | cons member others ih =>
        rw [List.forall_mem_cons] at inline
        cases others with
        | nil => exact inline_writeMember inline.1
        | cons second others =>
            exact inline_append.mpr ⟨inline_writeMember inline.1,
              inline_cons.mpr ⟨by decide, ih inline.2⟩⟩
  exact inline_cons.mpr ⟨by decide, inline_append.mpr ⟨within, by decide⟩⟩

end DownloadCache.Json
