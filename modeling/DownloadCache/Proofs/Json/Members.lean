import DownloadCache.Proofs.Json.Chaining

/-!
# Objects member by member

An object is written as members with commas between them, and a member as a name, a colon and the
octets of a value, with any white space in front of each (`Listed`, `ObjectText`).  Of the values no
more is said here than where they stand; a reader may look into them or pass over them.

Every reader of objects goes from name to name.  It finds the members of an object in which they are
listed (`Listed.read_name`), each value followed by octets with which no number goes on
(`Listed.ended`); and where it has found a name, a colon and, behind a value, further members, these
are listed with the name and the value in front (`listed_of_nextName?`).
-/

namespace DownloadCache.Json

set_option autoImplicit false

/-! ## Layouts -/

/-- A member as it is written: its name and the octets of its value. -/
abbrev Part := Name × Octets

/-- The name of a member. -/
def Part.name (part : Part) : String :=
  part.1.text

/-- How members are listed from behind the brace that opens an object, or from behind another member
unless `first` is set, up to what follows the brace that closes it. -/
inductive Listed : Bool → List Part → Octets → Octets → Prop
  | close {first : Bool} {blank rest : Octets} : Blank blank →
      Listed first [] (blank ++ closeBrace :: rest) rest
  | lead {part : Part} {parts : List Part} {blank between input rest : Octets} :
      Blank blank → Blank between → Listed false parts input rest →
        Listed true (part :: parts)
          (blank ++ quoteMark :: (part.1.others ++ (between ++ colon :: (part.2 ++ input)))) rest
  | next {part : Part} {parts : List Part} {before blank between input rest : Octets} :
      Blank before → Blank blank → Blank between → Listed false parts input rest →
        Listed false (part :: parts)
          (before ++ comma ::
            (blank ++ quoteMark :: (part.1.others ++ (between ++ colon :: (part.2 ++ input))))) rest

/-- Whether a text is an object with members, and with any white space around its tokens. -/
def ObjectText (parts : List Part) (text : Octets) : Prop :=
  ∃ input rest, skipSpace text = openBrace :: input ∧ Listed true parts input rest ∧ Blank rest

/-! ## Without white space -/

/-- The octets of members up to and with the closing brace, a comma in front of each. -/
def queuedOctets : List Part → Octets
  | [] => [closeBrace]
  | part :: parts =>
      comma :: quoteMark :: (part.1.others ++ colon :: (part.2 ++ queuedOctets parts))

/-- The object with members, without white space. -/
def objectOctets : List Part → Octets
  | [] => [openBrace, closeBrace]
  | part :: parts =>
      openBrace :: quoteMark :: (part.1.others ++ colon :: (part.2 ++ queuedOctets parts))

theorem listed_queuedOctets (parts : List Part) : Listed false parts (queuedOctets parts) [] := by
  have none : Blank [] := List.forall_mem_nil _
  induction parts with
  | nil => exact .close none
  | cons part parts ih => exact .next none none none ih

theorem objectText_objectOctets (parts : List Part) : ObjectText parts (objectOctets parts) := by
  have none : Blank [] := List.forall_mem_nil _
  cases parts with
  | nil => exact ⟨_, _, rfl, .close none, none⟩
  | cons part parts => exact ⟨_, _, rfl, .lead none none (listed_queuedOctets parts), none⟩

/-! ## What is listed is found -/

theorem skipSpace_blank_cons {blank : Octets} (isBlank : Blank blank) {octet : UInt8}
    (visible : isSpace octet = false) (rest : Octets) :
    skipSpace (blank ++ octet :: rest) = octet :: rest := by
  rw [skipSpace_append isBlank, skipSpace_cons visible]

/-- No number goes on behind a value. -/
theorem Listed.ended {parts : List Part} {input rest : Octets}
    (listed : Listed false parts input rest) : Ended input := by
  cases listed with
  | close isBlank => exact ended_of_skipSpace (skipSpace_blank_cons isBlank rfl _) (by decide)
  | next isBlank => exact ended_of_skipSpace (skipSpace_blank_cons isBlank rfl _) (by decide)

/-- Behind the last member the object ends. -/
theorem Listed.read_end {first : Bool} {input rest : Octets} (listed : Listed first [] input rest) :
    nextName? first input = .ok none ∧ closeObject input = .ok rest := by
  cases listed with
  | close isBlank =>
      rw [nextName?, closeObject, skipSpace_blank_cons isBlank rfl]
      exact ⟨rfl, rfl⟩

/-- **A member that is listed is found by its name and its colon,** and its value stands behind
them. -/
theorem Listed.read_name {first : Bool} {part : Part} {parts : List Part} {input rest : Octets}
    (listed : Listed first (part :: parts) input rest) :
    ∃ start behindName behind, nextName? first input = .ok (some start) ∧
      readString start = .ok (part.name, behindName) ∧
      readColon behindName = .ok (part.2 ++ behind) ∧ Listed false parts behind rest := by
  have named {between behind : Octets} (isBlank : Blank between) :
      readString (part.1.others ++ (between ++ colon :: behind)) =
          .ok (part.name, between ++ colon :: behind) ∧
        readColon (between ++ colon :: behind) = .ok behind := by
    have found : skipSpace (between ++ colon :: behind) = colon :: behind :=
      skipSpace_blank_cons isBlank rfl behind
    exact ⟨part.1.reads_on (ended_of_skipSpace found (by decide)), readColon_eq_ok_iff.mpr found⟩
  cases listed with
  | lead isBlank between listed =>
      obtain ⟨name, value⟩ := named between
      refine ⟨_, _, _, ?_, name, value, listed⟩
      rw [nextName?, skipSpace_blank_cons isBlank rfl]
      rfl
  | next before isBlank between listed =>
      obtain ⟨name, value⟩ := named between
      refine ⟨_, _, _, ?_, name, value, listed⟩
      rw [nextName?, skipSpace_blank_cons before rfl]
      dsimp only
      rw [if_neg (by decide), if_pos ⟨rfl, rfl⟩, skipSpace_blank_cons isBlank rfl]
      rfl

/-- There are more octets than members. -/
theorem Listed.length_lt {first : Bool} {parts : List Part} {input rest : Octets}
    (listed : Listed first parts input rest) : parts.length < input.length := by
  induction listed <;> simp only [List.length_append, List.length_cons, List.length_nil] <;> omega

/-! ## What is found is listed -/

theorem listed_nil_of_closeObject {first : Bool} {input rest : Octets}
    (close : closeObject input = .ok rest) : Listed first [] input rest := by
  obtain ⟨blank, isBlank, whole⟩ := exists_eq_skipSpace input
  rw [closeObject] at close
  split at close
  · cases close
  · rename_i octet behind same
    split_ifs at close with closed
    obtain rfl := Except.ok.inj close
    rw [whole, same, closed]
    exact .close isBlank

/-- Where a name has been found, and members are listed behind its value, it is listed with them. -/
theorem listed_of_nextName? {first : Bool} {name : Name}
    {input behindName value behind rest : Octets} {parts : List Part}
    (next : nextName? first input = .ok (some (name.others ++ behindName)))
    (colon : readColon behindName = .ok (value ++ behind))
    (listed : Listed false parts behind rest) :
    Listed first ((name, value) :: parts) input rest := by
  obtain ⟨between, isBlank, whole⟩ := exists_eq_skipSpace behindName
  rw [readColon_eq_ok_iff.mp colon] at whole
  subst whole
  obtain ⟨blank, isBlank', whole⟩ := exists_eq_skipSpace input
  rw [nextName?] at next
  split at next
  · cases next
  · rename_i octet others same
    rw [same] at whole
    split_ifs at next with close separated single quoted
    · cases next
    · obtain ⟨rfl, rfl⟩ := separated
      split at next
      · cases next
      · rename_i octet' others' same'
        obtain ⟨blank', isBlank'', whole'⟩ := exists_eq_skipSpace others
        split_ifs at next with quoted
        obtain rfl := Option.some.inj (Except.ok.inj next)
        subst quoted
        rw [whole, whole', same']
        exact .next isBlank' isBlank'' isBlank listed
    · obtain rfl := Option.some.inj (Except.ok.inj next)
      subst single quoted
      rw [whole]
      exact .lead isBlank' isBlank listed

end DownloadCache.Json
