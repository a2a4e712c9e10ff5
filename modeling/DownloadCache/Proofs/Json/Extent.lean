import DownloadCache.Json.Reader

/-!
# How far scalars extend

Where a scalar ends is decided by the octets of the scalar and by one octet behind it, and all
that this octet is asked for is whether a number goes on there.  So what a reader of a scalar has
taken from one text is taken in the same way from every other text in which it stands, as long as
no number goes on behind it (`Bounded`).

Readers of scalars go from octet to octet, some in loops with a state.  At each octet such a
reader goes on in another state, hands over to another reader, or stops (`Branch`); it is bounded
if the readers that it hands over to are, and what it does where it stops
(`bounded_of_branches`).  By this every first octet opens brackets, or a bounded reader goes on
behind it (`readScalar?_cases`).
-/

namespace DownloadCache.Json

set_option autoImplicit false

/-! ## Ends of numbers -/

/-- Whether octets do not go on with what could belong to a number. -/
def Ended (rest : Octets) : Prop :=
  ∀ octet ∈ rest.head?, isDigit octet = false ∧ octet ≠ 0x2e ∧ isExponentMark octet = false

theorem ended_nil : Ended [] := nofun

theorem ended_cons {octet : UInt8} {rest : Octets} :
    Ended (octet :: rest) ↔
      isDigit octet = false ∧ octet ≠ 0x2e ∧ isExponentMark octet = false := by
  simp [Ended]

/-! ## Bounded readers -/

/-- Whether a reader takes octets off the front and only sees of what follows them that no number
goes on there. -/
def Bounded {α : Type} (reader : Octets → Except Fault (α × Octets)) : Prop :=
  ∀ ⦃input value rest⦄, reader input = .ok (value, rest) →
    ∃ taken, input = taken ++ rest ∧
      ∀ further, Ended further → reader (taken ++ further) = .ok (value, further)

section Bounded

variable {α σ : Type}

theorem bounded_error (fault : Octets → Fault) :
    Bounded fun input => (.error (fault input) : Except Fault (α × Octets)) :=
  nofun

theorem bounded_ok (value : α) : Bounded fun input => .ok (value, input) := by
  intro input found rest read
  obtain ⟨rfl, rfl⟩ := Prod.mk.inj (Except.ok.inj read)
  exact ⟨[], rfl, fun _ _ => rfl⟩

/-- What a reader in some state does at an octet. -/
inductive Branch (reader stop : σ → Octets → Except Fault (α × Octets)) (state : σ)
    (octet : UInt8) : Prop where
  /-- It takes the octet and goes on in another state. -/
  | again (next : σ) (step : ∀ input, reader state (octet :: input) = reader next input)
  /-- It takes the octet and goes on as another reader. -/
  | other {later : Octets → Except Fault (α × Octets)} (bounded : Bounded later)
      (step : ∀ input, reader state (octet :: input) = later input)
  /-- It stops before the octet. -/
  | stop (step : ∀ input, reader state (octet :: input) = stop state (octet :: input))

/-- **A reader is bounded if it is so at every octet.** -/
theorem bounded_of_branches (reader stop : σ → Octets → Except Fault (α × Octets))
    (bounded : ∀ state, Bounded (stop state)) (nil : ∀ state, reader state [] = stop state [])
    (ends : ∀ state further value, Ended further → stop state further = .ok (value, further) →
      reader state further = .ok (value, further))
    (branches : ∀ state octet, Branch reader stop state octet) (state : σ) :
    Bounded (reader state) := by
  intro input
  induction input generalizing state with
  | nil =>
      intro value rest read
      rw [nil] at read
      obtain ⟨taken, same, again⟩ := bounded state read
      obtain ⟨rfl, rfl⟩ := List.append_eq_nil_iff.mp same.symm
      exact ⟨[], rfl, fun further ended => ends _ _ _ ended (again further ended)⟩
  | cons octet input ih =>
      intro value rest read
      cases branches state octet with
      | again next step =>
          rw [step] at read
          obtain ⟨taken, rfl, again⟩ := ih next read
          exact ⟨octet :: taken, rfl, fun further ended => (step _).trans (again further ended)⟩
      | other later step =>
          rw [step] at read
          obtain ⟨taken, rfl, again⟩ := later read
          exact ⟨octet :: taken, rfl, fun further ended => (step _).trans (again further ended)⟩
      | stop step =>
          rw [step] at read
          obtain ⟨taken, same, again⟩ := bounded state read
          refine ⟨taken, same, fun further ended => ?_⟩
          cases taken with
          | nil => exact ends _ _ _ ended (again further ended)
          | cons first taken =>
              obtain ⟨rfl, -⟩ := List.cons.inj same
              exact (step _).trans (again further ended)

/-- A reader that passes over digits first is as bounded as the one it goes on with. -/
theorem Bounded.skipDigits {reader : Octets → Except Fault (α × Octets)}
    (bounded : Bounded reader) : Bounded fun input => reader (skipDigits input) := by
  have skip (octet : UInt8) (input : Octets) : Json.skipDigits (octet :: input) =
      if isDigit octet then Json.skipDigits input else octet :: input := List.dropWhile_cons
  have loop : ∀ _ : Unit, Bounded fun input => reader (Json.skipDigits input) := by
    refine bounded_of_branches _ (fun _ => reader) (fun _ => bounded) (fun _ => rfl)
      (fun _ further value ended read => ?_) fun _ octet => ?_
    · cases further with
      | nil => exact read
      | cons octet further => rw [skip, (ended_cons.mp ended).1]; exact read
    · by_cases digit : isDigit octet = true
      · exact .again () fun input => by rw [skip, if_pos digit]
      · exact .stop fun input => by rw [skip, if_neg digit]
  exact loop ()

end Bounded

/-! ## Numbers -/

section Numbers

variable (isNegative : Bool) (significand : Nat)

theorem bounded_readDouble (exponent : Int) :
    Bounded (readDouble isNegative significand exponent) := by
  unfold readDouble
  cases doubleOf isNegative significand exponent with
  | none => exact bounded_error _
  | some number => exact bounded_ok number

theorem bounded_readExponentDigits (start : Int) (falling : Bool) (before : Nat) :
    Bounded (readExponentDigits isNegative significand start falling before) := by
  refine bounded_of_branches (readExponentDigits isNegative significand start falling)
    (fun before => readDouble isNegative significand
      (if falling then start - before else start + before))
    (fun _ => bounded_readDouble _ _ _) (fun _ => rfl) (fun before further value ended read => ?_)
    (fun before octet => ?_) before
  · cases further with
    | nil => exact read
    | cons octet further => rw [readExponentDigits, (ended_cons.mp ended).1]; exact read
  · by_cases digit : isDigit octet = true
    · by_cases large : before * 10 + (octet.toNat - 0x30) > maxExponent
      · by_cases refused : significand ≠ 0 ∧ falling = false
        · refine .other (bounded_error Breach.numberOutOfRange.before) fun input => ?_
          simp only [readExponentDigits, if_pos digit, if_pos large, if_pos refused]
        · refine .other (bounded_readDouble isNegative 0 0).skipDigits fun input => ?_
          simp only [readExponentDigits, if_pos digit, if_pos large, if_neg refused]
      · refine .again (before * 10 + (octet.toNat - 0x30)) fun input => ?_
        simp only [readExponentDigits, if_pos digit, if_neg large]
    · exact .stop fun input => if_neg digit

/-- What a reader of an exponent does behind the sign. -/
def readBehindSign (start : Int) (falling : Bool) : Octets → Except Fault (Number × Octets)
  | [] => .error (Breach.endInValue.before [])
  | octet :: rest =>
      if isDigit octet then
        readExponentDigits isNegative significand start falling (octet.toNat - 0x30) rest
      else .error (Breach.badNumber.before rest)

theorem bounded_readBehindSign (start : Int) (falling : Bool) :
    Bounded (readBehindSign isNegative significand start falling) := by
  refine bounded_of_branches (fun (_ : Unit) => readBehindSign isNegative significand start falling)
    (fun _ _ => .error (Breach.endInValue.before [])) (fun _ => bounded_error _) (fun _ => rfl)
    nofun (fun _ octet => ?_) ()
  by_cases digit : isDigit octet = true
  · exact .other (bounded_readExponentDigits _ _ start falling _) fun input => if_pos digit
  · exact .other (bounded_error _) fun input => if_neg digit

theorem bounded_readExponent (start : Int) :
    Bounded (readExponent isNegative significand start) := by
  refine bounded_of_branches (fun (_ : Unit) => readExponent isNegative significand start)
    (fun _ _ => .error (Breach.endInValue.before []))
    (fun _ => bounded_error _) (fun _ => rfl) nofun (fun _ octet => ?_) ()
  by_cases plus : octet = 0x2b
  · refine .other (bounded_readBehindSign isNegative significand start false) fun input => ?_
    simp only [readExponent, if_pos plus]
    rfl
  by_cases falling : octet = minus
  · refine .other (bounded_readBehindSign isNegative significand start true) fun input => ?_
    simp only [readExponent, if_neg plus, if_pos falling]
    rfl
  by_cases digit : isDigit octet = true
  · refine .other (bounded_readExponentDigits isNegative significand start false
      (octet.toNat - 0x30)) fun input => ?_
    simp only [readExponent, if_neg plus, if_neg falling, if_pos digit]
  · refine .other (bounded_error Breach.badNumber.before) fun input => ?_
    simp only [readExponent, if_neg plus, if_neg falling, if_neg digit]

theorem bounded_readAfterFraction (exponent : Int) :
    Bounded (readAfterFraction isNegative significand exponent) := by
  refine bounded_of_branches (fun (_ : Unit) => readAfterFraction isNegative significand exponent)
    (fun _ => readDouble isNegative significand exponent) (fun _ => bounded_readDouble _ _ _)
    (fun _ => rfl) (fun _ further value ended read => ?_) (fun _ octet => ?_) ()
  · cases further with
    | nil => exact read
    | cons octet further => rw [readAfterFraction, (ended_cons.mp ended).2.2]; exact read
  · by_cases mark : isExponentMark octet = true
    · exact .other (bounded_readExponent _ _ exponent) fun input => if_pos mark
    · exact .stop fun input => if_neg mark

theorem bounded_readFractionDigits (start : Int) (places : Nat) :
    Bounded (readFractionDigits isNegative start significand places) := by
  refine bounded_of_branches
    (fun state : Nat × Nat => readFractionDigits isNegative start state.1 state.2)
    (fun state input =>
      if state.2 = 0 then .error (Breach.endInValue.within [])
      else readAfterFraction isNegative state.1 (start - state.2) input)
    (fun state => ?_) (fun _ => rfl) (fun state further value ended read => ?_)
    (fun state octet => ?_) (significand, places)
  · split
    · exact bounded_error _
    · exact bounded_readAfterFraction _ _ _
  · split at read
    · cases read
    · rename_i some
      cases further with
      | nil => exact (if_neg some).trans read
      | cons octet further =>
          rw [readFractionDigits, (ended_cons.mp ended).1]
          exact (if_neg some).trans read
  · by_cases digit : isDigit octet = true
    · by_cases large : state.1 * 10 + (octet.toNat - 0x30) > maxSignificand
      · refine .other (bounded_readAfterFraction isNegative state.1 (start - state.2)).skipDigits
          fun input => ?_
        simp only [readFractionDigits, if_pos digit, if_pos large]
      · refine .again (state.1 * 10 + (octet.toNat - 0x30), state.2 + 1) fun input => ?_
        simp only [readFractionDigits, if_pos digit, if_neg large]
    · by_cases none : state.2 = 0
      · refine .other (bounded_error fun input => Breach.badNumber.within (octet :: input))
          fun input => ?_
        simp only [readFractionDigits, if_neg digit, if_pos none]
      · refine .stop fun input => ?_
        simp only [readFractionDigits, if_neg digit, if_neg none]

theorem bounded_readAfterInteger : Bounded (readAfterInteger isNegative significand) := by
  refine bounded_of_branches (fun (_ : Unit) => readAfterInteger isNegative significand)
    (fun _ input => .ok (integerOf isNegative significand, input)) (fun _ => bounded_ok _)
    (fun _ => rfl) (fun _ further value ended read => ?_) (fun _ octet => ?_) ()
  · cases further with
    | nil => exact read
    | cons octet further =>
        obtain ⟨-, noPoint, noMark⟩ := ended_cons.mp ended
        rw [readAfterInteger, if_neg noPoint, noMark]
        exact read
  · by_cases point : octet = 0x2e
    · exact .other (bounded_readFractionDigits _ significand 0 0) fun input => if_pos point
    by_cases mark : isExponentMark octet = true
    · refine .other (bounded_readExponent isNegative significand 0) fun input => ?_
      simp only [readAfterInteger, if_neg point, if_pos mark]
    · refine .stop fun input => ?_
      simp only [readAfterInteger, if_neg point, if_neg mark]

theorem bounded_readLongInteger (places : Nat) :
    Bounded (readLongInteger isNegative significand places) := by
  refine bounded_of_branches (readLongInteger isNegative significand)
    (fun places => readDouble isNegative significand places) (fun _ => bounded_readDouble _ _ _)
    (fun _ => rfl) (fun places further value ended read => ?_) (fun places octet => ?_) places
  · cases further with
    | nil => exact read
    | cons octet further =>
        obtain ⟨noDigit, noPoint, noMark⟩ := ended_cons.mp ended
        rw [readLongInteger, noDigit, if_neg Bool.false_ne_true, if_neg noPoint, noMark]
        exact read
  · by_cases digit : isDigit octet = true
    · exact .again (places + 1) fun input => if_pos digit
    by_cases point : octet = 0x2e
    · refine .other (bounded_readFractionDigits isNegative significand places 0) fun input => ?_
      simp only [readLongInteger, if_neg digit, if_pos point]
    by_cases mark : isExponentMark octet = true
    · refine .other (bounded_readExponent isNegative significand places) fun input => ?_
      simp only [readLongInteger, if_neg digit, if_neg point, if_pos mark]
    · refine .stop fun input => ?_
      simp only [readLongInteger, if_neg digit, if_neg point, if_neg mark]

theorem bounded_readIntegerDigits : Bounded (readIntegerDigits isNegative significand) := by
  refine bounded_of_branches (readIntegerDigits isNegative) (readAfterInteger isNegative)
    (bounded_readAfterInteger isNegative) (fun _ => rfl)
    (fun before further value ended read => ?_) (fun before octet => ?_) significand
  · cases further with
    | nil => exact read
    | cons octet further => rw [readIntegerDigits, (ended_cons.mp ended).1]; exact read
  · by_cases digit : isDigit octet = true
    · by_cases large : before * 10 + (octet.toNat - 0x30) > maxSignificand
      · refine .other (bounded_readLongInteger isNegative before 1) fun input => ?_
        simp only [readIntegerDigits, if_pos digit, if_pos large]
      · refine .again (before * 10 + (octet.toNat - 0x30)) fun input => ?_
        simp only [readIntegerDigits, if_pos digit, if_neg large]
    · exact .stop fun input => if_neg digit

/-- What a reader of a number does behind a zero at the start. -/
def readBehindZero : Octets → Except Fault (Number × Octets)
  | [] => readAfterInteger isNegative 0 []
  | octet :: rest =>
      if isDigit octet then .error (Breach.badNumber.within (octet :: rest))
      else readAfterInteger isNegative 0 (octet :: rest)

theorem bounded_readBehindZero : Bounded (readBehindZero isNegative) := by
  refine bounded_of_branches (fun (_ : Unit) => readBehindZero isNegative)
    (fun _ => readAfterInteger isNegative 0) (fun _ => bounded_readAfterInteger _ _) (fun _ => rfl)
    (fun _ further value ended read => ?_) (fun _ octet => ?_) ()
  · cases further with
    | nil => exact read
    | cons octet further => rw [readBehindZero, (ended_cons.mp ended).1]; exact read
  · by_cases digit : isDigit octet = true
    · exact .other (bounded_error fun input => Breach.badNumber.within (octet :: input))
        fun input => if_pos digit
    · exact .stop fun input => if_neg digit

theorem bounded_readUnsigned : Bounded (readUnsigned isNegative) := by
  refine bounded_of_branches (fun (_ : Unit) => readUnsigned isNegative)
    (fun _ _ => .error (Breach.endInValue.before [])) (fun _ => bounded_error _) (fun _ => rfl)
    nofun (fun _ octet => ?_) ()
  by_cases zero : octet = 0x30
  · exact .other (bounded_readBehindZero isNegative) fun input => if_pos zero
  by_cases digit : isDigit octet = true
  · refine .other (bounded_readIntegerDigits isNegative (octet.toNat - 0x30)) fun input => ?_
    simp only [readUnsigned, if_neg zero, if_pos digit]
  · refine .other (bounded_error Breach.badNumber.before) fun input => ?_
    simp only [readUnsigned, if_neg zero, if_neg digit]

/-- A reader that is given its first octet is bounded if it has to take it. -/
theorem Bounded.cons {α : Type} {reader : Octets → Except Fault (α × Octets)}
    (bounded : Bounded reader) (nonempty : ∀ value, reader [] ≠ .ok (value, [])) (octet : UInt8) :
    Bounded fun input => reader (octet :: input) := by
  intro input value rest read
  obtain ⟨taken, same, again⟩ := bounded read
  cases taken with
  | nil => exact absurd (again [] ended_nil) (nonempty value)
  | cons first taken =>
      obtain ⟨rfl, rfl⟩ := List.cons.inj same
      exact ⟨taken, rfl, again⟩

theorem bounded_readNumber (octet : UInt8) : Bounded (readNumber octet) := by
  unfold readNumber
  by_cases negative : octet = minus
  · simp only [if_pos negative]
    exact bounded_readUnsigned true
  · simp only [if_neg negative]
    exact (bounded_readUnsigned false).cons nofun octet

end Numbers

/-! ## Strings -/

theorem bounded_text (read : Gathered) :
    Bounded fun rest => (read.text rest).map fun text => (text, rest) := by
  unfold Gathered.text
  cases Text.Utf8.decode read.reverse with
  | ok text => exact bounded_ok _
  | error defect =>
      exact bounded_error fun rest =>
        ⟨.breach .badCodePoint, rest.length + (read.length - defect.soundOctets)⟩

theorem bounded_readStringFrom (mode : StringMode) (read : Gathered) :
    Bounded (readStringFrom mode read) := by
  refine bounded_of_branches
    (fun state : StringMode × Gathered => readStringFrom state.1 state.2)
    (fun _ _ => .error (Breach.endInString.before [])) (fun _ => bounded_error _)
    (fun state => ?_) nofun (fun ⟨mode, read⟩ octet => ?_) (mode, read)
  · rw [readStringFrom]
  · cases mode with
    | plain =>
      by_cases quote : octet = quoteMark
      · refine .other (bounded_text read) fun input => ?_
        simp only [readStringFrom, if_pos quote]
      by_cases slash : octet = backslash
      · refine .again (.escape, read) fun input => ?_
        simp only [readStringFrom, if_neg quote, if_pos slash]
      by_cases control : octet < 0x20
      · refine .other (bounded_error Breach.controlCharacter.before) fun input => ?_
        simp only [readStringFrom, if_neg quote, if_neg slash, if_pos control]
      · refine .again (.plain, octet :: read) fun input => ?_
        simp only [readStringFrom, if_neg quote, if_neg slash, if_neg control]
    | escape =>
      by_cases letter : octet = unitLetter
      · refine .again (.unit HexUnit.start, read) fun input => ?_
        simp only [readStringFrom, if_pos letter]
      cases escaped : escapedOctet? octet with
      | none =>
        refine .other (bounded_error Breach.badEscape.before) fun input => ?_
        simp only [readStringFrom, if_neg letter, escaped]
      | some meant =>
        refine .again (.plain, meant :: read) fun input => ?_
        simp only [readStringFrom, if_neg letter, escaped]
    | unit before =>
      by_cases unfinished : 0 < (before.push octet).missing
      · refine .again (.unit (before.push octet), read) fun input => ?_
        simp only [readStringFrom, if_pos unfinished]
      cases unit : (before.push octet).value? with
      | none =>
        refine .other (bounded_error Breach.badEscape.before) fun input => ?_
        simp only [readStringFrom, if_neg unfinished, unit]
      | some value =>
        by_cases low : 0xdc00 ≤ value ∧ value ≤ 0xdfff
        · refine .other (bounded_error Breach.loneSurrogate.before) fun input => ?_
          simp only [readStringFrom, if_neg unfinished, unit, if_pos low]
        by_cases high : 0xd800 ≤ value ∧ value ≤ 0xdbff
        · refine .again (.pairBackslash value, read) fun input => ?_
          simp only [readStringFrom, if_neg unfinished, unit, if_neg low, if_pos high]
        · refine .again (.plain, read.pushCodePoint value) fun input => ?_
          simp only [readStringFrom, if_neg unfinished, unit, if_neg low, if_neg high]
    | pairBackslash high =>
      by_cases slash : octet = backslash
      · exact .again (.pairLetter high, read) fun input => if_pos slash
      · exact .other (bounded_error Breach.endInHexEscape.before) fun input => if_neg slash
    | pairLetter high =>
      by_cases letter : octet = unitLetter
      · exact .again (.pairUnit high HexUnit.start, read) fun input => if_pos letter
      · exact .other (bounded_error Breach.endInHexEscape.before) fun input => if_neg letter
    | pairUnit high before =>
      by_cases unfinished : 0 < (before.push octet).missing
      · refine .again (.pairUnit high (before.push octet), read) fun input => ?_
        simp only [readStringFrom, if_pos unfinished]
      cases unit : (before.push octet).value? with
      | none =>
        refine .other (bounded_error Breach.badEscape.before) fun input => ?_
        simp only [readStringFrom, if_neg unfinished, unit]
      | some low =>
        by_cases second : 0xdc00 ≤ low ∧ low ≤ 0xdfff
        · refine .again
            (.plain, read.pushCodePoint (0x10000 + (high - 0xd800) * 0x400 + (low - 0xdc00)))
            fun input => ?_
          simp only [readStringFrom, if_neg unfinished, unit, if_pos second]
        · refine .other (bounded_error Breach.loneSurrogate.before) fun input => ?_
          simp only [readStringFrom, if_neg unfinished, unit, if_neg second]

/-! ## Scalars -/

theorem bounded_readIdent {α : Type} (missing : List UInt8) (value : α) :
    Bounded fun input => (readIdent missing input).map fun rest => (value, rest) := by
  induction missing with
  | nil => exact bounded_ok value
  | cons expected missing ih =>
      refine bounded_of_branches
        (fun (_ : Unit) input =>
          (readIdent (expected :: missing) input).map fun rest => (value, rest))
        (fun _ _ => .error (Breach.endInValue.before [])) (fun _ => bounded_error _) (fun _ => rfl)
        nofun (fun _ octet => ?_) ()
      by_cases found : octet = expected
      · refine .other ih fun input => ?_
        simp only [readIdent, if_pos found]
      · refine .other (bounded_error Breach.noIdent.before) fun input => ?_
        simp only [readIdent, if_neg found]
        rfl

theorem Bounded.map {α β : Type} {reader : Octets → Except Fault (α × Octets)}
    (bounded : Bounded reader) (meaning : α → β) :
    Bounded fun input => (reader input).map fun (value, rest) => (meaning value, rest) := by
  intro input value rest read
  cases result : reader input with
  | error fault => simp only [result, Except.map] at read; cases read
  | ok found =>
      obtain ⟨found, behind⟩ := found
      simp only [result, Except.map] at read
      obtain ⟨rfl, rfl⟩ := Prod.mk.inj (Except.ok.inj read)
      obtain ⟨taken, same, again⟩ := bounded result
      exact ⟨taken, same, fun further ended => by simp only [again further ended, Except.map]⟩

/-- **A first octet opens brackets, or a bounded reader goes on behind it.** -/
theorem readScalar?_cases (octet : UInt8) :
    (octet = openBracket ∨ octet = openBrace) ∧ (∀ input, readScalar? octet input = none) ∨
      ∃ reader, Bounded reader ∧ ∀ input, readScalar? octet input = some (reader input) := by
  by_cases isNull : octet = nullMark
  · exact .inr ⟨_, bounded_readIdent nullTail .null, fun input => by
      rw [readScalar?, if_pos isNull]⟩
  by_cases isTrue : octet = trueMark
  · exact .inr ⟨_, bounded_readIdent trueTail (.boolean true), fun input => by
      rw [readScalar?, if_neg isNull, if_pos isTrue]⟩
  by_cases isFalse : octet = falseMark
  · exact .inr ⟨_, bounded_readIdent falseTail (.boolean false), fun input => by
      rw [readScalar?, if_neg isNull, if_neg isTrue, if_pos isFalse]⟩
  by_cases number : startsNumber octet = true
  · exact .inr ⟨_, (bounded_readNumber octet).map .number, fun input => by
      rw [readScalar?, if_neg isNull, if_neg isTrue, if_neg isFalse, if_pos number]⟩
  by_cases quote : octet = quoteMark
  · exact .inr ⟨_, (bounded_readStringFrom .plain []).map .text, fun input => by
      rw [readScalar?, if_neg isNull, if_neg isTrue, if_neg isFalse, if_neg number, if_pos quote]
      rfl⟩
  by_cases opening : octet = openBracket ∨ octet = openBrace
  · exact .inl ⟨opening, fun input => by
      rw [readScalar?, if_neg isNull, if_neg isTrue, if_neg isFalse, if_neg number, if_neg quote,
        if_pos opening]⟩
  · exact .inr ⟨_, bounded_error fun input => Breach.noValue.within (octet :: input),
      fun input => by
        rw [readScalar?, if_neg isNull, if_neg isTrue, if_neg isFalse, if_neg number, if_neg quote,
          if_neg opening]⟩

end DownloadCache.Json
