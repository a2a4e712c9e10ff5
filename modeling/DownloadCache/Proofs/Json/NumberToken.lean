import DownloadCache.Proofs.Json.Chaining
import DownloadCache.Proofs.Json.Numeral

/-!
# Numbers as they are written

A number is written in digits, with a minus sign in front or without, and with a fraction, an
exponent, both or neither behind (`NumberToken`).  It is plain if it has nothing but its digits, and
no zero in front of others (`NumberToken.IsPlain`).

What a number is read as is decided by how it is written: a plain one that fits a word is read as
the count that its digits denote, and no other one as any count (`NumberToken.readNumber_cases`).
The digits are gathered from the left in a word.  A digit too many, a point or an exponent hands the
number over to readers that end in a double or in a fault, and a sign leaves either a double or a
negative integer (`Uncounted`).  In every case the whole number is taken, and no more.
-/

namespace DownloadCache.Json

set_option autoImplicit false

/-! ## Digits -/

/-- One decimal digit or more. -/
structure Digits where
  first : Fin 10
  others : List (Fin 10)
deriving DecidableEq

/-- The octets of digits. -/
def digitOctets (digits : List (Fin 10)) : Octets :=
  digits.map fun digit : Fin 10 => digitOctet digit

/-- The number that digits denote behind the value `read` of those before. -/
def valueBehind (read : Nat) (digits : List (Fin 10)) : Nat :=
  digits.foldl (fun value (digit : Fin 10) => value * 10 + digit) read

def Digits.octets (digits : Digits) : Octets :=
  digitOctets (digits.first :: digits.others)

/-- The number that digits denote. -/
def Digits.value (digits : Digits) : Nat :=
  valueBehind 0 (digits.first :: digits.others)

theorem digitOctets_cons (digit : Fin 10) (digits : List (Fin 10)) (rest : Octets) :
    digitOctets (digit :: digits) ++ rest = digitOctet digit :: (digitOctets digits ++ rest) :=
  rfl

theorem le_valueBehind (read : Nat) (digits : List (Fin 10)) : read ≤ valueBehind read digits := by
  induction digits generalizing read with
  | nil => exact Nat.le_refl read
  | cons digit digits ih =>
      have further : read * 10 + digit ≤ valueBehind read (digit :: digits) := ih _
      omega

/-- Whether octets do not go on with a digit. -/
def Undigited (rest : Octets) : Prop :=
  ∀ octet ∈ rest.head?, isDigit octet = false

theorem undigited_cons {octet : UInt8} {rest : Octets} :
    Undigited (octet :: rest) ↔ isDigit octet = false := by
  simp [Undigited]

theorem Ended.undigited {rest : Octets} (ended : Ended rest) : Undigited rest :=
  fun octet member => (ended octet member).1

theorem skipDigits_digitOctets (digits : List (Fin 10)) {rest : Octets}
    (undigited : Undigited rest) : skipDigits (digitOctets digits ++ rest) = rest := by
  have all : ∀ octet ∈ digitOctets digits, isDigit octet = true := by
    intro octet member
    obtain ⟨digit, -, rfl⟩ := List.mem_map.mp member
    exact isDigit_digitOctet digit.isLt
  rw [skipDigits, List.dropWhile_append_of_pos all]
  cases rest with
  | nil => rfl
  | cons octet rest =>
      exact List.dropWhile_cons_of_neg (by rw [undigited_cons.mp undigited]; decide)

/-! ## Tokens -/

inductive Sign where
  | plus
  | minus
deriving DecidableEq

def Sign.octet : Sign → UInt8
  | .plus => 0x2b
  | .minus => Json.minus

/-- An exponent, with a capital mark or a small one, and with a sign or none. -/
structure Exponent where
  capital : Bool
  sign? : Option Sign
  digits : Digits
deriving DecidableEq

/-- The octets of an exponent behind its mark. -/
def Exponent.behindMark (exponent : Exponent) : Octets :=
  (exponent.sign?.map Sign.octet).toList ++ exponent.digits.octets

def Exponent.octets (exponent : Exponent) : Octets :=
  (if exponent.capital then 0x45 else 0x65) :: exponent.behindMark

/-- A number as it may be written: every number of JSON, and besides numbers with zeros in front. -/
structure NumberToken where
  isNegative : Bool
  integer : Digits
  fraction? : Option Digits
  exponent? : Option Exponent
deriving DecidableEq

namespace NumberToken

variable (token : NumberToken)

/-- The octets behind the fraction. -/
def behindFraction : Octets :=
  token.exponent?.elim [] Exponent.octets

/-- The octets behind the integer. -/
def behindInteger : Octets :=
  token.fraction?.elim [] (fun digits => 0x2e :: digits.octets) ++ token.behindFraction

/-- The octets of a number. -/
def octets : Octets :=
  (if token.isNegative then [minus] else []) ++ (token.integer.octets ++ token.behindInteger)

/-- Whether a number is written in digits only, with no zero in front of others. -/
def IsPlain : Prop :=
  (token.isNegative = false ∧ token.fraction? = none ∧ token.exponent? = none) ∧
    (token.integer.first = 0 → token.integer.others = [])

instance : Decidable token.IsPlain :=
  inferInstanceAs (Decidable (_ ∧ _))

/-- The number that the digits of the integer denote. -/
def value : Nat :=
  token.integer.value

end NumberToken

/-! ## Numbers that are no counts -/

/-- Whether a result is a fault, or a number other than a count that leaves a rest. -/
def Uncounted (rest : Octets) (result : Except Fault (Number × Octets)) : Prop :=
  ∀ ⦃number behind⦄, result = .ok (number, behind) → behind = rest ∧ ∀ count, number ≠ .count count

theorem uncounted_error (rest : Octets) (fault : Fault) : Uncounted rest (.error fault) :=
  nofun

/-- Behind a sign, an integer is a double or a negative integer. -/
theorem uncounted_integerOf (value : Nat) (rest : Octets) :
    Uncounted rest (.ok (integerOf true value, rest)) := by
  intro number behind read
  obtain ⟨rfl, rfl⟩ := Prod.mk.inj (Except.ok.inj read)
  refine ⟨rfl, fun count => ?_⟩
  rw [integerOf, if_neg Bool.noConfusion]
  split_ifs
  · exact nofun
  · exact nofun

section Doubles

variable (isNegative : Bool) (significand : Nat)

theorem uncounted_readDouble (exponent : Int) (rest : Octets) :
    Uncounted rest (readDouble isNegative significand exponent rest) := by
  rw [readDouble, doubleOf]
  cases scale significand.toUInt64.toFloat exponent 4 with
  | none => exact uncounted_error rest _
  | some value =>
      intro number behind read
      obtain ⟨rfl, rfl⟩ := Prod.mk.inj (Except.ok.inj read)
      exact ⟨rfl, nofun⟩

theorem uncounted_readExponentDigits (start : Int) (falling : Bool) (read : Nat)
    (digits : List (Fin 10)) {rest : Octets} (undigited : Undigited rest) :
    Uncounted rest (readExponentDigits isNegative significand start falling read
      (digitOctets digits ++ rest)) := by
  induction digits generalizing read with
  | nil =>
      cases rest with
      | nil => exact uncounted_readDouble ..
      | cons octet rest =>
          change Uncounted _ (readExponentDigits _ _ _ _ _ (octet :: rest))
          rw [readExponentDigits, undigited_cons.mp undigited]
          exact uncounted_readDouble ..
  | cons digit digits ih =>
      rw [digitOctets_cons, readExponentDigits, if_pos (isDigit_digitOctet digit.isLt)]
      dsimp only
      split_ifs
      · exact uncounted_error ..
      · rw [skipDigits_digitOctets digits undigited]
        exact uncounted_readDouble ..
      · exact ih _

theorem uncounted_readExponent (start : Int) (exponent : Exponent) {rest : Octets}
    (undigited : Undigited rest) :
    Uncounted rest (readExponent isNegative significand start (exponent.behindMark ++ rest)) := by
  obtain ⟨capital, sign?, first, others⟩ := exponent
  have digit := isDigit_digitOctet first.isLt
  have unsigned : digitOctet first ≠ 0x2b ∧ digitOctet first ≠ minus := by
    revert first
    decide
  have behind (falling : Bool) := uncounted_readExponentDigits isNegative significand start falling
    ((digitOctet first).toNat - 0x30) others undigited
  rcases sign? with _ | _ | _
  · change Uncounted rest
      (readExponent _ _ _ (digitOctet first :: (digitOctets others ++ rest)))
    simp only [readExponent, if_neg unsigned.1, if_neg unsigned.2, if_pos digit]
    exact behind false
  · change Uncounted rest (readBehindSign _ _ _ false (digitOctet first :: _))
    rw [readBehindSign, if_pos digit]
    exact behind false
  · change Uncounted rest (readBehindSign _ _ _ true (digitOctet first :: _))
    rw [readBehindSign, if_pos digit]
    exact behind true

end Doubles

/-! ## What follows the integer -/

theorem Exponent.exists_mark (exponent : Exponent) : ∃ mark, isExponentMark mark = true ∧
    isDigit mark = false ∧ mark ≠ 0x2e ∧ exponent.octets = mark :: exponent.behindMark := by
  obtain ⟨capital, sign?, digits⟩ := exponent
  cases capital
  · exact ⟨0x65, rfl, rfl, by decide, rfl⟩
  · exact ⟨0x45, rfl, rfl, by decide, rfl⟩

/-- Behind the integer stands a point, the mark of an exponent, or what follows the number. -/
theorem NumberToken.behindInteger_cases (token : NumberToken) (rest : Octets) :
    (token.fraction? = none ∧ token.exponent? = none ∧ token.behindInteger ++ rest = rest) ∨
      (∃ digits : Digits, token.fraction? = some digits ∧ token.behindInteger ++ rest =
        0x2e :: (digits.octets ++ (token.behindFraction ++ rest))) ∨
      ∃ exponent mark, token.exponent? = some exponent ∧ isExponentMark mark = true ∧
        isDigit mark = false ∧ mark ≠ 0x2e ∧
          token.behindInteger ++ rest = mark :: (exponent.behindMark ++ rest) := by
  rw [behindInteger]
  cases token.fraction? with
  | some digits =>
      refine .inr (.inl ⟨digits, rfl, ?_⟩)
      rw [Option.elim_some, List.cons_append, List.cons_append, List.append_assoc]
  | none =>
      rw [behindFraction]
      cases token.exponent? with
      | none => exact .inl ⟨rfl, rfl, rfl⟩
      | some exponent =>
          obtain ⟨mark, isMark, noDigit, noPoint, octets⟩ := exponent.exists_mark
          refine .inr (.inr ⟨exponent, mark, rfl, isMark, noDigit, noPoint, ?_⟩)
          rw [Option.elim_none, Option.elim_some, List.nil_append, octets, List.cons_append]

namespace NumberToken

variable (token : NumberToken) {rest : Octets} (ended : Ended rest)
include ended

theorem undigited_behindFraction : Undigited (token.behindFraction ++ rest) := by
  rw [behindFraction]
  cases token.exponent? with
  | none => exact ended.undigited
  | some exponent =>
      obtain ⟨mark, -, undigited, -, octets⟩ := exponent.exists_mark
      rw [Option.elim_some, octets]
      exact undigited_cons.mpr undigited

theorem undigited_behindInteger : Undigited (token.behindInteger ++ rest) := by
  obtain ⟨-, -, same⟩ | ⟨digits, -, same⟩ | ⟨exponent, mark, -, -, noDigit, -, same⟩ :=
    token.behindInteger_cases rest
  · rw [same]
    exact ended.undigited
  · rw [same]
    exact undigited_cons.mpr rfl
  · rw [same]
    exact undigited_cons.mpr noDigit

variable (isNegative : Bool) (significand : Nat)

theorem uncounted_readAfterFraction (exponent : Int) :
    Uncounted rest (readAfterFraction isNegative significand exponent
      (token.behindFraction ++ rest)) := by
  rw [behindFraction]
  cases token.exponent? with
  | none =>
      rw [Option.elim_none, List.nil_append]
      cases rest with
      | nil => exact uncounted_readDouble ..
      | cons octet rest =>
          rw [readAfterFraction, (ended_cons.mp ended).2.2]
          exact uncounted_readDouble ..
  | some written =>
      obtain ⟨mark, isMark, -, -, octets⟩ := written.exists_mark
      rw [Option.elim_some, octets, List.cons_append, readAfterFraction, if_pos isMark]
      exact uncounted_readExponent _ _ _ written ended.undigited

theorem uncounted_readFractionDigits (start : Int) (places : Nat) (digits : List (Fin 10))
    (some : places ≠ 0 ∨ digits ≠ []) :
    Uncounted rest (readFractionDigits isNegative start significand places
      (digitOctets digits ++ (token.behindFraction ++ rest))) := by
  have undigited := token.undigited_behindFraction ended
  have behind := token.uncounted_readAfterFraction ended isNegative
  induction digits generalizing significand places with
  | nil =>
      have some := some.resolve_right (· rfl)
      have after := behind significand (start - places)
      change Uncounted rest (readFractionDigits _ _ _ _ (token.behindFraction ++ rest))
      cases same : token.behindFraction ++ rest with
      | nil =>
          rw [readFractionDigits, if_neg some, ← same]
          exact after
      | cons octet further =>
          rw [same] at undigited
          rw [readFractionDigits, undigited_cons.mp undigited, if_neg Bool.false_ne_true,
            if_neg some, ← same]
          exact after
  | cons digit digits ih =>
      rw [digitOctets_cons, readFractionDigits, if_pos (isDigit_digitOctet digit.isLt)]
      dsimp only
      split_ifs
      · rw [skipDigits_digitOctets digits undigited]
        exact behind ..
      · exact ih _ _ (.inl (Nat.succ_ne_zero places))

theorem uncounted_readFraction (start : Int) (digits : Digits) :
    Uncounted rest (readFractionDigits isNegative start significand 0
      (digits.octets ++ (token.behindFraction ++ rest))) :=
  token.uncounted_readFractionDigits ended isNegative significand start 0 _
    (.inr (List.cons_ne_nil _ _))

/-- Behind a point or the mark of an exponent, no count is read. -/
theorem readAfterInteger_cases :
    (token.fraction? = none ∧ token.exponent? = none ∧
        readAfterInteger isNegative significand (token.behindInteger ++ rest) =
          .ok (integerOf isNegative significand, rest)) ∨
      ¬(token.fraction? = none ∧ token.exponent? = none) ∧
        Uncounted rest
          (readAfterInteger isNegative significand (token.behindInteger ++ rest)) := by
  obtain ⟨fraction, exponent, same⟩ | ⟨digits, fraction, same⟩ |
    ⟨exponent, mark, written, isMark, -, noPoint, same⟩ := token.behindInteger_cases rest
  · refine .inl ⟨fraction, exponent, ?_⟩
    rw [same]
    cases rest with
    | nil => rfl
    | cons octet rest =>
        obtain ⟨-, noPoint, noMark⟩ := ended_cons.mp ended
        rw [readAfterInteger, if_neg noPoint, noMark]
        rfl
  · refine .inr ⟨fun none => ?_, ?_⟩
    · cases none.1.symm.trans fraction
    rw [same]
    exact token.uncounted_readFraction ended isNegative significand 0 digits
  · refine .inr ⟨fun none => ?_, ?_⟩
    · cases none.2.symm.trans written
    rw [same, readAfterInteger, if_neg noPoint, if_pos isMark]
    exact uncounted_readExponent _ _ _ exponent ended.undigited

/-- Behind more digits than fit a word, no count is read. -/
theorem uncounted_readLongInteger (places : Nat) (digits : List (Fin 10)) :
    Uncounted rest (readLongInteger isNegative significand places
      (digitOctets digits ++ (token.behindInteger ++ rest))) := by
  induction digits generalizing places with
  | cons digit digits ih =>
      rw [digitOctets_cons, readLongInteger, if_pos (isDigit_digitOctet digit.isLt)]
      exact ih _
  | nil =>
      change Uncounted rest (readLongInteger _ _ _ (token.behindInteger ++ rest))
      obtain ⟨-, -, same⟩ | ⟨digits, -, same⟩ |
        ⟨exponent, mark, -, isMark, noDigit, noPoint, same⟩ := token.behindInteger_cases rest
      · rw [same]
        cases rest with
        | nil => exact uncounted_readDouble ..
        | cons octet rest =>
            obtain ⟨noDigit, noPoint, noMark⟩ := ended_cons.mp ended
            rw [readLongInteger, noDigit, if_neg Bool.false_ne_true, if_neg noPoint, noMark]
            exact uncounted_readDouble ..
      · rw [same]
        exact token.uncounted_readFraction ended isNegative significand places digits
      · rw [same, readLongInteger, noDigit, if_neg Bool.false_ne_true, if_neg noPoint,
          if_pos isMark]
        exact uncounted_readExponent _ _ _ exponent ended.undigited

/-! ## Integers -/

/-- **The digits of an integer are gathered,** unless they denote more than a word. -/
theorem readIntegerDigits_cases (digits : List (Fin 10)) (word : significand ≤ maxSignificand) :
    (valueBehind significand digits ≤ maxSignificand ∧
        readIntegerDigits isNegative significand
            (digitOctets digits ++ (token.behindInteger ++ rest)) =
          readAfterInteger isNegative (valueBehind significand digits)
            (token.behindInteger ++ rest)) ∨
      maxSignificand < valueBehind significand digits ∧
        Uncounted rest (readIntegerDigits isNegative significand
          (digitOctets digits ++ (token.behindInteger ++ rest))) := by
  induction digits generalizing significand with
  | nil =>
      refine .inl ⟨word, ?_⟩
      change readIntegerDigits _ _ (token.behindInteger ++ rest) = _
      have undigited := token.undigited_behindInteger ended
      cases same : token.behindInteger ++ rest with
      | nil => rfl
      | cons octet further =>
          rw [same] at undigited
          rw [readIntegerDigits, undigited_cons.mp undigited]
          rfl
  | cons digit digits ih =>
      have exact : (digitOctet digit).toNat - 0x30 = digit := toNat_digitOctet digit.isLt
      rw [digitOctets_cons, readIntegerDigits, if_pos (isDigit_digitOctet digit.isLt), exact]
      dsimp only
      by_cases large : significand * 10 + digit > maxSignificand
      · rw [if_pos large]
        exact .inr ⟨Nat.lt_of_lt_of_le large (le_valueBehind _ digits),
          token.uncounted_readLongInteger ended isNegative significand 1 digits⟩
      · rw [if_neg large]
        exact ih _ (Nat.not_lt.mp large)

/-- What digits are read as is decided by what they denote, if no zero stands in front of others. -/
theorem readUnsigned_cases :
    (((token.integer.first = 0 → token.integer.others = []) ∧ token.value ≤ maxSignificand) ∧
        readUnsigned isNegative (token.integer.octets ++ (token.behindInteger ++ rest)) =
          readAfterInteger isNegative token.value (token.behindInteger ++ rest)) ∨
      ¬((token.integer.first = 0 → token.integer.others = []) ∧ token.value ≤ maxSignificand) ∧
        Uncounted rest
          (readUnsigned isNegative (token.integer.octets ++ (token.behindInteger ++ rest))) := by
  have undigited := token.undigited_behindInteger ended
  have gathered := token.readIntegerDigits_cases ended isNegative
  rw [value, Digits.octets, Digits.value]
  obtain ⟨first, others⟩ := token.integer
  dsimp only
  rw [digitOctets_cons]
  by_cases zero : first = 0
  · subst zero
    change (_ ∧ readBehindZero _ _ = _) ∨ _ ∧ Uncounted rest (readBehindZero _ _)
    cases others with
    | nil =>
        refine .inl ⟨⟨fun _ => rfl, Nat.zero_le _⟩, ?_⟩
        change readBehindZero _ (token.behindInteger ++ rest) = _
        cases same : token.behindInteger ++ rest with
        | nil => rfl
        | cons octet further =>
            rw [same] at undigited
            rw [readBehindZero, undigited_cons.mp undigited]
            rfl
    | cons digit digits =>
        refine .inr ⟨fun plain => List.cons_ne_nil _ _ (plain.1 rfl), ?_⟩
        rw [digitOctets_cons, readBehindZero, if_pos (isDigit_digitOctet digit.isLt)]
        exact uncounted_error ..
  · have some : 0 < (first : Nat) := Fin.pos_iff_ne_zero.mpr zero
    have word : (first : Nat) ≤ maxSignificand :=
      Nat.le_trans (Nat.le_of_lt first.isLt) (by decide)
    have denotes : valueBehind 0 (first :: others) = valueBehind first others := by
      rw [valueBehind, List.foldl_cons, Nat.zero_mul, Nat.zero_add]
      rfl
    rw [readUnsigned_digitOctet isNegative some first.isLt, denotes]
    rcases gathered first others word with ⟨small, read⟩ | ⟨large, uncounted⟩
    · exact .inl ⟨⟨fun none => absurd none zero, small⟩, read⟩
    · exact .inr ⟨fun plain => absurd plain.2 (Nat.not_le.mpr large), uncounted⟩

/-! ## Numbers -/

/-- **A number that is plain and fits a word is read as the count that it denotes, and no other
number as any count.**  All of the number is read, and nothing else. -/
theorem readNumber_cases : ∃ octet further, token.octets ++ rest = octet :: further ∧
    startsNumber octet = true ∧
      ((token.IsPlain ∧ token.value ≤ maxSignificand) ∧
          readNumber octet further = .ok (.count token.value.toUInt64, rest) ∨
        ¬(token.IsPlain ∧ token.value ≤ maxSignificand) ∧
          Uncounted rest (readNumber octet further)) := by
  have unsigned (isNegative : Bool) := token.readUnsigned_cases ended isNegative
  have after (isNegative : Bool) := token.readAfterInteger_cases ended isNegative token.value
  rw [octets, IsPlain]
  cases token.isNegative with
  | true =>
      refine ⟨minus, token.integer.octets ++ (token.behindInteger ++ rest), ?_, rfl, ?_⟩
      · rw [if_pos rfl, List.append_assoc, List.singleton_append, List.append_assoc]
      refine .inr ⟨fun plain => Bool.noConfusion plain.1.1.1, ?_⟩
      rw [readNumber, if_pos rfl]
      rcases unsigned true with ⟨-, read⟩ | ⟨-, uncounted⟩
      · rw [read]
        rcases after true with ⟨-, -, read⟩ | ⟨-, uncounted⟩
        · rw [read]
          exact uncounted_integerOf token.value rest
        · exact uncounted
      · exact uncounted
  | false =>
      have other : digitOctet token.integer.first ≠ minus := by
        generalize token.integer.first = first
        revert first
        decide
      refine ⟨digitOctet token.integer.first,
        digitOctets token.integer.others ++ (token.behindInteger ++ rest), ?_, ?_, ?_⟩
      · rw [if_neg Bool.noConfusion, List.nil_append, List.append_assoc]
        rfl
      · rw [startsNumber, isDigit_digitOctet token.integer.first.isLt, Bool.or_true]
      rw [readNumber, if_neg other]
      rcases unsigned false with ⟨small, read⟩ | ⟨large, uncounted⟩
      · rcases after false with ⟨fraction, exponent, last⟩ | ⟨further, uncounted⟩
        · exact .inl ⟨⟨⟨⟨rfl, fraction, exponent⟩, small.1⟩, small.2⟩, read.trans last⟩
        · refine .inr ⟨fun plain => further plain.1.1.2, ?_⟩
          rw [← read] at uncounted
          exact uncounted
      · exact .inr ⟨fun plain => large ⟨plain.1.2, plain.2⟩, uncounted⟩

end NumberToken

end DownloadCache.Json
