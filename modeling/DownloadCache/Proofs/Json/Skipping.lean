import DownloadCache.Json.Reader
import DownloadCache.Proofs.Json.Chaining

/-!
# How far skipped values extend

A value that nobody asks for is passed over, brackets and all.  How far it extends is decided by its
octets and, where it is a number, by the next one (`bounded_skipValue`), so it is passed over in the
same way wherever it stands.

A reader of skipped values keeps the brackets that are open.  For a given number of rounds it is
bounded, by induction on the rounds and within one round on the brackets that it closes
(`bounded_skipValues`).  How many rounds it has does not matter as long as there is one for every
octet (`skipValues_of_length_lt`), since every round takes at least one.
-/

namespace DownloadCache.Json

set_option autoImplicit false

/-! ## Strings -/

theorem bounded_skipStringFrom (mode : SkipMode) : Bounded (passing (skipStringFrom mode)) := by
  refine bounded_of_branches (fun mode => passing (skipStringFrom mode))
    (fun _ => passing fun _ => .error (Breach.endInString.before [])) (fun _ => bounded_refusing _)
    (fun mode => by simp only [passing, skipStringFrom]) nofun (fun mode octet => ?_) mode
  cases mode with
  | plain =>
    by_cases quote : octet = quoteMark
    · refine .other bounded_passing_rest fun input => ?_
      simp only [passing, skipStringFrom, if_pos quote]
    by_cases slash : octet = backslash
    · refine .again .escape fun input => ?_
      simp only [passing, skipStringFrom, if_neg quote, if_pos slash]
    by_cases control : octet < 0x20
    · refine .other (bounded_refusing fun input => Breach.controlCharacter.before (octet :: input))
        fun input => ?_
      simp only [passing, skipStringFrom, if_neg quote, if_neg slash, if_pos control]
    · refine .again .plain fun input => ?_
      simp only [passing, skipStringFrom, if_neg quote, if_neg slash, if_neg control]
  | escape =>
    by_cases letter : octet = unitLetter
    · refine .again (.unit HexUnit.start) fun input => ?_
      simp only [passing, skipStringFrom, if_pos letter]
    by_cases escaped : (escapedOctet? octet).isSome = true
    · refine .again .plain fun input => ?_
      simp only [passing, skipStringFrom, if_neg letter, if_pos escaped]
    · refine .other (bounded_refusing Breach.badEscape.before) fun input => ?_
      simp only [passing, skipStringFrom, if_neg letter, if_neg escaped]
  | unit before =>
    by_cases unfinished : 0 < (before.push octet).missing
    · refine .again (.unit (before.push octet)) fun input => ?_
      simp only [passing, skipStringFrom, if_pos unfinished]
    by_cases known : (before.push octet).value?.isSome = true
    · refine .again .plain fun input => ?_
      simp only [passing, skipStringFrom, if_neg unfinished, if_pos known]
    · refine .other (bounded_refusing Breach.badEscape.before) fun input => ?_
      simp only [passing, skipStringFrom, if_neg unfinished, if_neg known]

/-! ## Numbers -/

/-- What skipping an exponent does behind the sign. -/
def skipBehindSign : Octets → Except Fault Octets
  | [] => .error (Breach.badNumber.before [])
  | octet :: rest =>
      if isDigit octet then .ok (skipDigits rest) else .error (Breach.badNumber.before rest)

theorem bounded_skipBehindSign : Bounded (passing skipBehindSign) := by
  refine bounded_of_branches (fun (_ : Unit) => passing skipBehindSign)
    (fun _ => passing fun _ => .error (Breach.badNumber.before [])) (fun _ => bounded_refusing _)
    (fun _ => rfl) nofun (fun _ octet => ?_) ()
  by_cases digit : isDigit octet = true
  · refine .other bounded_passing_rest.skipDigits fun input => ?_
    simp only [passing, skipBehindSign, if_pos digit]
  · refine .other (bounded_refusing Breach.badNumber.before) fun input => ?_
    simp only [passing, skipBehindSign, if_neg digit]

theorem bounded_skipExponent : Bounded (passing skipExponent) := by
  refine bounded_of_branches (fun (_ : Unit) => passing skipExponent)
    (fun _ => passing fun _ => .error (Breach.badNumber.before [])) (fun _ => bounded_refusing _)
    (fun _ => rfl) nofun (fun _ octet => ?_) ()
  by_cases sign : octet = 0x2b ∨ octet = minus
  · refine .other bounded_skipBehindSign fun input => ?_
    simp only [passing, skipExponent, if_pos sign]
    rfl
  · have nonempty (value : Unit) : passing skipBehindSign [] ≠ .ok (value, []) := by
      intro read
      cases read
    refine .other (bounded_skipBehindSign.cons nonempty octet) fun input => ?_
    simp only [passing, skipExponent, if_neg sign]
    rfl

/-- What skipping a fraction does behind its digits. -/
def skipBehindFraction : Octets → Except Fault Octets
  | [] => .ok []
  | octet :: rest => if isExponentMark octet then skipExponent rest else .ok (octet :: rest)

theorem bounded_skipBehindFraction : Bounded (passing skipBehindFraction) := by
  refine bounded_of_branches (fun (_ : Unit) => passing skipBehindFraction)
    (fun _ => passing .ok) (fun _ => bounded_passing_rest) (fun _ => rfl)
    (fun _ further value ended read => ?_) (fun _ octet => ?_) ()
  · cases further with
    | nil => exact read
    | cons octet further =>
        rw [passing, skipBehindFraction, (ended_cons.mp ended).2.2]
        exact read
  · by_cases mark : isExponentMark octet = true
    · refine .other bounded_skipExponent fun input => ?_
      simp only [passing, skipBehindFraction, if_pos mark]
    · refine .stop fun input => ?_
      simp only [passing, skipBehindFraction, if_neg mark]

theorem bounded_skipFraction : Bounded (passing skipFraction) := by
  refine bounded_of_branches (fun (_ : Unit) => passing skipFraction)
    (fun _ => passing fun _ => .error (Breach.badNumber.within [])) (fun _ => bounded_refusing _)
    (fun _ => rfl) nofun (fun _ octet => ?_) ()
  by_cases digit : isDigit octet = true
  · refine .other bounded_skipBehindFraction.skipDigits fun input => ?_
    simp only [passing, skipFraction, if_pos digit]
    rfl
  · refine .other (bounded_refusing fun input => Breach.badNumber.within (octet :: input))
      fun input => ?_
    simp only [passing, skipFraction, if_neg digit]

theorem bounded_skipAfterInteger : Bounded (passing skipAfterInteger) := by
  refine bounded_of_branches (fun (_ : Unit) => passing skipAfterInteger)
    (fun _ => passing .ok) (fun _ => bounded_passing_rest) (fun _ => rfl)
    (fun _ further value ended read => ?_) (fun _ octet => ?_) ()
  · cases further with
    | nil => exact read
    | cons octet further =>
        obtain ⟨-, noPoint, noMark⟩ := ended_cons.mp ended
        rw [passing, skipAfterInteger, if_neg noPoint, noMark]
        exact read
  · by_cases point : octet = 0x2e
    · refine .other bounded_skipFraction fun input => ?_
      simp only [passing, skipAfterInteger, if_pos point]
    by_cases mark : isExponentMark octet = true
    · refine .other bounded_skipExponent fun input => ?_
      simp only [passing, skipAfterInteger, if_neg point, if_pos mark]
    · refine .stop fun input => ?_
      simp only [passing, skipAfterInteger, if_neg point, if_neg mark]

/-- What skipping a number does behind a zero at the start. -/
def skipBehindZero : Octets → Except Fault Octets
  | [] => .ok []
  | octet :: rest =>
      if isDigit octet then .error (Breach.badNumber.within (octet :: rest))
      else skipAfterInteger (octet :: rest)

theorem bounded_skipBehindZero : Bounded (passing skipBehindZero) := by
  refine bounded_of_branches (fun (_ : Unit) => passing skipBehindZero)
    (fun _ => passing skipAfterInteger) (fun _ => bounded_skipAfterInteger) (fun _ => rfl)
    (fun _ further value ended read => ?_) (fun _ octet => ?_) ()
  · cases further with
    | nil => exact read
    | cons octet further =>
        rw [passing, skipBehindZero, (ended_cons.mp ended).1]
        exact read
  · by_cases digit : isDigit octet = true
    · refine .other (bounded_refusing fun input => Breach.badNumber.within (octet :: input))
        fun input => ?_
      simp only [passing, skipBehindZero, if_pos digit]
    · refine .stop fun input => ?_
      simp only [passing, skipBehindZero, if_neg digit]

theorem bounded_skipUnsigned : Bounded (passing skipUnsigned) := by
  refine bounded_of_branches (fun (_ : Unit) => passing skipUnsigned)
    (fun _ => passing fun _ => .error (Breach.badNumber.before [])) (fun _ => bounded_refusing _)
    (fun _ => rfl) nofun (fun _ octet => ?_) ()
  by_cases zero : octet = 0x30
  · refine .other bounded_skipBehindZero fun input => ?_
    simp only [passing, skipUnsigned, if_pos zero]
    rfl
  by_cases digit : isDigit octet = true
  · refine .other bounded_skipAfterInteger.skipDigits fun input => ?_
    simp only [passing, skipUnsigned, if_neg zero, if_pos digit]
  · refine .other (bounded_refusing Breach.badNumber.before) fun input => ?_
    simp only [passing, skipUnsigned, if_neg zero, if_neg digit]

theorem bounded_skipNumber (octet : UInt8) : Bounded (passing (skipNumber octet)) := by
  unfold skipNumber
  by_cases negative : octet = minus
  · simp only [if_pos negative]
    exact bounded_skipUnsigned
  · simp only [if_neg negative]
    exact bounded_skipUnsigned.cons nofun octet

/-! ## Values without brackets -/

/-- **A first octet opens brackets, or a bounded reader passes over what follows it.** -/
theorem skipStart_cases (octet : UInt8) :
    (octet = openBracket ∧
        ∀ frames rest, skipStart frames octet rest = skipClosing (.list :: frames) false rest) ∨
      (octet = openBrace ∧
        ∀ frames rest, skipStart frames octet rest = skipClosing (.object :: frames) false rest) ∨
      ∃ skip, Bounded (passing skip) ∧
        ∀ frames rest, skipStart frames octet rest = skip rest >>= skipClosing frames true := by
  have ident (missing : List UInt8) : Bounded (passing (readIdent missing)) :=
    bounded_readIdent missing ()
  by_cases isNull : octet = nullMark
  · exact .inr (.inr ⟨_, ident nullTail, fun frames rest => if_pos isNull⟩)
  by_cases isTrue : octet = trueMark
  · refine .inr (.inr ⟨_, ident trueTail, fun frames rest => ?_⟩)
    rw [skipStart, if_neg isNull, if_pos isTrue]
    rfl
  by_cases isFalse : octet = falseMark
  · refine .inr (.inr ⟨_, ident falseTail, fun frames rest => ?_⟩)
    rw [skipStart, if_neg isNull, if_neg isTrue, if_pos isFalse]
    rfl
  by_cases number : startsNumber octet = true
  · refine .inr (.inr ⟨_, bounded_skipNumber octet, fun frames rest => ?_⟩)
    rw [skipStart, if_neg isNull, if_neg isTrue, if_neg isFalse, if_pos number]
    rfl
  by_cases quote : octet = quoteMark
  · refine .inr (.inr ⟨_, bounded_skipStringFrom .plain, fun frames rest => ?_⟩)
    rw [skipStart, if_neg isNull, if_neg isTrue, if_neg isFalse, if_neg number, if_pos quote]
    rfl
  by_cases list : octet = openBracket
  · refine .inl ⟨list, fun frames rest => ?_⟩
    rw [skipStart, if_neg isNull, if_neg isTrue, if_neg isFalse, if_neg number, if_neg quote,
      if_pos list]
  by_cases object : octet = openBrace
  · refine .inr (.inl ⟨object, fun frames rest => ?_⟩)
    rw [skipStart, if_neg isNull, if_neg isTrue, if_neg isFalse, if_neg number, if_neg quote,
      if_neg list, if_pos object]
  · refine .inr (.inr ⟨_, bounded_refusing fun rest => Breach.noValue.within (octet :: rest),
      fun frames rest => ?_⟩)
    rw [skipStart, if_neg isNull, if_neg isTrue, if_neg isFalse, if_neg number, if_neg quote,
      if_neg list, if_neg object]
    rfl

/-! ## Brackets -/

/-- Goes on behind a step of skipping. -/
def skipFurther (rounds : Nat) : SkipStep → Except Fault Octets
  | .finished rest => .ok rest
  | .value frames start => skipValues rounds frames start

/-- Closes brackets and goes on behind them. -/
def skipOn (rounds : Nat) (frames : List Frame) (behindValue : Bool) (input : Octets) :
    Except Fault Octets :=
  skipClosing frames behindValue input >>= skipFurther rounds

/-- The bracket that closes what has been opened. -/
def Frame.closing (frame : Frame) : UInt8 :=
  if frame = .list then closeBracket else closeBrace

/-- Where a value has to follow, behind a name if an object is open. -/
def openValue (frames : List Frame) (frame : Frame) (start : Octets) : Except Fault SkipStep :=
  if frame = .object then (skipName start).map (SkipStep.value frames)
  else .ok (.value frames start)

theorem skipClosing_cons {frame : Frame} {outer : List Frame} {behindValue : Bool}
    {input rest : Octets} {octet : UInt8} (same : skipSpace input = octet :: rest) :
    skipClosing (frame :: outer) behindValue input =
      if behindValue ∧ octet = comma then openValue (frame :: outer) frame rest
      else if octet = frame.closing then skipClosing outer true rest
      else if behindValue then
        .error ((if frame = .list then Breach.noListCommaOrEnd
          else Breach.noObjectCommaOrEnd).within (octet :: rest))
      else openValue (frame :: outer) frame (octet :: rest) := by
  rw [skipClosing, same]
  rfl

/-- Goes on where a value has to follow, behind a name if an object is open. -/
def skipMember (rounds : Nat) (frames : List Frame) (frame : Frame) (start : Octets) :
    Except Fault Octets :=
  if frame = .object then skipName start >>= skipValues rounds frames
  else skipValues rounds frames start

theorem openValue_bind (rounds : Nat) (frames : List Frame) (frame : Frame) (start : Octets) :
    openValue frames frame start >>= skipFurther rounds =
      skipMember rounds frames frame start := by
  cases frame with
  | list => rfl
  | object =>
      rw [openValue, if_pos rfl, skipMember, if_pos rfl]
      cases skipName start <;> rfl

/-- What is done at an octet while brackets are open. -/
def skipAt (rounds : Nat) (frame : Frame) (outer : List Frame) (behindValue : Bool) (octet : UInt8)
    (rest : Octets) : Except Fault Octets :=
  if behindValue ∧ octet = comma then skipMember rounds (frame :: outer) frame rest
  else if octet = frame.closing then skipOn rounds outer true rest
  else if behindValue then
    .error ((if frame = .list then Breach.noListCommaOrEnd
      else Breach.noObjectCommaOrEnd).within (octet :: rest))
  else skipMember rounds (frame :: outer) frame (octet :: rest)

theorem skipOn_cons_of_skipSpace {rounds : Nat} {frame : Frame} {outer : List Frame}
    {behindValue : Bool} {input rest : Octets} {octet : UInt8}
    (same : skipSpace input = octet :: rest) :
    skipOn rounds (frame :: outer) behindValue input =
      skipAt rounds frame outer behindValue octet rest := by
  rw [skipOn, skipClosing_cons same, skipAt]
  by_cases separated : behindValue ∧ octet = comma
  · rw [if_pos separated, if_pos separated, openValue_bind]
  rw [if_neg separated, if_neg separated]
  by_cases close : octet = frame.closing
  · rw [if_pos close, if_pos close]
    rfl
  rw [if_neg close, if_neg close]
  cases behindValue with
  | true => rfl
  | false => exact openValue_bind _ _ _ _

theorem skipOn_cons_of_blank {rounds : Nat} {frame : Frame} {outer : List Frame}
    {behindValue : Bool} {input : Octets} (same : skipSpace input = []) :
    ∃ fault, skipOn rounds (frame :: outer) behindValue input = .error fault := by
  rw [skipOn, skipClosing, same]
  exact ⟨_, rfl⟩

/-- Behind a value, brackets are closed where no number goes on. -/
theorem ended_of_skipOn {rounds : Nat} {frames : List Frame} {input rest : Octets}
    (skipped : skipOn rounds frames true input = .ok rest) : rest = input ∨ Ended input := by
  cases frames with
  | nil => exact .inl (Except.ok.inj skipped).symm
  | cons frame outer =>
      right
      cases same : skipSpace input with
      | nil =>
          obtain ⟨fault, refused⟩ := skipOn_cons_of_blank same
          cases refused.symm.trans skipped
      | cons octet behind =>
          refine ended_of_skipSpace same ?_
          rw [skipOn_cons_of_skipSpace same, skipAt] at skipped
          by_cases separated : octet = comma
          · subst separated
            decide
          by_cases close : octet = frame.closing
          · subst close
            cases frame <;> decide
          · rw [if_neg (not_and_of_not_right _ separated), if_neg close, if_pos rfl] at skipped
            cases skipped

/-- Behind the quote that opens a name, the name, its colon and its value are passed over. -/
theorem bounded_skipNamed {further : Octets → Except Fault Octets}
    (bounded : Bounded (passing further)) :
    Bounded (passing fun input => skipString input >>= fun behindName =>
      readColon behindName >>= further) := by
  rw [passing_bind]
  refine (bounded_skipStringFrom .plain).bind (fun _ => ?_) fun _ input _ rest skipped => .inr ?_
  · change Bounded (passing fun behindName => readColon behindName >>= further)
    rw [passing_bind]
    exact closed_readColon.bind fun _ => bounded
  · obtain ⟨behindColon, colon, -⟩ := bind_eq_ok_iff.mp (passing_eq_ok_iff.mp skipped)
    exact ended_of_readColon colon

theorem skipName_of_skipSpace {input rest : Octets} {octet : UInt8}
    (same : skipSpace input = octet :: rest) : skipName input =
      if octet = quoteMark then skipString rest >>= readColon
      else .error (Breach.keyNotString.within (octet :: rest)) := by
  rw [skipName, same]

theorem bounded_skipName {further : Octets → Except Fault Octets}
    (bounded : Bounded (passing further)) :
    Bounded (passing fun input => skipName input >>= further) := by
  refine bounded_behindSpace
    (fun octet => passing fun rest =>
      if octet = quoteMark then
        skipString rest >>= fun behindName => readColon behindName >>= further
      else .error (Breach.keyNotString.within (octet :: rest)))
    (fun octet => ?_) (fun input same => ?_) (fun input octet rest same => ?_)
  · by_cases quote : octet = quoteMark
    · simp only [if_pos quote]
      exact bounded_skipNamed bounded
    · simp only [if_neg quote]
      exact bounded_refusing _
  · refine ⟨Breach.endInObject.within [], ?_⟩
    rw [passing, skipName, same]
    rfl
  · rw [passing, passing, skipName_of_skipSpace same]
    by_cases quote : octet = quoteMark
    · rw [if_pos quote, if_pos quote, bind_assoc]
    · rw [if_neg quote, if_neg quote]
      rfl

theorem bounded_skipMember {rounds : Nat} {frames : List Frame}
    (bounded : Bounded (passing (skipValues rounds frames))) (frame : Frame) :
    Bounded (passing (skipMember rounds frames frame)) := by
  cases frame with
  | list => exact bounded
  | object => exact bounded_skipName bounded

theorem skipMember_nil {rounds : Nat} {frames : List Frame} {frame : Frame} (rest : Octets) :
    skipMember rounds frames frame [] ≠ .ok rest := by
  cases frame <;> cases rounds <;> exact nofun

theorem bounded_skipOn {rounds : Nat}
    (bounded : ∀ frames, Bounded (passing (skipValues rounds frames))) (frames : List Frame)
    (behindValue : Bool) : Bounded (passing (skipOn rounds frames behindValue)) := by
  induction frames generalizing behindValue with
  | nil => exact bounded_passing_rest
  | cons frame outer ih =>
      have member := bounded_skipMember (bounded (frame :: outer)) frame
      refine bounded_behindSpace
        (fun octet => passing (skipAt rounds frame outer behindValue octet))
        (fun octet => ?_) (fun input same => ?_) (fun input octet rest same => ?_)
      · unfold skipAt
        by_cases separated : behindValue ∧ octet = comma
        · simp only [if_pos separated]
          exact member
        by_cases close : octet = frame.closing
        · simp only [if_neg separated, if_pos close]
          exact ih true
        simp only [if_neg separated, if_neg close]
        cases behindValue with
        | true => exact bounded_refusing _
        | false =>
            exact member.cons (fun _ skipped => skipMember_nil [] (passing_eq_ok_iff.mp skipped))
              octet
      · obtain ⟨fault, refused⟩ := skipOn_cons_of_blank same
        exact ⟨fault, by rw [passing, refused]; rfl⟩
      · rw [passing, skipOn_cons_of_skipSpace same]
        rfl

/-- What is done at the first octet of a value. -/
theorem bounded_skipStart {rounds : Nat}
    (bounded : ∀ frames, Bounded (passing (skipValues rounds frames))) (frames : List Frame)
    (octet : UInt8) :
    Bounded (passing fun rest => skipStart frames octet rest >>= skipFurther rounds) := by
  rcases skipStart_cases octet with ⟨-, opens⟩ | ⟨-, opens⟩ | ⟨skip, boundedSkip, goesOn⟩
  · simp only [opens]
    exact bounded_skipOn bounded (.list :: frames) false
  · simp only [opens]
    exact bounded_skipOn bounded (.object :: frames) false
  · simp only [goesOn, bind_assoc]
    rw [passing_bind]
    exact boundedSkip.bind (fun _ => bounded_skipOn bounded frames true)
      fun _ _ _ _ skipped => ended_of_skipOn (passing_eq_ok_iff.mp skipped)

theorem skipValues_of_skipSpace {rounds : Nat} {frames : List Frame} {input rest : Octets}
    {octet : UInt8} (same : skipSpace input = octet :: rest) :
    skipValues (rounds + 1) frames input =
      skipStart frames octet rest >>= skipFurther rounds := by
  rw [skipValues, startValue, same]
  simp only [bind, Except.bind]
  cases skipStart frames octet rest with
  | error fault => rfl
  | ok step => cases step <;> rfl

/-- **Values are passed over wherever they stand,** in so many rounds. -/
theorem bounded_skipValues (rounds : Nat) (frames : List Frame) :
    Bounded (passing (skipValues rounds frames)) := by
  induction rounds generalizing frames with
  | zero => exact bounded_refusing _
  | succ rounds ih =>
      refine bounded_behindSpace _ (bounded_skipStart ih frames) (fun input same => ?_)
        (fun input octet rest same => ?_)
      · refine ⟨Breach.endInValue.within [], ?_⟩
        rw [passing, skipValues, startValue, same]
        rfl
      · rw [passing, skipValues_of_skipSpace same]
        rfl

/-! ## Rounds -/

theorem Bounded.length_le {skip : Octets → Except Fault Octets} (bounded : Bounded (passing skip))
    {input rest : Octets} (skipped : skip input = .ok rest) : rest.length ≤ input.length := by
  obtain ⟨taken, rfl, -⟩ := bounded (passing_eq_ok_iff.mpr skipped)
  rw [List.length_append]
  omega

theorem length_le_of_openValue {frames further : List Frame} {frame : Frame}
    {input start : Octets} (opened : openValue frames frame input = .ok (.value further start)) :
    start.length ≤ input.length := by
  cases frame with
  | list =>
      obtain ⟨-, rfl⟩ := SkipStep.value.inj (Except.ok.inj opened)
      exact Nat.le_refl _
  | object =>
      obtain ⟨rest, skipped, same⟩ := map_eq_ok_iff.mp opened
      obtain ⟨-, rfl⟩ := SkipStep.value.inj same
      exact (bounded_skipName bounded_passing_rest).length_le
        (bind_eq_ok_iff.mpr ⟨rest, skipped, rfl⟩)

/-- Where a value has to follow, no more is left than there was. -/
theorem length_le_of_skipClosing {frames further : List Frame} {behindValue : Bool}
    {input start : Octets}
    (skipped : skipClosing frames behindValue input = .ok (.value further start)) :
    start.length ≤ input.length := by
  induction frames generalizing behindValue input with
  | nil => cases skipped
  | cons frame outer ih =>
      cases same : skipSpace input with
      | nil =>
          rw [skipClosing, same] at skipped
          cases skipped
      | cons octet behind =>
          have space := length_skipSpace_le input
          rw [same, List.length_cons] at space
          rw [skipClosing_cons same] at skipped
          split_ifs at skipped with separated close
          · exact (length_le_of_openValue skipped).trans (Nat.le_of_succ_le space)
          · exact (ih skipped).trans (Nat.le_of_succ_le space)
          · exact (length_le_of_openValue skipped).trans space

theorem length_le_of_skipStart {frames further : List Frame} {octet : UInt8}
    {rest start : Octets} (skipped : skipStart frames octet rest = .ok (.value further start)) :
    start.length ≤ rest.length := by
  rcases skipStart_cases octet with ⟨-, opens⟩ | ⟨-, opens⟩ | ⟨skip, bounded, goesOn⟩
  · exact length_le_of_skipClosing (opens frames rest ▸ skipped)
  · exact length_le_of_skipClosing (opens frames rest ▸ skipped)
  · rw [goesOn] at skipped
    obtain ⟨behind, first, closed⟩ := bind_eq_ok_iff.mp skipped
    exact (length_le_of_skipClosing closed).trans (bounded.length_le first)

/-- **More rounds than octets are enough.** -/
theorem skipValues_of_length_lt {rounds enough : Nat} {frames : List Frame} {input rest : Octets}
    (skipped : skipValues rounds frames input = .ok rest) (more : input.length < enough) :
    skipValues enough frames input = .ok rest := by
  induction rounds generalizing enough frames input with
  | zero => cases skipped
  | succ rounds ih =>
      obtain ⟨enough, rfl⟩ := Nat.exists_eq_succ_of_ne_zero (Nat.ne_zero_of_lt more)
      cases same : skipSpace input with
      | nil =>
          rw [skipValues, startValue, same] at skipped
          cases skipped
      | cons octet behind =>
          rw [skipValues_of_skipSpace same] at skipped ⊢
          obtain ⟨step, started, further⟩ := bind_eq_ok_iff.mp skipped
          refine bind_eq_ok_iff.mpr ⟨step, started, ?_⟩
          cases step with
          | finished => exact further
          | value frames start =>
              have shorter := length_le_of_skipStart started
              have space := length_skipSpace_le input
              rw [same, List.length_cons] at space
              exact ih further (by omega)

/-- **A value is passed over in the same way wherever it stands,** if no number goes on behind
it. -/
theorem bounded_skipValue : Bounded (passing skipValue) := by
  intro input value rest skipped
  obtain ⟨taken, whole, again⟩ := bounded_skipValues _ [] skipped
  refine ⟨taken, whole, fun further ended => passing_eq_ok_iff.mpr ?_⟩
  exact skipValues_of_length_lt (passing_eq_ok_iff.mp (again further ended)) (Nat.lt_succ_self _)

end DownloadCache.Json
