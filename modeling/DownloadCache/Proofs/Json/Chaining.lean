import DownloadCache.Proofs.Attempt
import DownloadCache.Proofs.Json.Layout

/-!
# Bounded readers one after the other

A reader that goes on behind another one as a third does is bounded if both are, as long as the
third is never content with octets with which a number could go on (`Bounded.bind`).  A bracket, a
colon or a comma is taken whatever follows it (`Closed`), so any bounded reader may go on behind one
(`Closed.bind`), and behind white space whatever goes on at each octet (`bounded_behindSpace`).

A reader that gives back only the rest passes over what it takes (`passing`).  The forms of texts,
switches and counts read bounded values (`bounded_readText`, `bounded_readSwitch`,
`bounded_readCount`).
-/

namespace DownloadCache.Json

set_option autoImplicit false

variable {α β : Type}

/-! ## Closed readers -/

/-- Whether a reader takes octets off the front and sees nothing of what follows them. -/
def Closed (reader : Octets → Except Fault (α × Octets)) : Prop :=
  ∀ ⦃input value rest⦄, reader input = .ok (value, rest) →
    ∃ taken, input = taken ++ rest ∧ ∀ further, reader (taken ++ further) = .ok (value, further)

/-- Behind a closed reader any bounded reader may go on. -/
theorem Closed.bind {reader : Octets → Except Fault (α × Octets)}
    {next : α × Octets → Except Fault (β × Octets)} (closed : Closed reader)
    (bounded : ∀ value, Bounded fun rest => next (value, rest)) :
    Bounded fun input => reader input >>= next := by
  intro input result rest read
  obtain ⟨⟨value, between⟩, first, second⟩ := bind_eq_ok_iff.mp read
  obtain ⟨taken, rfl, again⟩ := closed first
  obtain ⟨takenBehind, rfl, againBehind⟩ := bounded value second
  refine ⟨taken ++ takenBehind, (List.append_assoc ..).symm, fun further ended => ?_⟩
  rw [List.append_assoc, bind_eq_ok_iff]
  exact ⟨_, again _, againBehind further ended⟩

/-- **Readers one after the other are bounded if each is,** and if the second one takes nothing
wherever a number could go on. -/
theorem Bounded.bind {reader : Octets → Except Fault (α × Octets)}
    {next : α × Octets → Except Fault (β × Octets)} (bounded : Bounded reader)
    (boundedBehind : ∀ value, Bounded fun rest => next (value, rest))
    (parted : ∀ ⦃value input result rest⦄, next (value, input) = .ok (result, rest) →
      rest = input ∨ Ended input) :
    Bounded fun input => reader input >>= next := by
  intro input result rest read
  obtain ⟨⟨value, between⟩, first, second⟩ := bind_eq_ok_iff.mp read
  obtain ⟨taken, rfl, again⟩ := bounded first
  obtain ⟨takenBehind, rfl, againBehind⟩ := boundedBehind value second
  refine ⟨taken ++ takenBehind, (List.append_assoc ..).symm, fun further ended => ?_⟩
  have endedBehind : Ended (takenBehind ++ further) := by
    cases takenBehind with
    | nil => exact ended
    | cons octet others =>
        rcases parted second with same | endedBetween
        · have length := congrArg List.length same
          rw [List.length_append, List.length_cons] at length
          omega
        · exact ended_cons.mpr (ended_cons.mp endedBetween)
  rw [List.append_assoc, bind_eq_ok_iff]
  exact ⟨_, again _ endedBehind, againBehind further ended⟩

/-- What a bounded reader takes is read in the same way by itself. -/
theorem Bounded.reads_alone {reader : Octets → Except Fault (α × Octets)} (bounded : Bounded reader)
    {input rest : Octets} {value : α} (read : reader input = .ok (value, rest)) :
    ∃ taken, input = taken ++ rest ∧ reader taken = .ok (value, []) := by
  obtain ⟨taken, whole, again⟩ := bounded read
  have alone := again [] ended_nil
  rw [List.append_nil] at alone
  exact ⟨taken, whole, alone⟩

/-- What a bounded reader reads by itself is read wherever no number goes on behind it. -/
theorem Bounded.reads_on {reader : Octets → Except Fault (α × Octets)} (bounded : Bounded reader)
    {octets rest : Octets} {value : α} (read : reader octets = .ok (value, []))
    (ended : Ended rest) : reader (octets ++ rest) = .ok (value, rest) := by
  obtain ⟨taken, whole, again⟩ := bounded read
  rw [List.append_nil] at whole
  exact whole ▸ again rest ended

/-! ## White space -/

theorem exists_eq_skipSpace (input : Octets) :
    ∃ blank, Blank blank ∧ input = blank ++ skipSpace input :=
  ⟨input.takeWhile isSpace, fun _ member => List.mem_takeWhile_imp member,
    List.takeWhile_append_dropWhile.symm⟩

/-- What starts behind white space is no white space. -/
theorem isSpace_of_skipSpace {input rest : Octets} {octet : UInt8}
    (same : skipSpace input = octet :: rest) : isSpace octet = false := by
  have first := List.head?_dropWhile_not isSpace input
  rw [skipSpace] at same
  rwa [same] at first

theorem skipSpace_cons {octet : UInt8} (visible : isSpace octet = false)
    (rest : Octets) : skipSpace (octet :: rest) = octet :: rest :=
  List.dropWhile_cons_of_neg (by rw [visible]; decide)

theorem length_skipSpace_le (input : Octets) : (skipSpace input).length ≤ input.length :=
  List.length_dropWhile_le ..

theorem readEnd_eq_ok_iff {rest : Octets} : readEnd rest = .ok () ↔ Blank rest := by
  rw [blank_skipSpace_iff, readEnd]
  cases skipSpace rest with
  | nil => exact ⟨fun _ => rfl, fun _ => rfl⟩
  | cons octet rest => exact ⟨nofun, nofun⟩

/-- A reader is bounded if, behind white space, it goes on at each octet as a bounded reader. -/
theorem bounded_behindSpace {reader : Octets → Except Fault (α × Octets)}
    (later : UInt8 → Octets → Except Fault (α × Octets)) (bounded : ∀ octet, Bounded (later octet))
    (nil : ∀ input, skipSpace input = [] → ∃ fault, reader input = .error fault)
    (step : ∀ input octet rest, skipSpace input = octet :: rest →
      reader input = later octet rest) : Bounded reader := by
  intro input value rest read
  obtain ⟨blank, isBlank, whole⟩ := exists_eq_skipSpace input
  cases same : skipSpace input with
  | nil =>
      obtain ⟨fault, refused⟩ := nil input same
      cases refused.symm.trans read
  | cons octet behind =>
      rw [step input octet behind same] at read
      obtain ⟨taken, rfl, again⟩ := bounded octet read
      refine ⟨blank ++ octet :: taken, ?_, fun further ended => ?_⟩
      · rw [whole, same, List.append_assoc, List.cons_append]
      · rw [List.append_assoc, List.cons_append, step _ octet (taken ++ further)]
        · exact again further ended
        · rw [skipSpace_append isBlank, skipSpace_cons (isSpace_of_skipSpace same)]

/-! ## Passing over octets -/

/-- The reader that passes over octets. -/
def passing (skip : Octets → Except Fault Octets) : Octets → Except Fault (Unit × Octets) :=
  fun input => (skip input).map fun rest => ((), rest)

theorem passing_eq_ok_iff {skip : Octets → Except Fault Octets} {input rest : Octets} :
    passing skip input = .ok ((), rest) ↔ skip input = .ok rest := by
  rw [passing, map_eq_ok_iff]
  constructor
  · rintro ⟨_, skipped, same⟩
    exact skipped.trans (congrArg Except.ok (Prod.mk.inj same).2)
  · exact fun skipped => ⟨rest, skipped, rfl⟩

/-- Passing over octets and then over others. -/
theorem passing_bind {skip further : Octets → Except Fault Octets} :
    (passing fun input => skip input >>= further) =
      fun input => passing skip input >>= fun (_, rest) => passing further rest := by
  funext input
  rw [passing, passing]
  cases skip input <;> rfl

theorem bounded_refusing (fault : Octets → Fault) :
    Bounded (passing fun input => .error (fault input)) :=
  nofun

theorem bounded_passing_rest : Bounded (passing .ok) :=
  bounded_ok ()

/-! ## Colons and brackets -/

theorem ended_of_skipSpace {input rest : Octets} {octet : UInt8}
    (same : skipSpace input = octet :: rest)
    (mark : isDigit octet = false ∧ octet ≠ 0x2e ∧ isExponentMark octet = false) :
    Ended input := by
  cases input with
  | nil => exact ended_nil
  | cons first others =>
      by_cases space : isSpace first = true
      · exact ended_of_isSpace space others
      · rw [Bool.not_eq_true] at space
        rw [skipSpace_cons space] at same
        obtain ⟨rfl, -⟩ := List.cons.inj same
        exact ended_cons.mpr mark

theorem readColon_eq_ok_iff {input rest : Octets} :
    readColon input = .ok rest ↔ skipSpace input = colon :: rest := by
  rw [readColon]
  split
  · rename_i none
    rw [none]
    exact ⟨nofun, nofun⟩
  · rename_i octet behind same
    rw [same]
    by_cases found : octet = colon
    · rw [if_pos found, Except.ok.injEq, List.cons.injEq, found]
      exact ⟨fun rest => ⟨rfl, rest⟩, And.right⟩
    · rw [if_neg found, List.cons.injEq]
      exact ⟨nofun, fun ⟨colon, _⟩ => absurd colon found⟩

/-- A colon is taken whatever follows it. -/
theorem closed_readColon : Closed (passing readColon) := by
  intro input value rest read
  have same := readColon_eq_ok_iff.mp (passing_eq_ok_iff.mp read)
  obtain ⟨blank, isBlank, whole⟩ := exists_eq_skipSpace input
  refine ⟨blank ++ [colon], ?_, fun further => ?_⟩
  · rw [whole, same, List.append_assoc, List.singleton_append]
  · rw [passing_eq_ok_iff, readColon_eq_ok_iff, List.append_assoc, skipSpace_append isBlank,
      List.singleton_append]
    exact skipSpace_cons rfl further

theorem ended_of_readColon {input rest : Octets} (read : readColon input = .ok rest) :
    Ended input :=
  ended_of_skipSpace (readColon_eq_ok_iff.mp read) (by decide)

/-! ## Forms -/

theorem startValue_of_skipSpace {input rest : Octets} {octet : UInt8}
    (same : skipSpace input = octet :: rest) : startValue input = .ok (octet, rest) := by
  rw [startValue, same]

theorem startValue_of_blank {input : Octets} (same : skipSpace input = []) :
    startValue input = .error (Breach.endInValue.within []) := by
  rw [startValue, same]

/-- A value without brackets is read from its first octet, in whatever room there is. -/
theorem readValue_of_scalar (room : Nat) {input rest : Octets} {octet : UInt8}
    {scalar : Except Fault (Value × Octets)} (same : skipSpace input = octet :: rest)
    (read : readScalar? octet rest = some scalar) : readValue room input = scalar := by
  cases room with
  | zero | succ room =>
      rw [readValue, readValueWith, startValue_of_skipSpace same]
      simp only [bind, Except.bind, read]

/-- A reader of a value is bounded if it goes on as a bounded reader at each octet that the value
may start with. -/
theorem bounded_startValue {next : UInt8 × Octets → Except Fault (α × Octets)}
    (bounded : ∀ octet, Bounded fun rest => next (octet, rest)) :
    Bounded fun input => startValue input >>= next := by
  refine bounded_behindSpace (fun octet rest => next (octet, rest)) bounded (fun input same => ?_)
    (fun input octet rest same => ?_)
  · rw [startValue_of_blank same]
    exact ⟨_, rfl⟩
  · rw [startValue_of_skipSpace same]
    rfl

theorem bounded_readText (expected : String) : Bounded (Form.text expected).read := by
  refine bounded_startValue fun octet => ?_
  by_cases quote : octet = quoteMark
  · simp only [if_pos quote]
    exact bounded_readStringFrom .plain []
  · simp only [if_neg quote]
    exact bounded_error _

theorem bounded_readSwitch : Bounded Form.switch.read := by
  refine bounded_startValue fun octet => ?_
  by_cases isTrue : octet = trueMark
  · simp only [if_pos isTrue]
    exact bounded_readIdent trueTail true
  by_cases isFalse : octet = falseMark
  · simp only [if_neg isTrue, if_pos isFalse]
    exact bounded_readIdent falseTail false
  · simp only [if_neg isTrue, if_neg isFalse]
    exact bounded_error _

theorem bounded_readCount (expected : String) (limit : UInt64) :
    Bounded (Form.count expected limit).read := by
  refine bounded_startValue fun octet => ?_
  by_cases number : startsNumber octet = true
  · simp only [if_pos number]
    refine (bounded_readNumber octet).bind (fun found => ?_) fun found input value rest read => ?_
    · cases counted : found.count? expected limit with
      | ok value => simpa only [counted] using bounded_ok value
      | error mismatch => simpa only [counted] using bounded_error mismatch.before
    · left
      dsimp only at read
      split at read
      · exact (Prod.mk.inj (Except.ok.inj read)).2.symm
      · cases read
  · simp only [if_neg number]
    exact bounded_error _

end DownloadCache.Json
