import DownloadCache.Proofs.Cache.Run
import DownloadCache.Proofs.Wire.RoundTrip

/-!
# Sessions

What a connection does to a site and what it answers, without the reading of octets: the lines of
the stream up to the first that is not text, trimmed, are questions unless nothing is left of them
(`questions`).  Each question is answered once, in order, and those that are commands call the
operations of the cache one after the other (`answerLines_eq`).

A line that is blank or no command is idle.  Where idle lines are put into a stream, only their own
answers are added, and the site is left as it would have been (`answerLines_idle`).
-/

namespace DownloadCache

set_option autoImplicit false

open Text.Utf8

/-! ## Questions -/

/-- A line that is to be answered. -/
structure Question where
  /-- The reading of the clock at the line. -/
  now : Instant
  /-- The text of the line without the blanks around it. -/
  text : List Char

/-- The texts of lines up to the first line that is not text. -/
def texts (lines : List (List UInt8)) : List (List Char) :=
  ((lines.map fun line => (decode line).toOption).takeWhile Option.isSome).reduceOption

/-- The lines that are to be answered: those up to the first that is not text, without those that
are blank. -/
def questions (clock : Nat → Instant) (lines : List (List UInt8)) : List Question :=
  ((texts lines).mapIdx fun number text => ⟨clock number, Text.trim text⟩).filter
    fun question => !question.text.isEmpty

/-- The operation of the cache that a command calls, unless it only asks. -/
def Wire.Command.event? (now : Instant) : Wire.Command → Option Event
  | .add key staging size validators => some (.add now key ⟨staging⟩ size validators)
  | .touch key => some (.touch now key)
  | .remove key => some (.removeKey key)
  | .removeUntracked path => some (.removeUntracked ⟨path⟩)
  | .sweep => some .sweep
  | .locate _ | .validatorsOf _ | .status => none

/-- The operations that questions call, those that are no commands being left out. -/
def operations (asked : List Question) : List Event :=
  asked.filterMap fun question =>
    (Wire.Command.read (encode question.text)).toOption.bind (·.event? question.now)

/-- The answer to a question: what its command answers, or that it is none. -/
def Question.answer (question : Question) (site : Site) : Wire.Response :=
  match Wire.Command.read (encode question.text) with
  | .ok command => (site.execute question.now command).1
  | .error cause => .failure s!"Invalid command: {cause.message}"

/-- The answers to questions, each in the state that the questions before it have left. -/
def Site.answers (site : Site) (asked : List Question) : List Wire.Response :=
  asked.mapIdx fun number question => question.answer (site.run (operations (asked.take number)))

theorem texts_cons_ok {line : List UInt8} {text : List Char} (read : decode line = .ok text)
    (rest : List (List UInt8)) : texts (line :: rest) = text :: texts rest := by
  rw [texts, List.map_cons, read]
  rfl

theorem texts_cons_error {line : List UInt8} {defect : Defect}
    (broken : decode line = .error defect) (rest : List (List UInt8)) :
    texts (line :: rest) = [] := by
  rw [texts, List.map_cons, broken]
  rfl

theorem questions_cons_error (clock : Nat → Instant) {line : List UInt8} {defect : Defect}
    (broken : decode line = .error defect) (rest : List (List UInt8)) :
    questions clock (line :: rest) = [] := by
  rw [questions, texts_cons_error broken]
  rfl

theorem questions_cons_ok (clock : Nat → Instant) {line : List UInt8} {text : List Char}
    (read : decode line = .ok text) (rest : List (List UInt8)) :
    questions clock (line :: rest) =
      (if (Text.trim text).isEmpty then [] else [⟨clock 0, Text.trim text⟩]) ++
        questions (fun number => clock (number + 1)) rest := by
  rw [questions, texts_cons_ok read, List.mapIdx_cons, List.filter_cons, questions]
  by_cases blank : (Text.trim text).isEmpty
  · simp only [blank, Bool.not_true, Bool.false_eq_true, if_false, if_true, List.nil_append]
  · simp only [blank, Bool.not_false, Bool.false_eq_true, if_false, if_true, List.singleton_append]

theorem operations_append (first second : List Question) :
    operations (first ++ second) = operations first ++ operations second :=
  List.filterMap_append

theorem operations_cons (question : Question) (rest : List Question) :
    operations (question :: rest) = operations [question] ++ operations rest :=
  operations_append [question] rest

theorem Site.answers_cons (site : Site) (question : Question) (rest : List Question) :
    site.answers (question :: rest) =
      question.answer site :: (site.run (operations [question])).answers rest := by
  have later (number : Nat) : site.run (operations ((question :: rest).take (number + 1))) =
      (site.run (operations [question])).run (operations (rest.take number)) := by
    rw [List.take_succ_cons, operations_cons question (rest.take number), run_append]
  rw [answers, List.mapIdx_cons, answers]
  simp only [later]
  rfl

theorem Site.answers_append (site : Site) (first second : List Question) :
    site.answers (first ++ second) =
      site.answers first ++ (site.run (operations first)).answers second := by
  induction first generalizing site with
  | nil => rfl
  | cons question rest ih =>
      rw [List.cons_append, answers_cons, ih, answers_cons, operations_cons question rest,
        run_append, List.cons_append]

/-- A command leaves the site as the operation does that it calls. -/
theorem Site.execute_snd (site : Site) (now : Instant) (command : Wire.Command) :
    (site.execute now command).2 = site.run (command.event? now).toList := by
  cases command <;> rfl

/-- A question is answered, and what it calls is done. -/
theorem Site.answer_eq (site : Site) (question : Question) :
    site.answer question.now question.text =
      (question.answer site, site.run (operations [question])) := by
  have called : operations [question] =
      ((Wire.Command.read (encode question.text)).toOption.bind
        (·.event? question.now)).toList := by
    rw [operations, List.filterMap_cons, List.filterMap_nil]
    split <;> rename_i called <;> rw [called] <;> rfl
  rw [Site.answer, Question.answer, called]
  cases Wire.Command.read (encode question.text) with
  | error cause => rfl
  | ok command => exact Prod.ext rfl (site.execute_snd question.now command)

/-- **The lines of a connection are answered as questions,** and the site is left as their
operations leave it. -/
theorem Site.answerLines_eq (site : Site) (clock : Nat → Instant) (lines : List (List UInt8)) :
    site.answerLines clock lines =
      (site.answers (questions clock lines), site.run (operations (questions clock lines))) := by
  induction lines generalizing site clock with
  | nil => rfl
  | cons line rest ih =>
      cases read : decode line with
      | error defect =>
          rw [questions_cons_error clock read]
          simp only [answerLines, read]
          rfl
      | ok text =>
          rw [questions_cons_ok clock read]
          simp only [answerLines, read]
          by_cases blank : (Text.trim text).isEmpty
          · simp only [blank, if_true, List.nil_append]
            exact ih site _
          · let question : Question := ⟨clock 0, Text.trim text⟩
            let later := questions (fun number => clock (number + 1)) rest
            have answered : site.answer (clock 0) (Text.trim text) =
                (question.answer site, site.run (operations [question])) := site.answer_eq question
            simp only [blank, Bool.false_eq_true, if_false, List.singleton_append, answered, ih]
            exact Prod.ext (site.answers_cons question later).symm
              (by rw [← run_append, ← operations_cons])

/-! ## Idle lines -/

/-- A line that calls for nothing: it is text, and it is blank or no command. -/
def IsIdle (line : List UInt8) : Prop :=
  ∃ text, decode line = .ok text ∧
    ((Text.trim text).isEmpty ∨
      ∃ cause, Wire.Command.read (encode (Text.trim text)) = .error cause)

/-- The questions of lines depend on the readings of the clock at these lines only. -/
theorem questions_congr {clock other : Nat → Instant} {lines : List (List UInt8)}
    (agree : ∀ number < lines.length, other number = clock number) :
    questions other lines = questions clock lines := by
  induction lines generalizing clock other with
  | nil => rfl
  | cons line rest ih =>
      cases read : decode line with
      | error defect => rw [questions_cons_error _ read, questions_cons_error _ read]
      | ok text =>
          rw [questions_cons_ok _ read, questions_cons_ok _ read, agree 0 (Nat.zero_lt_succ _),
            ih fun number below => agree (number + 1) (Nat.succ_lt_succ below)]

/-- Behind lines that are text, questions go on at the later readings of the clock. -/
theorem questions_append (clock : Nat → Instant) {before : List (List UInt8)}
    (sound : ∀ line ∈ before, ∃ text, decode line = .ok text) (behind : List (List UInt8)) :
    questions clock (before ++ behind) =
      questions clock before ++
        questions (fun number => clock (before.length + number)) behind := by
  induction before generalizing clock with
  | nil => simp only [List.nil_append, List.length_nil, Nat.zero_add]; rfl
  | cons line rest ih =>
      rw [List.forall_mem_cons] at sound
      obtain ⟨⟨text, read⟩, sound⟩ := sound
      rw [List.cons_append, questions_cons_ok _ read, questions_cons_ok _ read, ih _ sound,
        List.append_assoc]
      simp only [List.length_cons, Nat.add_right_comm]

/-- Behind a line that is not text there are no questions. -/
theorem questions_append_of_broken (clock : Nat → Instant) {before : List (List UInt8)}
    (broken : ¬∀ line ∈ before, ∃ text, decode line = .ok text) (behind : List (List UInt8)) :
    questions clock (before ++ behind) = questions clock before := by
  induction before generalizing clock with
  | nil => exact absurd nofun broken
  | cons line rest ih =>
      cases read : decode line with
      | error defect =>
          rw [List.cons_append, questions_cons_error _ read, questions_cons_error _ read]
      | ok text =>
          rw [List.forall_mem_cons, not_and] at broken
          rw [List.cons_append, questions_cons_ok _ read, questions_cons_ok _ read,
            ih _ (broken ⟨text, read⟩)]

/-- The questions of idle lines are no commands. -/
theorem questions_of_idle (clock : Nat → Instant) {lines : List (List UInt8)}
    (idle : ∀ line ∈ lines, IsIdle line) :
    ∀ question ∈ questions clock lines,
      ∃ cause, Wire.Command.read (encode question.text) = .error cause := by
  induction lines generalizing clock with
  | nil => nofun
  | cons line rest ih =>
      rw [List.forall_mem_cons] at idle
      obtain ⟨⟨text, read, blankOrNone⟩, idle⟩ := idle
      rw [questions_cons_ok _ read]
      intro question member
      rcases List.mem_append.mp member with here | later
      · split at here
        · cases here
        · rename_i some
          rw [List.mem_singleton.mp here]
          exact blankOrNone.resolve_left some
      · exact ih _ idle question later

/-- Questions that are no commands call nothing. -/
theorem operations_eq_nil {asked : List Question}
    (none : ∀ question ∈ asked, ∃ cause, Wire.Command.read (encode question.text) = .error cause) :
    operations asked = [] := by
  refine List.filterMap_eq_nil_iff.mpr fun question member => ?_
  obtain ⟨cause, refused⟩ := none question member
  rw [refused]
  rfl

/-- Questions that are no commands are answered by errors. -/
theorem Site.answers_eq_failures (site : Site) {asked : List Question}
    (none : ∀ question ∈ asked, ∃ cause, Wire.Command.read (encode question.text) = .error cause) :
    ∀ response ∈ site.answers asked,
      ∃ cause : Json.Error, response = .failure s!"Invalid command: {cause.message}" := by
  intro response member
  obtain ⟨number, below, rfl⟩ := List.mem_mapIdx.mp member
  obtain ⟨cause, refused⟩ := none _ (List.getElem_mem below)
  exact ⟨cause, by rw [Question.answer, refused]⟩

/-- **Idle lines add answers of their own and nothing else:** the lines before them and behind them
are answered as they were, and the site is left as it was. -/
theorem Site.answerLines_idle (site : Site) {clock longer : Nat → Instant}
    {before idle behind : List (List UInt8)} (idles : ∀ line ∈ idle, IsIdle line)
    (ahead : ∀ number < before.length, longer number = clock number)
    (later : ∀ number, longer (before.length + idle.length + number) =
      clock (before.length + number)) :
    ∃ errors further,
      (∀ response ∈ errors,
        ∃ cause : Json.Error, response = .failure s!"Invalid command: {cause.message}") ∧
      site.answerLines clock (before ++ behind) =
        ((site.answerLines clock before).1 ++ further,
          (site.answerLines clock (before ++ behind)).2) ∧
      site.answerLines longer (before ++ idle ++ behind) =
        ((site.answerLines clock before).1 ++ errors ++ further,
          (site.answerLines clock (before ++ behind)).2) := by
  have start := questions_congr ahead
  simp only [answerLines_eq, List.append_assoc]
  by_cases sound : ∀ line ∈ before, ∃ text, decode line = .ok text
  · let middle : Nat → Instant := fun number => longer (before.length + number)
    have idleSound : ∀ line ∈ idle, ∃ text, decode line = .ok text := fun line member =>
      (idles line member).imp fun _ reading => reading.1
    have refused := questions_of_idle middle idles
    have resumed : (fun number => middle (idle.length + number)) =
        fun number => clock (before.length + number) := by
      funext number
      rw [← later, Nat.add_assoc]
    refine ⟨(site.run (operations (questions clock before))).answers (questions middle idle),
      (site.run (operations (questions clock before))).answers
        (questions (fun number => clock (before.length + number)) behind),
      answers_eq_failures _ refused, ?_, ?_⟩
    · rw [questions_append clock sound, answers_append]
    · rw [questions_append longer sound, questions_append middle idleSound, start, resumed,
        questions_append clock sound]
      simp only [answers_append, operations_append, operations_eq_nil refused, List.nil_append,
        run_nil]
  · refine ⟨[], [], nofun, ?_, ?_⟩
    · rw [questions_append_of_broken clock sound, List.append_nil]
    · rw [questions_append_of_broken longer sound, questions_append_of_broken clock sound, start,
        List.append_nil, List.append_nil]

/-- Nothing is asked behind the last line feed if nothing stands there. -/
theorem questions_append_empty (clock : Nat → Instant) (lines : List (List UInt8)) :
    questions clock (lines ++ [[]]) = questions clock lines := by
  by_cases sound : ∀ line ∈ lines, ∃ text, decode line = .ok text
  · rw [questions_append clock sound]
    exact List.append_nil _
  · exact questions_append_of_broken clock sound _

/-- **A connection is answered piece by piece** between the line feeds of its stream. -/
theorem Site.converse_eq (site : Site) (clock : Nat → Instant) (octets : List UInt8) :
    site.converse clock octets = site.answerLines clock (octets.splitOn 0x0a) := by
  rw [Site.converse]
  rcases splitOn_eq_cutLines octets with same | more
  · rw [same]
  · rw [more, answerLines_eq, answerLines_eq, questions_append_empty]

/-- **The octets of responses are cut into the responses,** each ended by its line feed. -/
theorem splitOn_octetsOf (responses : List Wire.Response) :
    (Machine.octetsOf responses).splitOn 0x0a =
      responses.map (fun response => encode response.write) ++ [[]] := by
  induction responses with
  | nil => rfl
  | cons response rest ih =>
      have octets : Machine.octetsOf (response :: rest) =
          encode response.write ++ 0x0a :: Machine.octetsOf rest := by
        rw [Machine.octetsOf, List.flatMap_cons, Wire.Response.line, encode_line, List.append_assoc]
        rfl
      rw [octets, splitOn_append response.inline_write.lineFeed_notMem, ih]
      rfl

/-! ## Connections -/

/-- **A connection is answered in order, and idle lines disturb nothing.**  The stream is cut at its
line feeds; its questions are the pieces before the first that is not text, trimmed, without those
that are blank.  What the server writes is cut into one response for each question, in order.  A
question that is a command is answered by it in the state that the questions before have left, and
is done; one that is no command is answered by an error and leaves that state as it is.  In the end
the site is what the operations of the commands make of it, called one after the other.

Where idle lines stand within a longer stream, and the clock reads at the other lines what it reads
without them, the other responses and the site in the end are the same; each response that is added
is an error. -/
theorem connection_answered_in_order (site : Site) (clock : Nat → Instant) (octets : List UInt8) :
    let asked := questions clock (octets.splitOn 0x0a)
    let before (number : Nat) := site.run (operations (asked.take number))
    let responses := (site.converse clock octets).1
    let final := (site.converse clock octets).2
    responses = asked.mapIdx (fun number question =>
        match Wire.Command.read (encode question.text) with
        | .ok command => ((before number).execute question.now command).1
        | .error cause => .failure s!"Invalid command: {cause.message}") ∧
      (∀ number (below : number < asked.length),
        before (number + 1) =
          match Wire.Command.read (encode asked[number].text) with
          | .ok command => ((before number).execute asked[number].now command).2
          | .error _ => before number) ∧
      (Machine.octetsOf responses).splitOn 0x0a =
        responses.map (fun response => encode response.write) ++ [[]] ∧
      final = site.run (operations asked) ∧
      ∀ (first idle further : List (List UInt8)) (longer : List UInt8) (later : Nat → Instant),
        octets.splitOn 0x0a = first ++ further →
        longer.splitOn 0x0a = first ++ idle ++ further →
        (∀ line ∈ idle, IsIdle line) →
        (∀ number < first.length, later number = clock number) →
        (∀ number, later (first.length + idle.length + number) = clock (first.length + number)) →
        let place := (questions clock first).length
        ∃ errors,
          (∀ response ∈ errors,
            ∃ cause : Json.Error, response = .failure s!"Invalid command: {cause.message}") ∧
          site.converse later longer =
            (responses.take place ++ errors ++ responses.drop place, final) := by
  intro asked before responses final
  have whole := site.answerLines_eq clock (octets.splitOn 0x0a)
  rw [← site.converse_eq clock octets] at whole
  refine ⟨congrArg Prod.fst whole, fun number below => ?_, splitOn_octetsOf responses,
    congrArg Prod.snd whole, ?_⟩
  · have next : before (number + 1) = (before number).run (operations [asked[number]]) := by
      rw [← Site.run_append, ← operations_append, List.take_append_getElem]
    have called : ((before number).answer asked[number].now asked[number].text).2 =
        (before number).run (operations [asked[number]]) :=
      congrArg Prod.snd ((before number).answer_eq asked[number])
    rw [next, ← called, Site.answer]
    cases Wire.Command.read (encode asked[number].text) <;> rfl
  · intro first idle further longer later cut longerCut idles ahead behind place
    obtain ⟨errors, rest, failures, without, within⟩ :=
      site.answerLines_idle idles ahead behind
    rw [← cut, ← site.converse_eq clock octets] at without within
    have place_eq : place = (site.answerLines clock first).1.length := by
      rw [site.answerLines_eq clock first]
      exact List.length_mapIdx.symm
    have split : responses = (site.answerLines clock first).1 ++ rest := congrArg Prod.fst without
    refine ⟨errors, failures, ?_⟩
    rw [site.converse_eq later longer, longerCut, within, split, place_eq, List.take_left,
      List.drop_left]

/-- A blank line and a line that is no command stand between a request and its end: the answer to
the request is followed by one error, and nothing has happened to the site. -/
theorem connection_answered_in_order_around_idle_lines :
    let disk := FileSystem.empty.create ["c"] .directory
    let site := Site.mk ⟨⟨"/c"⟩, 2, false, {}⟩ disk
    let request := encode (Wire.Command.touch "a").write
    let octets := request ++ [0x0a]
    let longer := request ++ [0x0a, 0x20, 0x0a, 0x3f, 0x0a]
    octets.splitOn 0x0a = [request] ++ [[]] ∧
      longer.splitOn 0x0a = [request] ++ [[0x20], [0x3f]] ++ [[]] ∧
      (∀ line ∈ [[0x20], [0x3f]], IsIdle line) ∧
      ∃ errors,
        site.converse (fun _ => 7) longer =
          ([.success none] ++ errors ++ [], site.touch 7 "a") := by
  intro disk site request octets longer
  have cut : octets.splitOn 0x0a = [request] ++ [[]] := by decide +kernel
  have longerCut : longer.splitOn 0x0a = [request] ++ [[0x20], [0x3f]] ++ [[]] := by
    decide +kernel
  have idles : ∀ line ∈ [[0x20], [0x3f]], IsIdle line := by
    intro line member
    simp only [List.mem_cons, List.not_mem_nil, or_false] at member
    rcases member with rfl | rfl
    · exact ⟨[' '], rfl, .inl rfl⟩
    · exact ⟨['?'], rfl, .inr ⟨_, rfl⟩⟩
  have answered : site.converse (fun _ => 7) octets = ([.success none], site.touch 7 "a") := by
    decide +kernel
  obtain ⟨-, -, -, -, insertion⟩ := connection_answered_in_order site (fun _ => 7) octets
  obtain ⟨errors, -, within⟩ := insertion [request] [[0x20], [0x3f]] [[]] longer (fun _ => 7) cut
    longerCut idles (fun _ _ => rfl) (fun _ => rfl)
  rw [answered] at within
  exact ⟨cut, longerCut, idles, errors, within⟩

end DownloadCache
