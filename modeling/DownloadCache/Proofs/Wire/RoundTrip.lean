import DownloadCache.Machine
import DownloadCache.Proofs.Json.Record
import DownloadCache.Proofs.Wire.Lines

/-!
# Commands and responses over the wire

Whatever is sent over a socket arrives as it was: a command that a client writes is the command
that the server reads (`Command.read_write`), and a response that the server writes is the response
that the client reads (`Response.read_write`).  What is written is one object in one line, so the
line feed behind it is the only one, and nothing but that line feed is trimmed.

The proofs go by the kinds of records.  For each, the values of its members are spelled out once;
what they stand for is then computed.
-/

namespace DownloadCache

set_option autoImplicit false

open Text.Utf8 Json

/-! ## Counts -/

namespace Json

/-- Every word is a count of 64 bits. -/
theorem Number.count?_word (expected : String) (value : UInt64) :
    (Number.count value).count? expected 0xffffffffffffffff = .ok value := by
  have bound : value ≤ 0xffffffffffffffff :=
    UInt64.le_iff_toNat_le.mpr (Nat.le_of_lt_succ value.toNat_lt)
  rw [Number.count?, if_pos bound]

theorem Form.word_ofValue (value : UInt64) :
    Form.word.ofValue (.number (.count value)) = .ok value :=
  Number.count?_word "u64" value

theorem Form.tally_ofValue (value : UInt64) :
    Form.tally.ofValue (.number (.count value)) = .ok value :=
  Number.count?_word "usize" value

theorem Form.halfWord_ofValue (value : UInt32) :
    Form.halfWord.ofValue (.number (.count value.toUInt64)) = .ok value := by
  have bound : value.toUInt64 ≤ 0xffffffff := by
    rw [UInt64.le_iff_toNat_le, UInt32.toNat_toUInt64]
    exact Nat.le_of_lt_succ value.toNat_lt
  change (Number.count? "u32" 0xffffffff (.count value.toUInt64)).map UInt64.toUInt32 = _
  rw [Number.count?, if_pos bound, Except.map, UInt32.toUInt32_toUInt64]

end Json

/-! ## Validators -/

/-- The value that validators are written as. -/
def Validators.value (validators : Validators) : Value :=
  .object ((validators.etag.map fun etag => ("etag", .text etag)).toList ++
    (validators.lastModified.map fun time => ("lastModified", .text time)).toList)

theorem Validators.spells_write {room : Nat} (validators : Validators) :
    Spells (room + 1) validators.write validators.value := by
  refine spells_writeObject ?_
  obtain ⟨_ | etag, _ | time⟩ := validators
  · exact .nil
  · exact .cons ((spells_writeString room time).member _) .nil
  · exact .cons ((spells_writeString room etag).member _) .nil
  · exact .cons ((spells_writeString room etag).member _)
      (.cons ((spells_writeString room time).member _) .nil)

/-- Validators are what the value stands for that they are written as. -/
theorem Validators.ofValue_value (validators : Validators) :
    Validators.form.ofValue validators.value = .ok validators := by
  obtain ⟨_ | etag, _ | time⟩ := validators <;> rfl

theorem Validators.inline_write (validators : Validators) : Inline validators.write := by
  refine inline_writeObject ?_
  obtain ⟨_ | etag, _ | time⟩ := validators <;>
    simp [Validators.members, inline_writeString]

/-! ## Commands -/

namespace Wire

theorem Command.inline_write (command : Command) : Inline command.write := by
  refine inline_writeObject ?_
  cases command <;>
    simp [Command.members, inline_writeString, inline_writeCount, Validators.inline_write]

/-- A command with one text is read as what it was. -/
theorem Command.read_text {tag label name : String} {meaning : String → Command}
    (kind : Command.variants.find? (fun variant => variant.name == tag) =
      some (.record tag label (.cons (textMember name) .nil) fun (value, ()) => meaning value))
    (untagged : name ≠ tagName) (text : String) :
    Command.read (encode (writeObject
      [("type", writeString tag), (name, writeString text)])) = .ok (meaning text) := by
  refine readWholeTagged_writeObject _ kind (.cons ((spells_writeString _ text).member _) .nil)
    (by simpa using untagged) ?_
  simp [Variant.record, Members.ofValue, Members.putAll, Members.put, Members.blank,
    Members.complete, Member.required, textMember, Form.text, bind, Except.bind, Except.map]

/-- **A command that is written is read as what it was.** -/
theorem Command.read_write (command : Command) :
    Command.read (encode command.write) = .ok command := by
  cases command with
  | add key staging size validators =>
      refine readWholeTagged_writeObject _ rfl
        (.cons ((spells_writeString _ key).member _)
          (.cons ((spells_writeString _ staging).member _)
            (.cons ((spells_writeCount _ size).member _)
              (.cons (validators.spells_write.member _) .nil)))) (by simp [tagName]) ?_
      simp [Variant.record, Members.ofValue, Members.putAll, Members.put, Members.blank,
        Members.complete, Member.required, Member.withDefault, textMember, Form.text,
        Form.word_ofValue, Validators.ofValue_value, bind, Except.bind, Except.map]
  | locate key | touch key | remove key | removeUntracked key | validatorsOf key =>
      exact Command.read_text rfl (by decide) key
  | sweep | status => exact readWholeTagged_writeObject _ rfl .nil nofun rfl

/-! ## Responses -/

theorem Response.inline_write (response : Response) : Inline response.write := by
  refine inline_writeObject ?_
  cases response <;>
    simp [Response.members, inline_writeString, inline_writeCount, inline_writeSwitch,
      inline_writeOptional, Validators.inline_write]

/-- **A response that is written is read as what it was.** -/
theorem Response.read_write (response : Response) :
    Response.read (encode response.write) = .ok response := by
  have textual (text? : Option String) :=
    spells_writeOptional (spells_writeString (maxDepth - 1)) text?
  cases response with
  | success message =>
      refine readWholeTagged_writeObject _ rfl (.cons ((textual message).member _) .nil)
        (by simp [tagName]) ?_
      cases message <;> rfl
  | failure message =>
      exact readWholeTagged_writeObject _ rfl (.cons ((spells_writeString _ message).member _) .nil)
        (by simp [tagName]) rfl
  | added accepted path =>
      refine readWholeTagged_writeObject _ rfl
        (.cons ((spells_writeSwitch _ accepted).member _) (.cons ((textual path).member _) .nil))
        (by simp [tagName]) ?_
      cases path <;> rfl
  | location path =>
      refine readWholeTagged_writeObject _ rfl (.cons ((textual path).member _) .nil)
        (by simp [tagName]) ?_
      cases path <;> rfl
  | validators known =>
      refine readWholeTagged_writeObject _ rfl
        (.cons ((spells_writeOptional Validators.spells_write known).member _) .nil)
        (by simp [tagName]) ?_
      obtain _ | ⟨_ | etag, _ | time⟩ := known <;> rfl
  | swept tally =>
      refine readWholeTagged_writeObject _ rfl
        (.cons ((spells_writeCount _ tally.removed).member _)
          (.cons ((spells_writeCount _ tally.retained).member _)
            (.cons ((spells_writeCount _ tally.failed).member _) .nil))) (by simp [tagName]) ?_
      simp [Variant.record, Members.ofValue, Members.putAll, Members.put, Members.blank,
        Members.complete, Member.required, Form.tally_ofValue, bind, Except.bind, Except.map]
  | status report =>
      refine readWholeTagged_writeObject _ rfl
        (.cons ((spells_writeCount _ report.version.toUInt64).member _)
          (.cons ((spells_writeSwitch _ report.healthy).member _)
            (.cons ((spells_writeCount _ report.entries).member _)
              (.cons ((spells_writeCount _ report.usedBytes).member _)
                (.cons ((spells_writeCount _ report.maxBytes).member _)
                  (.cons ((spells_writeCount _ report.evictions).member _)
                    (.cons ((spells_writeCount _ report.failedRemovals).member _) .nil)))))))
        (by simp [tagName]) ?_
      simp [Variant.record, Members.ofValue, Members.putAll, Members.put, Members.blank,
        Members.complete, Member.required, Form.tally_ofValue, Form.word_ofValue,
        Form.halfWord_ofValue, Form.switch, bind, Except.bind, Except.map]

end Wire

/-! ## Lines -/

/-- Nothing of a written object is trimmed, only the blanks behind it. -/
theorem trim_writeObject (members : List (String × List Char)) {blanks : List Char}
    (blank : ∀ character ∈ blanks, Text.isBlank character = true) :
    Text.trim (writeObject members ++ blanks) = writeObject members := by
  have start : Text.trimStart (writeObject members ++ blanks) = writeObject members ++ blanks :=
    List.dropWhile_cons_of_neg (by decide)
  have behind : (writeObject members ++ blanks).reverse.dropWhile Text.isBlank =
      (writeObject members).reverse := by
    rw [List.reverse_append, List.dropWhile_append_of_pos
      fun character member => blank character (List.mem_reverse.mp member)]
    rw [writeObject, List.reverse_cons, List.reverse_append]
    exact List.dropWhile_cons_of_neg (by decide)
  rw [Text.trim, start, Text.trimEnd, behind, List.reverse_reverse]

/-- The octets of a line are those of its text and a line feed. -/
theorem encode_line (text : List Char) : encode (text ++ ['\n']) = encode text ++ [0x0a] :=
  encode_append text ['\n']

/-- A text in one line is ended by the only line feed of its line. -/
theorem count_encode_line {text : List Char} (inline : Inline text) :
    (encode (text ++ ['\n'])).count 0x0a = 1 ∧
      (encode (text ++ ['\n'])).getLast? = some 0x0a := by
  rw [encode_line, List.count_append, List.count_eq_zero_of_not_mem inline.lineFeed_notMem,
    List.getLast?_append]
  exact ⟨rfl, rfl⟩

/-- **A client takes the response from its line,** whatever follows. -/
theorem Client.response_line (response : Wire.Response) (behind : List UInt8) :
    Client.response (encode response.line ++ behind) = .ok response := by
  have first : Client.firstLine (encode response.line ++ behind) = encode response.line := by
    rw [Wire.Response.line, encode_line, List.append_assoc, List.singleton_append,
      Client.firstLine_append response.inline_write.lineFeed_notMem]
  have some : (encode response.line).isEmpty = false := by
    rw [Wire.Response.line, encode_line, List.isEmpty_eq_false_iff]
    exact List.append_ne_nil_of_right_ne_nil _ (List.cons_ne_nil _ _)
  have trimmed : Text.trim response.line = response.write :=
    trim_writeObject response.members (List.forall_mem_singleton.mpr (by decide))
  rw [Client.response, first]
  simp only [some, decode_encode, trimmed, response.read_write, Bool.false_eq_true, if_false]

/-- The line of a command is the only one that its octets are cut into. -/
theorem Wire.Command.cutLines_line (command : Wire.Command) :
    cutLines (encode (Client.line command)) = [encode command.write] := by
  rw [Client.line, encode_line, cutLines_append command.inline_write.lineFeed_notMem, cutLines]

/-- Nothing of a written command is trimmed. -/
theorem Wire.Command.trim_write (command : Wire.Command) :
    Text.trim command.write = command.write := by
  have trimmed := trim_writeObject command.members (List.forall_mem_nil _)
  rwa [List.append_nil] at trimmed

/-- A written command is answered as it is carried out. -/
theorem Site.answer_write (site : Site) (now : Instant) (command : Wire.Command) :
    site.answer now command.write = site.execute now command := by
  rw [Site.answer, command.read_write]

/-- **The server answers the line of a command** as the command is carried out, and nothing
else. -/
theorem Site.converse_line (site : Site) (clock : Nat → Instant) (command : Wire.Command) :
    site.converse clock (encode (Client.line command)) =
      ([(site.execute (clock 0) command).1], (site.execute (clock 0) command).2) := by
  have some : command.write.isEmpty = false := rfl
  rw [Site.converse, command.cutLines_line]
  simp only [Site.answerLines, decode_encode, command.trim_write, some, Site.answer_write,
    Bool.false_eq_true, if_false]

/-! ## The round trip -/

/-- **Commands and responses arrive as they were sent.**  The octets that a client sends for a
command hold exactly one line feed, at the end; the line, trimmed, is read as the command.  The
octets of a response hold exactly one line feed, at the end; a client that takes the first line
reads the response, whatever comes behind it, and validators that are absent are sent as something
else than validators that are empty.  So a client gets the very answer that the server gives, and
the server is left as the command has left it. -/
theorem arrives_as_sent (command : Wire.Command) (response : Wire.Response) :
    ((encode (Client.line command)).count 0x0a = 1 ∧
      (encode (Client.line command)).getLast? = some 0x0a ∧
      ∃ line text, cutLines (encode (Client.line command)) = [line] ∧ decode line = .ok text ∧
        Wire.Command.read (encode (Text.trim text)) = .ok command) ∧
    ((encode response.line).count 0x0a = 1 ∧
      (encode response.line).getLast? = some 0x0a ∧
      (∀ behind, Client.response (encode response.line ++ behind) = .ok response) ∧
      encode (Wire.Response.validators none).line ≠
        encode (Wire.Response.validators (some {})).line) ∧
    ∀ (socket : Path),
      Client.request socket (.ok (encode response.line)) = .ok response ∧
      ∀ (site : Site) (clock : Nat → Instant),
        let (responses, after) := site.converse clock (encode (Client.line command))
        Client.request socket (.ok (Machine.octetsOf responses)) =
            .ok (site.execute (clock 0) command).1 ∧
          after = (site.execute (clock 0) command).2 := by
  obtain ⟨once, last⟩ := count_encode_line command.inline_write
  obtain ⟨answerOnce, answerLast⟩ := count_encode_line response.inline_write
  have received (response : Wire.Response) :
      Client.response (encode response.line) = .ok response := by
    have received := Client.response_line response []
    rwa [List.append_nil] at received
  refine ⟨⟨once, last, encode command.write, command.write, ?_, decode_encode _, ?_⟩,
    ⟨answerOnce, answerLast, Client.response_line response, fun same => ?_⟩,
    fun socket => ⟨received response, fun site clock => ?_⟩⟩
  · exact command.cutLines_line
  · rw [command.trim_write]
    exact command.read_write
  · have absent := Client.response_line (.validators none) []
    rw [same, Client.response_line] at absent
    cases absent
  · rw [site.converse_line clock command]
    have octets := List.flatMap_singleton
      (fun response : Wire.Response => encode response.line) (site.execute (clock 0) command).1
    exact ⟨(congrArg Client.response octets).trans (received _), rfl⟩

end DownloadCache
