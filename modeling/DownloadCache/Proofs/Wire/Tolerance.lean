import DownloadCache.Proofs.Json.Coverage
import DownloadCache.Proofs.Wire.RoundTrip

/-!
# Commands in any arrangement

A command is read from an object whatever the order of its members, whatever the white space, and
whatever members there are besides (`Command.read_rearranged`).  The tag need not come first: all
other members are kept until the text has been read.  Members are told apart by their names, so no
name may be repeated, and a further member has to be none that the command could have meant.

All kinds of commands are tolerant in this way (`Command.tolerant_of_mem_variants`): those with
fields, because the values of distinct names can be put into a record in any order, and those
without, because they look at no member at all.
-/

namespace DownloadCache

set_option autoImplicit false

open Json

/-! ## Texts as they are written -/

namespace Json

/-- A text where it stands as a name. -/
def Name.ofText (text : String) : Name where
  others := bodyOctets text
  text := text
  reads := by
    have closed := readString_body text []
    rwa [List.append_nil] at closed

/-- A text where it stands as a value. -/
def Term.ofText (text : String) : Term :=
  .scalar
    { first := quoteMark
      others := bodyOctets text
      value := .text text
      reads := by
        have closed := (Name.ofText text).reads
        rw [readScalar?_quoteMark]
        exact congrArg (fun result => some (Except.map _ result)) closed }

end Json

namespace Wire

/-! ## Fields -/

/-- The names of the members that a command may have, its tag among them. -/
def Command.fields (command : Command) : List String :=
  command.members.map Prod.fst

theorem Command.tolerant_textVariant {name label text : String} {meaning : String → Command}
    (field : ∀ value, text ∈ (meaning value).fields) :
    (Command.textVariant name label text meaning).Tolerant Command.fields :=
  Variant.tolerant_record _ _ _ _ fun (value, ()) =>
    List.cons_subset.mpr ⟨field value, List.nil_subset _⟩

/-- **Every kind of command passes over the order of its members, and over members that are no
fields of it.** -/
theorem Command.tolerant_of_mem_variants :
    ∀ variant ∈ Command.variants, variant.Tolerant Command.fields := by
  simp only [Command.variants, List.forall_mem_cons]
  -- Behind the tag, a command lists the fields of its kind in order.
  exact ⟨Variant.tolerant_record _ _ _ _ fun (_, _, _, _, ()) => List.subset_cons_self _ _,
    Command.tolerant_textVariant fun _ => List.mem_cons_of_mem _ List.mem_cons_self,
    Command.tolerant_textVariant fun _ => List.mem_cons_of_mem _ List.mem_cons_self,
    Command.tolerant_textVariant fun _ => List.mem_cons_of_mem _ List.mem_cons_self,
    Command.tolerant_textVariant fun _ => List.mem_cons_of_mem _ List.mem_cons_self,
    Command.tolerant_textVariant fun _ => List.mem_cons_of_mem _ List.mem_cons_self,
    Variant.tolerant_bare _ _ _, Variant.tolerant_bare _ _ _, nofun⟩

/-! ## Rearranging -/

/-- Whether a member may be added to an object that is read as a command: its name is not among
those of the members, it is no field of the command, and its value is read within an object. -/
structure Command.Addable (command : Command) (bindings : List Binding) (binding : Binding) :
    Prop where
  fresh : binding.name ∉ bindings.map Binding.name
  foreign : binding.name ∉ command.fields
  readable : ∃ octets value, Laid binding.2.tokens octets ∧ readWhole readContent octets = .ok value

/-- **A command is read from every arrangement of its object.**  A text that starts with a brace and
is read as a command is laid out from an object.  If no two members have one name, every object with
these members in any order, and with further ones that may be added, is read as the same command, in
whatever way it is laid out. -/
theorem Command.read_rearranged {text : Octets} {command : Command}
    (opening : (skipSpace text).head? = some openBrace) (read : Command.read text = .ok command) :
    (∃ bindings, Laid (Term.object bindings).tokens text) ∧
      ∀ bindings, Laid (Term.object bindings).tokens text → (bindings.map Binding.name).Nodup →
        ∀ further, (∀ binding ∈ further, command.Addable bindings binding) →
          ∀ arranged, arranged.Perm (bindings ++ further) →
            ∀ respelled, Laid (Term.object arranged).tokens respelled →
              Command.read respelled = .ok command := by
  refine ⟨exists_laid_of_readWholeTagged opening read, ?_⟩
  intro bindings laid distinct further addable arranged rearranged respelled relaid
  refine readWholeTagged_rearranged _ Command.tolerant_of_mem_variants laid read distinct
    (fun binding member => ?_) rearranged relaid
  obtain ⟨fresh, foreign, octets, value, laid, readable⟩ := addable binding member
  refine ⟨fresh, foreign, ?_⟩
  rw [(Term.readWhole_laid (maxDepth - 1) laid).mp readable]
  rfl

/-- The digit seven. -/
def seven : Term :=
  .scalar ⟨0x37, [], .number (.count 7), rfl⟩

/-- The members of an addition in its written form. -/
def addition : List Binding :=
  [(.ofText "type", .ofText "add"), (.ofText "key", .ofText "k"),
    (.ofText "stagingPath", .ofText "s"), (.ofText "size", seven),
    (.ofText "cachingInfo", .object [])]

/-- Members that an addition passes over, of one name that is a field of another command. -/
def notes : List Binding :=
  [(.ofText "path", .array [seven, .object [(.ofText "key", seven)]]), (.ofText "path", seven)]

/-- The written form of the addition is laid out from its members. -/
theorem laid_addition :
    Laid (Term.object addition).tokens (Text.Utf8.encode (Command.add "k" "s" 7 {}).write) := by
  have size : Text.Utf8.encode (writeCount 7) = [0x37] := encode_digits_of_lt (by decide)
  have none : Text.Utf8.encode (writeObject []) = [openBrace, closeBrace] := rfl
  have written : Text.Utf8.encode (Command.add "k" "s" 7 {}).write =
      (Term.object addition).tokens.flatMap fun token => [] ++ token.octets := by
    have octets := encode_writeObject (Command.add "k" "s" 7 {}).members []
    rw [List.append_nil] at octets
    rw [Command.write, octets]
    simp [Command.members, Validators.write, Validators.members, queue, separator,
      encode_writeMember, encode_writeString, size, none, addition, Term.tokens, row,
      Term.tokens_object, Binding.tokens, Token.octets, Name.ofText, Term.ofText, seven]
  rw [written]
  exact laid_flatMap (List.forall_mem_nil _) _

/-- The notes may be added to the addition, though they have one name. -/
theorem addable_notes :
    ∀ binding ∈ notes, (Command.add "k" "s" 7 {}).Addable addition binding := by
  have readable (term : Term) (value : Value) (known : term.value? (maxDepth - 1) = some value) :
      ∃ octets value, Laid term.tokens octets ∧ readWhole readContent octets = .ok value := by
    have laid := laid_flatMap (List.forall_mem_nil _) term.tokens
    exact ⟨_, value, laid, (Term.readWhole_laid (maxDepth - 1) laid).mpr known⟩
  simp only [notes, List.forall_mem_cons]
  refine ⟨⟨?_, ?_, readable _ _ rfl⟩, ⟨?_, ?_, readable _ _ rfl⟩, nofun⟩
  all_goals simp [Binding.name, addition, Name.ofText, Command.fields, Command.members]

/-- An addition is read in its written form, and with the notes in front, its tag last, and white
space and a line feed before every token. -/
theorem Command.read_rearranged_of_tag_last :
    Command.read (Text.Utf8.encode (Command.add "k" "s" 7 {}).write) = .ok (.add "k" "s" 7 {}) ∧
      (∀ binding ∈ notes, (Command.add "k" "s" 7 {}).Addable addition binding) ∧
      Command.read ((Term.object (notes ++ addition.reverse)).tokens.flatMap fun token =>
        [0x20, 0x0a] ++ token.octets) = .ok (.add "k" "s" 7 {}) := by
  have read := Command.read_write (.add "k" "s" 7 {})
  have opening : (skipSpace (Text.Utf8.encode (Command.add "k" "s" 7 {}).write)).head? =
      some openBrace := rfl
  have distinct : (addition.map Binding.name).Nodup := by decide
  have blank : Blank [0x20, 0x0a] := by decide
  have rearranged : (notes ++ addition.reverse).Perm (addition ++ notes) :=
    List.perm_append_comm.trans (List.Perm.append_right notes (List.reverse_perm addition))
  exact ⟨read, addable_notes, (Command.read_rearranged opening read).2 addition laid_addition
    distinct notes addable_notes _ rearranged _ (laid_flatMap blank _)⟩

end Wire

end DownloadCache
