import DownloadCache.Proofs.Attempt
import DownloadCache.Proofs.Json.Filling
import DownloadCache.Proofs.Json.Reading

/-!
# Records of several kinds in any arrangement

A text that holds a tagged record is an object whose members may stand in any order, the tag among
them.  What a reader gathers from the members is a kind, from the one member that is the tag, and
the values of all others in their order (`Gathers`); the text is read as what the kind makes of
these values, and white space plays no part (`readWholeTagged_eq_ok_iff`).

Members in another order gather the same kind and the same values in another order
(`Gathers.perm`), and further members add theirs (`Gathers.append`).  If all kinds are tolerant, a
record therefore survives every rearrangement of its members and every insertion of members that are
no fields of it (`readWholeTagged_rearranged`).
-/

namespace DownloadCache.Json

set_option autoImplicit false

section Tagged

variable {α : Type} {variants : List (Variant α)}

/-! ## Tags -/

/-- The kind that a tag names. -/
def Term.kind? (variants : List (Variant α)) : Term → Option (Variant α)
  | .scalar written =>
      match written.value with
      | .text name => variants.find? fun variant => variant.name == name
      | _ => none
  | _ => none

/-- What starts with a quote is a text. -/
theorem Scalar.exists_text (written : Scalar) (quoted : written.first = quoteMark) :
    ∃ name : Name, written.value = .text name.text ∧ written.others = name.others := by
  have reads := written.reads
  rw [quoted, readScalar?_quoteMark] at reads
  obtain ⟨⟨text, rest⟩, read, same⟩ := map_eq_ok_iff.mp (Option.some.inj reads)
  obtain ⟨value, rfl⟩ := Prod.mk.inj same
  exact ⟨⟨written.others, text, read⟩, value.symm, rfl⟩

/-- What does not start with a quote is no text. -/
theorem Scalar.value_ne_text (written : Scalar) (unquoted : written.first ≠ quoteMark)
    (text : String) : written.value ≠ .text text := by
  intro value
  have never {β : Type} {result : Except Fault β} {meaning : β → Value × Octets}
      (other : ∀ found, (meaning found).1 ≠ .text text) :
      some (result.map meaning) ≠ some (.ok (.text text, [])) := by
    intro reads
    obtain ⟨found, -, same⟩ := map_eq_ok_iff.mp (Option.some.inj reads)
    exact other found (congrArg Prod.fst same)
  have reads := written.reads
  rw [value, readScalar?] at reads
  split_ifs at reads
  · exact never (by simp) reads
  · exact never (by simp) reads
  · exact never (by simp) reads
  · exact never (by simp) reads
  · cases reads

/-- **A tag is read as the kind that it names.** -/
theorem Term.gives_readTag (variants : List (Variant α)) (term : Term) {left : List Token}
    {input : Octets} (parted : Parted left) (laid : Laid (term.tokens ++ left) input) :
    Gives (readTag variants input) (term.kind? variants) left := by
  cases term with
  | scalar written =>
      rw [Term.tokens] at laid
      obtain ⟨rest, start, laid⟩ := startValue_laid rfl laid
      rw [readTag, start]
      simp only [bind, Except.bind]
      by_cases quoted : written.first = quoteMark
      · obtain ⟨name, value, others⟩ := written.exists_text quoted
        have kind : (Term.scalar written).kind? variants =
            variants.find? fun variant => variant.name == name.text := by
          rw [Term.kind?, value]
        rw [if_pos quoted, others, name.reads_on (laid.ended parted), kind]
        dsimp only
        cases variants.find? fun variant => variant.name == name.text with
        | none => exact gives_error _
        | some variant => exact gives_ok laid
      · have kind : (Term.scalar written).kind? variants = none := by
          rw [Term.kind?]
          split
          · rename_i text value
            exact absurd value (written.value_ne_text quoted text)
          · rfl
        rw [if_neg quoted, kind]
        exact gives_error _
  | array elements =>
      rw [Term.tokens_array] at laid
      obtain ⟨rest, start, laid⟩ := startValue_laid rfl laid
      rw [readTag, start]
      exact gives_error _
  | object members =>
      rw [Term.tokens_object] at laid
      obtain ⟨rest, start, laid⟩ := startValue_laid rfl laid
      rw [readTag, start]
      exact gives_error _

/-! ## Gathering -/

/-- What the members of a tagged record come to: the kind that the tag names, if the tag is among
them, and the values of the others in their order. -/
inductive Gathers (variants : List (Variant α)) :
    List Binding → Option (Variant α) → List (String × Value) → Prop
  | nil : Gathers variants [] none []
  | tag {binding : Binding} {bindings : List Binding} {variant : Variant α}
      {named : List (String × Value)} : binding.name = tagName →
        binding.2.kind? variants = some variant → Gathers variants bindings none named →
          Gathers variants (binding :: bindings) (some variant) named
  | other {binding : Binding} {bindings : List Binding} {variant? : Option (Variant α)}
      {named : List (String × Value)} {value : Value} : binding.name ≠ tagName →
        binding.2.value? (maxDepth - 1) = some value → Gathers variants bindings variant? named →
          Gathers variants (binding :: bindings) variant? ((binding.name, value) :: named)

/-! ## Reading members

Both directions go along the members, and both take the same step at a member. -/

/-- What a reader of a tagged record does at a member. -/
theorem readTaggedObject_binding {first : Bool} {binding : Binding} {items : List (List Token)}
    {tokens : List Token} {input : Octets}
    (laid : Laid (row first (binding.tokens :: items) ++ tokens) input) :
    ∃ behindName behindColon, Laid (binding.2.tokens ++ (row false items ++ tokens)) behindColon ∧
      ∀ rounds tag? read, readTaggedObject variants (rounds + 1) first tag? read input =
        if binding.name = tagName then
          if tag?.isSome then .error (.mismatch (.duplicateField tagName) behindName)
          else within (readTag variants behindColon) >>= fun (variant, rest) =>
            readTaggedObject variants rounds false (some variant) read rest
        else within (readContent behindColon) >>= fun (value, rest) =>
          readTaggedObject variants rounds false tag? ((binding.name, value) :: read) rest := by
  obtain ⟨start, behindName, behindColon, next, name, colon, laid⟩ := readName_laid laid
  refine ⟨behindName, behindColon, laid, fun rounds tag? read => ?_⟩
  cases tag? with
  | none | some tag =>
      rw [readTaggedObject, next]
      simp only [within, bind, Except.bind, name, colon]

/-- **What is gathered is read,** behind a tag that was met before or with the tag to come. -/
theorem Gathers.readTaggedObject_eq_ok {bindings : List Binding}
    {variant? tag? : Option (Variant α)} {named : List (String × Value)}
    (gathers : Gathers variants bindings variant? named)
    {variant : Variant α} (known : tag?.or variant? = some variant)
    (once : tag? = none ∨ variant? = none) {rounds : Nat} (enough : bindings.length < rounds)
    (first : Bool) (read : List (String × Value)) {left : List Token} {input : Octets}
    (laid : Laid (row first (bindings.map Binding.tokens) ++ .closeBrace :: left) input) :
    ∃ rest, Laid (.closeBrace :: left) rest ∧
      readTaggedObject variants rounds first tag? read input =
        .ok ((variant, .object (read.reverse ++ named)), rest) := by
  induction gathers generalizing tag? rounds first read input with
  | nil =>
      obtain ⟨rounds, rfl⟩ := Nat.exists_eq_add_of_lt enough
      rw [Option.or_none] at known
      subst known
      refine ⟨input, laid, ?_⟩
      rw [readTaggedObject, nextName?_laid_closeBrace laid, List.append_nil]
      rfl
  | @tag binding bindings kind named tagged kindKnown gathers ih =>
      obtain ⟨rounds, rfl⟩ := Nat.exists_eq_succ_of_ne_zero (Nat.ne_zero_of_lt enough)
      obtain rfl : tag? = none := once.resolve_right nofun
      obtain ⟨behindName, behindColon, laid, step⟩ := readTaggedObject_binding laid
      have tag := binding.2.gives_readTag variants (parted_row _ .closeBrace _ nofun) laid
      rw [kindKnown] at tag
      obtain ⟨rest, tag, laid⟩ := tag
      rw [step, if_pos tagged, tag]
      exact ih known (.inr rfl) (Nat.lt_of_succ_lt_succ enough) false read laid
  | @other binding bindings variant? named value untagged valueKnown gathers ih =>
      obtain ⟨rounds, rfl⟩ := Nat.exists_eq_succ_of_ne_zero (Nat.ne_zero_of_lt enough)
      obtain ⟨behindName, behindColon, laid, step⟩ := readTaggedObject_binding laid
      have content :=
        binding.2.gives_readValue (maxDepth - 1) (parted_row _ .closeBrace _ nofun) laid
      rw [valueKnown] at content
      obtain ⟨rest, content, laid⟩ := content
      obtain ⟨rest, laid, others⟩ :=
        ih known once (Nat.lt_of_succ_lt_succ enough) false ((binding.name, value) :: read) laid
      refine ⟨rest, laid, ?_⟩
      rw [List.reverse_cons, List.append_assoc] at others
      rw [step, if_neg untagged, readContent, content]
      exact others

/-- **What is read has been gathered,** behind a tag that was met before or with the tag among
it. -/
theorem exists_gathers_of_readTaggedObject (bindings : List Binding) {tag? : Option (Variant α)}
    {rounds : Nat} (enough : bindings.length < rounds) (first : Bool) (read : List (String × Value))
    {left : List Token} {input rest : Octets}
    (laid : Laid (row first (bindings.map Binding.tokens) ++ .closeBrace :: left) input)
    {variant : Variant α} {value : Value}
    (result : readTaggedObject variants rounds first tag? read input =
      .ok ((variant, value), rest)) :
    ∃ variant? named, Gathers variants bindings variant? named ∧ tag?.or variant? = some variant ∧
      (tag? = none ∨ variant? = none) ∧ value = .object (read.reverse ++ named) := by
  induction bindings generalizing tag? rounds first read input with
  | nil =>
      obtain ⟨rounds, rfl⟩ := Nat.exists_eq_add_of_lt enough
      cases tag? with
      | none =>
          rw [readTaggedObject, nextName?_laid_closeBrace laid] at result
          cases result
      | some tag =>
          rw [readTaggedObject, nextName?_laid_closeBrace laid] at result
          obtain ⟨⟨rfl, rfl⟩, -⟩ := Except.ok.inj result
          exact ⟨none, [], .nil, rfl, .inr rfl, by rw [List.append_nil]⟩
  | cons binding bindings ih =>
      obtain ⟨rounds, rfl⟩ := Nat.exists_eq_succ_of_ne_zero (Nat.ne_zero_of_lt enough)
      obtain ⟨behindName, behindColon, laid, step⟩ := readTaggedObject_binding laid
      rw [step] at result
      have parted := parted_row (bindings.map Binding.tokens) .closeBrace left nofun
      by_cases tagged : binding.name = tagName
      · have tag := binding.2.gives_readTag variants parted laid
        rw [if_pos tagged] at result
        cases tag? with
        | some tag => cases result
        | none =>
            cases kind : binding.2.kind? variants with
            | none =>
                obtain ⟨fault, tag⟩ := kind ▸ tag
                rw [tag] at result
                cases result
            | some found =>
                obtain ⟨rest, tag, laid⟩ := kind ▸ tag
                rw [tag] at result
                obtain ⟨variant?, named, gathers, known, once, value⟩ :=
                  ih (Nat.lt_of_succ_lt_succ enough) false read laid result
                obtain rfl : variant? = none := once.resolve_left nofun
                exact ⟨some found, named, .tag tagged kind gathers, known, .inl rfl, value⟩
      · have content := binding.2.gives_readValue (maxDepth - 1) parted laid
        rw [if_neg tagged, readContent] at result
        cases found : binding.2.value? (maxDepth - 1) with
        | none =>
            obtain ⟨fault, content⟩ := found ▸ content
            rw [content] at result
            cases result
        | some value =>
            obtain ⟨rest, content, laid⟩ := found ▸ content
            rw [content] at result
            obtain ⟨variant?, named, gathers, known, once, rfl⟩ :=
              ih (Nat.lt_of_succ_lt_succ enough) false ((binding.name, value) :: read) laid result
            refine ⟨variant?, (binding.name, value) :: named, .other tagged found gathers, known,
              once, ?_⟩
            rw [List.reverse_cons, List.append_assoc]
            rfl

/-! ## Whole texts -/

theorem finishObject_eq_ok_iff {β : Type} {result : Except Stop (β × Octets)} {value : β}
    {rest : Octets} : finishObject result = .ok (value, rest) ↔
      ∃ behind, result = .ok (value, behind) ∧ closeObject behind = .ok rest := by
  match result with
  | .error (.fault found) | .error (.mismatch found behind) => simp [finishObject]
  | .ok (found, behind) =>
      rw [finishObject]
      cases close : closeObject behind <;> simp [Except.map, and_comm, close]

/-- What reading a whole text comes to. -/
theorem readWholeTagged_eq_ok_iff {expected : String} {text : Octets} {meaning : α} :
    readWholeTagged expected variants text = .ok meaning ↔
      ∃ variant value rest, readTagged expected variants text = .ok ((variant, value), rest) ∧
        variant.ofValue value = .ok meaning ∧ readEnd rest = .ok () := by
  rw [readWholeTagged]
  match readTagged expected variants text with
  | .error fault => simp
  | .ok ((variant, value), rest) =>
      cases meant : variant.ofValue value <;> cases ended : readEnd rest <;> simp [meant, ended]

/-- **A text that is laid out from an object is read as what the kind that its tag names makes of
the values of the other members.** -/
theorem readWholeTagged_laid (expected : String) {bindings : List Binding} {text : Octets}
    (laid : Laid (Term.object bindings).tokens text) {meaning : α} :
    readWholeTagged expected variants text = .ok meaning ↔
      ∃ variant named, Gathers variants bindings (some variant) named ∧
        variant.ofValue (.object named) = .ok meaning := by
  rw [Term.tokens_object] at laid
  obtain ⟨rest, start, laid⟩ := startValue_laid rfl laid
  have enough := laid.length_items_lt Binding.tokens_ne_nil
  rw [List.length_map] at enough
  have record : readTagged expected variants text =
      finishObject (readTaggedObject variants (rest.length + 1) true none [] rest) := by
    rw [readTagged, start]
    rfl
  rw [readWholeTagged_eq_ok_iff, record]
  constructor
  · rintro ⟨variant, value, last, read, meant, -⟩
    obtain ⟨behind, read, -⟩ := finishObject_eq_ok_iff.mp read
    obtain ⟨variant?, named, gathers, known, -, rfl⟩ :=
      exists_gathers_of_readTaggedObject bindings enough true [] laid read
    obtain rfl : variant? = some variant := known
    exact ⟨variant, named, gathers, meant⟩
  · rintro ⟨variant, named, gathers, meant⟩
    obtain ⟨behind, laid, read⟩ :=
      gathers.readTaggedObject_eq_ok rfl (.inl rfl) enough true [] laid
    obtain ⟨last, close, laid⟩ := closeObject_laid laid
    have ended : readEnd last = .ok () := by rw [readEnd, laid_nil_iff.mp laid]
    exact ⟨variant, .object named, last, finishObject_eq_ok_iff.mpr ⟨behind, read, close⟩, meant,
      ended⟩

/-! ## Rearranging -/

/-- Further members without a tag add their values. -/
theorem Gathers.append {bindings further : List Binding} {variant? : Option (Variant α)}
    {named others : List (String × Value)} (gathers : Gathers variants bindings variant? named)
    (gathersFurther : Gathers variants further none others) :
    Gathers variants (bindings ++ further) variant? (named ++ others) := by
  induction gathers with
  | nil => exact gathersFurther
  | tag tagged kind _ ih => exact .tag tagged kind ih
  | other untagged value _ ih => exact .other untagged value ih

/-- Members in another order gather the same values in another order. -/
theorem Gathers.perm {bindings arranged : List Binding} {variant? : Option (Variant α)}
    {named : List (String × Value)} (gathers : Gathers variants bindings variant? named)
    (rearranged : bindings.Perm arranged) :
    ∃ others, Gathers variants arranged variant? others ∧ named.Perm others := by
  induction rearranged generalizing variant? named with
  | nil => exact ⟨named, gathers, .refl named⟩
  | cons binding _ ih =>
      cases gathers with
      | tag tagged kind gathers =>
          obtain ⟨others, gathers, same⟩ := ih gathers
          exact ⟨others, .tag tagged kind gathers, same⟩
      | other untagged value gathers =>
          obtain ⟨others, gathers, same⟩ := ih gathers
          exact ⟨_, .other untagged value gathers, same.cons _⟩
  | swap second first bindings =>
      cases gathers with
      | tag tagged kind gathers =>
          cases gathers with
          | other untagged value gathers =>
              exact ⟨_, .other untagged value (.tag tagged kind gathers), .refl _⟩
      | other untagged value gathers =>
          cases gathers with
          | tag tagged kind gathers =>
              exact ⟨_, .tag tagged kind (.other untagged value gathers), .refl _⟩
          | other untagged' value' gathers =>
              exact ⟨_, .other untagged' value' (.other untagged value gathers), .swap ..⟩
  | trans _ _ ihFirst ihSecond =>
      obtain ⟨between, gathers, same⟩ := ihFirst gathers
      obtain ⟨others, gathers, same'⟩ := ihSecond gathers
      exact ⟨others, gathers, same.trans same'⟩

/-- The tag is among the members if a kind has been gathered. -/
theorem Gathers.tagName_mem {bindings : List Binding} {variant? : Option (Variant α)}
    {named : List (String × Value)} (gathers : Gathers variants bindings variant? named)
    (known : variant?.isSome) : tagName ∈ bindings.map Binding.name := by
  induction gathers with
  | nil => cases known
  | tag tagged _ _ _ => exact List.mem_cons.mpr (.inl tagged.symm)
  | other _ _ _ ih => exact List.mem_cons_of_mem _ (ih known)

/-- The names of the values are names of the members, in their order. -/
theorem Gathers.names_sublist {bindings : List Binding} {variant? : Option (Variant α)}
    {named : List (String × Value)} (gathers : Gathers variants bindings variant? named) :
    (named.map Prod.fst).Sublist (bindings.map Binding.name) := by
  induction gathers with
  | nil => exact .refl _
  | tag _ _ _ ih => exact ih.cons _
  | other _ _ _ ih => exact ih.cons_cons _

theorem Term.kind?_mem {term : Term} {variant : Variant α}
    (kind : term.kind? variants = some variant) : variant ∈ variants := by
  rw [Term.kind?.eq_def] at kind
  split at kind
  · split at kind
    · exact List.mem_of_find?_eq_some kind
    · cases kind
  · cases kind

/-- The kind is one of those that a tag may name. -/
theorem Gathers.variant_mem {bindings : List Binding} {variant? : Option (Variant α)}
    {named : List (String × Value)} (gathers : Gathers variants bindings variant? named) :
    ∀ variant ∈ variant?, variant ∈ variants := by
  induction gathers with
  | nil => exact nofun
  | tag _ kind _ _ =>
      rintro _ ⟨⟩
      exact Term.kind?_mem kind
  | other _ _ _ ih => exact ih

/-- Values that there is room for are gathered as they stand if none is a tag. -/
theorem exists_gathers_untagged {bindings : List Binding}
    (readable : ∀ binding ∈ bindings,
      binding.name ≠ tagName ∧ (binding.2.value? (maxDepth - 1)).isSome) :
    ∃ named, Gathers variants bindings none named := by
  induction bindings with
  | nil => exact ⟨[], .nil⟩
  | cons binding bindings ih =>
      rw [List.forall_mem_cons] at readable
      obtain ⟨⟨untagged, known⟩, readable⟩ := readable
      obtain ⟨value, known⟩ := Option.isSome_iff_exists.mp known
      obtain ⟨named, gathers⟩ := ih readable
      exact ⟨_, .other untagged known gathers⟩

/-- **A record is read from every arrangement of its members and of further ones,** if all kinds are
tolerant: the further members have other names, are no fields, and there is room for them. -/
theorem readWholeTagged_rearranged (expected : String) {fields : α → List String}
    (tolerant : ∀ variant ∈ variants, variant.Tolerant fields)
    {bindings further arranged : List Binding} {text respelled : Octets} {meaning : α}
    (laid : Laid (Term.object bindings).tokens text)
    (read : readWholeTagged expected variants text = .ok meaning)
    (distinct : (bindings.map Binding.name).Nodup)
    (fresh : ∀ binding ∈ further, binding.name ∉ bindings.map Binding.name ∧
      binding.name ∉ fields meaning ∧ (binding.2.value? (maxDepth - 1)).isSome)
    (rearranged : arranged.Perm (bindings ++ further))
    (relaid : Laid (Term.object arranged).tokens respelled) :
    readWholeTagged expected variants respelled = .ok meaning := by
  obtain ⟨variant, named, gathers, meant⟩ := (readWholeTagged_laid expected laid).mp read
  have tag := gathers.tagName_mem rfl
  obtain ⟨others, gathersFurther⟩ : ∃ others, Gathers variants further none others :=
    exists_gathers_untagged fun binding member =>
      ⟨fun tagged => (fresh binding member).1 (tagged ▸ tag), (fresh binding member).2.2⟩
  obtain ⟨all, gathersAll, same⟩ := (gathers.append gathersFurther).perm rearranged.symm
  have foreign : ∀ member ∈ others, member.1 ∉ fields meaning := by
    intro member inOthers
    have name := gathersFurther.names_sublist.subset (List.mem_map_of_mem inOthers)
    obtain ⟨binding, inFurther, named⟩ := List.mem_map.mp name
    exact named ▸ (fresh binding inFurther).2.1
  refine (readWholeTagged_laid expected relaid).mpr ⟨variant, all, gathersAll, ?_⟩
  exact tolerant variant (gathers.variant_mem variant rfl) (distinct.sublist gathers.names_sublist)
    same.symm meant foreign

end Tagged

end DownloadCache.Json
