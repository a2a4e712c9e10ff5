import DownloadCache.CommandLine
import DownloadCache.Proofs.Attempt
import Mathlib.Data.List.Basic

/-!
# The grammar of the command line

Arguments fall into groups from left to right (`CommandLine.groups`): a flag takes the argument
behind it into its group, whatever that looks like, and every other argument is a group of its own.
Reading arguments is reading group after group (`CommandLine.readFrom_eq_foldlM`), where a group is
taken unless it is unknown, a flag without a value, a size that cannot be read, or a command behind
a command or a word for help (`CommandLine.take_eq_ok_iff`).

So arguments are accepted if their groups are (`CommandLine.Accepted`), and what they ask for is
told by the words and, for each flag, by its last value (`CommandLine.read_by_groups`).  Where flags
stand among the words and among other flags is of no consequence.
-/

namespace DownloadCache.CommandLine

set_option autoImplicit false

/-! ## Groups -/

/-- A part of the command line that is read in one go. -/
inductive Group where
  /-- A flag and its value. -/
  | setting (flag value : String)
  /-- A flag behind which there is nothing. -/
  | bare (flag : String)
  /-- Any other argument. -/
  | word (argument : String)
deriving DecidableEq

/-- The groups into which arguments fall from left to right. -/
def groups : List String → List Group
  | [] => []
  | [argument] => if isFlag argument then [.bare argument] else [.word argument]
  | argument :: value :: rest =>
      if isFlag argument then .setting argument value :: groups rest
      else .word argument :: groups (value :: rest)

/-- Whether a group is a word for help. -/
def Group.isHelp : Group → Bool
  | .word argument => isHelpWord argument
  | _ => false

/-- The command that a group is. -/
def Group.command? : Group → Option Task
  | .word argument => task? argument
  | _ => none

/-- The value that a group gives to a flag. -/
def Group.value? (flag : String) : Group → Option String
  | .setting given value => if given = flag then some value else none
  | _ => none

/-- Whether a group can be taken at all: a flag with a value that it can have, a word for help or a
command. -/
def Group.Valid : Group → Prop
  | .setting flag value =>
      isFlag flag ∧ (flag = "--max-size" → ∃ size, ByteSize.read value = .ok size)
  | .bare _ => False
  | .word argument => isHelpWord argument ∨ ∃ task, task? argument = some task

/-- Groups that are accepted: each of them can be taken, and a command comes neither behind another
one nor behind a word for help. -/
structure Accepted (groups : List Group) : Prop where
  valid : ∀ group ∈ groups, group.Valid
  ordered : groups.Pairwise fun earlier later =>
    later.command? ≠ none → earlier.command? = none ∧ earlier.isHelp = false

/-! ## What groups ask for -/

/-- The task that groups name: help if it is asked for anywhere, and else the command. -/
def named (groups : List Group) : Option Task :=
  if groups.any Group.isHelp then some .help else groups.findSome? Group.command?

/-- The last value that groups give to a flag. -/
def lastValue (flag : String) (groups : List Group) : Option String :=
  (groups.filterMap (Group.value? flag)).getLast?

/-- The flags that groups give, of each the last value. -/
def flagsOf (groups : List Group) : Flags where
  config := (lastValue "--config" groups).map Path.mk
  directory := (lastValue "--dir" groups).map Path.mk
  maxSize := (lastValue "--max-size" groups).bind fun value => (ByteSize.read value).toOption
  socket := (lastValue "--socket" groups).map Path.mk

/-- Flags, and others in place of those that are not given. -/
def Flags.or (flags others : Flags) : Flags where
  config := flags.config.or others.config
  directory := flags.directory.or others.directory
  maxSize := flags.maxSize.or others.maxSize
  socket := flags.socket.or others.socket

theorem Flags.or_empty (flags : Flags) : flags.or {} = flags := by
  simp only [Flags.or, Option.or_none]

theorem Flags.or_assoc (first second third : Flags) :
    (first.or second).or third = first.or (second.or third) := by
  simp only [Flags.or, Option.or_assoc]

theorem lastValue_cons (flag : String) (group : Group) (rest : List Group) :
    lastValue flag (group :: rest) = (lastValue flag rest).or (group.value? flag) := by
  cases given : group.value? flag with
  | none => simp only [lastValue, List.filterMap_cons_none given, Option.or_none]
  | some value =>
      rw [lastValue, List.filterMap_cons_some given, List.getLast?_cons]
      cases last : lastValue flag rest <;> rw [lastValue] at last <;> rw [last] <;> rfl

/-- A flag that is given has its last value from one of the groups. -/
theorem mem_of_lastValue {flag value : String} {groups : List Group}
    (last : lastValue flag groups = some value) : .setting flag value ∈ groups := by
  obtain ⟨group, member, given⟩ := List.mem_filterMap.mp (List.mem_of_getLast? last)
  cases group with
  | setting other otherValue =>
      simp only [Group.value?, Option.ite_none_right_eq_some, Option.some.injEq] at given
      obtain ⟨rfl, rfl⟩ := given
      exact member
  | bare | word => cases given

/-- Flags that are given further on count more. -/
theorem flagsOf_cons {group : Group} {rest : List Group} (valid : ∀ group ∈ rest, group.Valid) :
    flagsOf (group :: rest) = (flagsOf rest).or (flagsOf [group]) := by
  have path : ∀ flag, (lastValue flag (group :: rest)).map Path.mk =
      ((lastValue flag rest).map Path.mk).or ((lastValue flag [group]).map Path.mk) := by
    intro flag
    rw [lastValue_cons, lastValue_cons flag group [], Option.map_or]
    rfl
  have size : ((lastValue "--max-size" (group :: rest)).bind
      fun value => (ByteSize.read value).toOption) =
      ((lastValue "--max-size" rest).bind fun value => (ByteSize.read value).toOption).or
        ((lastValue "--max-size" [group]).bind fun value => (ByteSize.read value).toOption) := by
    rw [lastValue_cons, lastValue_cons _ group []]
    cases last : lastValue "--max-size" rest with
    | none => rfl
    | some value =>
        obtain ⟨size, read⟩ := (valid _ (mem_of_lastValue last)).2 rfl
        simp only [Option.some_or, Option.bind_some, read, Except.toOption]
  simp only [flagsOf, Flags.or, path, size]

/-! ## Reading group after group -/

/-- Takes one group after a task and flags. -/
def take : Option Task × Flags → Group → Except ArgumentError (Option Task × Flags)
  | (task, flags), .setting flag value => (flags.set flag value).map (task, ·)
  | _, .bare flag => .error (.missingValue flag)
  | (task, flags), .word argument =>
      if isHelpWord argument then .ok (some .help, flags)
      else
        match task, task? argument with
        | none, some named => .ok (some named, flags)
        | _, _ => .error (.unknown argument)

/-- A word is read as a group of its own. -/
theorem readFrom_word {task : Option Task} {flags : Flags} {argument : String}
    (word : ¬isFlag argument = true) (rest : List String) :
    readFrom task flags (argument :: rest) =
      take (task, flags) (.word argument) >>= fun (further, given) =>
        readFrom further given rest := by
  rw [readFrom.eq_def]
  cases rest with
  | nil | cons value rest =>
      dsimp only [take]
      rw [if_neg word]
      by_cases help : isHelpWord argument = true
      · simp only [if_pos help]
        rfl
      · simp only [if_neg help]
        cases task <;> cases task? argument <;> rfl

/-- A flag is read with the argument behind it. -/
theorem readFrom_flag {task : Option Task} {flags : Flags} {argument : String}
    (flag : isFlag argument = true) (value : String) (rest : List String) :
    readFrom task flags (argument :: value :: rest) =
      take (task, flags) (.setting argument value) >>= fun (further, given) =>
        readFrom further given rest := by
  rw [readFrom.eq_def]
  dsimp only [take]
  rw [if_pos flag]
  cases flags.set argument value <;> rfl

/-- **Arguments are read group after group.** -/
theorem readFrom_eq_foldlM (task : Option Task) (flags : Flags) (arguments : List String) :
    readFrom task flags arguments = (groups arguments).foldlM take (task, flags) := by
  fun_induction groups arguments generalizing task flags with
  | case1 => rfl
  | case2 argument flag =>
      rw [readFrom.eq_def]
      dsimp only
      rw [if_pos flag]
      rfl
  | case3 argument word => exact readFrom_word word []
  | case4 argument value rest flag ih =>
      rw [readFrom_flag flag, List.foldlM_cons]
      exact bind_congr fun state => ih state.1 state.2
  | case5 argument value rest word ih =>
      rw [readFrom_word word, List.foldlM_cons]
      exact bind_congr fun state => ih state.1 state.2

/-! ## What a group does -/

theorem isFlag_iff {argument : String} : isFlag argument = true ↔
    argument = "--config" ∨ argument = "--dir" ∨ argument = "--socket" ∨
      argument = "--max-size" := by
  simp only [isFlag, List.contains_eq_mem, List.mem_cons, List.not_mem_nil, or_false,
    decide_eq_true_eq]

/-- A flag other than the size takes any value. -/
theorem set_path {flags : Flags} {flag value : String} (known : isFlag flag = true)
    (path : flag ≠ "--max-size") :
    flags.set flag value = .ok ((flagsOf [.setting flag value]).or flags) := by
  rcases isFlag_iff.mp known with rfl | rfl | rfl | rfl
  · rfl
  · rfl
  · rfl
  · exact absurd rfl path

/-- The size takes a value that can be read. -/
theorem set_maxSize_eq_ok_iff {flags given : Flags} {value : String} :
    flags.set "--max-size" value = .ok given ↔ (∃ size, ByteSize.read value = .ok size) ∧
      given = (flagsOf [.setting "--max-size" value]).or flags := by
  have own : lastValue "--max-size" [.setting "--max-size" value] = some value := rfl
  have others : lastValue "--config" [.setting "--max-size" value] = none ∧
      lastValue "--dir" [.setting "--max-size" value] = none ∧
        lastValue "--socket" [.setting "--max-size" value] = none := ⟨rfl, rfl, rfl⟩
  have meant : flagsOf [.setting "--max-size" value] =
      { maxSize := (ByteSize.read value).toOption } := by
    simp only [flagsOf, own, others, Option.map_none, Option.bind_some]
  rw [meant]
  cases read : ByteSize.read value with
  | error cause =>
      have refused : flags.set "--max-size" value = .error (.maxSize cause) := by
        rw [Flags.set, read] <;> decide
      rw [refused]
      exact ⟨nofun, nofun⟩
  | ok size =>
      have taken : flags.set "--max-size" value = .ok { flags with maxSize := some size } := by
        rw [Flags.set, read] <;> decide
      rw [taken, Except.ok.injEq]
      exact ⟨fun same => ⟨⟨size, rfl⟩, same.symm⟩, fun ⟨_, same⟩ => same.symm⟩

/-- The value of a flag is taken if it is one that the flag can have. -/
theorem set_eq_ok_iff {flags given : Flags} {flag value : String} (known : isFlag flag = true) :
    flags.set flag value = .ok given ↔ (Group.setting flag value).Valid ∧
      given = (flagsOf [.setting flag value]).or flags := by
  by_cases size : flag = "--max-size"
  · subst size
    rw [set_maxSize_eq_ok_iff]
    exact and_congr_left fun _ =>
      ⟨fun readable => ⟨rfl, fun _ => readable⟩, fun valid => valid.2 rfl⟩
  · rw [set_path known size, Except.ok.injEq]
    exact ⟨fun same => ⟨⟨known, fun is => absurd is size⟩, same.symm⟩, fun ⟨_, same⟩ => same.symm⟩

/-- No word for help is a command. -/
theorem task?_of_isHelpWord {argument : String} (help : isHelpWord argument = true) :
    task? argument = none := by
  simp only [isHelpWord, List.contains_eq_mem, List.mem_cons, List.not_mem_nil, or_false,
    decide_eq_true_eq] at help
  rcases help with rfl | rfl | rfl <;> rfl

/-- The task behind a group. -/
def Group.taskBehind (group : Group) (task : Option Task) : Option Task :=
  if group.isHelp then some .help else task.or group.command?

theorem Group.taskBehind_eq_none_iff {group : Group} {task : Option Task} :
    group.taskBehind task = none ↔
      task = none ∧ group.command? = none ∧ group.isHelp = false := by
  rw [taskBehind]
  cases group.isHelp <;> simp

/-- **A group is taken if it is valid and no command behind another task.** -/
theorem take_eq_ok_iff {task : Option Task} {flags : Flags} {group : Group}
    (known : ∀ flag value, group = .setting flag value → isFlag flag = true)
    {state : Option Task × Flags} :
    take (task, flags) group = .ok state ↔
      group.Valid ∧ (group.command? ≠ none → task = none) ∧
        state = (group.taskBehind task, (flagsOf [group]).or flags) := by
  cases group with
  | bare flag => exact ⟨nofun, fun ⟨valid, _⟩ => valid.elim⟩
  | setting flag value =>
      simp only [take, map_eq_ok_iff, set_eq_ok_iff (known flag value rfl), Group.command?,
        Group.isHelp, Group.taskBehind, ne_eq, not_true_eq_false, false_implies, true_and,
        Bool.false_eq_true, if_false, Option.or_none]
      constructor
      · rintro ⟨given, ⟨valid, rfl⟩, rfl⟩
        exact ⟨valid, rfl⟩
      · rintro ⟨valid, rfl⟩
        exact ⟨_, ⟨valid, rfl⟩, rfl⟩
  | word argument =>
      have kept : (flagsOf [.word argument]).or flags = flags := rfl
      rw [take.eq_def, kept]
      dsimp only [Group.Valid, Group.taskBehind, Group.command?, Group.isHelp]
      by_cases help : isHelpWord argument = true
      · simp [help, task?_of_isHelpWord help, eq_comm]
      · cases meant : task? argument with
        | none => simp [help]
        | some named => cases task <;> simp [help, eq_comm]

/-! ## What all groups do -/

/-- Only flags take a value. -/
theorem isFlag_of_mem_groups {arguments : List String} {flag value : String}
    (member : .setting flag value ∈ groups arguments) : isFlag flag = true := by
  fun_induction groups arguments with
  | case1 => cases member
  | case2 argument => cases List.mem_singleton.mp member
  | case3 argument => cases List.mem_singleton.mp member
  | case4 argument given rest isFlag ih =>
      rcases List.mem_cons.mp member with same | member
      · cases same
        exact isFlag
      · exact ih member
  | case5 argument given rest other ih =>
      rcases List.mem_cons.mp member with same | member
      · cases same
      · exact ih member

theorem accepted_cons_iff {group : Group} {rest : List Group} :
    Accepted (group :: rest) ↔ group.Valid ∧ Accepted rest ∧
      ∀ later ∈ rest, later.command? ≠ none → group.command? = none ∧ group.isHelp = false := by
  constructor
  · rintro ⟨valid, ordered⟩
    obtain ⟨first, ordered⟩ := List.pairwise_cons.mp ordered
    obtain ⟨validFirst, valid⟩ := List.forall_mem_cons.mp valid
    exact ⟨validFirst, ⟨valid, ordered⟩, first⟩
  · rintro ⟨validFirst, ⟨valid, ordered⟩, first⟩
    exact ⟨List.forall_mem_cons.mpr ⟨validFirst, valid⟩, List.pairwise_cons.mpr ⟨first, ordered⟩⟩

/-- The task that groups name behind a task that has been given. -/
def namedBehind (task : Option Task) (groups : List Group) : Option Task :=
  if groups.any Group.isHelp then some .help else task.or (groups.findSome? Group.command?)

theorem namedBehind_cons (task : Option Task) (group : Group) (rest : List Group) :
    namedBehind task (group :: rest) = namedBehind (group.taskBehind task) rest := by
  simp only [namedBehind, Group.taskBehind, List.any_cons, List.findSome?_cons, Bool.or_eq_true]
  cases group.isHelp <;> cases rest.any Group.isHelp <;> cases task <;>
    cases group.command? <;> rfl

/-- **Groups are taken one after the other if they are accepted, and if none is a command where a
task has been given before.** -/
theorem foldlM_take_eq_ok_iff {groups : List Group}
    (known : ∀ flag value, .setting flag value ∈ groups → isFlag flag = true)
    {task : Option Task} {flags : Flags} {state : Option Task × Flags} :
    groups.foldlM take (task, flags) = .ok state ↔
      Accepted groups ∧ (∀ group ∈ groups, group.command? ≠ none → task = none) ∧
        state = (namedBehind task groups, (flagsOf groups).or flags) := by
  induction groups generalizing task flags with
  | nil =>
      have kept : (namedBehind task [], (flagsOf []).or flags) = (task, flags) :=
        congrArg (·, flags) Option.or_none
      rw [List.foldlM_nil, kept]
      exact ⟨fun same => ⟨⟨nofun, .nil⟩, nofun, (Except.ok.inj same).symm⟩,
        fun ⟨_, _, same⟩ => congrArg Except.ok same.symm⟩
  | cons group rest ih =>
      have knownHere : ∀ flag value, group = .setting flag value → isFlag flag = true :=
        fun flag value same => known flag value (same ▸ List.mem_cons_self)
      have ih := @ih fun flag value member => known flag value (List.mem_cons_of_mem group member)
      rw [List.foldlM_cons, bind_eq_ok_iff, accepted_cons_iff, namedBehind_cons,
        List.forall_mem_cons]
      constructor
      · rintro ⟨_, taken, others⟩
        obtain ⟨valid, first, rfl⟩ := (take_eq_ok_iff knownHere).mp taken
        obtain ⟨accepted, free, rfl⟩ := ih.mp others
        have free := fun later member command =>
          Group.taskBehind_eq_none_iff.mp (free later member command)
        rw [flagsOf_cons accepted.valid, Flags.or_assoc]
        exact ⟨⟨valid, accepted, fun later member command => (free later member command).2⟩,
          ⟨first, fun later member command => (free later member command).1⟩, rfl⟩
      · rintro ⟨⟨valid, accepted, order⟩, ⟨first, free⟩, rfl⟩
        refine ⟨_, (take_eq_ok_iff knownHere).mpr ⟨valid, first, rfl⟩, ih.mpr ⟨accepted, ?_, ?_⟩⟩
        · exact fun later member command => Group.taskBehind_eq_none_iff.mpr
            ⟨free later member command, order later member command⟩
        · rw [flagsOf_cons accepted.valid, Flags.or_assoc]

/-! ## Groups in another order -/

/-- The flag of a group, and of a word none. -/
def Group.flag? : Group → Option String
  | .setting flag _ => some flag
  | .bare flag => some flag
  | .word _ => none

/-- Groups in another order, in which those of one flag follow each other as before, and so do the
words. -/
def Rearranged (groups others : List Group) : Prop :=
  ∀ flag, groups.filter (·.flag? = flag) = others.filter (·.flag? = flag)

theorem Rearranged.symm {groups others : List Group} (rearranged : Rearranged groups others) :
    Rearranged others groups :=
  fun flag => (rearranged flag).symm

theorem Rearranged.mem {groups others : List Group} (rearranged : Rearranged groups others)
    {group : Group} (member : group ∈ groups) : group ∈ others := by
  have own : group ∈ groups.filter (·.flag? = group.flag?) :=
    List.mem_filter.mpr ⟨member, decide_eq_true rfl⟩
  rw [rearranged] at own
  exact List.mem_of_mem_filter own

/-- What is told by the groups of one flag, or by the words, is the same. -/
theorem Rearranged.filterMap_eq {groups others : List Group}
    (rearranged : Rearranged groups others) (flag : Option String) {β : Type}
    {told : Group → Option β} (only : ∀ group, group.flag? ≠ flag → told group = none) :
    groups.filterMap told = others.filterMap told := by
  have filtered : ∀ groups : List Group,
      (groups.filter (·.flag? = flag)).filterMap told = groups.filterMap told := by
    intro groups
    rw [List.filterMap_filter]
    refine List.filterMap_congr fun group _ => ?_
    by_cases same : group.flag? = flag
    · rw [decide_eq_true same, if_pos rfl]
    · rw [decide_eq_false same, only group same]
      rfl
  rw [← filtered, rearranged flag, filtered]

theorem Rearranged.accepted {groups others : List Group} (rearranged : Rearranged groups others)
    (accepted : Accepted groups) : Accepted others := by
  refine ⟨fun group member => accepted.valid group (rearranged.symm.mem member), ?_⟩
  have words : (others.filter (·.flag? = none)).Pairwise fun earlier later =>
      later.command? ≠ none → earlier.command? = none ∧ earlier.isHelp = false :=
    rearranged none ▸ accepted.ordered.filter _
  refine (List.pairwise_filter.mp words).imp fun {earlier later} order command => ?_
  -- Only words stand in the way of a command, and a command is a word itself.
  cases later with
  | setting | bare => exact absurd rfl command
  | word argument =>
    cases earlier with
    | setting | bare => exact ⟨rfl, rfl⟩
    | word => exact order rfl rfl command

theorem Rearranged.named_eq {groups others : List Group} (rearranged : Rearranged groups others) :
    named others = named groups := by
  have help : others.any Group.isHelp = groups.any Group.isHelp := by
    rw [Bool.eq_iff_iff, List.any_eq_true, List.any_eq_true]
    exact exists_congr fun group =>
      and_congr_left fun _ => ⟨rearranged.symm.mem, rearranged.mem⟩
  have command : others.findSome? Group.command? = groups.findSome? Group.command? := by
    rw [← List.head?_filterMap, ← List.head?_filterMap,
      rearranged.filterMap_eq none fun group flagged => ?_]
    cases group with
    | setting | bare => rfl
    | word => exact absurd rfl flagged
  rw [named, help, command, named]

theorem Rearranged.flagsOf_eq {groups others : List Group}
    (rearranged : Rearranged groups others) : flagsOf others = flagsOf groups := by
  have same : ∀ flag, lastValue flag others = lastValue flag groups := by
    intro flag
    rw [lastValue, lastValue, rearranged.filterMap_eq (some flag) fun group other => ?_]
    cases group with
    | bare | word => rfl
    | setting given value => exact if_neg fun same => other (congrArg some same)
  simp only [flagsOf, same]

/-! ## Arguments -/

/-- Arguments are read if their groups are accepted, as what these ask for. -/
theorem read_eq_ok_iff {arguments : List String} {task : Task} {flags : Flags} :
    read arguments = .ok (task, flags) ↔ Accepted (groups arguments) ∧
      task = (named (groups arguments)).getD .serve ∧ flags = flagsOf (groups arguments) := by
  have known : ∀ flag value, .setting flag value ∈ groups arguments → isFlag flag = true :=
    fun flag value => isFlag_of_mem_groups
  have start : namedBehind none (groups arguments) = named (groups arguments) := by
    rw [namedBehind, Option.none_or, named]
  rw [read, map_eq_ok_iff, readFrom_eq_foldlM]
  constructor
  · rintro ⟨_, taken, same⟩
    obtain ⟨accepted, -, rfl⟩ := (foldlM_take_eq_ok_iff known).mp taken
    rw [start, Flags.or_empty] at same
    cases same
    exact ⟨accepted, rfl, rfl⟩
  · rintro ⟨accepted, rfl, rfl⟩
    have taken : (groups arguments).foldlM take (none, {}) =
        .ok (named (groups arguments), flagsOf (groups arguments)) :=
      (foldlM_take_eq_ok_iff known).mpr
        ⟨accepted, fun _ _ _ => rfl, by rw [start, Flags.or_empty]⟩
    exact ⟨_, taken, rfl⟩

/-- **Arguments are understood if their groups are accepted**: every group is a flag with a value
that it can have, a word for help or a command, and no command comes behind another one or behind a
word for help.  The task is then help if it is asked for anywhere, else the command, and to serve
without one; each flag has the last value that is given to it.  So it does not matter where flags
stand among the words and among other flags. -/
theorem read_by_groups (arguments : List String) :
    (∀ task flags, read arguments = .ok (task, flags) ↔ Accepted (groups arguments) ∧
      task = (named (groups arguments)).getD .serve ∧ flags = flagsOf (groups arguments)) ∧
    ∀ others, Rearranged (groups arguments) (groups others) →
      (read others).toOption = (read arguments).toOption := by
  refine ⟨fun task flags => read_eq_ok_iff, fun others rearranged => ?_⟩
  have same : ∀ task flags,
      read others = .ok (task, flags) ↔ read arguments = .ok (task, flags) := by
    intro task flags
    rw [read_eq_ok_iff, read_eq_ok_iff, rearranged.named_eq, rearranged.flagsOf_eq]
    exact and_congr_left fun _ => ⟨rearranged.symm.accepted, rearranged.accepted⟩
  cases first : read arguments with
  | ok result => rw [(same result.1 result.2).mpr first]
  | error cause =>
      cases second : read others with
      | error other => rfl
      | ok result => exact absurd (first.symm.trans ((same result.1 result.2).mp second)) nofun

example : read ["--dir", "--help", "status", "--dir", "serve"] =
    .ok (.status, { directory := some ⟨"serve"⟩ }) := by decide

end DownloadCache.CommandLine
