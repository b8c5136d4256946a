import Culvert.Cmd.Via

namespace Culvert

/-- An option or a word of a command line. `argv` is how an option is written. -/
inductive ArgpItem where
  | option (key : Char) (arg : Option String) (argv : List String)
  | word (arg : String)
  deriving DecidableEq, Repr

namespace ArgpItem

def argv : ArgpItem → List String
  | option _ _ argv => argv
  | word arg => [arg]

/-- How many of the items are words. -/
def words : List ArgpItem → Nat
  | [] => 0
  | option _ _ _ :: rest => words rest
  | word _ :: rest => words rest + 1

theorem flatMap_argv (words : List String) : (words.map word).flatMap argv = words := by
  induction words with
  | nil => rfl
  | cons arg rest ih => exact congrArg (arg :: ·) ih

/-- No word is `via`. -/
def NoVia (items : List ArgpItem) : Prop := word "via" ∉ items

end ArgpItem

/-- The arguments of a command: those of its own, and those after the `via`. -/
structure CmdArgs (β : Type) where
  own : β
  connection : ConnectionArgs

/-- The parser of a command that shares the branch for `via`: what it does with an option, with a
word by its number, and at the end with the number of words. -/
structure ViaCommand (β : Type) where
  start : β
  option : Char → Option String → β → Except String β
  switch : String → Nat → β → Except String β
  finish : Nat → β → Except String β

namespace ViaCommand
variable {β : Type} (cmd : ViaCommand β) (drivers : List BridgeDriver)

def parseOpt (key : ArgpKey) (arguments : CmdArgs β) : Except String (CmdArgs β) :=
  match key with
  | .arg arg argNum rest =>
    if arg = "via" then do
      let connection ← argpVia drivers rest arguments.connection
      return { arguments with connection := connection }
    else do
      let own ← cmd.switch arg argNum arguments.own
      return { arguments with own := own }
  | .finish argNum => do
    let own ← cmd.finish argNum arguments.own
    return { arguments with own := own }

/-- `argp_parse` with `ARGP_IN_ORDER`, from the word with the number `argNum` on. -/
def parseFrom (argNum : Nat) : List ArgpItem → CmdArgs β → Except String (CmdArgs β)
  | [], arguments => cmd.parseOpt drivers (.finish argNum) arguments
  | .option key arg _ :: rest, arguments => do
    let own ← cmd.option key arg arguments.own
    parseFrom argNum rest { arguments with own := own }
  | .word arg :: rest, arguments => do
    parseFrom (argNum + 1) rest (← cmd.parseOpt drivers (.arg arg argNum (rest.flatMap ArgpItem.argv)) arguments)

def parse (items : List ArgpItem) : Except String (CmdArgs β) :=
  cmd.parseFrom drivers 0 items ⟨cmd.start, connectionArgs⟩

/-- What the options and words leave in the arguments of the command, the end not yet reached. -/
def read (argNum : Nat) : List ArgpItem → β → Except String β
  | [], own => .ok own
  | .option key arg _ :: rest, own => do read argNum rest (← cmd.option key arg own)
  | .word arg :: rest, own => do read (argNum + 1) rest (← cmd.switch arg argNum own)

/-- What the words after a `via` leave there. -/
def switches (argNum : Nat) : List String → β → Except String β
  | [], own => .ok own
  | arg :: rest, own =>
    if arg = "via" then switches (argNum + 1) rest own
    else do switches (argNum + 1) rest (← cmd.switch arg argNum own)

end ViaCommand

/-- What those of the words after a `via` that are `via` again make of the connection. -/
def rereadVia (drivers : List BridgeDriver) : List String → ConnectionArgs → Except String ConnectionArgs
  | [], connection => .ok connection
  | arg :: rest, connection =>
    if arg = "via" then do rereadVia drivers rest (← argpVia drivers rest connection)
    else rereadVia drivers rest connection

theorem except_bind_ok_iff {ε α γ : Type} {x : Except ε α} {f : α → Except ε γ} {c : γ} :
    x >>= f = .ok c ↔ ∃ a, x = .ok a ∧ f a = .ok c := by
  cases x with
  | ok a =>
    constructor
    · exact fun run => ⟨a, rfl, run⟩
    · rintro ⟨_, same, run⟩
      cases same
      exact run
  | error e =>
    constructor
    · intro run
      cases run
    · rintro ⟨_, same, _⟩
      cases same

namespace ViaCommand
variable {β : Type} {cmd : ViaCommand β} {drivers : List BridgeDriver}

/-- Words other than `via` leave the connection alone. -/
theorem parseFrom_append {items tail : List ArgpItem} (plain : ArgpItem.NoVia items) (argNum : Nat) (own : β)
    (connection : ConnectionArgs) {result : CmdArgs β} :
    cmd.parseFrom drivers argNum (items ++ tail) ⟨own, connection⟩ = .ok result ↔
      ∃ own', cmd.read argNum items own = .ok own' ∧
        cmd.parseFrom drivers (argNum + ArgpItem.words items) tail ⟨own', connection⟩ = .ok result := by
  induction items generalizing argNum own with
  | nil =>
    constructor
    · exact fun run => ⟨own, rfl, run⟩
    · rintro ⟨_, same, run⟩
      cases same
      exact run
  | cons item rest ih =>
    have later : ArgpItem.NoVia rest := fun mem => plain (List.mem_cons_of_mem item mem)
    cases item with
    | option key arg argv =>
      simp only [List.cons_append, parseFrom, read, ArgpItem.words, except_bind_ok_iff]
      constructor
      · rintro ⟨own₁, first, run⟩
        obtain ⟨own', more, last⟩ := (ih later argNum own₁).mp run
        exact ⟨own', ⟨own₁, first, more⟩, last⟩
      · rintro ⟨own', ⟨own₁, first, more⟩, last⟩
        exact ⟨own₁, first, (ih later argNum own₁).mpr ⟨own', more, last⟩⟩
    | word arg =>
      have other : arg ≠ "via" := fun same => plain (by rw [same]; exact List.mem_cons_self)
      have count : argNum + (ArgpItem.words rest + 1) = argNum + 1 + ArgpItem.words rest := by omega
      simp only [List.cons_append, parseFrom, parseOpt, read, ArgpItem.words, if_neg other, except_bind_ok_iff, count]
      constructor
      · rintro ⟨_, ⟨own₁, first, same⟩, run⟩
        cases same
        obtain ⟨own', more, last⟩ := (ih later (argNum + 1) own₁).mp run
        exact ⟨own', ⟨own₁, first, more⟩, last⟩
      · rintro ⟨own', ⟨own₁, first, more⟩, last⟩
        exact ⟨⟨own₁, connection⟩, ⟨own₁, first, rfl⟩, (ih later (argNum + 1) own₁).mpr ⟨own', more, last⟩⟩

/-- The words after a `via` go through the switch of the command too, and count. -/
theorem parseFrom_words {words : List String} (argNum : Nat) (own : β) (connection : ConnectionArgs)
    {result : CmdArgs β} :
    cmd.parseFrom drivers argNum (words.map .word) ⟨own, connection⟩ = .ok result ↔
      ∃ own', cmd.switches argNum words own = .ok own' ∧
        rereadVia drivers words connection = .ok result.connection ∧
        cmd.finish (argNum + words.length) own' = .ok result.own := by
  induction words generalizing argNum own connection with
  | nil =>
    simp only [List.map_nil, parseFrom, parseOpt, switches, rereadVia, except_bind_ok_iff, List.length_nil,
      Nat.add_zero]
    constructor
    · rintro ⟨own', last, same⟩
      cases same
      exact ⟨own, rfl, rfl, last⟩
    · rintro ⟨_, same, kept, last⟩
      cases same
      cases kept
      exact ⟨result.own, last, rfl⟩
  | cons arg rest ih =>
    have count : argNum + (rest.length + 1) = argNum + 1 + rest.length := by omega
    by_cases again : arg = "via"
    · simp only [List.map_cons, parseFrom, parseOpt, switches, rereadVia, if_pos again, ArgpItem.flatMap_argv,
        List.length_cons, count, except_bind_ok_iff]
      constructor
      · rintro ⟨_, ⟨connection', via, same⟩, run⟩
        cases same
        obtain ⟨own', switched, kept, last⟩ := (ih (argNum + 1) own connection').mp run
        exact ⟨own', switched, ⟨connection', via, kept⟩, last⟩
      · rintro ⟨own', switched, ⟨connection', via, kept⟩, last⟩
        exact ⟨⟨own, connection'⟩, ⟨connection', via, rfl⟩, (ih (argNum + 1) own connection').mpr
          ⟨own', switched, kept, last⟩⟩
    · simp only [List.map_cons, parseFrom, parseOpt, switches, rereadVia, if_neg again, List.length_cons, count,
        except_bind_ok_iff]
      constructor
      · rintro ⟨_, ⟨own₁, first, same⟩, run⟩
        cases same
        obtain ⟨own', switched, kept, last⟩ := (ih (argNum + 1) own₁ connection).mp run
        exact ⟨own', ⟨own₁, first, switched⟩, kept, last⟩
      · rintro ⟨own', ⟨own₁, first, switched⟩, kept, last⟩
        exact ⟨⟨own₁, connection⟩, ⟨own₁, first, rfl⟩, (ih (argNum + 1) own₁ connection).mpr
          ⟨own', switched, kept, last⟩⟩

/-- The suffix of a command line that names its connection. -/
def viaSuffix (words : List String) : List ArgpItem := .word "via" :: words.map .word

theorem parse_ok_iff {items : List ArgpItem} (plain : ArgpItem.NoVia items) {result : CmdArgs β} :
    cmd.parse drivers items = .ok result ↔ ∃ own, cmd.read 0 items cmd.start = .ok own ∧
      cmd.finish (ArgpItem.words items) own = .ok result.own ∧ result.connection = connectionArgs := by
  have whole := @parseFrom_append β cmd drivers items [] plain 0 cmd.start connectionArgs result
  rw [List.append_nil, Nat.zero_add] at whole
  rw [parse, whole]
  simp only [parseFrom, parseOpt, except_bind_ok_iff]
  constructor
  · rintro ⟨own, read, own', last, same⟩
    cases same
    exact ⟨own, read, last, rfl⟩
  · rintro ⟨own, read, last, none⟩
    refine ⟨own, read, result.own, last, ?_⟩
    rw [← none]
    rfl

theorem parse_via_ok_iff {items : List ArgpItem} (plain : ArgpItem.NoVia items) {words : List String}
    {connection : ConnectionArgs} (valid : cmdParseVia drivers words connectionArgs = .ok connection)
    {result : CmdArgs β} : cmd.parse drivers (items ++ viaSuffix words) = .ok result ↔
      ∃ own own', cmd.read 0 items cmd.start = .ok own ∧
        cmd.switches (ArgpItem.words items + 1) words own = .ok own' ∧
        rereadVia drivers words connection = .ok result.connection ∧
        cmd.finish (ArgpItem.words items + 1 + words.length) own' = .ok result.own := by
  have via : argpVia drivers words connectionArgs = .ok connection := by rw [argpVia, valid]
  rw [parse, parseFrom_append plain, Nat.zero_add]
  simp only [viaSuffix, parseFrom, parseOpt, if_true, ArgpItem.flatMap_argv, except_bind_ok_iff, via]
  constructor
  · rintro ⟨own, read, _, ⟨_, same, same'⟩, run⟩
    cases same
    cases same'
    obtain ⟨own', switched, kept, last⟩ := (parseFrom_words _ own connection).mp run
    exact ⟨own, own', read, switched, kept, last⟩
  · rintro ⟨own, own', read, switched, kept, last⟩
    exact ⟨own, read, ⟨own, connection⟩, ⟨connection, rfl, rfl⟩,
      (parseFrom_words _ own connection).mpr ⟨own', switched, kept, last⟩⟩

/-- The suffix does not decide whether the command line is accepted, and an accepted one has the arguments
it would have without, and the connection that the suffix names. -/
def ViaNeutral (cmd : ViaCommand β) (drivers : List BridgeDriver) (items : List ArgpItem) (words : List String)
    (connection : ConnectionArgs) : Prop :=
  ((∃ result, cmd.parse drivers (items ++ viaSuffix words) = .ok result) ↔
    ∃ result, cmd.parse drivers items = .ok result) ∧
  ∀ alone result, cmd.parse drivers items = .ok alone → cmd.parse drivers (items ++ viaSuffix words) = .ok result →
    result.own = alone.own ∧ result.connection = connection

section
variable {items : List ArgpItem} {words : List String} {connection : ConnectionArgs} {own own' r : β}
variable (plain : ArgpItem.NoVia items) (valid : cmdParseVia drivers words connectionArgs = .ok connection)
include plain valid

/-- Where the items before the suffix are refused, the suffix does not matter. -/
theorem viaNeutral_of_refused (refused : ∀ own, cmd.read 0 items cmd.start ≠ .ok own) :
    cmd.ViaNeutral drivers items words connection := by
  refine ⟨⟨?_, ?_⟩, fun alone _ run => ?_⟩
  · rintro ⟨result, run⟩
    obtain ⟨own, _, read, _⟩ := (parse_via_ok_iff plain valid).mp run
    exact absurd read (refused own)
  · rintro ⟨result, run⟩
    obtain ⟨own, read, _⟩ := (parse_ok_iff plain).mp run
    exact absurd read (refused own)
  · obtain ⟨own, read, _⟩ := (parse_ok_iff plain).mp run
    exact absurd read (refused own)

variable (read : cmd.read 0 items cmd.start = .ok own)
include read

omit valid in
theorem parse_alone_iff {result : CmdArgs β} : cmd.parse drivers items = .ok result ↔
    cmd.finish (ArgpItem.words items) own = .ok result.own ∧ result.connection = connectionArgs := by
  rw [parse_ok_iff plain, read]
  constructor
  · rintro ⟨_, same, last⟩
    cases same
    exact last
  · exact fun last => ⟨own, rfl, last⟩

theorem parse_suffix_iff {result : CmdArgs β} : cmd.parse drivers (items ++ viaSuffix words) = .ok result ↔
    ∃ own', cmd.switches (ArgpItem.words items + 1) words own = .ok own' ∧
      rereadVia drivers words connection = .ok result.connection ∧
      cmd.finish (ArgpItem.words items + 1 + words.length) own' = .ok result.own := by
  rw [parse_via_ok_iff plain valid, read]
  constructor
  · rintro ⟨_, own', same, rest⟩
    cases same
    exact ⟨own', rest⟩
  · exact fun ⟨own', rest⟩ => ⟨own, own', rfl, rest⟩

/-- Refused with and without the suffix. -/
theorem viaNeutral_of_both (alone : ∀ r, cmd.finish (ArgpItem.words items) own ≠ .ok r)
    (suffix : ∀ own' r, cmd.switches (ArgpItem.words items + 1) words own = .ok own' →
      cmd.finish (ArgpItem.words items + 1 + words.length) own' ≠ .ok r) :
    cmd.ViaNeutral drivers items words connection := by
  refine ⟨⟨?_, ?_⟩, fun result _ run => ?_⟩
  · rintro ⟨result, run⟩
    obtain ⟨own', switched, _, last⟩ := (parse_suffix_iff plain valid read).mp run
    exact absurd last (suffix own' _ switched)
  · rintro ⟨result, run⟩
    exact absurd ((parse_alone_iff plain read).mp run).1 (alone _)
  · exact absurd ((parse_alone_iff plain read).mp run).1 (alone _)

/-- Accepted without the suffix, and refused with it. -/
theorem not_viaNeutral_of_alone (alone : cmd.finish (ArgpItem.words items) own = .ok r)
    (suffix : ∀ own' r, cmd.switches (ArgpItem.words items + 1) words own = .ok own' →
      cmd.finish (ArgpItem.words items + 1 + words.length) own' ≠ .ok r) :
    ¬ cmd.ViaNeutral drivers items words connection := by
  rintro ⟨same, _⟩
  obtain ⟨result, run⟩ := same.mpr ⟨⟨r, connectionArgs⟩, (parse_alone_iff plain read).mpr ⟨alone, rfl⟩⟩
  obtain ⟨own', switched, _, last⟩ := (parse_suffix_iff plain valid read).mp run
  exact suffix own' _ switched last

/-- Refused without the suffix, whose words make up for those that are missing. -/
theorem viaNeutral_iff_of_suffix (alone : ∀ r, cmd.finish (ArgpItem.words items) own ≠ .ok r)
    (switched : cmd.switches (ArgpItem.words items + 1) words own = .ok own')
    (suffix : cmd.finish (ArgpItem.words items + 1 + words.length) own' = .ok r) :
    cmd.ViaNeutral drivers items words connection ↔ ∀ c, rereadVia drivers words connection ≠ .ok c := by
  constructor
  · rintro ⟨same, _⟩ c reread
    obtain ⟨result, run⟩ := same.mp ⟨⟨r, c⟩, (parse_suffix_iff plain valid read).mpr ⟨own', switched, reread, suffix⟩⟩
    exact alone _ ((parse_alone_iff plain read).mp run).1
  · intro lost
    refine ⟨⟨?_, ?_⟩, fun result _ run => ?_⟩
    · rintro ⟨result, run⟩
      obtain ⟨_, _, reread, _⟩ := (parse_suffix_iff plain valid read).mp run
      exact absurd reread (lost _)
    · rintro ⟨result, run⟩
      exact absurd ((parse_alone_iff plain read).mp run).1 (alone _)
    · exact absurd ((parse_alone_iff plain read).mp run).1 (alone _)

/-- The words of the suffix pass through the switch, and the check at the end is the same with them. -/
theorem viaNeutral_iff_of_passed (switched : cmd.switches (ArgpItem.words items + 1) words own = .ok own)
    (same : cmd.finish (ArgpItem.words items + 1 + words.length) own = cmd.finish (ArgpItem.words items) own) :
    cmd.ViaNeutral drivers items words connection ↔ (∀ r, cmd.finish (ArgpItem.words items) own ≠ .ok r) ∨
      rereadVia drivers words connection = .ok connection := by
  have suffixed {result : CmdArgs β} : cmd.parse drivers (items ++ viaSuffix words) = .ok result ↔
      rereadVia drivers words connection = .ok result.connection ∧
        cmd.finish (ArgpItem.words items) own = .ok result.own := by
    rw [parse_suffix_iff plain valid read, ← same]
    constructor
    · rintro ⟨_, here, rest⟩
      rw [switched] at here
      cases here
      exact rest
    · exact fun rest => ⟨own, switched, rest⟩
  have unsuffixed {result : CmdArgs β} : cmd.parse drivers items = .ok result ↔
      cmd.finish (ArgpItem.words items) own = .ok result.own ∧ result.connection = connectionArgs :=
    parse_alone_iff plain read
  constructor
  · rintro ⟨both, agree⟩
    by_cases alone : ∃ r, cmd.finish (ArgpItem.words items) own = .ok r
    · obtain ⟨r, last⟩ := alone
      have accepted := unsuffixed.mpr (show _ ∧ (⟨r, connectionArgs⟩ : CmdArgs β).connection = _ from ⟨last, rfl⟩)
      obtain ⟨result, run⟩ := both.mpr ⟨_, accepted⟩
      have reread := (suffixed.mp run).1
      rw [(agree _ _ accepted run).2] at reread
      exact Or.inr reread
    · exact Or.inl fun r last => alone ⟨r, last⟩
  · rintro (refused | reread)
    · refine ⟨⟨?_, ?_⟩, fun result _ run => ?_⟩
      · rintro ⟨result, run⟩
        exact absurd (suffixed.mp run).2 (refused _)
      · rintro ⟨result, run⟩
        exact absurd (unsuffixed.mp run).1 (refused _)
      · exact absurd (unsuffixed.mp run).1 (refused _)
    · refine ⟨⟨?_, ?_⟩, fun alone result run run' => ?_⟩
      · rintro ⟨result, run⟩
        exact ⟨⟨result.own, connectionArgs⟩, unsuffixed.mpr ⟨(suffixed.mp run).2, rfl⟩⟩
      · rintro ⟨result, run⟩
        exact ⟨⟨result.own, connection⟩, suffixed.mpr ⟨reread, (unsuffixed.mp run).1⟩⟩
      · obtain ⟨kept, last⟩ := suffixed.mp run'
        have last' := (unsuffixed.mp run).1
        rw [last] at last'
        rw [reread] at kept
        exact ⟨Except.ok.inj last', (Except.ok.inj kept).symm⟩

/-- Accepted with the suffix and without it, with the same arguments. -/
theorem viaNeutral_iff_kept (switched : cmd.switches (ArgpItem.words items + 1) words own = .ok own)
    (suffix : cmd.finish (ArgpItem.words items + 1 + words.length) own = .ok r)
    (alone : cmd.finish (ArgpItem.words items) own = .ok r) :
    cmd.ViaNeutral drivers items words connection ↔ rereadVia drivers words connection = .ok connection := by
  rw [viaNeutral_iff_of_passed plain valid read switched (suffix.trans alone.symm)]
  exact or_iff_right fun refused => refused r alone

end

end ViaCommand

/-- What the defaults meet, and each step of the parser keeps, the parsed arguments meet. -/
theorem ViaCommand.parse_own {β : Type} {cmd : ViaCommand β} {drivers : List BridgeDriver} {P : β → Prop}
    (start : P cmd.start) (option : ∀ key arg own own', P own → cmd.option key arg own = .ok own' → P own')
    (switch : ∀ arg argNum own own', P own → cmd.switch arg argNum own = .ok own' → P own')
    (finish : ∀ argNum own own', P own → cmd.finish argNum own = .ok own' → P own') {items : List ArgpItem}
    {args : CmdArgs β} (parsed : cmd.parse drivers items = .ok args) : P args.own := by
  have parses (argNum : Nat) (arguments : CmdArgs β) (here : P arguments.own)
      (run : cmd.parseFrom drivers argNum items arguments = .ok args) : P args.own := by
    clear parsed
    induction items generalizing argNum arguments with
    | nil =>
      obtain ⟨own, last, same⟩ := except_bind_ok_iff.mp run
      cases same
      exact finish argNum _ own here last
    | cons item rest ih =>
      cases item with
      | option key arg argv =>
        obtain ⟨own, first, run⟩ := except_bind_ok_iff.mp run
        exact ih argNum _ (option key arg _ own here first) run
      | word arg =>
        obtain ⟨arguments', first, run⟩ := except_bind_ok_iff.mp run
        refine ih (argNum + 1) arguments' ?_ run
        simp only [ViaCommand.parseOpt] at first
        split at first
        · obtain ⟨connection, _, same⟩ := except_bind_ok_iff.mp first
          cases same
          exact here
        · obtain ⟨own, step, same⟩ := except_bind_ok_iff.mp first
          cases same
          exact switch arg argNum _ own here step
  exact parses 0 _ start parsed

end Culvert
