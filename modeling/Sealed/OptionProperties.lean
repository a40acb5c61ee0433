import Sealed.OpenCommands

/-! The grammar of the options, and its agreement with the two loops that parse them. -/

set_option autoImplicit false

namespace Sealed

open Foundation

namespace Cli

/-- What an option with its value, or an argument on its own, stands for. -/
inductive Item where
  | unlockKey (value : List UInt8)
  | name (value : List UInt8)
  | output (value : List UInt8)
  | positional (arg : List UInt8)

namespace Item

/-- The arguments of an item. -/
def args : Item → List (List UInt8)
  | .unlockKey value => [ascii "--unlock-key", value]
  | .name value => [ascii "--name", value]
  | .output value => [ascii "--output", value]
  | .positional arg => [arg]

/-- The items that a setting of `parse_options` allows. -/
def Allowed (allowName allowOutput : Bool) : Item → Prop
  | .unlockKey _ => True
  | .name value => allowName = true ∧ utf8Valid value = true
  | .output _ => allowOutput = true
  | .positional arg => ¬ (utf8Valid arg = true ∧ ascii "-" <+: arg)

def positional? : Item → Option (List UInt8)
  | .positional arg => some arg
  | _ => none

def unlockKey? : Item → Option (List UInt8)
  | .unlockKey value => some value
  | _ => none

def name? : Item → Option (List UInt8)
  | .name value => some value
  | _ => none

def output? : Item → Option (List UInt8)
  | .output value => some value
  | _ => none

theorem length_args_pos (item : Item) : 0 < item.args.length := by
  cases item <;> simp [args]

theorem args_append_ne_nil (item : Item) (rest : List (List UInt8)) : item.args ++ rest ≠ [] := by
  cases item <;> simp [args]

end Item

/-- The positionals in order, and the last value of each option. -/
def optionsOf (items : List Item) : Options where
  positionals := items.filterMap Item.positional?
  unlockPath := (items.filterMap Item.unlockKey?).getLast?.map Path.ofBytes
  contactAlias := (items.filterMap Item.name?).getLast?
  output := (items.filterMap Item.output?).getLast?.map Path.ofBytes

/-- The arguments split into allowed items. -/
def Splits (allowName allowOutput : Bool) (args : List (List UInt8)) (items : List Item) : Prop :=
  (∀ item ∈ items, item.Allowed allowName allowOutput) ∧ args = items.flatMap Item.args

/-- What the loop keeps of an item. -/
def Options.add (options : Options) : Item → Options
  | .unlockKey value => { options with unlockPath := some (.ofBytes value) }
  | .name value => { options with contactAlias := some value }
  | .output value => { options with output := some (.ofBytes value) }
  | .positional arg => { options with positionals := options.positionals ++ [arg] }

theorem optionsOf_append (items : List Item) (item : Item) :
    optionsOf (items ++ [item]) = (optionsOf items).add item := by
  cases item <;>
    simp [optionsOf, Options.add, List.filterMap_append, Item.positional?, Item.unlockKey?,
      Item.name?, Item.output?]

variable {allowName allowOutput : Bool}

theorem option_dashed : ∀ option ∈ [ascii "--unlock-key", ascii "--name", ascii "--output"],
    fromUtf8 option = some option ∧ ascii "-" <+: option := by
  decide +kernel

theorem options_distinct : ascii "--unlock-key" ≠ ascii "--name" ∧
    ascii "--unlock-key" ≠ ascii "--output" ∧ ascii "--name" ≠ ascii "--output" := by
  decide +kernel

theorem not_allowed_positional {option : List UInt8}
    (member : option ∈ [ascii "--unlock-key", ascii "--name", ascii "--output"]) :
    ¬ Item.Allowed allowName allowOutput (.positional option) := by
  obtain ⟨text, dashed⟩ := option_dashed option member
  exact fun allowed => allowed ⟨(fromUtf8_eq_some_iff.1 text).1, dashed⟩

/-- One turn of the loop consumes an allowed item. -/
theorem parseOptionsFrom_item {item : Item} (allowed : item.Allowed allowName allowOutput)
    (options : Options) (rest : List (List UInt8)) :
    parseOptionsFrom allowName allowOutput options (item.args ++ rest) =
      parseOptionsFrom allowName allowOutput (options.add item) rest := by
  obtain ⟨named, written, apart⟩ := options_distinct
  cases item with
  | unlockKey value =>
      have text := (option_dashed (ascii "--unlock-key") (by simp)).1
      simp [Item.args, parseOptionsFrom, text, Options.add]
  | name value =>
      obtain ⟨rfl, valid⟩ := allowed
      have text := (option_dashed (ascii "--name") (by simp)).1
      have read : fromUtf8 value = some value := fromUtf8_eq_some_iff.2 ⟨valid, rfl⟩
      simp [Item.args, parseOptionsFrom, text, Ne.symm named, read, Options.add]
  | output value =>
      obtain rfl : allowOutput = true := allowed
      have text := (option_dashed (ascii "--output") (by simp)).1
      simp [Item.args, parseOptionsFrom, text, Ne.symm written, Ne.symm apart, Options.add]
  | positional arg =>
      rw [Item.args, List.singleton_append]
      conv_lhs => unfold parseOptionsFrom
      cases read : fromUtf8 arg with
      | none => rfl
      | some text =>
          obtain ⟨valid, rfl⟩ := fromUtf8_eq_some_iff.1 read
          have plain : ¬ ascii "-" <+: arg := fun dashed => allowed ⟨valid, dashed⟩
          have other : ∀ option ∈ [ascii "--unlock-key", ascii "--name", ascii "--output"],
              arg ≠ option := by
            intro option member same
            exact not_allowed_positional member (same ▸ allowed)
          simp only [List.mem_cons, List.not_mem_nil, or_false, forall_eq_or_imp, forall_eq]
            at other
          simp [other, List.isPrefixOf_iff_prefix, plain, Options.add]

/-- Every turn of a loop that succeeds consumes an allowed item. -/
theorem item_of_parseOptionsFrom {options result : Options} {arg : List UInt8}
    {args : List (List UInt8)}
    (parsed : parseOptionsFrom allowName allowOutput options (arg :: args) = .ok result) :
    ∃ item rest, item.Allowed allowName allowOutput ∧ arg :: args = item.args ++ rest ∧
      parseOptionsFrom allowName allowOutput (options.add item) rest = .ok result := by
  unfold parseOptionsFrom at parsed
  cases read : fromUtf8 arg with
  | none =>
      have invalid : ¬ utf8Valid arg = true := by
        intro valid
        rw [fromUtf8_eq_some_iff.2 ⟨valid, rfl⟩] at read
        cases read
      rw [read] at parsed
      exact ⟨.positional arg, args, fun dashed => invalid dashed.1, rfl, parsed⟩
  | some text =>
      obtain ⟨valid, rfl⟩ := fromUtf8_eq_some_iff.1 read
      simp only [read] at parsed
      split at parsed
      · rename_i unlock
        subst unlock
        cases args with
        | nil => cases parsed
        | cons value rest => exact ⟨.unlockKey value, rest, trivial, rfl, parsed⟩
      · split at parsed
        · rename_i named
          obtain ⟨rfl, setting⟩ := named
          cases args with
          | nil => cases parsed
          | cons value rest =>
              simp only at parsed
              split at parsed
              · cases parsed
              · rename_i name accepted
                obtain ⟨valid, rfl⟩ := fromUtf8_eq_some_iff.1 accepted
                exact ⟨.name value, rest, ⟨setting, valid⟩, rfl, parsed⟩
        · split at parsed
          · rename_i written
            obtain ⟨rfl, setting⟩ := written
            cases args with
            | nil => cases parsed
            | cons value rest => exact ⟨.output value, rest, setting, rfl, parsed⟩
          · split at parsed
            · cases parsed
            · rename_i plain
              rw [List.isPrefixOf_iff_prefix] at plain
              exact ⟨.positional arg, args, fun dashed => plain dashed.2, rfl, parsed⟩

/-- The loop of `parse_options`, behind the items that it has consumed. The induction is on
the number of arguments, for an item has one or two. -/
theorem splits_of_parseOptionsFrom {args : List (List UInt8)} {consumed : List Item}
    {options : Options}
    (parsed : parseOptionsFrom allowName allowOutput (optionsOf consumed) args = .ok options) :
    ∃ items, Splits allowName allowOutput args items ∧ options = optionsOf (consumed ++ items) := by
  induction length : args.length using Nat.strong_induction_on generalizing args consumed with
  | _ number ih =>
    cases args with
    | nil =>
        cases parsed
        exact ⟨[], ⟨nofun, rfl⟩, by rw [List.append_nil]⟩
    | cons arg args =>
        obtain ⟨item, rest, allowed, split, later⟩ := item_of_parseOptionsFrom parsed
        have shorter : rest.length < number := by
          have consumed := item.length_args_pos
          rw [← length, split, List.length_append]
          omega
        rw [← optionsOf_append] at later
        obtain ⟨items, ⟨others, whole⟩, same⟩ := ih rest.length shorter later rfl
        refine ⟨item :: items, ⟨?_, ?_⟩, ?_⟩
        · simpa using ⟨allowed, others⟩
        · rw [split, whole, List.flatMap_cons]
        · rw [same, List.append_assoc, List.singleton_append]

theorem parseOptionsFrom_items {items consumed : List Item}
    (allowed : ∀ item ∈ items, item.Allowed allowName allowOutput) :
    parseOptionsFrom allowName allowOutput (optionsOf consumed) (items.flatMap Item.args) =
      .ok (optionsOf (consumed ++ items)) := by
  induction items generalizing consumed with
  | nil => simp [parseOptionsFrom]
  | cons item items ih =>
      rw [List.flatMap_cons, parseOptionsFrom_item (allowed item (by simp)), ← optionsOf_append,
        ih fun other member => allowed other (by simp [member])]
      simp

theorem parseOptions_eq_ok_iff {args : List (List UInt8)} {options : Options} :
    parseOptions allowName allowOutput args = .ok options ↔
      ∃ items, Splits allowName allowOutput args items ∧ options = optionsOf items := by
  have start : optionsOf [] = ⟨[], none, none, none⟩ := rfl
  rw [parseOptions, ← start]
  constructor
  · exact splits_of_parseOptionsFrom
  · rintro ⟨items, ⟨allowed, rfl⟩, rfl⟩
    rw [parseOptionsFrom_items allowed, List.nil_append]

/-- The first argument tells which item it belongs to. -/
theorem args_append_inj {left right : Item} {leftRest rightRest : List (List UInt8)}
    (leftAllowed : left.Allowed allowName allowOutput)
    (rightAllowed : right.Allowed allowName allowOutput)
    (same : left.args ++ leftRest = right.args ++ rightRest) :
    left = right ∧ leftRest = rightRest := by
  obtain ⟨named, written, apart⟩ := options_distinct
  have plain := @not_allowed_positional allowName allowOutput
  cases left <;> cases right <;> simp_all [Item.args]

theorem Splits.unique {args : List (List UInt8)} {left right : List Item}
    (first : Splits allowName allowOutput args left)
    (second : Splits allowName allowOutput args right) : left = right := by
  obtain ⟨leftAllowed, rfl⟩ := first
  obtain ⟨rightAllowed, same⟩ := second
  induction left generalizing right with
  | nil =>
      cases right with
      | nil => rfl
      | cons item items => exact absurd same.symm (item.args_append_ne_nil _)
  | cons item items ih =>
      cases right with
      | nil => exact absurd same (item.args_append_ne_nil _)
      | cons other others =>
          obtain ⟨rfl, rest⟩ := args_append_inj (leftAllowed item (by simp))
            (rightAllowed other (by simp)) same
          rw [ih (fun item member => leftAllowed item (by simp [member]))
            (fun item member => rightAllowed item (by simp [member])) rest]

/-! ## The arguments of `open` -/

/-- The first loop of `parse_open_options` takes `--keep` out, wherever it stands, and refuses
a second one. -/
theorem takeKeep_eq_ok_iff {args filtered : List (List UInt8)} {before keep : Bool} :
    takeKeep before args = .ok (filtered, keep) ↔
      args.count (ascii "--keep") + before.toNat ≤ 1 ∧
        filtered = args.filter (· ≠ ascii "--keep") ∧
        keep = (before || decide (ascii "--keep" ∈ args)) := by
  induction args generalizing before filtered keep with
  | nil => cases before <;> simp [takeKeep, eq_comm]
  | cons arg args ih =>
      unfold takeKeep
      by_cases taken : arg = ascii "--keep"
      · subst taken
        cases before with
        | true => simp
        | false =>
            simp only [if_true, Bool.false_eq_true, if_false, ih]
            simp
      · rw [if_neg taken]
        simp only [Checked.bind_eq_ok, Checked.pure_eq_ok, Except.ok.injEq, Prod.exists,
          Prod.mk.injEq, ih]
        have other : ascii "--keep" ≠ arg := Ne.symm taken
        constructor
        · rintro ⟨rest, kept, ⟨once, rfl, rfl⟩, rfl, rfl⟩
          simp [taken, other, once]
        · rintro ⟨once, rfl, rfl⟩
          simp_all

theorem output_eq_none {args : List (List UInt8)} {items : List Item}
    (splits : Splits allowName false args items) : (optionsOf items).output = none := by
  have none : ∀ item ∈ items, item.output? = none := by
    intro item member
    have allowed := splits.1 item member
    cases item with
    | output value => cases allowed
    | unlockKey | name | positional => rfl
  simp [optionsOf, List.filterMap_eq_nil_iff.2 none]

theorem parseOpenOptions_eq_ok_iff {args : List (List UInt8)} {options : Options} {keep : Bool} :
    parseOpenOptions args = .ok (options, keep) ↔
      args.count (ascii "--keep") ≤ 1 ∧
        (∃ items, Splits false false (args.filter (· ≠ ascii "--keep")) items ∧
          options = optionsOf items) ∧
        keep = decide (ascii "--keep" ∈ args) := by
  simp only [parseOpenOptions, Checked.bind_eq_ok, Prod.exists, takeKeep_eq_ok_iff,
    parseOptions_eq_ok_iff, Checked.pure_eq_ok, Except.ok.injEq, Prod.mk.injEq]
  constructor
  · rintro ⟨filtered, kept, ⟨once, rfl, rfl⟩, parsed, ⟨items, splits, rfl⟩, _, _, rfl, rfl⟩
    exact ⟨by simpa using once, ⟨items, splits, rfl⟩, by simp⟩
  · rintro ⟨once, ⟨items, splits, rfl⟩, rfl⟩
    refine ⟨_, _, ⟨by simpa using once, rfl, rfl⟩, _, ⟨items, splits, rfl⟩, (), ?_, rfl, by simp⟩
    simp [output_eq_none splits]

theorem keep_of_acceptLetter {caller : Nat} {primitives : Primitives} {paths : StatePaths}
    {keep : Bool} {blobPath unlockPath : Path} {turns : List (FileSystem × CliOutcome)}
    {opening : Opening primitives} {trace : List CliMoment}
    (ran : runAmong caller (acceptLetter primitives paths keep blobPath unlockPath) turns =
      (some (.ok opening), trace)) : opening.keep = keep := by
  obtain ⟨⟨secrets, profile⟩, _, _, _, _, ran₁, _⟩ := Program.runAmong_andThen_done ran
  obtain ⟨contacts, _, _, _, _, ran₂, _⟩ := Program.runAmong_andThen_done ran₁
  obtain ⟨blob, _, _, _, _, ran₃, _⟩ := Program.runAmong_andThen_done ran₂
  split at ran₃
  · cases ran₃
    rfl
  · cases ran₃

theorem keep_of_commandOpenLetter {caller : Nat} {primitives : Primitives}
    {environment : Environment} {paths : StatePaths} {args : List (List UInt8)}
    {turns : List (FileSystem × CliOutcome)} {opening : Opening primitives}
    {trace : List CliMoment}
    (ran : runAmong caller (commandOpenLetter environment primitives paths args) turns =
      (some (.ok opening), trace)) :
    ∃ options, parseOpenOptions args = .ok (options, opening.keep) := by
  obtain ⟨⟨options, keep⟩, _, _, _, parsed, ran₁, _⟩ := Program.runAmong_andThen_done ran
  obtain ⟨blobPath, _, _, _, _, ran₂, _⟩ := Program.runAmong_andThen_done ran₁
  obtain ⟨unlockPath, _, _, _, _, ran₃, _⟩ := Program.runAmong_andThen_done ran₂
  have accepted : parseOpenOptions args = .ok (options, keep) := by
    have first := congrArg Prod.fst parsed
    exact Option.some.inj first
  have kept : opening.keep = keep := keep_of_acceptLetter ran₃
  exact ⟨options, kept ▸ accepted⟩

/-- With `--keep` among its arguments the command removes nothing, and changes nothing else
either. -/
theorem commandOpen_keeps {primitives : Primitives} {environment : Environment}
    {paths : StatePaths} {args : List (List UInt8)} (kept : ascii "--keep" ∈ args) (caller : Nat)
    (turns : List (FileSystem × CliOutcome)) :
    ∀ moment ∈ (runAmong caller (commandOpen environment primitives paths args) turns).2,
      (∀ path, moment.event.request ≠ .file (.removeFile path)) ∧
        moment.after = moment.before := by
  have consumes : OnlyShown Undisturbed caller (commandOpenLetter environment primitives paths args)
      (commandOpen environment primitives paths args) :=
    onlyShown_deliverLetter (opens_commandOpenLetter environment paths args)
  obtain ⟨changes, removals⟩ := consumes turns
  intro moment member
  have stays : ∀ path, moment.event.request ≠ .file (.removeFile path) := by
    intro path request
    obtain ⟨front, back, trace⟩ := List.append_of_mem member
    obtain ⟨opening, _, _, ran, _, _, consumed, _⟩ := removals front moment back path trace request
    obtain ⟨options, parsed⟩ := keep_of_commandOpenLetter ran
    have keep := (parseOpenOptions_eq_ok_iff.1 parsed).2.2
    rw [consumed, decide_eq_true kept] at keep
    cases keep
  refine ⟨stays, ?_⟩
  rcases changes moment member with same | ⟨path, request⟩
  · exact same
  · exact absurd request (stays path)

/-- The options are what the grammar makes of the arguments, each of them consumed once, and
`open` removes nothing where `--keep` is among its arguments. -/
theorem parseOptions_follows_grammar :
    (∀ allowName allowOutput args options,
      parseOptions allowName allowOutput args = .ok options ↔
        ∃ items, Splits allowName allowOutput args items ∧ options = optionsOf items) ∧
    (∀ allowName allowOutput args left right, Splits allowName allowOutput args left →
      Splits allowName allowOutput args right → left = right) ∧
    (∀ args options keep, parseOpenOptions args = .ok (options, keep) ↔
      args.count (ascii "--keep") ≤ 1 ∧
        (∃ items, Splits false false (args.filter (· ≠ ascii "--keep")) items ∧
          options = optionsOf items) ∧
        keep = decide (ascii "--keep" ∈ args)) ∧
    ∀ caller primitives environment paths args turns, ascii "--keep" ∈ args →
      ∀ moment ∈ (runAmong caller (commandOpen environment primitives paths args) turns).2,
        (∀ path, moment.event.request ≠ .file (.removeFile path)) ∧
          moment.after = moment.before := by
  refine ⟨?_, ?_, ?_, ?_⟩
  · intro allowName allowOutput args options
    exact parseOptions_eq_ok_iff
  · intro allowName allowOutput args left right first second
    exact first.unique second
  · intro args options keep
    exact parseOpenOptions_eq_ok_iff
  · intro caller primitives environment paths args turns kept
    exact commandOpen_keeps kept caller turns

end Cli

namespace Sample

/-- The letter is opened and kept, with the option in front of its path. -/
def keeping : List (List UInt8) := [ascii "--keep", letterPath.toBytes]

def undisturbed : List (FileSystem × CliOutcome) :=
  .replicate 30 (delivered, ⟨.carriedOut 5000, [], none⟩)

end Sample

theorem Cli.parseOptions_follows_grammar_sample :
    ascii "--keep" ∈ Sample.keeping ∧
    (runAmong 0 (commandOpen Sample.environment .transparent (.fromRoot Sample.root)
      Sample.keeping) Sample.undisturbed).1 = some (.ok ()) ∧
    ∀ moment ∈ (runAmong 0 (commandOpen Sample.environment .transparent (.fromRoot Sample.root)
        Sample.keeping) Sample.undisturbed).2,
      (∀ path, moment.event.request ≠ .file (.removeFile path)) ∧
        moment.after = moment.before := by
  have kept : ascii "--keep" ∈ Sample.keeping := by simp [Sample.keeping]
  refine ⟨kept, by decide +kernel, ?_⟩
  exact parseOptions_follows_grammar.2.2.2 0 .transparent Sample.environment
    (.fromRoot Sample.root) Sample.keeping Sample.undisturbed kept

end Sealed
