import Mathlib.Data.List.Basic
import Micro8080.CommandLine.Arguments

/-! # What arguments say

The arguments after a command are items, one after the other: an option with its value if it takes
one, or a path.  `Reads` divides a list of arguments into items, from left to right.  The lists that
make sense are those with one path among their items, wherever it stands, and every other list is
refused for what stands first where no item can (`options_read`).

The key is that what a draft holds after some items is told by the items alone, since each option
looks at nothing but its own value (`foldl_take`), and that the reader finds such items or a reason
to refuse, and nothing else (`explains_read`).
-/

namespace Micro8080.CommandLine

/-! ## Items -/

/-- Something that arguments say. -/
inductive Item where
  | labels (path : String)
  | limit (n : Nat)
  | verbose
  | json
  | input (path : String)
  deriving DecidableEq

namespace Item

def labels? : Item → Option String
  | labels path => some path
  | _ => none

def limit? : Item → Option Nat
  | limit n => some n
  | _ => none

def input? : Item → Option String
  | input path => some path
  | _ => none

end Item

/-- The paths of the input among some items. -/
abbrev inputs (items : List Item) : List String := items.filterMap Item.input?

def Dashed (arg : String) : Prop := arg.toList.head? = some '-'

instance (arg : String) : Decidable (Dashed arg) :=
  inferInstanceAs (Decidable (arg.toList.head? = some '-'))

/-- The options that a command knows, and how they are written. -/
inductive Written (command : Command) : Token → String → Prop
  | help {arg} (name : arg = "-h" ∨ arg = "--help") : Written command .help arg
  | labels {arg} (name : arg = "-l" ∨ arg = "--labels") : Written command .labels arg
  | verbose {arg} (known : command = .run ∨ command = .step)
      (name : arg = "-v" ∨ arg = "--verbose") : Written command .verbose arg
  | json {arg} (known : command = .run ∨ command = .step)
      (name : arg = "-j" ∨ arg = "--json") : Written command .json arg
  | max {arg} (known : command = .run) (name : arg = "-m" ∨ arg = "--max") :
      Written command .limit arg
  | count {arg} (known : command = .step) (name : arg = "-n" ∨ arg = "--count") :
      Written command .limit arg

/-- The arguments of one item.  The value of an option may be any argument, also one that looks like
an option, as long as it is a number where one is needed. -/
inductive Spells (command : Command) : List String → Item → Prop
  | labels {flag} (option : Written command .labels flag) (path : String) :
      Spells command [flag, path] (.labels path)
  | limit {flag text n} (option : Written command .limit flag) (value : number? text = some n) :
      Spells command [flag, text] (.limit n)
  | verbose {flag} (option : Written command .verbose flag) : Spells command [flag] .verbose
  | json {flag} (option : Written command .json flag) : Spells command [flag] .json
  | input {path} (plain : ¬ Dashed path) : Spells command [path] (.input path)

/-- The arguments of some items, from left to right. -/
inductive Reads (command : Command) : List String → List Item → Prop
  | nil : Reads command [] []
  | cons {args rest item items} (spells : Spells command args item)
      (reads : Reads command rest items) : Reads command (args ++ rest) (item :: items)

/-- Why no item can stand here, after items with these paths. -/
inductive Refuses (command : Command) (paths : List String) : List String → UsageError → Prop
  | help {flag} (option : Written command .help flag) (rest : List String) :
      Refuses command paths (flag :: rest) .help
  | noPath {flag} (option : Written command .labels flag) :
      Refuses command paths [flag] (.missingValue "--labels")
  | noNumber {flag} (option : Written command .limit flag) :
      Refuses command paths [flag] (.missingValue flag)
  | badNumber {flag text} (option : Written command .limit flag) (value : number? text = none)
      (rest : List String) : Refuses command paths (flag :: text :: rest) (.invalidNumber flag text)
  | unknown {arg} (dashed : Dashed arg) (foreign : ∀ t, ¬ Written command t arg)
      (rest : List String) : Refuses command paths (arg :: rest) (.unknownOption arg)
  | second {path} (plain : ¬ Dashed path) (first : paths ≠ []) (rest : List String) :
      Refuses command paths (path :: rest) .multipleInputs
  | missing (none : paths = []) : Refuses command paths [] .missingInput

/-- The arguments are refused after some items, of which at most one is a path. -/
def Refused (command : Command) (args : List String) (e : UsageError) : Prop :=
  ∃ taken rest items, args = taken ++ rest ∧ Reads command taken items ∧
    (inputs items).length ≤ 1 ∧ Refuses command (inputs items) rest e

/-! ## Tokens -/

section Tokens

variable {command : Command} {arg : String} {t : Token}

theorem startsWith_dash_iff : arg.startsWith "-" = true ↔ Dashed arg := by
  rw [String.startsWith_string_iff, Dashed]
  cases arg.toList with
  | nil => simp
  | cons c cs => simp [eq_comm]

theorem Written.dashed (h : Written command t arg) : Dashed arg := by
  cases h with
  | help name | labels name => rcases name with rfl | rfl <;> rfl
  | verbose _ name | json _ name | max _ name | count _ name => rcases name with rfl | rfl <;> rfl

theorem Written.token (h : Written command t arg) : Token.of command arg = t := by
  cases h with
  | help name | labels name => rcases name with rfl | rfl <;> rfl
  | verbose known name | json known name =>
    rcases known with rfl | rfl <;> rcases name with rfl | rfl <;> rfl
  | max known name | count known name => subst known; rcases name with rfl | rfl <;> rfl

theorem Command.runs_iff : command.runs = true ↔ command = .run ∨ command = .step := by
  cases command <;> decide

theorem written_limit (h : arg ∈ command.limitOptions) : Written command .limit arg := by
  cases command with
  | run => exact .max rfl (by simpa [Command.limitOptions] using h)
  | step => exact .count rfl (by simpa [Command.limitOptions] using h)
  | disassemble => exact absurd h List.not_mem_nil

/-- An argument is an option that the command knows, or else its first character decides. -/
theorem token_cases (command : Command) (arg : String) :
    Written command (Token.of command arg) arg ∨
      (Token.of command arg = .unknown ∧ Dashed arg) ∨
      (Token.of command arg = .input ∧ ¬ Dashed arg) := by
  rw [Token.of]
  split
  next name => exact .inl (.help (by simpa using name))
  split
  next name => exact .inl (.labels (by simpa using name))
  split
  next name => exact .inl (.verbose (Command.runs_iff.1 name.1) (by simpa using name.2))
  split
  next name => exact .inl (.json (Command.runs_iff.1 name.1) (by simpa using name.2))
  split
  next name => exact .inl (written_limit name)
  split
  next dash => exact .inr (.inl ⟨rfl, startsWith_dash_iff.1 dash⟩)
  next plain => exact .inr (.inr ⟨rfl, fun dash => plain (startsWith_dash_iff.2 dash)⟩)

theorem Written.known (h : Written command t arg) : t ≠ .unknown ∧ t ≠ .input := by
  cases h <;> exact ⟨nofun, nofun⟩

theorem written_of_token (h : Token.of command arg = t) (known : t ≠ .unknown ∧ t ≠ .input) :
    Written command t arg := by
  rcases token_cases command arg with written | ⟨unknown, -⟩ | ⟨bare, -⟩
  · exact h ▸ written
  · exact absurd (h.symm.trans unknown) known.1
  · exact absurd (h.symm.trans bare) known.2

theorem token_unknown_iff :
    Token.of command arg = .unknown ↔ Dashed arg ∧ ∀ t, ¬ Written command t arg := by
  constructor
  · intro unknown
    refine ⟨?_, fun t written => written.known.1 (written.token.symm.trans unknown)⟩
    rcases token_cases command arg with written | ⟨-, dash⟩ | ⟨bare, -⟩
    · exact absurd unknown written.known.1
    · exact dash
    · exact absurd (unknown.symm.trans bare) nofun
  · rintro ⟨dash, foreign⟩
    rcases token_cases command arg with written | ⟨unknown, -⟩ | ⟨-, plain⟩
    · exact absurd written (foreign _)
    · exact unknown
    · exact absurd dash plain

theorem token_input_iff : Token.of command arg = .input ↔ ¬ Dashed arg := by
  rcases token_cases command arg with written | ⟨unknown, dash⟩ | ⟨bare, plain⟩
  · exact iff_of_false written.known.2 (not_not_intro written.dashed)
  · exact iff_of_false (unknown ▸ nofun) (not_not_intro dash)
  · exact iff_of_true bare plain

end Tokens

/-! ## Drafts -/

namespace Draft

/-- The draft after one more item. -/
def take (d : Draft) : Item → Draft
  | .labels path => { d with labels := some path }
  | .limit n => { d with limit := some n }
  | .verbose => { d with verbosity := min 255 (d.verbosity + 1) }
  | .json => { d with json := true }
  | .input path => { d with input := some path }

theorem foldl_take_last {α : Type} {field : Draft → Option α} {value? : Item → Option α}
    (sets : ∀ d item, field (d.take item) = (value? item).or (field d)) (items : List Item)
    (d : Draft) : field (items.foldl take d) = (items.filterMap value?).getLast?.or (field d) := by
  induction items generalizing d with
  | nil => rfl
  | cons item items ih =>
    rw [List.foldl_cons, ih, sets]
    cases value : value? item with
    | none => rw [List.filterMap_cons_none value, Option.none_or]
    | some v =>
      rw [List.filterMap_cons_some value, List.getLast?_cons]
      cases (items.filterMap value?).getLast? <;> rfl

theorem foldl_take_json (items : List Item) (d : Draft) :
    (items.foldl take d).json = (d.json || decide (.json ∈ items)) := by
  induction items generalizing d with
  | nil => simp
  | cons item items ih =>
    rw [List.foldl_cons, ih]
    cases item <;> simp [take]

theorem foldl_take_verbosity (items : List Item) (d : Draft) (capped : d.verbosity ≤ 255) :
    (items.foldl take d).verbosity = min 255 (d.verbosity + items.count .verbose) := by
  induction items generalizing d with
  | nil => exact (Nat.min_eq_right capped).symm
  | cons item items ih =>
    cases item with
    | verbose =>
      rw [List.foldl_cons, ih _ (Nat.min_le_left _ _), List.count_cons_self]
      simp only [take]
      omega
    | labels | limit | json | input =>
      rw [List.foldl_cons, ih _ (by exact capped), List.count_cons_of_ne (by simp)]
      rfl

/-- A draft tells the last value of each option, and how often more log output was asked for. -/
theorem foldl_take (items : List Item) :
    items.foldl take {} =
      { input := (inputs items).getLast?
        labels := (items.filterMap Item.labels?).getLast?
        limit := (items.filterMap Item.limit?).getLast?
        json := decide (.json ∈ items)
        verbosity := min 255 (items.count .verbose) } := by
  have last {α : Type} {field : Draft → Option α} {value? : Item → Option α}
      (start : field {} = none)
      (sets : ∀ d item, field (take d item) = (value? item).or (field d)) :
      field (items.foldl take {}) = (items.filterMap value?).getLast? := by
    rw [foldl_take_last sets, start, Option.or_none]
  have input : (items.foldl take {}).input = (inputs items).getLast? :=
    last rfl fun d item => by cases item <;> rfl
  have labels : (items.foldl take {}).labels = (items.filterMap Item.labels?).getLast? :=
    last rfl fun d item => by cases item <;> rfl
  have limit : (items.foldl take {}).limit = (items.filterMap Item.limit?).getLast? :=
    last rfl fun d item => by cases item <;> rfl
  have json := foldl_take_json items {}
  have verbosity := foldl_take_verbosity items {} (Nat.zero_le _)
  rw [Bool.false_or] at json
  rw [Nat.zero_add] at verbosity
  rw [← input, ← labels, ← limit, ← json, ← verbosity]

end Draft

/-! ## Reading -/

section Reading

variable {command : Command} {args rest : List String} {item : Item} {items : List Item} {d : Draft}

theorem Draft.paths_take (once : item.input?.isSome = true → d.input = none) (items : List Item) :
    (d.take item).input.toList ++ inputs items = d.input.toList ++ inputs (item :: items) := by
  cases item with
  | input path =>
    rw [once rfl]
    rfl
  | labels | limit | verbose | json => rfl

theorem Spells.read_append (h : Spells command args item)
    (once : item.input?.isSome = true → d.input = none) (rest : List String) :
    Draft.read command d (args ++ rest) = Draft.read command (d.take item) rest := by
  cases h with
  | labels option path =>
    rw [Draft.read.eq_def]
    simp only [List.cons_append, List.nil_append, option.token, Draft.take]
  | limit option value =>
    rw [Draft.read.eq_def]
    simp only [List.cons_append, List.nil_append, option.token, value, Draft.take]
  | verbose option | json option =>
    rw [Draft.read.eq_def]
    simp only [List.cons_append, List.nil_append, option.token, Draft.take]
  | input plain =>
    rw [Draft.read.eq_def]
    simp only [List.cons_append, List.nil_append, token_input_iff.2 plain, once rfl, Draft.take]

theorem Reads.read_append (h : Reads command args items)
    (few : (d.input.toList ++ inputs items).length ≤ 1) (rest : List String) :
    Draft.read command d (args ++ rest) = Draft.read command (items.foldl Draft.take d) rest := by
  induction h generalizing d with
  | nil => rfl
  | @cons args later item items spells reads ih =>
    have once : item.input?.isSome = true → d.input = none := by
      intro path
      obtain ⟨path, rfl⟩ : ∃ path, item = .input path := by
        cases item <;> simp_all [Item.input?]
      cases first : d.input with
      | none => rfl
      | some other => simp [inputs, Item.input?, first] at few
    rw [← Draft.paths_take once] at few
    rw [List.append_assoc, spells.read_append once, ih few, List.foldl_cons]

/-- How reading goes on from a draft: to the end of the arguments, or to where they are refused. -/
inductive Explains (command : Command) (d : Draft) :
    List String → Except UsageError Draft → Prop
  | reads {args : List String} {items : List Item} (reads : Reads command args items)
      (few : (d.input.toList ++ inputs items).length ≤ 1) :
      Explains command d args (.ok (items.foldl Draft.take d))
  | refuses {args rest : List String} {items : List Item} {e : UsageError}
      (reads : Reads command args items) (few : (d.input.toList ++ inputs items).length ≤ 1)
      (refuses : Refuses command (d.input.toList ++ inputs items) rest e) :
      Explains command d (args ++ rest) (.error e)

theorem Explains.cons {result : Except UsageError Draft} (spells : Spells command args item)
    (once : item.input?.isSome = true → d.input = none)
    (h : Explains command (d.take item) rest result) :
    Explains command d (args ++ rest) result := by
  cases h with
  | reads reads few =>
    rw [Draft.paths_take once] at few
    exact .reads (.cons spells reads) few
  | refuses reads few refuses =>
    rw [Draft.paths_take once] at few refuses
    rw [← List.append_assoc]
    exact .refuses (.cons spells reads) few refuses

theorem few_nil (d : Draft) : (d.input.toList ++ inputs []).length ≤ 1 := by
  cases d.input <;> simp

theorem Explains.stop {e : UsageError} (h : Refuses command d.input.toList args e) :
    Explains command d args (.error e) := by
  rw [← List.append_nil d.input.toList] at h
  have refused : Explains command d ([] ++ args) (.error e) := .refuses .nil (few_nil d) h
  exact refused

theorem explains_read (command : Command) (d : Draft) (args : List String) :
    Explains command d args (Draft.read command d args) := by
  fun_induction Draft.read command d args with
  | case1 d => exact .reads .nil (few_nil d)
  | case2 d arg rest token =>
    exact .stop (.help (written_of_token token ⟨nofun, nofun⟩) rest)
  | case3 d arg token =>
    exact .stop (.noPath (written_of_token token ⟨nofun, nofun⟩))
  | case4 d arg token path rest ih =>
    exact .cons (.labels (written_of_token token ⟨nofun, nofun⟩) path) nofun ih
  | case5 d arg rest token ih =>
    exact .cons (.verbose (written_of_token token ⟨nofun, nofun⟩)) nofun ih
  | case6 d arg rest token ih =>
    exact .cons (.json (written_of_token token ⟨nofun, nofun⟩)) nofun ih
  | case7 d arg token =>
    exact .stop (.noNumber (written_of_token token ⟨nofun, nofun⟩))
  | case8 d arg token text rest n value ih =>
    exact .cons (.limit (written_of_token token ⟨nofun, nofun⟩) value) nofun ih
  | case9 d arg token text rest value =>
    exact .stop (.badNumber (written_of_token token ⟨nofun, nofun⟩) value rest)
  | case10 d arg rest token =>
    obtain ⟨dash, foreign⟩ := token_unknown_iff.1 token
    exact .stop (.unknown dash foreign rest)
  | case11 d arg rest token path first =>
    exact .stop (.second (token_input_iff.1 token) (by simp [first]) rest)
  | case12 d arg rest token first ih =>
    exact .cons (.input (token_input_iff.1 token)) (fun _ => first) ih

/-- What cannot stand after a draft is refused by the reader, but for the end of the arguments. -/
theorem Refuses.read {paths : List String} {e : UsageError} (h : Refuses command paths rest e)
    (same : d.input.toList = paths) :
    Draft.read command d rest = .error e ∨
      rest = [] ∧ paths = [] ∧ e = .missingInput := by
  cases h with
  | help option rest =>
    rw [Draft.read.eq_def]
    simp only [option.token, true_or]
  | noPath option | noNumber option =>
    rw [Draft.read.eq_def]
    simp only [option.token, true_or]
  | badNumber option value rest =>
    rw [Draft.read.eq_def]
    simp only [option.token, value, true_or]
  | unknown dashed foreign rest =>
    rw [Draft.read.eq_def]
    simp only [token_unknown_iff.2 ⟨dashed, foreign⟩, true_or]
  | second plain first rest =>
    obtain ⟨path, found⟩ : ∃ path, d.input = some path := by
      cases found : d.input with
      | none => exact absurd (by rw [← same, found]; rfl) first
      | some path => exact ⟨path, rfl⟩
    rw [Draft.read.eq_def]
    simp only [token_input_iff.2 plain, found, true_or]
  | missing none => exact .inr ⟨rfl, none, rfl⟩

end Reading

/-! ## Options -/

section Options

variable {command : Command} {args : List String} {items : List Item} {path : String}

theorem input_foldl_take (few : (inputs items).length ≤ 1) :
    (items.foldl Draft.take {}).input.toList = inputs items := by
  rw [Draft.foldl_take]
  match paths : inputs items with
  | [] => rfl
  | [path] => rfl
  | _ :: _ :: _ => simp [paths] at few

theorem ofOptions_of_reads (h : Reads command args items) (one : inputs items = [path]) :
    Arguments.ofOptions command args =
      .ok { command
            input := path
            labels := (items.filterMap Item.labels?).getLast?
            limit := (items.filterMap Item.limit?).getLast?
            json := decide (.json ∈ items)
            verbosity := min 255 (items.count .verbose) } := by
  have few : (({} : Draft).input.toList ++ inputs items).length ≤ 1 := by
    rw [one]
    exact Nat.le_refl 1
  have read := h.read_append few []
  rw [List.append_nil, Draft.foldl_take, one] at read
  rw [Arguments.ofOptions, read]
  rfl

theorem ofArguments_of_reads {name : String} (named : Command.ofName? name = some command)
    (h : Reads command args items) (one : inputs items = [path]) :
    Request.ofArguments (name :: args) =
      .ok (.carryOut
        { command
          input := path
          labels := (items.filterMap Item.labels?).getLast?
          limit := (items.filterMap Item.limit?).getLast?
          json := decide (.json ∈ items)
          verbosity := min 255 (items.count .verbose) }) := by
  have unnamed : ∀ flag ∈ ["-h", "--help"], Command.ofName? flag = none := by decide
  have other : name ∉ ["-h", "--help"] := by
    intro help
    rw [unnamed name help] at named
    cases named
  rw [Request.ofArguments, if_neg other]
  simp only [named, ofOptions_of_reads h one]
  rfl

theorem ofOptions_of_refused {e : UsageError} (h : Refused command args e) :
    Arguments.ofOptions command args = .error e := by
  obtain ⟨taken, rest, items, rfl, reads, few, refuses⟩ := h
  have read := reads.read_append (d := {}) few rest
  rcases refuses.read (input_foldl_take few) with stops | ⟨rfl, bare, rfl⟩
  · rw [Arguments.ofOptions, read, stops]
  · rw [Draft.foldl_take, bare] at read
    rw [Arguments.ofOptions, read]
    rfl

/-- The path may stand anywhere. -/
theorem ofOptions_of_placed {before after : List Item}
    (h : Reads command args (before ++ .input path :: after))
    (options : inputs (before ++ after) = []) :
    Arguments.ofOptions command args =
      .ok { command
            input := path
            labels := ((before ++ after).filterMap Item.labels?).getLast?
            limit := ((before ++ after).filterMap Item.limit?).getLast?
            json := decide (.json ∈ before ++ after)
            verbosity := min 255 ((before ++ after).count .verbose) } := by
  have one : inputs (before ++ .input path :: after) = [path] := by
    rw [inputs, List.filterMap_append, List.append_eq_nil_iff] at options
    rw [inputs, List.filterMap_append, List.filterMap_cons, options.1, options.2]
    rfl
  rw [ofOptions_of_reads h one]
  simp [List.filterMap_append, Item.labels?, Item.limit?, List.count_append]

/-- Arguments are read to the end and name one path, or else they are refused. -/
theorem reads_or_refused (command : Command) (args : List String) :
    (∃ items path, Reads command args items ∧ inputs items = [path]) ∨
      ∃ e, Refused command args e := by
  have explains := explains_read command {} args
  generalize Draft.read command {} args = result at explains
  cases explains with
  | @reads args items reads few =>
    match paths : inputs items with
    | [] => exact .inr ⟨_, args, [], items, by simp, reads, few, .missing paths⟩
    | [path] => exact .inl ⟨items, path, reads, paths⟩
    | _ :: _ :: _ => simp [paths] at few
  | refuses reads few refuses => exact .inr ⟨_, _, _, _, rfl, reads, few, refuses⟩

/-- The options of a command can be read if and only if the arguments are items of which one is a
path.  The last value of each option counts, wherever the path stands.  All other arguments are
refused, for what stands where no item can. -/
theorem options_read (command : Command) (args : List String) :
    ((∃ a, Arguments.ofOptions command args = .ok a) ↔
      ∃ items path, Reads command args items ∧ inputs items = [path]) ∧
    (∀ items path, Reads command args items → inputs items = [path] →
      Arguments.ofOptions command args =
        .ok { command
              input := path
              labels := (items.filterMap Item.labels?).getLast?
              limit := (items.filterMap Item.limit?).getLast?
              json := decide (.json ∈ items)
              verbosity := min 255 (items.count .verbose) }) ∧
    (∀ args' before after before' after' path,
      inputs (before ++ after) = [] → before ++ after = before' ++ after' →
      Reads command args (before ++ .input path :: after) →
      Reads command args' (before' ++ .input path :: after') →
      Arguments.ofOptions command args = Arguments.ofOptions command args') ∧
    ∀ e, Arguments.ofOptions command args = .error e ↔ Refused command args e := by
  refine ⟨⟨?_, ?_⟩, fun items path => ofOptions_of_reads, ?_, fun e => ⟨?_, ofOptions_of_refused⟩⟩
  · rintro ⟨a, ok⟩
    rcases reads_or_refused command args with reads | ⟨e, refused⟩
    · exact reads
    · rw [ofOptions_of_refused refused] at ok
      cases ok
  · rintro ⟨items, path, reads, one⟩
    exact ⟨_, ofOptions_of_reads reads one⟩
  · intro args' before after before' after' path options same reads reads'
    rw [ofOptions_of_placed reads options, ofOptions_of_placed reads' (same ▸ options), same]
  · intro fails
    rcases reads_or_refused command args with ⟨items, path, reads, one⟩ | ⟨f, refused⟩
    · rw [ofOptions_of_reads reads one] at fails
      cases fails
    · rw [ofOptions_of_refused refused] at fails
      cases fails
      exact refused

/-- An option may stand on either side of the path, and the value of one may look like another. -/
theorem options_read_around :
    let args := ["-m", "0x10", "prog.bin", "-l", "-h", "-v"]
    let items : List Item := [.limit 16, .input "prog.bin", .labels "-h", .verbose]
    Reads .run args items ∧ inputs items = ["prog.bin"] ∧
      Arguments.ofOptions .run args =
        .ok { command := .run, input := "prog.bin", labels := some "-h", limit := some 16,
              verbosity := 1 } ∧
      Arguments.ofOptions .run ["-v", "prog.bin"] =
        Arguments.ofOptions .run ["prog.bin", "-v"] := by
  intro args items
  have path : Spells .run ["prog.bin"] (.input "prog.bin") := .input (by decide)
  have verbose : Spells .run ["-v"] .verbose := .verbose (.verbose (.inl rfl) (.inl rfl))
  have reads : Reads .run (["-m", "0x10"] ++ (["prog.bin"] ++ (["-l", "-h"] ++ (["-v"] ++ []))))
      items :=
    .cons (.limit (.max rfl (.inl rfl)) (by decide))
      (.cons path (.cons (.labels (.labels (.inl rfl)) "-h") (.cons verbose .nil)))
  have one : inputs items = ["prog.bin"] := rfl
  obtain ⟨-, values, -⟩ := options_read .run args
  obtain ⟨-, -, placed, -⟩ := options_read .run (["-v"] ++ (["prog.bin"] ++ []))
  refine ⟨reads, one, values items _ reads one, ?_⟩
  exact placed _ [.verbose] [] [] [.verbose] "prog.bin" rfl rfl (.cons verbose (.cons path .nil))
    (.cons path (.cons verbose .nil))

end Options

end Micro8080.CommandLine
