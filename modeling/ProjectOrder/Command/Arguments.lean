import ProjectOrder.Files.FilePath
import ProjectOrder.Collation.CaseOrder

/-!
# Command lines

The commands of the program and the command lines that name them. A line is read from left to right,
one level of commands inside the other; the options that all levels know may stand at any level, and
the innermost one decides. The first fault ends the reading, so asking for help wins over what comes
after it but not over what comes before.
-/

namespace ProjectOrder

/-- The shells that completions can be asked for. -/
def shells : List String := ["bash", "elvish", "fish", "powershell", "zsh"]

/-- What the program is asked to do. -/
inductive Command where
  | sort (files : List FilePath)
  | project (paths : List FilePath)
  | check (paths : List FilePath)
  | configShow
  | configInit (isGlobal : Bool)
  | configPath
  | completion (shell : String)
deriving DecidableEq, Repr

/-- A command with the options that all commands know. -/
structure Invocation where
  projectDirectory : Option FilePath
  caseOrder : Option CaseOrder
  sequential : Bool
  /-- How many times more output was asked for. -/
  verbosity : Nat
  command : Option Command
deriving DecidableEq, Repr

/-- Why a command line is not carried out. Help and version are asked for, all else is wrong. -/
inductive ArgumentFault where
  | help
  | version
  | helpOnMissing
  | missingSubcommand
  | missingArgument
  | invalidSubcommand
  | unknownArgument
  | invalidValue
  | valueValidation
  | conflict
  | tooManyValues
deriving DecidableEq, Repr

/-- The exit status after a fault. -/
def ArgumentFault.exitStatus : ArgumentFault → Nat
  | help | version => 0
  | _ => 2

/-- The text of the help. -/
def helpText : String :=
  String.intercalate "\n" [
    "Deterministic sorter for Visual C++ project item lists and filter files",
    "",
    "Usage: vcxsort [OPTIONS] [COMMAND]",
    "",
    "Commands:",
    "  sort FILES...                 Sort individual files in place",
    "  project PATHS...              Sort project files together with their .filters companions",
    "  check PATHS...                Report files that are out of order without writing",
    "  config show | init | path     Manage settings",
    "  completion SHELL              Generate shell completions",
    "",
    "Options:",
    "  -v, --verbose                 Increase log verbosity",
    "  -C, --project-dir DIR         Directory holding .vcxsort.toml",
    "      --case-order ORDER        upper_first or lower_first",
    "      --sequential              Process projects one at a time",
    "  -h, --help                    Print help",
    "  -V, --version                 Print version"]

/-- What is told about a command line that is not carried out. -/
def ArgumentFault.message : ArgumentFault → String
  | help => helpText
  | version => "vcxsort 0.1.0"
  | helpOnMissing => "a command is missing\n\n" ++ helpText
  | missingSubcommand => "a subcommand is missing"
  | missingArgument => "a required argument is missing"
  | invalidSubcommand => "no such subcommand"
  | unknownArgument => "an argument is not known here"
  | invalidValue => "a value is missing or not one of those possible"
  | valueValidation => "a value is not valid"
  | conflict => "an option is given twice"
  | tooManyValues => "an option that takes no value has one"

namespace Arguments

/-- Options without a value. -/
inductive Switch where
  | verbose
  | sequential
  | isGlobal
  | help
  | version
deriving DecidableEq, Repr

/-- Options with a value. -/
inductive Setting where
  | projectDirectory
  | caseOrder
deriving DecidableEq, Repr

/-- The places on a command line that a command name leads to. -/
inductive Level where
  | root
  | sort
  | project
  | check
  | config
  | configShow
  | configInit
  | configPath
  | completion
deriving DecidableEq, Repr

/-- What may stand at a level besides options. -/
inductive Operands where
  | none
  | paths
  | shell
deriving DecidableEq, Repr

namespace Level

/-- The commands that may be named at a level. -/
def subcommands : Level → List (String × Level)
  | root => [("sort", sort), ("project", project), ("check", check), ("config", config),
      ("completion", completion)]
  | config => [("show", configShow), ("init", configInit), ("path", configPath)]
  | _ => []

/-- The operands of a level. -/
def operands : Level → Operands
  | sort | project | check => .paths
  | completion => .shell
  | _ => .none

/-- The switch of a short name. -/
def shortSwitch? (level : Level) (name : Char) : Option Switch :=
  if name = 'v' then some .verbose
  else if name = 'h' then some .help
  else if name = 'V' then some .version
  else if name = 'g' ∧ level = configInit then some .isGlobal
  else none

/-- The switch of a long name. -/
def longSwitch? (level : Level) (name : String) : Option Switch :=
  if name = "verbose" then some .verbose
  else if name = "sequential" then some .sequential
  else if name = "help" then some .help
  else if name = "version" then some .version
  else if name = "global" ∧ level = configInit then some .isGlobal
  else none

end Level

/-- The option with a value of a short name. -/
def shortSetting? (name : Char) : Option Setting :=
  if name = 'C' then some .projectDirectory else none

/-- The option with a value of a long name. -/
def longSetting? (name : String) : Option Setting :=
  if name = "project-dir" then some .projectDirectory
  else if name = "case-order" then some .caseOrder
  else none

/-- What has been read and not yet been judged. -/
inductive Pending where
  | nothing
  | setting (s : Setting) (value : Option String)
  | operands (values : List String)
deriving DecidableEq, Repr

/-- What has been given at one level. -/
structure Given where
  projectDirectory : Option FilePath
  caseOrder : Option CaseOrder
  sequential : Bool
  isGlobal : Bool
  verbosity : Nat
  operands : List String
deriving DecidableEq, Repr

/-- Nothing given. -/
def Given.nothing : Given := ⟨none, none, false, false, 0, []⟩

/-- The reading of one level. -/
structure State where
  given : Given
  pending : Pending
  /-- After `--`, everything is an operand. -/
  trailing : Bool
deriving DecidableEq, Repr

/-- A level before anything is read. -/
def State.start : State := ⟨.nothing, .nothing, false⟩

/-- Give an option its value. It may be given once at each level. -/
def Given.set (g : Given) (s : Setting) (value : String) : Except ArgumentFault Given :=
  match s with
  | .projectDirectory =>
    if g.projectDirectory.isSome then .error .conflict
    else if value = "" then .error .invalidValue
    else .ok { g with projectDirectory := some ⟨value⟩ }
  | .caseOrder =>
    if g.caseOrder.isSome then .error .conflict
    else
      match CaseOrder.parse value with
      | .ok order => .ok { g with caseOrder := some order }
      | .error _ => .error .valueValidation

/-- Add operands. Paths must not be empty, and a shell must be one of the known ones. -/
def Given.add (g : Given) (level : Level) (values : List String) : Except ArgumentFault Given :=
  let fits (value : String) : Bool :=
    match level.operands with
    | .shell => value ∈ shells
    | _ => value ≠ ""
  if values.all fits then .ok { g with operands := g.operands ++ values }
  else .error .invalidValue

/-- Judge what is pending. -/
def State.settle (s : State) (level : Level) : Except ArgumentFault Given :=
  match s.pending with
  | .nothing => .ok s.given
  | .setting _ none => .error .invalidValue
  | .setting setting (some value) => s.given.set setting value
  | .operands values => s.given.add level values

/-- Take in a switch. -/
def State.switch (s : State) (level : Level) (switch : Switch) : Except ArgumentFault State := do
  let g ← s.settle level
  let s : State := { s with given := g, pending := .nothing }
  match switch with
  | .verbose => return { s with given := { g with verbosity := g.verbosity + 1 } }
  | .sequential =>
    if g.sequential then throw .conflict
    else return { s with given := { g with sequential := true } }
  | .isGlobal =>
    if g.isGlobal then throw .conflict else return { s with given := { g with isGlobal := true } }
  | .help => throw .help
  | .version => throw .version

/-- Take in an option with a value, which may be yet to come. -/
def State.setting (s : State) (level : Level) (setting : Setting) (value : Option String) :
    Except ArgumentFault State := do
  let g ← s.settle level
  match value with
  | none => return { s with given := g, pending := .setting setting none }
  | some value => return { s with given := ← g.set setting value, pending := .nothing }

/-- Take in a long option, given all after its two dashes. -/
def State.long (s : State) (level : Level) (cs : List Char) : Except ArgumentFault State :=
  let name := String.ofList (cs.takeWhile (· ≠ '='))
  let value :=
    match cs.dropWhile (· ≠ '=') with
    | [] => none
    | _ :: value => some (String.ofList value)
  match longSetting? name with
  | some setting => s.setting level setting value
  | none =>
    match level.longSwitch? name with
    | some switch => if value.isSome then .error .tooManyValues else s.switch level switch
    | none => .error .unknownArgument

/-- Take in a group of short options, given all after its dash. What follows the name of an option
with a value is its value. -/
def State.short (s : State) (level : Level) : List Char → Except ArgumentFault State
  | [] => .ok s
  | c :: cs =>
    match shortSetting? c with
    | some setting =>
      match cs with
      | [] => s.setting level setting none
      | '=' :: value => s.setting level setting (some (String.ofList value))
      | value => s.setting level setting (some (String.ofList value))
    | none =>
      match level.shortSwitch? c with
      | some switch => do
        let s ← s.switch level switch
        s.short level cs
      | none => .error .unknownArgument

/-- Take in an operand. -/
def State.operand (s : State) (level : Level) (value : String) : Except ArgumentFault State :=
  match level.operands with
  | .none =>
    if s.trailing ∧ (value = "help" ∨ (level.subcommands.lookup value).isSome) then
      .error .unknownArgument
    else if level.subcommands = [] then .error .unknownArgument
    else .error .invalidSubcommand
  | .paths =>
    match s.pending with
    | .operands values => .ok { s with pending := .operands (values ++ [value]) }
    | _ => do
      let g ← s.settle level
      return { s with given := g, pending := .operands [value] }
  | .shell => do
    if s.given.operands ≠ [] then throw .unknownArgument
    match s.pending with
    | .operands _ => throw .unknownArgument
    | _ =>
      let g ← s.settle level
      return { s with given := g, pending := .operands [value] }

/-- Take in an argument that is no command. -/
def State.argument (s : State) (level : Level) (a : String) : Except ArgumentFault State :=
  if s.trailing then s.operand level a
  else
    match a.toList with
    | ['-', '-'] => .ok { s with trailing := true }
    | '-' :: '-' :: cs => s.long level cs
    | '-' :: c :: cs => s.short level (c :: cs)
    | _ =>
      match s.pending with
      | .setting setting none => .ok { s with pending := .setting setting (some a) }
      | _ => s.operand level a

/-- Whether the next argument may be a command. -/
def State.mayCommand (s : State) : Bool :=
  match s.pending with
  | .setting _ none => false
  | _ => !s.trailing

/-- Whether anything has been given at a level. -/
def Given.isEmpty (g : Given) : Bool :=
  g = .nothing

/-- What must be given at a level that names no further command. -/
def Given.check (g : Given) (level : Level) : Except ArgumentFault Unit :=
  match level with
  | .config => if g.isEmpty then .error .helpOnMissing else .error .missingSubcommand
  | .sort | .project | .check | .completion =>
    if g.operands = [] then .error .missingArgument else .ok ()
  | _ => .ok ()

/-- The answer to asking for help on a command, named by its path from a level. -/
def helpOn (level : Level) : List String → ArgumentFault
  | [] => .help
  | name :: names =>
    match level.subcommands.lookup name with
    | some next => helpOn next names
    | none =>
      if name = "help" ∧ names = [] ∧ level.subcommands ≠ [] then .help else .invalidSubcommand

/-- What is given at each level of a command line, outermost first. -/
def levels (level : Level) (s : State) : List String → Except ArgumentFault (List (Level × Given))
  | [] => do
    let g ← s.settle level
    g.check level
    return [(level, g)]
  | a :: rest =>
    if s.mayCommand then
      match level.subcommands.lookup a with
      | some next => do
        let inner ← levels next .start rest
        let g ← s.settle level
        return (level, g) :: inner
      | none =>
        if a = "help" ∧ level.subcommands ≠ [] then .error (helpOn level rest)
        else do
          let s ← s.argument level a
          levels level s rest
    else do
      let s ← s.argument level a
      levels level s rest

/-- The command of the innermost level. -/
def command? (level : Level) (g : Given) : Option Command :=
  let paths := g.operands.map FilePath.mk
  match level with
  | .root | .config => none
  | .sort => some (.sort paths)
  | .project => some (.project paths)
  | .check => some (.check paths)
  | .configShow => some .configShow
  | .configInit => some (.configInit g.isGlobal)
  | .configPath => some .configPath
  | .completion => g.operands.head?.map .completion

/-- The invocation of what is given at each level: the innermost level that gives an option
decides. -/
def invocation (given : List (Level × Given)) : Invocation where
  projectDirectory := given.reverse.findSome? (·.2.projectDirectory)
  caseOrder := given.reverse.findSome? (·.2.caseOrder)
  sequential := given.any (·.2.sequential)
  verbosity := ((given.reverse.map (·.2.verbosity)).find? (· ≠ 0)).getD 0
  command := given.getLast?.bind fun (level, g) => command? level g

/-- Read a command line, without the name of the program. -/
def parse (args : List String) : Except ArgumentFault Invocation :=
  (levels .root .start args).map invocation

end Arguments

end ProjectOrder
