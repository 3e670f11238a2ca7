import HttpSuite.Suite.Basic

/-!
# The command line

Arguments are read from the left, and the first that cannot be read stops the program.
An option is written with two hyphens, or with one and its first letter, its value
behind it or behind an equals sign. Behind two hyphens that stand alone there are only
folders. What the arguments do not say may come from a settings file, and labels from
the environment.
-/

namespace HttpSuite.CommandLine

/-- What the arguments say. -/
structure Arguments where
  /-- The path of a settings file. -/
  config : Option String := none
  /-- Labels of cases that are run. -/
  focus : Option String := none
  /-- Labels of cases that are left out. -/
  skip : Option String := none
  /-- Variables. -/
  vars : List (String × String) := []
  /-- The name of context files. -/
  contextFile : Option String := none
  /-- How many milliseconds to wait for a response. -/
  requestTimeout : Option Nat := none
  /-- The paths of the folders. -/
  folders : List String := []
  deriving DecidableEq, Repr, Inhabited

/-- Why arguments are not carried out. -/
inductive Refusal where
  /-- They cannot be read. -/
  | unreadable
  /-- They ask for help. -/
  | help
  /-- They ask for the version. -/
  | version
  deriving DecidableEq, Repr

/-- An option that has a value. -/
inductive Opt where
  | config
  | focus
  | skip
  | variable
  | contextFile
  | requestTimeout
  deriving DecidableEq, Repr

/-- The option of a name behind two hyphens. -/
def Opt.ofLong? (name : String) : Option Opt :=
  [("config", .config), ("focus", .focus), ("skip", .skip), ("env", .variable),
    ("context-file", .contextFile), ("request-timeout", .requestTimeout)].lookup name

/-- The option of a letter behind one hyphen. -/
def Opt.ofShort? (c : Char) : Option Opt :=
  if c == 'c' then some .config else if c == 'e' then some .variable else none

/-- The name and the value of a variable. -/
def readVariable? (text : String) : Option (String × String) :=
  match Text.splitOnce? '=' text.toList with
  | some (name, value) =>
    if name.isEmpty then none else some (String.ofList name, String.ofList value)
  | none => none

/-- A word of 64 bits. -/
def readWord? (text : String) : Option Nat := Text.natBelow? (Nat.pow 2 64) text.toList

namespace Arguments

/-- Sets an option that is not set. -/
def set? (a : Arguments) (option : Opt) (value : String) : Option Arguments :=
  match option with
  | .config =>
    if a.config.isSome || value.isEmpty then none else some { a with config := some value }
  | .focus => if a.focus.isSome then none else some { a with focus := some value }
  | .skip => if a.skip.isSome then none else some { a with skip := some value }
  | .variable =>
    (readVariable? value).map fun v => { a with vars := a.vars ++ [v] }
  | .contextFile =>
    if a.contextFile.isSome then none else some { a with contextFile := some value }
  | .requestTimeout =>
    if a.requestTimeout.isSome then none
    else (readWord? value).map fun n => { a with requestTimeout := some n }

/-- Adds a folder. -/
def addFolder? (a : Arguments) (path : String) : Option Arguments :=
  if path.isEmpty then none else some { a with folders := a.folders ++ [path] }

/-- Adds folders. -/
def addFolders? (a : Arguments) : List String → Option Arguments
  | [] => some a
  | path :: rest => (a.addFolder? path).bind fun a => a.addFolders? rest

end Arguments

/-- What an argument is. -/
inductive Kind where
  /-- A folder. -/
  | folder
  /-- Two hyphens alone. -/
  | separator
  /-- An option, perhaps with its value. -/
  | option (opt : Opt) (value : Option String)
  /-- Something that stops the program. -/
  | refused (refusal : Refusal)
  deriving DecidableEq, Repr

/-- What an argument is. -/
def Kind.ofText (text : String) : Kind :=
  match text.toList with
  | ['-', '-'] => .separator
  | '-' :: '-' :: long =>
    let (name, value) := match Text.splitOnce? '=' long with
      | some (name, value) => (String.ofList name, some (String.ofList value))
      | none => (String.ofList long, none)
    match Opt.ofLong? name, value with
    | some opt, value => .option opt value
    | none, none =>
      if name == "help" then .refused .help
      else if name == "version" then .refused .version
      else .refused .unreadable
    | none, some _ => .refused .unreadable
  | '-' :: c :: value =>
    match Opt.ofShort? c with
    | some opt =>
      match value with
      | [] => .option opt none
      | '=' :: value => .option opt (some (String.ofList value))
      | value => .option opt (some (String.ofList value))
    | none =>
      if c == 'h' then .refused .help
      else if c == 'V' then .refused .version
      else .refused .unreadable
  | _ => .folder

/-- Reads arguments on top of those read already. -/
def readFrom (a : Arguments) : List String → Except Refusal Arguments
  | [] => if a.folders.isEmpty then .error .unreadable else .ok a
  | text :: rest =>
    match Kind.ofText text with
    | .refused refusal => .error refusal
    | .folder =>
      match a.addFolder? text with
      | some a => readFrom a rest
      | none => .error .unreadable
    | .separator =>
      match a.addFolders? rest with
      | some a => if a.folders.isEmpty then .error .unreadable else .ok a
      | none => .error .unreadable
    | .option opt (some value) =>
      match a.set? opt value with
      | some a => readFrom a rest
      | none => .error .unreadable
    | .option opt none =>
      match rest with
      | [] => .error .unreadable
      | value :: rest =>
        if Kind.ofText value != .folder then .error .unreadable
        else
          match a.set? opt value with
          | some a => readFrom a rest
          | none => .error .unreadable

/-- Reads arguments. -/
def read (args : List String) : Except Refusal Arguments := readFrom {} args

/-- How a program ended. -/
structure Ending where
  /-- The exit code. -/
  code : Nat
  /-- What was written. -/
  output : String := ""
  /-- What was complained about. -/
  complaint : String := ""
  deriving DecidableEq, Repr

/-- How to call the program. -/
def usage : String :=
  "Usage: aloe [--config FILE] [--focus LABELS] [--skip LABELS] [--env KEY=VALUE]... "
    ++ "[--context-file NAME] [--request-timeout MILLIS] DIR...\n"

/-- The ending of a program whose arguments are not carried out. -/
def Refusal.ending : Refusal → Ending
  | .unreadable => ⟨2, "", usage⟩
  | .help => ⟨0, usage, ""⟩
  | .version => ⟨0, "aloe 0.2.0\n", ""⟩

/-- The settings that arguments ask for. -/
def settings (a : Arguments) (around : OrderedMap String) (files : FileTree) :
    Except SettingsError Settings := do
  let settings ←
    match a.config with
    | some path => Settings.loadFile files path
    | none => Settings.load none
  return {
    settings with
    focus := (a.focus.or (around.get? "ALOE_FOCUS")).getD settings.focus
    skip := (a.skip.or (around.get? "ALOE_SKIP")).getD settings.skip
    contextFile := a.contextFile.getD settings.contextFile
    requestTimeout := a.requestTimeout.getD settings.requestTimeout }

/-- Sets variables one after another. -/
def setVariables (suite : Suite) : List (String × String) → Except SuiteError Suite
  | [] => .ok suite
  | (name, value) :: rest => do
    let suite ← suite.setVariable name (.string value)
    setVariables suite rest

/-- The suite that arguments ask for, or what is complained about. -/
def suiteOf (a : Arguments) (around : OrderedMap String) (files : FileTree) (chance : Chance) :
    Except String Suite :=
  match settings a around files with
  | .error e => .error e.message
  | .ok settings =>
    match Suite.create chance settings with
    | .error e => .error e.message
    | .ok suite =>
      match setVariables suite a.vars with
      | .error e => .error e.message
      | .ok suite => .ok (suite.addFolders a.folders)

/-- The ending of a program that cannot do what it should. -/
def failed (message : String) : Ending := ⟨2, "", s!"error: {message}\n"⟩

/-- Runs the program. -/
def run (args : List String) (around : OrderedMap String) (files : FileTree)
    (service : Service) (chance : Chance) (journal : Journal) : Ending × Journal :=
  match read args with
  | .error refusal => (refusal.ending, journal)
  | .ok a =>
    match suiteOf a around files chance with
    | .error message => (failed message, journal)
    | .ok suite =>
      match suite.run files service journal with
      | (.ok report, journal) =>
        (⟨if report.isSuccess then 0 else 1, report.render ++ "\n", ""⟩, journal)
      | (.error e, journal) => (failed e.message, journal)

end HttpSuite.CommandLine
