import HttpSuite.Regex.Engine
import HttpSuite.Scope.Basic
import HttpSuite.Template.Error

/-!
# Functions of templates

A template calls functions by name. A function is given its arguments, each a
text or a variable that may be undefined, and answers with a text or refuses.
The functions of a registry have distinct names, and a name that is taken stays
with its first function.

Three of the functions that are always there answer with something new each
time: a text that matches a pattern, an identifier, the time. What can be called is
therefore a function of its arguments and of the occasion of the call: when it
happens, and which of the calls since the last entry of the journal it is. Every call
of a run has an occasion of its own. What is drawn from is handed to the registry
when it is made.
-/

namespace HttpSuite

/-- An argument of a function. -/
inductive Argument where
  /-- A text. -/
  | literal (text : String)
  /-- A variable, and its value if it is defined. -/
  | reference (name : String) (value : Option Value)
  deriving Inhabited

namespace Argument

/-- The value of an argument, if it is defined. -/
def value? : Argument → Option Value
  | literal text => some (.string text)
  | reference _ value => value

/-- The text of an argument, if it is defined. -/
def text? : Argument → Option String
  | literal text => some text
  | reference _ value => value.map Value.display

end Argument

/-- What a function answers to its arguments. -/
abbrev TemplateFunction := List Argument → Except TemplateError String

/-- When a function is called. -/
structure Occasion where
  /-- The nanoseconds since the start. -/
  now : Nat := 0
  /-- How many entries the journal has. -/
  entries : Nat := 0
  /-- Which of the calls from then on it is: a number among the parts of each thing that is
  rendered, the innermost one first. -/
  place : List Nat := []
  deriving DecidableEq, Repr, Inhabited

/-- What a template can call: on every occasion a function. -/
structure Callable where
  /-- The function that it is on an occasion. -/
  upon : Occasion → TemplateFunction
  deriving Inhabited

/-- What is the same function on all occasions. -/
def Callable.always (function : TemplateFunction) : Callable := ⟨fun _ => function⟩

instance : Coe TemplateFunction Callable := ⟨Callable.always⟩

/-- What the functions that answer with something new draw from. -/
structure Chance where
  /-- Where the sequences of drawn numbers begin. -/
  seed : Nat
  /-- The seconds since the start of 1970 when a run begins. -/
  seconds : Nat
  deriving Repr, Inhabited

namespace Chance

/-- The number that is drawn on an occasion. -/
def draw (chance : Chance) (occasion : Occasion) : Nat :=
  occasion.place.foldl (fun seed n => Regex.nextSeed (seed + n))
    (Regex.nextSeed (chance.seed + occasion.entries))

/-- The seconds since the start of 1970 on an occasion. -/
def time (chance : Chance) (occasion : Occasion) : Nat :=
  chance.seconds + occasion.now / 1000000000

end Chance

namespace TemplateFunction

/-- Refuses a number of arguments outside the bounds. -/
def checkArity (name : String) (args : List Argument) (least most : Nat) :
    Except TemplateError Unit :=
  if args.length < least || args.length > most then
    let expected := if least == most then s!"{least}" else s!"{least} to {most}"
    .error (.function name s!"expected {expected} arguments, got {args.length}")
  else .ok ()

/-- How many rounds a repetition without a bound goes at most, unless a call says
otherwise. -/
def defaultRandomLimit : Nat := 10

/-- The limit that the second argument of a call of `random` sets. -/
def randomLimit : Option String → Except TemplateError Nat
  | none => .ok defaultRandomLimit
  | some raw =>
    match Text.natBelow? (Nat.pow 2 32) (Text.trimBy Text.isWhitespace raw.toList) with
    | some limit => .ok limit
    | none => .error (.function "random" s!"invalid limit {Text.quoted raw}")

/-- A text that matches a pattern: `random(pattern)` or `random(pattern, limit)`. -/
def random (chance : Chance) (sampler : Sampler) (occasion : Occasion) :
    TemplateFunction := fun args => do
  checkArity "random" args 1 2
  match args.head?.bind Argument.text? with
  | none => .error (.function "random" "pattern is not defined")
  | some pattern =>
    let limit ← randomLimit (args[1]?.bind Argument.text?)
    match sampler.sample pattern limit (chance.draw occasion) with
    | .ok text => .ok text
    | .error reason => .error (.function "random" reason)

/-- What a path inside the value of an argument leads to, if anywhere. -/
def selectIn (arg : Argument) (path : String) : Option Value :=
  arg.value?.bind fun v => (v.select (Path.parse path)).toOption

/-- Whether there is something other than null: `exist(var)` or
`exist(var, path)`. -/
def exist : TemplateFunction := fun args => do
  checkArity "exist" args 1 2
  let found :=
    match args with
    | [] => none
    | arg :: rest =>
      match rest.head?.bind Argument.text? with
      | some path => selectIn arg path
      | none => arg.value?
  .ok (if found.any fun v => !v.isNull then "true" else "false")

/-- The text of what a path leads to, empty if it leads nowhere:
`select(var, path)`. -/
def select : TemplateFunction := fun args => do
  checkArity "select" args 2 2
  let found :=
    match args with
    | arg :: path :: _ => path.text?.bind (selectIn arg)
    | _ => none
  .ok ((found.map Value.display).getD "")

/-- The number of items or fields: `len(var)`. -/
def len : TemplateFunction := fun args => do
  checkArity "len" args 1 1
  match args.head? with
  | some (.reference name none) => .error (.function "len" s!"undefined variable {name}")
  | arg =>
    match ((arg.bind Argument.value?).getD .null).length with
    | .ok n => .ok s!"{n}"
    | .error e => .error (.function "len" e.message)

/-- The last `n` hexadecimal digits of a number, all of them shown. -/
def lastHexDigits : Nat → Nat → List Char
  | 0, _ => []
  | n + 1, value => lastHexDigits n (value / 16) ++ [Text.hexDigit (value % 16)]

/-- An identifier of 122 drawn bits, of version 4 and its variant: `uuid()`. -/
def uuid (chance : Chance) (occasion : Occasion) : TemplateFunction := fun args => do
  checkArity "uuid" args 0 0
  let first := Regex.nextSeed (chance.draw occasion)
  let second := Regex.nextSeed first
  let digits := fun n value => String.ofList (lastHexDigits n value)
  .ok (digits 8 first ++ "-" ++ digits 4 (first / Nat.pow 2 32)
    ++ "-4" ++ digits 3 (first / Nat.pow 2 48)
    ++ "-" ++ digits 1 (8 + second % 4) ++ digits 3 (second / Nat.pow 2 2) ++ "-"
    ++ digits 12 (second / Nat.pow 2 14))

/-- The time in seconds: `timestamp()`. -/
def timestamp (chance : Chance) (occasion : Occasion) : TemplateFunction := fun args => do
  checkArity "timestamp" args 0 0
  .ok s!"{chance.time occasion}"

end TemplateFunction

/-- The functions that a template can call, by name, and when they are called. -/
structure FunctionRegistry where
  /-- The functions, in the order they were registered. -/
  functions : OrderedMap Callable
  /-- The occasion on which they are called. -/
  occasion : Occasion := {}
  deriving Inhabited

namespace FunctionRegistry

/-- No functions. -/
def empty : FunctionRegistry := { functions := .empty }

/-- The functions that are always there. -/
def builtins (chance : Chance) (sampler : Sampler := .builtin) : FunctionRegistry where
  functions := .ofList
    [("random", ⟨TemplateFunction.random chance sampler⟩), ("exist", TemplateFunction.exist),
      ("select", TemplateFunction.select), ("len", TemplateFunction.len),
      ("uuid", ⟨TemplateFunction.uuid chance⟩),
      ("timestamp", ⟨TemplateFunction.timestamp chance⟩)]

/-- The functions when they are called on an occasion. -/
def upon (registry : FunctionRegistry) (occasion : Occasion) : FunctionRegistry :=
  { registry with occasion := occasion }

/-- The functions when they are called in a part of what is rendered. -/
def within (registry : FunctionRegistry) (part : Nat) : FunctionRegistry :=
  registry.upon { registry.occasion with place := part :: registry.occasion.place }

/-- Whether a name is taken. -/
def contains (registry : FunctionRegistry) (name : String) : Bool :=
  registry.functions.contains name

/-- Adds a function under a name that is not taken. -/
def register (registry : FunctionRegistry) (name : String) (function : Callable) :
    Except TemplateError FunctionRegistry :=
  if registry.contains name then .error (.duplicateFunction name)
  else .ok { registry with functions := registry.functions.insert name function }

/-- Calls the function of a name. -/
def call (registry : FunctionRegistry) (name : String) (args : List Argument) :
    Except TemplateError String :=
  match registry.functions.get? name with
  | some function => function.upon registry.occasion args
  | none => .error (.unknownFunction name)

/-- The names, sorted, in a listing for people. -/
def listing (registry : FunctionRegistry) : String :=
  let names := registry.functions.keys.mergeSort fun a b => a ≤ b
  "FunctionRegistry \x7b functions: " ++ Text.quotedList names ++ " \x7d"

end FunctionRegistry

end HttpSuite
