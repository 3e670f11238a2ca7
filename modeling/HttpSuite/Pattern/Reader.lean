import HttpSuite.Pattern.Basic
import HttpSuite.Regex.Engine
import HttpSuite.Value.Reader

/-!
# Reading patterns

A value is read into a pattern from the outside in. What is read may be a demand
that there be nothing, which only a field can meet; every other place refuses
it. The path begins with a dollar sign for the whole pattern.
-/

namespace HttpSuite.Pattern

/-- Whether a key is that of an operator. -/
def isOperator (key : String) : Bool := Text.startsWith ['$'] key.toList

/-- Refuses the demand that there be nothing. -/
def demandPresent (path : String) : Option Pattern → Except PatternError Pattern
  | some p => .ok p
  | none => .error (.absenceOutsideField path)

/-- The operands of an object of operators: whether presence is asked for, and
what else. -/
def finishOperators (path : String) (count : Nat) (present : Bool) (parts : List Pattern) :
    Except PatternError (Option Pattern) :=
  if present then .ok (some (all parts))
  else if count > 1 then .error (.absenceWithOperators path)
  else .ok none

section

variable (engine : RegexEngine)

mutual

/-- The pattern of a value; `none` asks that there be no value. -/
def ofNode (path : String) : Value → Except PatternError (Option Pattern)
  | .null => .ok (some null)
  | .bool b => .ok (some (bool b))
  | .string s => .ok (some (string s))
  | .number n => .ok (some (number n))
  | .array items => do
    let ps ← ofItems path 0 items
    .ok (some (elements ps))
  | .object entries => do
    let operators := (entries.filter fun e => isOperator e.1).length
    if operators == 0 then
      let fs ← ofFields path entries
      .ok (some (fields fs))
    else if operators != entries.length then .error (.mixedKeys path)
    else
      let (present, parts) ← ofOperators path true entries
      finishOperators path entries.length present parts

/-- The patterns of items from an index on. -/
def ofItems (path : String) (index : Nat) : List Value → Except PatternError (List Pattern)
  | [] => .ok []
  | v :: rest => do
    let here := s!"{path}[{index}]"
    let found ← ofNode here v
    let p ← demandPresent here found
    let ps ← ofItems path (index + 1) rest
    .ok (p :: ps)

/-- The patterns of fields. -/
def ofFields (path : String) :
    List (String × Value) → Except PatternError (List (String × Option Pattern))
  | [] => .ok []
  | (key, v) :: rest => do
    let p ← ofNode s!"{path}.{key}" v
    let ps ← ofFields path rest
    .ok ((key, p) :: ps)

/-- What operators ask for: whether the value is to be present, and the patterns
it is to match. -/
def ofOperators (path : String) (present : Bool) :
    List (String × Value) → Except PatternError (Bool × List Pattern)
  | [] => .ok (present, [])
  | (key, v) :: rest =>
    if key == "$exists" then
      match v with
      | .bool b => ofOperators path b rest
      | _ => .error (.invalidExists path)
    else if key == "$regexp" then
      match v with
      | .string source =>
        match engine.compile source with
        | .ok found => do
          let (present, ps) ← ofOperators path present rest
          .ok (present, regexp source found :: ps)
        | .error reason => .error (.invalidRegexp path (.malformed reason))
      | _ => .error (.invalidRegexp path .notText)
    else if key == "$match" then do
      let found ← ofNode path v
      let p ← demandPresent path found
      let (present, ps) ← ofOperators path present rest
      .ok (present, p :: ps)
    else if key == "$len" then
      match v with
      | .number (.int n) =>
        if 0 ≤ n ∧ n ≤ Number.maxUnsigned then do
          let (present, ps) ← ofOperators path present rest
          .ok (present, length n.toNat :: ps)
        else .error (.invalidLength path)
      | _ => .error (.invalidLength path)
    else .error (.unknownOperator key path)

end

end

/-- The pattern that a value writes. -/
def ofValue (v : Value) (engine : RegexEngine := .builtin) : Except PatternError Pattern := do
  let found ← ofNode engine "$" v
  demandPresent "$" found

/-- The pattern that a JSON text writes. -/
def ofJson (text : String) (engine : RegexEngine := .builtin) : Except PatternError Pattern :=
  match Value.ofJson? text with
  | some v => ofValue v engine
  | none => .error .notJson

end HttpSuite.Pattern
