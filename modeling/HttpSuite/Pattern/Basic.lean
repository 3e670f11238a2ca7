import HttpSuite.Pattern.Failure
import HttpSuite.Value.Printer

/-!
# Patterns

What a value is asked to be. A pattern is written as a value itself: scalars
stand for themselves, arrays are matched item by item, and an object names the
fields it asks for and leaves others alone. An object whose keys all begin with a
dollar sign describes one value by operators, all of which must hold.
-/

namespace HttpSuite

/-- A pattern that has been read. -/
inductive Pattern where
  /-- Null. -/
  | null
  /-- A truth value. -/
  | bool (b : Bool)
  /-- A text. -/
  | string (s : String)
  /-- A number, whatever its form. -/
  | number (n : Number)
  /-- A text in which the expression matches somewhere. -/
  | regexp (source : String) (found : String → Bool)
  /-- A text, array or object of a length. -/
  | length (n : Nat)
  /-- An array of as many items, each matched by its pattern. -/
  | elements (items : List Pattern)
  /-- An object with these fields, each matched by its pattern, and without those
  that have none. -/
  | fields (fields : List (String × Option Pattern))
  /-- A value that all of the patterns match. -/
  | all (parts : List Pattern)
  deriving Inhabited

/-- Why a regular expression in a pattern is refused. -/
inductive RegexpFault where
  /-- It is no text. -/
  | notText
  /-- The text is no regular expression. -/
  | malformed (reason : String)
  deriving DecidableEq, Repr

/-- Why a value is no pattern. The path is that of the place in the pattern. -/
inductive PatternError where
  /-- The text is no JSON. -/
  | notJson
  /-- An object has both operators and fields. -/
  | mixedKeys (path : String)
  /-- There is no operator of this name. -/
  | unknownOperator (key path : String)
  /-- The operand of `$exists` is no truth value. -/
  | invalidExists (path : String)
  /-- Absence is asked for together with something else. -/
  | absenceWithOperators (path : String)
  /-- Absence is asked for of something that is no field. -/
  | absenceOutsideField (path : String)
  /-- The operand of `$regexp` is no regular expression. -/
  | invalidRegexp (path : String) (fault : RegexpFault)
  /-- The operand of `$len` is no length. -/
  | invalidLength (path : String)
  deriving DecidableEq, Repr

/-- The words for a regular expression that is refused. -/
def RegexpFault.message : RegexpFault → String
  | .notText => "expected a string"
  | .malformed reason => reason

/-- The words for a pattern error. -/
def PatternError.message : PatternError → String
  | .notJson => "invalid pattern JSON: malformed text"
  | .mixedKeys path => s!"mixed special matcher and fields at {path}"
  | .unknownOperator key path => s!"unknown special matcher {key} at {path}"
  | .invalidExists path => s!"$exists must be a boolean at {path}"
  | .absenceWithOperators path =>
    s!"$exists: false can't be combined with other special matchers at {path}"
  | .absenceOutsideField path =>
    s!"$exists: false is only allowed on object fields, found at {path}"
  | .invalidRegexp path fault => s!"$regexp at {path} is invalid: {fault.message}"
  | .invalidLength path => s!"$len must be a non-negative integer at {path}"

end HttpSuite
