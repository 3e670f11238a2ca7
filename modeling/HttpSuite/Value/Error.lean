import HttpSuite.Text.Quoted
import HttpSuite.Value.Basic

/-!
# What can go wrong with variables

The causes for which looking up, reading or merging variables fails, and the
words for each.
-/

namespace HttpSuite

/-- What a typed reading of a value asks for. -/
inductive Expectation where
  /-- A value of a kind. -/
  | kind (k : Kind)
  /-- A number without a fraction that fits a signed word. -/
  | integer
  deriving DecidableEq, Repr

/-- The word for an expectation. -/
def Expectation.name : Expectation → String
  | .kind k => k.name
  | .integer => "integer"

/-- Why looking up, reading or merging variables failed. -/
inductive VariableError where
  /-- A name is already bound where it was to be bound. -/
  | conflict (name : String)
  /-- A name is not bound. -/
  | undefined (name : String)
  /-- An object has no such key. -/
  | missingKey (key : String)
  /-- A segment is no index, but an array is to be entered. -/
  | invalidIndex (segment : String)
  /-- An index lies behind the end of its array. -/
  | outOfRange (index length : Nat)
  /-- A segment is left, but the value has no parts. -/
  | notTraversable (segment : String) (kind : Kind)
  /-- A value is not of the kind that was asked for. -/
  | typeMismatch (expected : Expectation) (found : Kind)
  /-- A value has no length. -/
  | notMeasurable (kind : Kind)
  deriving DecidableEq, Repr

/-- The words for a variable error. -/
def VariableError.message : VariableError → String
  | .conflict name => s!"variable {name} has been defined"
  | .undefined name => s!"undefined variable: {name}"
  | .missingKey key => s!"can't find key {Text.quoted key} in object"
  | .invalidIndex segment => s!"invalid array index {Text.quoted segment}"
  | .outOfRange index length => s!"index {index} out of range, array length is {length}"
  | .notTraversable segment kind => s!"can't select {Text.quoted segment} from a {kind.name} value"
  | .typeMismatch expected found =>
    s!"type mismatch: expected {expected.name}, found {found.name}"
  | .notMeasurable kind => s!"{kind.name} value is not measurable"

end HttpSuite
