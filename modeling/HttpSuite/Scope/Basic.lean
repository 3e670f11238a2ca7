import HttpSuite.Value.Path
import HttpSuite.Value.Printer

/-!
# Scopes

A scope binds variables to values and remembers the order in which they were
bound.
-/

namespace HttpSuite

/-- Variables and their values, in order. -/
abbrev Scope := OrderedMap Value

namespace Scope

/-- What a path leads to whose first segment is the name of a variable. -/
def select (scope : Scope) : Path → Except VariableError Value
  | [] => .error (.undefined "")
  | name :: rest =>
    match scope.get? name with
    | some v => v.select rest
    | none => .error (.undefined name)

/-- The text of every variable. -/
def texts (scope : Scope) : OrderedMap String := scope.map Value.display

/-- The scope as an object. -/
def toValue (scope : Scope) : Value := .object scope.entries

/-- The scope of an object. -/
def ofFields (fields : List (String × Value)) : Scope := OrderedMap.ofList fields

/-- Equal bindings, whatever their order. -/
def same (a b : Scope) : Bool := a.toValue.same b.toValue

end Scope

end HttpSuite
