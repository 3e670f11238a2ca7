import HttpSuite.Text.Basic

/-!
# Reports of what did not match

A report is a tree. A leaf says what was wrong; the nodes above it name the
place, field by field and index by index. A node may say something and have
children at once; what the checker of patterns builds is always one or the
other.
-/

namespace HttpSuite

/-- A place where something did not match. -/
inductive MatchFailure where
  /-- A place, what was wrong there, and what was wrong inside it. -/
  | node (segment : String) (message : Option String) (children : List MatchFailure)
  deriving Inhabited, Repr

namespace MatchFailure

/-- Something that was wrong. -/
def leaf (message : String) : MatchFailure := node "" (some message) []

/-- What was wrong inside a field or item. -/
def nested (segment : String) (children : List MatchFailure) : MatchFailure :=
  node segment none children

mutual

/-- How many leaves there are. -/
def leafCount : MatchFailure → Nat
  | node _ _ [] => 1
  | node _ _ (child :: rest) => leafCount child + leafCountAll rest

/-- How many leaves there are in all. -/
def leafCountAll : List MatchFailure → Nat
  | [] => 0
  | failure :: rest => leafCount failure + leafCountAll rest

end

/-- The line that a node begins with, if it has one. -/
def heading (segment : String) (message : Option String) : Option String :=
  match message with
  | some message => if segment.isEmpty then some message else some s!"{segment}: {message}"
  | none => if segment.isEmpty then none else some segment

mutual

/-- The lines of a report, two spaces deeper at every level. -/
def renderAt (depth : Nat) : MatchFailure → String
  | node segment message children =>
    match heading segment message with
    | some line =>
      String.ofList (List.replicate (2 * depth) ' ') ++ line ++ "\n"
        ++ renderAllAt (depth + 1) children
    | none => renderAllAt depth children

/-- The lines of one report after another. -/
def renderAllAt (depth : Nat) : List MatchFailure → String
  | [] => ""
  | failure :: rest => renderAt depth failure ++ renderAllAt depth rest

end

/-- The text of a list of reports. -/
def renderAll (failures : List MatchFailure) : String := renderAllAt 0 failures

end MatchFailure

end HttpSuite
