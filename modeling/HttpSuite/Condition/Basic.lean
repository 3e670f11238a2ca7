import HttpSuite.Condition.Engine
import HttpSuite.Scope.Basic

/-!
# Conditions

A condition is an expression with names of its own. Every name in it stands for a
text: the one that the condition gives it, else that of the variable of this name,
else the empty one. The names are found by scanning the text of the expression;
what stands between double quotes is left out, and so are some words.
-/

namespace HttpSuite

/-- A condition whose templates have been rendered. -/
structure Condition where
  /-- The expression. -/
  expr : String
  /-- Texts for names of the expression. -/
  args : OrderedMap String := .empty
  deriving DecidableEq, Inhabited

/-- Why a condition is neither true nor false. -/
inductive ConditionFault where
  /-- The expression has no value. -/
  | expression (reason : String)
  /-- The value is not a truth value. -/
  | notBool (typeName : String)
  deriving DecidableEq, Repr

/-- The words for a condition that is neither true nor false. -/
def ConditionFault.message : ConditionFault → String
  | .expression reason => reason
  | .notBool typeName => s!"when condition must evaluate to a bool, got {typeName}"

namespace Condition

/-- Words that a scan does not take for names. -/
def notNames : List String :=
  ["true", "false", "int", "bool", "if", "else", "let", "const", "fn", "in", "return", "this"]

/-- What is behind a text in double quotes, where a backslash hides the character
behind it; none if the text does not end. -/
def behindQuoted : List Char → Option (List Char)
  | [] => none
  | '"' :: rest => some rest
  | '\\' :: '\n' :: _ => none
  | '\\' :: _ :: rest => behindQuoted rest
  | ['\\'] => none
  | _ :: rest => behindQuoted rest

theorem length_behindQuoted_lt {s r : List Char} (h : behindQuoted s = some r) :
    r.length < s.length := by
  fun_induction behindQuoted s <;> simp_all <;> omega

/-- The words of a text outside double quotes. -/
def words (s : List Char) : List String :=
  match s with
  | [] => []
  | '"' :: rest =>
    match h : behindQuoted rest with
    | some behind =>
      have := length_behindQuoted_lt h
      words behind
    | none => words rest
  | c :: rest =>
    if isNameStart c then
      have := (List.dropWhile_sublist isNameChar (l := rest)).length_le
      String.ofList (c :: rest.takeWhile isNameChar) :: words (rest.dropWhile isNameChar)
    else words rest
termination_by s.length

/-- The names in an expression, each once, in the order of their first places. -/
def namesIn (expr : String) : List String :=
  ((words expr.toList).filter fun w => !notNames.contains w).eraseDups

/-- What the names of a condition stand for. -/
def bindings (c : Condition) (scope : Scope) : List (String × String) :=
  (namesIn c.expr).map fun name =>
    (name, (c.args.get? name).getD (((scope.get? name).map Value.display).getD ""))

/-- Whether a condition holds where its names stand for texts. -/
def holdsUnder (engine : ConditionEngine) (expr : String) (names : List (String × String)) :
    Except ConditionFault Bool :=
  match engine.evaluate expr names with
  | .error reason => .error (.expression reason)
  | .ok (.truth b) => .ok b
  | .ok (.other typeName) => .error (.notBool typeName)

/-- Whether a condition holds. -/
def holds (c : Condition) (scope : Scope) (engine : ConditionEngine := .builtin) :
    Except ConditionFault Bool :=
  holdsUnder engine c.expr (c.bindings scope)

/-- What is noted down about a condition: that its expression has no value, or that it
does not hold. -/
def notice? (c : Condition) (scope : Scope) (engine : ConditionEngine) : Option String :=
  let told := fun what =>
    let args := Text.joinWith ", "
      ((c.bindings scope).map fun (name, text) => s!"{name}={Text.quoted text}")
    s!"{what} by condition \x60{c.expr}\x60, args: [{args}]"
  match c.holds scope engine with
  | .error (.expression _) => some (told "failed")
  | .ok false => some (told "skip")
  | _ => none

end Condition

end HttpSuite
