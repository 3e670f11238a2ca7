import HttpSuite.Condition.Eval

/-!
# Engines of conditions

What an expression comes to is for an engine to say. All that a condition asks of it is
whether the value is a truth value, and otherwise the word for its type. One engine is at
hand here.
-/

namespace HttpSuite

/-- What an expression comes to. -/
inductive Verdict where
  /-- A truth value. -/
  | truth (b : Bool)
  /-- A value of another type. -/
  | other (typeName : String)

/-- What evaluates expressions. -/
structure ConditionEngine where
  /-- What an expression comes to where names stand for texts, or why it has no value. -/
  evaluate : (expr : String) → (names : List (String × String)) → Except String Verdict

open Condition in
/-- The engine that is at hand. -/
def ConditionEngine.builtin : ConditionEngine where
  evaluate expr names :=
    match (Expr.parse? expr).elim (.error .malformed) fun e => e.eval fun n => names.lookup n with
    | .error fault => .error fault.message
    | .ok (.bool b) => .ok (.truth b)
    | .ok v => .ok (.other v.typeName)

end HttpSuite
