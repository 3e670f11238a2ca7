import HttpSuite.Http.Service
import HttpSuite.RoundTrip.Form

/-!
# Scripts of services

A script is a list of rules, written as values.
-/

namespace HttpSuite

/-- The pairs of texts in a list of pairs. -/
def Value.textPairs (v : Value) : List (String × String) :=
  (v.items.toOption.getD []).filterMap fun pair =>
    match pair with
    | .array [.string name, .string value] => some (name, value)
    | _ => none

/-- The answer of a value. -/
def Answer.ofValue (v : Value) : Answer where
  status := (v.natField? "status").getD 200
  headers := ((v.field? "headers").getD .null).textPairs
  body := Text.utf8 ((v.textField? "body").getD "").toList
  delay := .ofMillis ((v.natField? "delay_ms").getD 0)

/-- The rule of a value. -/
def ServiceRule.ofValue (v : Value) : ServiceRule where
  method := v.textField? "method"
  path := v.textField? "path"
  times := v.natField? "times"
  reply := if (v.field? "drop").any (fun d => d.truth.toOption.getD false) then .closed
    else .answer (.ofValue v)

end HttpSuite
