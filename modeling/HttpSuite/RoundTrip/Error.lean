import HttpSuite.Condition.Basic
import HttpSuite.Http.Client
import HttpSuite.Pattern.Check
import HttpSuite.Pattern.Reader
import HttpSuite.RoundTrip.Basic

/-!
# What can go wrong with a round trip

Everything up to the client is a matter of the round trip alone. Then the request may
fail, and at last the response may not be what was expected.
-/

namespace HttpSuite

/-- A response that is not as expected. -/
structure Mismatch where
  /-- What the round trip is for. -/
  description : String
  /-- What was requested. -/
  request : String
  /-- Where the response differs. -/
  failures : List MatchFailure

/-- A report on a response that is not as expected. -/
def Mismatch.message (m : Mismatch) : String :=
  let heading := if m.description.isEmpty then "" else m.description ++ "\n"
  let differences := (Text.lines (MatchFailure.renderAll m.failures)).map fun line =>
    "  " ++ line ++ "\n"
  heading ++ m.request ++ "\nto match response: \x7b\n" ++ String.join differences ++ "\x7d"

/-- Why a round trip defines no variables. -/
inductive RoundTripError where
  /-- A template cannot be rendered. -/
  | render (field : String) (fault : TemplateError)
  /-- What should be a method and a path is not. -/
  | malformedApi (api : String)
  /-- There is no such method. -/
  | unknownMethod (name : String)
  /-- There is no request. -/
  | incomplete (fault : Incomplete)
  /-- What the body is compared with is no pattern. -/
  | pattern (fault : PatternError)
  /-- The condition is neither true nor false. -/
  | condition (expr : String) (fault : ConditionFault)
  /-- The request has no response. -/
  | send (fault : SendError)
  /-- The response is not as expected. -/
  | mismatch (mismatch : Mismatch)

namespace RoundTripError

/-- The words for a failed round trip. -/
def message : RoundTripError → String
  | render field fault => s!"can't render {field}: {fault.message}"
  | malformedApi api => s!"api {Text.quoted api} should be \"METHOD PATH\""
  | unknownMethod name => Method.unknownMessage name
  | incomplete fault => fault.message
  | pattern fault => s!"parse json error: {fault.message}"
  | condition expr fault => s!"condition \x60{expr}\x60 can't be evaluated: {fault.message}"
  | send fault => fault.message
  | mismatch m => m.message

/-- Whether there was a response that is not as expected. -/
def isMismatch : RoundTripError → Bool
  | mismatch _ => true
  | _ => false

end RoundTripError

end HttpSuite
