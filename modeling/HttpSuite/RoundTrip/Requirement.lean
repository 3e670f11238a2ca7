import HttpSuite.Http.Response
import HttpSuite.Pattern.Check
import HttpSuite.Pattern.Reader
import HttpSuite.RoundTrip.Basic

/-!
# Requirements

What a round trip expects of a response, and the variables that it takes from one
that is as expected. All expectations are looked at, so that a report tells
everything that is wrong; but variables are taken only if nothing is.
-/

namespace HttpSuite

/-- What is expected of a body. -/
inductive BodyRequirement where
  /-- Nothing. -/
  | unchecked
  /-- That there is none. -/
  | empty
  /-- That it is JSON and fits a pattern. -/
  | fits (pattern : Pattern)

/-- What is expected of a response, and what is taken from it. -/
structure Requirement where
  /-- The status, if it matters. -/
  statusCode : Option Nat
  /-- Headers and their values. -/
  headers : OrderedMap String
  /-- The body. -/
  body : BodyRequirement
  /-- The variables that are taken from the response. -/
  definitions : List Definition

namespace Requirement

/-- What is expected of a body by the text of a pattern. -/
def bodyOf (engine : RegexEngine) : Option String → Except PatternError BodyRequirement
  | none => .ok .unchecked
  | some text => if text.isEmpty then .ok .empty else (Pattern.ofJson text engine).map .fits

/-- What a round trip expects. -/
def ofRoundTrip (r : RoundTrip) (engine : RegexEngine := .builtin) :
    Except PatternError Requirement :=
  (bodyOf engine r.response.body).map fun body =>
    ⟨r.response.statusCode, r.response.headers, body, r.definitions⟩

/-- What is wrong with the status. -/
def statusFailures (expected : Option Nat) (response : Response) : List MatchFailure :=
  match expected.filter (· != response.status) with
  | none => []
  | some status =>
    [.leaf s!"status code is not matched, expected: {status}, actual: {response.status}",
      .leaf s!"api status: {response.bodyText}"]

/-- What is wrong with a header; one that is missing counts as empty. -/
def headerFailure? (response : Response) (name expected : String) : Option MatchFailure :=
  let actual := (response.header? name).getD ""
  if actual == expected then none
  else
    some (.leaf
      s!"response header {name} is not matched, expected: {expected}, actual: {actual}")

/-- What is wrong with the body, and the value that it says if that had to be read. -/
def checkBody (expected : BodyRequirement) (response : Response) :
    List MatchFailure × Option Value :=
  match expected with
  | .unchecked => ([], none)
  | .empty =>
    if response.body.isEmpty then ([], none)
    else ([.leaf s!"body should be empty, actual: {response.bodyText}"], none)
  | .fits pattern =>
    match response.json? with
    | none =>
      ([.leaf (s!"can't unmarshal body({response.bodyText}) to json, "
        ++ "only json Content-Type is supported")], none)
    | some value =>
      match pattern.check value with
      | [] => ([], some value)
      | failures => ([.nested "can't match response body:" failures], some value)

/-- Everything that is wrong with a response, and the value of its body if that had to be
read. -/
def failures (e : Requirement) (response : Response) : List MatchFailure × Option Value :=
  let (bodyFailures, parsed) := checkBody e.body response
  (statusFailures e.statusCode response
    ++ e.headers.toList.filterMap (fun (name, expected) => headerFailure? response name expected)
    ++ bodyFailures, parsed)

/-- The header that a variable is taken from. -/
def extractHeader (d : Definition) (response : Response) : Except MatchFailure Value :=
  match d.selector with
  | [name] =>
    match response.header? name with
    | some value => .ok (.string value)
    | none => .error (.leaf s!"can't define variable {d.name}: header {name} is not found")
  | selector =>
    .error (.leaf (s!"header definition {d.name} expected selector with len 1, "
      ++ s!"actual is {Text.quotedList selector}"))

/-- The place in the body that a variable is taken from. -/
def extractPlace (d : Definition) (body : Value) : Except MatchFailure Value :=
  match body.select d.selector with
  | .ok value => .ok value
  | .error e =>
    .error (.leaf
      s!"can't define variable {d.name} from {Text.quotedList d.selector}: {e.message}")

/-- The value of a variable, or why it has none. The body is read at most once for all
variables: `parsed` is its value if that has been done, and what is returned beside the
variable is its value if that has been done by then. -/
def extract (d : Definition) (response : Response) (parsed : Option Value) :
    Except MatchFailure Value × Option Value :=
  match d.origin with
  | .status => (.ok (.ofNat response.status), parsed)
  | .header => (extractHeader d response, parsed)
  | .body =>
    match parsed.or response.json? with
    | none =>
      (.error (.leaf s!"can't define variable {d.name}: body is not json: expected a value"), none)
    | some body => (extractPlace d body, some body)

/-- Takes variables from a response: those that have a value, and why others have none. -/
def extractAll (response : Response) :
    (parsed : Option Value) → List Definition → Scope → List MatchFailure →
      Except (List MatchFailure) Scope
  | _, [], scope, [] => .ok scope
  | _, [], _, failures => .error failures
  | parsed, d :: rest, scope, failures =>
    match extract d response parsed with
    | (.ok value, parsed) =>
      extractAll response parsed rest (scope.insert d.name value) failures
    | (.error failure, parsed) =>
      extractAll response parsed rest scope (failures ++ [failure])

/-- The variables of a response that is as expected, or what is wrong with it. -/
def check (e : Requirement) (response : Response) : Except (List MatchFailure) Scope :=
  match e.failures response with
  | ([], parsed) => extractAll response parsed e.definitions .empty []
  | (failures, _) => .error failures

end Requirement

end HttpSuite
