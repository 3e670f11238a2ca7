import HttpSuite.Preset
import HttpSuite.RoundTrip.Error

/-!
# Rendering round trips

Rendering replaces every template of a round trip by its text. What the round trip
says itself then lies on top of the template around it. Fields are rendered in a
fixed order, and the first that fails is the one that is reported.
-/

namespace HttpSuite

/-- Where templates are rendered. -/
structure Renderer where
  /-- The functions that can be called. -/
  functions : FunctionRegistry
  /-- The variables that can be referred to. -/
  scope : Scope

namespace Renderer

/-- Where a part of what is rendered is rendered: as the part of that number. -/
def within (renderer : Renderer) (part : Nat) : Renderer :=
  { renderer with functions := renderer.functions.within part }

/-- The text of the template of a field. -/
def text (renderer : Renderer) (field : String) (template : Template) :
    Except RoundTripError String :=
  match template.render renderer.functions renderer.scope with
  | .ok s => .ok s
  | .error fault => .error (.render field fault)

/-- The text of the template of a field that may be missing. -/
def text? (renderer : Renderer) (field : String) :
    Option Template → Except RoundTripError (Option String)
  | none => .ok none
  | some template => (renderer.text field template).map some

/-- The texts of named templates, in order. -/
def entries (renderer : Renderer) (field : String) :
    List (String × Template) → Except RoundTripError (List (String × String))
  | [] => .ok []
  | (name, template) :: rest => do
    let s ← (renderer.within rest.length).text s!"{field}.{name}" template
    return (name, s) :: (← renderer.entries field rest)

/-- The texts of arguments. -/
def args (renderer : Renderer) (field : String) (templates : OrderedMap Template) :
    Except RoundTripError (OrderedMap String) :=
  (renderer.entries field templates.toList).map .ofList

/-- The segments of a path. -/
def selector (renderer : Renderer) (field : String) :
    List Template → Except RoundTripError (List String)
  | [] => .ok []
  | template :: rest => do
    let s ← (renderer.within rest.length).text field template
    return s :: (← renderer.selector field rest)

/-- A condition. -/
def condition (renderer : Renderer) (spec : ConditionSpec) : Except RoundTripError Condition := do
  return { expr := spec.expr, args := ← (renderer.within 0).args "when.args" spec.args }

/-- A definition of a variable. -/
def definition (renderer : Renderer) (spec : DefinitionSpec) :
    Except RoundTripError Definition := do
  let path ← renderer.selector s!"definition {spec.name}" spec.selector
  return { name := spec.name, origin := spec.origin, selector := path }

/-- Definitions of variables. -/
def definitions (renderer : Renderer) :
    List DefinitionSpec → Except RoundTripError (List Definition)
  | [] => .ok []
  | spec :: rest => do
    let d ← (renderer.within rest.length).definition spec
    return d :: (← renderer.definitions rest)

end Renderer

/-- What stands between backticks. -/
def verbatim? (path : String) : Option String :=
  match path.toList with
  | '\x60' :: rest =>
    if rest.getLast? == some '\x60' then some (String.ofList rest.dropLast) else none
  | _ => none

/-- The method and the path of a text that has both, with a space between them. -/
def splitApi (api : String) : Except RoundTripError (Method × String) :=
  match Text.splitOnce? ' ' (Text.trim api).toList with
  | none => .error (.malformedApi api)
  | some (before, behind) =>
    let name := Text.trim (String.ofList before)
    match Method.ofName? name with
    | none => .error (.unknownMethod name)
    | some method => .ok (method, Text.trim (String.ofList behind))

/-- The path that is requested: verbatim if it stands between backticks, else inside
what the template puts around paths. -/
def wrapPath (around : Option String) (path : String) : String :=
  match verbatim? path, around with
  | some verbatim, _ => verbatim
  | none, some wrapper => Text.replaceFirst Presetter.pathMark path wrapper
  | none, none => path

namespace Renderer

/-- The method and the path of a request. -/
def api (renderer : Renderer) (around : Option String) :
    Option Template → Except RoundTripError (Option Method × Option String)
  | none => .ok (none, none)
  | some template => do
    let (method, path) ← splitApi (← renderer.text "request.api" template)
    return (some method, some (wrapPath around path))

/-- Headers under the usual spelling of their names. -/
def headers (renderer : Renderer) (field : String) (templates : OrderedMap Template) :
    Except RoundTripError (OrderedMap String) := do
  let rendered ← renderer.entries field templates.toList
  return .ofList (rendered.map fun (name, value) => (Http.canonicalName name, value))

/-- What a round trip says itself. -/
def layer (renderer : Renderer) (spec : RoundTripSpec) (around : Option String) :
    Except RoundTripError RoundTrip := do
  let host ← (renderer.within 1).text? "request.host" spec.request.host
  let scheme ← (renderer.within 2).text? "request.scheme" spec.request.scheme
  let (method, path) ← (renderer.within 3).api around spec.request.api
  let requestHeaders ← (renderer.within 4).headers "request.headers" spec.request.headers
  let requestBody ← (renderer.within 5).text? "request.body" spec.request.body
  let responseHeaders ← (renderer.within 6).headers "response.headers" spec.response.headers
  let responseBody ← (renderer.within 7).text? "response.body" spec.response.body
  let definitions ← (renderer.within 8).definitions spec.definitions
  return {
    description := spec.description
    client := spec.client.filter fun name => !name.isEmpty
    request := {
      scheme := scheme
      host := host
      method := method
      path := path
      headers := requestHeaders
      body := requestBody }
    response := {
      statusCode := spec.response.statusCode
      headers := responseHeaders
      body := responseBody
      eventually := spec.response.eventually.map fun p => ⟨p.timeout, p.interval⟩ }
    definitions := definitions }

/-- A round trip on top of the template around it. -/
def roundTrip (renderer : Renderer) (spec : RoundTripSpec) (template : RoundTrip) :
    Except RoundTripError RoundTrip :=
  (renderer.layer spec template.request.pathTemplate).map template.patched

end Renderer

end HttpSuite
