import HttpSuite.Config.Spec

/-!
# Writing suites

The value that says a part of a suite: an object with all fields, in a fixed
order, those without a value null.
-/

namespace HttpSuite

/-- The value of something that may be missing. -/
def Value.ofOption {α : Type} (f : α → Value) : Option α → Value
  | some a => f a
  | none => .null

/-- The value of items. -/
def Value.ofList {α : Type} (f : α → Value) (as : List α) : Value := .array (as.map f)

/-- The value of named things. -/
def Value.ofMap {α : Type} (f : α → Value) (m : OrderedMap α) : Value :=
  .object (m.toList.map fun e => (e.1, f e.2))

/-- The value of a template: its text. -/
def Template.toValue (t : Template) : Value := .string t.source

/-- The value of named templates. -/
def Template.mapToValue (m : OrderedMap Template) : Value := Value.ofMap Template.toValue m

/-- The value of a condition. -/
def ConditionSpec.toValue (c : ConditionSpec) : Value :=
  .object [("expr", .string c.expr), ("args", Template.mapToValue c.args)]

/-- The value of a request. -/
def RequestSpec.toValue (r : RequestSpec) : Value :=
  .object
    [("host", Value.ofOption Template.toValue r.host),
      ("scheme", Value.ofOption Template.toValue r.scheme),
      ("api", Value.ofOption Template.toValue r.api),
      ("headers", Template.mapToValue r.headers),
      ("body", Value.ofOption Template.toValue r.body)]

/-- The value of a length of time: its text. -/
def Duration.toValue (d : Duration) : Value := .string d.render

/-- The value of how long and how often to ask again. -/
def PollingSpec.toValue (p : PollingSpec) : Value :=
  .object
    [("timeout", Value.ofOption Duration.toValue p.timeout),
      ("interval", Value.ofOption Duration.toValue p.interval)]

/-- The value of what is expected of a response. -/
def ResponseSpec.toValue (r : ResponseSpec) : Value :=
  .object
    [("statusCode", Value.ofOption Value.ofNat r.statusCode),
      ("headers", Template.mapToValue r.headers),
      ("body", Value.ofOption Template.toValue r.body),
      ("eventually", Value.ofOption PollingSpec.toValue r.eventually)]

/-- The value of a variable that is taken from the response. -/
def DefinitionSpec.toValue (d : DefinitionSpec) : Value :=
  .object
    [("name", .string d.name), ("type", .string d.origin.name),
      ("selector", Value.ofList Template.toValue d.selector)]

/-- The value of a round trip. -/
def RoundTripSpec.toValue (r : RoundTripSpec) : Value :=
  .object
    [("description", .string r.description), ("client", Value.ofOption .string r.client),
      ("loop", .ofNat r.loop), ("when", Value.ofOption ConditionSpec.toValue r.condition),
      ("request", r.request.toValue), ("response", r.response.toValue),
      ("definitions", Value.ofList DefinitionSpec.toValue r.definitions)]

/-- The value of a presetter with its arguments. -/
def PresetSpec.toValue (p : PresetSpec) : Value :=
  .object [("name", .string p.name), ("args", Template.mapToValue p.args)]

/-- The value of a cleaner with its arguments. -/
def CleanerSpec.toValue (c : CleanerSpec) : Value :=
  .object
    [("name", .string c.name), ("forEach", .bool c.forEach), ("args", Template.mapToValue c.args)]

/-- The value of a validated flow. -/
def ValidatedFlow.toValue (f : ValidatedFlow) : Value :=
  .object
    [("constructor", Value.ofList RoundTripSpec.toValue f.constructor),
      ("validator", Value.ofList RoundTripSpec.toValue f.validator)]

/-- The value of a variable that is handed to what is inside. -/
def ExportSpec.toValue (e : ExportSpec) : Value :=
  .object [("name", .string e.name), ("selector", Value.ofList Template.toValue e.selector)]

/-- The value of a context. -/
def ContextSpec.toValue (c : ContextSpec) : Value :=
  .object
    [("summary", .string c.summary), ("description", .string c.description),
      ("presetters", Value.ofList PresetSpec.toValue c.presetters),
      ("flow", Value.ofList RoundTripSpec.toValue c.flow),
      ("validatedFlow", Value.ofList ValidatedFlow.toValue c.validatedFlow),
      ("cleaners", Value.ofList CleanerSpec.toValue c.cleaners),
      ("exports", Value.ofList ExportSpec.toValue c.exports)]

/-- The value of a case. -/
def CaseSpec.toValue (c : CaseSpec) : Value :=
  .object
    [("summary", .string c.summary), ("description", .string c.description),
      ("flow", Value.ofList RoundTripSpec.toValue c.flow),
      ("labels", Value.ofList .string c.labels)]

end HttpSuite
