import HttpSuite.RoundTrip.Basic

/-!
# Round trips as values

The value that says a round trip, with all fields in a fixed order, and back: of a
value that is read, fields may be missing, and then they are as in a round trip that
says nothing.
-/

namespace HttpSuite

/-- A length of time in seconds and the nanoseconds beyond them. -/
def Duration.toParts (d : Duration) : Value :=
  .object
    [("secs", .ofNat (d.nanos / Duration.second)), ("nanos", .ofNat (d.nanos % Duration.second))]

/-- The value of a request layer. -/
def RequestLayer.toValue (r : RequestLayer) : Value :=
  .object
    [("scheme", Value.ofOption .string r.scheme), ("host", Value.ofOption .string r.host),
      ("method", Value.ofOption (fun m => .string m.name) r.method),
      ("path", Value.ofOption .string r.path),
      ("path_template", Value.ofOption .string r.pathTemplate),
      ("headers", Value.ofMap .string r.headers), ("body", Value.ofOption .string r.body)]

/-- The value of polling. -/
def Polling.toValue (p : Polling) : Value :=
  .object
    [("timeout", Value.ofOption Duration.toParts p.timeout),
      ("interval", Value.ofOption Duration.toParts p.interval)]

/-- The value of a response layer. -/
def ResponseLayer.toValue (r : ResponseLayer) : Value :=
  .object
    [("status_code", Value.ofOption .ofNat r.statusCode),
      ("headers", Value.ofMap .string r.headers), ("body", Value.ofOption .string r.body),
      ("eventually", Value.ofOption Polling.toValue r.eventually)]

/-- The value of a definition. -/
def Definition.toValue (d : Definition) : Value :=
  .object
    [("name", .string d.name), ("kind", .string d.origin.name),
      ("selector", Value.ofList .string d.selector)]

/-- The value of a round trip. -/
def RoundTrip.toValue (r : RoundTrip) : Value :=
  .object
    [("description", .string r.description), ("client", Value.ofOption .string r.client),
      ("request", r.request.toValue), ("response", r.response.toValue),
      ("definitions", Value.ofList Definition.toValue r.definitions)]

namespace Value

/-- The field of a name, if it is there and not null. -/
def field? (v : Value) (name : String) : Option Value :=
  match v with
  | object fields => (Entries.get? fields name).filter fun v => !v.isNull
  | _ => none

/-- The text of a field. -/
def textField? (v : Value) (name : String) : Option String :=
  (v.field? name).bind fun v => v.text.toOption

/-- The natural number of a field. -/
def natField? (v : Value) (name : String) : Option Nat :=
  (v.field? name).bind fun v =>
    match v with
    | number (.int n) => if 0 ≤ n then some n.toNat else none
    | _ => none

/-- The items of a field. -/
def itemsField (v : Value) (name : String) : List Value :=
  ((v.field? name).bind fun v => v.items.toOption).getD []

/-- The texts in an object. -/
def textMap (v : Value) : OrderedMap String :=
  OrderedMap.ofList ((v.fields.toOption.getD []).filterMap fun e =>
    e.2.text.toOption.map fun s => (e.1, s))

/-- The length of time of a field, in seconds and nanoseconds. -/
def durationField? (v : Value) (name : String) : Option Duration :=
  (v.field? name).map fun d =>
    ⟨(d.natField? "secs").getD 0 * Duration.second + (d.natField? "nanos").getD 0⟩

end Value

/-- The request layer of a value. -/
def RequestLayer.ofValue (v : Value) : RequestLayer where
  scheme := v.textField? "scheme"
  host := v.textField? "host"
  method := (v.textField? "method").bind Method.ofCapitals?
  path := v.textField? "path"
  pathTemplate := v.textField? "path_template"
  headers := ((v.field? "headers").getD .null).textMap
  body := v.textField? "body"

/-- The polling of a value. -/
def Polling.ofValue (v : Value) : Polling where
  timeout := v.durationField? "timeout"
  interval := v.durationField? "interval"

/-- The response layer of a value. -/
def ResponseLayer.ofValue (v : Value) : ResponseLayer where
  statusCode := v.natField? "status_code"
  headers := ((v.field? "headers").getD .null).textMap
  body := v.textField? "body"
  eventually := (v.field? "eventually").map Polling.ofValue

/-- The definition of a value. -/
def Definition.ofValue (v : Value) : Definition where
  name := (v.textField? "name").getD ""
  origin := ((v.textField? "kind").bind Origin.ofName?).getD .body
  selector := (v.itemsField "selector").filterMap fun v => v.text.toOption

/-- The round trip of a value. -/
def RoundTrip.ofValue (v : Value) : RoundTrip where
  description := (v.textField? "description").getD ""
  client := v.textField? "client"
  request := RequestLayer.ofValue ((v.field? "request").getD .null)
  response := ResponseLayer.ofValue ((v.field? "response").getD .null)
  definitions := (v.itemsField "definitions").map Definition.ofValue

end HttpSuite
