import HttpSuite.Config.Error
import HttpSuite.Config.Spec
import HttpSuite.Yaml.Resolve

/-!
# Reading suites

How the nodes of a document become the parts of a suite. A mapping is read field
by field, in the order in which it is written, and every field may occur once.
Nothing at all stands for what has no fields, no items and no entries; null does
not, except where something is optional.
-/

namespace HttpSuite

/-- A way of reading a node. -/
abbrev NodeReader (α : Type) := Yaml.Node → Except DocumentError α

namespace NodeReader

open HttpSuite.Yaml (Node)

/-- Reads a text: the source of any scalar. -/
def text : NodeReader String
  | .scalar _ _ s => .ok s
  | _ => .error .malformed

/-- Reads something that may be null. -/
def optional {α : Type} (read : NodeReader α) : NodeReader (Option α) := fun n =>
  let present := (read n).map some
  match n with
  | .void => .ok none
  | .scalar tag style s =>
    if style != .plain then present
    else
      match tag with
      | none => if s.isEmpty || Yaml.isNullWord s then .ok none else present
      | some tag =>
        if tag == Yaml.standardTag "null" then
          if Yaml.isNullWord s then .ok none else .error .malformed
        else present
  | _ => present

/-- Whether a node is nothing at all. -/
def isNothing : Node → Bool
  | .void => true
  | .scalar _ style s => style == .plain && s.isEmpty
  | _ => false

/-- Reads items. -/
def list {α : Type} (read : NodeReader α) : NodeReader (List α)
  | .sequence _ items => items.mapM read
  | n => if isNothing n then .ok [] else .error .malformed

/-- The entries of a mapping. -/
def entries : NodeReader (List (Node × Node))
  | .mapping _ es => .ok es
  | n => if isNothing n then .ok [] else .error .malformed

/-- Reads entries with any names; a name that occurs twice keeps its first place and
its last value. -/
def map {α : Type} (read : NodeReader α) : NodeReader (OrderedMap α) := fun n => do
  let es ← entries n
  let pairs ← es.mapM fun (k, v) => do return (← text k, ← read v)
  return OrderedMap.ofList pairs

/-- The source of a scalar that is not quoted, or of a block whose tag asks for a
kind of scalar. -/
def bareText? (kind : String) : Node → Option String
  | .scalar tag style s =>
    if style == .plain || (style == .literal && tag == some (Yaml.standardTag kind)) then some s
    else none
  | _ => none

/-- Reads a truth value. -/
def truth : NodeReader Bool := fun n =>
  match (bareText? "bool" n).bind Yaml.truthWord? with
  | some b => .ok b
  | none => .error .malformed

/-- Reads a natural number below a bound. -/
def natural (bound : Nat) : NodeReader Nat := fun n =>
  match (bareText? "int" n).bind fun s => Yaml.natural? (Nat.pow 2 64) s.toList with
  | some k => if k < bound then .ok k else .error .malformed
  | none => .error .malformed

/-- The text of a template: that of a text, nothing for null, and the compact JSON of
anything else. -/
def templateSource : NodeReader String := fun n =>
  match n.value? false with
  | some (.string s) => .ok s
  | some .null => .ok ""
  | some v => .ok v.render
  | none => .error .malformed

/-- Reads a template. -/
def template : NodeReader Template := fun n => do
  let source ← templateSource n
  match Template.parse source with
  | .ok t => .ok t
  | .error e => .error (.template e)

/-- Reads a length of time; blanks alone stand for none. -/
def duration : NodeReader (Option Duration) := fun n => do
  match ← optional text n with
  | none => return none
  | some raw =>
    let trimmed := Text.trim raw
    if trimmed.isEmpty then return none
    match Duration.parse? trimmed with
    | some d => return some d
    | none => throw (.invalidDuration raw)

/-- Reads the part of a response that a variable is taken from. -/
def origin : NodeReader Origin := fun n => do
  let name := (← optional text n).getD ""
  match Origin.ofName? name with
  | some o => .ok o
  | none => .error (.unknownOrigin name)

/-- A field of something that is read into an `α`. -/
structure Field (α : Type) where
  /-- Its name. -/
  name : String
  /-- Another name for it. -/
  otherName : Option String
  /-- Whether it must be there. -/
  required : Bool
  /-- Reads its value into what has been read so far. -/
  read : Node → α → Except DocumentError α

/-- A field that may be left out. -/
def field {α β : Type} (name : String) (read : NodeReader β) (set : α → β → α) : Field α :=
  ⟨name, none, false, fun n a => (read n).map (set a)⟩

/-- A field that must be there. -/
def requiredField {α β : Type} (name : String) (read : NodeReader β) (set : α → β → α) :
    Field α :=
  ⟨name, none, true, fun n a => (read n).map (set a)⟩

/-- Reads the entries of a mapping into `start`, one after another. -/
def readEntries {α : Type} (fields : List (Field α)) (seen : List String) (start : α) :
    List (Node × Node) → Except DocumentError (List String × α)
  | [] => .ok (seen, start)
  | (k, v) :: rest => do
    let key ← text k
    match fields.find? fun f => f.name == key || f.otherName == some key with
    | none => .error (.unknownField key)
    | some f =>
      if seen.contains f.name then .error (.duplicateField f.name)
      else
        let next ← f.read v start
        readEntries fields (f.name :: seen) next rest

/-- Reads a mapping with certain fields. -/
def struct {α : Type} (fields : List (Field α)) (start : α) : NodeReader α := fun n => do
  let es ← entries n
  let (seen, a) ← readEntries fields [] start es
  match fields.find? fun f => f.required && !seen.contains f.name with
  | some f => .error (.missingField f.name)
  | none => .ok a

/-! ### The parts of a suite -/

/-- Reads a condition. -/
def condition : NodeReader ConditionSpec :=
  struct
    [requiredField "expr" text fun c v => { c with expr := v },
      field "args" (map template) fun c v => { c with args := v }]
    ⟨"", .empty⟩

/-- Reads a request. -/
def request : NodeReader RequestSpec :=
  struct
    [field "host" (optional template) fun r v => { r with host := v },
      field "scheme" (optional template) fun r v => { r with scheme := v },
      field "api" (optional template) fun r v => { r with api := v },
      field "headers" (map template) fun r v => { r with headers := v },
      field "body" (optional template) fun r v => { r with body := v }]
    {}

/-- Reads how long and how often to ask again. -/
def polling : NodeReader PollingSpec :=
  struct
    [field "timeout" duration fun p v => { p with timeout := v },
      field "interval" duration fun p v => { p with interval := v }]
    {}

/-- Reads what is expected of a response. -/
def response : NodeReader ResponseSpec :=
  struct
    [field "statusCode" (optional (natural 65536)) fun r v => { r with statusCode := v },
      field "headers" (map template) fun r v => { r with headers := v },
      field "body" (optional template) fun r v => { r with body := v },
      field "eventually" (optional polling) fun r v => { r with eventually := v }]
    {}

/-- Reads a variable that is taken from the response. -/
def definition : NodeReader DefinitionSpec :=
  struct
    [requiredField "name" text fun d v => { d with name := v },
      field "type" origin fun d v => { d with origin := v },
      field "selector" (list template) fun d v => { d with selector := v }]
    { name := "" }

/-- Reads a round trip. -/
def roundTrip : NodeReader RoundTripSpec :=
  struct
    [field "description" text fun r v => { r with description := v },
      field "client" (optional text) fun r v => { r with client := v },
      field "loop" (natural (Nat.pow 2 64)) fun r v => { r with loop := v },
      field "when" (optional condition) fun r v => { r with condition := v },
      field "request" request fun r v => { r with request := v },
      field "response" response fun r v => { r with response := v },
      field "definitions" (list definition) fun r v => { r with definitions := v }]
    {}

/-- Reads a presetter with its arguments. -/
def preset : NodeReader PresetSpec :=
  struct
    [requiredField "name" text fun p v => { p with name := v },
      field "args" (map template) fun p v => { p with args := v }]
    { name := "" }

/-- Reads a cleaner with its arguments. -/
def cleaner : NodeReader CleanerSpec :=
  struct
    [requiredField "name" text fun c v => { c with name := v },
      field "forEach" truth fun c v => { c with forEach := v },
      field "args" (map template) fun c v => { c with args := v }]
    { name := "" }

/-- Reads a validated flow. -/
def validatedFlow : NodeReader ValidatedFlow :=
  struct
    [field "constructor" (list roundTrip) fun f v => { f with constructor := v },
      field "validator" (list roundTrip) fun f v => { f with validator := v }]
    {}

/-- Reads a variable that is handed to what is inside. -/
def «export» : NodeReader ExportSpec :=
  struct
    [requiredField "name" text fun e v => { e with name := v },
      field "selector" (list template) fun e v => { e with selector := v }]
    { name := "" }

/-- Reads a context. -/
def context : NodeReader ContextSpec :=
  struct
    [field "summary" text fun c v => { c with summary := v },
      field "description" text fun c v => { c with description := v },
      { field "presetters" (list preset) fun c v => { c with presetters := v } with
        otherName := some "presetter" },
      field "flow" (list roundTrip) fun c v => { c with flow := v },
      field "validatedFlow" (list validatedFlow) fun c v => { c with validatedFlow := v },
      { field "cleaners" (list cleaner) fun c v => { c with cleaners := v } with
        otherName := some "cleaner" },
      field "exports" (list «export») fun c v => { c with exports := v }]
    {}

/-- Reads a case. -/
def case : NodeReader CaseSpec :=
  struct
    [field "summary" text fun c v => { c with summary := v },
      field "description" text fun c v => { c with description := v },
      field "flow" (list roundTrip) fun c v => { c with flow := v },
      field "labels" (list text) fun c v => { c with labels := v }]
    {}

/-- Reads a text. What is wrong behind the document counts only if the document can
be read. -/
def ofText {α : Type} (read : NodeReader α) (source : String) : Except DocumentError α := do
  let document := Yaml.Document.ofText source
  let a ← read document.root
  if document.ended then .ok a else .error .malformed

end NodeReader

end HttpSuite
