import HttpSuite.RoundTrip.Run
import HttpSuite.Suite.Files
import HttpSuite.Yaml.Resolve

/-!
# Settings

What applies to a whole run: which cases are chosen by their labels, how the context
files are called, and how long to wait. Settings that cannot be read are ignored as a
whole; settings that make no sense are refused.
-/

namespace HttpSuite

/-- The settings of a run. -/
structure Settings where
  /-- Labels, with commas between them; if there are any, other cases are left out. -/
  focus : String := ""
  /-- Labels, with commas between them, of cases that are left out. -/
  skip : String := ""
  /-- The name of the file that describes a folder. -/
  contextFile : String := "_context.yaml"
  /-- How many milliseconds to wait for a response. -/
  requestTimeout : Nat := 30000
  /-- For how many milliseconds to ask again. -/
  eventuallyTimeout : Nat := 1000
  /-- How many milliseconds to wait before asking again. -/
  eventuallyInterval : Nat := 100
  deriving DecidableEq, Repr, Inhabited

/-- What makes no sense about settings. -/
inductive SettingsFault where
  /-- There is no time for a response. -/
  | requestTimeout
  /-- There is no time between two attempts. -/
  | eventuallyInterval
  /-- Context files have no name. -/
  | contextFile
  deriving DecidableEq, Repr

/-- The words for what makes no sense. -/
def SettingsFault.message : SettingsFault → String
  | .requestTimeout => "requestTimeout must be greater than 0"
  | .eventuallyInterval => "eventuallyInterval must be greater than 0"
  | .contextFile => "contextFile must not be empty"

namespace Settings

/-- The first thing that makes no sense. -/
def fault? (s : Settings) : Option SettingsFault :=
  if s.requestTimeout == 0 then some .requestTimeout
  else if s.eventuallyInterval == 0 then some .eventuallyInterval
  else if (Text.trim s.contextFile).isEmpty then some .contextFile
  else none

/-- Settings on top of others. Labels are replaced only by labels. -/
def overlaid (below above : Settings) : Settings :=
  { above with
    focus := if above.focus.isEmpty then below.focus else above.focus
    skip := if above.skip.isEmpty then below.skip else above.skip }

/-- Settings with the labels of the surroundings, where there are any. -/
def withLabels (s : Settings) (focus skip : Option String) : Settings :=
  { s with focus := focus.getD s.focus, skip := skip.getD s.skip }

/-- The labels of a text with commas between them. -/
def labels (text : String) : List String :=
  (Text.splitBy (· == ',') text.toList).map (fun l => Text.trim (String.ofList l))
    |>.filter fun l => !l.isEmpty

/-- The text that a value is. -/
def text? : Value → Option String
  | .string s => some s
  | _ => none

/-- The word of 64 bits that a value is. -/
def word? : Value → Option Nat
  | .number (.int n) => if 0 ≤ n && n ≤ Number.maxUnsigned then some n.toNat else none
  | _ => none

/-- The names of the settings, in their order. -/
def names : List String :=
  ["focus", "skip", "contextFile", "requestTimeout", "eventuallyTimeout", "eventuallyInterval"]

/-- Changes the setting of a name, unless the value is of another kind. -/
def set? (s : Settings) (name : String) (v : Value) : Option Settings :=
  match name with
  | "focus" => (text? v).map fun t => { s with focus := t }
  | "skip" => (text? v).map fun t => { s with skip := t }
  | "contextFile" => (text? v).map fun t => { s with contextFile := t }
  | "requestTimeout" => (word? v).map fun n => { s with requestTimeout := n }
  | "eventuallyTimeout" => (word? v).map fun n => { s with eventuallyTimeout := n }
  | "eventuallyInterval" => (word? v).map fun n => { s with eventuallyInterval := n }
  | _ => some s

/-- Changes settings one after another. -/
def setAll? (s : Settings) : List (String × Value) → Option Settings
  | [] => some s
  | (name, v) :: rest => (s.set? name v).bind fun s => s.setAll? rest

/-- The settings that a value says, by name or in order. -/
def ofValue? : Value → Option Settings
  | .object fields => setAll? {} fields
  | .array items => if items.length ≤ names.length then setAll? {} (names.zip items) else none
  | _ => none

/-- The settings as a value. -/
def toValue (s : Settings) : Value :=
  .object
    [("focus", .string s.focus), ("skip", .string s.skip), ("contextFile", .string s.contextFile),
      ("requestTimeout", .ofNat s.requestTimeout),
      ("eventuallyTimeout", .ofNat s.eventuallyTimeout),
      ("eventuallyInterval", .ofNat s.eventuallyInterval)]

end Settings

/-- Why there are no settings. -/
inductive SettingsError where
  /-- Their file cannot be read. -/
  | unreadable (path : String) (fault : FileFault)
  /-- Their file is no document. -/
  | malformed (path : String)
  /-- They make no sense. -/
  | invalid (fault : SettingsFault)
  deriving DecidableEq, Repr

/-- The words for missing settings. -/
def SettingsError.message : SettingsError → String
  | .unreadable path fault => s!"can't read {path}: {fault.message}"
  | .malformed path => s!"can't parse {path}: malformed document"
  | .invalid fault => s!"invalid configuration: {fault.message}"

namespace Settings

/-- Under which name settings stand in a value. -/
def sectionName : String := "aloe"

/-- The settings that stand in a value. -/
def load (v : Option Value) : Except SettingsError Settings :=
  let own := match v with
    | some (.object fields) => Entries.get? fields sectionName
    | _ => none
  let settings := overlaid {} ((own.bind ofValue?).getD {})
  match settings.fault? with
  | some fault => .error (.invalid fault)
  | none => .ok settings

/-- The settings that stand in a file. -/
def loadFile (files : FileTree) (path : String) : Except SettingsError Settings :=
  match files.read path with
  | .error fault => .error (.unreadable path fault)
  | .ok content =>
    let document := Yaml.Document.ofText content
    match document.root.value? true with
    | some v => if document.ended then load (some v) else .error (.malformed path)
    | none => .error (.malformed path)

end Settings

namespace Settings

/-- The client that waits as long as the settings say. -/
def client (s : Settings) : Client := { timeout := some (.ofMillis s.requestTimeout) }

/-- What round trips are run with under the settings. -/
def sender (s : Settings) (service : Service) (clients : Clients)
    (functions : FunctionRegistry) (engines : Engines := .builtin) : Sender where
  service := service
  clients := clients
  functions := functions
  timeout := .ofMillis s.eventuallyTimeout
  interval := .ofMillis s.eventuallyInterval
  engines := engines

end Settings

/-- Which cases are run, by their labels. -/
structure LabelFilter where
  /-- If there are any, only cases with one of these are run. -/
  focus : List String := []
  /-- Otherwise cases with one of these are not run. -/
  skip : List String := []
  deriving DecidableEq, Repr, Inhabited

namespace LabelFilter

/-- The filter of settings. -/
def ofSettings (s : Settings) : LabelFilter := ⟨Settings.labels s.focus, Settings.labels s.skip⟩

/-- Whether a case with these labels is run. -/
def selects (filter : LabelFilter) (labels : List String) : Bool :=
  if filter.focus.isEmpty then !labels.any filter.skip.contains
  else labels.any filter.focus.contains

end LabelFilter

end HttpSuite
