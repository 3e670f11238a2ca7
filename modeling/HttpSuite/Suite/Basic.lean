import HttpSuite.Suite.Execution

/-!
# Suites

A suite collects variables, folders of cases, and what cases may refer to by name. No
name is ever given twice. Running it loads all folders and checks the names that their
contexts refer to before anything is sent.
-/

namespace HttpSuite

/-- A suite. -/
structure Suite where
  /-- The settings. -/
  settings : Settings
  /-- The variables that all contexts and cases see. -/
  vars : Scope := .empty
  /-- The paths of the folders. -/
  folders : List String := []
  /-- The presetters, by name. -/
  presetters : OrderedMap Presetter
  /-- The cleaners, by name. -/
  cleaners : OrderedMap Cleaner := .empty
  /-- The clients. -/
  clients : Clients
  /-- The functions of templates. -/
  functions : FunctionRegistry
  /-- What evaluates conditions and reads patterns. -/
  engines : Engines := .builtin

/-- Something that is registered by name. -/
inductive Registered where
  | presetter
  | cleaner
  | client
  deriving DecidableEq, Repr

/-- The word for something that is registered. -/
def Registered.word : Registered → String
  | .presetter => "presetter"
  | .cleaner => "cleaner"
  | .client => "client"

/-- Why a suite refuses something or cannot be run. -/
inductive SuiteError where
  /-- A variable is there already. -/
  | variableDefined (name : String)
  /-- A name is taken. -/
  | duplicate (what : Registered) (name : String)
  /-- The settings make no sense. -/
  | settings (fault : SettingsFault)
  /-- A function cannot be registered. -/
  | function (fault : TemplateError)
  /-- A folder cannot be loaded. -/
  | load (fault : LoadError)
  /-- A context refers to a name that does not exist. -/
  | collaborator (context : String) (fault : ContextError)

/-- The words for what a suite refuses. -/
def SuiteError.message : SuiteError → String
  | .variableDefined name => s!"{name} has been defined"
  | .duplicate what name => s!"can't register {what.word} {name}: already exists"
  | .settings fault => s!"invalid runner config: {fault.message}"
  | .function fault => fault.message
  | .load fault => fault.message
  | .collaborator context fault => s!"context {context}: {fault.message}"

namespace Suite

/-- A suite with nothing but what is always there. -/
def create (chance : Chance) (settings : Settings) (engines : Engines := .builtin) :
    Except SuiteError Suite :=
  match settings.fault? with
  | some fault => .error (.settings fault)
  | none =>
    .ok
      { settings := settings
        presetters := Presetter.builtins
        clients := { usual := settings.client }
        functions := .builtins chance engines.samples
        engines := engines }

/-- Sets a variable that is not there. -/
def setVariable (suite : Suite) (name : String) (value : Value) : Except SuiteError Suite :=
  if suite.vars.contains name then .error (.variableDefined name)
  else .ok { suite with vars := suite.vars.insert name value }

/-- Adds folders. -/
def addFolders (suite : Suite) (paths : List String) : Suite :=
  { suite with folders := suite.folders ++ paths }

/-- Registers a presetter. -/
def registerPresetter (suite : Suite) (name : String) (presetter : Presetter) :
    Except SuiteError Suite :=
  if suite.presetters.contains name then .error (.duplicate .presetter name)
  else .ok { suite with presetters := suite.presetters.insert name presetter }

/-- Registers a cleaner. -/
def registerCleaner (suite : Suite) (name : String) (cleaner : Cleaner) :
    Except SuiteError Suite :=
  if suite.cleaners.contains name then .error (.duplicate .cleaner name)
  else .ok { suite with cleaners := suite.cleaners.insert name cleaner }

/-- Registers a client. -/
def registerClient (suite : Suite) (name : String) (client : Client) : Except SuiteError Suite :=
  match suite.clients.register? name client with
  | some clients => .ok { suite with clients := clients }
  | none => .error (.duplicate .client name)

/-- Registers a function of templates. -/
def registerFunction (suite : Suite) (name : String) (function : Callable) :
    Except SuiteError Suite :=
  match suite.functions.register name function with
  | .ok functions => .ok { suite with functions := functions }
  | .error fault => .error (.function fault)

/-- Loads folders in order, up to the first that cannot be loaded. -/
def loadAll (files : FileTree) (contextFile : String) : List String → Except LoadError (List Folder)
  | [] => .ok []
  | path :: rest =>
    match Folder.load files contextFile path with
    | .error e => .error e
    | .ok folder => (loadAll files contextFile rest).map (folder :: ·)

/-- What the contexts of a suite are run with. -/
def setup (suite : Suite) (service : Service) : Setup where
  toSender := suite.settings.sender service suite.clients suite.functions suite.engines
  presetters := suite.presetters
  cleaners := suite.cleaners

/-- The plan of a suite and how many folders it has, if nothing stands against it. -/
def plan (suite : Suite) (files : FileTree) : Except SuiteError (Plan × Nat) :=
  match loadAll files suite.settings.contextFile suite.folders with
  | .error e => .error (.load e)
  | .ok folders =>
    let plan := Plan.ofFolders (.ofSettings suite.settings) folders
    match Plan.checkCollaborators suite.presetters suite.cleaners plan.nodes with
    | .error (context, e) => .error (.collaborator context e)
    | .ok _ => .ok (plan, folders.length)

/-- Runs a suite. -/
def run (suite : Suite) (files : FileTree) (service : Service) : Action SuiteError Report :=
  fun journal =>
    match suite.plan files with
    | .error e => (.error e, journal)
    | .ok (plan, folders) =>
      let journal := journal.record
        (.noted .info s!"running {plan.cases.length} cases from {folders} data dirs")
      let (cases, progress) :=
        plan.execute (suite.setup service) (.root suite.vars) journal
      let report : Report := ⟨cases⟩
      (.ok report, progress.journal.record (.noted .info report.summary))

/-- What is said about a run that did not succeed: the error, or the report if a case
failed. -/
def complaint? : Except SuiteError Report → Option String
  | .ok report => if report.isSuccess then none else some report.render
  | .error e => some e.message

end Suite

end HttpSuite
