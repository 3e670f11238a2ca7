import HttpSuite.Suite.Session

/-!
# Suites that are changed in place

A session lends its suite out. It takes the suite from its place, or makes one if there is none,
puts it there and has something done to it, and what that leaves of the suite is what the session
has from then on, whether it has failed or not. So what a method does to a suite before it fails
would stay.

`InPlace` is for programs that do something in this way: what they have changed when they fail is
not taken back. The methods of suites and sessions are written as such programs. What they answer
and leave is what `Suite` and `Session` say: `outcome_changeUnless` is for all that a suite may
refuse, and `outcome_lend` for all that a session hands on.
-/

namespace HttpSuite

/-- Something that is done to a state in place, and what happens meanwhile. What has been changed
when it fails stays changed. -/
abbrev InPlace (σ α : Type) := EStateM SuiteError (σ × Journal) α

namespace InPlace

variable {σ α : Type}

/-- What is answered, what is left and what has happened. -/
def outcome (act : InPlace σ α) (state : σ) (journal : Journal) :
    Except SuiteError α × σ × Journal :=
  match act.run (state, journal) with
  | .ok a (state, journal) => (.ok a, state, journal)
  | .error e (state, journal) => (.error e, state, journal)

/-- Behind an error that is left which the outcome tells. -/
theorem outcome_eq_error_iff {act : InPlace σ α} {state left : σ} {journal after : Journal}
    {e : SuiteError} :
    act.outcome state journal = (.error e, left, after)
      ↔ act.run (state, journal) = .error e (left, after) := by
  unfold outcome
  rcases act.run (state, journal) with ⟨a, s, j⟩ | ⟨e', s, j⟩ <;> simp

/-- Something of which another answer is given. -/
theorem outcome_bind_pure {β : Type} (act : InPlace σ α) (f : α → β) (state : σ)
    (journal : Journal) :
    InPlace.outcome (do let a ← act; pure (f a)) state journal
      = ((act.outcome state journal).1.map f, (act.outcome state journal).2) := by
  unfold outcome
  rw [EStateM.run_bind]
  cases act.run (state, journal) <;> rfl

end InPlace

namespace Suite

/-- Changes a suite, unless something in it stands against that. -/
def changeUnless (taken : Suite → Bool) (fault : SuiteError) (change : Suite → Suite) :
    InPlace Suite Unit := do
  let (suite, _) ← get
  if taken suite then
    throw fault
  modify fun (suite, journal) => (change suite, journal)

/-- Sets a variable that is not there. -/
def setVariableInPlace (name : String) (value : Value) : InPlace Suite Unit :=
  changeUnless (fun suite => suite.vars.contains name) (.variableDefined name) fun suite =>
    { suite with vars := suite.vars.insert name value }

/-- Adds folders. -/
def addFoldersInPlace (paths : List String) : InPlace Suite Unit :=
  modify fun (suite, journal) => ({ suite with folders := suite.folders ++ paths }, journal)

/-- Registers a presetter. -/
def registerPresetterInPlace (name : String) (presetter : Presetter) : InPlace Suite Unit :=
  changeUnless (fun suite => suite.presetters.contains name) (.duplicate .presetter name)
    fun suite => { suite with presetters := suite.presetters.insert name presetter }

/-- Registers a cleaner. -/
def registerCleanerInPlace (name : String) (cleaner : Cleaner) : InPlace Suite Unit :=
  changeUnless (fun suite => suite.cleaners.contains name) (.duplicate .cleaner name)
    fun suite => { suite with cleaners := suite.cleaners.insert name cleaner }

/-- Registers a client. -/
def registerClientInPlace (name : String) (client : Client) : InPlace Suite Unit :=
  changeUnless (fun suite => suite.clients.named.contains name) (.duplicate .client name)
    fun suite =>
      { suite with
        clients := { suite.clients with named := suite.clients.named.insert name client } }

/-- Registers a function of templates. -/
def registerFunctionInPlace (name : String) (function : Callable) : InPlace Suite Unit :=
  changeUnless (fun suite => suite.functions.contains name) (.function (.duplicateFunction name))
    fun suite =>
      { suite with
        functions :=
          { suite.functions with functions := suite.functions.functions.insert name function } }

/-- Runs a suite, which is not changed by that. -/
def runInPlace (files : FileTree) (service : Service) : InPlace Suite Report := do
  let (suite, journal) ← get
  let (result, journal) := suite.run files service journal
  set (suite, journal)
  ofExcept result

/-- What a change that may be refused answers and leaves. -/
def leaving (suite : Suite) (journal : Journal) :
    Except SuiteError Suite → Except SuiteError Unit × Suite × Journal
  | .error e => (.error e, suite, journal)
  | .ok changed => (.ok (), changed, journal)

theorem registerClient_eq (suite : Suite) (name : String) (client : Client) :
    suite.registerClient name client
      = if suite.clients.named.contains name then .error (.duplicate .client name)
        else .ok
          { suite with
            clients :=
              { suite.clients with named := suite.clients.named.insert name client } } := by
  rw [registerClient, Clients.register?]
  cases suite.clients.named.contains name <;> rfl

theorem registerFunction_eq (suite : Suite) (name : String) (function : Callable) :
    suite.registerFunction name function
      = if suite.functions.contains name then .error (.function (.duplicateFunction name))
        else .ok
          { suite with
            functions :=
              { suite.functions with
                functions := suite.functions.functions.insert name function } } := by
  rw [registerFunction, FunctionRegistry.register]
  cases suite.functions.contains name <;> rfl

/-- A suite that refuses something is left as it was. -/
theorem outcome_changeUnless (taken : Suite → Bool) (fault : SuiteError)
    (change : Suite → Suite) (suite : Suite) (journal : Journal) :
    (changeUnless taken fault change).outcome suite journal
      = suite.leaving journal (if taken suite then .error fault else .ok (change suite)) := by
  unfold changeUnless InPlace.outcome
  cases htaken : taken suite <;> simp [htaken, leaving]

theorem outcome_runInPlace (files : FileTree) (service : Service) (suite : Suite)
    (journal : Journal) :
    (runInPlace files service).outcome suite journal
      = ((suite.run files service journal).1, suite, (suite.run files service journal).2) := by
  unfold runInPlace InPlace.outcome
  rcases hrun : suite.run files service journal with ⟨result, after⟩
  simp only [EStateM.run_bind, EStateM.run_get, hrun]
  cases result <;> rfl

end Suite

namespace Session

variable {α : Type}

/-- Has something done to a suite that is in its place in a session. -/
def within (suite : Suite) (act : InPlace Suite α) : InPlace Session α :=
  fun (_, journal) =>
    match act.run (suite, journal) with
    | .ok a (left, journal) => .ok a (some left, journal)
    | .error e (left, journal) => .error e (some left, journal)

/-- Has something done to the suite of a session, which is taken from its place, or made if there
is none, and put there first. -/
def lend (around : Surroundings) (engines : Engines) (act : InPlace Suite α) :
    InPlace Session α := do
  let taken ← modifyGet fun (session, journal) => (session, (none, journal))
  let suite ← match taken with
    | some suite => pure suite
    | none => ofExcept (Suite.create around.chance (usualSettings around) engines)
  within suite act

/-- Replaces the suite by a new one, unless the settings make no sense. -/
def configureInPlace (chance : Chance) (settings : Settings) (engines : Engines) :
    InPlace Session Unit := do
  let suite ← ofExcept (Suite.create chance settings engines)
  modify fun (_, journal) => (some suite, journal)

/-- Drops the suite. -/
def resetInPlace : InPlace Session Unit := modify fun (_, journal) => (none, journal)

variable {around : Surroundings} {engines : Engines} {session : Session} {suite : Suite}

/-- What is done to the suite of a session leaves there what it leaves of the suite. -/
theorem outcome_lend (h : session.suite around engines = .ok suite) (act : InPlace Suite α)
    (journal : Journal) :
    (lend around engines act).outcome session journal
      = ((act.outcome suite journal).1, some (act.outcome suite journal).2.1,
          (act.outcome suite journal).2.2) := by
  have hlend : (lend around engines act).run (session, journal)
      = (within suite act).run (none, journal) := by
    cases session with
    | some there =>
        cases h
        rfl
    | none =>
        rw [Session.suite] at h
        simp [lend, h, ofExcept]
  unfold InPlace.outcome
  rw [hlend, EStateM.run, within]
  cases act.run (suite, journal) <;> rfl

theorem outcome_configureInPlace (chance : Chance) (settings : Settings) (engines : Engines)
    (session : Session) (journal : Journal) :
    (configureInPlace chance settings engines).outcome session journal
      = ((session.configure chance settings engines).1,
          (session.configure chance settings engines).2, journal) := by
  unfold configureInPlace InPlace.outcome configure
  cases Suite.create chance settings engines <;> rfl

end Session

end HttpSuite
