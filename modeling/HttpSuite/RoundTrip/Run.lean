import HttpSuite.Engines
import HttpSuite.Journal
import HttpSuite.RoundTrip.Attempts
import HttpSuite.RoundTrip.Requirement
import HttpSuite.RoundTrip.Render
import HttpSuite.Scope.Merge

/-!
# Running round trips

A round trip is rendered where it stands, sent, and its response is checked. Its
condition may leave it out. In a loop it is run again and again, each time in the
scope of the first time but for the variable that tells the number of the iteration;
what the iterations define is collected into arrays.
-/

namespace HttpSuite

/-- What round trips are run with. -/
structure Sender where
  /-- The service that requests are sent to. -/
  service : Service
  /-- The clients. -/
  clients : Clients
  /-- The functions of templates. -/
  functions : FunctionRegistry
  /-- How long to ask again, unless a round trip says so. -/
  timeout : Duration
  /-- How long to wait before asking again, unless a round trip says so. -/
  interval : Duration
  /-- What evaluates conditions and reads patterns. -/
  engines : Engines := .builtin

namespace Sender

/-- Where the templates of a round trip are rendered in view of a journal. -/
def renderer (sender : Sender) (scope : Scope) (journal : Journal) : Renderer :=
  ⟨sender.functions.upon journal.occasion, scope⟩

/-- One attempt of a request, and how long it took. -/
def attempt (sender : Sender) (client : Client) (request : Request) (requirement : Requirement)
    (journal : Journal) : (Except (List MatchFailure) Scope × Nat) × Journal :=
  match client.send sender.service request journal with
  | (.ok response, after) => ((requirement.check response, after.now - journal.now), after)
  | (.error e, after) =>
    ((.error [.leaf s!"request failed: {e.message}"], after.now - journal.now), after)

/-- The error of a response that is not as expected. -/
def mismatchOf (r : RoundTrip) (request : Request) (failures : List MatchFailure) :
    RoundTripError :=
  .mismatch ⟨r.description, request.display, failures⟩

/-- Sends the request of a round trip and checks the response. -/
def exchange (sender : Sender) (r : RoundTrip) (client : Client) (request : Request)
    (requirement : Requirement) : Action RoundTripError Scope :=
  match r.response.eventually with
  | none => do
    let response ← (client.send sender.service request).mapError .send
    Action.ofExcept (mismatchOf r request) (requirement.check response)
  | some polling => fun journal =>
    let timeout := polling.timeout.getD sender.timeout
    let interval := polling.interval.getD sender.interval
    match Attempts.run (sender.attempt client request requirement) Journal.wait timeout interval
      journal with
    | (.ok scope, journal) => (.ok scope, journal)
    | (.error failures, journal) => (.error (mismatchOf r request failures), journal)

/-- Runs a round trip that has been rendered. -/
def execute (sender : Sender) (r : RoundTrip) : Action RoundTripError Scope := do
  let request ← Action.ofExcept .incomplete r.toRequest
  Action.note .info s!"STEP: {r.description}: {request.display}"
  let requirement ← Action.ofExcept .pattern (Requirement.ofRoundTrip r sender.engines.regexes)
  let client ← Action.ofExcept .send (sender.clients.find r.client)
  sender.exchange r client request requirement

/-- Whether a condition holds; it is noted down if it does not. -/
def decide (engine : ConditionEngine) (condition : Condition) (scope : Scope) :
    Action RoundTripError Bool := do
  match condition.notice? scope engine with
  | some text => Action.note .info text
  | none => pure ()
  Action.ofExcept (.condition condition.expr) (condition.holds scope engine)

/-- Whether a round trip is to be run. -/
def isDue (sender : Sender) (spec : RoundTripSpec) (scope : Scope) :
    Action RoundTripError Bool :=
  match spec.condition with
  | none => pure true
  | some condition => do
    let rendered ← Action.inView fun journal => (sender.renderer scope journal).condition condition
    decide sender.engines.conditions rendered scope

/-- Runs a round trip once, unless its condition leaves it out. -/
def runOnce (sender : Sender) (spec : RoundTripSpec) (template : RoundTrip) (scope : Scope) :
    Action RoundTripError (Option Scope) := do
  if ← sender.isDue spec scope then
    let r ← Action.inView fun journal => (sender.renderer scope journal).roundTrip spec template
    return some (← sender.execute r)
  else return none

/-- The variable that tells the number of an iteration, in a form that selects an item. -/
def iterator : String := "iterator"

/-- The scope of an iteration. -/
def iterationScope (scope : Scope) (i : Nat) : Scope :=
  scope.insert iterator (.string s!"[{i}]")

/-- What an iteration that was left out defines. -/
def placeholder (spec : RoundTripSpec) : Scope :=
  .ofList (spec.definitions.map fun d => (d.name, .null))

/-- Runs `n` iterations, beginning with number `i`, and adds to what is collected. -/
def runIterations (sender : Sender) (spec : RoundTripSpec) (template : RoundTrip)
    (scope : Scope) : (n i : Nat) → (collected : Scope) → Action RoundTripError Scope
  | 0, _, collected => pure collected
  | n + 1, i, collected => do
    Action.record (.sees (some i) (iterationScope scope i))
    let produced ← sender.runOnce spec template (iterationScope scope i)
    sender.runIterations spec template scope n (i + 1)
      (Scope.mergeSource .combine collected (produced.getD (placeholder spec)))

/-- Runs a round trip and returns the variables it defines. -/
def run (sender : Sender) (spec : RoundTripSpec) (template : RoundTrip) (scope : Scope) :
    Action RoundTripError Scope :=
  if spec.loop = 0 then do
    Action.sees scope
    return (← sender.runOnce spec template scope).getD .empty
  else sender.runIterations spec template scope spec.loop 0 .empty

end Sender

end HttpSuite
