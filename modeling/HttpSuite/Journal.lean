import HttpSuite.Context.Teardown
import HttpSuite.Http.Service
import HttpSuite.Scope.Basic
import HttpSuite.Template.Function

/-!
# The journal of a run

While a suite runs, time passes and things happen that can be seen from outside:
clients are called, requests are received, cleaners are called, and notes are taken.
All of it is in the journal, in order. Some entries only mark where a run is, which
variables it goes by there, and what it leaves to be cleared up; by them one can tell for
which case and for which context the others happened.

An action either fails or has a result, and writes into the journal in both cases.
-/

namespace HttpSuite

/-- How much a note matters. -/
inductive Level where
  | info
  | warn
  deriving DecidableEq, Repr

/-- The word for how much a note matters. -/
def Level.name : Level → String
  | .info => "INFO"
  | .warn => "WARN"

/-- An entry of the journal. -/
inductive Event where
  /-- Something was noted down. -/
  | noted (level : Level) (text : String)
  /-- A client was called. -/
  | called (request : Request)
  /-- The service received a request. -/
  | received (request : Outgoing)
  /-- A cleaner was called. -/
  | cleaned (name : String) (template : RoundTrip) (args : OrderedMap String)
  /-- The next selected case begins. -/
  | caseBegins
  /-- A context, told by its number, is about to be activated. -/
  | activating (context : Nat)
  /-- A context was activated. -/
  | activated (context : Nat)
  /-- An activation has succeeded and leaves this behind to be cleared up. -/
  | prepared (teardown : Teardown)
  /-- Templates are rendered and paths are followed with these variables, from here on;
  inside a loop, in the iteration of that number. -/
  | sees (iteration : Option Nat) (scope : Scope)
  /-- The flow of the case begins. -/
  | flowBegins
  /-- A context is about to be finished. -/
  | finishing (context : Nat)

/-- What has happened so far, and the time. -/
structure Journal where
  /-- The nanoseconds since the start. -/
  now : Nat := 0
  /-- What happened, in order. -/
  events : List Event := []
  deriving Inhabited

namespace Journal

/-- The journal with one more entry. -/
def record (journal : Journal) (event : Event) : Journal :=
  { journal with events := journal.events ++ [event] }

/-- Time passes. -/
def wait (nanos : Nat) (journal : Journal) : Journal := { journal with now := journal.now + nanos }

/-- The request of an entry that tells of one that was received. -/
def receivedIn : Event → Option Outgoing
  | .received request => some request
  | _ => none

/-- The occasion of what is rendered now. -/
def occasion (journal : Journal) : Occasion :=
  { now := journal.now, entries := journal.events.length }

/-- The requests that the service has received. -/
def received (journal : Journal) : List Outgoing := journal.events.filterMap receivedIn

end Journal

/-- Something that is done while the journal is kept. -/
abbrev Action (ε α : Type) := ExceptT ε (StateM Journal) α

namespace Action

variable {ε ε' α : Type}

/-- Writes an entry. -/
def record (event : Event) : Action ε Unit := fun journal => (.ok (), journal.record event)

/-- Takes a note. -/
def note (level : Level) (text : String) : Action ε Unit := record (.noted level text)

/-- Marks the variables that are gone by, outside any loop. -/
def sees (scope : Scope) : Action ε Unit := record (.sees none scope)

/-- Says what a failure means further out. -/
def mapError (f : ε → ε') (action : Action ε α) : Action ε' α := fun journal =>
  match action journal with
  | (.ok a, journal) => (.ok a, journal)
  | (.error e, journal) => (.error (f e), journal)

/-- What fails or has a result without anything happening. -/
def ofExcept (f : ε → ε') : Except ε α → Action ε' α
  | .ok a => fun journal => (.ok a, journal)
  | .error e => fun journal => (.error (f e), journal)

/-- What fails or has a result in view of the journal, without anything happening. -/
def inView (f : Journal → Except ε α) : Action ε α := fun journal => (f journal, journal)

/-- Does an action that may fail and goes on with how it ended. -/
def attempt (action : Action ε α) : Action ε' (Except ε α) := fun journal =>
  match action journal with
  | (result, journal) => (.ok result, journal)

end Action

/-- Sends a request. Whether the answer comes in time is for the client to say. -/
def Client.send (client : Client) (service : Service) (request : Request) :
    Action SendError Response := fun journal =>
  let journal := journal.record (.called request)
  match client.prepare request with
  | .error e => (.error e, journal)
  | .ok outgoing =>
    if !service.reachable outgoing then (.error (.network "no connection"), journal)
    else
      let reply := service.reply journal.received outgoing
      let journal := journal.record (.received outgoing)
      match reply with
      | .closed => (.error (.network "connection closed"), journal)
      | .answer answer =>
        match client.timeout.filter fun t => t.nanos < answer.delay.nanos with
        | some timeout => (.error .timeout, journal.wait timeout.nanos)
        | none => (.ok (answer.readFor outgoing.method), journal.wait answer.delay.nanos)

end HttpSuite
