import HttpSuite.Context.Basic

/-!
# Finishing contexts

Behind a case every context around it is finished. Cleaners that are called after
every case are called if the context was activated for this one; the others are called
once, behind the last selected case, with what the last successful activation left to
them. A cleaner that fails does not keep others from being called.
-/

namespace HttpSuite

namespace ContextMemory

/-- Whether a cleaner is called now. -/
def isDue (activated last : Bool) (call : CleanerCall) : Bool :=
  if call.forEach then activated else last

/-- The template and the cleaners that are called, when one more case is finished. -/
def due (memory : ContextMemory) (total : Nat) (activated : Bool) :
    Option (RoundTrip × List CleanerCall) :=
  memory.teardown.map fun teardown =>
    (teardown.template, teardown.calls.filter (isDue activated (memory.finished + 1 == total)))

/-- What is remembered when one more case is finished. -/
def afterFinish (memory : ContextMemory) : ContextMemory :=
  { memory with finished := memory.finished + 1 }

end ContextMemory

/-- The first of two results that is an error. -/
def firstError {ε : Type} (first second : Except ε Unit) : Except ε Unit :=
  match first with
  | .error e => .error e
  | .ok _ => second

namespace Setup

/-- Calls a cleaner. -/
def clean (setup : Setup) (title : String) (template : RoundTrip) (call : CleanerCall)
    (journal : Journal) : Except ContextError Unit × Journal :=
  match setup.cleaners.get? call.name with
  | none => (.error (.unknownCleaner call.name), journal)
  | some cleaner =>
    let journal := journal.record (.noted .info s!"{title}: cleaning with {call.name}")
    let result := cleaner journal.events template call.args
    let journal := journal.record (.cleaned call.name template call.args)
    match result with
    | none => (.ok (), journal)
    | some reason =>
      (.error (.clean call.name reason),
        journal.record (.noted .warn s!"{title}: cleaner {call.name} failed: {reason}"))

/-- Calls cleaners in order. -/
def cleanAll (setup : Setup) (title : String) (template : RoundTrip) :
    List CleanerCall → Journal → Except ContextError Unit × Journal
  | [], journal => (.ok (), journal)
  | call :: rest, journal =>
    let (result, journal) := setup.clean title template call journal
    let (others, journal) := setup.cleanAll title template rest journal
    (firstError result others, journal)

end Setup

/-- Finishes a context behind a case. -/
def ContextNode.finish (node : ContextNode) (setup : Setup) (activated : Bool)
    (memory : ContextMemory) (journal : Journal) :
    Except ContextError Unit × ContextMemory × Journal :=
  match memory.due node.total activated with
  | none => (.ok (), memory.afterFinish, journal)
  | some (template, calls) =>
    let (result, journal) := setup.cleanAll node.title template calls journal
    (result, memory.afterFinish, journal)

end HttpSuite
