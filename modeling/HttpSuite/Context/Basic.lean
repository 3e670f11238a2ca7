import HttpSuite.Preset
import HttpSuite.RoundTrip.Run
import HttpSuite.Scope.Chain

/-!
# Contexts

Every folder of cases has a context, which is shared by all cases in it and further
inside. Before each case the contexts around it are activated from the outermost one,
each on top of what the one around it hands down; behind it they are finished in the
opposite order. A context remembers what its last successful activation left behind,
and how many cases it has finished.
-/

namespace HttpSuite

/-- Clears up behind cases, in view of everything that has happened. It is given the
template of its context and its arguments, and tells why it failed if it does. -/
abbrev Cleaner := List Event → RoundTrip → OrderedMap String → Option String

/-- What contexts are activated and finished with. -/
structure Setup extends Sender where
  /-- The presetters, by name. -/
  presetters : OrderedMap Presetter
  /-- The cleaners, by name. -/
  cleaners : OrderedMap Cleaner

/-- Why a context or a case fails. -/
inductive ContextError where
  /-- A variable is exported that is there already further out. -/
  | exportShadows (name : String)
  /-- Variables are defined that are there already further out. -/
  | parentConflict (names : List String)
  /-- There is no presetter of this name. -/
  | unknownPresetter (name : String)
  /-- There is no cleaner of this name. -/
  | unknownCleaner (name : String)
  /-- A presetter refuses its arguments. -/
  | preset (name : String) (fault : PresetError)
  /-- A cleaner failed. -/
  | clean (name reason : String)
  /-- Two variables are exported under one name. -/
  | exportedTwice (name : String)
  /-- What is exported is not there. -/
  | exportFault (name : String) (fault : VariableError)
  /-- A round trip failed, or a template of the context. -/
  | roundTrip (error : RoundTripError)
  /-- Variables cannot be put together. -/
  | binding (fault : VariableError)

namespace ContextError

/-- The words for a failed context or case. -/
def message : ContextError → String
  | exportShadows name =>
    s!"can't export {name}: variable {name} has been defined in parent contexts"
  | parentConflict names =>
    let list := Text.joinWith ", " names
    s!"context define variables which have been defined in parents: {list}"
  | unknownPresetter name => s!"can't get presetter called {name}"
  | unknownCleaner name => s!"can't get cleaner called {name}"
  | preset name fault => s!"presetter {name} failed: {fault.message}"
  | clean name reason => s!"cleaner {name} failed: {reason}"
  | exportedTwice name => s!"can't export var {name}: exported twice"
  | exportFault name fault => s!"can't export var {name}: {fault.message}"
  | roundTrip error => error.message
  | binding fault => fault.message

/-- Whether a response was not as expected. -/
def isMismatch : ContextError → Bool
  | roundTrip error => error.isMismatch
  | _ => false

end ContextError

/-- What an activated context hands down. -/
structure ActiveContext where
  /-- What the context is called. -/
  title : String := ""
  /-- The variables that those inside it see. -/
  scope : ScopeChain := .empty
  /-- The template of their round trips. -/
  template : RoundTrip := {}
  deriving Inhabited

/-- What is around all contexts: some variables and a template that says nothing. -/
def ActiveContext.root (vars : Scope) : ActiveContext := { scope := .root vars }

/-- What a context remembers. -/
structure ContextMemory where
  /-- What the last successful activation exported. -/
  exports : Scope := .empty
  /-- Whether there was a successful activation. -/
  constructed : Bool := false
  /-- How many cases are finished. -/
  finished : Nat := 0
  /-- What is to be cleared up behind the last successful activation. -/
  teardown : Option Teardown := none
  deriving Inhabited

/-- The context of a folder. -/
structure ContextNode where
  /-- What it is called. -/
  title : String
  /-- What it says. -/
  spec : ContextSpec
  /-- How many selected cases are in the folder and further inside. -/
  total : Nat
  deriving Inhabited

namespace ContextNode

/-- Refuses a context that names presetters or cleaners that do not exist. -/
def checkCollaborators (node : ContextNode) (presetters : OrderedMap Presetter)
    (cleaners : OrderedMap Cleaner) : Except ContextError Unit :=
  match node.spec.presetters.find? fun p => !presetters.contains p.name with
  | some p => .error (.unknownPresetter p.name)
  | none =>
    match node.spec.cleaners.find? fun c => !cleaners.contains c.name with
    | some c => .error (.unknownCleaner c.name)
    | none => .ok ()

end ContextNode

end HttpSuite
