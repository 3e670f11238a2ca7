import HttpSuite.Context.Basic

/-!
# Activating contexts

An activation changes the template by the presetters, runs the flows, takes what is
exported from the variables, and renders the arguments of the cleaners. The flows see
the variables from further out and what the last activation exported. Those inside see
the variables from further out and what is exported now, and nothing else.

A validated flow is run from its validator if there was a successful activation
before. If the response is not as expected the variables of that run are forgotten, and
everything is built up again.
-/

namespace HttpSuite

/-- The variables of a flow while it runs. -/
structure FlowScope where
  /-- What was defined since the flow began. -/
  produced : Scope
  /-- Everything that can be referred to. -/
  vars : Scope
  deriving Inhabited

namespace Setup

/-- Adds what a round trip has defined. Nothing from further out may be defined again,
and nothing twice. -/
def define (parent : Scope) (state : FlowScope) (defined : Scope) :
    Except ContextError FlowScope :=
  match defined.keys.filter parent.contains with
  | [] =>
    match state.produced.merge .conflict [defined] with
    | .error fault => .error (.binding fault)
    | .ok produced =>
      .ok ⟨produced, Scope.mergeSource .deepOverwrite state.vars defined⟩
  | names => .error (.parentConflict names)

/-- Runs the round trips of a flow in order; each sees what those before it defined. -/
def runFlow (setup : Setup) (template : RoundTrip) (parent : Scope) :
    List RoundTripSpec → FlowScope → Action ContextError FlowScope
  | [], state => pure state
  | spec :: rest, state => do
    let defined ← (setup.toSender.run spec template state.vars).mapError .roundTrip
    let state ← Action.ofExcept id (define parent state defined)
    setup.runFlow template parent rest state

/-- Builds up what a validated flow is about, and has it validated. -/
def construct (setup : Setup) (template : RoundTrip) (parent : Scope) (flow : ValidatedFlow)
    (vars : Scope) : Action ContextError Scope := do
  let state ← setup.runFlow template parent flow.constructor ⟨.empty, vars⟩
  let state ← setup.runFlow template parent flow.validator state
  return state.vars

/-- Runs a validated flow. -/
def runValidated (setup : Setup) (node : ContextNode) (template : RoundTrip) (parent : Scope)
    (constructed : Bool) (index : Nat) (flow : ValidatedFlow) (vars : Scope) :
    Action ContextError Scope := do
  if constructed then
    match ← (setup.runFlow template parent flow.validator ⟨.empty, vars⟩).attempt with
    | .ok state => return state.vars
    | .error e =>
      if e.isMismatch then
        Action.note .info
          s!"{node.title}: validatedFlow[{index}] is stale, constructing again: {e.message}"
        setup.construct template parent flow vars
      else throw e
  else setup.construct template parent flow vars

/-- Runs validated flows, the first of which has the given index. -/
def runAllValidated (setup : Setup) (node : ContextNode) (template : RoundTrip) (parent : Scope)
    (constructed : Bool) (index : Nat) : List ValidatedFlow → Scope → Action ContextError Scope
  | [], vars => pure vars
  | flow :: rest, vars => do
    let vars ← setup.runValidated node template parent constructed index flow vars
    setup.runAllValidated node template parent constructed (index + 1) rest vars

/-- The setup when the templates of a context are rendered in view of a journal. -/
def upon (setup : Setup) (journal : Journal) : Setup :=
  { setup with functions := setup.functions.upon journal.occasion }

/-- The template after the presetters. -/
def preset (setup : Setup) (vars : Scope) :
    List PresetSpec → RoundTrip → Except ContextError RoundTrip
  | [], template => .ok template
  | spec :: rest, template =>
    match setup.presetters.get? spec.name with
    | none => .error (.unknownPresetter spec.name)
    | some presetter =>
      match Renderer.args ⟨setup.functions.within rest.length, vars⟩ s!"presetter {spec.name}"
        spec.args with
      | .error e => .error (.roundTrip e)
      | .ok args =>
        match presetter template args with
        | .error fault => .error (.preset spec.name fault)
        | .ok template => setup.preset vars rest template

/-- The path that an exported variable is taken from. -/
def exportPath (functions : FunctionRegistry) (vars : Scope) (spec : ExportSpec) :
    Except ContextError (List String) :=
  if spec.selector.isEmpty then .ok [spec.name]
  else
    match Renderer.selector ⟨functions, vars⟩ s!"exports.{spec.name}" spec.selector with
    | .ok path => .ok path
    | .error e => .error (.roundTrip e)

/-- The variables that are exported, after those taken already. -/
def exportAll (setup : Setup) (vars : Scope) :
    List ExportSpec → (taken : Scope) → Except ContextError Scope
  | [], taken => .ok taken
  | spec :: rest, taken =>
    if taken.contains spec.name then .error (.exportedTwice spec.name)
    else
      match exportPath (setup.functions.within rest.length) vars spec with
      | .error e => .error e
      | .ok path =>
        match vars.select path with
        | .error fault => .error (.exportFault spec.name fault)
        | .ok value => setup.exportAll vars rest (taken.insert spec.name value)

/-- The cleaners with their arguments. -/
def cleanerCalls (setup : Setup) (vars : Scope) :
    List CleanerSpec → Except ContextError (List CleanerCall)
  | [] => .ok []
  | spec :: rest =>
    match Renderer.args ⟨setup.functions.within rest.length, vars⟩ s!"cleaner {spec.name}"
      spec.args with
    | .error e => .error (.roundTrip e)
    | .ok args => (setup.cleanerCalls vars rest).map (⟨spec.name, spec.forEach, args⟩ :: ·)

/-- What an activation results in. -/
structure Activation where
  /-- What it hands down. -/
  active : ActiveContext
  /-- What it exports. -/
  exports : Scope
  /-- What is to be cleared up. -/
  teardown : Teardown

/-- Activates a context in view of what it remembers. -/
def activation (setup : Setup) (node : ContextNode) (memory : ContextMemory)
    (parent : ActiveContext) : Action ContextError Activation := do
  Action.ofExcept id (node.checkCollaborators setup.presetters setup.cleaners)
  match node.spec.exports.find? fun e => parent.scope.contains e.name with
  | some e => throw (.exportShadows e.name)
  | none => pure ()
  let outside := parent.scope.materialize
  let vars ← Action.ofExcept .binding (outside.merge .conflict [memory.exports])
  Action.sees vars
  let template ← Action.inView fun journal =>
    (setup.upon journal).preset vars node.spec.presetters parent.template
  let state ← setup.runFlow template outside node.spec.flow ⟨.empty, vars⟩
  let vars ← setup.runAllValidated node template outside memory.constructed 0
    node.spec.validatedFlow state.vars
  Action.sees vars
  let exports ← Action.inView fun journal =>
    (setup.upon journal).exportAll vars node.spec.exports .empty
  Action.sees (vars.overwrite exports)
  let calls ← Action.inView fun journal =>
    (setup.upon journal).cleanerCalls (vars.overwrite exports) node.spec.cleaners
  let scope ← Action.ofExcept .binding (parent.scope.push exports)
  return ⟨⟨node.title, scope, template⟩, exports, ⟨template, calls⟩⟩

end Setup

/-- What a context remembers of a successful activation. -/
def ContextMemory.afterActivation (memory : ContextMemory) (activation : Setup.Activation) :
    ContextMemory :=
  { memory with
    exports := activation.exports
    constructed := true
    teardown := some activation.teardown }

/-- Activates a context and has it remember that; if the activation fails it remembers
what it did. -/
def ContextNode.activate (node : ContextNode) (setup : Setup) (parent : ActiveContext)
    (memory : ContextMemory) (journal : Journal) :
    Except ContextError ActiveContext × ContextMemory × Journal :=
  match setup.activation node memory parent journal with
  | (.ok activation, journal) =>
    (.ok activation.active, memory.afterActivation activation,
      journal.record (.prepared activation.teardown))
  | (.error e, journal) => (.error e, memory, journal)

/-- Runs a case on top of a context and returns the variables that there are in the
end. -/
def Setup.runCaseFlow (setup : Setup) (template : RoundTrip) :
    List RoundTripSpec → Scope → Action ContextError Scope
  | [], vars => pure vars
  | spec :: rest, vars => do
    let defined ← (setup.toSender.run spec template vars).mapError .roundTrip
    let vars ← Action.ofExcept .binding (vars.merge .conflict [defined])
    setup.runCaseFlow template rest vars

/-- Runs a case on top of a context. -/
def Setup.runCase (setup : Setup) (spec : CaseSpec) (active : ActiveContext) :
    Action ContextError Scope :=
  setup.runCaseFlow active.template spec.flow active.scope.materialize

end HttpSuite
