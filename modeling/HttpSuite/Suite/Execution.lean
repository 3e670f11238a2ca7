import HttpSuite.Context.Activation
import HttpSuite.Context.Finish
import HttpSuite.Suite.Plan
import HttpSuite.Suite.Report

/-!
# Executing plans

The cases of a plan are run one after another. For a case that is selected the contexts
around it are activated from the outermost one up to the first that fails; if all are
active the flow of the case is run; and whatever happened, every context on the path is
finished, the innermost one first. The first error in this order is what the report
tells.
-/

namespace HttpSuite

/-- What changes while a plan is executed. -/
structure Progress where
  /-- What the contexts remember, by number. -/
  memories : List ContextMemory
  /-- What has happened. -/
  journal : Journal
  deriving Inhabited

namespace Progress

/-- The progress with one more entry in the journal. -/
def record (progress : Progress) (event : Event) : Progress :=
  { progress with journal := progress.journal.record event }

end Progress

namespace Plan

/-- Activates the context of a number. -/
def activate (plan : Plan) (setup : Setup) (number : Nat) (parent : ActiveContext)
    (progress : Progress) : Except ContextError ActiveContext × Progress :=
  let progress := progress.record (.activating number)
  let (result, memory, journal) :=
    (plan.nodes.getD number default).activate setup parent
      (progress.memories.getD number {}) progress.journal
  let progress := ⟨progress.memories.set number memory, journal⟩
  match result with
  | .ok active => (.ok active, progress.record (.activated number))
  | .error e => (.error e, progress)

/-- Activates the contexts of a path up to the first that fails, and tells how many
were activated. -/
def activatePath (plan : Plan) (setup : Setup) :
    List Nat → ActiveContext → Progress → Nat × Except ContextError ActiveContext × Progress
  | [], active, progress => (0, .ok active, progress)
  | number :: rest, active, progress =>
    match plan.activate setup number active progress with
    | (.error e, progress) => (0, .error e, progress)
    | (.ok active, progress) =>
      let (activated, result, progress) := plan.activatePath setup rest active progress
      (activated + 1, result, progress)

/-- Finishes the context of a number. -/
def finish (plan : Plan) (setup : Setup) (number : Nat) (activated : Bool)
    (progress : Progress) : Except ContextError Unit × Progress :=
  let progress := progress.record (.finishing number)
  let (result, memory, journal) :=
    (plan.nodes.getD number default).finish setup activated
      (progress.memories.getD number {}) progress.journal
  (result, ⟨progress.memories.set number memory, journal⟩)

/-- Finishes the contexts of a path, the innermost one first, where so many of them, from
the outermost one on, were activated. -/
def finishPath (plan : Plan) (setup : Setup) :
    List Nat → (activated : Nat) → Progress → Except ContextError Unit × Progress
  | [], _, progress => (.ok (), progress)
  | number :: rest, activated, progress =>
    let (inner, progress) := plan.finishPath setup rest (activated - 1) progress
    let (result, progress) := plan.finish setup number (0 < activated) progress
    (firstError inner result, progress)

/-- Runs the flow of a case on top of the innermost context. -/
def runFlow (setup : Setup) (c : PlannedCase) (active : ActiveContext) (progress : Progress) :
    Except ContextError Unit × Progress :=
  let progress := progress.record .flowBegins
  match setup.runCase c.spec active progress.journal with
  | (.ok _, journal) => (.ok (), { progress with journal := journal })
  | (.error e, journal) => (.error e, { progress with journal := journal })

/-- Runs a case with everything around it. -/
def runCase (plan : Plan) (setup : Setup) (root : ActiveContext) (c : PlannedCase)
    (progress : Progress) : Except ContextError Unit × Progress :=
  let (activated, active, progress) := plan.activatePath setup c.path root progress
  let (result, progress) :=
    match active with
    | .error e => (.error e, progress)
    | .ok active => runFlow setup c active progress
  let (finished, progress) := plan.finishPath setup c.path activated progress
  (firstError result finished, progress)

/-- Runs a case if it is selected, and reports it. -/
def reportCase (plan : Plan) (setup : Setup) (root : ActiveContext) (c : PlannedCase)
    (progress : Progress) : CaseReport × Progress :=
  let name := breadcrumbName c.breadcrumb
  if !c.selected then
    (⟨c.breadcrumb, .skipped, Duration.zero⟩, progress.record (.noted .info s!"skipping {name}"))
  else
    let progress := (progress.record .caseBegins).record (.noted .info s!"running {name}")
    let (result, after) := plan.runCase setup root c progress
    let duration : Duration := ⟨after.journal.now - progress.journal.now⟩
    match result with
    | .ok _ => (⟨c.breadcrumb, .passed, duration⟩, after)
    | .error e =>
      (⟨c.breadcrumb, .failed e.message, duration⟩,
        after.record (.noted .warn s!"{name} failed: {e.message}"))

/-- Runs cases in order, and reports each of them. -/
def reportAll (plan : Plan) (setup : Setup) (root : ActiveContext) :
    List PlannedCase → Progress → List CaseReport × Progress
  | [], progress => ([], progress)
  | c :: rest, progress =>
    let (report, progress) := plan.reportCase setup root c progress
    let (reports, progress) := plan.reportAll setup root rest progress
    (report :: reports, progress)

/-- What the contexts of a plan remember before anything is run. -/
def start (plan : Plan) (journal : Journal) : Progress :=
  ⟨plan.nodes.map fun _ => {}, journal⟩

/-- Executes a plan. -/
def execute (plan : Plan) (setup : Setup) (root : ActiveContext) (journal : Journal) :
    List CaseReport × Progress :=
  plan.reportAll setup root plan.cases (plan.start journal)

/-- Refuses a plan with a context that names presetters or cleaners that do not exist:
the first such context, and its error. -/
def checkCollaborators (presetters : OrderedMap Presetter) (cleaners : OrderedMap Cleaner) :
    List ContextNode → Except (String × ContextError) Unit
  | [] => .ok ()
  | node :: rest =>
    match node.checkCollaborators presetters cleaners with
    | .error e => .error (node.title, e)
    | .ok _ => checkCollaborators presetters cleaners rest

end Plan

end HttpSuite
