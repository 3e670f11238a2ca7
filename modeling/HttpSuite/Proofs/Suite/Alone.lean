import HttpSuite.Proofs.Context.Repeatable
import HttpSuite.Proofs.Suite.Execution
import HttpSuite.Proofs.Suite.Plan

/-!
# What a case comes to on its own

A case that is run where nothing is remembered sees what the contexts around it hand down when
each of them is activated for the first time. If the contexts can be activated again and the
service forgets, then it sees the same in the middle of a run, whatever was run before:
`activatePath_eq`. It ends in the same too if the functions that it calls are the same on all
occasions: `reportCase_eq`. The invariant is `Settled`: a context remembers nothing, or what it
came to when it was activated for the first time where it belongs. There is only one such place
since a number has the same numbers in front of it on every path.
-/

namespace HttpSuite

namespace Setup

variable {setup : Setup}

/-! ## What an activation depends on -/

theorem runAllValidated_title {node node' : ContextNode} (htitle : node.title = node'.title)
    (template : RoundTrip) (parent : Scope) (constructed : Bool) (index : Nat)
    (flows : List ValidatedFlow) (vars : Scope) :
    setup.runAllValidated node template parent constructed index flows vars
      = setup.runAllValidated node' template parent constructed index flows vars := by
  induction flows generalizing index vars with
  | nil => rfl
  | cons flow rest ih =>
      rw [runAllValidated, runAllValidated, runValidated, runValidated, htitle]
      simp only [ih]

/-- An activation depends on what the context says, and of what it remembers on the exports and
on whether there are any. -/
theorem activation_congr {node node' : ContextNode} (htitle : node.title = node'.title)
    (hspec : node.spec = node'.spec) {memory memory' : ContextMemory}
    (hexports : memory.exports = memory'.exports)
    (hconstructed : memory.constructed = memory'.constructed) (parent : ActiveContext) :
    setup.activation node memory parent = setup.activation node' memory' parent := by
  unfold activation ContextNode.checkCollaborators
  rw [hspec, hexports, hconstructed, htitle]
  simp only [runAllValidated_title htitle]

theorem Repeatable.of_nothing {spec : ContextSpec} (hsteady : setup.functions.SteadyOn spec.called)
    (hcleaners : spec.cleaners = []) (hflows : spec.validatedFlow = [])
    (hexports : spec.exports = []) : setup.Repeatable spec := by
  constructor <;> simp [hsteady, hcleaners, hflows, hexports, exportNames]

theorem presettable_activation {node : ContextNode} {memory : ContextMemory}
    {parent : ActiveContext} (htemplate : setup.Presettable parent.template) {a : Activation}
    (h : (setup.activation node memory parent).outcome = .ok a) :
    setup.Presettable a.active.template := by
  obtain ⟨_, _, _, _, _, _, hsteps⟩ :=
    activation_eq_ok (Prod.ext h rfl : setup.activation node memory parent {} = (.ok a, _))
  rw [hsteps.template_eq]
  exact presettable_preset htemplate hsteps.preset

end Setup

namespace Plan

variable (plan : Plan) (setup : Setup)

/-- What the contexts of a path hand down when each of them is activated for the first time. -/
def firstPath : List Nat → ActiveContext → Except ContextError ActiveContext
  | [], active => .ok active
  | number :: rest, active =>
    match (setup.activation (plan.nodes.getD number default) {} active).outcome with
    | .ok a => firstPath rest a.active
    | .error e => .error e

/-- How a case ends when it is run on its own. -/
def verdict (root : ActiveContext) (c : PlannedCase) : Except ContextError Unit :=
  match plan.firstPath setup c.path root with
  | .ok active => (setup.runCase c.spec active).outcome.map fun _ => ()
  | .error e => .error e

/-- What is reported of a case when it is run on its own. -/
def outcomeAlone (root : ActiveContext) (c : PlannedCase) : Outcome :=
  if !c.selected then .skipped
  else
    match plan.verdict setup root c with
    | .ok _ => .passed
    | .error e => .failed e.message

variable {plan setup}

theorem firstPath_append {path rest : List Nat} {root active : ActiveContext}
    (h : plan.firstPath setup path root = .ok active) :
    plan.firstPath setup (path ++ rest) root = plan.firstPath setup rest active := by
  induction path generalizing root with
  | nil =>
      cases h
      rfl
  | cons number path ih =>
      rw [firstPath] at h
      rw [List.cons_append, firstPath]
      split at h
      · next a ha => exact ih h
      · cases h

theorem firstPath_presettable {path : List Nat} {root active : ActiveContext}
    (hroot : setup.Presettable root.template)
    (h : plan.firstPath setup path root = .ok active) : setup.Presettable active.template := by
  induction path generalizing root with
  | nil =>
      cases h
      exact hroot
  | cons number path ih =>
      rw [firstPath] at h
      split at h
      · next a ha => exact ih (Setup.presettable_activation hroot ha) h
      · cases h

/-! ## In the middle of a run -/

variable (plan setup) in
/-- A context remembers nothing, or what it came to when it was activated for the first time
behind the contexts in front of it; and there is nothing to be cleared up. -/
structure Settled (root : ActiveContext) (front : Nat → List Nat) (number : Nat)
    (memory : ContextMemory) : Prop where
  remembered : (memory.exports = .empty ∧ memory.constructed = false)
    ∨ ∃ parent a, plan.firstPath setup (front number) root = .ok parent
      ∧ (setup.activation (plan.nodes.getD number default) {} parent).outcome = .ok a
      ∧ memory.exports = a.exports ∧ memory.constructed = true
  teardown : ∀ teardown, memory.teardown = some teardown → teardown.calls = []

section

variable {root : ActiveContext} {front : Nat → List Nat}

theorem settled_set {memories : List ContextMemory}
    (h : ∀ number, plan.Settled setup root front number (memoryOf memories number))
    {number : Nat} {memory : ContextMemory}
    (hmemory : plan.Settled setup root front number memory) (other : Nat) :
    plan.Settled setup root front other (memoryOf (memories.set number memory) other) := by
  rw [memoryOf_set]
  split
  · next hother =>
      rw [← hother.1]
      exact hmemory
  · exact h other

theorem settled_start (journal : Journal) (number : Nat) :
    plan.Settled setup root front number (memoryOf (plan.start journal).memories number) := by
  rw [memoryOf_start]
  exact ⟨Or.inl ⟨rfl, rfl⟩, fun teardown h => by cases h⟩

variable (hservice : setup.service.Stateless) (hroot : setup.Presettable root.template)
  (hrepeatable : ∀ number, setup.Repeatable (plan.nodes.getD number default).spec)

include hservice hroot hrepeatable

/-- A context that is settled comes to the same as if it were activated for the first time. -/
theorem Settled.outcome_eq {number : Nat} {memory : ContextMemory} {parent : ActiveContext}
    (h : plan.Settled setup root front number memory)
    (hparent : plan.firstPath setup (front number) root = .ok parent) :
    (setup.activation (plan.nodes.getD number default) memory parent).outcome
      = (setup.activation (plan.nodes.getD number default) {} parent).outcome := by
  rcases h.remembered with ⟨hexports, hconstructed⟩ | ⟨parent', a, hp, ha, hexports, hconstructed⟩
  · exact congrArg Action.outcome (Setup.activation_congr rfl rfl hexports hconstructed parent)
  · cases hp.symm.trans hparent
    rw [ha, (hrepeatable number).activation_again hservice
      (firstPath_presettable hroot hparent) ha hexports hconstructed]

/-- Activating the contexts of a path comes to what it does for the first time, and leaves all
contexts settled. -/
theorem activatePath_eq {pre path : List Nat} {active : ActiveContext} {progress : Progress}
    (hpre : plan.firstPath setup pre root = .ok active)
    (hfront : ∀ p m q, pre ++ path = p ++ m :: q → p = front m)
    (h : ∀ number, plan.Settled setup root front number (memoryOf progress.memories number)) :
    (plan.activatePath setup path active progress).2.1 = plan.firstPath setup path active
      ∧ ∀ number, plan.Settled setup root front number
        (memoryOf (plan.activatePath setup path active progress).2.2.memories number) := by
  induction path generalizing pre active progress with
  | nil => exact ⟨rfl, h⟩
  | cons number rest ih =>
      have hplace := hfront pre number rest rfl
      have houtcome := (h number).outcome_eq hservice hroot hrepeatable (hplace ▸ hpre)
      have hsteady := Setup.activation_steady hservice (hrepeatable number).steady
        (memoryOf progress.memories number) active
      rw [activatePath, firstPath, ← houtcome]
      rcases plan.activate_cases setup number active progress with
        ⟨a, after, hrun, heq⟩ | ⟨e, after, hrun, heq⟩
      · have ha := hsteady.outcome_eq hrun
        rw [heq, ha]
        have hinner : plan.firstPath setup (pre ++ [number]) root = .ok a.active := by
          rw [firstPath_append hpre, firstPath, ← houtcome, ha]
          rfl
        refine ih hinner (fun p m q hpath => hfront p m q ?_) (settled_set h ⟨?_, ?_⟩)
        · rw [← hpath, List.append_assoc, List.singleton_append]
        · exact Or.inr ⟨active, a, hplace ▸ hpre, houtcome ▸ ha, rfl, rfl⟩
        · intro teardown hteardown
          cases hteardown
          obtain ⟨_, _, _, _, _, _, hsteps⟩ := Setup.activation_eq_ok hrun
          have hcalls := hsteps.calls
          rw [(hrepeatable number).cleaners] at hcalls
          exact (Except.ok.inj hcalls).symm
      · rw [heq, hsteady.outcome_eq hrun]
        exact ⟨rfl, settled_set h (h number)⟩

omit hservice hroot hrepeatable in
theorem Settled.finish {number : Nat} {memory : ContextMemory}
    (h : plan.Settled setup root front number memory) (node : ContextNode) (activated : Bool)
    (journal : Journal) : (node.finish setup activated memory journal).1 = .ok ()
      ∧ plan.Settled setup root front number (node.finish setup activated memory journal).2.1 := by
  rw [ContextNode.memory_finish]
  refine ⟨?_, h.remembered, h.teardown⟩
  unfold ContextNode.finish ContextMemory.due
  cases hteardown : memory.teardown with
  | none => rfl
  | some teardown =>
      rw [Option.map_some, h.teardown teardown hteardown]
      rfl

omit hservice hroot hrepeatable in
/-- Finishing the contexts of a path does not fail, since there is nothing to be cleared up. -/
theorem finishPath_eq (path : List Nat) (activated : Nat) {progress : Progress}
    (h : ∀ number, plan.Settled setup root front number (memoryOf progress.memories number)) :
    (plan.finishPath setup path activated progress).1 = .ok ()
      ∧ ∀ number, plan.Settled setup root front number
        (memoryOf (plan.finishPath setup path activated progress).2.memories number) := by
  induction path generalizing activated with
  | nil => exact ⟨rfl, h⟩
  | cons number rest ih =>
      obtain ⟨hresult, hsettled⟩ := ih (activated - 1)
      rw [finishPath]
      rcases hrun : plan.finishPath setup rest (activated - 1) progress with ⟨inner, after⟩
      rw [hrun] at hresult hsettled
      cases hresult
      obtain ⟨hfinish, hmemory⟩ := (hsettled number).finish (plan.nodes.getD number default)
        (0 < activated) (after.record (.finishing number)).journal
      exact ⟨hfinish, settled_set hsettled hmemory⟩

omit hroot hrepeatable in
theorem runFlow_eq {c : PlannedCase} (hfunctions : setup.functions.SteadyOn c.spec.called)
    (active : ActiveContext) (progress : Progress) :
    (runFlow setup c active progress).1
        = (setup.runCase c.spec active).outcome.map (fun _ => ())
      ∧ (runFlow setup c active progress).2.memories = progress.memories := by
  unfold runFlow
  dsimp only
  rw [← Setup.runCase_steady hservice hfunctions active (progress.record .flowBegins).journal]
  rcases setup.runCase c.spec active (progress.record .flowBegins).journal with ⟨result, after⟩
  cases result <;> exact ⟨rfl, rfl⟩

/-- A case ends as it does on its own. -/
theorem runCase_eq {c : PlannedCase} (hfunctions : setup.functions.SteadyOn c.spec.called)
    (hfront : ∀ p m q, c.path = p ++ m :: q → p = front m) {progress : Progress}
    (h : ∀ number, plan.Settled setup root front number (memoryOf progress.memories number)) :
    (plan.runCase setup root c progress).1 = plan.verdict setup root c
      ∧ ∀ number, plan.Settled setup root front number
        (memoryOf (plan.runCase setup root c progress).2.memories number) := by
  obtain ⟨hactive, hsettled⟩ := activatePath_eq hservice hroot hrepeatable
    (rfl : plan.firstPath setup [] root = .ok root) hfront h
  rw [runCase, verdict, ← hactive]
  rcases hrun : plan.activatePath setup c.path root progress with ⟨activated, result, after⟩
  rw [hrun] at hsettled
  cases result with
  | error e => exact ⟨rfl, (finishPath_eq c.path activated hsettled).2⟩
  | ok active =>
      obtain ⟨hflow, hmemories⟩ := runFlow_eq hservice hfunctions active after
      have hsettled' : ∀ number, plan.Settled setup root front number
          (memoryOf (runFlow setup c active after).2.memories number) := by
        rw [hmemories]
        exact hsettled
      obtain ⟨hfinished, hlast⟩ := finishPath_eq c.path activated hsettled'
      refine ⟨?_, hlast⟩
      dsimp only
      rw [hfinished, hflow]
      cases (setup.runCase c.spec active).outcome <;> rfl

/-- What is reported of a case is what is reported of it when it is run on its own. -/
theorem reportCase_eq {c : PlannedCase} (hfunctions : setup.functions.SteadyOn c.spec.called)
    (hfront : ∀ p m q, c.path = p ++ m :: q → p = front m) {progress : Progress}
    (h : ∀ number, plan.Settled setup root front number (memoryOf progress.memories number)) :
    (plan.reportCase setup root c progress).1.outcome = plan.outcomeAlone setup root c
      ∧ ∀ number, plan.Settled setup root front number
        (memoryOf (plan.reportCase setup root c progress).2.memories number) := by
  unfold reportCase outcomeAlone
  split
  · exact ⟨rfl, h⟩
  · have hbegin : ∀ number, plan.Settled setup root front number
        (memoryOf ((progress.record .caseBegins).record
          (.noted .info s!"running {breadcrumbName c.breadcrumb}")).memories number) := h
    obtain ⟨hverdict, hsettled⟩ := runCase_eq hservice hroot hrepeatable hfunctions hfront hbegin
    rw [← hverdict]
    cases hran : plan.runCase setup root c ((progress.record .caseBegins).record
        (.noted .info s!"running {breadcrumbName c.breadcrumb}")) with
    | mk result after =>
      rw [hran] at hsettled
      dsimp only
      rw [hran]
      cases result with
      | ok _ => exact ⟨rfl, hsettled⟩
      | error e => exact ⟨rfl, hsettled⟩

theorem reportAll_eq {cases : List PlannedCase}
    (hfunctions : ∀ c ∈ cases, setup.functions.SteadyOn c.spec.called)
    (hfront : ∀ c ∈ cases, ∀ p m q, c.path = p ++ m :: q → p = front m) {progress : Progress}
    (h : ∀ number, plan.Settled setup root front number (memoryOf progress.memories number)) :
    (plan.reportAll setup root cases progress).1.map (·.outcome)
        = cases.map (plan.outcomeAlone setup root)
      ∧ ∀ number, plan.Settled setup root front number
        (memoryOf (plan.reportAll setup root cases progress).2.memories number) := by
  induction cases generalizing progress with
  | nil => exact ⟨rfl, h⟩
  | cons c rest ih =>
      obtain ⟨hfirst, hfront⟩ := List.forall_mem_cons.mp hfront
      obtain ⟨hsteady, hfunctions⟩ := List.forall_mem_cons.mp hfunctions
      obtain ⟨hreport, hsettled⟩ := reportCase_eq hservice hroot hrepeatable hsteady hfirst h
      obtain ⟨hreports, hlast⟩ := ih hfunctions hfront hsettled
      refine ⟨?_, hlast⟩
      rw [reportAll, List.map_cons, List.map_cons, hreport, hreports]

end

end Plan

end HttpSuite
