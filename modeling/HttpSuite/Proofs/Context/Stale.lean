import HttpSuite.Proofs.Context.Validated

/-!
# Activations build up again what is stale

Whether a validated flow is checked or built up without further ado depends on what the context
remembers, and that depends on whether an activation has ever succeeded. This is no part of the
memory, so `History` keeps it beside the memory, and `History.constructed_iff` says how much of
it is remembered.

`Validates` is all that an activation does about validated flows once `Reaches` holds: what it
does about each of them is said in terms of `Setup.Rebuilds`, and the rest is about how a visit
that fails ends the activation and how one that succeeds cannot have left one out.
-/

namespace HttpSuite

/-! ## Activations that get to validated flows -/

namespace Setup

variable {setup : Setup}

theorem runAllValidated_chained (template : RoundTrip) (outside : Scope) (node : ContextNode)
    (constructed : Bool) (index : Nat) (flows : List ValidatedFlow) (vars : Scope)
    (journal : Journal) :
    ∃ visits, FlowVisit.Chained flows vars journal visits
        (setup.runAllValidated node template outside constructed index flows vars journal).1
        (setup.runAllValidated node template outside constructed index flows vars journal).2
      ∧ ∀ visit ∈ visits, setup.Visited template outside constructed visit := by
  induction flows generalizing index vars journal with
  | nil => exact ⟨[], .done vars journal, List.forall_mem_nil _⟩
  | cons flow rest ih =>
      obtain ⟨runs, hvisited⟩ :=
        setup.runValidated_visited template outside node constructed index flow vars journal
      rw [runAllValidated, Action.bind_apply]
      rcases hrun : setup.runValidated node template outside constructed index flow vars journal
        with ⟨result, middle⟩
      rw [hrun] at hvisited
      cases result with
      | error e =>
          exact ⟨[_], .stop ⟨flow, vars, journal, runs, .error e, middle⟩ rest e rfl,
            List.forall_mem_singleton.mpr hvisited⟩
      | ok vars' =>
          obtain ⟨visits, hchained, hvisits⟩ := ih (index + 1) vars' middle
          exact ⟨_, .next ⟨flow, vars, journal, runs, .ok vars', middle⟩ rest vars' visits _ _ rfl
            hchained, List.forall_mem_cons.mpr ⟨hvisited, hvisits⟩⟩

/-- An activation gets to the validated flows, with this template and these variables. -/
structure Reaches (setup : Setup) (node : ContextNode) (memory : ContextMemory)
    (parent : ActiveContext) (journal : Journal) (vars : Scope) (template : RoundTrip)
    (state : FlowScope) (between : Journal) : Prop where
  /-- All presetters and cleaners are there. -/
  collaborators : node.checkCollaborators setup.presetters setup.cleaners = .ok ()
  /-- Nothing is exported that is there further out. -/
  exportsNew : ∀ e ∈ node.spec.exports, e.name ∉ parent.scope.materialize.keys
  /-- What is remembered is added. -/
  merged : parent.scope.materialize.merge .conflict [memory.exports] = .ok vars
  /-- The presetters are applied. -/
  preset : (setup.behindMark journal vars).preset vars node.spec.presetters parent.template
    = .ok template
  /-- The flow is run. -/
  flow : setup.runFlow template parent.scope.materialize node.spec.flow ⟨.empty, vars⟩
    (journal.record (.sees none vars)) = (.ok state, between)

variable {node : ContextNode} {memory : ContextMemory} {parent : ActiveContext}
  {journal between after : Journal} {vars : Scope} {template : RoundTrip} {state : FlowScope}

/-- An activation in which a validated flow fails does so with the same error. -/
theorem activation_of_reaches
    (h : setup.Reaches node memory parent journal vars template state between) {e : ContextError}
    (hvalidated : setup.runAllValidated node template parent.scope.materialize memory.constructed 0
      node.spec.validatedFlow state.vars between = (.error e, after)) :
    setup.activation node memory parent journal = (.error e, after) := by
  have hfind : node.spec.exports.find? (fun e => parent.scope.contains e.name) = none :=
    List.find?_eq_none.mpr fun e he hbound => h.exportsNew e he (ScopeChain.contains_iff.mp hbound)
  refine Action.bind_eq_error_iff.mpr (.inr ⟨(), journal,
    Action.ofExcept_eq_ok_iff.mpr ⟨h.collaborators, rfl⟩, ?_⟩)
  rw [hfind]
  refine Action.bind_eq_error_iff.mpr (.inr ⟨vars, journal,
    Action.ofExcept_eq_ok_iff.mpr ⟨h.merged, rfl⟩, ?_⟩)
  refine Action.bind_eq_error_iff.mpr (.inr ⟨(), _, rfl, ?_⟩)
  refine Action.bind_eq_error_iff.mpr (.inr ⟨template, _,
    Action.inView_eq_ok_iff.mpr ⟨h.preset, rfl⟩, ?_⟩)
  refine Action.bind_eq_error_iff.mpr (.inr ⟨state, between, h.flow, ?_⟩)
  exact Action.bind_eq_error_iff.mpr (.inl hvalidated)

end Setup

namespace ContextNode

/-! ## Whether an activation has succeeded before -/

/-- What a context remembers behind some activations, told by whether they succeeded, the last
one first. Between them it is finished any number of times. -/
inductive History (node : ContextNode) (setup : Setup) : List Bool → ContextMemory → Prop where
  | start : History node setup [] {}
  | activate {past : List Bool} {memory : ContextMemory} (h : History node setup past memory)
      (parent : ActiveContext) (journal : Journal) :
      History node setup ((node.activate setup parent memory journal).1.isOk :: past)
        (node.activate setup parent memory journal).2.1
  | finish {past : List Bool} {memory : ContextMemory} (h : History node setup past memory)
      (activated : Bool) (journal : Journal) :
      History node setup past (node.finish setup activated memory journal).2.1

variable {node : ContextNode} {setup : Setup} {memory : ContextMemory}

/-- All that a context can remember has a history. -/
theorem Reachable.exists_history (h : node.Reachable setup memory) :
    ∃ past, node.History setup past memory := by
  induction h with
  | start => exact ⟨[], .start⟩
  | activate hreachable parent journal ih =>
      obtain ⟨past, hpast⟩ := ih
      exact ⟨_, hpast.activate parent journal⟩
  | finish hreachable activated journal ih =>
      obtain ⟨past, hpast⟩ := ih
      exact ⟨past, hpast.finish activated journal⟩

/-- A context remembers whether an activation has succeeded. -/
theorem History.constructed_iff {past : List Bool} (h : node.History setup past memory) :
    memory.constructed = true ↔ true ∈ past := by
  induction h with
  | start => simp
  | @activate past memory hpast parent journal ih =>
      unfold ContextNode.activate
      rcases setup.activation node memory parent journal with ⟨result, after⟩
      cases result with
      | ok a => exact iff_of_true rfl (List.mem_cons_self ..)
      | error e =>
          show memory.constructed = true ↔ true ∈ false :: past
          rw [ih, List.mem_cons, or_iff_right (nofun : ¬ true = false)]
  | finish hpast activated journal ih =>
      rw [memory_finish]
      exact ih

/-- What an activation does about validated flows once it gets to them. -/
structure Validates (node : ContextNode) (setup : Setup) (memory : ContextMemory)
    (parent : ActiveContext) (journal : Journal) (succeeded : Prop) (template : RoundTrip)
    (vars : Scope) (between : Journal) (visits : List FlowVisit) (ended : Except ContextError Scope)
    (after : Journal) : Prop where
  /-- What they come to is what the activation goes on with. -/
  ran : setup.runAllValidated node template parent.scope.materialize memory.constructed 0
    node.spec.validatedFlow vars between = (ended, after)
  /-- They are visited in order, -/
  order : visits.map (·.flow) <+: node.spec.validatedFlow
  /-- each with the variables that the one before it has ended with, up to the first that
  fails. -/
  chained : FlowVisit.Chained node.spec.validatedFlow vars between visits ended after
  /-- Each is built up again exactly where it is stale. -/
  rebuilds : ∀ visit ∈ visits,
    setup.Rebuilds template parent.scope.materialize succeeded visit
  /-- If one fails, then the activation does so with the same error, and what is remembered stays
  as it is. -/
  aborts : ∀ visit ∈ visits, ∀ e, visit.result = .error e →
    node.activate setup parent memory journal = (.error e, memory, visit.after)
  /-- If the activation succeeds, then all are visited, each of them with a run of the validator
  at last that found everything as expected. -/
  validated : ∀ active memory' journal',
    node.activate setup parent memory journal = (.ok active, memory', journal') →
    visits.map (·.flow) = node.spec.validatedFlow
      ∧ ∀ visit ∈ visits, ∃ run final, visit.runs.getLast? = some run ∧ run.part = .validator
        ∧ run.result = .ok final ∧ visit.result = .ok final.vars
        ∧ run.defined.length = visit.flow.validator.length

/-- An activation that gets to validated flows does about each of them what `Rebuilds` says. -/
theorem History.validates {past : List Bool} (h : node.History setup past memory)
    {parent : ActiveContext} {journal between : Journal} {vars : Scope} {template : RoundTrip}
    {state : FlowScope}
    (hreaches : setup.Reaches node memory parent journal vars template state between) :
    ∃ visits ended after, node.Validates setup memory parent journal (true ∈ past) template
      state.vars between visits ended after := by
  obtain ⟨visits, hchained, hvisited⟩ := setup.runAllValidated_chained template
    parent.scope.materialize node memory.constructed 0 node.spec.validatedFlow state.vars between
  have hrebuilds : ∀ visit ∈ visits,
      setup.Rebuilds template parent.scope.materialize (true ∈ past) visit := by
    intro visit hvisit
    rw [← propext h.constructed_iff]
    exact (hvisited visit hvisit).rebuilds
  rcases hrun : setup.runAllValidated node template parent.scope.materialize memory.constructed 0
    node.spec.validatedFlow state.vars between with ⟨ended, after⟩
  rw [hrun] at hchained
  have haborts : ∀ e, ended = .error e →
      node.activate setup parent memory journal = (.error e, memory, after) := by
    rintro e rfl
    unfold ContextNode.activate
    rw [Setup.activation_of_reaches hreaches hrun]
  refine ⟨visits, ended, after, hrun, hchained.order, hchained, hrebuilds, ?_, ?_⟩
  · intro visit hvisit e he
    obtain ⟨hended, rfl⟩ := hchained.ended_eq visit hvisit e he
    exact haborts e hended
  · intro active memory' journal' hactive
    -- If a visit had failed, then the activation would not have succeeded.
    cases ended with
    | error e =>
        rw [haborts e rfl] at hactive
        cases hactive
    | ok final =>
        obtain ⟨hflows, hresults⟩ := hchained.complete
        refine ⟨hflows, fun visit hvisit => ?_⟩
        obtain ⟨vars', hresult⟩ := hresults visit hvisit
        exact (hrebuilds visit hvisit).exists_last hresult

/-- Validated flows are built up again only where they are stale: whatever has happened to a
context, an activation that gets to a validated flow runs its constructor exactly if none has
succeeded before or its validator found something else than what it expects, and fails if that
fails otherwise. What such a validator has defined is forgotten. An activation that succeeds has
got to all validated flows and found each of them as expected. -/
theorem rebuilds_only_when_stale (h : node.Reachable setup memory) (parent : ActiveContext)
    (journal : Journal) :
    (∃ past, node.History setup past memory)
      ∧ ∀ past, node.History setup past memory →
        (∀ vars template state between,
            setup.Reaches node memory parent journal vars template state between →
            ∃ visits ended after, node.Validates setup memory parent journal (true ∈ past)
              template state.vars between visits ended after)
          ∧ ∀ active memory' journal',
            node.activate setup parent memory journal = (.ok active, memory', journal') →
            ∃ vars template state between,
              setup.Reaches node memory parent journal vars template state between := by
  refine ⟨h.exists_history, fun past hpast => ⟨fun vars template state between hreaches => ?_, ?_⟩⟩
  · exact hpast.validates hreaches
  · intro active memory' journal' hactive
    obtain ⟨a, after, hactivation, -, -⟩ := activate_eq_ok hactive
    obtain ⟨between, _, vars, template, state, _, hsteps⟩ := Setup.activation_eq_ok hactivation
    exact ⟨vars, template, state, between, hsteps.collaborators, hsteps.exportsNew, hsteps.merged,
      hsteps.preset, hsteps.flow⟩

/-- A service that loses what was put there, once, and tells so the second time it is asked. -/
def losing : Service := .scripted [
  { method := some "PUT", reply := .answer {} },
  { method := some "GET", times := some 1, reply := .answer {} },
  { method := some "GET", times := some 1, reply := .answer { status := 404 } },
  { method := some "GET", reply := .answer {} }]

/-- A round trip for something at the service, which is expected to do well. -/
def wellDone (api : String) : RoundTripSpec where
  request := { host := some (.literal "localhost"), api := some (.literal api) }
  response := { statusCode := some 200 }

/-- A context that puts something there and asks whether it is. -/
def storeNode : ContextNode :=
  ⟨"store", { validatedFlow := [⟨[wellDone "PUT /store"], [wellDone "GET /store"]⟩] }, 2⟩

/-- An activation of it, at that service. -/
def store (memory : ContextMemory) (journal : Journal) :
    Except ContextError ActiveContext × ContextMemory × Journal :=
  storeNode.activate (.plain losing) (.root .empty) memory journal

/-- Behind an activation that has succeeded, what was lost is put there again. -/
theorem rebuilds_only_when_stale_store :
    ∃ memory journal, storeNode.Reachable (.plain losing) memory
      ∧ storeNode.History (.plain losing) [true] memory
      ∧ (store memory journal).2.2.received.map (·.method) = [.put, .get, .get, .put, .get]
      ∧ ∃ vars template state between visits ended after,
        (Setup.plain losing).Reaches storeNode memory (.root .empty) journal vars template state
          between
        ∧ storeNode.Validates (.plain losing) memory (.root .empty) journal (true ∈ [true]) template
          state.vars between visits ended after
        ∧ visits.map (·.flow) = storeNode.spec.validatedFlow := by
  have hfirst : (store {} {}).1.isOk = true := by decide +kernel
  have hagain : (store (store {} {}).2.1 (store {} {}).2.2).1.isOk = true
      ∧ (store (store {} {}).2.1 (store {} {}).2.2).2.2.received.map (·.method)
        = [.put, .get, .get, .put, .get] := by
    decide +kernel
  have hhistory : storeNode.History (.plain losing) [(store {} {}).1.isOk] (store {} {}).2.1 :=
    History.start.activate (.root .empty) {}
  rw [hfirst] at hhistory
  have hreachable : storeNode.Reachable (.plain losing) (store {} {}).2.1 :=
    Reachable.start.activate (.root .empty) {}
  refine ⟨_, (store {} {}).2.2, hreachable, hhistory, hagain.2, ?_⟩
  obtain ⟨-, hall⟩ := rebuilds_only_when_stale hreachable (.root .empty) (store {} {}).2.2
  obtain ⟨hvalidates, hgets⟩ := hall [true] hhistory
  rcases hactive : storeNode.activate (.plain losing) (.root .empty) (store {} {}).2.1
    (store {} {}).2.2 with ⟨result, memory', journal'⟩
  cases result with
  | error e =>
      have hok := hagain.1
      rw [store, hactive] at hok
      cases hok
  | ok active =>
      obtain ⟨vars, template, state, between, hreaches⟩ := hgets active memory' journal' hactive
      obtain ⟨visits, ended, after, hvisits⟩ := hvalidates vars template state between hreaches
      exact ⟨vars, template, state, between, visits, ended, after, hreaches, hvisits,
        (hvisits.validated active memory' journal' hactive).1⟩

end ContextNode

end HttpSuite
