import HttpSuite.Proofs.Context.AllOrNothing
import HttpSuite.Proofs.Scope.Layers

/-!
# When validated flows are built up again

An activation that gets to a validated flow runs its constructor or its validator once or a few
times. `Visited` lists these runs as they are made: where an activation has succeeded before, the
validator has to find what it expects; where it does not, or where none has, the constructor is
run and then the validator on top of it.

`Rebuilds` is what the list tells. A validator that does not find what it expects has run on
the variables that there were, and so does the constructor behind it: what such a run defines is
not kept, and the variables in the end are what was kept of the others on what there was.

Several validated flows are visited one after the other, `FlowVisit.Chained`, with the variables
as the only thing that is handed on.
-/

namespace HttpSuite

/-! ## Flows, round trip by round trip -/

namespace Setup

/-- How far a flow gets: what its round trips define, up to the first that fails or defines
what it may not, and how it ends. -/
inductive Goes (setup : Setup) (template : RoundTrip) (outside : Scope) :
    List RoundTripSpec → FlowScope → Journal → List Scope → Except ContextError FlowScope →
      Journal → Prop where
  | done (state : FlowScope) (journal : Journal) :
      Goes setup template outside [] state journal [] (.ok state) journal
  | fails (spec : RoundTripSpec) (rest : List RoundTripSpec) (state : FlowScope)
      (journal after : Journal) (e : RoundTripError)
      (hrun : setup.run spec template state.vars journal = (.error e, after)) :
      Goes setup template outside (spec :: rest) state journal [] (.error (.roundTrip e)) after
  | refused (spec : RoundTripSpec) (rest : List RoundTripSpec) (state : FlowScope)
      (journal after : Journal) (defined : Scope) (e : ContextError)
      (hrun : setup.run spec template state.vars journal = (.ok defined, after))
      (hdefine : define outside state defined = .error e) :
      Goes setup template outside (spec :: rest) state journal [defined] (.error e) after
  | next (spec : RoundTripSpec) (rest : List RoundTripSpec) (state between : FlowScope)
      (journal middle after : Journal) (defined : Scope) (more : List Scope)
      (result : Except ContextError FlowScope)
      (hrun : setup.run spec template state.vars journal = (.ok defined, middle))
      (hdefine : define outside state defined = .ok between)
      (hrest : Goes setup template outside rest between middle more result after) :
      Goes setup template outside (spec :: rest) state journal (defined :: more) result after

variable (setup : Setup) (template : RoundTrip) (outside : Scope)

theorem runFlow_goes (specs : List RoundTripSpec) (state : FlowScope) (journal : Journal) :
    ∃ defined, setup.Goes template outside specs state journal defined
      (setup.runFlow template outside specs state journal).1
      (setup.runFlow template outside specs state journal).2 := by
  induction specs generalizing state journal with
  | nil => exact ⟨[], .done state journal⟩
  | cons spec rest ih =>
      rw [runFlow, Action.bind_apply]
      unfold Action.mapError
      rcases hrun : setup.run spec template state.vars journal with ⟨result, middle⟩
      cases result with
      | error e => exact ⟨[], .fails spec rest state journal middle e hrun⟩
      | ok defined =>
          dsimp only
          rw [Action.bind_apply]
          cases hdefine : define outside state defined with
          | error e => exact ⟨_, .refused spec rest state journal middle defined e hrun hdefine⟩
          | ok between =>
              obtain ⟨more, hmore⟩ := ih between middle
              exact ⟨_, .next spec rest state between journal middle _ defined more _ hrun hdefine
                hmore⟩

variable {setup template outside}

/-- A flow that has a result ran all its round trips, and what they define is on top of what
there was. -/
theorem Goes.result_ok {specs : List RoundTripSpec} {state final : FlowScope}
    {journal after : Journal} {defined : List Scope}
    (h : setup.Goes template outside specs state journal defined (.ok final) after) :
    defined.length = specs.length ∧ final.vars = Scope.layered defined state.vars
      ∧ ∀ name, name ∈ final.produced.keys
        ↔ name ∈ state.produced.keys ∨ ∃ d ∈ defined, name ∈ d.keys := by
  generalize hresult : Except.ok final = result at h
  induction h with
  | done state journal =>
      cases hresult
      exact ⟨rfl, rfl, fun name => by simp⟩
  | fails => cases hresult
  | refused => cases hresult
  | next spec rest state between journal middle after d more result hrun hdefine hrest ih =>
      obtain ⟨hlength, hvars, hproduced⟩ := ih hresult
      obtain ⟨-, -, rfl⟩ := define_ok_iff.mp hdefine
      refine ⟨congrArg (· + 1) hlength, hvars, fun name => ?_⟩
      rw [hproduced, OrderedMap.mem_keys_extend, List.exists_mem_cons_iff, or_assoc]

/-- A name is refused as bound already if it is defined twice in the flow, or was when the flow
began. -/
theorem Goes.conflict {specs : List RoundTripSpec} {state : FlowScope} {journal after : Journal}
    {defined : List Scope} {fault : VariableError}
    (h : setup.Goes template outside specs state journal defined (.error (.binding fault)) after) :
    ∃ name, fault = .conflict name ∧ (∃ d, defined.getLast? = some d ∧ name ∈ d.keys)
      ∧ (name ∈ state.produced.keys ∨ ∃ d ∈ defined.dropLast, name ∈ d.keys) := by
  generalize hresult : Except.error (ContextError.binding fault) = result at h
  induction h with
  | done state journal => cases hresult
  | fails => cases hresult
  | refused spec rest state journal after d e hrun hdefine =>
      cases hresult
      unfold define at hdefine
      split at hdefine
      · split at hdefine
        · next hmerge =>
            cases hdefine
            obtain ⟨name, hfault, hname, htaken⟩ := Scope.merge_conflict_eq_error hmerge
            exact ⟨name, hfault, ⟨d, rfl, hname⟩, .inl htaken⟩
        · cases hdefine
      · cases hdefine
  | next spec rest state between journal middle after d more result hrun hdefine hrest ih =>
      obtain ⟨name, hfault, ⟨last, hlast, hname⟩, htaken⟩ := ih hresult
      -- What the first round trip has defined counts as taken when the rest begins.
      obtain ⟨-, -, rfl⟩ := define_ok_iff.mp hdefine
      have hne : more ≠ [] := by
        rintro rfl
        cases hlast
      rw [OrderedMap.mem_keys_extend, or_assoc] at htaken
      refine ⟨name, hfault, ⟨last, ?_, hname⟩, ?_⟩
      · rw [List.getLast?_cons, hlast]
        rfl
      · rw [List.dropLast_cons_of_ne_nil hne, List.exists_mem_cons_iff]
        exact htaken

end Setup

/-! ## Visits -/

theorem ContextError.isMismatch_iff {e : ContextError} :
    e.isMismatch = true ↔ ∃ m, e = .roundTrip (.mismatch m) := by
  constructor
  · intro h
    cases e with
    | roundTrip error =>
        cases error with
        | mismatch m => exact ⟨m, rfl⟩
        | _ => cases h
    | _ => cases h
  · rintro ⟨m, rfl⟩
    rfl

/-- The flows of a validated flow. -/
inductive ValidatedFlow.Part where
  | constructor
  | validator
  deriving DecidableEq, Repr

/-- The round trips of one of its flows. -/
def ValidatedFlow.part (flow : ValidatedFlow) : Part → List RoundTripSpec
  | .constructor => flow.constructor
  | .validator => flow.validator

/-- A run of one of the flows of a validated flow. -/
structure FlowRun where
  /-- Which of the flows it is. -/
  part : ValidatedFlow.Part
  /-- The variables when it begins. -/
  start : FlowScope
  /-- The journal when it begins. -/
  before : Journal
  /-- What its round trips define. -/
  defined : List Scope
  /-- What it comes to. -/
  result : Except ContextError FlowScope
  /-- The journal behind it. -/
  after : Journal

namespace FlowRun

/-- It ends because a response is not as expected. -/
def IsStale (run : FlowRun) : Prop := ∃ m, run.result = .error (.roundTrip (.mismatch m))

/-- One run comes behind another, and all that happens between them is that a note may be
taken. -/
def Follows (run next : FlowRun) : Prop :=
  next.before = run.after ∨ ∃ text, next.before = run.after.record (.noted .info text)

/-- The definitions of the runs that do not fail. -/
def kept : List FlowRun → List Scope
  | [] => []
  | run :: rest =>
    match run.result with
    | .ok _ => run.defined ++ kept rest
    | .error _ => kept rest

theorem kept_cons_ok {run : FlowRun} {state : FlowScope} (h : run.result = .ok state)
    (rest : List FlowRun) : kept (run :: rest) = run.defined ++ kept rest := by
  rw [kept, h]

theorem kept_cons_error {run : FlowRun} {e : ContextError} (h : run.result = .error e)
    (rest : List FlowRun) : kept (run :: rest) = kept rest := by
  rw [kept, h]

end FlowRun

/-- What is done about a validated flow in one activation. -/
structure FlowVisit where
  /-- The validated flow. -/
  flow : ValidatedFlow
  /-- The variables when it is reached. -/
  vars : Scope
  /-- The journal when it is reached. -/
  before : Journal
  /-- The runs of its flows, in order. -/
  runs : List FlowRun
  /-- The variables behind it, or why there are none. -/
  result : Except ContextError Scope
  /-- The journal behind it. -/
  after : Journal

namespace Setup

variable (setup : Setup) (template : RoundTrip) (outside : Scope)

/-- The run of a flow as it is told. -/
structure Performs (flow : ValidatedFlow) (run : FlowRun) : Prop where
  ran : setup.runFlow template outside (flow.part run.part) run.start run.before
    = (run.result, run.after)
  goes : setup.Goes template outside (flow.part run.part) run.start run.before run.defined
    run.result run.after

/-- The runs by which a validated flow is built up on some variables: of the constructor and, if
it does not fail, of the validator behind it. -/
inductive Builds (flow : ValidatedFlow) (vars : Scope) :
    Journal → List FlowRun → Except ContextError Scope → Journal → Prop where
  | fails (making : FlowRun) (e : ContextError)
      (hmaking : setup.Performs template outside flow making)
      (hpart : making.part = .constructor) (hstart : making.start = ⟨.empty, vars⟩)
      (hresult : making.result = .error e) :
      Builds flow vars making.before [making] (.error e) making.after
  | made (making checking : FlowRun) (hmaking : setup.Performs template outside flow making)
      (hpart : making.part = .constructor) (hstart : making.start = ⟨.empty, vars⟩)
      (hresult : making.result = .ok checking.start)
      (hchecking : setup.Performs template outside flow checking)
      (hpart' : checking.part = .validator) (hbefore : checking.before = making.after) :
      Builds flow vars making.before [making, checking] (checking.result.map FlowScope.vars)
        checking.after

/-- The runs of a visit. If an activation has succeeded before, the validator comes first. -/
inductive Visited : Bool → FlowVisit → Prop where
  | fresh (visit : FlowVisit)
      (hbuilds : setup.Builds template outside visit.flow visit.vars visit.before visit.runs
        visit.result visit.after) : Visited false visit
  | checked (flow : ValidatedFlow) (vars : Scope) (checking : FlowRun)
      (hchecking : setup.Performs template outside flow checking)
      (hpart : checking.part = .validator) (hstart : checking.start = ⟨.empty, vars⟩)
      (hsound : ¬ checking.IsStale) :
      Visited true ⟨flow, vars, checking.before, [checking], checking.result.map FlowScope.vars,
        checking.after⟩
  | stale (flow : ValidatedFlow) (vars : Scope) (checking : FlowRun) (text : String)
      (runs : List FlowRun) (result : Except ContextError Scope) (after : Journal)
      (hchecking : setup.Performs template outside flow checking)
      (hpart : checking.part = .validator) (hstart : checking.start = ⟨.empty, vars⟩)
      (hstale : checking.IsStale)
      (hbuilds : setup.Builds template outside flow vars
        (checking.after.record (.noted .info text)) runs result after) :
      Visited true ⟨flow, vars, checking.before, checking :: runs, result, after⟩

theorem exists_performs (flow : ValidatedFlow) (part : ValidatedFlow.Part) (start : FlowScope)
    (before : Journal) :
    ∃ defined, setup.Performs template outside flow ⟨part, start, before, defined,
      (setup.runFlow template outside (flow.part part) start before).1,
      (setup.runFlow template outside (flow.part part) start before).2⟩ := by
  obtain ⟨defined, hgoes⟩ := setup.runFlow_goes template outside (flow.part part) start before
  exact ⟨defined, rfl, hgoes⟩

theorem construct_builds (flow : ValidatedFlow) (vars : Scope) (journal : Journal) :
    ∃ runs, setup.Builds template outside flow vars journal runs
      (setup.construct template outside flow vars journal).1
      (setup.construct template outside flow vars journal).2 := by
  obtain ⟨made, hmaking⟩ :=
    setup.exists_performs template outside flow .constructor ⟨.empty, vars⟩ journal
  unfold construct
  rw [Action.bind_apply]
  dsimp only [ValidatedFlow.part] at hmaking
  rcases hmade : setup.runFlow template outside flow.constructor ⟨.empty, vars⟩ journal
    with ⟨result, middle⟩
  rw [hmade] at hmaking
  cases result with
  | error e => exact ⟨_, .fails _ e hmaking rfl rfl rfl⟩
  | ok state =>
      obtain ⟨found, hchecking⟩ :=
        setup.exists_performs template outside flow .validator state middle
      dsimp only
      rw [Action.bind_apply]
      dsimp only [ValidatedFlow.part] at hchecking
      rcases hchecked : setup.runFlow template outside flow.validator state middle
        with ⟨result', after⟩
      rw [hchecked] at hchecking
      cases result' with
      | error e => exact ⟨_, .made _ _ hmaking rfl rfl rfl hchecking rfl rfl⟩
      | ok state' => exact ⟨_, .made _ _ hmaking rfl rfl rfl hchecking rfl rfl⟩

theorem runValidated_visited (node : ContextNode) (constructed : Bool) (index : Nat)
    (flow : ValidatedFlow) (vars : Scope) (journal : Journal) :
    ∃ runs, setup.Visited template outside constructed ⟨flow, vars, journal, runs,
      (setup.runValidated node template outside constructed index flow vars journal).1,
      (setup.runValidated node template outside constructed index flow vars journal).2⟩ := by
  unfold runValidated
  cases constructed with
  | false =>
      obtain ⟨runs, hbuilds⟩ := setup.construct_builds template outside flow vars journal
      exact ⟨runs, .fresh ⟨flow, vars, journal, runs, _, _⟩ hbuilds⟩
  | true =>
      obtain ⟨found, hchecking⟩ :=
        setup.exists_performs template outside flow .validator ⟨.empty, vars⟩ journal
      rw [if_pos rfl, Action.bind_apply]
      unfold Action.attempt
      dsimp only [ValidatedFlow.part] at hchecking
      rcases hchecked : setup.runFlow template outside flow.validator ⟨.empty, vars⟩ journal
        with ⟨result, middle⟩
      rw [hchecked] at hchecking
      cases result with
      | ok state =>
          exact ⟨_, .checked flow vars _ hchecking rfl rfl nofun⟩
      | error e =>
          dsimp only
          split
          · next hmismatch =>
              obtain ⟨runs, hbuilds⟩ := setup.construct_builds template outside flow vars
                (middle.record (.noted .info
                  s!"{node.title}: validatedFlow[{index}] is stale, constructing again: {e.message}"))
              obtain ⟨m, rfl⟩ := ContextError.isMismatch_iff.mp hmismatch
              exact ⟨_, .stale flow vars _ _ runs _ _ hchecking rfl rfl ⟨m, rfl⟩ hbuilds⟩
          · next hother =>
              refine ⟨_, .checked flow vars _ hchecking rfl rfl ?_⟩
              rintro ⟨m, hm⟩
              cases hm
              exact hother rfl

variable {setup template outside}

/-! ## What the runs tell -/

/-- What is done about a validated flow, by whether an activation has succeeded before. -/
structure Rebuilds (setup : Setup) (template : RoundTrip) (outside : Scope) (succeeded : Prop)
    (visit : FlowVisit) : Prop where
  /-- Its constructor and its validator are run, -/
  performs : ∀ run ∈ visit.runs, setup.Performs template outside visit.flow run
  /-- one behind the other. -/
  chained : visit.runs.IsChain FlowRun.Follows
  /-- The first run is of the validator exactly if an activation has succeeded before. It begins
  with the variables that there are, and nothing defined. -/
  begins : ∃ run, visit.runs.head? = some run ∧ run.before = visit.before
    ∧ run.start = ⟨.empty, visit.vars⟩ ∧ (run.part = .validator ↔ succeeded)
  /-- The constructor is run exactly if none has succeeded before or this validator found
  something else than what it expects. -/
  rebuilds_iff : (∃ run ∈ visit.runs, run.part = .constructor)
    ↔ ¬ succeeded ∨ ∃ run, visit.runs.head? = some run ∧ run.part = .validator ∧ run.IsStale
  /-- If the first run fails otherwise, then the visit is over, with its error; -/
  aborts : ∀ run e, visit.runs.head? = some run → run.result = .error e →
    succeeded ∧ run.IsStale ∨ visit.runs = [run] ∧ visit.result = .error e
  /-- so it is if one behind it fails, in whatever way. -/
  abortsBehind : ∀ run ∈ visit.runs.tail, ∀ e, run.result = .error e →
    visit.runs.getLast? = some run ∧ visit.result = .error e
  /-- The visit comes to what its last run comes to. This is a run of the validator, unless the
  constructor fails. -/
  ends : ∃ run, visit.runs.getLast? = some run ∧ run.after = visit.after
    ∧ visit.result = run.result.map FlowScope.vars
    ∧ (run.part = .validator ∨ ∃ e, run.result = .error e)
  /-- The constructor begins with the variables that there are, and nothing defined, and the
  visit comes to what it would if it began with the constructor there. -/
  traceless : ∀ run ∈ visit.runs, run.part = .constructor → run.start = ⟨.empty, visit.vars⟩
    ∧ setup.construct template outside visit.flow visit.vars run.before
      = (visit.result, visit.after)
  /-- The variables in the end are those that there were and the definitions of the runs that
  did not fail. -/
  layers : ∀ final, visit.result = .ok final →
    final = Scope.layered (FlowRun.kept visit.runs) visit.vars
  /-- A name is refused as defined already only if one of those runs has defined it, or the run
  itself. -/
  conflicts : ∀ run ∈ visit.runs, ∀ fault, run.result = .error (.binding fault) →
    ∃ name, fault = .conflict name
      ∧ ∃ d ∈ FlowRun.kept visit.runs ++ run.defined.dropLast, name ∈ d.keys

/-- A flow that begins with nothing defined refuses only what it has defined itself. -/
theorem Performs.conflict {flow : ValidatedFlow} {run : FlowRun} {fault : VariableError}
    (h : setup.Performs template outside flow run) {vars : Scope}
    (hstart : run.start = ⟨.empty, vars⟩) (hresult : run.result = .error (.binding fault)) :
    ∃ name, fault = .conflict name ∧ ∃ d ∈ run.defined.dropLast, name ∈ d.keys := by
  have hgoes := h.goes
  rw [hresult] at hgoes
  obtain ⟨name, hfault, -, htaken⟩ := hgoes.conflict
  rw [hstart] at htaken
  exact ⟨name, hfault, htaken.resolve_left List.not_mem_nil⟩

/-- A flow that is run on top of another one has the definitions of both. -/
theorem Performs.behind {flow : ValidatedFlow} {making checking : FlowRun} {vars : Scope}
    (hmaking : setup.Performs template outside flow making)
    (hstart : making.start = ⟨.empty, vars⟩) (hresult : making.result = .ok checking.start)
    (hchecking : setup.Performs template outside flow checking) :
    (∀ final, checking.result = .ok final →
        final.vars = Scope.layered (making.defined ++ checking.defined) vars)
      ∧ ∀ fault, checking.result = .error (.binding fault) → ∃ name, fault = .conflict name
        ∧ ∃ d ∈ making.defined ++ checking.defined.dropLast, name ∈ d.keys := by
  have hmade := hmaking.goes
  rw [hresult] at hmade
  obtain ⟨-, hvars, hproduced⟩ := hmade.result_ok
  rw [hstart] at hvars hproduced
  refine ⟨fun final hfinal => ?_, fun fault hfault => ?_⟩
  · have hchecked := hchecking.goes
    rw [hfinal] at hchecked
    rw [hchecked.result_ok.2.1, hvars, Scope.layered_append]
  · have hrefused := hchecking.goes
    rw [hfault] at hrefused
    obtain ⟨name, hname, -, htaken⟩ := hrefused.conflict
    refine ⟨name, hname, ?_⟩
    rcases htaken with hbefore | ⟨d, hd, hmem⟩
    · obtain ⟨d, hd, hmem⟩ := ((hproduced name).mp hbefore).resolve_left List.not_mem_nil
      exact ⟨d, List.mem_append_left _ hd, hmem⟩
    · exact ⟨d, List.mem_append_right _ hd, hmem⟩

theorem Builds.construct_eq {flow : ValidatedFlow} {vars : Scope} {before after : Journal}
    {runs : List FlowRun} {result : Except ContextError Scope}
    (h : setup.Builds template outside flow vars before runs result after) :
    setup.construct template outside flow vars before = (result, after) := by
  unfold construct
  cases h with
  | fails making e hmaking hpart hstart hresult =>
      have hran := hmaking.ran
      rw [hpart, hstart, hresult] at hran
      rw [Action.bind_apply, show setup.runFlow template outside flow.constructor ⟨.empty, vars⟩ _
        = _ from hran]
  | made making checking hmaking hpart hstart hresult hchecking hpart' hbefore =>
      have hran := hmaking.ran
      rw [hpart, hstart, hresult] at hran
      have hran' := hchecking.ran
      rw [hpart', hbefore] at hran'
      rw [Action.bind_apply, show setup.runFlow template outside flow.constructor ⟨.empty, vars⟩ _
        = _ from hran]
      dsimp only
      rw [Action.bind_apply, show setup.runFlow template outside flow.validator checking.start _
        = _ from hran']
      cases checking.result <;> rfl

theorem Builds.rebuilds {flow : ValidatedFlow} {vars : Scope} {before after : Journal}
    {runs : List FlowRun} {result : Except ContextError Scope}
    (h : setup.Builds template outside flow vars before runs result after) :
    setup.Rebuilds template outside False ⟨flow, vars, before, runs, result, after⟩ := by
  have hconstruct := h.construct_eq
  cases h with
  | fails making e hmaking hpart hstart hresult =>
      constructor
      case performs => exact List.forall_mem_singleton.mpr hmaking
      case chained => exact .singleton making
      case begins => exact ⟨making, rfl, rfl, hstart, by rw [hpart]; decide⟩
      case rebuilds_iff => exact ⟨fun _ => .inl id, fun _ => ⟨making, .head _, hpart⟩⟩
      case aborts =>
        rintro run e' ⟨⟩ he'
        rw [hresult] at he'
        cases he'
        exact .inr ⟨rfl, rfl⟩
      case abortsBehind => exact List.forall_mem_nil _
      case ends => exact ⟨making, rfl, rfl, by rw [hresult]; rfl, .inr ⟨e, hresult⟩⟩
      case traceless => exact List.forall_mem_singleton.mpr fun _ => ⟨hstart, hconstruct⟩
      case layers => rintro final ⟨⟩
      case conflicts =>
        refine List.forall_mem_singleton.mpr fun fault hfault => ?_
        obtain ⟨name, hname, d, hd, hmem⟩ := hmaking.conflict hstart hfault
        exact ⟨name, hname, d, List.mem_append_right _ hd, hmem⟩
  | made making checking hmaking hpart hstart hresult hchecking hpart' hbefore =>
      obtain ⟨hlayers, hconflicts⟩ := hmaking.behind hstart hresult hchecking
      constructor
      case performs =>
        exact List.forall_mem_cons.mpr ⟨hmaking, List.forall_mem_singleton.mpr hchecking⟩
      case chained => exact .cons_cons (.inl hbefore) (.singleton checking)
      case begins => exact ⟨making, rfl, rfl, hstart, by rw [hpart]; decide⟩
      case rebuilds_iff => exact ⟨fun _ => .inl id, fun _ => ⟨making, .head _, hpart⟩⟩
      case aborts =>
        rintro run e ⟨⟩ he
        rw [hresult] at he
        cases he
      case abortsBehind =>
        refine List.forall_mem_singleton.mpr fun e he => ⟨rfl, ?_⟩
        dsimp only
        rw [he]
        rfl
      case ends => exact ⟨checking, rfl, rfl, rfl, .inl hpart'⟩
      case traceless =>
        refine List.forall_mem_cons.mpr ⟨fun _ => ⟨hstart, hconstruct⟩, ?_⟩
        refine List.forall_mem_singleton.mpr fun hmade => ?_
        rw [hpart'] at hmade
        cases hmade
      case layers =>
        intro final hfinal
        obtain ⟨state, hstate, rfl⟩ := map_ok_iff.mp hfinal
        rw [hlayers state hstate, FlowRun.kept_cons_ok hresult, FlowRun.kept_cons_ok hstate]
        exact congrArg (Scope.layered · vars) (congrArg _ (List.append_nil _).symm)
      case conflicts =>
        refine List.forall_mem_cons.mpr ⟨fun fault hfault => ?_, ?_⟩
        · rw [hresult] at hfault
          cases hfault
        · refine List.forall_mem_singleton.mpr fun fault hfault => ?_
          obtain ⟨name, hname, d, hd, hmem⟩ := hconflicts fault hfault
          refine ⟨name, hname, d, ?_, hmem⟩
          rw [FlowRun.kept_cons_ok hresult, FlowRun.kept_cons_error hfault]
          rwa [FlowRun.kept, List.append_nil]

/-- A validator that does not find what it expects is forgotten. -/
theorem Rebuilds.behind_stale {flow : ValidatedFlow} {vars : Scope} {checking : FlowRun}
    {text : String} {runs : List FlowRun} {result : Except ContextError Scope} {after : Journal}
    (hchecking : setup.Performs template outside flow checking)
    (hpart : checking.part = .validator) (hstart : checking.start = ⟨.empty, vars⟩)
    (hstale : checking.IsStale)
    (h : setup.Rebuilds template outside False
      ⟨flow, vars, checking.after.record (.noted .info text), runs, result, after⟩) :
    setup.Rebuilds template outside True
      ⟨flow, vars, checking.before, checking :: runs, result, after⟩ := by
  obtain ⟨first, hfirst, hbegins, -, hmakes⟩ := h.begins
  obtain ⟨m, he⟩ := id hstale
  obtain ⟨rest, rfl⟩ : ∃ rest, runs = first :: rest := List.head?_eq_some_iff.mp hfirst
  constructor
  case performs => exact List.forall_mem_cons.mpr ⟨hchecking, h.performs⟩
  case chained => exact .cons_cons (.inr ⟨text, hbegins⟩) h.chained
  case begins => exact ⟨checking, rfl, rfl, hstart, fun _ => trivial, fun _ => hpart⟩
  case rebuilds_iff =>
    obtain ⟨making, hmaking, hmade⟩ := h.rebuilds_iff.mpr (.inl id)
    exact ⟨fun _ => .inr ⟨checking, rfl, hpart, hstale⟩,
      fun _ => ⟨making, .tail _ hmaking, hmade⟩⟩
  case aborts =>
    rintro run e ⟨⟩ -
    exact .inl ⟨trivial, hstale⟩
  case abortsBehind =>
    -- The run behind the check is no check itself, so nothing excuses it.
    refine List.forall_mem_cons.mpr ⟨fun e' he' => ?_, h.abortsBehind⟩
    rcases h.aborts first e' rfl he' with ⟨hnever, -⟩ | ⟨hlast, hresult⟩
    · cases hnever
    · cases hlast
      exact ⟨rfl, hresult⟩
  case ends => exact h.ends
  case traceless =>
    refine List.forall_mem_cons.mpr ⟨fun hmade => ?_, h.traceless⟩
    rw [hpart] at hmade
    cases hmade
  case layers =>
    rw [FlowRun.kept_cons_error he]
    exact h.layers
  case conflicts =>
    rw [FlowRun.kept_cons_error he]
    refine List.forall_mem_cons.mpr ⟨fun fault hfault => ?_, h.conflicts⟩
    obtain ⟨name, hname, d, hd, hmem⟩ := hchecking.conflict hstart hfault
    exact ⟨name, hname, d, List.mem_append_right _ hd, hmem⟩

/-- A validator that finds what it expects, or fails otherwise, is all that is run. -/
theorem rebuilds_checked {flow : ValidatedFlow} {vars : Scope} {checking : FlowRun}
    (hchecking : setup.Performs template outside flow checking)
    (hpart : checking.part = .validator) (hstart : checking.start = ⟨.empty, vars⟩)
    (hsound : ¬ checking.IsStale) :
    setup.Rebuilds template outside True ⟨flow, vars, checking.before, [checking],
      checking.result.map FlowScope.vars, checking.after⟩ := by
  constructor
  case performs => exact List.forall_mem_singleton.mpr hchecking
  case chained => exact .singleton checking
  case begins => exact ⟨checking, rfl, rfl, hstart, fun _ => trivial, fun _ => hpart⟩
  case rebuilds_iff =>
    constructor
    · rintro ⟨run, hrun, hmade⟩
      cases List.mem_singleton.mp hrun
      rw [hpart] at hmade
      cases hmade
    · rintro (hnever | ⟨run, ⟨⟩, -, hstale⟩)
      · exact absurd trivial hnever
      · exact absurd hstale hsound
  case aborts =>
    rintro run e ⟨⟩ he
    refine .inr ⟨rfl, ?_⟩
    dsimp only
    rw [he]
    rfl
  case abortsBehind => exact List.forall_mem_nil _
  case ends => exact ⟨checking, rfl, rfl, rfl, .inl hpart⟩
  case traceless =>
    refine List.forall_mem_singleton.mpr fun hmade => ?_
    rw [hpart] at hmade
    cases hmade
  case layers =>
    intro final hfinal
    obtain ⟨state, hstate, rfl⟩ := map_ok_iff.mp hfinal
    have hgoes := hchecking.goes
    rw [hstate] at hgoes
    rw [FlowRun.kept_cons_ok hstate, FlowRun.kept, List.append_nil, hgoes.result_ok.2.1, hstart]
  case conflicts =>
    refine List.forall_mem_singleton.mpr fun fault hfault => ?_
    obtain ⟨name, hname, d, hd, hmem⟩ := hchecking.conflict hstart hfault
    exact ⟨name, hname, d, List.mem_append_right _ hd, hmem⟩

/-- A visit that comes to variables has a run of all of the validator at its end. -/
theorem Rebuilds.exists_last {succeeded : Prop} {visit : FlowVisit}
    (h : setup.Rebuilds template outside succeeded visit) {vars : Scope}
    (hresult : visit.result = .ok vars) :
    ∃ run final, visit.runs.getLast? = some run ∧ run.part = .validator
      ∧ run.result = .ok final ∧ visit.result = .ok final.vars
      ∧ run.defined.length = visit.flow.validator.length := by
  obtain ⟨run, hlast, -, hcomes, hpart⟩ := h.ends
  rw [hresult] at hcomes
  obtain ⟨final, hfinal, rfl⟩ := map_ok_iff.mp hcomes.symm
  have hvalidator : run.part = .validator := by
    refine hpart.resolve_right ?_
    rintro ⟨e, he⟩
    rw [hfinal] at he
    cases he
  have hgoes := (h.performs run (List.mem_of_getLast? hlast)).goes
  rw [hfinal, hvalidator] at hgoes
  exact ⟨run, final, hlast, hvalidator, hfinal, hresult, hgoes.result_ok.1⟩

theorem Visited.rebuilds {constructed : Bool} {visit : FlowVisit}
    (h : setup.Visited template outside constructed visit) :
    setup.Rebuilds template outside (constructed = true) visit := by
  cases h with
  | fresh _ hbuilds =>
      rw [eq_false Bool.false_ne_true]
      exact hbuilds.rebuilds
  | checked flow vars checking hchecking hpart hstart hsound =>
      rw [eq_self true]
      exact rebuilds_checked hchecking hpart hstart hsound
  | stale flow vars checking text runs result after hchecking hpart hstart hstale hbuilds =>
      rw [eq_self true]
      exact hbuilds.rebuilds.behind_stale hchecking hpart hstart hstale

end Setup

/-! ## One validated flow after the other -/

/-- Visits of validated flows, in order. Each begins with the variables that the one before it
has ended with, and none comes behind one that fails. -/
inductive FlowVisit.Chained : List ValidatedFlow → Scope → Journal → List FlowVisit →
    Except ContextError Scope → Journal → Prop where
  | done (vars : Scope) (journal : Journal) : Chained [] vars journal [] (.ok vars) journal
  | stop (visit : FlowVisit) (rest : List ValidatedFlow) (e : ContextError)
      (hresult : visit.result = .error e) :
      Chained (visit.flow :: rest) visit.vars visit.before [visit] (.error e) visit.after
  | next (visit : FlowVisit) (rest : List ValidatedFlow) (vars : Scope) (visits : List FlowVisit)
      (ended : Except ContextError Scope) (after : Journal) (hresult : visit.result = .ok vars)
      (hrest : Chained rest vars visit.after visits ended after) :
      Chained (visit.flow :: rest) visit.vars visit.before (visit :: visits) ended after

namespace FlowVisit

variable {flows : List ValidatedFlow} {vars final : Scope} {journal after : Journal}
  {visits : List FlowVisit} {ended : Except ContextError Scope}

theorem Chained.order (h : Chained flows vars journal visits ended after) :
    visits.map (·.flow) <+: flows := by
  induction h with
  | done vars journal => exact List.prefix_rfl
  | stop visit rest e hresult => exact List.cons_prefix_cons.mpr ⟨rfl, List.nil_prefix⟩
  | next visit rest vars visits ended after hresult hrest ih =>
      exact List.cons_prefix_cons.mpr ⟨rfl, ih⟩

/-- The error of a visit is what they come to. -/
theorem Chained.ended_eq (h : Chained flows vars journal visits ended after) :
    ∀ visit ∈ visits, ∀ e, visit.result = .error e → ended = .error e ∧ after = visit.after := by
  induction h with
  | done vars journal => exact List.forall_mem_nil _
  | stop visit rest e hresult =>
      refine List.forall_mem_singleton.mpr fun e' he' => ?_
      rw [hresult] at he'
      cases he'
      exact ⟨rfl, rfl⟩
  | next visit rest vars visits ended after hresult hrest ih =>
      refine List.forall_mem_cons.mpr ⟨fun e he => ?_, ih⟩
      rw [hresult] at he
      cases he

/-- If they come to variables, then all flows are visited, and no visit fails. -/
theorem Chained.complete (h : Chained flows vars journal visits (.ok final) after) :
    visits.map (·.flow) = flows ∧ ∀ visit ∈ visits, ∃ vars, visit.result = .ok vars := by
  generalize hended : Except.ok final = ended at h
  induction h with
  | done vars journal => exact ⟨rfl, List.forall_mem_nil _⟩
  | stop visit rest e hresult => cases hended
  | next visit rest vars visits ended after hresult hrest ih =>
      obtain ⟨hflows, hvisits⟩ := ih hended
      exact ⟨congrArg (visit.flow :: ·) hflows,
        List.forall_mem_cons.mpr ⟨⟨vars, hresult⟩, hvisits⟩⟩

end FlowVisit

end HttpSuite
