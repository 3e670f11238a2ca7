import HttpSuite.Proofs.Context.Activation
import HttpSuite.Proofs.RoundTrip.Steady
import HttpSuite.Proofs.Scope.Layers

/-!
# Going through a flow again

What a flow defined in one scope it defines in every other one that agrees with it on what its
round trips refer to, as long as no more has been taken before: `Defines.again`. A validated
flow is run from its constructor the first time, and later from its validator alone, so what
the constructor defined is missing then. If its validator does not refer to that, and no later
one does, the validators define the same as before (`runAllValidated_ok`).

All of this is about services that forget and functions that are the same on all occasions, where
what an action ends in is its outcome.
-/

namespace HttpSuite

open Scope

/-- A template that presetters can make. -/
inductive Setup.Presettable (setup : Setup) : RoundTrip → Prop where
  | plain : Presettable setup {}
  | preset {name : String} {presetter : Presetter} {args : OrderedMap String}
      {template template' : RoundTrip} (h : Presettable setup template)
      (hget : setup.presetters.get? name = some presetter)
      (hpreset : presetter template args = .ok template') : Presettable setup template'

namespace Setup

/-- A round trip of the flow may define the name. If it defines nothing itself, then that
depends on the templates that there can be. -/
def MayDefine (setup : Setup) (specs : List RoundTripSpec) (name : String) : Prop :=
  ∃ spec ∈ specs, ∃ template, setup.Presettable template ∧ name ∈ spec.definable template

variable {setup : Setup}

theorem presettable_preset {vars : Scope} {specs : List PresetSpec} {template result : RoundTrip}
    (htemplate : setup.Presettable template) {journal : Journal}
    (h : (setup.upon journal).preset vars specs template = .ok result) :
    setup.Presettable result := by
  induction specs generalizing template with
  | nil =>
      cases h
      exact htemplate
  | cons spec rest ih =>
      rw [preset] at h
      split at h
      · cases h
      · next presetter hget =>
          split at h
          · cases h
          · next args _ =>
              split at h
              · cases h
              · next next hnext => exact ih (htemplate.preset hget hnext) h

/-- Presetters are given the same wherever their arguments are rendered to the same. -/
theorem preset_congr {setup' : Setup} {a b : Scope} {specs : List PresetSpec}
    (template : RoundTrip) (hpresetters : setup.presetters = setup'.presetters)
    (h : Renderer.Alike (specs.flatMap (·.args.values)) ⟨setup.functions, a⟩
      ⟨setup'.functions, b⟩) :
    setup.preset a specs template = setup'.preset b specs template := by
  induction specs generalizing template with
  | nil => rfl
  | cons spec rest ih =>
      obtain ⟨hfirst, hrest⟩ := Renderer.alike_append.mp h
      have hargs : Renderer.args ⟨setup.functions.within rest.length, a⟩
            s!"presetter {spec.name}" spec.args
          = Renderer.args ⟨setup'.functions.within rest.length, b⟩ s!"presetter {spec.name}"
            spec.args := Renderer.args_congr _ (hfirst.within rest.length)
      rw [preset, preset, hargs, hpresetters]
      simp only [ih _ hrest]

/-! ## Flows -/

section Flows

variable (hservice : setup.service.Stateless) (template : RoundTrip) (parent : Scope)

include hservice

theorem runFlow_steady {specs : List RoundTripSpec}
    (hfunctions : setup.functions.SteadyOn (specs.flatMap RoundTripSpec.called))
    (state : FlowScope) : (setup.runFlow template parent specs state).Steady := by
  induction specs generalizing state with
  | nil => exact Action.Steady.pure state
  | cons spec rest ih =>
      obtain ⟨hfirst, hrest⟩ := FunctionRegistry.steadyOn_append.mp hfunctions
      rw [runFlow]
      refine Action.Steady.bind (Sender.run_steady hservice hfirst template _).mapError
        fun _ => ?_
      exact Action.Steady.bind (Action.Steady.ofExcept _ _) (ih hrest)

variable {template parent}

theorem runFlow_cons_ok_iff {spec : RoundTripSpec} {rest : List RoundTripSpec}
    (hfunctions : setup.functions.SteadyOn ((spec :: rest).flatMap RoundTripSpec.called))
    {state final : FlowScope} :
    (setup.runFlow template parent (spec :: rest) state).outcome = .ok final
      ↔ ∃ defined, (setup.run spec template state.vars).outcome = .ok defined
        ∧ ∃ next, define parent state defined = .ok next
          ∧ (setup.runFlow template parent rest next).outcome = .ok final := by
  obtain ⟨hspec, hothers⟩ := FunctionRegistry.steadyOn_append.mp hfunctions
  have hrest := runFlow_steady hservice template parent hothers
  rw [runFlow, Action.outcome_bind_eq_ok_iff (Sender.run_steady hservice hspec template _).mapError
    fun _ => (Action.Steady.ofExcept _ _).bind hrest]
  simp only [Action.outcome_mapError_eq_ok_iff,
    Action.outcome_bind_eq_ok_iff (Action.Steady.ofExcept _ _) hrest,
    Action.outcome_ofExcept_eq_ok_iff]

variable (setup template parent)

omit hservice in
/-- What a flow defines, in every scope that agrees on what it refers to, if no more has been
taken there. -/
structure Defines (specs : List RoundTripSpec) (state : FlowScope) (ds : List Scope) : Prop where
  distinct : ∀ d ∈ ds, d.Distinct
  names : ∀ d ∈ ds, ∀ name ∈ d.keys, setup.MayDefine specs name
  again : ∀ (X : String → Prop) (state' : FlowScope),
    state'.produced.keys ⊆ state.produced.keys → AgreeOff X state.vars state'.vars →
    (∀ spec ∈ specs, ∀ name ∈ spec.names, ¬ X name) →
    ∃ final, (setup.runFlow template parent specs state').outcome = .ok final
      ∧ final.vars = layered ds state'.vars

variable {setup template parent}

omit hservice in
/-- What may be defined where less has been taken. -/
theorem define_again {state next : FlowScope} {defined : Scope}
    (h : define parent state defined = .ok next) {state' : FlowScope}
    (hproduced : state'.produced.keys ⊆ state.produced.keys) :
    ∃ next', define parent state' defined = .ok next'
      ∧ next'.produced.keys ⊆ next.produced.keys
      ∧ next'.vars = mergeSource .deepOverwrite state'.vars defined := by
  obtain ⟨houtside, hnew, rfl⟩ := define_ok_iff.mp h
  refine ⟨_, define_ok_iff.mpr ⟨houtside, fun name hname hmem =>
    hnew name hname (hproduced hmem), rfl⟩, ?_, rfl⟩
  intro name hname
  rcases OrderedMap.mem_keys_extend.mp hname with hmem | hmem
  · exact OrderedMap.mem_keys_extend.mpr (Or.inl (hproduced hmem))
  · exact OrderedMap.mem_keys_extend.mpr (Or.inr hmem)

theorem runFlow_ok (htemplate : setup.Presettable template) {specs : List RoundTripSpec}
    (hfunctions : setup.functions.SteadyOn (specs.flatMap RoundTripSpec.called))
    {state final : FlowScope}
    (h : (setup.runFlow template parent specs state).outcome = .ok final) :
    ∃ ds, setup.Defines template parent specs state ds
      ∧ final.vars = layered ds state.vars := by
  induction specs generalizing state with
  | nil =>
      cases h
      refine ⟨[], ⟨?_, ?_, ?_⟩, rfl⟩
      · exact fun d hd => by cases hd
      · exact fun d hd => by cases hd
      · exact fun X state' _ _ _ => ⟨state', rfl, rfl⟩
  | cons spec rest ih =>
      obtain ⟨hspecSteady, hrestSteady⟩ := FunctionRegistry.steadyOn_append.mp hfunctions
      obtain ⟨d, hrun, next, hdefine, hrest⟩ := (runFlow_cons_ok_iff hservice hfunctions).mp h
      obtain ⟨ds, hds, hfinal⟩ := ih hrestSteady hrest
      have hd := (setup.run_ensures spec template state.vars {}).2 d hrun
      have hnext : next.vars = mergeSource .deepOverwrite state.vars d :=
        congrArg FlowScope.vars (define_ok_iff.mp hdefine).2.2
      refine ⟨d :: ds, ⟨?_, ?_, ?_⟩, by rw [hfinal, hnext]; rfl⟩
      · exact List.forall_mem_cons.mpr ⟨hd.distinct, hds.distinct⟩
      · refine List.forall_mem_cons.mpr ⟨fun name hname => ?_, fun e he name hname => ?_⟩
        · exact ⟨spec, List.mem_cons_self .., template, htemplate, hd.keys hname⟩
        · obtain ⟨other, hother, hmay⟩ := hds.names e he name hname
          exact ⟨other, List.mem_cons_of_mem _ hother, hmay⟩
      · intro X state' hproduced hagree hnames
        obtain ⟨hspec, hothers⟩ := List.forall_mem_cons.mp hnames
        obtain ⟨next', hdefine', hproduced', hvars'⟩ := define_again hdefine hproduced
        have hagree' : AgreeOff X next.vars next'.vars := by
          rw [hnext, hvars']
          exact hagree.layered [d]
        obtain ⟨final', hrest', hfinal'⟩ := hds.again X next' hproduced' hagree' hothers
        refine ⟨final', (runFlow_cons_ok_iff hservice hfunctions).mpr
          ⟨d, ?_, next', hdefine', hrest'⟩, by rw [hfinal', hvars']; rfl⟩
        rw [← hrun]
        exact (Sender.run_congr hservice hspecSteady template (hagree.on hspec)).symm

/-! ## Validated flows -/

theorem construct_steady {flow : ValidatedFlow}
    (hfunctions : setup.functions.SteadyOn flow.called) (vars : Scope) :
    (setup.construct template parent flow vars).Steady := by
  obtain ⟨hconstructor, hvalidator⟩ := FunctionRegistry.steadyOn_append.mp hfunctions
  unfold construct
  refine Action.Steady.bind (runFlow_steady hservice _ _ hconstructor _) fun _ => ?_
  exact Action.Steady.bind (runFlow_steady hservice _ _ hvalidator _) fun _ => Action.Steady.pure _

theorem runValidated_steady (node : ContextNode) (constructed : Bool) (index : Nat)
    {flow : ValidatedFlow} (hfunctions : setup.functions.SteadyOn flow.called) (vars : Scope) :
    (setup.runValidated node template parent constructed index flow vars).Steady := by
  have hconstruct : (setup.construct template parent flow vars).Steady :=
    construct_steady hservice hfunctions vars
  have hvalidator := (FunctionRegistry.steadyOn_append.mp hfunctions).2
  unfold runValidated
  split
  · refine Action.Steady.bind (runFlow_steady hservice _ _ hvalidator _).attempt fun ended => ?_
    split
    · exact Action.Steady.pure _
    · split
      · exact Action.Steady.bind (Action.Steady.record _) fun _ => hconstruct
      · exact Action.Steady.throw _
  · exact hconstruct

theorem runAllValidated_steady (node : ContextNode) (constructed : Bool) (index : Nat)
    {flows : List ValidatedFlow}
    (hfunctions : setup.functions.SteadyOn (flows.flatMap ValidatedFlow.called)) (vars : Scope) :
    (setup.runAllValidated node template parent constructed index flows vars).Steady := by
  induction flows generalizing index vars with
  | nil => exact Action.Steady.pure vars
  | cons flow rest ih =>
      obtain ⟨hfirst, hrest⟩ := FunctionRegistry.steadyOn_append.mp hfunctions
      rw [runAllValidated]
      exact Action.Steady.bind (runValidated_steady hservice node constructed index hfirst vars)
        fun _ => ih _ hrest _

theorem runAllValidated_cons_ok_iff {node : ContextNode} {constructed : Bool} {index : Nat}
    {flow : ValidatedFlow} {rest : List ValidatedFlow}
    (hfunctions : setup.functions.SteadyOn ((flow :: rest).flatMap ValidatedFlow.called))
    {vars final : Scope} :
    (setup.runAllValidated node template parent constructed index (flow :: rest) vars).outcome
        = .ok final
      ↔ ∃ next, (setup.runValidated node template parent constructed index flow vars).outcome
          = .ok next
        ∧ (setup.runAllValidated node template parent constructed (index + 1) rest next).outcome
          = .ok final := by
  obtain ⟨hfirst, hrest⟩ := FunctionRegistry.steadyOn_append.mp hfunctions
  rw [runAllValidated, Action.outcome_bind_eq_ok_iff
    (runValidated_steady hservice node constructed index hfirst vars)
    fun _ => runAllValidated_steady hservice node constructed _ hrest _]

omit hservice in
/-- Round trips do not refer to what others may define. -/
def Ignores (setup : Setup) (specs others : List RoundTripSpec) : Prop :=
  ∀ spec ∈ specs, ∀ name ∈ spec.names, ¬ setup.MayDefine others name

omit hservice in
/-- A validated flow with what its constructor and its validator defined. -/
structure Built where
  flow : ValidatedFlow
  made : List Scope
  checked : List Scope

omit hservice in
structure Built.Sound (setup : Setup) (b : Built) : Prop where
  distinct : ∀ d ∈ b.made ++ b.checked, d.Distinct
  made : ∀ d ∈ b.made, ∀ name ∈ d.keys, setup.MayDefine b.flow.constructor name
  checked : ∀ d ∈ b.checked, ∀ name ∈ d.keys, setup.MayDefine b.flow.validator name

/-- A validated flow that was run from its constructor comes to what its validator defined
when it is run from there, if the validator ignores what the constructor may define. -/
theorem runValidated_ok (htemplate : setup.Presettable template) {node : ContextNode}
    {index : Nat} {flow : ValidatedFlow} (hfunctions : setup.functions.SteadyOn flow.called)
    {vars final : Scope}
    (h : (setup.runValidated node template parent false index flow vars).outcome = .ok final) :
    ∃ b : Built, b.flow = flow ∧ b.Sound setup ∧ final = layered (b.made ++ b.checked) vars
      ∧ ∀ (X : String → Prop) (vars' : Scope), AgreeOff X vars vars' →
          (∀ spec ∈ flow.validator, ∀ name ∈ spec.names, ¬ X name) →
          setup.Ignores flow.validator flow.constructor →
          (setup.runValidated node template parent true index flow vars').outcome
            = .ok (layered b.checked vars') := by
  obtain ⟨hconstructor, hvalidator⟩ := FunctionRegistry.steadyOn_append.mp hfunctions
  have hmake := runFlow_steady hservice template parent hconstructor
  have hcheck := runFlow_steady hservice template parent hvalidator
  have hconstruct : (setup.construct template parent flow vars).outcome = .ok final := h
  rw [construct, Action.outcome_bind_eq_ok_iff (hmake _)
    fun _ => (hcheck _).bind fun _ => Action.Steady.pure _] at hconstruct
  obtain ⟨middle, hmade, hrest⟩ := hconstruct
  rw [Action.outcome_bind_eq_ok_iff (hcheck _) fun _ => Action.Steady.pure _] at hrest
  obtain ⟨last, hchecked, hlast⟩ := hrest
  cases hlast
  obtain ⟨made, hmadeDefines, hmiddle⟩ := runFlow_ok hservice htemplate hconstructor hmade
  obtain ⟨checked, hcheckedDefines, hlast⟩ := runFlow_ok hservice htemplate hvalidator hchecked
  refine ⟨⟨flow, made, checked⟩, rfl, ⟨?_, hmadeDefines.names, hcheckedDefines.names⟩, ?_, ?_⟩
  · exact List.forall_mem_append.mpr ⟨hmadeDefines.distinct, hcheckedDefines.distinct⟩
  · rw [hlast, hmiddle, ← layered_append]
  · intro X vars' hagree hnames hignores
    have hagree' : AgreeOff (fun name => X name ∨ setup.MayDefine flow.constructor name)
        middle.vars vars' := by
      intro name hname
      rw [hmiddle, get?_layered, valuesOf_eq_nil, if_pos rfl]
      · exact hagree name fun hX => hname (Or.inl hX)
      · exact fun d hd hmem => hname (Or.inr (hmadeDefines.names d hd name hmem))
    obtain ⟨again, hagain, hvars⟩ := hcheckedDefines.again _ ⟨.empty, vars'⟩
      (List.nil_subset _) hagree' fun spec hspec name hname hor =>
        hor.elim (hnames spec hspec name hname) (hignores spec hspec name hname)
    show (setup.runValidated node template parent true index flow vars' {}).1 = _
    rw [runValidated, if_pos rfl]
    refine Action.bind_fst (x := .ok again) (fun journal => ?_) (fun journal => ?_) {}
    · show Except.ok (setup.runFlow template parent flow.validator ⟨.empty, vars'⟩ journal).1 = _
      rw [hcheck _ journal, hagain]
    · rw [← hvars]
      rfl

omit hservice in
/-- All that validated flows defined. -/
def Built.all (bs : List Built) : List Scope := bs.flatMap fun b => b.made ++ b.checked

omit hservice in
/-- What their validators defined. -/
def Built.confirmed (bs : List Built) : List Scope := bs.flatMap (·.checked)

/-- The same for all validated flows of a context. What the constructors may define is ignored
from then on, so it joins the names in which the two scopes may differ. -/
theorem runAllValidated_ok (htemplate : setup.Presettable template) {node : ContextNode}
    {index : Nat} {flows : List ValidatedFlow}
    (hfunctions : setup.functions.SteadyOn (flows.flatMap ValidatedFlow.called))
    {vars final : Scope}
    (h : (setup.runAllValidated node template parent false index flows vars).outcome
      = .ok final) :
    ∃ bs : List Built, bs.map (·.flow) = flows ∧ (∀ b ∈ bs, b.Sound setup)
      ∧ final = layered (Built.all bs) vars
      ∧ ∀ (X : String → Prop) (vars' : Scope), AgreeOff X vars vars' →
          (∀ flow ∈ flows, ∀ spec ∈ flow.validator, ∀ name ∈ spec.names, ¬ X name) →
          (∀ flow ∈ flows, setup.Ignores flow.validator flow.constructor) →
          (flows.Pairwise fun earlier flow => setup.Ignores flow.validator earlier.constructor) →
          (setup.runAllValidated node template parent true index flows vars').outcome
            = .ok (layered (Built.confirmed bs) vars') := by
  induction flows generalizing index vars with
  | nil =>
      cases h
      refine ⟨[], rfl, ?_, rfl, fun X vars' _ _ _ _ => rfl⟩
      exact fun b hb => by cases hb
  | cons flow rest ih =>
      obtain ⟨hflowSteady, hrestSteady⟩ := FunctionRegistry.steadyOn_append.mp hfunctions
      obtain ⟨next, hfirst, hrest⟩ := (runAllValidated_cons_ok_iff hservice hfunctions).mp h
      obtain ⟨b, hflow, hsound, hnext, hagain⟩ :=
        runValidated_ok hservice htemplate hflowSteady hfirst
      obtain ⟨bs, hflows, hsounds, hfinal, hagains⟩ := ih hrestSteady hrest
      refine ⟨b :: bs, by rw [List.map_cons, hflow, hflows],
        List.forall_mem_cons.mpr ⟨hsound, hsounds⟩, ?_, ?_⟩
      · rw [hfinal, hnext, ← layered_append]
        rfl
      · intro X vars' hagree hnames hown hearlier
        obtain ⟨hname, hnames⟩ := List.forall_mem_cons.mp hnames
        obtain ⟨hfirstOwn, hown⟩ := List.forall_mem_cons.mp hown
        obtain ⟨hlater, hearlier⟩ := List.pairwise_cons.mp hearlier
        refine (runAllValidated_cons_ok_iff hservice hfunctions).mpr
          ⟨layered b.checked vars', hagain X vars' hagree hname hfirstOwn, ?_⟩
        rw [show Built.confirmed (b :: bs) = b.checked ++ Built.confirmed bs from rfl,
          layered_append]
        refine hagains (fun name => X name ∨ setup.MayDefine flow.constructor name) _ ?_ ?_ hown
          hearlier
        · intro name hnot
          rw [hnext]
          refine get?_layered_congr ?_ (hagree name fun hX => hnot (Or.inl hX))
          rw [valuesOf_append, valuesOf_eq_nil, List.nil_append]
          exact fun d hd hmem => hnot (Or.inr (hflow ▸ hsound.made d hd name hmem))
        · intro other hother spec hspec name hmem hor
          exact hor.elim (hnames other hother spec hspec name hmem)
            (hlater other hother spec hspec name hmem)

end Flows

/-! ## What is defined of a variable -/

namespace Built

variable {bs : List Built} {name : String}

theorem distinct_all (h : ∀ b ∈ bs, b.Sound setup) : ∀ d ∈ all bs, d.Distinct := by
  intro d hd
  obtain ⟨b, hb, hmem⟩ := List.mem_flatMap.mp hd
  exact (h b hb).distinct d hmem

theorem all_cons (b : Built) (bs : List Built) :
    all (b :: bs) = b.made ++ (b.checked ++ all bs) := List.append_assoc ..

theorem confirmed_cons (b : Built) (bs : List Built) :
    confirmed (b :: bs) = b.checked ++ confirmed bs := rfl

/-- The validators define all that is defined of a variable that no constructor may define. -/
theorem valuesOf_confirmed (h : ∀ b ∈ bs, b.Sound setup)
    (hname : ∀ b ∈ bs, ¬ setup.MayDefine b.flow.constructor name) :
    valuesOf (all bs) name = valuesOf (confirmed bs) name := by
  induction bs with
  | nil => rfl
  | cons b bs ih =>
      obtain ⟨hsound, hsounds⟩ := List.forall_mem_cons.mp h
      obtain ⟨hfirst, hothers⟩ := List.forall_mem_cons.mp hname
      have hmade : valuesOf b.made name = [] :=
        valuesOf_eq_nil fun d hd hmem => hfirst (hsound.made d hd name hmem)
      rw [all_cons, confirmed_cons, valuesOf_append, valuesOf_append, valuesOf_append, hmade,
        ih hsounds hothers, List.nil_append]

/-- They define the last that is defined of it if none of them comes before a constructor that
may define it. -/
theorem valuesOf_all (h : ∀ b ∈ bs, b.Sound setup)
    (horder : (bs.map (·.flow)).Pairwise fun earlier flow =>
      setup.MayDefine flow.constructor name → ¬ setup.MayDefine earlier.validator name) :
    ∃ pre, valuesOf (all bs) name = pre ++ valuesOf (confirmed bs) name := by
  induction bs with
  | nil => exact ⟨[], rfl⟩
  | cons b bs ih =>
      obtain ⟨hsound, hsounds⟩ := List.forall_mem_cons.mp h
      obtain ⟨hlater, horder⟩ := List.pairwise_cons.mp horder
      obtain ⟨pre, hpre⟩ := ih hsounds horder
      rw [all_cons, confirmed_cons, valuesOf_append, valuesOf_append, valuesOf_append]
      by_cases hname : ∃ b ∈ bs, setup.MayDefine b.flow.constructor name
      · obtain ⟨other, hother, hmay⟩ := hname
        have hchecked : valuesOf b.checked name = [] := by
          refine valuesOf_eq_nil fun d hd hmem => ?_
          exact hlater other.flow (List.mem_map.mpr ⟨other, hother, rfl⟩) hmay
            (hsound.checked d hd name hmem)
        refine ⟨valuesOf b.made name ++ pre, ?_⟩
        rw [hpre, hchecked, List.nil_append, List.nil_append, List.append_assoc]
      · refine ⟨valuesOf b.made name, ?_⟩
        rw [valuesOf_confirmed hsounds fun other hother hmay => hname ⟨other, hother, hmay⟩]

end Built

end Setup

end HttpSuite
