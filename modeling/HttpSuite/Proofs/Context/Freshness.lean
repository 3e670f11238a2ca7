import HttpSuite.Proofs.Context.Activation
import HttpSuite.Proofs.Scope.Layers

/-!
# What is left of an earlier activation in what is exported

A flow begins with the variables that were exported before, and what it defines is put on
top of them part by part. So a variable that it defines and that is exported as it is has
the new value on top of the old one, and is fresh exactly if nothing of the old one shows:
`exports_fresh_iff`. The invariant of the flow is `Layered`: a variable is what was there in
the beginning with what was defined since on top, and nothing is defined twice.

That the old value can show is seen from a service that answers with a shorter list the
second time.
-/

namespace HttpSuite

namespace FlowScope

/-- The variables are those of the beginning, with what was defined since on top. -/
structure Layered (base : Scope) (state : FlowScope) : Prop where
  /-- A variable that was defined lies on top of what was there. -/
  defined : ∀ name v, state.produced.get? name = some v →
    state.vars.get? name = some (((base.get? name).getD .null).deepOverwrite v)
  /-- Another one is what it was. -/
  kept : ∀ name, state.produced.get? name = none → state.vars.get? name = base.get? name
  /-- No value has a name twice. -/
  distinct : state.produced.Distinct

theorem Layered.start (base : Scope) : Layered base ⟨.empty, base⟩ where
  defined name v h := by cases h
  kept _ _ := rfl
  distinct := Scope.Distinct.empty

end FlowScope

theorem FlowScope.Layered.define {base parent defined : Scope} {state state' : FlowScope}
    (h : Layered base state) (hdistinct : defined.Distinct)
    (hdefine : Setup.define parent state defined = .ok state') : Layered base state' := by
  obtain ⟨-, hnew, rfl⟩ := Setup.define_ok_iff.mp hdefine
  have hproduced := OrderedMap.get?_extend state.produced defined
  have hvars := Scope.get?_mergeSource .deepOverwrite state.vars defined
  refine ⟨?_, ?_, ?_⟩
  · intro name v hv
    rw [hproduced] at hv
    rw [hvars]
    cases hget : defined.get? name with
    | none =>
        rw [hget] at hv
        exact h.defined name v hv
    | some w =>
        rw [hget] at hv
        cases hv
        have hfree := OrderedMap.get?_eq_none_iff.mpr (hnew name (OrderedMap.mem_keys_of_get? hget))
        rw [← h.kept name hfree]
        exact congrArg some (MergePolicy.joined_deepOverwrite _ _)
  · intro name hv
    rw [hproduced] at hv
    obtain ⟨hdefined, hold⟩ := Option.or_eq_none_iff.mp hv
    rw [hvars, hdefined]
    exact h.kept name hold
  · intro name v hv
    rw [hproduced] at hv
    cases hget : defined.get? name with
    | none =>
        rw [hget] at hv
        exact h.distinct name v hv
    | some w =>
        rw [hget] at hv
        cases hv
        exact hdistinct name v hget

namespace Setup

variable (setup : Setup)

theorem runFlow_layered (template : RoundTrip) (parent : Scope) (specs : List RoundTripSpec)
    {base : Scope} {state : FlowScope} (h : state.Layered base) :
    (setup.runFlow template parent specs state).Ensures (fun _ => True)
      (FlowScope.Layered base) := by
  induction specs generalizing state with
  | nil => exact Action.Ensures.pure h
  | cons spec rest ih =>
      rw [runFlow]
      refine Action.Ensures.bind ((setup.run_ensures spec template state.vars).mapError.mono
        (fun _ _ => trivial) fun _ hdefined => hdefined.distinct) ?_
      intro defined hdistinct
      exact Action.Ensures.bind_ofExcept fun state' hdefine => ih (h.define hdistinct hdefine)

/-- When a context without validated flows is activated, a variable that its flow defines
and that is exported under its own name is handed down with its new value on top of the one
that was exported before. That is the new value itself exactly if it hides the old one. -/
theorem exports_fresh_iff {node : ContextNode} {parent active : ActiveContext}
    {memory memory' : ContextMemory} {journal journal' : Journal}
    (hflows : node.spec.validatedFlow = [])
    (h : node.activate setup parent memory journal = (.ok active, memory', journal')) :
    ∃ vars template state between,
      parent.scope.materialize.merge .conflict [memory.exports] = .ok vars
      ∧ (setup.behindMark journal vars).preset vars node.spec.presetters parent.template
          = .ok template
      ∧ setup.runFlow template parent.scope.materialize node.spec.flow ⟨.empty, vars⟩
          (journal.record (.sees none vars)) = (.ok state, between)
      ∧ ∀ e ∈ node.spec.exports, e.selector = [] →
          ∀ v, state.produced.get? e.name = some v →
            active.scope.get? e.name
                = some (((memory.exports.get? e.name).getD .null).deepOverwrite v)
            ∧ (active.scope.get? e.name = some v
                ↔ ∀ old, memory.exports.get? e.name = some old → v.Hides old) := by
  obtain ⟨a, after, hrun, rfl, -⟩ := ContextNode.activate_eq_ok h
  obtain ⟨between, between', vars, template, state, final, hsteps⟩ := activation_eq_ok hrun
  refine ⟨vars, template, state, between, hsteps.merged, hsteps.preset, hsteps.flow, ?_⟩
  intro e he hselector v hv
  have hlayered : state.Layered vars :=
    (setup.runFlow_layered template _ node.spec.flow (.start vars) _).2 state
      (congrArg Prod.fst hsteps.flow)
  have hfinal : final = state.vars := by
    have hvalidated := hsteps.validated
    rw [hflows] at hvalidated
    cases hvalidated
    rfl
  obtain ⟨-, hvars⟩ := Scope.merge_conflict_ok_iff.mp hsteps.merged
  have hold : vars.get? e.name = memory.exports.get? e.name := by
    rw [hvars, OrderedMap.get?_extend,
      OrderedMap.get?_eq_none_iff.mpr (hsteps.exportsNew e he), Option.or_none]
  have hactive : a.active.scope.get? e.name
      = some (((memory.exports.get? e.name).getD .null).deepOverwrite v) := by
    obtain ⟨-, hpushed⟩ := ScopeChain.push_ok_iff.mp hsteps.pushed
    have hexport : a.exports.get? e.name
        = some (((memory.exports.get? e.name).getD .null).deepOverwrite v) := by
      rw [get?_exportAll hsteps.exported he hselector, hfinal, hlayered.defined e.name v hv, hold]
    rw [hpushed]
    show (a.exports :: parent.scope.frames).findSome? (OrderedMap.get? · e.name) = _
    rw [List.findSome?_cons, hexport]
  have hfresh : ((memory.exports.get? e.name).getD .null).deepOverwrite v = v
      ↔ ∀ old, memory.exports.get? e.name = some old → v.Hides old := by
    cases memory.exports.get? e.name with
    | none => simp
    | some old =>
        rw [Option.getD_some, Value.deepOverwrite_eq_iff (hlayered.distinct e.name v hv)]
        simp
  refine ⟨hactive, ?_⟩
  rw [hactive, Option.some.injEq, hfresh]

/-! ## A list that is replaced -/

/-- A service that answers the first request with a list of one number, and every later one
with something else. -/
def listService (later : String) : Service where
  reachable _ := true
  reply seen _ := .answer { body := (if seen.isEmpty then "[1]" else later).toUTF8.toList }

/-- One that answers every later request with the empty list. -/
def shrinkingService : Service := listService "[]"

/-- A context that asks for a list and exports it. -/
def listNode : ContextNode where
  title := "list"
  spec :=
    { flow := [{
        request := { host := some (.literal "localhost"), api := some (.literal "GET /list") }
        definitions := [{ name := "list" }] }]
      exports := [{ name := "list" }] }
  total := 2

/-- The first activation of the context. -/
def firstListing (later : String) : Except ContextError ActiveContext × ContextMemory × Journal :=
  listNode.activate (.plain (listService later)) (.root .empty) {} {}

/-- The second one. -/
def secondListing (later : String) : Except ContextError ActiveContext × ContextMemory × Journal :=
  listNode.activate (.plain (listService later)) (.root .empty) (firstListing later).2.1
    (firstListing later).2.2

/-- What the flow defines in the second activation. -/
def listedAgain (later : String) : Option Value :=
  let vars := (ActiveContext.root .empty).scope.materialize.extend (firstListing later).2.1.exports
  let run := (plain (listService later)).runFlow {} (ActiveContext.root .empty).scope.materialize
    listNode.spec.flow ⟨.empty, vars⟩ ((firstListing later).2.2.record (.sees none vars))
  run.1.toOption.bind fun state => state.produced.get? "list"

/-- Where a list is remembered, a number hides it and is handed down. The empty list does not, and
is not. -/
theorem exports_fresh_iff_list :
    listNode.spec.validatedFlow = []
      ∧ ∀ later ∈ ["2", "[]"], ∃ old active memory' journal' v,
        (firstListing later).2.1.exports.get? "list" = some old ∧ old.display = "[1]"
        ∧ secondListing later = (.ok active, memory', journal')
        ∧ listedAgain later = some v ∧ v.display = later
        ∧ (active.scope.get? "list" = some v ↔ v.Hides old)
        ∧ (v.Hides old ↔ later = "2") := by
  refine ⟨rfl, fun later hlater => ?_⟩
  have hok : (secondListing later).1.toOption.map
      (fun active => (active.scope.get? "list").map Value.display)
        = some (some (if later = "2" then "2" else "[1]")) := by
    revert later
    decide +kernel
  have hremembered : ((firstListing later).2.1.exports.get? "list").map Value.display
      = some "[1]" := by
    revert later
    decide +kernel
  have hlisted : (listedAgain later).map (fun v => (v.display, v.kind))
      = some (later, if later = "2" then .number else .array) := by
    revert later
    decide +kernel
  obtain ⟨old, hold, holdText⟩ := Option.map_eq_some_iff.mp hremembered
  obtain ⟨v, hv, hvText⟩ := Option.map_eq_some_iff.mp hlisted
  obtain ⟨htext, hkind⟩ := Prod.mk.inj hvText
  rcases hrun : secondListing later with ⟨result, memory', journal'⟩
  rw [hrun] at hok
  cases result with
  | error e => cases hok
  | ok active =>
      have hshown : (active.scope.get? "list").map Value.display
          = some (if later = "2" then "2" else "[1]") := Option.some.inj hok
      refine ⟨old, active, memory', journal', v, hold, holdText, rfl, hv, htext, ?_⟩
      unfold secondListing at hrun
      obtain ⟨vars, template, state, between, hmerged, hpreset, hflow, hall⟩ :=
        exports_fresh_iff (plain (listService later))
          (show listNode.spec.validatedFlow = [] from rfl) hrun
      cases hpreset
      obtain ⟨-, rfl⟩ := Scope.merge_conflict_ok_iff.mp hmerged
      have hproduced : state.produced.get? "list" = some v := by
        have hstate := congrArg (fun r => r.1.toOption.bind fun s => s.produced.get? "list") hflow
        exact hstate.symm.trans hv
      have hiff := (hall { name := "list" } (List.mem_singleton_self _) rfl v hproduced).2
      dsimp only at hiff
      simp only [hold, Option.some.injEq, forall_eq'] at hiff
      refine ⟨hiff, fun hhides => ?_, fun hnumber => ?_⟩
      · rw [hiff.mpr hhides, Option.map_some, Option.some.injEq, htext] at hshown
        split at hshown
        · assumption
        · next hother =>
            subst hshown
            simp at hlater
      · rw [if_pos hnumber] at hkind
        cases v with
        | number n => exact trivial
        | _ => cases hkind

/-- In the second activation the flow defines the empty list, and what is handed down is the
list of the first one. -/
theorem stale_item_exported :
    ∃ memory journal vars, listNode.Reachable (.plain shrinkingService) memory
      ∧ (ActiveContext.root .empty).scope.materialize.merge .conflict [memory.exports] = .ok vars
      ∧ (((plain shrinkingService).runFlow {} (ActiveContext.root .empty).scope.materialize
            listNode.spec.flow ⟨.empty, vars⟩ (journal.record (.sees none vars))).1.toOption.map
          fun state => (state.produced.get? "list").map Value.display) = some (some "[]")
      ∧ ((listNode.activate (.plain shrinkingService) (.root .empty) memory journal).1.toOption.map
          fun active => (active.scope.get? "list").map Value.display) = some (some "[1]") := by
  refine ⟨(firstListing "[]").2.1, (firstListing "[]").2.2,
    (ActiveContext.root .empty).scope.materialize.extend (firstListing "[]").2.1.exports,
    ContextNode.Reachable.start.activate (.root .empty) {}, ?_, ?_, ?_⟩
  · exact Scope.merge_conflict_ok_iff.mpr ⟨fun _ _ h => (by cases h), rfl⟩
  · decide +kernel
  · decide +kernel

end Setup

end HttpSuite
