import HttpSuite.Proofs.Context.Activation

/-!
# What flows and activations leave alone

A flow and an activation only ever look at scopes in which everything that was handed to
them is as it was, and they write nothing into the journal but such scopes, notes and
traffic. Both are one statement about their actions, `Event.IsInner`, carried through by
`Action.Ensures`.

Two of the merges replace what is there. They cannot touch what was handed down because
every name is compared with the names from further out before it is bound, and the
invariant `Scope.KeptBy` is what that comparison keeps up.
-/

namespace HttpSuite

namespace Scope

/-- Every binding of the outer scope is there in the inner one. -/
def KeptBy (outer inner : Scope) : Prop :=
  ∀ name v, outer.get? name = some v → inner.get? name = some v

theorem KeptBy.refl (scope : Scope) : scope.KeptBy scope := fun _ _ h => h

theorem KeptBy.trans {a b c : Scope} (hab : a.KeptBy b) (hbc : b.KeptBy c) : a.KeptBy c :=
  fun name v h => hbc name v (hab name v h)

/-- Binding other names keeps what is there. -/
theorem KeptBy.mergeSource {outer inner source : Scope} (h : outer.KeptBy inner)
    (policy : MergePolicy) (hnew : ∀ name ∈ source.keys, name ∉ outer.keys) :
    outer.KeptBy (mergeSource policy inner source) := by
  intro name v hv
  rw [get?_mergeSource_of_not_mem]
  · exact h name v hv
  · exact fun hmem => hnew name hmem (OrderedMap.mem_keys_of_get? hv)

theorem KeptBy.extend {outer inner source : Scope} (h : outer.KeptBy inner)
    (hnew : ∀ name ∈ source.keys, name ∉ outer.keys) : outer.KeptBy (inner.extend source) := by
  rw [← mergeSource_eq_extend (Or.inl rfl)]
  exact h.mergeSource .overwrite hnew

theorem KeptBy.merge_conflict {outer inner source merged : Scope} (h : outer.KeptBy inner)
    (hmerge : inner.merge .conflict [source] = .ok merged) : outer.KeptBy merged := by
  obtain ⟨hnew, rfl⟩ := merge_conflict_ok_iff.mp hmerge
  intro name v hv
  have hinner := h name v hv
  rw [OrderedMap.get?_extend, OrderedMap.get?_eq_none_iff.mpr, hinner]
  · rfl
  · exact fun hmem => hnew name hmem (OrderedMap.mem_keys_of_get? hinner)

end Scope

/-- If the entry marks a scope, it keeps the bindings of the outer one; inside a loop all but
that of the number of the iteration. -/
def Event.Keeps (outer : Scope) : Event → Prop
  | sees none seen => outer.KeptBy seen
  | sees (some _) seen =>
    ∀ name v, name ≠ Sender.iterator → outer.get? name = some v → seen.get? name = some v
  | _ => True

/-- A note, traffic or a scope: nothing that tells of a case, a context or a cleaner. -/
def Event.IsQuiet : Event → Prop
  | noted .. | called _ | received _ | sees .. => True
  | _ => False

/-- What is written inside a context: nothing that tells of cases, contexts or cleaners, and
only scopes that keep the bindings of the outer one. -/
structure Event.IsInner (outer : Scope) (event : Event) : Prop where
  quiet : event.IsQuiet
  keeps : event.Keeps outer

theorem Event.IsWithin.isQuiet {scope : Scope} {event : Event} (h : event.IsWithin scope) :
    event.IsQuiet := by
  cases event with
  | noted | called | received | sees => trivial
  | _ => exact False.elim h

theorem Event.IsWithin.keeps {outer scope : Scope} (h : outer.KeptBy scope) {event : Event}
    (hevent : event.IsWithin scope) : event.Keeps outer := by
  cases event with
  | sees iteration seen =>
      cases iteration with
      | none =>
          cases hevent
          exact h
      | some i =>
          cases hevent
          intro name v hne hv
          rw [Sender.iterationScope, OrderedMap.get?_insert, if_neg hne]
          exact h name v hv
  | _ => trivial

theorem Event.Keeps.of_keptBy {outer inner : Scope} (h : outer.KeptBy inner) {event : Event}
    (hevent : event.Keeps inner) : event.Keeps outer := by
  cases event with
  | sees iteration seen =>
      cases iteration with
      | none => exact h.trans hevent
      | some i => exact fun name v hne hv => hevent name v hne (h name v hv)
  | _ => trivial

namespace Setup

variable (setup : Setup)

/-! ## Flows -/

theorem run_keeps (spec : RoundTripSpec) (template : RoundTrip) {parent vars : Scope}
    (h : parent.KeptBy vars) :
    ((setup.run spec template vars).mapError ContextError.roundTrip).Ensures
      (Event.IsInner parent) fun _ => True :=
  (setup.run_ensures spec template vars).mapError.mono
    (fun _ hevent => ⟨hevent.isQuiet, hevent.keeps h⟩) fun _ _ => trivial

theorem runFlow_keeps (template : RoundTrip) (parent : Scope) (specs : List RoundTripSpec)
    {state : FlowScope} (h : parent.KeptBy state.vars) :
    (setup.runFlow template parent specs state).Ensures (Event.IsInner parent)
      fun state => parent.KeptBy state.vars := by
  induction specs generalizing state with
  | nil => exact Action.Ensures.pure h
  | cons spec rest ih =>
      rw [runFlow]
      refine Action.Ensures.bind (setup.run_keeps spec template h) fun defined _ => ?_
      refine Action.Ensures.bind_ofExcept fun state' hdefine => ?_
      obtain ⟨hnew, -, rfl⟩ := define_ok_iff.mp hdefine
      exact ih (h.mergeSource .deepOverwrite hnew)

theorem construct_keeps (template : RoundTrip) (parent : Scope) (flow : ValidatedFlow)
    {vars : Scope} (h : parent.KeptBy vars) :
    (setup.construct template parent flow vars).Ensures (Event.IsInner parent)
      parent.KeptBy := by
  unfold construct
  refine Action.Ensures.bind (setup.runFlow_keeps template parent flow.constructor h) ?_
  intro built hbuilt
  refine Action.Ensures.bind (setup.runFlow_keeps template parent flow.validator hbuilt) ?_
  exact fun validated hvalidated => Action.Ensures.pure hvalidated

theorem runValidated_keeps (node : ContextNode) (template : RoundTrip) (parent : Scope)
    (constructed : Bool) (index : Nat) (flow : ValidatedFlow) {vars : Scope}
    (h : parent.KeptBy vars) :
    (setup.runValidated node template parent constructed index flow vars).Ensures
      (Event.IsInner parent) parent.KeptBy := by
  have hconstruct := setup.construct_keeps template parent flow h
  unfold runValidated
  split
  · refine Action.Ensures.bind (setup.runFlow_keeps template parent flow.validator h).attempt ?_
    intro ended hended
    cases ended with
    | ok state => exact Action.Ensures.pure (hended state rfl)
    | error e =>
        dsimp only
        split
        · exact Action.Ensures.bind_record ⟨trivial, trivial⟩ hconstruct
        · exact Action.Ensures.throw e
  · exact hconstruct

theorem runAllValidated_keeps (node : ContextNode) (template : RoundTrip) (parent : Scope)
    (constructed : Bool) (index : Nat) (flows : List ValidatedFlow) {vars : Scope}
    (h : parent.KeptBy vars) :
    (setup.runAllValidated node template parent constructed index flows vars).Ensures
      (Event.IsInner parent) parent.KeptBy := by
  induction flows generalizing index vars with
  | nil => exact Action.Ensures.pure h
  | cons flow rest ih =>
      rw [runAllValidated]
      refine Action.Ensures.bind
        (setup.runValidated_keeps node template parent constructed index flow h) ?_
      exact fun vars hvars => ih (index + 1) hvars

theorem runCase_keeps (spec : CaseSpec) (active : ActiveContext) :
    (setup.runCase spec active).Ensures (Event.IsInner active.scope.materialize)
      active.scope.materialize.KeptBy := by
  unfold runCase
  suffices h : ∀ (specs : List RoundTripSpec) (vars : Scope),
      active.scope.materialize.KeptBy vars →
      (setup.runCaseFlow active.template specs vars).Ensures
        (Event.IsInner active.scope.materialize) active.scope.materialize.KeptBy from
    h spec.flow _ (Scope.KeptBy.refl _)
  intro specs
  induction specs with
  | nil => exact fun vars h => Action.Ensures.pure h
  | cons first rest ih =>
      intro vars h
      rw [runCaseFlow]
      refine Action.Ensures.bind (setup.run_keeps first _ h) fun defined _ => ?_
      exact Action.Ensures.bind_ofExcept fun vars' hmerge => ih vars' (h.merge_conflict hmerge)

/-! ## Activations -/

theorem materialize_push_ok {parent pushed : ScopeChain} {exports : Scope}
    (h : parent.push exports = .ok pushed) :
    (∀ name ∈ exports.keys, name ∉ parent.materialize.keys)
      ∧ pushed.materialize = parent.materialize.extend exports := by
  obtain ⟨hnew, rfl⟩ := ScopeChain.push_ok_iff.mp h
  exact ⟨hnew, ScopeChain.materialize_push _ _⟩

theorem activation_keeps (node : ContextNode) (memory : ContextMemory)
    (parent : ActiveContext) :
    (setup.activation node memory parent).Ensures (Event.IsInner parent.scope.materialize)
      fun a => parent.scope.materialize.KeptBy a.active.scope.materialize := by
  unfold activation
  refine Action.Ensures.bind_ofExcept fun _ _ => ?_
  split
  · exact Action.Ensures.throw _
  · next hfind =>
      refine Action.Ensures.bind_ofExcept fun vars hmerge => ?_
      have hvars := (Scope.KeptBy.refl parent.scope.materialize).merge_conflict hmerge
      refine Action.Ensures.bind_record ⟨trivial, hvars⟩ ?_
      refine Action.Ensures.bind_inView fun template _ _ => ?_
      refine Action.Ensures.bind (setup.runFlow_keeps template _ node.spec.flow hvars) ?_
      intro state hstate
      refine Action.Ensures.bind (setup.runAllValidated_keeps node template _ memory.constructed
        0 node.spec.validatedFlow hstate) ?_
      intro final hfinal
      refine Action.Ensures.bind_record ⟨trivial, hfinal⟩ ?_
      refine Action.Ensures.bind_inView fun exports _ hexports => ?_
      have hnew : ∀ name ∈ exports.keys, name ∉ parent.scope.materialize.keys := by
        intro name hname
        rw [keys_exportAll hexports] at hname
        obtain ⟨e, he, rfl⟩ := mem_exportNames.mp hname
        exact exports_new_of_find? hfind e he
      refine Action.Ensures.bind_record ⟨trivial, hfinal.mergeSource .overwrite hnew⟩ ?_
      refine Action.Ensures.bind_inView fun calls _ _ => ?_
      refine Action.Ensures.bind_ofExcept fun scope hpush => Action.Ensures.pure ?_
      rw [(materialize_push_ok hpush).2]
      exact (Scope.KeptBy.refl _).extend hnew

end Setup

end HttpSuite
