import HttpSuite.Context.Activation
import HttpSuite.Proofs.Journal
import HttpSuite.Proofs.OrderedMap

/-!
# The names that a context refers to

The presetters of a context are looked up by name when it is activated, and its cleaners when
it is finished. An activation checks all of these names first, so where the check passes the
lookup of a presetter cannot fail any more, and what remains are errors that are not about a
name, `activation_fails`. No other step of a flow comes up with such an error.

`Setup.Refuses` lists the errors of an activation by their kind. That a name is exported twice
is among them only for a context that does so, `activation_not_exportedTwice`.
-/

namespace HttpSuite

namespace ContextError

/-- The error is about a presetter or a cleaner that does not exist. -/
def NamesUnknown : ContextError → Prop
  | unknownPresetter _ | unknownCleaner _ => True
  | _ => False

/-- The error is one of round trips, of their templates or of what they define. -/
def OfFlow : ContextError → Prop
  | parentConflict _ | roundTrip _ | binding _ => True
  | _ => False

theorem OfFlow.not_namesUnknown {e : ContextError} (h : e.OfFlow) : ¬ e.NamesUnknown := by
  cases e with
  | parentConflict _ | roundTrip _ | binding _ => exact id
  | _ => cases h

end ContextError

theorem ContextNode.checkCollaborators_eq_ok_iff {node : ContextNode}
    {presetters : OrderedMap Presetter} {cleaners : OrderedMap Cleaner} :
    node.checkCollaborators presetters cleaners = .ok ()
      ↔ (∀ p ∈ node.spec.presetters, presetters.contains p.name = true)
        ∧ ∀ c ∈ node.spec.cleaners, cleaners.contains c.name = true := by
  have hpresetters : (node.spec.presetters.find? fun p => !presetters.contains p.name) = none
      ↔ ∀ p ∈ node.spec.presetters, presetters.contains p.name = true := by
    simp only [List.find?_eq_none, Bool.not_eq_true', Bool.not_eq_false]
  have hcleaners : (node.spec.cleaners.find? fun c => !cleaners.contains c.name) = none
      ↔ ∀ c ∈ node.spec.cleaners, cleaners.contains c.name = true := by
    simp only [List.find?_eq_none, Bool.not_eq_true', Bool.not_eq_false]
  rw [← hpresetters, ← hcleaners]
  unfold checkCollaborators
  cases node.spec.presetters.find? fun p => !presetters.contains p.name with
  | some p => simp
  | none => cases node.spec.cleaners.find? fun c => !cleaners.contains c.name <;> simp

theorem ContextNode.namesUnknown_of_checkCollaborators {node : ContextNode}
    {presetters : OrderedMap Presetter} {cleaners : OrderedMap Cleaner} {e : ContextError}
    (h : node.checkCollaborators presetters cleaners = .error e) : e.NamesUnknown := by
  unfold checkCollaborators at h
  split at h
  · cases h
    trivial
  · split at h
    · cases h
      trivial
    · cases h

namespace Setup

variable (setup : Setup)

/-! ## Presetters -/

/-- Where all presetters are there, what fails is one of them or its arguments. -/
theorem preset_error {vars : Scope} {specs : List PresetSpec} {template : RoundTrip}
    {e : ContextError} (hknown : ∀ p ∈ specs, setup.presetters.contains p.name = true)
    (h : setup.preset vars specs template = .error e) :
    e.OfFlow ∨ ∃ name fault, e = .preset name fault := by
  induction specs generalizing template with
  | nil => cases h
  | cons spec rest ih =>
      obtain ⟨hfirst, hrest⟩ := List.forall_mem_cons.mp hknown
      rw [preset] at h
      split at h
      · next hnone =>
          rw [OrderedMap.contains, hnone] at hfirst
          cases hfirst
      · split at h
        · cases h
          exact .inl trivial
        · split at h
          · cases h
            exact .inr ⟨_, _, rfl⟩
          · exact ih hrest h

/-! ## Flows -/

theorem define_error {parent defined : Scope} {state : FlowScope} {e : ContextError}
    (h : define parent state defined = .error e) : e.OfFlow := by
  unfold define at h
  split at h
  · split at h
    · cases h
      trivial
    · cases h
  · cases h
    trivial

theorem run_fails (spec : RoundTripSpec) (template : RoundTrip) (vars : Scope) :
    ((setup.run spec template vars).mapError ContextError.roundTrip).Fails ContextError.OfFlow :=
  Action.Fails.mapError _ fun _ => trivial

theorem runFlow_fails (template : RoundTrip) (parent : Scope) (specs : List RoundTripSpec)
    (state : FlowScope) :
    (setup.runFlow template parent specs state).Fails ContextError.OfFlow := by
  induction specs generalizing state with
  | nil => exact Action.Fails.pure state
  | cons spec rest ih =>
      rw [runFlow]
      refine Action.Fails.bind (setup.run_fails spec template state.vars) fun defined _ _ => ?_
      exact Action.Fails.bind_ofExcept (fun _ he => define_error he) fun state => ih state

theorem runCase_fails (spec : CaseSpec) (active : ActiveContext) :
    (setup.runCase spec active).Fails ContextError.OfFlow := by
  unfold runCase
  generalize active.scope.materialize = vars
  induction spec.flow generalizing vars with
  | nil => exact Action.Fails.pure vars
  | cons first rest ih =>
      rw [runCaseFlow]
      refine Action.Fails.bind (setup.run_fails first active.template vars) fun defined _ _ => ?_
      exact Action.Fails.bind_ofExcept (fun _ _ => trivial) fun vars => ih vars

theorem construct_fails (template : RoundTrip) (parent : Scope) (flow : ValidatedFlow)
    (vars : Scope) : (setup.construct template parent flow vars).Fails ContextError.OfFlow := by
  unfold construct
  refine Action.Fails.bind (setup.runFlow_fails template parent flow.constructor _) ?_
  intro built _ _
  refine Action.Fails.bind (setup.runFlow_fails template parent flow.validator built) ?_
  exact fun validated _ _ => Action.Fails.pure validated.vars

theorem runValidated_fails (node : ContextNode) (template : RoundTrip) (parent : Scope)
    (constructed : Bool) (index : Nat) (flow : ValidatedFlow) (vars : Scope) :
    (setup.runValidated node template parent constructed index flow vars).Fails
      ContextError.OfFlow := by
  have hconstruct := setup.construct_fails template parent flow vars
  unfold runValidated
  split
  · refine Action.Fails.bind (Action.Fails.attempt _) fun ended journal hended => ?_
    -- an error that is thrown again is one of the validator
    have hran : (setup.runFlow template parent flow.validator ⟨.empty, vars⟩ journal).1 = ended :=
      Except.ok.inj hended
    cases ended with
    | ok state => exact Action.Fails.pure state.vars
    | error e =>
        dsimp only
        split
        · exact Action.Fails.bind_record hconstruct
        · exact Action.Fails.throw (setup.runFlow_fails template parent _ _ journal e hran)
  · exact hconstruct

theorem runAllValidated_fails (node : ContextNode) (template : RoundTrip) (parent : Scope)
    (constructed : Bool) (index : Nat) (flows : List ValidatedFlow) (vars : Scope) :
    (setup.runAllValidated node template parent constructed index flows vars).Fails
      ContextError.OfFlow := by
  induction flows generalizing index vars with
  | nil => exact Action.Fails.pure vars
  | cons flow rest ih =>
      rw [runAllValidated]
      refine Action.Fails.bind
        (setup.runValidated_fails node template parent constructed index flow vars) ?_
      exact fun vars _ _ => ih (index + 1) vars

/-! ## Exports and the arguments of cleaners -/

theorem exportPath_error {functions : FunctionRegistry} {vars : Scope} {spec : ExportSpec}
    {e : ContextError} (h : exportPath functions vars spec = .error e) : e.OfFlow := by
  unfold exportPath at h
  split at h
  · cases h
  · split at h
    · cases h
    · cases h
      trivial

/-- Exporting fails for what is not there, or since two variables have one name. -/
theorem exportAll_error {vars : Scope} {specs : List ExportSpec} {taken : Scope}
    {e : ContextError} (h : setup.exportAll vars specs taken = .error e) :
    e.OfFlow ∨ (∃ name fault, e = .exportFault name fault)
      ∨ ((∃ name, e = .exportedTwice name)
        ∧ ¬ (taken.keys ++ specs.map ExportSpec.name).Nodup) := by
  induction specs generalizing taken with
  | nil => cases h
  | cons spec rest ih =>
      rw [exportAll] at h
      split at h
      · next htaken =>
          cases h
          refine .inr (.inr ⟨⟨_, rfl⟩, fun hnodup => ?_⟩)
          have hmem : spec.name ∈ taken.keys := OrderedMap.contains_iff.mp htaken
          exact (List.nodup_append.mp hnodup).2.2 _ hmem _ List.mem_cons_self rfl
      · next htaken =>
          split at h
          · next hpath =>
              cases h
              exact .inl (exportPath_error hpath)
          · split at h
            · cases h
              exact .inr (.inl ⟨_, _, rfl⟩)
            · next value _ =>
                -- The name is now among those that are taken.
                have hkeys : (taken.insert spec.name value).keys = taken.keys ++ [spec.name] := by
                  rw [OrderedMap.keys_insert, if_neg]
                  exact fun hmem => htaken (OrderedMap.contains_iff.mpr hmem)
                have hlater := ih h
                rw [hkeys, List.append_assoc] at hlater
                exact hlater

theorem cleanerCalls_error {vars : Scope} {specs : List CleanerSpec} {e : ContextError}
    (h : setup.cleanerCalls vars specs = .error e) : e.OfFlow := by
  induction specs with
  | nil => cases h
  | cons spec rest ih =>
      rw [cleanerCalls] at h
      split at h
      · cases h
        trivial
      · cases hothers : setup.cleanerCalls vars rest with
        | ok calls =>
            rw [hothers] at h
            cases h
        | error e' =>
            rw [hothers] at h
            cases h
            exact ih hothers

/-! ## Activations -/

/-- The errors of activations. -/
inductive Refuses (setup : Setup) (node : ContextNode) : ContextError → Prop where
  /-- A presetter or a cleaner does not exist. -/
  | collaborators {e : ContextError}
      (h : node.checkCollaborators setup.presetters setup.cleaners = .error e) :
      Refuses setup node e
  /-- A variable would be exported that is there further out. -/
  | shadowing (name : String) : Refuses setup node (.exportShadows name)
  /-- A presetter refuses its arguments. -/
  | preset (name : String) (fault : PresetError) : Refuses setup node (.preset name fault)
  /-- A flow fails, or something that is rendered. -/
  | flow {e : ContextError} (h : e.OfFlow) : Refuses setup node e
  /-- What is exported is not there. -/
  | absent (name : String) (fault : VariableError) : Refuses setup node (.exportFault name fault)
  /-- Two variables are exported under one name. -/
  | twice (name : String) (h : ¬ (node.spec.exports.map ExportSpec.name).Nodup) :
      Refuses setup node (.exportedTwice name)

variable {setup} in
theorem Refuses.ofPreset {node : ContextNode} {vars : Scope} {template : RoundTrip}
    {journal : Journal} {e : ContextError}
    (hknown : ∀ p ∈ node.spec.presetters, setup.presetters.contains p.name = true)
    (h : (setup.upon journal).preset vars node.spec.presetters template = .error e) :
    setup.Refuses node e := by
  rcases (setup.upon journal).preset_error hknown h with hflow | ⟨name, fault, rfl⟩
  · exact .flow hflow
  · exact .preset name fault

variable {setup} in
theorem Refuses.ofExportAll {node : ContextNode} {vars : Scope} {journal : Journal}
    {e : ContextError}
    (h : (setup.upon journal).exportAll vars node.spec.exports .empty = .error e) :
    setup.Refuses node e := by
  rcases (setup.upon journal).exportAll_error h with
    hflow | ⟨name, fault, rfl⟩ | ⟨⟨name, rfl⟩, htwice⟩
  · exact .flow hflow
  · exact .absent name fault
  · exact .twice name htwice

/-- An activation has no other errors. -/
theorem activation_refuses (node : ContextNode) (memory : ContextMemory) (parent : ActiveContext) :
    (setup.activation node memory parent).Fails (setup.Refuses node) := by
  unfold activation
  cases hchecked : node.checkCollaborators setup.presetters setup.cleaners with
  | error e =>
      refine Action.Fails.bind (Action.Fails.ofExcept fun e' he' => ?_) fun _ _ hok => nomatch hok
      cases he'
      exact .collaborators hchecked
  | ok _ =>
      have hpresetters := (ContextNode.checkCollaborators_eq_ok_iff.mp hchecked).1
      refine Action.Fails.bind_ofExcept nofun fun _ => ?_
      split
      · exact Action.Fails.throw (.shadowing _)
      · refine Action.Fails.bind_ofExcept (fun _ _ => .flow trivial) fun vars => ?_
        refine Action.Fails.bind_record ?_
        refine Action.Fails.bind_inView (fun _ _ he => .ofPreset hpresetters he) fun template => ?_
        refine Action.Fails.bind
          ((setup.runFlow_fails template _ node.spec.flow _).mono fun _ => .flow) ?_
        intro state _ _
        refine Action.Fails.bind ((setup.runAllValidated_fails node template _ memory.constructed 0
          node.spec.validatedFlow state.vars).mono fun _ => .flow) fun final _ _ => ?_
        refine Action.Fails.bind_record ?_
        refine Action.Fails.bind_inView (fun _ _ he => .ofExportAll he) fun exports => ?_
        refine Action.Fails.bind_record ?_
        refine Action.Fails.bind_inView
          (fun journal _ he => .flow ((setup.upon journal).cleanerCalls_error he)) fun calls => ?_
        exact Action.Fails.bind_ofExcept (fun _ _ => .flow trivial) fun scope => Action.Fails.pure _

variable {setup} in
/-- The activation of a context whose names are all there does not fail for a name. -/
theorem activation_fails {node : ContextNode}
    (hchecked : node.checkCollaborators setup.presetters setup.cleaners = .ok ())
    (memory : ContextMemory) (parent : ActiveContext) :
    (setup.activation node memory parent).Fails (¬ ·.NamesUnknown) := by
  refine (setup.activation_refuses node memory parent).mono fun e he => ?_
  cases he with
  | collaborators h =>
      rw [hchecked] at h
      cases h
  | flow h => exact h.not_namesUnknown
  | _ => exact id

/-- The activation of a context that exports no name twice does not fail for that. -/
theorem activation_not_exportedTwice {node : ContextNode}
    (hdistinct : (node.spec.exports.map ExportSpec.name).Nodup) (memory : ContextMemory)
    (parent : ActiveContext) :
    (setup.activation node memory parent).Fails fun e => ∀ name, e ≠ .exportedTwice name := by
  refine (setup.activation_refuses node memory parent).mono fun e he => ?_
  rintro name rfl
  cases he with
  | collaborators h => exact ContextNode.namesUnknown_of_checkCollaborators h
  | flow h => exact h
  | twice _ htwice => exact htwice hdistinct

end Setup

end HttpSuite
