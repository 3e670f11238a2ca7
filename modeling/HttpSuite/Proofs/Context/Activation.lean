import HttpSuite.Context.Activation
import HttpSuite.Context.Finish
import HttpSuite.Proofs.RoundTrip.Run

/-!
# What an activation goes through

A successful activation is taken apart once, by `activation_eq_ok`: the fields of `Steps` are
what each of its steps came to. The lemmas in front of it do the same for the parts that a
later proof would otherwise have to unfold.

A context remembers what it exported. Whatever happened to it, the names that it remembers
are those that it exports (`Reachable.keys_exports`), so an activation that exports nothing
from further out cannot fail for what it remembers.
-/

namespace HttpSuite

theorem Scope.select_name {scope : Scope} {name : String} {v : Value} :
    scope.select [name] = .ok v ↔ scope.get? name = some v := by
  rw [Scope.select]
  cases scope.get? name <;> simp [Value.select]

namespace Setup

variable {setup : Setup}

theorem define_ok_iff {parent defined : Scope} {state state' : FlowScope} :
    define parent state defined = .ok state'
      ↔ (∀ name ∈ defined.keys, name ∉ parent.keys)
        ∧ (∀ name ∈ defined.keys, name ∉ state.produced.keys)
        ∧ state' = ⟨state.produced.extend defined,
            Scope.mergeSource .deepOverwrite state.vars defined⟩ := by
  have hfilter : defined.keys.filter parent.contains = []
      ↔ ∀ name ∈ defined.keys, name ∉ parent.keys := by
    rw [List.filter_eq_nil_iff]
    simp only [OrderedMap.contains_iff]
  unfold define
  cases hnames : defined.keys.filter parent.contains with
  | cons name names =>
      rw [← hfilter, hnames]
      simp
  | nil =>
      have houtside := hfilter.mp hnames
      dsimp only
      cases hmerge : state.produced.merge .conflict [defined] with
      | error fault =>
          constructor
          · intro h
            cases h
          · rintro ⟨-, hnew, -⟩
            rw [Scope.merge_conflict_ok_iff.mpr ⟨hnew, rfl⟩] at hmerge
            cases hmerge
      | ok produced =>
          obtain ⟨hnew, rfl⟩ := Scope.merge_conflict_ok_iff.mp hmerge
          constructor
          · intro h
            cases h
            exact ⟨houtside, hnew, rfl⟩
          · rintro ⟨-, -, rfl⟩
            rfl

/-- The names that are exported, in order. -/
def exportNames (exports : List ExportSpec) : List String := exports.map (·.name)

/-- Exporting adds the names in order, each once, and binds each of them to what its path, which
is rendered as a part of the exports, leads to. -/
theorem exportAll_ok {vars : Scope} {specs : List ExportSpec} {taken exports : Scope}
    (h : setup.exportAll vars specs taken = .ok exports) :
    exports.keys = taken.keys ++ exportNames specs
      ∧ (∀ name ∈ taken.keys, exports.get? name = taken.get? name)
      ∧ ∀ spec ∈ specs, ∃ part path value,
          exportPath (setup.functions.within part) vars spec = .ok path
          ∧ vars.select path = .ok value ∧ exports.get? spec.name = some value := by
  induction specs generalizing taken with
  | nil =>
      cases h
      simp [exportNames]
  | cons spec rest ih =>
      rw [exportAll] at h
      split at h
      · cases h
      · next hnew =>
          have hname : spec.name ∉ taken.keys := fun hmem => hnew (OrderedMap.contains_iff.mpr hmem)
          split at h
          · cases h
          · next path hpath =>
              split at h
              · cases h
              · next value hvalue =>
                  obtain ⟨hkeys, htaken, hall⟩ := ih h
                  rw [OrderedMap.keys_insert, if_neg hname] at hkeys htaken
                  refine ⟨?_, ?_, ?_⟩
                  · rw [hkeys, exportNames, List.append_assoc]
                    rfl
                  · intro name hmem
                    rw [htaken name (List.mem_append_left _ hmem), OrderedMap.get?_insert, if_neg]
                    rintro rfl
                    exact hname hmem
                  · intro other hother
                    rcases List.mem_cons.mp hother with rfl | hmem
                    · refine ⟨rest.length, path, value, hpath, hvalue, ?_⟩
                      rw [htaken _ (by simp), OrderedMap.get?_insert, if_pos rfl]
                    · exact hall other hmem

theorem keys_exportAll {vars : Scope} {specs : List ExportSpec} {exports : Scope}
    (h : setup.exportAll vars specs .empty = .ok exports) :
    exports.keys = exportNames specs := (exportAll_ok h).1

/-- What is exported without a selector is the variable itself. -/
theorem get?_exportAll {vars : Scope} {specs : List ExportSpec} {exports : Scope}
    (h : setup.exportAll vars specs .empty = .ok exports) {spec : ExportSpec}
    (hmem : spec ∈ specs) (hselector : spec.selector = []) :
    exports.get? spec.name = vars.get? spec.name := by
  obtain ⟨part, path, value, hpath, hvalue, hget⟩ := (exportAll_ok h).2.2 spec hmem
  rw [exportPath, hselector] at hpath
  cases hpath
  rw [hget, Scope.select_name.mp hvalue]

theorem exports_new_of_find? {parent : ActiveContext} {exports : List ExportSpec}
    (h : exports.find? (fun e => parent.scope.contains e.name) = none) :
    ∀ e ∈ exports, e.name ∉ parent.scope.materialize.keys := by
  intro e he hmem
  exact List.find?_eq_none.mp h e he (ScopeChain.contains_iff.mpr hmem)

theorem mem_exportNames {exports : List ExportSpec} {name : String} :
    name ∈ exportNames exports ↔ ∃ e ∈ exports, e.name = name := List.mem_map

/-- The setup in view of the journal behind the mark with the variables that are gone by. -/
def behindMark (setup : Setup) (journal : Journal) (vars : Scope) : Setup :=
  setup.upon (journal.record (.sees none vars))

/-- What the steps of an activation came to: the variables with those that are remembered, the
template behind the presetters, the variables behind the flow and behind the validated
flows, and the result. The journals are those around the two kinds of flows. -/
structure Steps (setup : Setup) (node : ContextNode) (memory : ContextMemory)
    (parent : ActiveContext) (journal between after : Journal) (vars : Scope)
    (template : RoundTrip) (state : FlowScope) (final : Scope) (a : Activation) : Prop where
  /-- All presetters and cleaners are there. -/
  collaborators : node.checkCollaborators setup.presetters setup.cleaners = .ok ()
  /-- Nothing is exported that is there further out. -/
  exportsNew : ∀ e ∈ node.spec.exports, e.name ∉ parent.scope.materialize.keys
  /-- What is remembered is added. -/
  merged : parent.scope.materialize.merge .conflict [memory.exports] = .ok vars
  /-- The presetters are applied. -/
  preset : (setup.behindMark journal vars).preset vars node.spec.presetters parent.template
    = .ok template
  /-- The flow is run. -/
  flow : setup.runFlow template parent.scope.materialize node.spec.flow ⟨.empty, vars⟩
    (journal.record (.sees none vars)) = (.ok state, between)
  /-- The validated flows are run. -/
  validated : setup.runAllValidated node template parent.scope.materialize memory.constructed 0
    node.spec.validatedFlow state.vars between = (.ok final, after)
  /-- Variables are exported. -/
  exported : (setup.behindMark after final).exportAll final node.spec.exports .empty = .ok a.exports
  /-- The arguments of the cleaners are rendered. -/
  calls :
    (setup.behindMark (after.record (.sees none final)) (final.overwrite a.exports)).cleanerCalls
      (final.overwrite a.exports) node.spec.cleaners = .ok a.teardown.calls
  /-- What is exported is handed down. -/
  pushed : parent.scope.push a.exports = .ok a.active.scope
  /-- The template is handed down. -/
  template_eq : a.active.template = template
  /-- The cleaners are given the template. -/
  teardown_eq : a.teardown.template = template
  /-- What is handed down bears the name of the context. -/
  title_eq : a.active.title = node.title

/-- A successful activation went through all of its steps. -/
theorem activation_eq_ok {node : ContextNode} {memory : ContextMemory} {parent : ActiveContext}
    {journal after : Journal} {a : Activation}
    (h : setup.activation node memory parent journal = (.ok a, after)) :
    ∃ between between' vars template state final,
      setup.Steps node memory parent journal between between' vars template state final a := by
  unfold activation at h
  obtain ⟨⟨⟩, j₁, hcheck, hrest⟩ := Action.bind_eq_ok_iff.mp h
  obtain ⟨hcollaborators, rfl⟩ := Action.ofExcept_eq_ok_iff.mp hcheck
  cases hfind : node.spec.exports.find? fun e => parent.scope.contains e.name with
  | some e =>
      rw [hfind] at hrest
      cases hrest
  | none =>
      rw [hfind] at hrest
      have hnew := exports_new_of_find? hfind
      obtain ⟨vars, j₂, hvars, htail₂⟩ := Action.bind_eq_ok_iff.mp hrest
      obtain ⟨hmerged, rfl⟩ := Action.ofExcept_eq_ok_iff.mp hvars
      obtain ⟨_, j₃, hsees₃, htail₃⟩ := Action.bind_eq_ok_iff.mp htail₂
      cases hsees₃
      obtain ⟨template, j₄, htemplate, htail₄⟩ := Action.bind_eq_ok_iff.mp htail₃
      obtain ⟨hpreset, rfl⟩ := Action.inView_eq_ok_iff.mp htemplate
      obtain ⟨state, between, hflow, htail₅⟩ := Action.bind_eq_ok_iff.mp htail₄
      obtain ⟨final, between', hvalidated, htail₆⟩ := Action.bind_eq_ok_iff.mp htail₅
      obtain ⟨_, j₆, hsees₆, htail₇⟩ := Action.bind_eq_ok_iff.mp htail₆
      cases hsees₆
      obtain ⟨exports, j₇, hexports, htail₈⟩ := Action.bind_eq_ok_iff.mp htail₇
      obtain ⟨hexported, rfl⟩ := Action.inView_eq_ok_iff.mp hexports
      obtain ⟨_, j₈, hsees₈, htail₉⟩ := Action.bind_eq_ok_iff.mp htail₈
      cases hsees₈
      obtain ⟨calls, j₉, hcalls, htail₁₀⟩ := Action.bind_eq_ok_iff.mp htail₉
      obtain ⟨hrendered, rfl⟩ := Action.inView_eq_ok_iff.mp hcalls
      obtain ⟨scope, j₁₁, hscope, hlast⟩ := Action.bind_eq_ok_iff.mp htail₁₀
      obtain ⟨hpushed, rfl⟩ := Action.ofExcept_eq_ok_iff.mp hscope
      cases hlast
      exact ⟨between, between', vars, template, state, final,
        ⟨hcollaborators, hnew, hmerged, hpreset, hflow, hvalidated, hexported, hrendered, hpushed,
          rfl, rfl, rfl⟩⟩

/-- An activation of which every step is known, whatever has happened before, comes to what is
put together from them. -/
theorem outcome_activation {node : ContextNode} {memory : ContextMemory}
    {parent : ActiveContext} {vars : Scope} {template : RoundTrip} {state : FlowScope}
    {final : Scope} {a : Activation}
    (hcollaborators : node.checkCollaborators setup.presetters setup.cleaners = .ok ())
    (hnew : ∀ e ∈ node.spec.exports, e.name ∉ parent.scope.materialize.keys)
    (hmerged : parent.scope.materialize.merge .conflict [memory.exports] = .ok vars)
    (hpreset : ∀ journal, (setup.upon journal).preset vars node.spec.presetters parent.template
      = .ok template)
    (hflow : ∀ journal, (setup.runFlow template parent.scope.materialize node.spec.flow
      ⟨.empty, vars⟩ journal).1 = .ok state)
    (hvalidated : ∀ journal, (setup.runAllValidated node template parent.scope.materialize
      memory.constructed 0 node.spec.validatedFlow state.vars journal).1 = .ok final)
    (hexported : ∀ journal, (setup.upon journal).exportAll final node.spec.exports .empty
      = .ok a.exports)
    (hcalls : ∀ journal, (setup.upon journal).cleanerCalls (final.overwrite a.exports)
      node.spec.cleaners = .ok a.teardown.calls)
    (hpushed : parent.scope.push a.exports = .ok a.active.scope)
    (htemplate : a.active.template = template) (hteardown : a.teardown.template = template)
    (htitle : a.active.title = node.title) :
    (setup.activation node memory parent).outcome = .ok a := by
  have hfind : node.spec.exports.find? (fun e => parent.scope.contains e.name) = none :=
    List.find?_eq_none.mpr fun e he hbound => hnew e he (ScopeChain.contains_iff.mp hbound)
  refine Action.bind_fst (Action.ofExcept_fst hcollaborators) (fun _ => ?_) {}
  rw [hfind]
  refine Action.bind_fst (Action.ofExcept_fst hmerged) (fun _ => ?_) _
  refine Action.bind_fst (x := ()) (fun _ => rfl) (fun _ => ?_) _
  refine Action.bind_fst hpreset (fun _ => ?_) _
  refine Action.bind_fst hflow (fun _ => ?_) _
  refine Action.bind_fst hvalidated (fun _ => ?_) _
  refine Action.bind_fst (x := ()) (fun _ => rfl) (fun _ => ?_) _
  refine Action.bind_fst hexported (fun _ => ?_) _
  refine Action.bind_fst (x := ()) (fun _ => rfl) (fun _ => ?_) _
  refine Action.bind_fst hcalls (fun _ => ?_) _
  refine Action.bind_fst (Action.ofExcept_fst hpushed) (fun _ => ?_) _
  obtain ⟨⟨title, scope, handed⟩, exports, given, calls⟩ := a
  cases htitle
  cases htemplate
  cases hteardown
  rfl

end Setup

/-! ## What a context remembers -/

namespace ContextNode

variable {node : ContextNode} {setup : Setup}

/-- What a context can remember: nothing in the beginning, and then what its activations
and its being finished leave, on top of whatever and whatever has happened elsewhere. -/
inductive Reachable (node : ContextNode) (setup : Setup) : ContextMemory → Prop where
  | start : Reachable node setup {}
  | activate {memory : ContextMemory} (h : Reachable node setup memory) (parent : ActiveContext)
      (journal : Journal) : Reachable node setup (node.activate setup parent memory journal).2.1
  | finish {memory : ContextMemory} (h : Reachable node setup memory) (activated : Bool)
      (journal : Journal) :
      Reachable node setup (node.finish setup activated memory journal).2.1

theorem activate_eq_ok {parent active : ActiveContext} {memory memory' : ContextMemory}
    {journal journal' : Journal}
    (h : node.activate setup parent memory journal = (.ok active, memory', journal')) :
    ∃ a after, setup.activation node memory parent journal = (.ok a, after)
      ∧ active = a.active ∧ memory' = memory.afterActivation a := by
  unfold activate at h
  split at h
  · next a after hrun =>
      cases h
      exact ⟨a, after, hrun, rfl, rfl⟩
  · cases h

theorem memory_activate (node : ContextNode) (setup : Setup) (parent : ActiveContext)
    (memory : ContextMemory) (journal : Journal) :
    (node.activate setup parent memory journal).2.1 = memory
      ∨ ∃ a after, setup.activation node memory parent journal = (.ok a, after)
          ∧ (node.activate setup parent memory journal).2.1 = memory.afterActivation a := by
  unfold activate
  split
  · next a after hrun => exact Or.inr ⟨a, after, hrun, rfl⟩
  · exact Or.inl rfl

theorem memory_finish (activated : Bool) (memory : ContextMemory) (journal : Journal) :
    (node.finish setup activated memory journal).2.1 = memory.afterFinish := by
  unfold finish
  split <;> rfl

/-- What is remembered is nothing, or exactly what is exported. -/
theorem Reachable.keys_exports {memory : ContextMemory} (h : node.Reachable setup memory) :
    memory.exports.keys = [] ∨ memory.exports.keys = Setup.exportNames node.spec.exports := by
  induction h with
  | start => exact Or.inl rfl
  | @activate memory _ parent journal ih =>
      rcases memory_activate node setup parent memory journal with
        hsame | ⟨a, after, hrun, hmemory⟩
      · rwa [hsame]
      · obtain ⟨_, _, _, _, _, _, hsteps⟩ := Setup.activation_eq_ok hrun
        rw [hmemory]
        exact Or.inr (Setup.keys_exportAll hsteps.exported)
  | @finish memory _ activated journal ih =>
      rw [memory_finish]
      exact ih

end ContextNode

/-! ## A plain setup -/

/-- The setup without extensions, for a service. -/
def Setup.plain (service : Service) : Setup where
  service := service
  clients := { usual := {} }
  functions := .builtins ⟨0, 0⟩
  timeout := ⟨0⟩
  interval := ⟨0⟩
  presetters := Presetter.builtins
  cleaners := .empty

/-- A loop of which every iteration is left out: its variables are arrays of nulls. -/
def RoundTripSpec.leftOut (iterations : Nat) (names : List String) : RoundTripSpec where
  loop := iterations
  condition := some { expr := "false", args := .empty }
  definitions := names.map fun name => { name := name }

end HttpSuite
