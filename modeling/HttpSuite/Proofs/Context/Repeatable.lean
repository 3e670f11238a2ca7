import HttpSuite.Proofs.Context.Again

/-!
# Contexts that can be activated again

A context that is activated again begins with what it exported and goes by the validators
of its flows alone, so in general it exports something else. `Repeatable` says when it does
not: it does not refer to its own exports, nothing that is looked at again comes from a
constructor, where an exported variable is what counts it is kept as it was, and the functions
that it calls are the same on all occasions. Then every activation hands down what the first one
did: `activation_again`.
-/

namespace HttpSuite

open Scope

namespace Setup

/-- The variable is exported as it is, under its own name. -/
def IsWhole (setup : Setup) (e : ExportSpec) : Prop :=
  ∀ occasion vars path, exportPath (setup.functions.upon occasion) vars e = .ok path →
    path = [e.name]

/-- What makes the exports of a context come out the same when it is activated again. -/
structure Repeatable (setup : Setup) (spec : ContextSpec) : Prop where
  /-- What it calls is the same on all occasions. -/
  steady : setup.functions.SteadyOn spec.called
  /-- Nothing is cleared up. -/
  cleaners : spec.cleaners = []
  /-- The context does not refer to what it exports. -/
  hidden : ∀ name ∈ spec.names, name ∉ exportNames spec.exports
  /-- A validator does not refer to what its own constructor may define, -/
  own : ∀ flow ∈ spec.validatedFlow, setup.Ignores flow.validator flow.constructor
  /-- nor to what an earlier one may. -/
  earlier : spec.validatedFlow.Pairwise fun earlier flow =>
    setup.Ignores flow.validator earlier.constructor
  /-- The path of an export does not refer to what a constructor may define. -/
  selectors : ∀ e ∈ spec.exports, ∀ name ∈ e.names, ∀ flow ∈ spec.validatedFlow,
    ¬ setup.MayDefine flow.constructor name
  /-- Where a path leads to a variable that is exported or that a constructor may define, the
  variable itself is exported as it is. -/
  sources : ∀ e ∈ spec.exports, ∀ occasion vars name rest,
    exportPath (setup.functions.upon occasion) vars e = .ok (name :: rest) →
    (name ∈ exportNames spec.exports
      ∨ ∃ flow ∈ spec.validatedFlow, setup.MayDefine flow.constructor name) →
    ∃ whole ∈ spec.exports, whole.name = name ∧ setup.IsWhole whole
  /-- If a constructor may define a variable that is exported as it is, then the flow may
  not, -/
  once : ∀ e ∈ spec.exports, setup.IsWhole e → ∀ flow ∈ spec.validatedFlow,
    setup.MayDefine flow.constructor e.name → ¬ setup.MayDefine spec.flow e.name
  /-- and an earlier validator may not either. -/
  order : ∀ e ∈ spec.exports, setup.IsWhole e → spec.validatedFlow.Pairwise fun earlier flow =>
    setup.MayDefine flow.constructor e.name → ¬ setup.MayDefine earlier.validator e.name

variable {setup : Setup}

theorem exportPath_congr {functions functions' : FunctionRegistry} {a b : Scope} {e : ExportSpec}
    (h : Renderer.Alike e.selector ⟨functions, a⟩ ⟨functions', b⟩) :
    exportPath functions a e = exportPath functions' b e := by
  rw [exportPath, exportPath, Renderer.selector_congr _ h]

theorem exportAll_congr {setup' : Setup} {a b : Scope} {specs : List ExportSpec}
    (hpath : ∀ e ∈ specs,
      Renderer.Alike e.selector ⟨setup.functions, a⟩ ⟨setup'.functions, b⟩)
    (hselect : ∀ e ∈ specs, ∀ part path,
      exportPath (setup.functions.within part) a e = .ok path → a.select path = b.select path)
    (taken : Scope) : setup.exportAll a specs taken = setup'.exportAll b specs taken := by
  induction specs generalizing taken with
  | nil => rfl
  | cons e rest ih =>
      obtain ⟨hfirst, hpath⟩ := List.forall_mem_cons.mp hpath
      obtain ⟨hselectFirst, hselect⟩ := List.forall_mem_cons.mp hselect
      have hsame : exportPath (setup.functions.within rest.length) a e
          = exportPath (setup'.functions.within rest.length) b e :=
        exportPath_congr (hfirst.within rest.length)
      rw [exportAll, exportAll, ← hsame]
      cases hp : exportPath (setup.functions.within rest.length) a e with
      | error error => rfl
      | ok path =>
          dsimp only
          rw [hselectFirst _ path hp]
          simp only [ih hpath hselect]

theorem cleanerCalls_congr {setup' : Setup} {a b : Scope} {specs : List CleanerSpec}
    (h : ∀ spec ∈ specs,
      Renderer.Alike spec.args.values ⟨setup.functions, a⟩ ⟨setup'.functions, b⟩) :
    setup.cleanerCalls a specs = setup'.cleanerCalls b specs := by
  induction specs with
  | nil => rfl
  | cons spec rest ih =>
      obtain ⟨hfirst, hrest⟩ := List.forall_mem_cons.mp h
      have hargs : Renderer.args ⟨setup.functions.within rest.length, a⟩ s!"cleaner {spec.name}"
            spec.args
          = Renderer.args ⟨setup'.functions.within rest.length, b⟩ s!"cleaner {spec.name}"
            spec.args := Renderer.args_congr _ (hfirst.within rest.length)
      rw [cleanerCalls, cleanerCalls, hargs, ih hrest]

/-- What an export that is as it is is taken from. -/
theorem get?_of_isWhole {vars exports : Scope} {specs : List ExportSpec} {journal : Journal}
    (h : (setup.upon journal).exportAll vars specs .empty = .ok exports) {e : ExportSpec}
    (he : e ∈ specs) (hwhole : setup.IsWhole e) :
    ∃ v, exports.get? e.name = some v ∧ vars.get? e.name = some v := by
  obtain ⟨part, path, v, hpath, hv, hget⟩ := (exportAll_ok h).2.2 e he
  rw [hwhole _ vars path hpath, Scope.select_name] at hv
  exact ⟨v, hget, hv⟩

namespace Repeatable

variable {spec : ContextSpec} (h : setup.Repeatable spec)

include h

theorem presets_hidden :
    ∀ name ∈ spec.presetters.flatMap PresetSpec.names, name ∉ exportNames spec.exports := by
  intro name hname
  refine h.hidden name ?_
  rw [ContextSpec.names, List.mem_append, List.mem_append, List.mem_append]
  exact Or.inl (Or.inl (Or.inl hname))

theorem flow_hidden :
    ∀ r ∈ spec.flow, ∀ name ∈ r.names, name ∉ exportNames spec.exports := by
  intro r hr name hname
  refine h.hidden name ?_
  rw [ContextSpec.names, List.mem_append, List.mem_append, List.mem_append]
  exact Or.inl (Or.inl (Or.inr (List.mem_flatMap.mpr ⟨r, hr, hname⟩)))

theorem validators_hidden : ∀ flow ∈ spec.validatedFlow, ∀ r ∈ flow.validator,
    ∀ name ∈ r.names, name ∉ exportNames spec.exports := by
  intro flow hflow r hr name hname
  refine h.hidden name ?_
  rw [ContextSpec.names, List.mem_append, List.mem_append]
  refine Or.inl (Or.inr (List.mem_flatMap.mpr ⟨flow, hflow, ?_⟩))
  exact List.mem_append_right _ (List.mem_flatMap.mpr ⟨r, hr, hname⟩)

theorem selectors_hidden : ∀ e ∈ spec.exports, ∀ name ∈ e.names,
    name ∉ exportNames spec.exports := by
  intro e he name hname
  refine h.hidden name (List.mem_append_right _ ?_)
  exact List.mem_flatMap.mpr ⟨e, he, hname⟩

theorem presets_steady :
    setup.functions.SteadyOn
      ((spec.presetters.flatMap (·.args.values)).flatMap Template.called) := by
  have hsteady := h.steady
  simp only [ContextSpec.called, FunctionRegistry.steadyOn_append] at hsteady
  rw [List.flatMap_assoc]
  exact hsteady.1.1.1.1

theorem flow_steady : setup.functions.SteadyOn (spec.flow.flatMap RoundTripSpec.called) := by
  have hsteady := h.steady
  simp only [ContextSpec.called, FunctionRegistry.steadyOn_append] at hsteady
  exact hsteady.1.1.1.2

theorem validated_steady :
    setup.functions.SteadyOn (spec.validatedFlow.flatMap ValidatedFlow.called) := by
  have hsteady := h.steady
  simp only [ContextSpec.called, FunctionRegistry.steadyOn_append] at hsteady
  exact hsteady.1.1.2

theorem exports_steady : ∀ e ∈ spec.exports,
    setup.functions.SteadyOn (e.selector.flatMap Template.called) := by
  have hsteady := h.steady
  simp only [ContextSpec.called, FunctionRegistry.steadyOn_append] at hsteady
  exact fun e he => hsteady.1.2.of_mem he

end Repeatable

/-! ## Exporting again -/

/-- What the flow of a context defined, and its validated flows. -/
structure Defined (setup : Setup) (spec : ContextSpec) (ds : List Scope) (bs : List Built) :
    Prop where
  distinct : ∀ d ∈ ds, d.Distinct
  names : ∀ d ∈ ds, ∀ name ∈ d.keys, setup.MayDefine spec.flow name
  flows : bs.map (·.flow) = spec.validatedFlow
  sound : ∀ b ∈ bs, b.Sound setup

section

variable {spec : ContextSpec} {ds : List Scope} {bs : List Built}

theorem Defined.valuesOf_confirmed (hd : setup.Defined spec ds bs) {name : String}
    (hfree : ∀ flow ∈ spec.validatedFlow, ¬ setup.MayDefine flow.constructor name) :
    valuesOf (ds ++ Built.all bs) name = valuesOf (ds ++ Built.confirmed bs) name := by
  rw [valuesOf_append, valuesOf_append, Built.valuesOf_confirmed hd.sound]
  intro b hb
  exact hfree b.flow (hd.flows ▸ List.mem_map.mpr ⟨b, hb, rfl⟩)

/-- The last that is defined of a variable that is exported as it is is defined again. -/
theorem Repeatable.valuesOf_all (h : setup.Repeatable spec) (hd : setup.Defined spec ds bs)
    {e : ExportSpec} (he : e ∈ spec.exports) (hwhole : setup.IsWhole e) :
    ∃ pre, valuesOf (ds ++ Built.all bs) e.name
      = pre ++ valuesOf (ds ++ Built.confirmed bs) e.name := by
  by_cases hmay : ∃ flow ∈ spec.validatedFlow, setup.MayDefine flow.constructor e.name
  · obtain ⟨flow, hflow, hconstructor⟩ := hmay
    obtain ⟨pre, hpre⟩ := Built.valuesOf_all hd.sound (hd.flows ▸ h.order e he hwhole)
    have hnone : valuesOf ds e.name = [] := valuesOf_eq_nil fun d hmem hkey =>
      h.once e he hwhole flow hflow hconstructor (hd.names d hmem e.name hkey)
    refine ⟨pre, ?_⟩
    rw [valuesOf_append, valuesOf_append, hnone, hpre, List.nil_append, List.nil_append]
  · refine ⟨[], ?_⟩
    rw [hd.valuesOf_confirmed fun flow hflow hc => hmay ⟨flow, hflow, hc⟩, List.nil_append]

variable {outside exports : Scope} {journal : Journal}

/-- Where exports are remembered, what is neither exported nor built by a constructor is what
it was when the same is defined again, -/
theorem Defined.get?_again (hd : setup.Defined spec ds bs)
    (hexported : (setup.upon journal).exportAll (layered (ds ++ Built.all bs) outside) spec.exports
      .empty = .ok exports) {name : String} (hname : name ∉ exportNames spec.exports)
    (hfree : ∀ flow ∈ spec.validatedFlow, ¬ setup.MayDefine flow.constructor name) :
    (layered (ds ++ Built.all bs) outside).get? name
      = (layered (ds ++ Built.confirmed bs) (outside.extend exports)).get? name := by
  refine get?_layered_congr (hd.valuesOf_confirmed hfree) ?_
  rw [← keys_exportAll hexported] at hname
  rw [OrderedMap.get?_extend, OrderedMap.get?_eq_none_iff.mpr hname, Option.none_or]

/-- and so is what is exported as it is. -/
theorem Repeatable.get?_again (h : setup.Repeatable spec) (hd : setup.Defined spec ds bs)
    (hnew : ∀ e ∈ spec.exports, e.name ∉ outside.keys)
    (hexported : (setup.upon journal).exportAll (layered (ds ++ Built.all bs) outside) spec.exports
      .empty = .ok exports) {e : ExportSpec} (he : e ∈ spec.exports) (hwhole : setup.IsWhole e) :
    (layered (ds ++ Built.all bs) outside).get? e.name
      = (layered (ds ++ Built.confirmed bs) (outside.extend exports)).get? e.name := by
  obtain ⟨v, hget, hv⟩ := get?_of_isWhole hexported he hwhole
  obtain ⟨pre, hpre⟩ := h.valuesOf_all hd he hwhole
  have hremembered : (outside.extend exports).get? e.name = some v := by
    rw [OrderedMap.get?_extend, hget, Option.some_or]
  have hdistinct : ∀ d ∈ ds ++ Built.all bs, d.Distinct :=
    List.forall_mem_append.mpr ⟨hd.distinct, Built.distinct_all hd.sound⟩
  rw [hv, get?_layered_again hdistinct hpre (OrderedMap.get?_eq_none_iff.mpr (hnew e he)) hv
    hremembered]

/-- So the same is exported again. -/
theorem Repeatable.exportAll_again (h : setup.Repeatable spec) (hd : setup.Defined spec ds bs)
    (hnew : ∀ e ∈ spec.exports, e.name ∉ outside.keys)
    (hexported : (setup.upon journal).exportAll (layered (ds ++ Built.all bs) outside) spec.exports
      .empty = .ok exports) (journal' : Journal) :
    (setup.upon journal').exportAll (layered (ds ++ Built.confirmed bs) (outside.extend exports))
      spec.exports .empty = .ok exports := by
  rw [← hexported]
  refine (exportAll_congr (fun e he => ?_) (fun e he part path hpath => ?_) _).symm
  · refine Renderer.Alike.of_both (h.exports_steady e he) (fun name hname => ?_) _ _
    exact hd.get?_again hexported (h.selectors_hidden e he name hname)
      (h.selectors e he name hname)
  · cases path with
    | nil => rfl
    | cons name rest =>
        refine AgreeOn.select fun other hother => ?_
        cases List.mem_singleton.mp hother
        by_cases hsource : name ∈ exportNames spec.exports
            ∨ ∃ flow ∈ spec.validatedFlow, setup.MayDefine flow.constructor name
        · obtain ⟨whole, hmem, rfl, hwhole⟩ := h.sources e he _ _ name rest hpath hsource
          exact h.get?_again hd hnew hexported hmem hwhole
        · exact hd.get?_again hexported (fun hname => hsource (Or.inl hname))
            fun flow hflow hc => hsource (Or.inr ⟨flow, hflow, hc⟩)

end

/-! ## Activating again -/

section

variable (hservice : setup.service.Stateless)

include hservice

theorem activation_steady {node : ContextNode}
    (hfunctions : setup.functions.SteadyOn node.spec.called) (memory : ContextMemory)
    (parent : ActiveContext) : (setup.activation node memory parent).Steady := by
  simp only [ContextSpec.called, FunctionRegistry.steadyOn_append] at hfunctions
  obtain ⟨⟨⟨⟨hpresets, hflow⟩, hvalidated⟩, hexports⟩, hcleaners⟩ := hfunctions
  unfold activation
  refine Action.Steady.bind (Action.Steady.ofExcept _ _) fun _ => ?_
  split
  · exact Action.Steady.throw _
  · refine Action.Steady.bind (Action.Steady.ofExcept _ _) fun vars => ?_
    refine Action.Steady.bind (Action.Steady.record _) fun _ => ?_
    refine Action.Steady.bind (Action.Steady.inView fun journal => ?_) fun template => ?_
    · refine preset_congr _ rfl (.of_steadyOn ?_ _ _ vars)
      rw [List.flatMap_assoc]
      exact hpresets
    refine Action.Steady.bind (runFlow_steady hservice _ _ hflow _) fun state => ?_
    refine Action.Steady.bind (runAllValidated_steady hservice _ _ _ hvalidated _) fun final => ?_
    refine Action.Steady.bind (Action.Steady.record _) fun _ => ?_
    refine Action.Steady.bind (Action.Steady.inView fun journal => ?_) fun exports => ?_
    · refine exportAll_congr (fun e he => ?_) (fun _ _ _ _ _ => rfl) _
      exact .of_steadyOn (hexports.of_mem he) _ _ final
    refine Action.Steady.bind (Action.Steady.record _) fun _ => ?_
    refine Action.Steady.bind (Action.Steady.inView fun journal => ?_) fun calls => ?_
    · exact cleanerCalls_congr fun c hc => .of_steadyOn (hcleaners.of_mem hc) _ _ _
    exact Action.Steady.bind (Action.Steady.ofExcept _ _) fun scope => Action.Steady.pure _

theorem runCase_steady {spec : CaseSpec} (hfunctions : setup.functions.SteadyOn spec.called)
    (active : ActiveContext) : (setup.runCase spec active).Steady := by
  suffices h : ∀ (specs : List RoundTripSpec) (vars : Scope),
      setup.functions.SteadyOn (specs.flatMap RoundTripSpec.called) →
      (setup.runCaseFlow active.template specs vars).Steady from h _ _ hfunctions
  intro specs
  induction specs with
  | nil => exact fun vars _ => Action.Steady.pure vars
  | cons first rest ih =>
      intro vars hspecs
      obtain ⟨hfirst, hrest⟩ := FunctionRegistry.steadyOn_append.mp hspecs
      rw [runCaseFlow]
      refine Action.Steady.bind (Sender.run_steady hservice hfirst _ _).mapError fun _ => ?_
      exact Action.Steady.bind (Action.Steady.ofExcept _ _) fun vars => ih vars hrest

/-- Where a context that can be activated again was activated before, it hands down, and
remembers, what it did when it was activated for the first time. -/
theorem Repeatable.activation_again {node : ContextNode} (h : setup.Repeatable node.spec)
    {parent : ActiveContext} (htemplate : setup.Presettable parent.template) {a : Activation}
    (hrun : (setup.activation node {} parent).outcome = .ok a) {memory : ContextMemory}
    (hexports : memory.exports = a.exports) (hconstructed : memory.constructed = true) :
    (setup.activation node memory parent).outcome = .ok a := by
  obtain ⟨between, after, vars, template, state, final, hsteps⟩ :=
    activation_eq_ok (Prod.ext hrun rfl : setup.activation node {} parent {} = (.ok a, _))
  obtain ⟨-, hvars⟩ := merge_conflict_ok_iff.mp hsteps.merged
  replace hvars : vars = parent.scope.materialize := hvars.trans (OrderedMap.ext rfl)
  subst hvars
  -- What the flows define, and that they do so again.
  have hmade := presettable_preset htemplate hsteps.preset
  obtain ⟨ds, hds, hstate⟩ := runFlow_ok hservice hmade h.flow_steady
    ((runFlow_steady hservice _ _ h.flow_steady _).outcome_eq hsteps.flow)
  obtain ⟨bs, hbs, hsound, hfinal, hvalidated⟩ := runAllValidated_ok hservice hmade
    h.validated_steady
    ((runAllValidated_steady hservice _ _ _ h.validated_steady _).outcome_eq hsteps.validated)
  have hdefined : setup.Defined node.spec ds bs := ⟨hds.distinct, hds.names, hbs, hsound⟩
  have hkeys := keys_exportAll hsteps.exported
  have hagree : AgreeOff (· ∈ exportNames node.spec.exports) parent.scope.materialize
      (parent.scope.materialize.extend a.exports) := by
    intro name hname
    rw [← hkeys] at hname
    rw [OrderedMap.get?_extend, OrderedMap.get?_eq_none_iff.mpr hname, Option.none_or]
  obtain ⟨state', hflow', hstate'⟩ := hds.again _
    ⟨.empty, parent.scope.materialize.extend a.exports⟩ (List.nil_subset _) hagree h.flow_hidden
  have hvalidated' := hvalidated _ state'.vars (by
    rw [hstate, hstate']
    exact hagree.layered ds) h.validators_hidden h.own h.earlier
  have hexported := hsteps.exported
  rw [hfinal, hstate, ← layered_append] at hexported
  have hexported' := h.exportAll_again hdefined hsteps.exportsNew hexported
  simp only [layered_append, ← hstate'] at hexported'
  have hcalls : a.teardown.calls = [] := by
    have hnone := hsteps.calls
    rw [h.cleaners] at hnone
    exact (Except.ok.inj hnone).symm
  rw [← hexports] at hflow'
  refine outcome_activation hsteps.collaborators hsteps.exportsNew (merge_conflict_ok_iff.mpr
    ⟨?_, rfl⟩) ?_ ((runFlow_steady hservice _ _ h.flow_steady _).fst_eq hflow') ?_ hexported' ?_
    hsteps.pushed hsteps.template_eq hsteps.teardown_eq hsteps.title_eq
  · rw [hexports, hkeys]
    intro name hname
    obtain ⟨e, he, rfl⟩ := mem_exportNames.mp hname
    exact hsteps.exportsNew e he
  · intro journal
    rw [← hsteps.preset, hexports]
    refine preset_congr parent.template rfl (.of_both h.presets_steady ?_ _ _)
    rw [List.flatMap_assoc]
    exact (hagree.on h.presets_hidden).symm
  · rw [hconstructed]
    exact (runAllValidated_steady hservice _ _ _ h.validated_steady _).fst_eq hvalidated'
  · rw [hcalls, h.cleaners]
    exact fun _ => rfl

end

end Setup

end HttpSuite
