import HttpSuite.Proofs.Context.Shadowing

/-!
# An activation happens or it does not

An activation goes through steps of which each may fail, and by then it has already sent
requests. What the context remembers is nevertheless as if it had never begun: it is written
once, behind the last step, and all of it together. So a context never remembers the exports
of one activation beside the cleaners of another; whatever has happened to it, what it
remembers is of one single activation (`Reachable.ofOne`).

`Setup.Stops` lists the steps at which an activation can stop. Putting together what is
remembered and handing down what is exported are not among them.
-/

namespace HttpSuite

namespace Setup

variable {setup : Setup}

/-- The constructor or the validator of a validated flow fails. -/
inductive StopsIn (setup : Setup) (template : RoundTrip) (outside : Scope) (flow : ValidatedFlow)
    (e : ContextError) : Prop where
  | building (vars : Scope) (journal after : Journal)
      (h : setup.runFlow template outside flow.constructor ⟨.empty, vars⟩ journal
        = (.error e, after))
  | validating (state : FlowScope) (journal after : Journal)
      (h : setup.runFlow template outside flow.validator state journal = (.error e, after))

theorem construct_eq_error {template : RoundTrip} {outside : Scope} {flow : ValidatedFlow}
    {vars : Scope} {journal after : Journal} {e : ContextError}
    (h : setup.construct template outside flow vars journal = (.error e, after)) :
    setup.StopsIn template outside flow e := by
  rcases Action.bind_eq_error_iff.mp h with hbuild | ⟨state, between, -, hrest⟩
  · exact .building vars journal after hbuild
  · rcases Action.bind_eq_error_iff.mp hrest with hvalidate | ⟨state', between', -, hlast⟩
    · exact .validating state between after hvalidate
    · cases hlast

theorem runValidated_eq_error {node : ContextNode} {template : RoundTrip} {outside : Scope}
    {constructed : Bool} {index : Nat} {flow : ValidatedFlow} {vars : Scope}
    {journal after : Journal} {e : ContextError}
    (h : setup.runValidated node template outside constructed index flow vars journal
      = (.error e, after)) :
    setup.StopsIn template outside flow e := by
  unfold runValidated at h
  split at h
  · rcases Action.bind_eq_error_iff.mp h with hattempt | ⟨result, between, hattempt, hrest⟩
    · cases hattempt
    · cases result with
      | ok state => cases hrest
      | error e' =>
          dsimp only at hrest
          split at hrest
          · rcases Action.bind_eq_error_iff.mp hrest with hnote | ⟨_, noted, -, hbuild⟩
            · cases hnote
            · exact construct_eq_error hbuild
          · cases hrest
            refine .validating ⟨.empty, vars⟩ journal after ?_
            unfold Action.attempt at hattempt
            rcases hrun : setup.runFlow template outside flow.validator ⟨.empty, vars⟩ journal
              with ⟨r, j⟩
            rw [hrun] at hattempt
            cases hattempt
            rfl
  · exact construct_eq_error h

theorem runAllValidated_eq_error {node : ContextNode} {template : RoundTrip} {outside : Scope}
    {constructed : Bool} {index : Nat} {flows : List ValidatedFlow} {vars : Scope}
    {journal after : Journal} {e : ContextError}
    (h : setup.runAllValidated node template outside constructed index flows vars journal
      = (.error e, after)) :
    ∃ flow ∈ flows, setup.StopsIn template outside flow e := by
  induction flows generalizing index vars journal with
  | nil => cases h
  | cons flow rest ih =>
      rcases Action.bind_eq_error_iff.mp h with hfirst | ⟨vars', between, -, hrest⟩
      · exact ⟨flow, List.mem_cons_self .., runValidated_eq_error hfirst⟩
      · obtain ⟨other, hmem, hstops⟩ := ih hrest
        exact ⟨other, List.mem_cons_of_mem _ hmem, hstops⟩

/-- The steps at which an activation can fail, each behind those in front of it. -/
inductive Stops (setup : Setup) (node : ContextNode) (memory : ContextMemory)
    (parent : ActiveContext) (journal : Journal) (e : ContextError) : Prop where
  /-- A presetter or a cleaner does not exist. -/
  | collaborators (h : node.checkCollaborators setup.presetters setup.cleaners = .error e)
  /-- A variable would be exported that is there further out. -/
  | shadowing (spec : ExportSpec) (hmem : spec ∈ node.spec.exports)
      (hbound : spec.name ∈ parent.scope.materialize.keys) (he : e = .exportShadows spec.name)
  /-- A presetter fails, or its arguments do. -/
  | preset
      (h : (setup.behindMark journal (parent.scope.materialize.extend memory.exports)).preset
        (parent.scope.materialize.extend memory.exports) node.spec.presetters parent.template
          = .error e)
  /-- The flow fails. -/
  | flow (template : RoundTrip)
      (htemplate :
        (setup.behindMark journal (parent.scope.materialize.extend memory.exports)).preset
          (parent.scope.materialize.extend memory.exports) node.spec.presetters parent.template
            = .ok template) (after : Journal)
      (h : setup.runFlow template parent.scope.materialize node.spec.flow
        ⟨.empty, parent.scope.materialize.extend memory.exports⟩
        (journal.record (.sees none (parent.scope.materialize.extend memory.exports)))
          = (.error e, after))
  /-- A constructor or a validator fails. -/
  | validated (template : RoundTrip)
      (htemplate :
        (setup.behindMark journal (parent.scope.materialize.extend memory.exports)).preset
          (parent.scope.materialize.extend memory.exports) node.spec.presetters parent.template
            = .ok template) (flow : ValidatedFlow)
      (hmem : flow ∈ node.spec.validatedFlow)
      (h : setup.StopsIn template parent.scope.materialize flow e)
  /-- What is exported is not there, or comes twice. -/
  | exporting (between : Journal) (final : Scope)
      (h : (setup.behindMark between final).exportAll final node.spec.exports .empty = .error e)
  /-- The arguments of a cleaner fail. -/
  | cleaners (between : Journal) (final exports : Scope)
      (hexports : (setup.behindMark between final).exportAll final node.spec.exports .empty
        = .ok exports)
      (h : (setup.behindMark (between.record (.sees none final))
        (final.overwrite exports)).cleanerCalls (final.overwrite exports) node.spec.cleaners
          = .error e)

/-- An activation that fails does so at one of these steps: neither what is remembered nor what
is exported can be refused. -/
theorem activation_eq_error {node : ContextNode} {memory : ContextMemory}
    (hreachable : node.Reachable setup memory) {parent : ActiveContext}
    {journal after : Journal} {e : ContextError}
    (h : setup.activation node memory parent journal = (.error e, after)) :
    setup.Stops node memory parent journal e := by
  unfold activation at h
  rcases Action.bind_eq_error_iff.mp h with hcheck | ⟨⟨⟩, j₁, hcheck, htail₁⟩
  · exact .collaborators (Action.ofExcept_id_eq_error hcheck)
  obtain ⟨-, rfl⟩ := Action.ofExcept_eq_ok_iff.mp hcheck
  cases hfind : node.spec.exports.find? fun e => parent.scope.contains e.name with
  | some spec =>
      rw [hfind] at htail₁
      cases htail₁
      have hbound : parent.scope.contains spec.name = true := by
        simpa using List.find?_some hfind
      exact .shadowing spec (List.mem_of_find?_eq_some hfind) (ScopeChain.contains_iff.mp hbound)
        rfl
  | none =>
      rw [hfind] at htail₁
      -- What is remembered under these names cannot be refused, as none of them is bound outside.
      have hnew := exports_new_of_find? hfind
      dsimp only at htail₁
      rw [merge_remembered setup hreachable hnew] at htail₁
      rcases Action.bind_eq_error_iff.mp htail₁ with hmerge | ⟨vars, j₂, hmerge, htail₂⟩
      · cases hmerge
      cases hmerge
      rcases Action.bind_eq_error_iff.mp htail₂ with hsees | ⟨_, j₃, hsees, htail₃⟩
      · cases hsees
      cases hsees
      rcases Action.bind_eq_error_iff.mp htail₃ with hpreset | ⟨template, j₄, hpreset, htail₄⟩
      · exact .preset (Action.inView_eq_error_iff.mp hpreset).1
      obtain ⟨htemplate, rfl⟩ := Action.inView_eq_ok_iff.mp hpreset
      rcases Action.bind_eq_error_iff.mp htail₄ with hflow | ⟨state, j₅, -, htail₅⟩
      · exact .flow template htemplate _ hflow
      rcases Action.bind_eq_error_iff.mp htail₅ with hvalidated | ⟨final, j₆, -, htail₆⟩
      · obtain ⟨flow, hmem, hstops⟩ := runAllValidated_eq_error hvalidated
        exact .validated template htemplate flow hmem hstops
      rcases Action.bind_eq_error_iff.mp htail₆ with hsees | ⟨_, j₇, hsees, htail₇⟩
      · cases hsees
      cases hsees
      rcases Action.bind_eq_error_iff.mp htail₇ with hexport | ⟨exports, j₈, hexport, htail₈⟩
      · exact .exporting j₆ final (Action.inView_eq_error_iff.mp hexport).1
      obtain ⟨hexported, rfl⟩ := Action.inView_eq_ok_iff.mp hexport
      rcases Action.bind_eq_error_iff.mp htail₈ with hsees | ⟨_, j₉, hsees, htail₉⟩
      · cases hsees
      cases hsees
      rcases Action.bind_eq_error_iff.mp htail₉ with hcalls | ⟨calls, j₁₀, -, hlast⟩
      · exact .cleaners j₆ final exports hexported (Action.inView_eq_error_iff.mp hcalls).1
      rw [push_exports (setup.upon _) hnew hexported] at hlast
      cases hlast

end Setup

namespace ContextNode

variable {node : ContextNode} {setup : Setup}

/-- What is remembered is of one activation: nothing of any, or the exports and what is to be
cleared up of the same. -/
def OfOne (node : ContextNode) (setup : Setup) (memory : ContextMemory) : Prop :=
  (memory.exports = .empty ∧ memory.constructed = false ∧ memory.teardown = none)
    ∨ ∃ before parent journal after a, node.Reachable setup before
      ∧ setup.activation node before parent journal = (.ok a, after)
      ∧ memory.exports = a.exports ∧ memory.constructed = true
      ∧ memory.teardown = some a.teardown

theorem Reachable.ofOne {memory : ContextMemory} (h : node.Reachable setup memory) :
    node.OfOne setup memory := by
  induction h with
  | start => exact .inl ⟨rfl, rfl, rfl⟩
  | @activate memory hreachable parent journal ih =>
      rcases memory_activate node setup parent memory journal with
        hsame | ⟨a, after, hrun, hmemory⟩
      · rwa [hsame]
      · rw [hmemory]
        exact .inr ⟨memory, parent, journal, after, a, hreachable, hrun, rfl, rfl, rfl⟩
  | @finish memory _ activated journal ih =>
      rw [memory_finish]
      exact ih

/-- An activation that fails, at whichever step, leaves what is remembered as it was; one that
succeeds replaces the exports and what is to be cleared up by its own and marks the context as
constructed, and finishes no case. -/
theorem activate_all_or_nothing {memory : ContextMemory} (h : node.Reachable setup memory)
    (parent : ActiveContext) (journal : Journal) :
    node.OfOne setup memory
      ∧ (∀ e memory' journal', node.activate setup parent memory journal
          = (.error e, memory', journal') →
        memory' = memory ∧ setup.Stops node memory parent journal e)
      ∧ ∀ active memory' journal', node.activate setup parent memory journal
          = (.ok active, memory', journal') →
        ∃ between between' vars template state final a,
          setup.Steps node memory parent journal between between' vars template state final a
          ∧ active = a.active
          ∧ memory' = { exports := a.exports, constructed := true, finished := memory.finished,
                        teardown := some a.teardown } := by
  refine ⟨h.ofOne, ?_, ?_⟩
  · intro e memory' journal' hrun
    unfold activate at hrun
    split at hrun
    · cases hrun
    · next e' after hactivation =>
        cases hrun
        exact ⟨rfl, Setup.activation_eq_error h hactivation⟩
  · intro active memory' journal' hrun
    obtain ⟨a, after, hactivation, hactive, hmemory⟩ := activate_eq_ok hrun
    obtain ⟨between, between', vars, template, state, final, hsteps⟩ :=
      Setup.activation_eq_ok hactivation
    exact ⟨between, between', vars, template, state, final, a, hsteps, hactive, hmemory⟩

/-- A context that exports `token`. -/
def tokenNode : ContextNode :=
  ⟨"outer", { flow := [.leftOut 1 ["token"]], exports := [{ name := "token" }] }, 0⟩

/-- Where `token` is bound further out the context still remembers that it was activated. -/
theorem activate_all_or_nothing_token :
    ∃ memory, tokenNode.Reachable (.plain .unreachable) memory ∧ memory.constructed = true
      ∧ ∃ e journal', tokenNode.activate (.plain .unreachable)
          (.root (OrderedMap.ofList [("token", .null)])) memory {}
        = (.error e, memory, journal') := by
  have hstart : tokenNode.Reachable (.plain .unreachable) {} := .start
  have hreachable := hstart.activate (.root .empty) {}
  have hrun : (tokenNode.activate (.plain .unreachable) (.root .empty) {} {}).2.1.constructed = true
      ∧ (tokenNode.activate (.plain .unreachable) (.root (OrderedMap.ofList [("token", .null)]))
        (tokenNode.activate (.plain .unreachable) (.root .empty) {} {}).2.1 {}).1.isOk = false := by
    decide +kernel
  refine ⟨_, hreachable, hrun.1, ?_⟩
  obtain ⟨-, hfails, -⟩ := activate_all_or_nothing hreachable
    (.root (OrderedMap.ofList [("token", .null)])) {}
  rcases hagain : tokenNode.activate (.plain .unreachable)
    (.root (OrderedMap.ofList [("token", .null)]))
    (tokenNode.activate (.plain .unreachable) (.root .empty) {} {}).2.1 {} with ⟨r, memory', j⟩
  cases r with
  | ok active =>
      rw [hagain] at hrun
      cases hrun.2
  | error e =>
      obtain ⟨rfl, -⟩ := hfails e memory' j hagain
      exact ⟨e, j, rfl⟩

end ContextNode

end HttpSuite
