import HttpSuite.Proofs.RoundTrip.Mentions

/-!
# Round trips that always end in the same

If the replies of the service depend on the request alone, and the functions that a round trip
calls are the same on all occasions, then it ends in the same whenever it is run:
`Sender.run_steady`. That includes how often it asks again, since the time that an attempt
takes is that of the answer. In another scope that agrees on what the round trip refers to it
then ends in the same as well: `Sender.run_congr`.
-/

namespace HttpSuite

open Scope

/-! ## The functions that are called -/

/-- The functions that a round trip calls, in its templates and for its condition. -/
def RoundTripSpec.called (spec : RoundTripSpec) : List String :=
  spec.condition.toList.flatMap (fun c => c.args.values.flatMap Template.called)
    ++ spec.templates.flatMap Template.called

/-- The functions that a presetter is given the answers of. -/
def PresetSpec.called (spec : PresetSpec) : List String :=
  spec.args.values.flatMap Template.called

/-- The functions that the path of an export calls. -/
def ExportSpec.called (spec : ExportSpec) : List String := spec.selector.flatMap Template.called

/-- The functions that a cleaner is given the answers of. -/
def CleanerSpec.called (spec : CleanerSpec) : List String :=
  spec.args.values.flatMap Template.called

/-- The functions that a validated flow calls. -/
def ValidatedFlow.called (flow : ValidatedFlow) : List String :=
  flow.constructor.flatMap RoundTripSpec.called ++ flow.validator.flatMap RoundTripSpec.called

/-- The functions that a context calls. -/
def ContextSpec.called (spec : ContextSpec) : List String :=
  spec.presetters.flatMap PresetSpec.called ++ spec.flow.flatMap RoundTripSpec.called
    ++ spec.validatedFlow.flatMap ValidatedFlow.called ++ spec.exports.flatMap ExportSpec.called
    ++ spec.cleaners.flatMap CleanerSpec.called

/-- The functions that a case calls. -/
def CaseSpec.called (spec : CaseSpec) : List String := spec.flow.flatMap RoundTripSpec.called

namespace Sender

/-! ## Running a round trip -/

variable {sender : Sender} (hservice : sender.service.Stateless)

include hservice

theorem attempt_congr (client : Client) (request : Request) (requirement : Requirement)
    (j j' : Journal) :
    (sender.attempt client request requirement j).1
      = (sender.attempt client request requirement j').1 := by
  obtain ⟨hresult, htime⟩ := client.send_congr hservice request j j'
  unfold attempt
  rcases hsend : client.send sender.service request j with ⟨r, after⟩
  rcases hsend' : client.send sender.service request j' with ⟨r', after'⟩
  rw [hsend, hsend'] at hresult htime
  cases hresult
  cases r with
  | ok response => simp only [htime]
  | error e => simp only [htime]

theorem exchange_steady (r : RoundTrip) (client : Client) (request : Request)
    (requirement : Requirement) : (sender.exchange r client request requirement).Steady := by
  unfold exchange
  split
  · refine Action.Steady.bind ?_ fun response => Action.Steady.ofExcept _ _
    have hsend : (client.send sender.service request).Steady :=
      fun journal => (client.send_congr hservice request journal {}).1
    exact hsend.mapError
  · next polling _ =>
      have hsame := Attempts.runFrom_congr (attempt_congr hservice client request requirement)
        Journal.wait
        (polling.timeout.getD sender.timeout) (polling.interval.getD sender.interval) 0 1
      intro journal
      have hresult := hsame journal {}
      unfold Action.outcome
      dsimp only
      unfold Attempts.run
      rcases hrun : Attempts.runFrom (sender.attempt client request requirement) Journal.wait
        (polling.timeout.getD sender.timeout) (polling.interval.getD sender.interval) 0 1 journal
        with ⟨result, after⟩
      rcases hrun' : Attempts.runFrom (sender.attempt client request requirement) Journal.wait
        (polling.timeout.getD sender.timeout) (polling.interval.getD sender.interval) 0 1 {}
        with ⟨result', after'⟩
      rw [hrun, hrun'] at hresult
      cases hresult
      cases result <;> rfl

theorem execute_steady (r : RoundTrip) : (sender.execute r).Steady := by
  unfold execute
  refine Action.Steady.bind (Action.Steady.ofExcept _ _) fun request => ?_
  refine Action.Steady.bind (Action.Steady.record _) fun _ => ?_
  refine Action.Steady.bind (Action.Steady.ofExcept _ _) fun requirement => ?_
  refine Action.Steady.bind (Action.Steady.ofExcept _ _) fun client => ?_
  exact exchange_steady hservice r client request requirement

omit hservice in
theorem decide_steady (engine : ConditionEngine) (condition : Condition) (scope : Scope) :
    (decide engine condition scope).Steady := by
  unfold decide
  split
  · exact Action.Steady.bind (Action.Steady.record _) fun _ => Action.Steady.ofExcept _ _
  · exact Action.Steady.ofExcept _ _

variable {spec : RoundTripSpec} (hfunctions : sender.functions.SteadyOn spec.called)

include hfunctions

omit hservice in
theorem isDue_steady (scope : Scope) : (sender.isDue spec scope).Steady := by
  unfold isDue
  split
  · exact Action.Steady.pure _
  · next c hcondition =>
      have hargs : sender.functions.SteadyOn (c.args.values.flatMap Template.called) := by
        refine (FunctionRegistry.steadyOn_append.mp hfunctions).1.mono fun name hname => ?_
        rw [hcondition]
        exact List.mem_flatMap.mpr ⟨c, List.mem_singleton_self c, hname⟩
      refine Action.Steady.bind (Action.Steady.inView fun journal => ?_) fun rendered =>
        decide_steady _ rendered scope
      exact Renderer.condition_congr (.of_steadyOn hargs _ _ scope)

omit hservice in
theorem rendered_steady (template : RoundTrip) (scope : Scope) (journal : Journal) :
    (sender.renderer scope journal).roundTrip spec template
      = (sender.renderer scope {}).roundTrip spec template :=
  Renderer.roundTrip_congr template
    (.of_steadyOn (FunctionRegistry.steadyOn_append.mp hfunctions).2 _ _ scope)

theorem runOnce_steady (template : RoundTrip) (scope : Scope) :
    (sender.runOnce spec template scope).Steady := by
  unfold runOnce
  refine Action.Steady.bind (isDue_steady hfunctions scope) fun due => ?_
  split
  · refine Action.Steady.bind
      (Action.Steady.inView (rendered_steady hfunctions template scope)) fun r => ?_
    exact Action.Steady.bind (execute_steady hservice r) fun _ => Action.Steady.pure _
  · exact Action.Steady.pure _

theorem runIterations_steady (template : RoundTrip) (scope : Scope) (n i : Nat)
    (collected : Scope) : (sender.runIterations spec template scope n i collected).Steady := by
  induction n generalizing i collected with
  | zero => exact Action.Steady.pure _
  | succ n ih =>
      rw [runIterations]
      refine Action.Steady.bind (Action.Steady.record _) fun _ => ?_
      exact Action.Steady.bind (runOnce_steady hservice hfunctions template _) fun _ => ih _ _

/-- Where replies depend on the request alone, and functions on their arguments alone, a round
trip ends in the same whatever has happened before. -/
theorem run_steady (template : RoundTrip) (scope : Scope) :
    (sender.run spec template scope).Steady := by
  unfold run
  split
  · refine Action.Steady.bind (Action.Steady.record _) fun _ => ?_
    exact Action.Steady.bind (runOnce_steady hservice hfunctions template scope) fun _ =>
      Action.Steady.pure _
  · exact runIterations_steady hservice hfunctions template scope _ _ _

/-! ## In another scope -/

variable {a b : Scope}

theorem runIterations_congr (template : RoundTrip) (h : spec.SeesAlike a b) (n i : Nat)
    (collected : Scope) :
    (sender.runIterations spec template a n i collected).outcome
      = (sender.runIterations spec template b n i collected).outcome := by
  induction n generalizing i collected with
  | zero => rfl
  | succ n ih =>
      have honce := fun scope => runOnce_steady hservice hfunctions template scope
      have hrest := fun scope collected => runIterations_steady hservice hfunctions template scope n
        (i + 1) collected
      rw [runIterations, runIterations,
        Action.outcome_bind_record ((honce _).bind fun _ => hrest _ _),
        Action.outcome_bind_record ((honce _).bind fun _ => hrest _ _),
        runOnce_congr template (h.iteration i)]
      exact Action.outcome_bind_congr (honce _) (fun _ => hrest _ _) (fun _ => hrest _ _)
        fun produced => ih (i + 1) _

/-- In scopes that agree on what a round trip refers to it ends in the same. -/
theorem run_congr (template : RoundTrip) (h : AgreeOn spec.names a b) :
    (sender.run spec template a).outcome = (sender.run spec template b).outcome := by
  have halike := RoundTripSpec.SeesAlike.of_agreeOn h
  unfold run
  split
  · have hsteady := fun scope =>
      (runOnce_steady hservice hfunctions template scope).bind fun produced =>
        Action.Steady.pure (produced.getD .empty)
    rw [Action.sees, Action.sees, Action.outcome_bind_record (hsteady a),
      Action.outcome_bind_record (hsteady b), runOnce_congr template halike]
  · exact runIterations_congr hservice hfunctions template halike _ _ _

end Sender

end HttpSuite
