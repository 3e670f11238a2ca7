import HttpSuite.Proofs.RoundTrip.Requirement
import HttpSuite.Proofs.Scope.Merge
import HttpSuite.Proofs.Value.Distinct
import HttpSuite.RoundTrip.Run

/-!
# What a round trip does and what it results in

Whatever the service answers, a round trip writes nothing into the journal but notes,
traffic, and marks of the scope that it was given. What it defines is among the names of its
own definitions, or of the template's if it has none, and no value that it takes from a
response has a name twice.
-/

namespace HttpSuite

namespace Attempts

variable {σ α : Type} {attempt : σ → (Except (List MatchFailure) α × Nat) × σ}
  {wait : Nat → σ → σ}

/-- What holds between the states around an attempt and around a pause holds between those
around all attempts. -/
theorem runFrom_related {R : σ → σ → Prop} (htrans : ∀ {a b c}, R a b → R b c → R a c)
    (hattempt : ∀ s, R s (attempt s).2) (hwait : ∀ n s, R s (wait n s))
    (timeout interval : Duration) (elapsed : Nat) (count : UInt32) (s : σ) :
    R s (runFrom attempt wait timeout interval elapsed count s).2 := by
  fun_induction runFrom attempt wait timeout interval elapsed count s with
  | case1 elapsed count s a taken after hrun =>
      have := hattempt s
      rwa [hrun] at this
  | case2 elapsed count s failures taken after hrun h =>
      have := hattempt s
      rwa [hrun] at this
  | case3 elapsed count s failures taken after hrun h waiting hpos ih =>
      have := hattempt s
      rw [hrun] at this
      exact htrans this (htrans (hwait _ _) ih)

/-- What holds between the states around the last attempt, and around an attempt and a pause
together with what comes behind them, holds between those around all attempts. -/
theorem runFrom_ends {R : σ → σ → Prop} (hlast : ∀ s, R s (attempt s).2)
    (hfirst : ∀ n s after, R (wait n (attempt s).2) after → R s after)
    (timeout interval : Duration) (elapsed : Nat) (count : UInt32) (s : σ) :
    R s (runFrom attempt wait timeout interval elapsed count s).2 := by
  fun_induction runFrom attempt wait timeout interval elapsed count s with
  | case1 elapsed count s a taken after hrun =>
      have := hlast s
      rwa [hrun] at this
  | case2 elapsed count s failures taken after hrun h =>
      have := hlast s
      rwa [hrun] at this
  | case3 elapsed count s failures taken after hrun h waiting hpos ih =>
      refine hfirst waiting s _ ?_
      rw [hrun]
      exact ih

/-- What all attempts result in is what one of them does. -/
theorem attempt_of_runFrom {timeout interval : Duration} {elapsed : Nat} {count : UInt32} {s : σ}
    {a : α}
    (h : (runFrom attempt wait timeout interval elapsed count s).1 = .ok a) :
    ∃ s, (attempt s).1.1 = .ok a := by
  fun_induction runFrom attempt wait timeout interval elapsed count s with
  | case1 elapsed count s b taken after hrun =>
      refine ⟨s, ?_⟩
      rw [hrun]
      exact h
  | case2 elapsed count s failures taken after hrun hlate => cases h
  | case3 elapsed count s failures taken after hrun hlate waiting hpos ih => exact ih h

/-- If attempts from related states end in the same, take the same time and lead to related
states, and pauses keep states related, then so do all attempts together. -/
theorem runFrom_simulates {R : σ → σ → Prop}
    (hattempt : ∀ s s', R s s' → (attempt s).1 = (attempt s').1 ∧ R (attempt s).2 (attempt s').2)
    (hwait : ∀ n s s', R s s' → R (wait n s) (wait n s'))
    (timeout interval : Duration) (elapsed : Nat) (count : UInt32) {s s' : σ} (hs : R s s') :
    (runFrom attempt wait timeout interval elapsed count s).1
        = (runFrom attempt wait timeout interval elapsed count s').1
      ∧ R (runFrom attempt wait timeout interval elapsed count s).2
        (runFrom attempt wait timeout interval elapsed count s').2 := by
  fun_induction runFrom attempt wait timeout interval elapsed count s generalizing s' with
  | case1 elapsed count s a taken after hrun =>
      obtain ⟨hsame, hafter⟩ := hattempt s s' hs
      rw [hrun] at hsame hafter
      rw [runFrom]
      rcases hrun' : attempt s' with ⟨r, after'⟩
      rw [hrun'] at hsame hafter
      cases hsame
      exact ⟨rfl, hafter⟩
  | case2 elapsed count s failures taken after hrun hlate =>
      obtain ⟨hsame, hafter⟩ := hattempt s s' hs
      rw [hrun] at hsame hafter
      rw [runFrom]
      rcases hrun' : attempt s' with ⟨r, after'⟩
      rw [hrun'] at hsame hafter
      cases hsame
      simp only [dif_pos hlate]
      exact ⟨trivial, hafter⟩
  | case3 elapsed count s failures taken after hrun hlate waiting hpos =>
      rename_i ih
      obtain ⟨hsame, hafter⟩ := hattempt s s' hs
      rw [hrun] at hsame hafter
      rw [runFrom.eq_def _ _ _ _ _ _ s']
      rcases hrun' : attempt s' with ⟨r, after'⟩
      rw [hrun'] at hsame hafter
      cases hsame
      simp only [dif_neg hlate]
      exact ih (hwait _ _ _ hafter)

/-- If an attempt ends in the same and takes the same time in every state, then so do all
of them. -/
theorem runFrom_congr (hsame : ∀ s s', (attempt s).1 = (attempt s').1)
    (wait : Nat → σ → σ) (timeout interval : Duration) (elapsed : Nat) (count : UInt32) (s s' : σ) :
    (runFrom attempt wait timeout interval elapsed count s).1
      = (runFrom attempt wait timeout interval elapsed count s').1 :=
  (runFrom_simulates (R := fun _ _ => True) (fun s s' _ => ⟨hsame s s', trivial⟩)
    (fun _ _ _ _ => trivial) timeout interval elapsed count trivial).1

end Attempts

/-! ## Entries of the journal -/

namespace Event

/-- A note, or traffic between a client and the service. -/
def IsTraffic : Event → Prop
  | noted .. | called _ | received _ => True
  | _ => False

/-- A note, traffic, or a mark of the given scope, or inside a loop of the scope of an
iteration. -/
def IsWithin (scope : Scope) : Event → Prop
  | noted .. | called _ | received _ => True
  | sees none seen => seen = scope
  | sees (some i) seen => seen = Sender.iterationScope scope i
  | _ => False

theorem IsTraffic.isWithin {scope : Scope} {event : Event} (h : event.IsTraffic) :
    event.IsWithin scope := by
  cases event with
  | noted | called | received => trivial
  | _ => exact False.elim h

end Event

/-! ## What is defined -/

namespace Scope

/-- No value has a name twice. -/
def Distinct (scope : Scope) : Prop := ∀ name v, scope.get? name = some v → v.Distinct

theorem Distinct.empty : Distinct .empty := by
  intro name v h
  cases h

/-- The names are among the given ones, and no value has a name twice. -/
structure DefinesOnly (names : List String) (scope : Scope) : Prop where
  keys : scope.keys ⊆ names
  distinct : scope.Distinct

theorem DefinesOnly.empty (names : List String) : DefinesOnly names .empty :=
  ⟨List.nil_subset _, Distinct.empty⟩

end Scope

theorem Value.distinct_collect {previous : Option Value}
    (hprevious : ∀ old, previous = some old → old.Distinct) {v : Value} (hv : v.Distinct) :
    (Value.collect previous v).Distinct := by
  cases previous with
  | none => exact distinct_array.mpr ⟨hv, trivial⟩
  | some old =>
      have hold := hprevious old rfl
      cases old with
      | array items =>
          rw [collect, distinct_array, allDistinct_iff]
          intro w hw
          rcases List.mem_append.mp hw with h | h
          · exact allDistinct_iff.mp (distinct_array.mp hold) w h
          · exact List.mem_singleton.mp h ▸ hv
      | null | bool | number | string | object =>
          exact distinct_array.mpr ⟨hold, hv, trivial⟩

/-- What is collected defines only what it did and what is added. -/
theorem Scope.DefinesOnly.combine {names : List String} {scope source : Scope}
    (h : DefinesOnly names scope) (hsource : DefinesOnly names source) :
    DefinesOnly names (mergeSource .combine scope source) := by
  constructor
  · intro name hname
    rcases mem_keys_mergeSource.mp hname with hmem | hmem
    · exact h.keys hmem
    · exact hsource.keys hmem
  · intro name v hv
    rw [get?_mergeSource] at hv
    cases hget : source.get? name with
    | none =>
        rw [hget] at hv
        exact h.distinct name v hv
    | some w =>
        rw [hget] at hv
        cases hv
        exact Value.distinct_collect (fun old hold => h.distinct name old hold)
          (hsource.distinct name w hget)

theorem Selects.distinct {response : Response} {d : Definition} {v : Value}
    (h : Selects response d v) : v.Distinct := by
  cases h with
  | status => exact Value.distinct_ofNat _
  | header => exact Value.distinct_string _
  | body _ read selected =>
      obtain ⟨chars, -, hread⟩ := Option.bind_eq_some_iff.mp read
      exact (Value.distinct_ofJson? hread).select selected

namespace Requirement

theorem definesOnly_check {names : List String} {requirement : Requirement}
    {response : Response} {defined : Scope}
    (hnames : ∀ d ∈ requirement.definitions, d.name ∈ names)
    (h : requirement.check response = .ok defined) : defined.DefinesOnly names := by
  constructor
  · intro name hname
    obtain ⟨d, hd, rfl⟩ := (mem_keys_check h).mp hname
    exact hnames d hd
  · intro name v hv
    obtain ⟨-, values, hvalues, rfl⟩ := check_ok_iff.mp h
    have hdistinct : List.Forall₂ (fun _ v => v.Distinct)
        (requirement.definitions.map (·.name)) values :=
      List.forall₂_map_left_iff.mpr (hvalues.imp fun _ _ hselects => hselects.distinct)
    exact List.forall₂_zip hdistinct (OrderedMap.mem_of_mem_ofList (Entries.mem_of_get? hv))

end Requirement

/-- The names that a round trip may define on top of a template. -/
def RoundTripSpec.definable (spec : RoundTripSpec) (template : RoundTrip) : List String :=
  if spec.definitions.isEmpty then template.definitions.map (·.name)
  else spec.definitions.map (·.name)

namespace Renderer

theorem names_definitions {renderer : Renderer} {specs : List DefinitionSpec}
    {definitions : List Definition} (h : renderer.definitions specs = .ok definitions) :
    definitions.map (·.name) = specs.map (·.name) := by
  induction specs generalizing definitions with
  | nil =>
      cases h
      rfl
  | cons spec rest ih =>
      obtain ⟨d, hd, h⟩ := bind_ok_iff.mp h
      obtain ⟨ds, hds, h⟩ := bind_ok_iff.mp h
      obtain ⟨path, -, hname⟩ := bind_ok_iff.mp hd
      cases h
      cases hname
      rw [List.map_cons, List.map_cons, ih hds]

/-- What is rendered has the definitions of the round trip, or else those of the
template. -/
theorem names_roundTrip {renderer : Renderer} {spec : RoundTripSpec} {template r : RoundTrip}
    (h : renderer.roundTrip spec template = .ok r) :
    r.definitions.map (·.name) = spec.definable template := by
  obtain ⟨own, hown, hr⟩ := map_ok_iff.mp h
  have hnames : own.definitions.map (·.name) = spec.definitions.map (·.name) := by
    unfold layer at hown
    simp only [bind_ok_iff] at hown
    obtain ⟨_, _, _, _, _, _, _, _, _, _, _, _, _, _, ds, hds, hlayer⟩ := hown
    cases hlayer
    exact names_definitions hds
  have hempty : own.definitions.isEmpty = spec.definitions.isEmpty := by
    rw [← List.isEmpty_map (f := (·.name)), hnames, List.isEmpty_map]
  rw [← hr]
  unfold RoundTrip.patched RoundTripSpec.definable
  simp only [hempty]
  split
  · rfl
  · exact hnames

end Renderer

/-! ## Sending -/

open Event in
theorem Client.send_ensures (client : Client) (service : Service) (request : Request) :
    (client.send service request).Ensures IsTraffic fun _ => True := by
  intro journal
  refine ⟨?_, fun _ _ => trivial⟩
  have hcalled : journal.Since (journal.record (.called request)) IsTraffic :=
    Journal.since_record _ trivial
  unfold Client.send
  split
  · exact hcalled
  · next outgoing _ =>
      split
      · exact hcalled
      · have hreceived : journal.Since
            ((journal.record (.called request)).record (.received outgoing)) IsTraffic :=
          hcalled.trans (Journal.since_record _ trivial)
        dsimp only
        split
        · exact hreceived
        · split <;> exact hreceived.trans (Journal.since_wait _ _ _)

/-- The replies of a service depend on the request alone, not on those before it. -/
def Service.Stateless (service : Service) : Prop :=
  ∀ seen seen' request, service.reply seen request = service.reply seen' request

/-- What a client gets from such a service, and how long that takes, is always the same. -/
theorem Client.send_congr (client : Client) {service : Service} (h : service.Stateless)
    (request : Request) (j j' : Journal) :
    (client.send service request j).1 = (client.send service request j').1
      ∧ (client.send service request j).2.now - j.now
        = (client.send service request j').2.now - j'.now := by
  unfold Client.send
  cases client.prepare request with
  | error e => simp [Journal.record]
  | ok outgoing =>
      dsimp only
      rw [h (j.record (.called request)).received (j'.record (.called request)).received]
      split
      · simp [Journal.record]
      · split
        · simp [Journal.record]
        · split <;> simp [Journal.record, Journal.wait]

namespace Sender

variable (sender : Sender)

theorem attempt_related (client : Client) (request : Request) (requirement : Requirement)
    (journal : Journal) :
    journal.Since (sender.attempt client request requirement journal).2 Event.IsTraffic := by
  have hsince := (client.send_ensures sender.service request journal).1
  unfold attempt
  split
  · next response after hsend =>
      rw [hsend] at hsince
      exact hsince
  · next e after hsend =>
      rw [hsend] at hsince
      exact hsince

theorem attempt_ok {client : Client} {request : Request} {requirement : Requirement}
    {journal : Journal} {defined : Scope}
    (h : (sender.attempt client request requirement journal).1.1 = .ok defined) :
    ∃ response, requirement.check response = .ok defined := by
  unfold attempt at h
  split at h
  · next response after hsend => exact ⟨response, h⟩
  · cases h

theorem exchange_ensures (r : RoundTrip) (client : Client) (request : Request)
    (requirement : Requirement) :
    (sender.exchange r client request requirement).Ensures Event.IsTraffic
      fun defined => ∃ response, requirement.check response = .ok defined := by
  unfold exchange
  split
  · refine Action.Ensures.bind (client.send_ensures _ _).mapError ?_
    exact fun response _ => Action.Ensures.ofExcept fun defined h => ⟨response, h⟩
  · intro journal
    next polling _ =>
      have hsince := Attempts.runFrom_related (R := fun a b => a.Since b Event.IsTraffic)
        (fun hab hbc => Journal.Since.trans hab hbc)
        (sender.attempt_related client request requirement) (fun n s => Journal.since_wait n s _)
        (polling.timeout.getD sender.timeout) (polling.interval.getD sender.interval) 0 1 journal
      dsimp only
      unfold Attempts.run
      split
      · next scope after hrun =>
          rw [hrun] at hsince
          refine ⟨hsince, ?_⟩
          intro defined hdefined
          cases hdefined
          obtain ⟨s, hs⟩ := Attempts.attempt_of_runFrom (congrArg Prod.fst hrun)
          exact sender.attempt_ok hs
      · next failures after hrun =>
          rw [hrun] at hsince
          exact ⟨hsince, fun _ h => by cases h⟩

theorem execute_ensures (r : RoundTrip) :
    (sender.execute r).Ensures Event.IsTraffic
      (Scope.DefinesOnly (r.definitions.map (·.name))) := by
  unfold execute
  refine Action.Ensures.bind_ofExcept fun request _ => ?_
  refine Action.Ensures.bind_record trivial ?_
  refine Action.Ensures.bind_ofExcept fun requirement hrequirement => ?_
  refine Action.Ensures.bind_ofExcept fun client _ => ?_
  refine (sender.exchange_ensures r client request requirement).mono (fun _ h => h) ?_
  rintro defined ⟨response, hcheck⟩
  refine Requirement.definesOnly_check ?_ hcheck
  intro d hd
  obtain ⟨body, -, rfl⟩ := map_ok_iff.mp hrequirement
  exact List.mem_map.mpr ⟨d, hd, rfl⟩

theorem decide_ensures (engine : ConditionEngine) (condition : Condition) (scope : Scope) :
    (decide engine condition scope).Ensures Event.IsTraffic fun _ => True := by
  unfold decide
  split
  · exact Action.Ensures.bind_record trivial (Action.Ensures.ofExcept fun _ _ => trivial)
  · exact Action.Ensures.ofExcept fun _ _ => trivial

theorem isDue_ensures (spec : RoundTripSpec) (scope : Scope) :
    (sender.isDue spec scope).Ensures Event.IsTraffic fun _ => True := by
  unfold isDue
  split
  · exact Action.Ensures.pure trivial
  · exact Action.Ensures.bind_inView fun rendered _ _ => decide_ensures _ rendered scope

theorem runOnce_ensures (spec : RoundTripSpec) (template : RoundTrip) (scope : Scope) :
    (sender.runOnce spec template scope).Ensures Event.IsTraffic
      fun produced => ∀ defined, produced = some defined →
        defined.DefinesOnly (spec.definable template) := by
  unfold runOnce
  refine Action.Ensures.bind (sender.isDue_ensures spec scope) ?_
  intro due _
  split
  · refine Action.Ensures.bind_inView fun r journal hr => ?_
    refine Action.Ensures.bind (sender.execute_ensures r) ?_
    intro scope hscope
    refine Action.Ensures.pure ?_
    intro defined hdefined
    cases hdefined
    rw [← Renderer.names_roundTrip hr]
    exact hscope
  · exact Action.Ensures.pure fun _ h => by cases h

theorem definesOnly_placeholder (spec : RoundTripSpec) (template : RoundTrip) :
    (placeholder spec).DefinesOnly (spec.definable template) := by
  have hnames : spec.definitions.map (·.name) ⊆ spec.definable template := by
    unfold RoundTripSpec.definable
    split
    · next hempty =>
        rw [List.isEmpty_iff.mp hempty]
        exact List.nil_subset _
    · exact fun _ hmem => hmem
  constructor
  · intro name hname
    rcases Entries.mem_keys_extend.mp hname with hmem | hmem
    · cases hmem
    · refine hnames ?_
      rwa [Entries.keys, List.map_map] at hmem
  · intro name v hv
    have hnil : Value.FieldsDistinct [] := trivial
    refine Value.distinct_of_get? (hnil.extend ?_) hv
    rw [Value.fieldsDistinct_iff]
    intro e he
    obtain ⟨d, -, rfl⟩ := List.mem_map.mp he
    exact Value.distinct_null

theorem runIterations_ensures (spec : RoundTripSpec) (template : RoundTrip) (scope : Scope)
    (n i : Nat) {collected : Scope}
    (hcollected : collected.DefinesOnly (spec.definable template)) :
    (sender.runIterations spec template scope n i collected).Ensures (Event.IsWithin scope)
      (Scope.DefinesOnly (spec.definable template)) := by
  induction n generalizing i collected with
  | zero => exact Action.Ensures.pure hcollected
  | succ n ih =>
      rw [runIterations]
      refine Action.Ensures.bind_record rfl ?_
      refine Action.Ensures.bind ((sender.runOnce_ensures spec template _).mono
        (fun _ h => h.isWithin) fun _ h => h) ?_
      intro produced hproduced
      refine ih (i + 1) (hcollected.combine ?_)
      cases produced with
      | none => exact definesOnly_placeholder spec template
      | some defined => exact hproduced defined rfl

/-- A round trip writes notes, traffic and marks of the scope that it was given, and defines
only what it may, by values without repeated names. -/
theorem run_ensures (spec : RoundTripSpec) (template : RoundTrip) (scope : Scope) :
    (sender.run spec template scope).Ensures (Event.IsWithin scope)
      (Scope.DefinesOnly (spec.definable template)) := by
  unfold run
  split
  · refine Action.Ensures.bind_record rfl ?_
    refine Action.Ensures.bind ((sender.runOnce_ensures spec template scope).mono
      (fun _ h => h.isWithin) fun _ h => h) ?_
    intro produced hproduced
    refine Action.Ensures.pure ?_
    cases produced with
    | none => exact Scope.DefinesOnly.empty _
    | some defined => exact hproduced defined rfl
  · exact sender.runIterations_ensures spec template scope spec.loop 0
      (Scope.DefinesOnly.empty _)

end Sender

end HttpSuite
