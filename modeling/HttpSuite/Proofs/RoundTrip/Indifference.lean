import HttpSuite.Proofs.RoundTrip.Mentions

/-!
# What a round trip does not look at

The journal of a run has marks in it that tell which variables were gone by. They are for
whoever reads the journal afterwards; nothing that runs looks at them. So two actions are
`Alike` if from journals that are the same but for the variables of marks they come to the same
result and to such journals again, and this composes along `bind` whatever the service does,
because a service sees the requests before and no marks.

Scopes in which a round trip finds the same values under the names of its templates, and the
same texts under those of its condition, lead to runs that are alike: `depends_on_mentioned`.
In particular it does not matter what else is bound or in which order.
-/

namespace HttpSuite

/-! ## Journals that look the same -/

/-- An entry as it can be seen: of a mark where it is, and no variables. -/
def Event.shown : Event → Event
  | sees iteration _ => sees iteration .empty
  | event => event

/-- Two journals are the same but for the variables of marks. -/
structure Journal.LooksLike (j j' : Journal) : Prop where
  now : j.now = j'.now
  events : j.events.map Event.shown = j'.events.map Event.shown

namespace Journal.LooksLike

variable {j j' : Journal}

/-- Of what is recorded only that counts which can be seen. -/
theorem record (h : j.LooksLike j') {event event' : Event} (hevent : event.shown = event'.shown) :
    (j.record event).LooksLike (j'.record event') := by
  refine ⟨h.now, ?_⟩
  simp only [Journal.record, List.map_append, h.events, List.map_cons, hevent, List.map_nil]

theorem wait (h : j.LooksLike j') (nanos : Nat) :
    (Journal.wait nanos j).LooksLike (Journal.wait nanos j') :=
  ⟨congrArg (· + nanos) h.now, h.events⟩

/-- What the service has received can be seen. -/
theorem received (h : j.LooksLike j') : j.received = j'.received := by
  have hlike : receivedIn ∘ Event.shown = receivedIn := by
    funext event
    cases event <;> rfl
  rw [Journal.received, ← hlike, ← List.filterMap_map, h.events, List.filterMap_map, hlike,
    Journal.received]

/-- What is rendered where journals look the same is rendered on the same occasion. -/
theorem occasion (h : j.LooksLike j') : j.occasion = j'.occasion := by
  have hlength := congrArg List.length h.events
  rw [List.length_map, List.length_map] at hlength
  rw [Journal.occasion, Journal.occasion, h.now, hlength]

end Journal.LooksLike

namespace Action

variable {ε ε' α β : Type}

/-- From journals that look the same both actions come to the same result and to journals that
look the same. -/
def Alike (x y : Action ε α) : Prop :=
  ∀ j j' : Journal, j.LooksLike j' → (x j).1 = (y j').1 ∧ (x j).2.LooksLike (y j').2

theorem Alike.pure (a : α) : (Pure.pure a : Action ε α).Alike (Pure.pure a) :=
  fun _ _ h => ⟨rfl, h⟩

theorem Alike.bind {x y : Action ε α} {f g : α → Action ε β} (hxy : x.Alike y)
    (hfg : ∀ a, (f a).Alike (g a)) : (x >>= f).Alike (y >>= g) := by
  intro j j' h
  obtain ⟨hresult, hlike⟩ := hxy j j' h
  rw [bind_apply, bind_apply]
  rcases hx : x j with ⟨r, after⟩
  rcases hy : y j' with ⟨r', after'⟩
  rw [hx, hy] at hresult hlike
  cases hresult
  cases r with
  | error e => exact ⟨rfl, hlike⟩
  | ok a => exact hfg a after after' hlike

theorem Alike.record {event event' : Event} (h : event.shown = event'.shown) :
    (Action.record event : Action ε Unit).Alike (Action.record event') :=
  fun _ _ hlike => ⟨rfl, hlike.record h⟩

theorem Alike.ofExcept (f : ε → ε') (x : Except ε α) :
    (Action.ofExcept f x).Alike (Action.ofExcept f x) := by
  intro j j' h
  cases x <;> exact ⟨rfl, h⟩

theorem Alike.inView {f : Journal → Except ε α}
    (h : ∀ j j' : Journal, j.LooksLike j' → f j = f j') :
    (Action.inView f).Alike (Action.inView f) := fun j j' hlike => ⟨h j j' hlike, hlike⟩

theorem mapError_snd (f : ε → ε') (x : Action ε α) (journal : Journal) :
    (x.mapError f journal).2 = (x journal).2 := by
  unfold Action.mapError
  rcases x journal with ⟨r, after⟩
  cases r <;> rfl

theorem Alike.mapError {x y : Action ε α} (f : ε → ε') (h : x.Alike y) :
    (x.mapError f).Alike (y.mapError f) := by
  intro j j' hlike
  obtain ⟨hresult, hafter⟩ := h j j' hlike
  rw [mapError_fst, mapError_fst, hresult, mapError_snd, mapError_snd]
  exact ⟨rfl, hafter⟩

end Action

/-! ## Sending -/

theorem Client.send_alike (client : Client) (service : Service) (request : Request) :
    (client.send service request).Alike (client.send service request) := by
  intro j j' h
  have hcalled := h.record (rfl : (Event.called request).shown = (Event.called request).shown)
  unfold Client.send
  cases client.prepare request with
  | error e => exact ⟨rfl, hcalled⟩
  | ok outgoing =>
      have hreceived :=
        hcalled.record (rfl : (Event.received outgoing).shown = (Event.received outgoing).shown)
      dsimp only
      rw [hcalled.received]
      split
      · exact ⟨rfl, hcalled⟩
      · split
        · exact ⟨rfl, hreceived⟩
        · split <;> exact ⟨rfl, hreceived.wait _⟩

namespace Sender

variable (sender : Sender)

theorem attempt_alike (client : Client) (request : Request) (requirement : Requirement)
    {j j' : Journal} (h : j.LooksLike j') :
    (sender.attempt client request requirement j).1
        = (sender.attempt client request requirement j').1
      ∧ (sender.attempt client request requirement j).2.LooksLike
        (sender.attempt client request requirement j').2 := by
  obtain ⟨hresult, hlike⟩ := client.send_alike sender.service request j j' h
  unfold attempt
  rcases hsend : client.send sender.service request j with ⟨r, after⟩
  rcases hsend' : client.send sender.service request j' with ⟨r', after'⟩
  rw [hsend, hsend'] at hresult hlike
  cases hresult
  have htime : after.now - j.now = after'.now - j'.now := by rw [h.now, hlike.now]
  cases r <;> exact ⟨by simp only [htime], hlike⟩

theorem exchange_alike (r : RoundTrip) (client : Client) (request : Request)
    (requirement : Requirement) :
    (sender.exchange r client request requirement).Alike
      (sender.exchange r client request requirement) := by
  unfold exchange
  split
  · exact Action.Alike.bind ((client.send_alike _ _).mapError _) fun _ =>
      Action.Alike.ofExcept _ _
  · next polling _ =>
      intro j j' h
      have hattempt : ∀ j j' : Journal, j.LooksLike j' →
          (sender.attempt client request requirement j).1
              = (sender.attempt client request requirement j').1
            ∧ (sender.attempt client request requirement j).2.LooksLike
              (sender.attempt client request requirement j').2 :=
        fun _ _ hlike => sender.attempt_alike client request requirement hlike
      have hwait : ∀ n (j j' : Journal), j.LooksLike j' → (j.wait n).LooksLike (j'.wait n) :=
        fun n _ _ hlike => hlike.wait n
      obtain ⟨hresult, hlike⟩ := Attempts.runFrom_simulates hattempt hwait
        (polling.timeout.getD sender.timeout) (polling.interval.getD sender.interval) 0 1 h
      dsimp only
      unfold Attempts.run
      rcases hrun : Attempts.runFrom (sender.attempt client request requirement) Journal.wait
        (polling.timeout.getD sender.timeout) (polling.interval.getD sender.interval) 0 1 j
        with ⟨result, after⟩
      rcases hrun' : Attempts.runFrom (sender.attempt client request requirement) Journal.wait
        (polling.timeout.getD sender.timeout) (polling.interval.getD sender.interval) 0 1 j'
        with ⟨result', after'⟩
      rw [hrun, hrun'] at hresult hlike
      cases hresult
      cases result <;> exact ⟨rfl, hlike⟩

theorem execute_alike (r : RoundTrip) : (sender.execute r).Alike (sender.execute r) := by
  unfold execute
  refine Action.Alike.bind (Action.Alike.ofExcept _ _) fun request => ?_
  refine Action.Alike.bind (Action.Alike.record rfl) fun _ => ?_
  refine Action.Alike.bind (Action.Alike.ofExcept _ _) fun requirement => ?_
  refine Action.Alike.bind (Action.Alike.ofExcept _ _) fun client => ?_
  exact sender.exchange_alike r client request requirement

theorem decide_alike (engine : ConditionEngine) (condition : Condition) (scope : Scope) :
    (decide engine condition scope).Alike (decide engine condition scope) := by
  unfold decide
  split
  · exact Action.Alike.bind (Action.Alike.record rfl) fun _ => Action.Alike.ofExcept _ _
  · exact Action.Alike.ofExcept _ _

theorem renderer_eq (scope : Scope) {j j' : Journal} (h : j.LooksLike j') :
    sender.renderer scope j = sender.renderer scope j' := by
  rw [renderer, renderer, h.occasion]

theorem isDue_alike (spec : RoundTripSpec) (scope : Scope) :
    (sender.isDue spec scope).Alike (sender.isDue spec scope) := by
  unfold isDue
  split
  · exact Action.Alike.pure _
  · refine Action.Alike.bind (Action.Alike.inView fun j j' h => ?_) fun rendered =>
      decide_alike _ rendered scope
    rw [sender.renderer_eq scope h]

theorem runOnce_alike (spec : RoundTripSpec) (template : RoundTrip) (scope : Scope) :
    (sender.runOnce spec template scope).Alike (sender.runOnce spec template scope) := by
  unfold runOnce
  refine Action.Alike.bind (sender.isDue_alike spec scope) fun due => ?_
  split
  · refine Action.Alike.bind (Action.Alike.inView fun j j' h => ?_) fun r => ?_
    · rw [sender.renderer_eq scope h]
    exact Action.Alike.bind (sender.execute_alike r) fun _ => Action.Alike.pure _
  · exact Action.Alike.pure _

/-! ## Scopes that look the same -/

variable {spec : RoundTripSpec} {a b : Scope}

theorem runIterations_alike (template : RoundTrip) (h : spec.SeesAlike a b) (n i : Nat)
    (collected : Scope) :
    (sender.runIterations spec template a n i collected).Alike
      (sender.runIterations spec template b n i collected) := by
  induction n generalizing i collected with
  | zero => exact Action.Alike.pure _
  | succ n ih =>
      -- Here the runs leave different marks; what is looked up is the same from here on.
      rw [runIterations, runIterations, runOnce_congr template (h.iteration i)]
      refine Action.Alike.bind (Action.Alike.record rfl) fun _ => ?_
      exact Action.Alike.bind (sender.runOnce_alike spec template _) fun produced => ih (i + 1) _

theorem run_alike (template : RoundTrip) (h : spec.SeesAlike a b) :
    (sender.run spec template a).Alike (sender.run spec template b) := by
  unfold run
  split
  · rw [runOnce_congr template h]
    refine Action.Alike.bind (Action.Alike.record rfl) fun _ => ?_
    exact Action.Alike.bind (sender.runOnce_alike spec template b) fun _ => Action.Alike.pure _
  · exact sender.runIterations_alike template h _ _ _

/-- What a round trip sees in an iteration, or outside any loop. -/
def scopeAt (scope : Scope) : Option Nat → Scope
  | none => scope
  | some i => iterationScope scope i

/-- A round trip goes the same way in both scopes. -/
structure SameRun (spec : RoundTripSpec) (template : RoundTrip) (a b : Scope) : Prop where
  /-- Every iteration is run or left out alike, and the same is noted about it. -/
  decided : ∀ iteration, sender.isDue spec (scopeAt a iteration)
    = sender.isDue spec (scopeAt b iteration)
  /-- Every iteration renders to the same, or fails alike: the same request, and the same that
  is expected of the response. -/
  rendered : ∀ iteration (j j' : Journal), j.LooksLike j' →
    (sender.renderer (scopeAt a iteration) j).roundTrip spec template
      = (sender.renderer (scopeAt b iteration) j').roundTrip spec template
  /-- The same is sent, received and noted in every iteration, and the result is the same. -/
  course : (sender.run spec template a).Alike (sender.run spec template b)

theorem SameRun.of_seesAlike (template : RoundTrip) (h : spec.SeesAlike a b) :
    sender.SameRun spec template a b := by
  have hat : ∀ iteration, spec.SeesAlike (scopeAt a iteration) (scopeAt b iteration) := by
    intro iteration
    cases iteration with
    | none => exact h
    | some i => exact h.iteration i
  refine ⟨fun iteration => isDue_congr (hat iteration), fun iteration j j' hlike => ?_,
    sender.run_alike template h⟩
  rw [rendered_congr template (hat iteration), sender.renderer_eq _ hlike]

/-- A round trip depends on the values that its templates begin their paths with and on the
texts that its condition looks up, and on nothing else that is bound: whatever the service
replies, it is the same in scopes that are alike in these, behind bindings of other names, and
in whichever order names are bound. -/
theorem depends_on_mentioned (spec : RoundTripSpec) (template : RoundTrip) (a : Scope) :
    (∀ b, spec.SeesAlike a b → sender.SameRun spec template a b)
      ∧ (∀ others : Scope, (∀ name ∈ others.keys, name ∉ spec.names) →
        sender.SameRun spec template a (a.extend others))
      ∧ ∀ b : Scope, a.toList.Perm b.toList → sender.SameRun spec template a b := by
  refine ⟨fun b h => .of_seesAlike sender template h, fun others hothers => ?_, fun b hperm => ?_⟩
  · refine .of_seesAlike sender template (.of_agreeOn fun name hname => ?_)
    have hnone : others.get? name = none :=
      OrderedMap.get?_eq_none_iff.mpr fun hmem => hothers name hmem hname
    rw [OrderedMap.get?_extend, hnone, Option.none_or]
  · exact .of_seesAlike sender template
      (.of_agreeOn fun name _ => OrderedMap.get?_of_perm hperm name)

end Sender

end HttpSuite
