import HttpSuite.Proofs.Context.Kept
import HttpSuite.Proofs.Suite.Plan
import Mathlib.Data.List.Nodup

/-!
# Visits

What happened for a selected case is read from the journal as a `Visit`: which contexts were
activated, with what they leave to be cleared up, and which cleaners were called for which
context. `Visit.Serves` says what has to be in a visit, and `length_calls` counts from that how
often the cleaners of a context are called in all: those for every case once for each
activation, and the others once if there was any.
-/

namespace HttpSuite

/-! ## Reading visits from a journal -/

/-- A call of a cleaner. -/
structure Cleaning where
  name : String
  template : RoundTrip
  args : OrderedMap String

/-- What happened for one selected case. -/
structure Visit where
  /-- The contexts that were activated, in order, and what they leave to be cleared up. -/
  prepared : List (Nat × Teardown) := []
  /-- The cleaners that were called, in order, each for a context. -/
  cleaned : List (Nat × Cleaning) := []

/-- The visits so far, the newest first, and the context that is activated or finished. -/
structure Reading where
  visits : List Visit := []
  context : Nat := 0

namespace Reading

/-- Changes the newest visit. -/
def onVisit (r : Reading) (f : Visit → Visit) : Reading where
  visits :=
    match r.visits with
    | [] => []
    | v :: past => f v :: past
  context := r.context

/-- Reads one more entry. -/
def read (r : Reading) : Event → Reading
  | .caseBegins => { r with visits := {} :: r.visits }
  | .activating n | .finishing n => { r with context := n }
  | .prepared t => r.onVisit fun v => { v with prepared := v.prepared ++ [(r.context, t)] }
  | .cleaned name template args =>
    r.onVisit fun v => { v with cleaned := v.cleaned ++ [(r.context, ⟨name, template, args⟩)] }
  | _ => r

theorem read_quiet (r : Reading) {event : Event} (h : event.IsQuiet) : r.read event = r := by
  cases event with
  | noted | called | received | sees => rfl
  | _ => exact False.elim h

end Reading

/-- The visits of which a journal tells, in order. -/
def visitsOf (events : List Event) : List Visit :=
  (events.foldl Reading.read {}).visits.reverse

/-- What has been read since a journal began. -/
def Journal.Reads (start journal : Journal) (r : Reading) : Prop :=
  ∃ events, journal.events = start.events ++ events ∧ events.foldl Reading.read {} = r

namespace Journal

variable {start journal : Journal} {r : Reading}

theorem Reads.refl (journal : Journal) : journal.Reads journal {} :=
  ⟨[], (List.append_nil _).symm, rfl⟩

theorem Reads.record (h : start.Reads journal r) (event : Event) :
    start.Reads (journal.record event) (r.read event) := by
  obtain ⟨events, hevents, rfl⟩ := h
  refine ⟨events ++ [event], ?_, List.foldl_append ..⟩
  show journal.events ++ [event] = _
  rw [hevents, List.append_assoc]

theorem Reads.quiet (h : start.Reads journal r) {after : Journal}
    (hsince : journal.Since after Event.IsQuiet) : start.Reads after r := by
  obtain ⟨events, hevents, rfl⟩ := h
  obtain ⟨new, hnew, hquiet⟩ := hsince
  refine ⟨events ++ new, by rw [hnew, hevents, List.append_assoc], ?_⟩
  rw [List.foldl_append]
  generalize events.foldl Reading.read {} = r
  clear hnew
  induction new with
  | nil => rfl
  | cons event new ih =>
      obtain ⟨hevent, hrest⟩ := List.forall_mem_cons.mp hquiet
      rw [List.foldl_cons, r.read_quiet hevent, ih hrest]

end Journal

/-! ## What is due -/

/-- The calls of some of the cleaners. -/
def Teardown.cleanings (t : Teardown) (p : CleanerCall → Bool) : List Cleaning :=
  (t.calls.filter p).map fun call => ⟨call.name, t.template, call.args⟩

/-- What the activation of a context in a visit has left. -/
def Visit.teardown? (v : Visit) (n : Nat) : Option Teardown := v.prepared.lookup n

/-- What the last activation of a context in some visits has left. -/
def lastTeardown? (visits : List Visit) (n : Nat) : Option Teardown :=
  visits.reverse.findSome? (·.teardown? n)

/-- The cleaners of a context that are due in a visit, behind earlier ones. If the context was
activated in this visit they are the ones of this activation: those for every case, and in
the last visit all. If it was not, the others are due in the last visit, with what the last
activation has left. -/
def Visit.due (earlier : List Visit) (v : Visit) (last : Bool) (n : Nat) : List Cleaning :=
  match v.teardown? n with
  | some t => t.cleanings fun call => call.forEach || last
  | none =>
    match last, lastTeardown? earlier n with
    | true, some t => t.cleanings fun call => !call.forEach
    | _, _ => []

/-- There is one call for each cleaner of a context, in order. -/
def Teardown.Matches (t : Teardown) (spec : ContextSpec) : Prop :=
  t.calls.map (fun call => (call.name, call.forEach))
    = spec.cleaners.map fun s => (s.name, s.forEach)

/-- What a visit has to contain, given the visits before it, the case that it is for, and the
selected cases that come later. -/
structure Visit.Serves (plan : Plan) (earlier : List Visit) (c : PlannedCase)
    (later : List PlannedCase) (v : Visit) : Prop where
  /-- Contexts of the path are activated, from the outermost one on. -/
  prepared : v.prepared.map (·.1) <+: c.path
  /-- An activation leaves one call for each cleaner of its context, in order. -/
  entries : ∀ n t, (n, t) ∈ v.prepared → t.Matches (plan.nodes.getD n default).spec
  /-- The cleaners that are called are those that are due, the innermost context first. -/
  cleaned : v.cleaned = c.path.reverse.flatMap fun n =>
    (v.due earlier (later.all fun other => n ∉ other.path) n).map ((n, ·))

theorem lastTeardown?_concat (visits : List Visit) (v : Visit) (n : Nat) :
    lastTeardown? (visits ++ [v]) n = (v.teardown? n).or (lastTeardown? visits n) := by
  unfold lastTeardown?
  rw [List.reverse_append, List.reverse_singleton, List.singleton_append, List.findSome?_cons]
  cases v.teardown? n <;> rfl

/-! ## How often cleaners are called -/

/-- Whether a context is activated in a visit. -/
def Visit.activates (v : Visit) (n : Nat) : Bool := (v.teardown? n).isSome

/-- The calls in a visit for a context. -/
def Visit.calls (v : Visit) (n : Nat) : List Cleaning :=
  (v.cleaned.filter (·.1 == n)).map (·.2)

theorem calls_flatMap {l : List Nat} (hnodup : l.Nodup) (f : Nat → List Cleaning) (n : Nat) :
    ((l.flatMap fun m => (f m).map ((m, ·))).filter (·.1 == n)).map (·.2)
      = if n ∈ l then f n else [] := by
  induction l with
  | nil => rfl
  | cons m l ih =>
      obtain ⟨hnew, hrest⟩ := List.nodup_cons.mp hnodup
      rw [List.flatMap_cons, List.filter_append, List.map_append, ih hrest]
      by_cases h : m = n
      · subst h
        rw [if_neg hnew, if_pos (List.mem_cons_self ..), List.append_nil]
        simp [List.filter_map, Function.comp_def]
      · have hother : (((f m).map ((m, ·))).filter (·.1 == n)).map (·.2) = [] := by
          simp [List.filter_map, Function.comp_def, h]
        have hiff : n ∈ m :: l ↔ n ∈ l := by
          rw [List.mem_cons]
          exact or_iff_right fun heq => h heq.symm
        rw [hother, List.nil_append]
        simp only [hiff]

namespace Visit.Serves

variable {plan : Plan} {earlier : List Visit} {c : PlannedCase} {later : List PlannedCase}
  {v : Visit}

theorem calls_eq (h : Visit.Serves plan earlier c later v) (hnodup : c.path.Nodup) (n : Nat) :
    v.calls n = if n ∈ c.path then v.due earlier (later.all fun other => n ∉ other.path) n
      else [] := by
  unfold Visit.calls
  rw [h.cleaned, calls_flatMap (List.nodup_reverse.mpr hnodup)]
  simp only [List.mem_reverse]

theorem mem_path (h : Visit.Serves plan earlier c later v) {n : Nat}
    (hactivates : v.activates n = true) : n ∈ c.path := by
  obtain ⟨t, ht⟩ := Option.isSome_iff_exists.mp hactivates
  obtain ⟨l₁, l₂, heq, -⟩ := List.lookup_eq_some_iff.mp ht
  refine h.prepared.subset (List.mem_map.mpr ⟨(n, t), ?_, rfl⟩)
  rw [heq]
  simp

theorem matches_of_teardown? (h : Visit.Serves plan earlier c later v) {n : Nat} {t : Teardown}
    (ht : v.teardown? n = some t) : t.Matches (plan.nodes.getD n default).spec := by
  obtain ⟨l₁, l₂, heq, -⟩ := List.lookup_eq_some_iff.mp ht
  exact h.entries n t (by rw [heq]; simp)

end Visit.Serves

namespace Teardown.Matches

variable {spec : ContextSpec} {t : Teardown}

theorem countP_calls (h : t.Matches spec) (p : Bool → Bool) :
    t.calls.countP (fun call => p call.forEach) = spec.cleaners.countP fun s => p s.forEach := by
  have hcalls := List.countP_map (p := fun e : String × Bool => p e.2)
    (f := fun call : CleanerCall => (call.name, call.forEach)) (l := t.calls)
  have hspec := List.countP_map (p := fun e : String × Bool => p e.2)
    (f := fun s : CleanerSpec => (s.name, s.forEach)) (l := spec.cleaners)
  unfold Matches at h
  rw [h] at hcalls
  exact hcalls.symm.trans hspec

theorem length_cleanings (h : t.Matches spec) (p : Bool → Bool) :
    (t.cleanings fun call => p call.forEach).length
      = spec.cleaners.countP fun s => p s.forEach := by
  unfold cleanings
  rw [List.length_map, ← List.countP_eq_length_filter, h.countP_calls]

end Teardown.Matches

/-- How many of the cleaners of a context are called after every case. -/
def ContextSpec.forEachCount (spec : ContextSpec) : Nat := spec.cleaners.countP (·.forEach)

/-- How many of the cleaners of a context are called once. -/
def ContextSpec.onceCount (spec : ContextSpec) : Nat := spec.cleaners.countP (!·.forEach)

theorem ContextSpec.countP_true (spec : ContextSpec) :
    (spec.cleaners.countP fun _ => true) = spec.forEachCount + spec.onceCount := by
  have hsum := List.length_eq_countP_add_countP (l := spec.cleaners) (·.forEach)
  rw [List.countP_true, hsum]
  congr 1
  unfold onceCount
  congr 1
  funext s
  simp

theorem lastTeardown?_append_of_not_activates {visits more : List Visit} {n : Nat}
    (h : ∀ v ∈ more, v.activates n = false) :
    lastTeardown? (visits ++ more) n = lastTeardown? visits n := by
  unfold lastTeardown?
  rw [List.reverse_append, List.findSome?_append]
  have hnone : more.reverse.findSome? (·.teardown? n) = none := by
    rw [List.findSome?_eq_none_iff]
    intro v hv
    have hnot := h v (List.mem_reverse.mp hv)
    unfold Visit.activates at hnot
    simpa using hnot
  rw [hnone, Option.none_or]

section Count

variable {plan : Plan} {n : Nat}

/-- How many calls are due in a visit: the ones for every case if the context is activated in
it, and the others in the last visit if there is something left to them. -/
theorem length_due {earlier : List Visit} {v : Visit} {last : Bool} {spec : ContextSpec}
    (hv : ∀ t, v.teardown? n = some t → t.Matches spec)
    (hearlier : ∀ t, lastTeardown? earlier n = some t → t.Matches spec) :
    (v.due earlier last n).length
      = (if v.activates n then spec.forEachCount else 0)
        + if last ∧ (lastTeardown? (earlier ++ [v]) n).isSome then spec.onceCount else 0 := by
  unfold Visit.due Visit.activates
  rw [lastTeardown?_concat]
  cases ht : v.teardown? n with
  | some t =>
      have hmatches := hv t ht
      show (t.cleanings fun call => call.forEach || last).length = _
      rw [hmatches.length_cleanings (· || last)]
      cases last with
      | true => simpa using spec.countP_true
      | false =>
          simp [ContextSpec.forEachCount]
  | none =>
      rw [Option.none_or]
      cases hlast : lastTeardown? earlier n with
      | none => cases last <;> simp
      | some t =>
          cases last with
          | true =>
              show (t.cleanings fun call => !call.forEach).length = _
              rw [(hearlier t hlast).length_cleanings (!·)]
              simp [ContextSpec.onceCount]
          | false => simp

/-- A context that is around none of the cases is not activated for them. -/
theorem not_activates_of_serves {earlier more : List Visit} {cases : List PlannedCase}
    (hlength : more.length = cases.length)
    (hserves : ∀ k c v, cases[k]? = some c → more[k]? = some v →
      Visit.Serves plan (earlier ++ more.take k) c (cases.drop (k + 1)) v)
    (hnone : ¬ ∃ c ∈ cases, n ∈ c.path) : ∀ v ∈ more, v.activates n = false := by
  intro v hv
  obtain ⟨k, hk, hget⟩ := List.mem_iff_getElem.mp hv
  have hkc : k < cases.length := hlength ▸ hk
  have hserve := hserves k cases[k] v (List.getElem?_eq_getElem hkc)
    (hget ▸ List.getElem?_eq_getElem hk)
  rw [Bool.eq_false_iff]
  exact fun hact => hnone ⟨_, List.getElem_mem hkc, hserve.mem_path hact⟩

/-- The calls for a context from some point on: those for every case once for each activation,
and the others once if the context is around one of the cases and was ever activated. -/
theorem length_calls {earlier more : List Visit} {cases : List PlannedCase}
    (hnodup : ∀ c ∈ cases, c.path.Nodup) (hlength : more.length = cases.length)
    (hserves : ∀ k c v, cases[k]? = some c → more[k]? = some v →
      Visit.Serves plan (earlier ++ more.take k) c (cases.drop (k + 1)) v)
    (hearlier : ∀ t, lastTeardown? earlier n = some t →
      t.Matches (plan.nodes.getD n default).spec) :
    (more.flatMap (·.calls n)).length
      = more.countP (·.activates n) * (plan.nodes.getD n default).spec.forEachCount
        + if (∃ c ∈ cases, n ∈ c.path) ∧ (lastTeardown? (earlier ++ more) n).isSome
          then (plan.nodes.getD n default).spec.onceCount else 0 := by
  induction cases generalizing earlier more with
  | nil =>
      rw [List.length_nil, List.length_eq_zero_iff] at hlength
      subst hlength
      simp
  | cons c cases ih =>
      cases more with
      | nil => cases hlength
      | cons v more =>
          obtain ⟨hpath, hpaths⟩ := List.forall_mem_cons.mp hnodup
          have hv : Visit.Serves plan earlier c cases v := by
            have := hserves 0 c v rfl rfl
            rwa [List.take_zero, List.append_nil] at this
          have hteardown : ∀ t, v.teardown? n = some t →
              t.Matches (plan.nodes.getD n default).spec := fun t ht => hv.matches_of_teardown? ht
          have hnext : ∀ t, lastTeardown? (earlier ++ [v]) n = some t →
              t.Matches (plan.nodes.getD n default).spec := by
            intro t ht
            rw [lastTeardown?_concat] at ht
            rcases Option.or_eq_some_iff.mp ht with hact | ⟨-, hold⟩
            · exact hteardown t hact
            · exact hearlier t hold
          have hrest : ∀ k c' v', cases[k]? = some c' → more[k]? = some v' →
              Visit.Serves plan (earlier ++ [v] ++ more.take k) c' (cases.drop (k + 1)) v' := by
            intro k c' v' hc' hv'
            have := hserves (k + 1) c' v' hc' hv'
            rwa [List.take_succ_cons, List.append_cons] at this
          have happend : earlier ++ v :: more = earlier ++ [v] ++ more := List.append_cons ..
          rw [List.flatMap_cons, List.length_append, List.countP_cons,
            ih hpaths (Nat.succ.inj hlength) hrest hnext, hv.calls_eq hpath, happend, Nat.add_mul]
          -- The calls that are made once are due now if no later case has the context around it.
          by_cases hn : n ∈ c.path
          · have hexists : ∃ c' ∈ c :: cases, n ∈ c'.path := ⟨c, List.mem_cons_self .., hn⟩
            rw [if_pos hn, length_due hteardown hearlier]
            by_cases hlater : ∃ c' ∈ cases, n ∈ c'.path
            · have hall : (cases.all fun other => n ∉ other.path) = false := by
                simpa using hlater
              simp only [hall, hexists, hlater, Bool.false_eq_true, false_and, true_and, if_false]
              split <;> omega
            · have hall : (cases.all fun other => n ∉ other.path) = true := by
                simpa using hlater
              rw [lastTeardown?_append_of_not_activates
                (not_activates_of_serves (Nat.succ.inj hlength) hrest hlater)]
              simp only [hall, hexists, hlater, true_and, false_and, if_false]
              split <;> omega
          · have hnot : v.activates n = false := by
              rw [Bool.eq_false_iff]
              exact fun hact => hn (hv.mem_path hact)
            have hiff : (∃ c' ∈ c :: cases, n ∈ c'.path) ↔ ∃ c' ∈ cases, n ∈ c'.path := by
              simp [hn]
            simp only [if_neg hn, hnot, hiff, List.length_nil, Bool.false_eq_true, if_false]
            omega

theorem lastTeardown?_isSome_iff {visits : List Visit} :
    (lastTeardown? visits n).isSome = true ↔ visits.any (·.activates n) = true := by
  unfold lastTeardown? Visit.activates
  rw [List.findSome?_isSome_iff, List.any_eq_true]
  simp only [List.mem_reverse]

/-- The calls for a context over all visits. -/
theorem length_calls_all {visits : List Visit} {cases : List PlannedCase}
    (hnodup : ∀ c ∈ cases, c.path.Nodup) (hlength : visits.length = cases.length)
    (hserves : ∀ k c v, cases[k]? = some c → visits[k]? = some v →
      Visit.Serves plan (visits.take k) c (cases.drop (k + 1)) v) :
    (visits.flatMap (·.calls n)).length
      = visits.countP (·.activates n) * (plan.nodes.getD n default).spec.forEachCount
        + if visits.any (·.activates n) then (plan.nodes.getD n default).spec.onceCount else 0 := by
  have hfirst : ∀ t, lastTeardown? [] n = some t →
      t.Matches (plan.nodes.getD n default).spec := fun t ht => by cases ht
  have hcount := length_calls hnodup hlength (by simpa only [List.nil_append] using hserves) hfirst
  have hiff : ((∃ c ∈ cases, n ∈ c.path) ∧ (lastTeardown? ([] ++ visits) n).isSome = true)
      ↔ visits.any (·.activates n) = true := by
    rw [List.nil_append, lastTeardown?_isSome_iff]
    refine and_iff_right_of_imp fun hany => ?_
    obtain ⟨v, hv, hact⟩ := List.any_eq_true.mp hany
    obtain ⟨k, hk, hget⟩ := List.mem_iff_getElem.mp hv
    have hkc : k < cases.length := hlength ▸ hk
    have hserve := hserves k cases[k] v (List.getElem?_eq_getElem hkc)
      (hget ▸ List.getElem?_eq_getElem hk)
    exact ⟨_, List.getElem_mem hkc, hserve.mem_path hact⟩
  rw [hcount]
  simp only [hiff]

end Count

end HttpSuite
