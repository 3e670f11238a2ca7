import HttpSuite.Proofs.RoundTrip.Indifference
import HttpSuite.Proofs.RoundTrip.Polling

/-!
# Round trips turn by turn

A round trip is run once, or in a loop once for each iteration: these are its turns. A turn
first asks its condition (`answer`), then renders the round trip and makes it ready to be sent
(`toSend`), and only then calls a client. Up to there nothing is written but notes, and everything
that can fail fails with an error of another kind than those of a client that was called, so the
error tells whether there was a call. `runOnce_cases` says all that a turn can do, and which of
it is for the condition to say and then for what is to be sent.

A loop hands nothing from one turn to the next but the journal. What the turns define is put
together behind them, and `runs_in_turns` is the round trip as a list of its turns.
-/

namespace HttpSuite

theorem bind_error_iff {ε α β : Type} {x : Except ε α} {f : α → Except ε β} {e : ε} :
    x >>= f = .error e ↔ x = .error e ∨ ∃ a, x = .ok a ∧ f a = .error e := by
  cases x with
  | error e' =>
      constructor
      · intro h
        cases h
        exact .inl rfl
      · rintro (h | ⟨a, ha, -⟩)
        · cases h
          rfl
        · cases ha
  | ok a =>
      constructor
      · intro h
        exact .inr ⟨a, rfl, h⟩
      · rintro (h | ⟨a', ha, h⟩)
        · cases h
        · cases ha
          exact h

/-! ## Errors without a call -/

namespace RoundTripError

/-- Whether a round trip that fails like this was not sent: a template, the condition, the
request or what is expected of the response is at fault, or there is no such client. -/
def isUnsent : RoundTripError → Bool
  | render .. | malformedApi _ | unknownMethod _ | incomplete _ | pattern _ | condition .. => true
  | send (.unknownClient _) => true
  | send _ | mismatch _ => false

end RoundTripError

/-- A client that was called was there. -/
theorem Client.send_ne_unknownClient (client : Client) (service : Service) (request : Request)
    (journal : Journal) (name : String) :
    (client.send service request journal).1 ≠ .error (.unknownClient name) := by
  have hprepare : client.prepare request ≠ .error (.unknownClient name) := by
    unfold Client.prepare
    split
    · nofun
    · split
      · next fault hfault =>
          obtain ⟨⟨header, value⟩, -, hfound⟩ := List.exists_of_findSome?_eq_some hfault
          rintro ⟨⟩
          unfold Http.headerFault? at hfound
          dsimp only at hfound
          split at hfound
          · cases hfound
          · split at hfound <;> cases hfound
      · split <;> nofun
  unfold Client.send
  split
  · next e he =>
      rintro ⟨⟩
      exact hprepare he
  · split
    · nofun
    · dsimp only
      split
      · nofun
      · split <;> nofun

namespace Renderer

variable {renderer : Renderer}

theorem text_unsent {field : String} {template : Template} {e : RoundTripError}
    (h : renderer.text field template = .error e) : e.isUnsent = true := by
  unfold text at h
  split at h <;> cases h
  rfl

theorem text?_unsent {field : String} {template : Option Template} {e : RoundTripError}
    (h : renderer.text? field template = .error e) : e.isUnsent = true := by
  cases template with
  | none => cases h
  | some template =>
      rw [text?] at h
      cases htext : renderer.text field template with
      | ok s =>
          rw [htext] at h
          cases h
      | error e' =>
          rw [htext] at h
          cases h
          exact text_unsent htext

theorem entries_unsent {field : String} {templates : List (String × Template)}
    {e : RoundTripError} (h : renderer.entries field templates = .error e) :
    e.isUnsent = true := by
  induction templates with
  | nil => cases h
  | cons entry rest ih =>
      rcases bind_error_iff.mp h with htext | ⟨s, -, hrest⟩
      · exact text_unsent htext
      · rcases bind_error_iff.mp hrest with hentries | ⟨texts, -, hlast⟩
        · exact ih hentries
        · cases hlast

theorem selector_unsent {field : String} {templates : List Template} {e : RoundTripError}
    (h : renderer.selector field templates = .error e) : e.isUnsent = true := by
  induction templates with
  | nil => cases h
  | cons template rest ih =>
      rcases bind_error_iff.mp h with htext | ⟨s, -, hrest⟩
      · exact text_unsent htext
      · rcases bind_error_iff.mp hrest with hselector | ⟨texts, -, hlast⟩
        · exact ih hselector
        · cases hlast

theorem condition_unsent {spec : ConditionSpec} {e : RoundTripError}
    (h : renderer.condition spec = .error e) : e.isUnsent = true := by
  rcases bind_error_iff.mp h with hargs | ⟨args, -, hlast⟩
  · unfold args at hargs
    cases hentries : (renderer.within 0).entries "when.args" spec.args.toList with
    | ok texts =>
        rw [hentries] at hargs
        cases hargs
    | error e' =>
        rw [hentries] at hargs
        cases hargs
        exact entries_unsent hentries
  · cases hlast

theorem definitions_unsent {specs : List DefinitionSpec} {e : RoundTripError}
    (h : renderer.definitions specs = .error e) : e.isUnsent = true := by
  induction specs with
  | nil => cases h
  | cons spec rest ih =>
      rcases bind_error_iff.mp h with hdefinition | ⟨d, -, hrest⟩
      · rcases bind_error_iff.mp hdefinition with hselector | ⟨path, -, hlast⟩
        · exact selector_unsent hselector
        · cases hlast
      · rcases bind_error_iff.mp hrest with hdefinitions | ⟨ds, -, hlast⟩
        · exact ih hdefinitions
        · cases hlast

theorem headers_unsent {field : String} {templates : OrderedMap Template} {e : RoundTripError}
    (h : renderer.headers field templates = .error e) : e.isUnsent = true := by
  rcases bind_error_iff.mp h with hentries | ⟨texts, -, hlast⟩
  · exact entries_unsent hentries
  · cases hlast

theorem api_unsent {around : Option String} {template : Option Template} {e : RoundTripError}
    (h : renderer.api around template = .error e) : e.isUnsent = true := by
  cases template with
  | none => cases h
  | some template =>
      rcases bind_error_iff.mp h with htext | ⟨s, -, hrest⟩
      · exact text_unsent htext
      · rcases bind_error_iff.mp hrest with hsplit | ⟨⟨method, path⟩, -, hlast⟩
        · unfold splitApi at hsplit
          split at hsplit
          · cases hsplit
            rfl
          · dsimp only at hsplit
            split at hsplit <;> cases hsplit
            rfl
        · cases hlast

/-- A round trip that cannot be rendered is not sent. -/
theorem roundTrip_unsent {spec : RoundTripSpec} {template : RoundTrip} {e : RoundTripError}
    (h : renderer.roundTrip spec template = .error e) : e.isUnsent = true := by
  have hlayer : renderer.layer spec template.request.pathTemplate = .error e := by
    unfold roundTrip at h
    cases hlayer : renderer.layer spec template.request.pathTemplate with
    | ok own =>
        rw [hlayer] at h
        cases h
    | error e' =>
        rw [hlayer] at h
        cases h
        rfl
  rcases bind_error_iff.mp hlayer with hhost | ⟨host, -, h₁⟩
  · exact text?_unsent hhost
  rcases bind_error_iff.mp h₁ with hscheme | ⟨scheme, -, h₂⟩
  · exact text?_unsent hscheme
  rcases bind_error_iff.mp h₂ with hapi | ⟨⟨method, path⟩, -, h₃⟩
  · exact api_unsent hapi
  rcases bind_error_iff.mp h₃ with hheaders | ⟨headers, -, h₄⟩
  · exact headers_unsent hheaders
  rcases bind_error_iff.mp h₄ with hbody | ⟨body, -, h₅⟩
  · exact text?_unsent hbody
  rcases bind_error_iff.mp h₅ with hheaders | ⟨headers, -, h₆⟩
  · exact headers_unsent hheaders
  rcases bind_error_iff.mp h₆ with hbody | ⟨body, -, h₇⟩
  · exact text?_unsent hbody
  rcases bind_error_iff.mp h₇ with hdefinitions | ⟨definitions, -, hlast⟩
  · exact definitions_unsent hdefinitions
  · cases hlast

end Renderer

/-! ## What a turn does -/

/-- No client is called. -/
def Event.IsSilent (event : Event) : Prop := Journal.calledFor event = none

theorem Journal.calls_of_silent {before after : Journal}
    (h : before.Since after Event.IsSilent) : after.calls = before.calls := by
  obtain ⟨new, hnew, hsilent⟩ := h
  unfold calls
  rw [hnew, List.filterMap_append, List.filterMap_eq_nil_iff.mpr hsilent, List.append_nil]

theorem Action.Ensures.calls_eq {ε α : Type} {a : Action ε α} {Q : α → Prop}
    (h : a.Ensures Event.IsSilent Q) (journal : Journal) :
    (a journal).2.calls = journal.calls := Journal.calls_of_silent (h journal).1

/-- What comes behind an action without anything happening leaves the journal to it. -/
theorem Action.bind_ofExcept_snd {ε ε' α β : Type} (a : Action ε α) (f : ε' → ε)
    (g : α → Except ε' β) (journal : Journal) :
    ((a >>= fun x => Action.ofExcept f (g x)) journal).2 = (a journal).2 := by
  rw [bind_apply]
  rcases a journal with ⟨r, after⟩
  cases r with
  | error e => rfl
  | ok x =>
      dsimp only
      cases g x <;> rfl

namespace Sender

variable (sender : Sender)

theorem decide_silent (engine : ConditionEngine) (condition : Condition) (scope : Scope) :
    (decide engine condition scope).Ensures Event.IsSilent fun _ => True := by
  unfold decide
  split
  · exact Action.Ensures.bind_record rfl (Action.Ensures.ofExcept fun _ _ => trivial)
  · exact Action.Ensures.ofExcept fun _ _ => trivial

theorem isDue_silent (spec : RoundTripSpec) (scope : Scope) :
    (sender.isDue spec scope).Ensures Event.IsSilent fun _ => True := by
  unfold isDue
  split
  · exact Action.Ensures.pure trivial
  · exact Action.Ensures.bind_inView fun rendered _ _ => decide_silent _ rendered scope

/-- What the condition of a round trip says of whether it is to be run, and that it is if there
is no condition. -/
def answer (spec : RoundTripSpec) (scope : Scope) (journal : Journal) :
    Except RoundTripError Bool :=
  match spec.condition with
  | none => .ok true
  | some condition => do
    let rendered ← (sender.renderer scope journal).condition condition
    (rendered.holds scope sender.engines.conditions).mapError (.condition rendered.expr)

theorem answer_unsent {spec : RoundTripSpec} {scope : Scope} {journal : Journal}
    {e : RoundTripError} (h : sender.answer spec scope journal = .error e) : e.isUnsent = true := by
  unfold answer at h
  split at h
  · cases h
  · rcases bind_error_iff.mp h with hrender | ⟨rendered, -, hholds⟩
    · exact Renderer.condition_unsent hrender
    · cases hanswer : rendered.holds scope sender.engines.conditions with
      | ok b =>
          rw [hanswer] at hholds
          cases hholds
      | error fault =>
          rw [hanswer] at hholds
          cases hholds
          rfl

theorem decide_fst (engine : ConditionEngine) (condition : Condition) (scope : Scope)
    (journal : Journal) : (decide engine condition scope journal).1
      = (condition.holds scope engine).mapError (.condition condition.expr) := by
  unfold decide
  cases condition.notice? scope engine <;> cases condition.holds scope engine <;> rfl

/-- Nothing is noted down about a condition that holds. -/
theorem decide_of_holds {engine : ConditionEngine} {condition : Condition} {scope : Scope}
    (h : condition.holds scope engine = .ok true) (journal : Journal) :
    decide engine condition scope journal = (.ok true, journal) := by
  unfold decide Condition.notice?
  rw [h]
  rfl

theorem isDue_fst (spec : RoundTripSpec) (scope : Scope) (journal : Journal) :
    (sender.isDue spec scope journal).1 = sender.answer spec scope journal := by
  unfold isDue answer
  cases spec.condition with
  | none => rfl
  | some condition =>
      dsimp only
      rw [Action.bind_apply, Action.inView]
      cases (sender.renderer scope journal).condition condition with
      | error e => rfl
      | ok rendered => exact decide_fst _ rendered scope journal

theorem isDue_of_answer {spec : RoundTripSpec} {scope : Scope} {journal : Journal}
    (h : sender.answer spec scope journal = .ok true) :
    sender.isDue spec scope journal = (.ok true, journal) := by
  unfold answer at h
  unfold isDue
  split at h
  · next hnone =>
      rw [hnone]
      rfl
  · next condition hsome =>
      obtain ⟨rendered, hrender, hholds⟩ := bind_ok_iff.mp h
      rw [hsome]
      dsimp only
      rw [Action.bind_apply, Action.inView, hrender]
      exact decide_of_holds (mapError_ok_iff.mp hholds) journal

/-- Whether a round trip is left out is a matter of its condition alone. -/
theorem isDue_of_condition {spec spec' : RoundTripSpec} (h : spec'.condition = spec.condition)
    (scope : Scope) : sender.isDue spec' scope = sender.isDue spec scope := by
  unfold isDue
  rw [h]

theorem exchange_fails (r : RoundTrip) (client : Client) (request : Request)
    (requirement : Requirement) :
    (sender.exchange r client request requirement).Fails fun e => e.isUnsent = false := by
  unfold exchange
  split
  · refine Action.Fails.bind ?_ fun _ _ _ => Action.Fails.ofExcept fun _ _ => rfl
    intro journal e he
    rw [Action.mapError_fst] at he
    cases hsend : (client.send sender.service request journal).1 with
    | ok response =>
        rw [hsend] at he
        cases he
    | error fault =>
        rw [hsend] at he
        cases he
        cases fault with
        | unknownClient name => exact absurd hsend (client.send_ne_unknownClient _ _ _ name)
        | network | timeout | invalidUrl | headerName | headerValue | scheme => rfl
  · intro journal e he
    dsimp only at he
    split at he <;> cases he
    rfl

theorem calls_exchange_once {r : RoundTrip} (h : r.response.eventually = none) (client : Client)
    (request : Request) (requirement : Requirement) (journal : Journal) :
    (sender.exchange r client request requirement journal).2.calls
      = journal.calls ++ [request] := by
  unfold exchange
  rw [h]
  dsimp only
  rw [Action.bind_ofExcept_snd, Action.mapError_snd, Client.calls_send]

/-- However often it is asked, it is the same request, and it is asked at least once. -/
theorem calls_exchange_again {r : RoundTrip} (polling : Polling)
    (h : r.response.eventually = some polling) (client : Client) (request : Request)
    (requirement : Requirement) (journal : Journal) :
    ∃ n, (sender.exchange r client request requirement journal).2.calls
      = journal.calls ++ List.replicate (n + 1) request := by
  have hattempt : ∀ before : Journal,
      (sender.attempt client request requirement before).2.calls = before.calls ++ [request] :=
    fun before => by rw [attempt_snd, Client.calls_send]
  rw [sender.exchange_of_eventually client request requirement h]
  show ∃ n, (Attempts.runFrom _ _ _ _ 0 1 journal).2.calls = _
  refine Attempts.runFrom_ends
    (R := fun a b => ∃ n, b.calls = a.calls ++ List.replicate (n + 1) request) ?_ ?_ _ _ 0 1 journal
  · exact fun before => ⟨0, hattempt before⟩
  · rintro nanos before after ⟨n, hafter⟩
    refine ⟨n + 1, ?_⟩
    rw [hafter]
    show (Journal.wait nanos (sender.attempt client request requirement before).2).calls ++ _ = _
    rw [Journal.calls_wait, hattempt, List.append_assoc, List.singleton_append,
      ← List.replicate_succ]

/-- What a rendered round trip is sent with: its request, what is expected of the response, and
the client; or what it lacks, the first of these that is at fault. -/
def prepared (r : RoundTrip) : Except RoundTripError (Request × Requirement × Client) := do
  let request ← r.toRequest.mapError .incomplete
  let requirement ← (Requirement.ofRoundTrip r sender.engines.regexes).mapError .pattern
  let client ← (sender.clients.find r.client).mapError .send
  return (request, requirement, client)

theorem prepared_unsent {r : RoundTrip} {e : RoundTripError} (h : sender.prepared r = .error e) :
    e.isUnsent = true := by
  unfold prepared at h
  cases hrequest : r.toRequest with
  | error fault =>
      rw [hrequest] at h
      cases h
      rfl
  | ok request =>
      rw [hrequest] at h
      cases hrequirement : Requirement.ofRoundTrip r sender.engines.regexes with
      | error fault =>
          rw [hrequirement] at h
          cases h
          rfl
      | ok requirement =>
          rw [hrequirement] at h
          cases hclient : sender.clients.find r.client with
          | ok client =>
              rw [hclient] at h
              cases h
          | error fault =>
              rw [hclient] at h
              cases h
              unfold Clients.find at hclient
              split at hclient
              · cases hclient
              · split at hclient <;> cases hclient
                rfl

/-- A rendered round trip fails for what it lacks before a client is called, or it is sent. -/
theorem execute_cases (r : RoundTrip) (journal : Journal) :
    (∃ e, sender.prepared r = .error e ∧ (sender.execute r journal).1 = .error e
        ∧ (sender.execute r journal).2.calls = journal.calls)
      ∨ ∃ request requirement client noted,
        sender.prepared r = .ok (request, requirement, client)
        ∧ noted.calls = journal.calls
        ∧ sender.execute r journal = sender.exchange r client request requirement noted := by
  unfold execute prepared
  cases hrequest : r.toRequest with
  | error fault => exact .inl ⟨_, rfl, rfl, rfl⟩
  | ok request =>
      have hnoted : (journal.record
          (.noted .info s!"STEP: {r.description}: {request.display}")).calls = journal.calls := by
        rw [Journal.calls_record]
        exact List.append_nil _
      cases hrequirement : Requirement.ofRoundTrip r sender.engines.regexes with
      | error fault => exact .inl ⟨_, rfl, rfl, hnoted⟩
      | ok requirement =>
          cases hclient : sender.clients.find r.client with
          | error fault => exact .inl ⟨_, rfl, rfl, hnoted⟩
          | ok client => exact .inr ⟨request, requirement, client, _, rfl, hnoted, rfl⟩

/-- A round trip that has been rendered, and what it is sent with. -/
structure ToSend where
  roundTrip : RoundTrip
  request : Request
  requirement : Requirement
  client : Client

/-- What is to be sent in a turn, or why nothing can be. -/
def toSend (spec : RoundTripSpec) (template : RoundTrip) (scope : Scope) (journal : Journal) :
    Except RoundTripError ToSend := do
  let r ← (sender.renderer scope journal).roundTrip spec template
  let (request, requirement, client) ← sender.prepared r
  return ⟨r, request, requirement, client⟩

theorem toSend_of_roundTrip {spec : RoundTripSpec} {template r : RoundTrip} {scope : Scope}
    {journal : Journal} (h : (sender.renderer scope journal).roundTrip spec template = .ok r) :
    sender.toSend spec template scope journal
      = (sender.prepared r).map fun p => ⟨r, p.1, p.2.1, p.2.2⟩ := by
  rw [toSend, h]
  show (sender.prepared r >>= _) = _
  cases sender.prepared r <;> rfl

theorem toSend_unsent {spec : RoundTripSpec} {template : RoundTrip} {scope : Scope}
    {journal : Journal} {e : RoundTripError}
    (h : sender.toSend spec template scope journal = .error e) : e.isUnsent = true := by
  rcases bind_error_iff.mp h with hrender | ⟨r, -, hrest⟩
  · exact Renderer.roundTrip_unsent hrender
  · rcases bind_error_iff.mp hrest with hprepared | ⟨_, -, hlast⟩
    · exact sender.prepared_unsent hprepared
    · cases hlast

/-- All that a turn can do: its condition has no answer, it is left out, there is nothing that
can be sent, or something is sent. -/
inductive Once (spec : RoundTripSpec) (template : RoundTrip) (scope : Scope) (journal : Journal) :
    Except RoundTripError (Option Scope) → Journal → Prop where
  | undecided {e : RoundTripError} {after : Journal}
      (hanswer : sender.answer spec scope journal = .error e)
      (hcalls : after.calls = journal.calls) : Once spec template scope journal (.error e) after
  | leftOut {after : Journal} (hanswer : sender.answer spec scope journal = .ok false)
      (hdue : sender.isDue spec scope journal = (.ok false, after)) :
      Once spec template scope journal (.ok none) after
  | unready {e : RoundTripError} {after : Journal}
      (hanswer : sender.answer spec scope journal = .ok true)
      (hsend : sender.toSend spec template scope journal = .error e)
      (hcalls : after.calls = journal.calls) : Once spec template scope journal (.error e) after
  | sent {send : ToSend} {ready after : Journal} {exchanged : Except RoundTripError Scope}
      {result : Except RoundTripError (Option Scope)}
      (hanswer : sender.answer spec scope journal = .ok true)
      (hsend : sender.toSend spec template scope journal = .ok send)
      (hcalls : ready.calls = journal.calls)
      (hexchange : sender.exchange send.roundTrip send.client send.request send.requirement ready
        = (exchanged, after))
      (hresult : result = exchanged.map some) :
      Once spec template scope journal result after

/-- A turn whose condition holds fails for what cannot be sent, or sends it. -/
theorem runOnce_of_due {spec : RoundTripSpec} {scope : Scope} {journal : Journal}
    (hanswer : sender.answer spec scope journal = .ok true) (template : RoundTrip) :
    sender.Once spec template scope journal (sender.runOnce spec template scope journal).1
      (sender.runOnce spec template scope journal).2 := by
  unfold runOnce
  rw [Action.bind_apply, sender.isDue_of_answer hanswer]
  dsimp only
  rw [if_pos rfl, Action.bind_apply, Action.inView]
  cases hr : (sender.renderer scope journal).roundTrip spec template with
  | error e =>
      refine .unready hanswer ?_ rfl
      rw [toSend, hr]
      rfl
  | ok r =>
      dsimp only
      rw [Action.bind_apply]
      rcases sender.execute_cases r journal with ⟨e, hprepared, hresult, hsilent⟩
        | ⟨request, requirement, client, ready, hprepared, hnoted, hrun⟩
      · rcases hexecute : sender.execute r journal with ⟨result, after⟩
        rw [hexecute] at hresult hsilent
        cases hresult
        refine .unready hanswer ?_ hsilent
        rw [sender.toSend_of_roundTrip hr, hprepared]
        rfl
      · have hsend : sender.toSend spec template scope journal
            = .ok ⟨r, request, requirement, client⟩ := by
          rw [sender.toSend_of_roundTrip hr, hprepared]
          rfl
        rw [hrun]
        rcases hexchange : sender.exchange r client request requirement ready
          with ⟨exchanged, after⟩
        cases exchanged with
        | error e => exact .sent hanswer hsend hnoted hexchange rfl
        | ok defined => exact .sent hanswer hsend hnoted hexchange rfl

theorem runOnce_cases (spec : RoundTripSpec) (template : RoundTrip) (scope : Scope)
    (journal : Journal) :
    sender.Once spec template scope journal (sender.runOnce spec template scope journal).1
      (sender.runOnce spec template scope journal).2 := by
  have hcalls := (sender.isDue_silent spec scope).calls_eq journal
  have hfst := sender.isDue_fst spec scope journal
  cases hanswer : sender.answer spec scope journal with
  | error e =>
      unfold runOnce
      rw [Action.bind_apply]
      rcases hdue : sender.isDue spec scope journal with ⟨due, between⟩
      rw [hdue] at hcalls hfst
      rw [hanswer] at hfst
      cases hfst
      exact .undecided hanswer hcalls
  | ok due =>
      cases due with
      | false =>
          unfold runOnce
          rw [Action.bind_apply]
          rcases hdue : sender.isDue spec scope journal with ⟨due, between⟩
          rw [hdue, hanswer] at hfst
          cases hfst
          exact .leftOut hanswer hdue
      | true => exact sender.runOnce_of_due hanswer template

/-! ## Turns in a row -/

/-- A turn: the number of its iteration, if it is one of a loop, what it came to, and the
journals around it. -/
structure Turn where
  iteration : Option Nat
  before : Journal
  /-- What it defines, or nothing if it was left out. -/
  result : Except RoundTripError (Option Scope)
  after : Journal

variable (spec : RoundTripSpec) (template : RoundTrip) (scope : Scope)

/-- The journal when a turn begins, with the mark of what the turn sees: the variables of the
caller, and in a loop the number of the iteration. -/
def turnBegins (journal : Journal) (iteration : Option Nat) : Journal :=
  journal.record (.sees iteration (scopeAt scope iteration))

/-- Turns for some iterations, in order. Each begins where the one before it has ended, and sees
nothing of what that one has defined. None comes behind one that fails. -/
inductive Turns : List (Option Nat) → Journal → List Turn → Journal → Prop where
  | done (journal : Journal) : Turns [] journal [] journal
  | next (iteration : Option Nat) (rest : List (Option Nat)) (journal between after : Journal)
      (produced : Option Scope) (turns : List Turn)
      (hturn : sender.runOnce spec template (scopeAt scope iteration)
        (turnBegins scope journal iteration) = (.ok produced, between))
      (hrest : Turns rest between turns after) :
      Turns (iteration :: rest) journal
        (⟨iteration, turnBegins scope journal iteration, .ok produced, between⟩ :: turns) after
  | stop (iteration : Option Nat) (rest : List (Option Nat)) (journal after : Journal)
      (e : RoundTripError)
      (hturn : sender.runOnce spec template (scopeAt scope iteration)
        (turnBegins scope journal iteration) = (.error e, after)) :
      Turns (iteration :: rest) journal
        [⟨iteration, turnBegins scope journal iteration, .error e, after⟩] after

/-- What a loop has collected when its iterations have produced this. -/
def collect (collected : Scope) (produced : List (Option Scope)) : Scope :=
  produced.foldl (fun acc p => Scope.mergeSource .combine acc (p.getD (placeholder spec))) collected

/-- What turns that have produced this define together. -/
def together (produced : List (Option Scope)) : Scope :=
  if spec.loop = 0 then produced.head?.join.getD .empty else collect spec .empty produced

variable {sender spec template scope}

/-- Turns are run in order. -/
theorem Turns.order {iterations : List (Option Nat)} {journal after : Journal} {turns : List Turn}
    (h : sender.Turns spec template scope iterations journal turns after) :
    turns.map (·.iteration) <+: iterations := by
  induction h with
  | done journal => exact List.prefix_rfl
  | next iteration rest journal between after produced turns hturn hrest ih =>
      exact List.cons_prefix_cons.mpr ⟨rfl, ih⟩
  | stop iteration rest journal after e hturn =>
      exact List.cons_prefix_cons.mpr ⟨rfl, List.nil_prefix⟩

/-- A turn is a run of the round trip in the scope of its iteration. -/
theorem Turns.own {iterations : List (Option Nat)} {journal after : Journal} {turns : List Turn}
    (h : sender.Turns spec template scope iterations journal turns after) :
    ∀ turn ∈ turns, sender.runOnce spec template (scopeAt scope turn.iteration) turn.before
      = (turn.result, turn.after) := by
  induction h with
  | done journal => exact List.forall_mem_nil _
  | next iteration rest journal between after produced turns hturn hrest ih =>
      exact List.forall_mem_cons.mpr ⟨hturn, ih⟩
  | stop iteration rest journal after e hturn =>
      exact List.forall_mem_singleton.mpr hturn

/-- Only the last turn can have failed. -/
theorem Turns.stops {iterations : List (Option Nat)} {journal after : Journal} {turns : List Turn}
    (h : sender.Turns spec template scope iterations journal turns after) :
    ∀ turn ∈ turns.dropLast, ∃ produced, turn.result = .ok produced := by
  induction h with
  | done journal => exact List.forall_mem_nil _
  | next iteration rest journal between after produced turns hturn hrest ih =>
      cases turns with
      | nil => exact List.forall_mem_nil _
      | cons turn turns => exact List.forall_mem_cons.mpr ⟨⟨produced, rfl⟩, ih⟩
  | stop iteration rest journal after e hturn => exact List.forall_mem_nil _

/-- If no turn fails, then there is one for every iteration. -/
theorem Turns.complete {iterations : List (Option Nat)} {journal after : Journal}
    {turns : List Turn} (h : sender.Turns spec template scope iterations journal turns after)
    {produced : List (Option Scope)} (hproduced : turns.mapM Turn.result = .ok produced) :
    turns.map (·.iteration) = iterations := by
  induction h generalizing produced with
  | done journal => rfl
  | next iteration rest journal between after p turns hturn hrest ih =>
      rw [List.mapM_cons] at hproduced
      obtain ⟨_, -, htail⟩ := bind_ok_iff.mp hproduced
      obtain ⟨others, hothers, -⟩ := bind_ok_iff.mp htail
      rw [List.map_cons, ih hothers]
  | stop iteration rest journal after e hturn =>
      rw [List.mapM_cons] at hproduced
      obtain ⟨_, herror, -⟩ := bind_ok_iff.mp hproduced
      cases herror

/-- A loop collects what its turns produce. -/
theorem runIterations_turns (n i : Nat) (collected : Scope) (journal : Journal) :
    ∃ turns, sender.Turns spec template scope ((List.range' i n).map some) journal turns
        (sender.runIterations spec template scope n i collected journal).2
      ∧ (sender.runIterations spec template scope n i collected journal).1
        = (turns.mapM Turn.result).map (collect spec collected) := by
  induction n generalizing i collected journal with
  | zero => exact ⟨[], .done journal, rfl⟩
  | succ n ih =>
      rw [runIterations, Action.bind_apply]
      dsimp only [Action.record]
      rw [Action.bind_apply, List.range'_succ, List.map_cons]
      rcases hturn : sender.runOnce spec template (iterationScope scope i)
        (turnBegins scope journal (some i)) with ⟨result, between⟩
      have hsame : sender.runOnce spec template (iterationScope scope i)
          (journal.record (.sees (some i) (iterationScope scope i))) = (result, between) := hturn
      rw [hsame]
      cases result with
      | error e => exact ⟨_, .stop (some i) _ journal between e hturn, rfl⟩
      | ok produced =>
          obtain ⟨turns, hturns, hresult⟩ := ih (i + 1)
            (Scope.mergeSource .combine collected (produced.getD (placeholder spec))) between
          refine ⟨_, .next (some i) _ journal between _ produced turns hturn hturns, ?_⟩
          dsimp only
          rw [hresult, List.mapM_cons]
          cases turns.mapM Turn.result <;> rfl

end Sender

/-- The iterations of a round trip; outside a loop it is run once. -/
def RoundTripSpec.iterations (spec : RoundTripSpec) : List (Option Nat) :=
  if spec.loop = 0 then [none] else (List.range spec.loop).map some

namespace Sender

variable {sender : Sender} {spec : RoundTripSpec} {template : RoundTrip} {scope : Scope}

theorem run_turns (sender : Sender) (spec : RoundTripSpec) (template : RoundTrip)
    (scope : Scope) (journal : Journal) :
    ∃ turns, sender.Turns spec template scope spec.iterations journal turns
        (sender.run spec template scope journal).2
      ∧ (sender.run spec template scope journal).1
        = (turns.mapM Turn.result).map (together spec) := by
  unfold run RoundTripSpec.iterations together
  split
  · next hloop =>
      rw [Action.bind_apply]
      dsimp only [Action.sees, Action.record]
      rw [Action.bind_apply]
      rcases hturn : sender.runOnce spec template scope (turnBegins scope journal none)
        with ⟨result, between⟩
      have hsame : sender.runOnce spec template scope (journal.record (.sees none scope))
          = (result, between) := hturn
      rw [hsame]
      cases result with
      | error e => exact ⟨_, .stop none _ journal between e hturn, rfl⟩
      | ok produced =>
          refine ⟨_, .next none _ journal between _ produced [] hturn (.done between), ?_⟩
          dsimp only [List.mapM_cons]
          rfl
  · rw [List.range_eq_range']
    exact runIterations_turns spec.loop 0 .empty journal

/-! ## What turns send -/

/-- What a turn sends, by what its condition says and by what there is to send. -/
structure SendsOnce (sender : Sender) (spec : RoundTripSpec) (template : RoundTrip)
    (scope : Scope) (turn : Turn) : Prop where
  /-- If the condition has no answer, then that is what the turn fails for, and no client was
  called. -/
  undecided : ∀ e, sender.answer spec (scopeAt scope turn.iteration) turn.before = .error e →
    turn.result = .error e ∧ turn.after.calls = turn.before.calls
  /-- A turn is left out exactly if its condition does not hold. -/
  leftOut_iff : turn.result = .ok none
    ↔ sender.answer spec (scopeAt scope turn.iteration) turn.before = .ok false
  /-- If it was left out, then no client was called, and nothing but the condition and its
  arguments was looked at: with any other round trip of this condition it would have been the
  same. -/
  leftOut : turn.result = .ok none → turn.after.calls = turn.before.calls
    ∧ ∀ (spec' : RoundTripSpec) (template' : RoundTrip), spec'.condition = spec.condition →
      sender.runOnce spec' template' (scopeAt scope turn.iteration) turn.before
        = (.ok none, turn.after)
  /-- If the condition holds, or there is none, and yet nothing can be sent, then that is what the
  turn fails for, and no client was called. -/
  unready : sender.answer spec (scopeAt scope turn.iteration) turn.before = .ok true →
    ∀ e, sender.toSend spec template (scopeAt scope turn.iteration) turn.before = .error e →
      turn.result = .error e ∧ turn.after.calls = turn.before.calls
  /-- If something can be sent, then a client was called once for the request that was rendered,
  or, if the round trip asks again, at least once and for this request only. The turn has a
  result, or its error is one that comes of the call. -/
  ready : sender.answer spec (scopeAt scope turn.iteration) turn.before = .ok true →
    ∀ send, sender.toSend spec template (scopeAt scope turn.iteration) turn.before = .ok send →
      (send.roundTrip.response.eventually = none →
        turn.after.calls = turn.before.calls ++ [send.request])
      ∧ (∃ n, turn.after.calls = turn.before.calls ++ List.replicate (n + 1) send.request)
      ∧ ((∃ defined, turn.result = .ok (some defined))
        ∨ ∃ e, turn.result = .error e ∧ e.isUnsent = false)
  /-- So no client was called if the turn failed for what could not be sent, -/
  unsent : ∀ e, turn.result = .error e → e.isUnsent = true → turn.after.calls = turn.before.calls
  /-- and in every other turn that was not left out the condition held, and a client was called for
  the request that was rendered, whatever came of it. -/
  sent : turn.result ≠ .ok none → (∀ e, turn.result = .error e → e.isUnsent = false) →
    sender.answer spec (scopeAt scope turn.iteration) turn.before = .ok true
    ∧ ∃ r request, (sender.renderer (scopeAt scope turn.iteration) turn.before).roundTrip spec
        template = .ok r
      ∧ r.toRequest = .ok request
      ∧ (r.response.eventually = none → turn.after.calls = turn.before.calls ++ [request])
      ∧ ∃ n, turn.after.calls = turn.before.calls ++ List.replicate (n + 1) request

/-- What is to be sent is the rendered round trip, with its request. -/
theorem toSend_ok {journal : Journal} {send : ToSend}
    (h : sender.toSend spec template scope journal = .ok send) :
    (sender.renderer scope journal).roundTrip spec template = .ok send.roundTrip
      ∧ send.roundTrip.toRequest = .ok send.request
      ∧ Requirement.ofRoundTrip send.roundTrip sender.engines.regexes = .ok send.requirement
      ∧ sender.clients.find send.roundTrip.client = .ok send.client := by
  obtain ⟨r, hr, h⟩ := bind_ok_iff.mp h
  obtain ⟨⟨request, requirement, client⟩, hprepared, h⟩ := bind_ok_iff.mp h
  cases h
  obtain ⟨_, hrequest, hprepared⟩ := bind_ok_iff.mp hprepared
  obtain ⟨_, hrequirement, hprepared⟩ := bind_ok_iff.mp hprepared
  obtain ⟨_, hclient, hprepared⟩ := bind_ok_iff.mp hprepared
  cases hprepared
  exact ⟨hr, mapError_ok_iff.mp hrequest, mapError_ok_iff.mp hrequirement,
    mapError_ok_iff.mp hclient⟩

/-- What is exchanged calls the client for the request. -/
theorem exchange_sends {r : RoundTrip} {client : Client} {request : Request}
    {requirement : Requirement} {ready after : Journal} {exchanged : Except RoundTripError Scope}
    (h : sender.exchange r client request requirement ready = (exchanged, after)) :
    (r.response.eventually = none → after.calls = ready.calls ++ [request])
      ∧ ∃ n, after.calls = ready.calls ++ List.replicate (n + 1) request := by
  have honce := fun hplain =>
    sender.calls_exchange_once (r := r) hplain client request requirement ready
  have hagain := fun polling hpolling =>
    sender.calls_exchange_again (r := r) polling hpolling client request requirement ready
  rw [h] at honce hagain
  refine ⟨honce, ?_⟩
  cases hpolling : r.response.eventually with
  | none => exact ⟨0, honce hpolling⟩
  | some polling => exact hagain polling hpolling

namespace SendsOnce

variable {turn : Turn}

theorem of_undecided {e : RoundTripError}
    (hanswer : sender.answer spec (scopeAt scope turn.iteration) turn.before = .error e)
    (hresult : turn.result = .error e) (hcalls : turn.after.calls = turn.before.calls) :
    sender.SendsOnce spec template scope turn := by
  have hnot : ∀ b, sender.answer spec (scopeAt scope turn.iteration) turn.before ≠ .ok b := by
    rw [hanswer]
    exact fun _ => nofun
  have hdone : turn.result ≠ .ok none := by
    rw [hresult]
    nofun
  refine ⟨fun e' he' => ?_, ⟨fun hnone => absurd hnone hdone, fun hfalse => ?_⟩,
    fun hnone => absurd hnone hdone, fun htrue => absurd htrue (hnot true),
    fun htrue => absurd htrue (hnot true), fun _ _ _ => hcalls, fun _ hsent => ?_⟩
  · cases hanswer.symm.trans he'
    exact ⟨hresult, hcalls⟩
  · exact absurd hfalse (hnot false)
  · cases (hsent e hresult).symm.trans (sender.answer_unsent hanswer)

theorem of_leftOut
    (hanswer : sender.answer spec (scopeAt scope turn.iteration) turn.before = .ok false)
    (hdue : sender.isDue spec (scopeAt scope turn.iteration) turn.before
      = (.ok false, turn.after))
    (hresult : turn.result = .ok none) : sender.SendsOnce spec template scope turn := by
  have hcalls := (sender.isDue_silent spec (scopeAt scope turn.iteration)).calls_eq turn.before
  rw [hdue] at hcalls
  have hnot : sender.answer spec (scopeAt scope turn.iteration) turn.before ≠ .ok true := by
    rw [hanswer]
    nofun
  refine ⟨fun e he => ?_, ⟨fun _ => hanswer, fun _ => hresult⟩,
    fun _ => ⟨hcalls, fun spec' template' hcondition => ?_⟩, fun htrue => absurd htrue hnot,
    fun htrue => absurd htrue hnot, fun _ _ _ => hcalls, fun hdone => absurd hresult hdone⟩
  · cases hanswer.symm.trans he
  · unfold runOnce
    rw [Action.bind_apply, sender.isDue_of_condition hcondition]
    rw [hdue]
    rfl

theorem of_unready {e : RoundTripError}
    (hanswer : sender.answer spec (scopeAt scope turn.iteration) turn.before = .ok true)
    (hsend : sender.toSend spec template (scopeAt scope turn.iteration) turn.before = .error e)
    (hresult : turn.result = .error e) (hcalls : turn.after.calls = turn.before.calls) :
    sender.SendsOnce spec template scope turn := by
  have hdone : turn.result ≠ .ok none := by
    rw [hresult]
    nofun
  refine ⟨fun e' he' => ?_, ⟨fun hnone => absurd hnone hdone, fun hfalse => ?_⟩,
    fun hnone => absurd hnone hdone, fun _ e' he' => ?_, fun _ send hready => ?_,
    fun _ _ _ => hcalls, fun _ hsent => ?_⟩
  · cases hanswer.symm.trans he'
  · cases hanswer.symm.trans hfalse
  · cases hsend.symm.trans he'
    exact ⟨hresult, hcalls⟩
  · cases hsend.symm.trans hready
  · cases (hsent e hresult).symm.trans (sender.toSend_unsent hsend)

theorem of_sent {send : ToSend} {ready : Journal} {exchanged : Except RoundTripError Scope}
    (hanswer : sender.answer spec (scopeAt scope turn.iteration) turn.before = .ok true)
    (hsend : sender.toSend spec template (scopeAt scope turn.iteration) turn.before = .ok send)
    (hcalls : ready.calls = turn.before.calls)
    (hexchange : sender.exchange send.roundTrip send.client send.request send.requirement ready
      = (exchanged, turn.after))
    (hresult : turn.result = exchanged.map some) : sender.SendsOnce spec template scope turn := by
  obtain ⟨hrendered, hrequest, -, -⟩ := toSend_ok hsend
  have hcalled := exchange_sends hexchange
  rw [hcalls] at hcalled
  have hended : (∃ defined, turn.result = .ok (some defined))
      ∨ ∃ e, turn.result = .error e ∧ e.isUnsent = false := by
    have hfails := sender.exchange_fails send.roundTrip send.client send.request send.requirement
      ready
    rw [hexchange] at hfails
    cases exchanged with
    | ok defined => exact .inl ⟨defined, hresult⟩
    | error e => exact .inr ⟨e, hresult, hfails e rfl⟩
  have hdone : turn.result ≠ .ok none := by
    rcases hended with ⟨defined, h⟩ | ⟨e, h, -⟩ <;> rw [h] <;> nofun
  refine ⟨fun e he => ?_, ⟨fun hnone => absurd hnone hdone, fun hfalse => ?_⟩,
    fun hnone => absurd hnone hdone, fun _ e he => ?_, fun _ send' hready => ?_,
    fun e he hunsent => ?_,
    fun _ _ => ⟨hanswer, send.roundTrip, send.request, hrendered, hrequest, hcalled⟩⟩
  · cases hanswer.symm.trans he
  · cases hanswer.symm.trans hfalse
  · cases hsend.symm.trans he
  · cases hsend.symm.trans hready
    exact ⟨hcalled.1, hcalled.2, hended⟩
  · rcases hended with ⟨defined, hok⟩ | ⟨e', he', hsent⟩
    · cases he.symm.trans hok
    · cases he.symm.trans he'
      cases hsent.symm.trans hunsent

end SendsOnce

theorem sendsOnce_of_runOnce {turn : Turn}
    (h : sender.runOnce spec template (scopeAt scope turn.iteration) turn.before
      = (turn.result, turn.after)) : sender.SendsOnce spec template scope turn := by
  have hcases := sender.runOnce_cases spec template (scopeAt scope turn.iteration) turn.before
  rw [h] at hcases
  obtain ⟨iteration, before, result, after⟩ := turn
  cases hcases with
  | undecided hanswer hcalls => exact .of_undecided hanswer rfl hcalls
  | leftOut hanswer hdue => exact .of_leftOut hanswer hdue rfl
  | unready hanswer hsend hcalls => exact .of_unready hanswer hsend rfl hcalls
  | sent hanswer hsend hcalls hexchange hresult =>
      exact .of_sent hanswer hsend hcalls hexchange hresult

/-- A round trip as its turns. -/
structure InTurns (sender : Sender) (spec : RoundTripSpec) (template : RoundTrip)
    (scope : Scope) (journal : Journal) (turns : List Turn) (result : Except RoundTripError Scope)
    (after : Journal) : Prop where
  /-- Each turn begins where the one before it has ended. -/
  chained : sender.Turns spec template scope spec.iterations journal turns after
  /-- There is one turn, or in a loop one for each iteration, in order, -/
  order : turns.map (·.iteration) <+: spec.iterations
  /-- up to the first that fails. -/
  stops : ∀ turn ∈ turns.dropLast, ∃ produced, turn.result = .ok produced
  /-- The error of a turn is that of the round trip; else what the turns define is put
  together. -/
  comesTo : result = (turns.mapM Turn.result).map (together spec)
  /-- A round trip that has a result made all its turns. -/
  complete : ∀ defined, result = .ok defined → turns.map (·.iteration) = spec.iterations
  /-- A turn sees what the caller has defined and in a loop the number of the iteration; what
  another turn defines it does not see. -/
  own : ∀ turn ∈ turns, sender.runOnce spec template (scopeAt scope turn.iteration) turn.before
    = (turn.result, turn.after)
  /-- It sends what is to be sent once. -/
  sends : ∀ turn ∈ turns, sender.SendsOnce spec template scope turn

theorem exists_inTurns (sender : Sender) (spec : RoundTripSpec) (template : RoundTrip)
    (scope : Scope) (journal : Journal) :
    ∃ turns, sender.InTurns spec template scope journal turns
      (sender.run spec template scope journal).1 (sender.run spec template scope journal).2 := by
  obtain ⟨turns, hturns, hresult⟩ := sender.run_turns spec template scope journal
  refine ⟨turns, hturns, hturns.order, hturns.stops, hresult, fun defined hdefined => ?_,
    hturns.own, fun turn hmem => sendsOnce_of_runOnce (hturns.own turn hmem)⟩
  rw [hresult] at hdefined
  obtain ⟨produced, hproduced, -⟩ := map_ok_iff.mp hdefined
  exact hturns.complete hproduced

/-- A round trip is run in turns, of which none sees what another one defines and none comes
behind an error. A turn is left out exactly if its condition does not hold. One that is left out
or fails for what cannot be sent calls no client, and any other calls one once unless it is to
ask again. -/
theorem runs_in_turns (sender : Sender) (spec : RoundTripSpec) (template : RoundTrip)
    (scope : Scope) (journal : Journal) :
    ∃ turns, sender.InTurns spec template scope journal turns
      (sender.run spec template scope journal).1 (sender.run spec template scope journal).2 :=
  sender.exists_inTurns spec template scope journal

end Sender

end HttpSuite
