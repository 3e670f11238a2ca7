import HttpSuite.Proofs.Suite.InPlace
import HttpSuite.Proofs.Template.Select

/-!
# One suite for a session

A session makes its suite when it is first needed, asks it, and keeps what came of that. None of
this shows: whatever a session is asked, in whatever order, and whatever of it fails, it answers
as one suite does that was made when the session was last configured, or when it was first
needed since it was last reset, and that was given what succeeded since then.

The proof keeps a ledger. It has what the suite was made of and what was given to it since, and
nothing of the suite itself. The invariant is that a suite made again from the ledger is the one
of the session: one call keeps that, `suite_record`, and so does any number, `suite_ofCalls`.

That what fails leaves the suite as it was is said of programs that change it in place, where it
might be otherwise: `Method.act` and `Call.act` are what is done, and `Call.outcome_act` that it
comes to what is asked.
-/

namespace HttpSuite

/-! ## Suites that grow -/

/-- Whether a suite has all that another one has, under the same names and in the same order. -/
structure Suite.Keeps (old new : Suite) : Prop where
  settings : new.settings = old.settings
  vars : ∀ name value, old.vars.get? name = some value → new.vars.get? name = some value
  folders : old.folders <+: new.folders
  presetters : ∀ name presetter,
    old.presetters.get? name = some presetter → new.presetters.get? name = some presetter
  cleaners : ∀ name cleaner,
    old.cleaners.get? name = some cleaner → new.cleaners.get? name = some cleaner
  usual : new.clients.usual = old.clients.usual
  clients : ∀ name client,
    old.clients.named.get? name = some client → new.clients.named.get? name = some client
  functions : ∀ name function,
    old.functions.functions.get? name = some function →
      new.functions.functions.get? name = some function
  engines : new.engines = old.engines

namespace Suite.Keeps

variable {old middle new : Suite}

theorem refl (suite : Suite) : suite.Keeps suite where
  settings := rfl
  vars _ _ h := h
  folders := List.prefix_rfl
  presetters _ _ h := h
  cleaners _ _ h := h
  usual := rfl
  clients _ _ h := h
  functions _ _ h := h
  engines := rfl

theorem trans (h : old.Keeps middle) (h' : middle.Keeps new) : old.Keeps new where
  settings := h'.settings.trans h.settings
  vars _ _ hget := h'.vars _ _ (h.vars _ _ hget)
  folders := h.folders.trans h'.folders
  presetters _ _ hget := h'.presetters _ _ (h.presetters _ _ hget)
  cleaners _ _ hget := h'.cleaners _ _ (h.cleaners _ _ hget)
  usual := h'.usual.trans h.usual
  clients _ _ hget := h'.clients _ _ (h.clients _ _ hget)
  functions _ _ hget := h'.functions _ _ (h.functions _ _ hget)
  engines := h'.engines.trans h.engines

end Suite.Keeps

/-! ## What a suite is asked -/

/-- What a suite can be given. -/
inductive Gift where
  | binding (name : String) (value : Value)
  | folders (paths : List String)
  | presetter (name : String) (presetter : Presetter)
  | cleaner (name : String) (cleaner : Cleaner)
  | client (name : String) (client : Client)
  | function (name : String) (function : Callable)

namespace Gift

/-- The suite that was given something, unless it refuses. -/
def giveTo (suite : Suite) : Gift → Except SuiteError Suite
  | binding name value => suite.setVariable name value
  | folders paths => .ok (suite.addFolders paths)
  | presetter name added => suite.registerPresetter name added
  | cleaner name added => suite.registerCleaner name added
  | client name added => suite.registerClient name added
  | function name added => suite.registerFunction name added

/-- The method of a suite that it is given to by. -/
def put : Gift → InPlace Suite Unit
  | binding name value => Suite.setVariableInPlace name value
  | folders paths => Suite.addFoldersInPlace paths
  | presetter name added => Suite.registerPresetterInPlace name added
  | cleaner name added => Suite.registerCleanerInPlace name added
  | client name added => Suite.registerClientInPlace name added
  | function name added => Suite.registerFunctionInPlace name added

/-- Whether a suite has what it was given. -/
def IsIn (suite : Suite) : Gift → Prop
  | binding name value => suite.vars.get? name = some value
  | folders paths => paths <:+: suite.folders
  | presetter name added => suite.presetters.get? name = some added
  | cleaner name added => suite.cleaners.get? name = some added
  | client name added => suite.clients.named.get? name = some added
  | function name added => suite.functions.functions.get? name = some added

variable {gift : Gift} {suite changed : Suite}

/-- The method leaves the suite that was given something, or the one that refuses it. -/
theorem outcome_put (gift : Gift) (suite : Suite) (journal : Journal) :
    gift.put.outcome suite journal = suite.leaving journal (gift.giveTo suite) := by
  cases gift with
  | binding name value =>
      rw [put, Suite.setVariableInPlace, Suite.outcome_changeUnless]
      rfl
  | folders paths => rfl
  | presetter name added =>
      rw [put, Suite.registerPresetterInPlace, Suite.outcome_changeUnless]
      rfl
  | cleaner name added =>
      rw [put, Suite.registerCleanerInPlace, Suite.outcome_changeUnless]
      rfl
  | client name added =>
      rw [put, Suite.registerClientInPlace, Suite.outcome_changeUnless, giveTo,
        Suite.registerClient_eq]
  | function name added =>
      rw [put, Suite.registerFunctionInPlace, Suite.outcome_changeUnless, giveTo,
        Suite.registerFunction_eq]

/-- What is given unless a name is taken is given where it is free. -/
theorem ok_of_unless {taken : Bool} {fault : SuiteError} {given : Suite}
    (h : (if taken then .error fault else .ok given) = (.ok changed : Except SuiteError Suite)) :
    ¬ taken = true ∧ given = changed := by
  split at h
  · cases h
  · next hfree => exact ⟨hfree, Except.ok.inj h⟩

/-- A suite that is given something keeps what it has, and has what it was given. -/
theorem giveTo_ok (h : gift.giveTo suite = .ok changed) :
    suite.Keeps changed ∧ gift.IsIn changed := by
  cases gift with
  | binding name value =>
      obtain ⟨hfree, rfl⟩ := ok_of_unless h
      exact ⟨{ Suite.Keeps.refl suite with
        vars := fun _ _ hget => OrderedMap.get?_insert_of_free hfree hget },
        OrderedMap.get?_insert_self ..⟩
  | folders paths =>
      cases h
      exact ⟨{ Suite.Keeps.refl suite with folders := List.prefix_append _ _ },
        (List.suffix_append _ _).isInfix⟩
  | presetter name added =>
      obtain ⟨hfree, rfl⟩ := ok_of_unless h
      exact ⟨{ Suite.Keeps.refl suite with
        presetters := fun _ _ hget => OrderedMap.get?_insert_of_free hfree hget },
        OrderedMap.get?_insert_self ..⟩
  | cleaner name added =>
      obtain ⟨hfree, rfl⟩ := ok_of_unless h
      exact ⟨{ Suite.Keeps.refl suite with
        cleaners := fun _ _ hget => OrderedMap.get?_insert_of_free hfree hget },
        OrderedMap.get?_insert_self ..⟩
  | client name added =>
      obtain ⟨hfree, rfl⟩ := ok_of_unless ((suite.registerClient_eq name added).symm.trans h)
      exact ⟨{ Suite.Keeps.refl suite with
        clients := fun _ _ hget => OrderedMap.get?_insert_of_free hfree hget },
        OrderedMap.get?_insert_self ..⟩
  | function name added =>
      obtain ⟨hfree, rfl⟩ := ok_of_unless ((suite.registerFunction_eq name added).symm.trans h)
      exact ⟨{ Suite.Keeps.refl suite with
        functions := fun _ _ hget => OrderedMap.get?_insert_of_free hfree hget },
        OrderedMap.get?_insert_self ..⟩

/-- What a suite was given stays in it. -/
theorem IsIn.mono {old new : Suite} (h : gift.IsIn old) (hkeeps : old.Keeps new) :
    gift.IsIn new := by
  cases gift with
  | binding name value => exact hkeeps.vars _ _ h
  | folders paths => exact h.trans hkeeps.folders.isInfix
  | presetter name added => exact hkeeps.presetters _ _ h
  | cleaner name added => exact hkeeps.cleaners _ _ h
  | client name added => exact hkeeps.clients _ _ h
  | function name added => exact hkeeps.functions _ _ h

/-- A suite that is given several things, one after another. -/
theorem giveAll_ok {gifts : List Gift} (h : gifts.foldlM giveTo suite = .ok changed) :
    suite.Keeps changed ∧ ∀ gift ∈ gifts, gift.IsIn changed := by
  induction gifts generalizing suite with
  | nil =>
      cases h
      exact ⟨Suite.Keeps.refl _, nofun⟩
  | cons gift rest ih =>
      rw [List.foldlM_cons] at h
      cases hgive : gift.giveTo suite with
      | error e =>
          rw [hgive] at h
          cases h
      | ok middle =>
          rw [hgive] at h
          obtain ⟨hkeeps, hin⟩ := giveTo_ok hgive
          obtain ⟨hrest, hall⟩ := ih h
          refine ⟨hkeeps.trans hrest, fun other hmem => ?_⟩
          rcases List.mem_cons.mp hmem with rfl | hmem
          · exact hin.mono hrest
          · exact hall other hmem

end Gift

namespace Session

/-- What is answered: an error, or for a run its report. -/
abbrev Answer := Except SuiteError (Option Report)

/-- What is asked of the suite of a session. -/
inductive Method where
  | give (gift : Gift)
  | run (files : FileTree) (service : Service)

/-- What is asked of a session. -/
inductive Call where
  | configure (chance : Chance) (settings : Settings)
  | reset
  | method (method : Method)

/-- What a suite answers, what it is from then on, and what happens. -/
def Method.on (suite : Suite) (journal : Journal) : Method → Answer × Suite × Journal
  | give gift =>
    match gift.giveTo suite with
    | .error e => (.error e, suite, journal)
    | .ok changed => (.ok none, changed, journal)
  | run files service =>
    ((suite.run files service journal).1.map some, suite, (suite.run files service journal).2)

/-- What is done to a suite in place. -/
def Method.act : Method → InPlace Suite (Option Report)
  | give gift => do
    gift.put
    pure none
  | run files service => do
    let report ← Suite.runInPlace files service
    pure (some report)

/-- What a session answers, what it is from then on, and what happens. -/
def Call.ask (around : Surroundings) (engines : Engines) (session : Session)
    (journal : Journal) : Call → Answer × Session × Journal
  | configure chance settings =>
    let (result, session) := session.configure chance settings engines
    (result.map fun _ => none, session, journal)
  | reset => (.ok none, session.reset, journal)
  | method (.give gift) =>
    let (result, session) := session.update around gift.giveTo engines
    (result.map fun _ => none, session, journal)
  | method (.run files service) =>
    let (result, session, journal) := session.run around files service journal engines
    (result.map some, session, journal)

/-- What is done to a session in place. -/
def Call.act (around : Surroundings) (engines : Engines) : Call → InPlace Session (Option Report)
  | configure chance settings => do
    configureInPlace chance settings engines
    pure none
  | reset => do
    resetInPlace
    pure none
  | method asked => lend around engines asked.act

/-! ## What a session was asked -/

/-- What a session was asked and answered, what it is now, and what happened. -/
structure Past where
  trace : List (Call × Answer) := []
  session : Session := none
  journal : Journal

namespace Past

/-- One more call. -/
def ask (around : Surroundings) (engines : Engines) (past : Past) (call : Call) : Past :=
  let (answer, session, journal) := call.ask around engines past.session past.journal
  ⟨past.trace ++ [(call, answer)], session, journal⟩

/-- A session that is asked one thing after another. -/
def ofCalls (around : Surroundings) (engines : Engines) (journal : Journal)
    (calls : List Call) : Past :=
  calls.foldl (ask around engines) { journal := journal }

end Past

/-- What a suite was made of, and what it was given since. -/
structure Ledger where
  chance : Chance
  settings : Settings
  given : List Gift := []

namespace Ledger

/-- The ledger of a suite that is made when it is first needed. -/
def start (around : Surroundings) : Ledger := ⟨around.chance, usualSettings around, []⟩

/-- What a call and its answer mean for the ledger. What failed is not in it. -/
def record (around : Surroundings) (ledger : Ledger) : Call × Answer → Ledger
  | (_, .error _) => ledger
  | (.configure chance settings, .ok _) => ⟨chance, settings, []⟩
  | (.reset, .ok _) => start around
  | (.method (.give gift), .ok _) => { ledger with given := ledger.given ++ [gift] }
  | (.method (.run _ _), .ok _) => ledger

/-- The ledger of all that was asked and answered. -/
def ofTrace (around : Surroundings) (trace : List (Call × Answer)) : Ledger :=
  trace.foldl (record around) (start around)

/-- The suite that is made again from a ledger. -/
def suite (ledger : Ledger) (engines : Engines) : Except SuiteError Suite :=
  match Suite.create ledger.chance ledger.settings engines with
  | .error e => .error e
  | .ok fresh => ledger.given.foldlM Gift.giveTo fresh

end Ledger

variable {around : Surroundings} {engines : Engines} {session : Session} {suite : Suite}

/-- A suite can be made of the usual settings, whatever the labels of the surroundings. -/
theorem suite_none (around : Surroundings) (engines : Engines) :
    ∃ suite, (Ledger.start around).suite engines = .ok suite
      ∧ Session.suite none around engines = .ok suite := by
  have hfault : (usualSettings around).fault? = none := by
    have htrim : (Text.trim "_context.yaml").isEmpty = false := by decide +kernel
    rw [usualSettings, Settings.withLabels, Settings.fault?, htrim]
    rfl
  have hcreate : Suite.create around.chance (usualSettings around) engines
      = .ok
        { settings := usualSettings around
          presetters := Presetter.builtins
          clients := { usual := (usualSettings around).client }
          functions := .builtins around.chance engines.samples
          engines := engines } := by
    rw [Suite.create, hfault]
  refine ⟨_, ?_, hcreate⟩
  rw [Ledger.suite, Ledger.start, hcreate]
  rfl

/-- A session that has a suite, or could make one, hands on to it what it is asked. -/
theorem ask_method (h : session.suite around engines = .ok suite) (journal : Journal)
    (method : Method) :
    (Call.method method).ask around engines session journal
      = ((method.on suite journal).1, some (method.on suite journal).2.1,
          (method.on suite journal).2.2) := by
  cases method with
  | give gift =>
      simp only [Call.ask, Session.update, h, Method.on]
      cases gift.giveTo suite <;> rfl
  | run files service =>
      simp only [Call.ask, Session.run, h, Method.on]
      cases suite.run files service journal
      rfl

theorem ask_configure (session : Session) (journal : Journal) (chance : Chance)
    (settings : Settings) :
    (Call.configure chance settings).ask around engines session journal
      = match Suite.create chance settings engines with
        | .error e => (.error e, session, journal)
        | .ok fresh => (.ok none, some fresh, journal) := by
  rw [Call.ask, Session.configure]
  cases Suite.create chance settings engines <;> rfl

/-- A call that fails leaves the suite of a session as it is. -/
theorem suite_ask_error (h : session.suite around engines = .ok suite) {journal : Journal}
    {call : Call} {e : SuiteError}
    (herror : (call.ask around engines session journal).1 = .error e) :
    (call.ask around engines session journal).2.1.suite around engines = .ok suite := by
  cases call with
  | configure chance settings =>
      rw [ask_configure] at herror ⊢
      cases hcreate : Suite.create chance settings engines with
      | error e => exact h
      | ok fresh =>
          rw [hcreate] at herror
          cases herror
  | reset => cases herror
  | method method =>
      rw [ask_method h] at herror ⊢
      cases method with
      | give gift =>
          rw [Method.on] at herror ⊢
          cases hgive : gift.giveTo suite with
          | error e => rfl
          | ok changed =>
              rw [hgive] at herror
              cases herror
      | run files service => rfl

/-- The suite of a ledger that something was given to. -/
theorem Ledger.suite_give {ledger : Ledger} (h : ledger.suite engines = .ok suite) (gift : Gift) :
    { ledger with given := ledger.given ++ [gift] : Ledger }.suite engines = gift.giveTo suite := by
  rw [Ledger.suite] at h ⊢
  cases hcreate : Suite.create ledger.chance ledger.settings engines with
  | error e =>
      rw [hcreate] at h
      cases h
  | ok fresh =>
      rw [hcreate] at h
      dsimp only at h ⊢
      rw [List.foldlM_append, h]
      change [gift].foldlM Gift.giveTo suite = gift.giveTo suite
      rw [List.foldlM_cons]
      cases gift.giveTo suite <;> rfl

/-- One call keeps the suite of the session the one of the ledger. -/
theorem suite_record {ledger : Ledger} (hledger : ledger.suite engines = .ok suite)
    (h : session.suite around engines = .ok suite) (journal : Journal) (call : Call) :
    ∃ changed,
      (ledger.record around (call, (call.ask around engines session journal).1)).suite engines
        = .ok changed
      ∧ (call.ask around engines session journal).2.1.suite around engines = .ok changed := by
  cases hanswer : (call.ask around engines session journal).1 with
  | error e => exact ⟨suite, hledger, suite_ask_error h hanswer⟩
  | ok report =>
      cases call with
      | configure chance settings =>
          rw [ask_configure] at hanswer ⊢
          cases hcreate : Suite.create chance settings engines with
          | error e =>
              rw [hcreate] at hanswer
              cases hanswer
          | ok fresh =>
              refine ⟨fresh, ?_, rfl⟩
              rw [Ledger.record, Ledger.suite, hcreate]
              rfl
      | reset => exact suite_none around engines
      | method method =>
          rw [ask_method h] at hanswer ⊢
          cases method with
          | give gift =>
              rw [Method.on] at hanswer ⊢
              cases hgive : gift.giveTo suite with
              | error e =>
                  rw [hgive] at hanswer
                  cases hanswer
              | ok changed => exact ⟨changed, (Ledger.suite_give hledger gift).trans hgive, rfl⟩
          | run files service => exact ⟨suite, hledger, rfl⟩

/-- However it came to be, the suite of a session is the one of the ledger. -/
theorem suite_ofCalls (around : Surroundings) (engines : Engines) (journal : Journal)
    (calls : List Call) :
    ∃ suite, (Ledger.ofTrace around (Past.ofCalls around engines journal calls).trace).suite engines
        = .ok suite
      ∧ (Past.ofCalls around engines journal calls).session.suite around engines = .ok suite := by
  induction calls using List.reverseRecOn with
  | nil => exact suite_none around engines
  | append_singleton calls call ih =>
      obtain ⟨suite, hledger, h⟩ := ih
      rw [Past.ofCalls, List.foldl_append]
      dsimp only [List.foldl_cons, List.foldl_nil]
      rw [← Past.ofCalls, Past.ask, Ledger.ofTrace, List.foldl_append]
      exact suite_record hledger h _ call

/-! ## What is done in place -/

/-- What is done to a suite in place is what is asked of it. -/
theorem Method.outcome_act (method : Method) (suite : Suite) (journal : Journal) :
    method.act.outcome suite journal = method.on suite journal := by
  cases method with
  | give gift =>
      rw [Method.act, InPlace.outcome_bind_pure, Gift.outcome_put, Method.on]
      cases gift.giveTo suite <;> rfl
  | run files service =>
      rw [Method.act, InPlace.outcome_bind_pure, Suite.outcome_runInPlace]
      rfl

/-- A method that fails has done nothing to the suite, in place either. -/
theorem Method.eq_of_act_error {method : Method} {left : Suite} {journal after : Journal}
    {e : SuiteError} (h : method.act.run (suite, journal) = .error e (left, after)) :
    left = suite := by
  rw [← InPlace.outcome_eq_error_iff, outcome_act] at h
  cases method with
  | give gift =>
      rw [Method.on] at h
      cases hgive : gift.giveTo suite with
      | error e' =>
          rw [hgive] at h
          cases h
          rfl
      | ok changed =>
          rw [hgive] at h
          cases h
  | run files service => exact (congrArg (fun outcome => outcome.2.1) h).symm

/-- What is done to a session in place is what is asked of it. -/
theorem Call.outcome_act (h : session.suite around engines = .ok suite) (journal : Journal)
    (call : Call) :
    (call.act around engines).outcome session journal
      = call.ask around engines session journal := by
  cases call with
  | configure chance settings =>
      rw [Call.act, InPlace.outcome_bind_pure, outcome_configureInPlace]
      rfl
  | reset => rfl
  | method method => rw [Call.act, outcome_lend h, method.outcome_act, ask_method h]

/-- How a session stands to the suite that its past tells of. -/
structure Serves (around : Surroundings) (engines : Engines) (past : Past) (suite : Suite) :
    Prop where
  /-- The suite is the one of the ledger: it was made by the last `configure` that succeeded, or
  of the usual settings since the last `reset`, and was given what succeeded since, in order. -/
  made : (Ledger.ofTrace around past.trace).suite engines = .ok suite
  /-- It is the suite that the session has, or that it makes as soon as it is needed. -/
  there : past.session.suite around engines = .ok suite
  /-- What is asked of the session is asked of the suite. -/
  asked : ∀ method, (Call.method method).ask around engines past.session past.journal
    = ((method.on suite past.journal).1, some (method.on suite past.journal).2.1,
        (method.on suite past.journal).2.2)
  /-- The session is configured whenever a suite can be made, and only then. -/
  configured : ∀ chance settings,
    ((Call.configure chance settings).ask around engines past.session past.journal).1
      = (Suite.create chance settings engines).map fun _ => none
  /-- What fails leaves the suite as it is. -/
  left : ∀ (call : Call) e, (call.ask around engines past.session past.journal).1 = .error e →
    (call.ask around engines past.session past.journal).2.1.suite around engines = .ok suite
  /-- What the session does in place, with a suite that it lends to a method, is what it is
  asked, -/
  acts : ∀ call : Call, (call.act around engines).outcome past.session past.journal
    = call.ask around engines past.session past.journal
  /-- and so is what a method does to the suite in place. -/
  methodActs : ∀ method : Method,
    method.act.outcome suite past.journal = method.on suite past.journal
  /-- A method that fails in place has left the suite as it was, -/
  untouched : ∀ (method : Method) e changed after,
    method.act.run (suite, past.journal) = .error e (changed, after) → changed = suite
  /-- and so has the session. -/
  leftInPlace : ∀ (call : Call) e session after,
    (call.act around engines).run (past.session, past.journal) = .error e (session, after) →
      session.suite around engines = .ok suite
  /-- What the suite had when it was made is still there, under the same names. -/
  kept : ∃ fresh, Suite.create (Ledger.ofTrace around past.trace).chance
      (Ledger.ofTrace around past.trace).settings engines = .ok fresh ∧ fresh.Keeps suite
  /-- So is all that it was given since. -/
  given : ∀ gift ∈ (Ledger.ofTrace around past.trace).given, gift.IsIn suite

/-- Whatever a session was asked, it answers as one suite. -/
theorem acts_on_one_suite (around : Surroundings) (engines : Engines) (journal : Journal)
    (calls : List Call) :
    ∃ suite, Serves around engines (Past.ofCalls around engines journal calls) suite := by
  obtain ⟨suite, hledger, h⟩ := suite_ofCalls around engines journal calls
  generalize Past.ofCalls around engines journal calls = past at hledger h ⊢
  have hmade := hledger
  rw [Ledger.suite] at hmade
  cases hcreate : Suite.create (Ledger.ofTrace around past.trace).chance
      (Ledger.ofTrace around past.trace).settings engines with
  | error e =>
      rw [hcreate] at hmade
      cases hmade
  | ok fresh =>
      rw [hcreate] at hmade
      obtain ⟨hkeeps, hgiven⟩ := Gift.giveAll_ok hmade
      refine ⟨suite, hledger, h, ask_method h _, fun chance settings => ?_,
        fun _ _ => suite_ask_error h, Call.outcome_act h _, fun method => method.outcome_act _ _,
        fun _ _ _ _ => Method.eq_of_act_error, fun call e session after hrun => ?_,
        ⟨fresh, hcreate, hkeeps⟩, hgiven⟩
      · rw [ask_configure]
        cases Suite.create chance settings engines <;> rfl
      · rw [← InPlace.outcome_eq_error_iff, Call.outcome_act h] at hrun
        have hleft := suite_ask_error h (congrArg Prod.fst hrun)
        rwa [hrun] at hleft

/-- A variable is refused the second time, and taken again after a reset. -/
example :
    let host := Call.method (.give (.binding "host" (.string "localhost")))
    ((Past.ofCalls ⟨⟨0, 0⟩, none, none⟩ .builtin {} [host, host, .reset, host]).trace.map
      fun entry => entry.2.isOk) = [true, false, true, true] := by
  decide +kernel

end Session

end HttpSuite
