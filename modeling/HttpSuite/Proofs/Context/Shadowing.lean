import HttpSuite.Proofs.Context.Kept
import HttpSuite.Proofs.Suite.Execution

/-!
# No variable is shadowed along a path

A variable that was handed down has one value all the way inside. An activation keeps what
its parent hands it and adds what it exports, so the invariant `Scope.KeptBy` goes from
context to context along the path. The marks in the journal show which scopes were used
in between, so that all of them are spoken of at once. The number of an iteration is the one
variable that a loop may put in front of another.

Neither what a context remembers nor what it exports is ever refused, whatever has happened
to it: it remembers the names that it exports, and these were compared with those from
further out in the beginning.
-/

namespace HttpSuite

namespace Setup

variable (setup : Setup)

/-- The scope that a successful activation hands down has the names from further out and
then those that are exported. -/
theorem keys_activation {node : ContextNode} {memory : ContextMemory} {parent : ActiveContext}
    {journal after : Journal} {a : Activation}
    (h : setup.activation node memory parent journal = (.ok a, after)) :
    a.active.scope.materialize.keys
      = parent.scope.materialize.keys ++ exportNames node.spec.exports := by
  obtain ⟨_, _, _, _, _, _, hsteps⟩ := activation_eq_ok h
  obtain ⟨hnew, hpushed⟩ := materialize_push_ok hsteps.pushed
  rw [hpushed, OrderedMap.keys_extend_of_disjoint hnew, keys_exportAll hsteps.exported]

/-- What a context remembers can be added wherever it may export. -/
theorem merge_remembered {node : ContextNode} {memory : ContextMemory}
    (h : node.Reachable setup memory) {outside : Scope}
    (hnew : ∀ e ∈ node.spec.exports, e.name ∉ outside.keys) :
    outside.merge .conflict [memory.exports] = .ok (outside.extend memory.exports) := by
  refine Scope.merge_conflict_ok_iff.mpr ⟨?_, rfl⟩
  intro name hname
  rcases h.keys_exports with hkeys | hkeys
  · rw [hkeys] at hname
    cases hname
  · rw [hkeys] at hname
    obtain ⟨e, he, rfl⟩ := mem_exportNames.mp hname
    exact hnew e he

/-- What is exported can be pushed wherever the context may export. -/
theorem push_exports {node : ContextNode} {parent : ScopeChain} {vars exports : Scope}
    (hnew : ∀ e ∈ node.spec.exports, e.name ∉ parent.materialize.keys)
    (h : setup.exportAll vars node.spec.exports .empty = .ok exports) :
    parent.push exports = .ok ⟨exports :: parent.frames⟩ := by
  refine ScopeChain.push_ok_iff.mpr ⟨?_, rfl⟩
  intro name hname
  rw [keys_exportAll h] at hname
  obtain ⟨e, he, rfl⟩ := mem_exportNames.mp hname
  exact hnew e he

end Setup

/-! ## Paths -/

namespace Plan

variable (plan : Plan) (setup : Setup)

/-- What the contexts of a plan remember is something that they can. -/
def Remembers (memories : List ContextMemory) : Prop :=
  ∀ number, (plan.nodes.getD number default).Reachable setup (memoryOf memories number)

variable {plan setup}

theorem Remembers.set {memories : List ContextMemory} (h : plan.Remembers setup memories)
    {number : Nat} {memory : ContextMemory}
    (hmemory : (plan.nodes.getD number default).Reachable setup memory) :
    plan.Remembers setup (memories.set number memory) := by
  intro other
  rw [memoryOf_set]
  split
  · next hother =>
      rw [← hother.1]
      exact hmemory
  · exact h other

theorem remembers_start (journal : Journal) :
    plan.Remembers setup (plan.start journal).memories := by
  intro number
  rw [memoryOf_start]
  exact ContextNode.Reachable.start

theorem Remembers.activate {progress : Progress} (h : plan.Remembers setup progress.memories)
    (number : Nat) (parent : ActiveContext) :
    plan.Remembers setup (plan.activate setup number parent progress).2.memories := by
  have hset := h.set ((h number).activate parent (progress.record (.activating number)).journal)
  unfold Plan.activate
  dsimp only
  split <;> exact hset

theorem Remembers.activatePath {progress : Progress}
    (h : plan.Remembers setup progress.memories) (path : List Nat) (active : ActiveContext) :
    plan.Remembers setup (plan.activatePath setup path active progress).2.2.memories := by
  induction path generalizing active progress with
  | nil => exact h
  | cons number rest ih =>
      have hnext := h.activate number active
      rw [Plan.activatePath]
      split
      · next e after hrun =>
          rw [hrun] at hnext
          exact hnext
      · next inner after hrun =>
          rw [hrun] at hnext
          exact ih hnext inner

theorem kept_root (env : Scope) : env.KeptBy (ActiveContext.root env).scope.materialize := by
  intro name v hv
  rw [ScopeChain.get?_materialize]
  show [env].findSome? (OrderedMap.get? · name) = some v
  rw [List.findSome?_cons, hv]

variable (plan setup)

theorem activate_keeps (number : Nat) (parent : ActiveContext) (progress : Progress) :
    progress.journal.Since (plan.activate setup number parent progress).2.journal
        (Event.Keeps parent.scope.materialize)
      ∧ ∀ active, (plan.activate setup number parent progress).1 = .ok active →
        parent.scope.materialize.KeptBy active.scope.materialize := by
  have hbegin : progress.journal.Since (progress.journal.record (.activating number))
      (Event.Keeps parent.scope.materialize) := Journal.since_record _ trivial
  obtain ⟨hsince, hkept⟩ := setup.activation_keeps (plan.nodes.getD number default)
    (memoryOf progress.memories number) parent (progress.journal.record (.activating number))
  rcases plan.activate_cases setup number parent progress with
    ⟨a, after, hrun, heq⟩ | ⟨e, after, hrun, heq⟩
  · rw [hrun] at hsince hkept
    have hprepared : after.Since (after.record (.prepared a.teardown))
        (Event.Keeps parent.scope.materialize) := Journal.since_record _ trivial
    rw [heq]
    refine ⟨hbegin.trans ((hsince.mono fun _ h => h.keeps).trans (hprepared.trans
      (Journal.since_record _ trivial))), ?_⟩
    intro active hactive
    cases hactive
    exact hkept a rfl
  · rw [hrun] at hsince
    rw [heq]
    exact ⟨hbegin.trans (hsince.mono fun _ h => h.keeps), fun _ h => by cases h⟩

theorem activatePath_keeps (path : List Nat) (parent : ActiveContext) (progress : Progress) :
    progress.journal.Since (plan.activatePath setup path parent progress).2.2.journal
        (Event.Keeps parent.scope.materialize)
      ∧ ∀ active, (plan.activatePath setup path parent progress).2.1 = .ok active →
        parent.scope.materialize.KeptBy active.scope.materialize := by
  induction path generalizing parent progress with
  | nil =>
      refine ⟨Journal.Since.refl _ _, ?_⟩
      intro active hactive
      cases hactive
      exact Scope.KeptBy.refl _
  | cons number rest ih =>
      obtain ⟨hsince, hkept⟩ := plan.activate_keeps setup number parent progress
      rw [activatePath]
      split
      · next e after hrun =>
          rw [hrun] at hsince
          exact ⟨hsince, fun _ h => by cases h⟩
      · next inner after hrun =>
          rw [hrun] at hsince hkept
          have hinner := hkept inner rfl
          obtain ⟨hsince', hkept'⟩ := ih inner after
          refine ⟨hsince.trans (hsince'.mono fun _ h => h.of_keptBy hinner), ?_⟩
          exact fun active hactive => hinner.trans (hkept' active hactive)

/-- What is bound in the root scope, or exported by one of the outer contexts of a path, has
its value in every scope that is used further inside: by the flows, exports and cleaners of
the inner contexts, by those that these hand down, and by a case. Every context in between
binds the names that were handed to it and those that it exports, and in whatever state
it is, neither what it remembers nor what it exports is refused. -/
theorem nothing_shadowed (env : Scope) (outer inner : List Nat) (spec : CaseSpec)
    {progress reached : Progress} {count : Nat} {active : ActiveContext}
    (hremembers : plan.Remembers setup progress.memories)
    (houter : plan.activatePath setup outer (.root env) progress
      = (count, .ok active, reached)) :
    env.KeptBy active.scope.materialize
      ∧ reached.journal.Since (plan.activatePath setup inner active reached).2.2.journal
        (Event.Keeps active.scope.materialize)
      ∧ (∀ innermost, (plan.activatePath setup inner active reached).2.1 = .ok innermost →
          active.scope.materialize.KeptBy innermost.scope.materialize
          ∧ (setup.runCase spec innermost).Ensures (Event.Keeps active.scope.materialize)
              active.scope.materialize.KeptBy)
      ∧ ∀ number parent,
          (∀ journal after a,
            setup.activation (plan.nodes.getD number default) (memoryOf reached.memories number)
                parent journal = (.ok a, after) →
              a.active.scope.materialize.keys = parent.scope.materialize.keys
                  ++ Setup.exportNames (plan.nodes.getD number default).spec.exports
                ∧ a.active.scope.materialize.keys.Nodup)
          ∧ ((∀ e ∈ (plan.nodes.getD number default).spec.exports,
                e.name ∉ parent.scope.materialize.keys) →
              (∃ vars, parent.scope.materialize.merge .conflict
                [(memoryOf reached.memories number).exports] = .ok vars)
              ∧ ∀ journal vars exports,
                (setup.upon journal).exportAll vars
                    (plan.nodes.getD number default).spec.exports .empty = .ok exports →
                  ∃ scope, parent.scope.push exports = .ok scope) := by
  have hreached : plan.Remembers setup reached.memories := by
    have := hremembers.activatePath outer (.root env)
    rwa [houter] at this
  obtain ⟨-, houterKept⟩ := plan.activatePath_keeps setup outer (.root env) progress
  obtain ⟨hsince, hinnerKept⟩ := plan.activatePath_keeps setup inner active reached
  rw [houter] at houterKept
  refine ⟨(kept_root env).trans (houterKept active rfl), hsince, ?_, ?_⟩
  · intro innermost hinnermost
    have hkept := hinnerKept innermost hinnermost
    refine ⟨hkept, (setup.runCase_keeps spec innermost).mono ?_ fun _ h => hkept.trans h⟩
    exact fun _ hevent => hevent.keeps.of_keptBy hkept
  · intro number parent
    refine ⟨?_, ?_⟩
    · intro journal after a hactivation
      exact ⟨setup.keys_activation hactivation, OrderedMap.nodup_keys _⟩
    · intro hnew
      refine ⟨⟨_, setup.merge_remembered (hreached number) hnew⟩, ?_⟩
      intro journal vars exports hexports
      exact ⟨_, (setup.upon journal).push_exports hnew hexports⟩

/-- A service that answers with the number of requests it has received before. -/
def countingService : Service where
  reachable _ := true
  reply seen _ := .answer { body := (toString seen.length).toUTF8.toList }

/-- A context that asks for something and exports it. -/
def fetching (name : String) : ContextNode where
  title := name
  spec :=
    { flow := [{
        request := { host := some (.literal "localhost"), api := some (.literal "GET /") }
        definitions := [{ name := name }] }]
      exports := [{ name := name }] }
  total := 0

/-- A context that exports `token`, and one inside it that exports `item`. -/
def tokenPlan : Plan where
  nodes := [fetching "token", fetching "item"]
  cases := []

/-- Around everything there is `user`. -/
def userScope : Scope := OrderedMap.ofList [("user", .string "me")]

/-- The outer context is activated. -/
def tokenActivated : Nat × Except ContextError ActiveContext × Progress :=
  tokenPlan.activatePath (.plain countingService) [0] (.root userScope) (tokenPlan.start {})

/-- What is exported outside has its value inside, where another request has been answered
since. -/
theorem nothing_shadowed_token :
    tokenPlan.Remembers (.plain countingService) (tokenPlan.start {}).memories
      ∧ ∃ active reached innermost last token,
        tokenActivated = (1, .ok active, reached)
        ∧ tokenPlan.activatePath (.plain countingService) [1] active reached
          = (1, .ok innermost, last)
        ∧ active.scope.materialize.get? "token" = some token ∧ token.display = "0"
        ∧ userScope.KeptBy innermost.scope.materialize
        ∧ reached.journal.Since last.journal (Event.Keeps active.scope.materialize)
        ∧ innermost.scope.materialize.get? "token" = some token
        ∧ innermost.scope.materialize.keys = ["user", "token", "item"] := by
  refine ⟨remembers_start {}, ?_⟩
  rcases houter : tokenActivated with ⟨count, result, reached⟩
  have houterOk : tokenActivated.1 = 1 ∧ tokenActivated.2.1.toOption.map
      (fun active => (active.scope.materialize.get? "token").map Value.display)
        = some (some "0") := by
    decide +kernel
  have hinnerOk : tokenActivated.2.1.toOption.map (fun active =>
      let inner := tokenPlan.activatePath (.plain countingService) [1] active tokenActivated.2.2
      (inner.1, inner.2.1.toOption.map fun innermost => innermost.scope.materialize.keys))
        = some (1, some ["user", "token", "item"]) := by
    decide +kernel
  rw [houter] at houterOk hinnerOk
  obtain ⟨rfl, htoken⟩ := houterOk
  cases result with
  | error e => cases htoken
  | ok active =>
      obtain ⟨token, hget, htext⟩ := Option.map_eq_some_iff.mp (Option.some.inj htoken)
      rcases hinner : tokenPlan.activatePath (.plain countingService) [1] active reached
        with ⟨count, result, last⟩
      have hall := nothing_shadowed tokenPlan (.plain countingService) userScope [0] [1] {}
        (remembers_start {}) houter
      rw [hinner] at hall
      obtain ⟨huser, hsince, hkept, -⟩ := hall
      simp only [Except.toOption, Option.map_some, hinner, Option.some.injEq, Prod.mk.injEq]
        at hinnerOk
      obtain ⟨rfl, hkeys⟩ := hinnerOk
      cases result with
      | error e => cases hkeys
      | ok innermost =>
          have hinside := (hkept innermost rfl).1
          exact ⟨active, reached, innermost, last, token, rfl, hinner, hget, htext,
            huser.trans hinside, hsince, hinside "token" token hget, Option.some.inj hkeys⟩

end Plan

end HttpSuite
