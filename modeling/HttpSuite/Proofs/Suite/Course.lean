import HttpSuite.Proofs.Suite.Execution

/-!
# How a case goes

A case is a list of stages that are performed one after another: contexts are entered, the
flow is run, contexts are left. Each stage starts where the one before it has ended, and ends
with some errors, in order; only leaving a context can end with more than one, because a
cleaner that fails does not keep others from being called. `runCase` keeps a count of active
contexts and a first error, and `runCase_course` says what this comes to: with the right number
of contexts entered, it performs `stages` and answers with the first of all their errors.
-/

namespace HttpSuite

def faultsOf {α : Type} : Except ContextError α → List ContextError
  | .ok _ => []
  | .error e => [e]

theorem mem_faultsOf {α : Type} {result : Except ContextError α} {e : ContextError} :
    e ∈ faultsOf result ↔ result = .error e := by
  cases result with
  | ok a => exact iff_of_false nofun nofun
  | error e' => rw [faultsOf, List.mem_singleton, Except.error.injEq, eq_comm]

/-- What errors in a row come to: the first one counts. -/
def resultOf : List ContextError → Except ContextError Unit
  | [] => .ok ()
  | e :: _ => .error e

theorem resultOf_faultsOf (result : Except ContextError Unit) :
    resultOf (faultsOf result) = result := by
  cases result <;> rfl

theorem firstError_resultOf (xs ys : List ContextError) :
    firstError (resultOf xs) (resultOf ys) = resultOf (xs ++ ys) := by
  cases xs <;> rfl

def Setup.cleanFaults (setup : Setup) (title : String) (template : RoundTrip) :
    List CleanerCall → Journal → List ContextError
  | [], _ => []
  | call :: rest, journal =>
    let (result, journal) := setup.clean title template call journal
    faultsOf result ++ setup.cleanFaults title template rest journal

theorem Setup.cleanAll_fst (setup : Setup) (title : String) (template : RoundTrip)
    (calls : List CleanerCall) (journal : Journal) :
    (setup.cleanAll title template calls journal).1
      = resultOf (setup.cleanFaults title template calls journal) := by
  induction calls generalizing journal with
  | nil => rfl
  | cons call rest ih =>
      rw [cleanAll, cleanFaults, ← firstError_resultOf, resultOf_faultsOf, ← ih]

/-- The errors with which the cleaners of a context end that are due when it is finished. -/
def ContextNode.finishFaults (node : ContextNode) (setup : Setup) (activated : Bool)
    (memory : ContextMemory) (journal : Journal) : List ContextError :=
  match memory.due node.total activated with
  | none => []
  | some (template, calls) => setup.cleanFaults node.title template calls journal

namespace Plan

/-- Something that is done around a case. -/
inductive Stage where
  | enter (number : Nat)
  | flow
  /-- A context is finished, which may have been activated for the case or not. -/
  | leave (number : Nat) (activated : Bool)
  deriving DecidableEq, Repr

/-- Where a stage begins: the innermost context that is active, and what has been done. -/
structure Standing where
  active : ActiveContext
  progress : Progress

variable (plan : Plan) (setup : Setup) (c : PlannedCase)

def stageFaults (s : Standing) : Stage → List ContextError
  | .enter number => faultsOf (plan.activate setup number s.active s.progress).1
  | .flow => faultsOf (runFlow setup c s.active s.progress).1
  | .leave number activated =>
    (plan.nodes.getD number default).finishFaults setup activated
      (memoryOf s.progress.memories number) (s.progress.record (.finishing number)).journal

def stageEnd (s : Standing) : Stage → Standing
  | .enter number =>
    match plan.activate setup number s.active s.progress with
    | (.ok active, progress) => ⟨active, progress⟩
    | (.error _, progress) => ⟨s.active, progress⟩
  | .flow => ⟨s.active, (runFlow setup c s.active s.progress).2⟩
  | .leave number activated => ⟨s.active, (plan.finish setup number activated s.progress).2⟩

/-- The errors of stages that are performed in order. -/
def faultsOver : List Stage → Standing → List ContextError
  | [], _ => []
  | stage :: rest, s =>
    plan.stageFaults setup c s stage ++ faultsOver rest (plan.stageEnd setup c s stage)

/-- Where stages end that are performed in order. -/
def standing (stages : List Stage) (s : Standing) : Standing :=
  stages.foldl (plan.stageEnd setup c) s

/-- The contexts of a path are finished, the innermost one first, where so many of them were
activated. -/
def leavings (path : List Nat) (entered : Nat) : List Stage :=
  (path.mapIdx fun depth number => Stage.leave number (decide (depth < entered))).reverse

/-- The stages of a case of which so many contexts could be activated: these are, from the
outermost one on, and the next one is tried; the flow is run if they are all; and all of them
are finished, whatever happened. -/
def stages (path : List Nat) (entered : Nat) : List Stage :=
  (path.take (entered + 1)).map .enter
    ++ (if entered = path.length then [.flow] else [])
    ++ leavings path entered

variable {plan setup c}

theorem faultsOver_append (xs ys : List Stage) (s : Standing) :
    plan.faultsOver setup c (xs ++ ys) s
      = plan.faultsOver setup c xs s
        ++ plan.faultsOver setup c ys (plan.standing setup c xs s) := by
  induction xs generalizing s with
  | nil => rfl
  | cons stage xs ih =>
      rw [List.cons_append, faultsOver, faultsOver, ih, List.append_assoc]
      rfl

theorem standing_append (xs ys : List Stage) (s : Standing) :
    plan.standing setup c (xs ++ ys) s
      = plan.standing setup c ys (plan.standing setup c xs s) :=
  List.foldl_append

theorem faultsOver_singleton (stage : Stage) (s : Standing) :
    plan.faultsOver setup c [stage] s = plan.stageFaults setup c s stage :=
  List.append_nil _

theorem standing_singleton (stage : Stage) (s : Standing) :
    plan.standing setup c [stage] s = plan.stageEnd setup c s stage := rfl

theorem enter_ok {s : Standing} {number : Nat} {active : ActiveContext} {next : Progress}
    (h : plan.activate setup number s.active s.progress = (.ok active, next)) :
    plan.stageEnd setup c s (.enter number) = ⟨active, next⟩
      ∧ plan.stageFaults setup c s (.enter number) = [] := by
  simp only [stageEnd, stageFaults, h, faultsOf, and_self]

theorem enter_error {s : Standing} {number : Nat} {e : ContextError} {next : Progress}
    (h : plan.activate setup number s.active s.progress = (.error e, next)) :
    plan.stageEnd setup c s (.enter number) = ⟨s.active, next⟩
      ∧ plan.stageFaults setup c s (.enter number) = [e] := by
  simp only [stageEnd, stageFaults, h, faultsOf, and_self]

theorem leavings_cons (number : Nat) (rest : List Nat) (entered : Nat) :
    leavings (number :: rest) entered
      = leavings rest (entered - 1) ++ [.leave number (decide (0 < entered))] := by
  unfold leavings
  rw [List.mapIdx_cons, List.reverse_cons]
  congr 2
  refine List.mapIdx_eq_mapIdx_iff.mpr fun depth _ => ?_
  rw [decide_eq_decide.mpr]
  omega

variable (plan setup c)

theorem finish_fst (number : Nat) (activated : Bool) (s : Standing) :
    (plan.finish setup number activated s.progress).1
      = resultOf (plan.stageFaults setup c s (.leave number activated)) := by
  unfold finish ContextNode.finish stageFaults ContextNode.finishFaults memoryOf
  simp only [Progress.record]
  cases (s.progress.memories.getD number {}).due (plan.nodes.getD number default).total
    activated with
  | none => rfl
  | some due => exact setup.cleanAll_fst _ _ _ _

theorem finishPath_course (path : List Nat) (entered : Nat) (s : Standing) :
    plan.finishPath setup path entered s.progress
      = (resultOf (plan.faultsOver setup c (leavings path entered) s),
        (plan.standing setup c (leavings path entered) s).progress) := by
  induction path generalizing entered with
  | nil => rfl
  | cons number rest ih =>
      rw [finishPath, ih, leavings_cons, faultsOver_append, standing_append, faultsOver_singleton,
        ← firstError_resultOf, ← plan.finish_fst setup c]
      rfl

/-- Activating along a path enters all contexts, or enters some and fails at the next. -/
theorem activatePath_course (path : List Nat) (s : Standing) :
    (plan.activatePath setup path s.active s.progress
        = (path.length, .ok (plan.standing setup c (path.map .enter) s).active,
          (plan.standing setup c (path.map .enter) s).progress)
      ∧ plan.faultsOver setup c (path.map .enter) s = [])
    ∨ ∃ entered e, entered < path.length
      ∧ plan.activatePath setup path s.active s.progress
        = (entered, .error e,
          (plan.standing setup c ((path.take (entered + 1)).map .enter) s).progress)
      ∧ plan.faultsOver setup c ((path.take entered).map .enter) s = []
      ∧ plan.faultsOver setup c ((path.take (entered + 1)).map .enter) s = [e] := by
  induction path generalizing s with
  | nil => exact Or.inl ⟨rfl, rfl⟩
  | cons number rest ih =>
      rcases hrun : plan.activate setup number s.active s.progress with ⟨result, progress⟩
      cases result with
      | error e =>
          obtain ⟨hend, hfault⟩ := enter_error (c := c) hrun
          refine Or.inr ⟨0, e, Nat.zero_lt_succ _, ?_, rfl, (faultsOver_singleton _ s).trans hfault⟩
          rw [activatePath, hrun, List.take_succ_cons, List.take_zero, List.map_singleton,
            standing_singleton, hend]
      | ok active =>
          -- All that is done for the rest of the path begins where this activation has ended.
          obtain ⟨hend, hnone⟩ := enter_ok (c := c) hrun
          have hfaults : ∀ stages, plan.faultsOver setup c (.enter number :: stages) s
              = plan.faultsOver setup c stages ⟨active, progress⟩ := by
            intro stages
            rw [faultsOver, hnone, hend, List.nil_append]
          have hstanding : ∀ stages, plan.standing setup c (.enter number :: stages) s
              = plan.standing setup c stages ⟨active, progress⟩ := by
            intro stages
            rw [standing, List.foldl_cons, hend]
            rfl
          rw [activatePath, hrun]
          rcases ih ⟨active, progress⟩ with ⟨heq, hclean⟩ | ⟨entered, e, hlt, heq, hclean, hfault⟩
          · refine Or.inl ⟨?_, ?_⟩
            · simp only [heq, List.map_cons, hstanding, List.length_cons]
            · rw [List.map_cons, hfaults, hclean]
          · refine Or.inr ⟨entered + 1, e, Nat.succ_lt_succ hlt, ?_, ?_, ?_⟩
            · simp only [heq, List.take_succ_cons, List.map_cons, hstanding]
            · rw [List.take_succ_cons, List.map_cons, hfaults, hclean]
            · rw [List.take_succ_cons, List.map_cons, hfaults, hfault]

theorem runFlow_course (s : Standing) :
    runFlow setup c s.active s.progress
      = (resultOf (plan.stageFaults setup c s .flow),
        (plan.stageEnd setup c s .flow).progress) := by
  rw [stageFaults, stageEnd, resultOf_faultsOf]

/-- A case is run by performing its stages, and the first of their errors counts. -/
theorem runCase_course (root : ActiveContext) (progress : Progress) :
    ∃ entered, entered ≤ c.path.length
      ∧ plan.faultsOver setup c ((c.path.take entered).map .enter) ⟨root, progress⟩ = []
      ∧ (entered < c.path.length →
        plan.faultsOver setup c ((c.path.take (entered + 1)).map .enter) ⟨root, progress⟩ ≠ [])
      ∧ plan.runCase setup root c progress
        = (resultOf (plan.faultsOver setup c (stages c.path entered) ⟨root, progress⟩),
          (plan.standing setup c (stages c.path entered) ⟨root, progress⟩).progress) := by
  rcases plan.activatePath_course setup c c.path ⟨root, progress⟩ with
    ⟨heq, hclean⟩ | ⟨entered, e, hlt, heq, hclean, hfault⟩
  · have htake : c.path.take (c.path.length + 1) = c.path :=
      List.take_of_length_le (Nat.le_succ _)
    refine ⟨c.path.length, Nat.le_refl _, ?_, fun hlt => absurd hlt (Nat.lt_irrefl _), ?_⟩
    · rw [List.take_length]
      exact hclean
    · simp only [stages, htake, if_true, faultsOver_append, standing_append, hclean,
        List.nil_append, faultsOver_singleton, standing_singleton, ← firstError_resultOf]
      rw [runCase, heq]
      simp only [plan.runFlow_course setup c]
      rw [plan.finishPath_course setup c]
  · have hstopped : plan.faultsOver setup c ((c.path.take (entered + 1)).map .enter)
        ⟨root, progress⟩ ≠ [] := by
      rw [hfault]
      exact List.cons_ne_nil e []
    refine ⟨entered, Nat.le_of_lt hlt, hclean, fun _ => hstopped, ?_⟩
    -- There is no flow, and the one error in front of the leavings is the first.
    rw [runCase, heq, stages, if_neg (Nat.ne_of_lt hlt), List.append_nil, faultsOver_append,
      standing_append, hfault, ← firstError_resultOf]
    simp only [plan.finishPath_course setup c]
    rfl

example : stages [0, 3, 5] 1
    = [.enter 0, .enter 3, .leave 5 false, .leave 3 false, .leave 0 true] := by decide

end Plan

/-! ### One case after another -/

/-- How a case ends whose stages ended with these errors. -/
def Outcome.ofFaults : List ContextError → Outcome
  | [] => passed
  | e :: _ => failed e.message

theorem Outcome.ofFaults_ne_skipped (faults : List ContextError) :
    ofFaults faults ≠ .skipped := by
  cases faults <;> nofun

namespace Progress

def opened (progress : Progress) (c : PlannedCase) : Progress :=
  (progress.record .caseBegins).record (.noted .info s!"running {breadcrumbName c.breadcrumb}")

def closed (progress : Progress) (c : PlannedCase) : Outcome → Progress
  | .failed message =>
    progress.record (.noted .warn s!"{breadcrumbName c.breadcrumb} failed: {message}")
  | _ => progress

def skipped (progress : Progress) (c : PlannedCase) : Progress :=
  progress.record (.noted .info s!"skipping {breadcrumbName c.breadcrumb}")

end Progress

namespace Plan

variable (plan : Plan) (setup : Setup) (root : ActiveContext)

/-- The errors of all stages of a selected case of which so many contexts are entered. -/
def caseFaults (c : PlannedCase) (before : Progress) (entered : Nat) : List ContextError :=
  plan.faultsOver setup c (stages c.path entered) ⟨root, before.opened c⟩

/-- How a selected case goes: so many of its contexts are entered, and then it goes its stages. -/
structure Course (c : PlannedCase) (before : Progress) (entered : Nat) (outcome : Outcome)
    (after : Progress) : Prop where
  entered_le : entered ≤ c.path.length
  /-- The contexts that are entered could be activated, from the outermost one on. -/
  active : plan.faultsOver setup c ((c.path.take entered).map .enter)
    ⟨root, before.opened c⟩ = []
  /-- If these are not all, the next one could not. -/
  stopped : entered < c.path.length →
    plan.faultsOver setup c ((c.path.take (entered + 1)).map .enter)
      ⟨root, before.opened c⟩ ≠ []
  /-- The first error of all stages is reported. -/
  outcome_eq : outcome = .ofFaults (plan.caseFaults setup root c before entered)
  /-- Nothing is done but the stages. -/
  after_eq : after
    = (plan.standing setup c (stages c.path entered)
        ⟨root, before.opened c⟩).progress.closed c outcome

theorem reportCase_breadcrumb (c : PlannedCase) (progress : Progress) :
    (plan.reportCase setup root c progress).1.breadcrumb = c.breadcrumb := by
  unfold reportCase
  dsimp only
  split
  · rfl
  · split <;> rfl

theorem reportCase_skipped {c : PlannedCase} (h : c.selected = false) (progress : Progress) :
    plan.reportCase setup root c progress
      = (⟨c.breadcrumb, .skipped, Duration.zero⟩, progress.skipped c) := by
  rw [reportCase, h]
  rfl

theorem reportCase_course {c : PlannedCase} (h : c.selected = true) (before : Progress) :
    ∃ entered, plan.Course setup root c before entered
      (plan.reportCase setup root c before).1.outcome
      (plan.reportCase setup root c before).2 := by
  obtain ⟨entered, hle, hactive, hstopped, hrun⟩ :=
    plan.runCase_course setup c root (before.opened c)
  have hreport : (plan.reportCase setup root c before).1.outcome
        = .ofFaults (plan.caseFaults setup root c before entered)
      ∧ (plan.reportCase setup root c before).2
        = (plan.standing setup c (stages c.path entered)
          ⟨root, before.opened c⟩).progress.closed c
            (.ofFaults (plan.caseFaults setup root c before entered)) := by
    unfold caseFaults
    unfold Progress.opened at hrun
    rw [reportCase, if_neg (by simp [h])]
    simp only [hrun]
    unfold Progress.opened
    cases plan.faultsOver setup c (stages c.path entered) _ <;> exact ⟨rfl, rfl⟩
  refine ⟨entered, hle, hactive, hstopped, hreport.1, ?_⟩
  rw [hreport.1]
  exact hreport.2

theorem reportAll_cons (c : PlannedCase) (rest : List PlannedCase) (progress : Progress) :
    plan.reportAll setup root (c :: rest) progress
      = ((plan.reportCase setup root c progress).1
          :: (plan.reportAll setup root rest (plan.reportCase setup root c progress).2).1,
        (plan.reportAll setup root rest (plan.reportCase setup root c progress).2).2) := rfl

theorem reportAll_concat (cases : List PlannedCase) (c : PlannedCase) (progress : Progress) :
    (plan.reportAll setup root (cases ++ [c]) progress).2
      = (plan.reportCase setup root c (plan.reportAll setup root cases progress).2).2 := by
  induction cases generalizing progress with
  | nil => rfl
  | cons first cases ih =>
      rw [List.cons_append, reportAll_cons, reportAll_cons]
      exact ih _

theorem reportAll_getElem? (cases : List PlannedCase) (progress : Progress) (i : Nat) :
    (plan.reportAll setup root cases progress).1[i]?
      = cases[i]?.map fun c =>
        (plan.reportCase setup root c (plan.reportAll setup root (cases.take i) progress).2).1 := by
  induction cases generalizing progress i with
  | nil => rfl
  | cons first cases ih =>
      cases i with
      | zero => rfl
      | succ i =>
          rw [reportAll_cons, List.getElem?_cons_succ, List.getElem?_cons_succ, ih,
            List.take_succ_cons, reportAll_cons]

/-- How far an execution has come behind so many cases. -/
def progressAt (journal : Journal) (i : Nat) : Progress :=
  (plan.reportAll setup root (plan.cases.take i) (plan.start journal)).2

theorem execute_snd (journal : Journal) :
    (plan.execute setup root journal).2
      = plan.progressAt setup root journal plan.cases.length := by
  rw [progressAt, List.take_length, execute]

variable {plan}

theorem progressAt_succ {i : Nat} {c : PlannedCase} (h : plan.cases[i]? = some c)
    (journal : Journal) :
    plan.progressAt setup root journal (i + 1)
      = (plan.reportCase setup root c (plan.progressAt setup root journal i)).2 := by
  rw [progressAt, List.take_add_one, h, Option.toList_some, reportAll_concat]
  rfl

theorem execute_getElem? {i : Nat} {c : PlannedCase} (h : plan.cases[i]? = some c)
    (journal : Journal) :
    (plan.execute setup root journal).1[i]?
      = some (plan.reportCase setup root c (plan.progressAt setup root journal i)).1 := by
  rw [execute, reportAll_getElem?, h]
  rfl

end Plan

end HttpSuite
