import HttpSuite.Proofs.Context.Kept
import HttpSuite.Proofs.Suite.Course
import HttpSuite.Proofs.Suite.Plan

/-!
# The life of contexts and cases in a run

`execute_lifecycle` says of every execution of a plan what is done for which case, in which
order, and what is reported of it. Most of it is how a case goes, `Plan.Course`. That a context
is left alone while none of the cases in it is selected is seen in the journal: a stage writes
only what belongs to its own context, `stageEnd_since`, and no stage of a case is about a
context that is not around the case.
-/

namespace HttpSuite

/-! ## What stages write -/

/-- What is written while a cleaner is called. -/
def Event.IsCleaning : Event → Prop
  | noted .. | cleaned .. => True
  | _ => False

theorem Setup.clean_since (setup : Setup) (title : String) (template : RoundTrip)
    (call : CleanerCall) (journal : Journal) :
    journal.Since (setup.clean title template call journal).2 Event.IsCleaning := by
  unfold clean
  split
  · exact Journal.Since.refl _ _
  · have hcleaned : journal.Since
        ((journal.record (.noted .info s!"{title}: cleaning with {call.name}")).record
          (.cleaned call.name template call.args)) Event.IsCleaning :=
      (Journal.since_record _ trivial).trans (Journal.since_record _ trivial)
    dsimp only
    split
    · exact hcleaned
    · exact hcleaned.trans (Journal.since_record _ trivial)

theorem Setup.cleanAll_since (setup : Setup) (title : String) (template : RoundTrip)
    (calls : List CleanerCall) (journal : Journal) :
    journal.Since (setup.cleanAll title template calls journal).2 Event.IsCleaning := by
  induction calls generalizing journal with
  | nil => exact Journal.Since.refl _ _
  | cons call rest ih => exact (setup.clean_since title template call journal).trans (ih _)

namespace Plan

/-- What a stage writes into the journal. -/
def Stage.Writes (event : Event) : Stage → Prop
  | .enter number =>
    event = .activating number ∨ event = .activated number ∨ (∃ t, event = .prepared t)
      ∨ event.IsQuiet
  | .flow => event = .flowBegins ∨ event.IsQuiet
  | .leave number _ => event = .finishing number ∨ event.IsCleaning

variable (plan : Plan) (setup : Setup) (c : PlannedCase)

theorem enter_since (s : Standing) (number : Nat) :
    s.progress.journal.Since (plan.stageEnd setup c s (.enter number)).progress.journal
      fun event => (Stage.enter number).Writes event := by
  have hinner := (setup.activation_keeps (plan.nodes.getD number default)
    (memoryOf s.progress.memories number) s.active
    (s.progress.journal.record (.activating number))).1
  have hbegin : s.progress.journal.Since (s.progress.journal.record (.activating number))
      fun event => (Stage.enter number).Writes event :=
    Journal.since_record _ (Or.inl rfl)
  rcases plan.activate_cases setup number s.active s.progress with
    ⟨a, after, hrun, heq⟩ | ⟨e, after, hrun, heq⟩
  · rw [hrun] at hinner
    rw [(enter_ok heq).1]
    have hprepared : after.Since (after.record (.prepared a.teardown))
        fun event => (Stage.enter number).Writes event :=
      Journal.since_record _ (Or.inr (Or.inr (Or.inl ⟨_, rfl⟩)))
    exact (hbegin.trans (hinner.mono fun _ h => Or.inr (Or.inr (Or.inr h.quiet)))).trans
      (hprepared.trans (Journal.since_record _ (Or.inr (Or.inl rfl))))
  · rw [hrun] at hinner
    rw [(enter_error heq).1]
    exact hbegin.trans (hinner.mono fun _ h => Or.inr (Or.inr (Or.inr h.quiet)))

theorem flow_since (s : Standing) :
    s.progress.journal.Since (plan.stageEnd setup c s .flow).progress.journal
      fun event => Stage.flow.Writes event := by
  have hinner := (setup.runCase_keeps c.spec s.active
    (s.progress.journal.record .flowBegins)).1
  have hbegin : s.progress.journal.Since (s.progress.journal.record .flowBegins)
      fun event => Stage.flow.Writes event :=
    Journal.since_record _ (Or.inl rfl)
  have hend : (plan.stageEnd setup c s .flow).progress.journal
      = (setup.runCase c.spec s.active (s.progress.journal.record .flowBegins)).2 := by
    unfold stageEnd runFlow
    simp only [Progress.record]
    split <;> simp [*]
  rw [hend]
  exact hbegin.trans (hinner.mono fun _ h => Or.inr h.quiet)

theorem leave_since (s : Standing) (number : Nat) (activated : Bool) :
    s.progress.journal.Since (plan.stageEnd setup c s (.leave number activated)).progress.journal
      fun event => (Stage.leave number activated).Writes event := by
  have hbegin : s.progress.journal.Since (s.progress.journal.record (.finishing number))
      fun event => (Stage.leave number activated).Writes event :=
    Journal.since_record _ (Or.inl rfl)
  unfold stageEnd finish ContextNode.finish
  simp only [Progress.record]
  cases (s.progress.memories.getD number {}).due (plan.nodes.getD number default).total
    activated with
  | none => exact hbegin
  | some due =>
      exact hbegin.trans ((setup.cleanAll_since _ _ _ _).mono fun _ h => Or.inr h)

theorem stageEnd_since (s : Standing) (stage : Stage) :
    s.progress.journal.Since (plan.stageEnd setup c s stage).progress.journal
      fun event => stage.Writes event := by
  cases stage with
  | enter number => exact plan.enter_since setup c s number
  | flow => exact plan.flow_since setup c s
  | leave number activated => exact plan.leave_since setup c s number activated

theorem standing_since (stages : List Stage) (s : Standing) :
    s.progress.journal.Since (plan.standing setup c stages s).progress.journal
      fun event => ∃ stage ∈ stages, stage.Writes event := by
  induction stages generalizing s with
  | nil => exact Journal.Since.refl _ _
  | cons stage rest ih =>
      have hfirst := (plan.stageEnd_since setup c s stage).mono
        fun _ h => (⟨stage, List.mem_cons_self, h⟩ : ∃ st ∈ stage :: rest, st.Writes _)
      have hrest := (ih (plan.stageEnd setup c s stage)).mono fun _ h =>
        let ⟨st, hst, hwrites⟩ := h
        (⟨st, List.mem_cons_of_mem _ hst, hwrites⟩ : ∃ st ∈ stage :: rest, st.Writes _)
      exact hfirst.trans hrest

/-- The stages of a case activate contexts on its path only. -/
theorem mem_path_of_writes {path : List Nat} {entered number : Nat} {stage : Stage}
    (hstage : stage ∈ stages path entered) (h : stage.Writes (.activating number)) :
    number ∈ path := by
  unfold stages at hstage
  rcases List.mem_append.mp hstage with hfront | hleave
  · rcases List.mem_append.mp hfront with henter | hflow
    · obtain ⟨other, hother, rfl⟩ := List.mem_map.mp henter
      rcases h with h | h | ⟨t, h⟩ | h
      · cases h
        exact List.mem_of_mem_take hother
      · cases h
      · cases h
      · cases h
    · split at hflow
      · rw [List.mem_singleton.mp hflow] at h
        rcases h with h | h <;> cases h
      · cases hflow
  · obtain ⟨depth, hdepth, rfl⟩ := List.mem_mapIdx.mp (List.mem_reverse.mp hleave)
    rcases h with h | h <;> cases h

/-! ## Idle contexts -/

/-- What is written for a case: that it begins, notes, and what its stages write. -/
def CaseWrites (path : List Nat) (entered : Nat) (event : Event) : Prop :=
  event = .caseBegins ∨ event.IsQuiet ∨ ∃ stage ∈ stages path entered, stage.Writes event

variable {plan setup} in
theorem Course.since {root : ActiveContext} {c : PlannedCase} {before after : Progress}
    {entered : Nat} {outcome : Outcome}
    (h : plan.Course setup root c before entered outcome after) :
    before.journal.Since after.journal (CaseWrites c.path entered) := by
  have hopened : before.journal.Since (before.opened c).journal (CaseWrites c.path entered) :=
    (Journal.since_record _ (Or.inl rfl)).trans
      (Journal.since_record _ (Or.inr (Or.inl trivial)))
  have hstages : (before.opened c).journal.Since
      (plan.standing setup c (stages c.path entered) ⟨root, before.opened c⟩).progress.journal
      (CaseWrites c.path entered) :=
    (plan.standing_since setup c _ _).mono fun _ h => Or.inr (Or.inr h)
  rw [h.after_eq]
  refine (hopened.trans hstages).trans ?_
  unfold Progress.closed
  split
  · exact Journal.since_record _ (Or.inr (Or.inl trivial))
  · exact Journal.Since.refl _ _

theorem reportCase_idle {root : ActiveContext} {c : PlannedCase} {n : Nat}
    (h : c.selected = true → n ∉ c.path) (progress : Progress) :
    progress.journal.Since (plan.reportCase setup root c progress).2.journal
      (· ≠ .activating n) := by
  cases hselected : c.selected with
  | false =>
      rw [reportCase_skipped _ _ _ hselected]
      exact Journal.since_record _ nofun
  | true =>
      obtain ⟨entered, hcourse⟩ := plan.reportCase_course setup root hselected progress
      refine hcourse.since.mono ?_
      rintro event (rfl | hquiet | ⟨stage, hstage, hwrites⟩)
      · nofun
      · rintro rfl
        exact hquiet
      · rintro rfl
        exact h hselected (mem_path_of_writes hstage hwrites)

theorem reportAll_idle {root : ActiveContext} {cases : List PlannedCase} {n : Nat}
    (h : ∀ c ∈ cases, c.selected = true → n ∉ c.path) (progress : Progress) :
    progress.journal.Since (plan.reportAll setup root cases progress).2.journal
      (· ≠ .activating n) := by
  induction cases generalizing progress with
  | nil => exact Journal.Since.refl _ _
  | cons c cases ih =>
      obtain ⟨hfirst, hrest⟩ := List.forall_mem_cons.mp h
      rw [reportAll_cons]
      exact (plan.reportCase_idle setup hfirst progress).trans (ih hrest _)

end Plan

/-! ## What the filter selects -/

namespace Folder

mutual

theorem selected_plan (filter : LabelFilter) : ∀ (folder : Folder) (number : Nat)
    (path : List Nat) (breadcrumb : List String),
    ∀ c ∈ (folder.plan filter number path breadcrumb).cases,
      c.selected = filter.selects c.spec.labels
  | ⟨name, place, context, count, cases, folders⟩, number, path, breadcrumb => by
      intro c hc
      rw [Folder.plan] at hc
      rcases List.mem_append.mp hc with hown | hinner
      · obtain ⟨file, -, rfl⟩ := List.mem_map.mp hown
        rfl
      · exact selected_planAll filter folders _ _ _ c hinner

theorem selected_planAll (filter : LabelFilter) : ∀ (folders : List Folder) (number : Nat)
    (path : List Nat) (breadcrumb : List String),
    ∀ c ∈ (planAll filter number path breadcrumb folders).cases,
      c.selected = filter.selects c.spec.labels
  | [], _, _, _ => by
      intro c hc
      rw [planAll] at hc
      cases hc
  | folder :: rest, number, path, breadcrumb => by
      intro c hc
      rw [planAll] at hc
      rcases List.mem_append.mp hc with hfirst | hrest
      · exact selected_plan filter folder _ _ _ c hfirst
      · exact selected_planAll filter rest _ _ _ c hrest

end

end Folder

/-! ## Whole executions -/

namespace Plan

/-- What is reported of an execution, and what is done for each case. -/
structure Lifecycle (plan : Plan) (filter : LabelFilter) (setup : Setup) (root : ActiveContext)
    (journal : Journal) : Prop where
  /-- There is one report for each case, in order. -/
  reports : (plan.execute setup root journal).1.map (·.breadcrumb)
    = plan.cases.map (·.breadcrumb)
  /-- A case is skipped if and only if the filter does not select it. -/
  skipped : ∀ (i : Nat) (c : PlannedCase) (report : CaseReport), plan.cases[i]? = some c →
    (plan.execute setup root journal).1[i]? = some report →
      (report.outcome = .skipped ↔ filter.selects c.spec.labels = false)
  /-- Nothing is done for a case that is skipped, but for a note. -/
  untouched : ∀ (i : Nat) (c : PlannedCase), plan.cases[i]? = some c →
    filter.selects c.spec.labels = false →
    plan.progressAt setup root journal (i + 1)
      = (plan.progressAt setup root journal i).skipped c
  /-- A case that is selected goes its course. -/
  course : ∀ (i : Nat) (c : PlannedCase) (report : CaseReport), plan.cases[i]? = some c →
    (plan.execute setup root journal).1[i]? = some report →
      filter.selects c.spec.labels = true → c.path.Nodup ∧ ∃ entered,
        plan.Course setup root c (plan.progressAt setup root journal i) entered report.outcome
          (plan.progressAt setup root journal (i + 1))
  /-- Behind the last case the execution is over. -/
  ends : (plan.execute setup root journal).2
    = plan.progressAt setup root journal plan.cases.length
  /-- A context is not activated if the filter selects none of the cases in it. -/
  idle : ∀ n, (∀ c ∈ plan.cases, n ∈ c.path → filter.selects c.spec.labels = false) →
    journal.Since (plan.execute setup root journal).2.journal (· ≠ .activating n)

theorem reportAll_breadcrumbs (plan : Plan) (setup : Setup) (root : ActiveContext)
    (cases : List PlannedCase) (progress : Progress) :
    (plan.reportAll setup root cases progress).1.map (·.breadcrumb)
      = cases.map (·.breadcrumb) := by
  induction cases generalizing progress with
  | nil => rfl
  | cons c cases ih =>
      rw [reportAll_cons, List.map_cons, List.map_cons, ih, reportCase_breadcrumb]

theorem execute_lifecycle (filter : LabelFilter) (folders : List Folder) (setup : Setup)
    (root : ActiveContext) (journal : Journal) :
    (ofFolders filter folders).Lifecycle filter setup root journal := by
  have hlaid := laidOut_ofFolders filter folders
  have hselects : ∀ c ∈ (ofFolders filter folders).cases,
      c.selected = filter.selects c.spec.labels :=
    Folder.selected_planAll filter folders 0 [] []
  have hreport : ∀ i c report, (ofFolders filter folders).cases[i]? = some c →
      ((ofFolders filter folders).execute setup root journal).1[i]? = some report →
        report = ((ofFolders filter folders).reportCase setup root c
          ((ofFolders filter folders).progressAt setup root journal i)).1 := by
    intro i c report hc hget
    rw [execute_getElem? setup root hc] at hget
    exact (Option.some.inj hget).symm
  refine ⟨reportAll_breadcrumbs .., ?_, ?_, ?_, execute_snd .., ?_⟩
  · intro i c report hc hget
    rw [hreport i c report hc hget, ← hselects c (List.mem_of_getElem? hc)]
    cases hselected : c.selected with
    | false =>
        rw [reportCase_skipped _ _ _ hselected]
        exact iff_of_true rfl rfl
    | true =>
        obtain ⟨entered, hcourse⟩ := reportCase_course _ setup root hselected
          ((ofFolders filter folders).progressAt setup root journal i)
        rw [hcourse.outcome_eq]
        exact iff_of_false (Outcome.ofFaults_ne_skipped _) Bool.true_eq_false.mp
  · intro i c hc hnot
    rw [← hselects c (List.mem_of_getElem? hc)] at hnot
    rw [progressAt_succ setup root hc, reportCase_skipped _ _ _ hnot]
  · intro i c report hc hget hyes
    rw [← hselects c (List.mem_of_getElem? hc)] at hyes
    refine ⟨hlaid.nodup_path (List.mem_of_getElem? hc), ?_⟩
    rw [hreport i c report hc hget, progressAt_succ setup root hc]
    exact reportCase_course _ setup root hyes _
  · intro n hn
    refine reportAll_idle _ setup (fun c hc hselected hmem => ?_) _
    rw [hselects c hc, hn c hc hmem] at hselected
    cases hselected

end Plan

end HttpSuite
