import HttpSuite.Proofs.Context.Collaborators
import HttpSuite.Proofs.Suite.Cleaning
import HttpSuite.Proofs.Suite.Course
import HttpSuite.Suite.Basic

/-!
# A suite that cannot be run is refused before anything is done

What is wrong with a suite is found in front of the first case: a folder that cannot be loaded,
or a context anywhere in a folder that refers to a presetter or a cleaner that is not there. In
a run that takes place no name is looked up in vain any more. For presetters that is so because
the plan has all contexts of all folders, `mem_specs_ofFolders`; for cleaners there is an
invariant on top, as they are called by what contexts remember: that has been left by
activations, and each activation checks the names again, `KnowsCleaners`.
-/

namespace HttpSuite

/-! ## Names in a run -/

namespace Setup

variable (setup : Setup)

theorem clean_error {title : String} {template : RoundTrip} {call : CleanerCall}
    {journal : Journal} {e : ContextError}
    (hknown : (setup.cleaners.get? call.name).isSome = true)
    (h : (setup.clean title template call journal).1 = .error e) : ¬ e.NamesUnknown := by
  unfold clean at h
  split at h
  · next hnone =>
      rw [hnone] at hknown
      cases hknown
  · dsimp only at h
    split at h
    · cases h
    · cases h
      exact id

theorem cleanFaults_known (title : String) (template : RoundTrip) {calls : List CleanerCall}
    (hknown : ∀ call ∈ calls, (setup.cleaners.get? call.name).isSome = true)
    (journal : Journal) :
    ∀ e ∈ setup.cleanFaults title template calls journal, ¬ e.NamesUnknown := by
  induction calls generalizing journal with
  | nil => nofun
  | cons call rest ih =>
      obtain ⟨hfirst, hrest⟩ := List.forall_mem_cons.mp hknown
      intro e he
      rw [cleanFaults] at he
      rcases List.mem_append.mp he with hcall | hlater
      · exact setup.clean_error hfirst (mem_faultsOf.mp hcall)
      · exact ih hrest _ e hlater

end Setup

namespace Plan

/-- No context of the plan refers to a presetter or a cleaner that is not there. -/
def Checked (plan : Plan) (setup : Setup) : Prop :=
  ∀ node ∈ plan.nodes, node.checkCollaborators setup.presetters setup.cleaners = .ok ()

/-- The cleaners that contexts remember to call are all there. -/
def KnowsCleaners (setup : Setup) (memories : List ContextMemory) : Prop :=
  ∀ n t, (memoryOf memories n).teardown = some t →
    ∀ call ∈ t.calls, (setup.cleaners.get? call.name).isSome = true

variable {plan : Plan} {setup : Setup} {c : PlannedCase}

theorem checkCollaborators_eq_ok_iff {presetters : OrderedMap Presetter}
    {cleaners : OrderedMap Cleaner} {nodes : List ContextNode} :
    checkCollaborators presetters cleaners nodes = .ok ()
      ↔ ∀ node ∈ nodes, node.checkCollaborators presetters cleaners = .ok () := by
  induction nodes with
  | nil => exact iff_of_true rfl nofun
  | cons node rest ih =>
      rw [checkCollaborators, List.forall_mem_cons, ← ih]
      cases node.checkCollaborators presetters cleaners with
      | error e => simp
      | ok _ => simp

theorem Checked.getD (h : plan.Checked setup) (number : Nat) :
    (plan.nodes.getD number default).checkCollaborators setup.presetters setup.cleaners
      = .ok () := by
  rw [List.getD_eq_getElem?_getD]
  cases hnode : plan.nodes[number]? with
  | none => rfl
  | some node => exact h node (List.mem_of_getElem? hnode)

theorem KnowsCleaners.set {memories : List ContextMemory} (h : KnowsCleaners setup memories)
    (number : Nat) {memory : ContextMemory}
    (hmemory : ∀ t, memory.teardown = some t →
      ∀ call ∈ t.calls, (setup.cleaners.get? call.name).isSome = true) :
    KnowsCleaners setup (memories.set number memory) := by
  intro n t ht
  rw [memoryOf_set] at ht
  split at ht
  · exact hmemory t ht
  · exact h n t ht

theorem stageEnd_knows {s : Standing} (h : KnowsCleaners setup s.progress.memories)
    (stage : Stage) : KnowsCleaners setup (plan.stageEnd setup c s stage).progress.memories := by
  cases stage with
  | enter number =>
      rcases plan.activate_cases setup number s.active s.progress with
        ⟨a, after, hrun, heq⟩ | ⟨e, after, -, heq⟩
      · rw [(enter_ok heq).1]
        refine h.set number fun t ht => ?_
        cases ht
        exact (Setup.activation_teardown hrun).known
      · rw [(enter_error heq).1]
        exact h.set number (h number)
  | flow =>
      have hmemories : (plan.stageEnd setup c s .flow).progress.memories
          = s.progress.memories := by
        unfold stageEnd runFlow
        simp only [Progress.record]
        split <;> rfl
      rw [hmemories]
      exact h
  | leave number activated =>
      have hmemories : (plan.stageEnd setup c s (.leave number activated)).progress.memories
          = s.progress.memories.set number (memoryOf s.progress.memories number).afterFinish :=
        congrArg (s.progress.memories.set number) (ContextNode.memory_finish ..)
      rw [hmemories]
      exact h.set number (h number)

theorem stageFaults_known (hchecked : plan.Checked setup) {s : Standing}
    (h : KnowsCleaners setup s.progress.memories) (stage : Stage) :
    ∀ e ∈ plan.stageFaults setup c s stage, ¬ e.NamesUnknown := by
  intro e he
  cases stage with
  | enter number =>
      rcases plan.activate_cases setup number s.active s.progress with
        ⟨a, after, -, heq⟩ | ⟨e', after, hrun, heq⟩
      · rw [(enter_ok heq).2] at he
        cases he
      · rw [(enter_error heq).2] at he
        rw [List.mem_singleton.mp he]
        exact Setup.activation_fails (hchecked.getD number) _ _ _ _ (congrArg Prod.fst hrun)
  | flow =>
      have hflow := mem_faultsOf.mp he
      unfold runFlow at hflow
      simp only [Progress.record] at hflow
      split at hflow
      · cases hflow
      · next hrun =>
          cases hflow
          exact (setup.runCase_fails c.spec s.active _ e (congrArg Prod.fst hrun)).not_namesUnknown
  | leave number activated =>
      rw [stageFaults, ContextNode.finishFaults, ContextMemory.due] at he
      cases ht : (memoryOf s.progress.memories number).teardown with
      | none =>
          rw [ht] at he
          cases he
      | some t =>
          rw [ht] at he
          -- Whatever is due now is among what the context remembers.
          refine setup.cleanFaults_known _ _ (fun call hcall => ?_) _ e he
          exact h number t ht call (List.mem_filter.mp hcall).1

theorem standing_knows {s : Standing} (h : KnowsCleaners setup s.progress.memories)
    (stages : List Stage) :
    KnowsCleaners setup (plan.standing setup c stages s).progress.memories := by
  induction stages generalizing s with
  | nil => exact h
  | cons stage rest ih => exact ih (stageEnd_knows h stage)

theorem faultsOver_known (hchecked : plan.Checked setup) {s : Standing}
    (h : KnowsCleaners setup s.progress.memories) (stages : List Stage) :
    ∀ e ∈ plan.faultsOver setup c stages s, ¬ e.NamesUnknown := by
  induction stages generalizing s with
  | nil => nofun
  | cons stage rest ih =>
      intro e he
      rcases List.mem_append.mp he with hfirst | hrest
      · exact stageFaults_known hchecked h stage e hfirst
      · exact ih (stageEnd_knows h stage) e hrest

theorem reportCase_knows {root : ActiveContext} {progress : Progress}
    (h : KnowsCleaners setup progress.memories) (c : PlannedCase) :
    KnowsCleaners setup (plan.reportCase setup root c progress).2.memories := by
  cases hselected : c.selected with
  | false =>
      rw [reportCase_skipped _ _ _ hselected]
      exact h
  | true =>
      obtain ⟨entered, hcourse⟩ := plan.reportCase_course setup root hselected progress
      have hend : KnowsCleaners setup (plan.standing setup c (stages c.path entered)
          ⟨root, progress.opened c⟩).progress.memories := standing_knows h _
      rw [hcourse.after_eq]
      unfold Progress.closed
      split
      · exact hend
      · exact hend

theorem reportAll_knows {root : ActiveContext} {progress : Progress}
    (h : KnowsCleaners setup progress.memories) (cases : List PlannedCase) :
    KnowsCleaners setup (plan.reportAll setup root cases progress).2.memories := by
  induction cases generalizing progress with
  | nil => exact h
  | cons c cases ih => exact ih (reportCase_knows h c)

theorem start_knows (journal : Journal) : KnowsCleaners setup (plan.start journal).memories := by
  intro n t ht
  rw [memoryOf_start] at ht
  cases ht

/-- An activation, a flow or a cleaner fails with the error somewhere in an execution. -/
def Raises (plan : Plan) (setup : Setup) (root : ActiveContext) (journal : Journal)
    (e : ContextError) : Prop :=
  ∃ i c entered outcome after, plan.cases[i]? = some c ∧ c.selected = true
    ∧ plan.Course setup root c (plan.progressAt setup root journal i) entered outcome after
    ∧ e ∈ plan.caseFaults setup root c (plan.progressAt setup root journal i) entered

theorem Checked.raises {root : ActiveContext} {journal : Journal} {e : ContextError}
    (hchecked : plan.Checked setup) (h : plan.Raises setup root journal e) :
    ¬ e.NamesUnknown := by
  obtain ⟨i, c, entered, outcome, after, -, -, -, he⟩ := h
  have hbefore : KnowsCleaners setup (plan.progressAt setup root journal i).memories :=
    reportAll_knows (start_knows journal) _
  exact faultsOver_known hchecked hbefore _ e he

end Plan

/-! ## The contexts of a plan -/

/-- The folder has the context, or one of the folders inside has. -/
inductive Folder.HasContext : Folder → ContextSpec → Prop where
  | own (folder : Folder) : HasContext folder folder.context
  | inner {folder child : Folder} {spec : ContextSpec} (hchild : child ∈ folder.folders)
      (h : HasContext child spec) : HasContext folder spec

theorem Folder.hasContext_iff {folder : Folder} {spec : ContextSpec} :
    folder.HasContext spec
      ↔ spec = folder.context ∨ ∃ child ∈ folder.folders, child.HasContext spec := by
  constructor
  · intro h
    cases h with
    | own => exact Or.inl rfl
    | inner hchild h => exact Or.inr ⟨_, hchild, h⟩
  · rintro (rfl | ⟨child, hchild, h⟩)
    · exact .own folder
    · exact .inner hchild h

/-- What the contexts of a plan say. -/
def Plan.specs (plan : Plan) : List ContextSpec := plan.nodes.map (·.spec)

theorem Plan.specs_append (first second : Plan) :
    (first.append second).specs = first.specs ++ second.specs := List.map_append

namespace Folder

mutual

theorem mem_specs_plan (filter : LabelFilter) {spec : ContextSpec} : ∀ (folder : Folder)
    (number : Nat) (path : List Nat) (breadcrumb : List String),
    spec ∈ (folder.plan filter number path breadcrumb).specs ↔ folder.HasContext spec
  | ⟨name, place, context, count, cases, folders⟩, number, path, breadcrumb => by
      rw [Folder.plan, Plan.specs_append, List.mem_append, mem_specs_planAll filter folders,
        hasContext_iff]
      exact or_congr_left List.mem_singleton

theorem mem_specs_planAll (filter : LabelFilter) {spec : ContextSpec} :
    ∀ (folders : List Folder) (number : Nat) (path : List Nat) (breadcrumb : List String),
    spec ∈ (planAll filter number path breadcrumb folders).specs
      ↔ ∃ folder ∈ folders, folder.HasContext spec
  | [], _, _, _ => by
      rw [planAll]
      exact iff_of_false nofun nofun
  | folder :: rest, number, path, breadcrumb => by
      rw [planAll, Plan.specs_append, List.mem_append, mem_specs_plan filter folder,
        mem_specs_planAll filter rest, List.exists_mem_cons_iff]

end

end Folder

/-- A plan has all contexts of its folders, those without selected cases too. -/
theorem Plan.mem_specs_ofFolders (filter : LabelFilter) (folders : List Folder)
    {spec : ContextSpec} :
    spec ∈ (ofFolders filter folders).specs ↔ ∃ folder ∈ folders, folder.HasContext spec :=
  Folder.mem_specs_planAll filter folders 0 [] []

/-! ## What stands against a run -/

namespace Suite

variable {suite : Suite} {files : FileTree}

/-- Something is wrong with a suite: a folder cannot be loaded, or a context refers to a
presetter or a cleaner that is not there. -/
inductive Flawed (suite : Suite) (files : FileTree) : Prop where
  | unloadable {path : String} {e : LoadError} (hpath : path ∈ suite.folders)
      (hload : Folder.load files suite.settings.contextFile path = .error e)
  | presetter {path : String} {folder : Folder} {spec : ContextSpec} {p : PresetSpec}
      (hpath : path ∈ suite.folders)
      (hload : Folder.load files suite.settings.contextFile path = .ok folder)
      (hspec : folder.HasContext spec) (hp : p ∈ spec.presetters)
      (hunknown : p.name ∉ suite.presetters.keys)
  | cleaner {path : String} {folder : Folder} {spec : ContextSpec} {c : CleanerSpec}
      (hpath : path ∈ suite.folders)
      (hload : Folder.load files suite.settings.contextFile path = .ok folder)
      (hspec : folder.HasContext spec) (hc : c ∈ spec.cleaners)
      (hunknown : c.name ∉ suite.cleaners.keys)

theorem loadAll_error {contextFile : String} {paths : List String} {e : LoadError}
    (h : loadAll files contextFile paths = .error e) :
    ∃ path ∈ paths, Folder.load files contextFile path = .error e := by
  induction paths with
  | nil => cases h
  | cons path rest ih =>
      rw [loadAll] at h
      split at h
      · next hload =>
          cases h
          exact ⟨path, List.mem_cons_self, hload⟩
      · cases hrest : loadAll files contextFile rest with
        | ok folders =>
            rw [hrest] at h
            cases h
        | error e' =>
            rw [hrest] at h
            cases h
            obtain ⟨other, hother, hload⟩ := ih hrest
            exact ⟨other, List.mem_cons_of_mem _ hother, hload⟩

theorem loadAll_ok {contextFile : String} {paths : List String} {folders : List Folder}
    (h : loadAll files contextFile paths = .ok folders) :
    (∀ path ∈ paths, ∃ folder ∈ folders, Folder.load files contextFile path = .ok folder)
      ∧ ∀ folder ∈ folders, ∃ path ∈ paths,
        Folder.load files contextFile path = .ok folder := by
  induction paths generalizing folders with
  | nil =>
      cases h
      exact ⟨nofun, nofun⟩
  | cons path rest ih =>
      rw [loadAll] at h
      split at h
      · cases h
      · next first hload =>
          obtain ⟨others, hothers, rfl⟩ := map_ok_iff.mp h
          obtain ⟨hloaded, hpaths⟩ := ih hothers
          refine ⟨List.forall_mem_cons.mpr ⟨⟨first, List.mem_cons_self, hload⟩, ?_⟩,
            List.forall_mem_cons.mpr ⟨⟨path, List.mem_cons_self, hload⟩, ?_⟩⟩
          · intro other hother
            obtain ⟨folder, hfolder, hother⟩ := hloaded other hother
            exact ⟨folder, List.mem_cons_of_mem _ hfolder, hother⟩
          · intro folder hfolder
            obtain ⟨other, hother, hfolder⟩ := hpaths folder hfolder
            exact ⟨other, List.mem_cons_of_mem _ hother, hfolder⟩

theorem plan_eq_ok {plan : Plan} {count : Nat} (h : suite.plan files = .ok (plan, count)) :
    ∃ folders, loadAll files suite.settings.contextFile suite.folders = .ok folders
      ∧ plan = .ofFolders (.ofSettings suite.settings) folders
      ∧ Plan.checkCollaborators suite.presetters suite.cleaners plan.nodes = .ok () := by
  unfold Suite.plan at h
  split at h
  · cases h
  · next folders hfolders =>
      dsimp only at h
      split at h
      · cases h
      · next hchecked =>
          cases h
          exact ⟨folders, hfolders, rfl, hchecked⟩

theorem checked_plan {plan : Plan} {count : Nat} (h : suite.plan files = .ok (plan, count))
    (service : Service) : plan.Checked (suite.setup service) := by
  obtain ⟨-, -, -, hchecked⟩ := plan_eq_ok h
  exact Plan.checkCollaborators_eq_ok_iff.mp hchecked

/-- A suite that is flawed has no plan. -/
theorem Flawed.plan_error (h : suite.Flawed files) : ∃ e, suite.plan files = .error e := by
  cases hplan : suite.plan files with
  | error e => exact ⟨e, rfl⟩
  | ok planned =>
      obtain ⟨plan, count⟩ := planned
      obtain ⟨folders, hfolders, rfl, hchecked⟩ := plan_eq_ok hplan
      have hloaded := (loadAll_ok hfolders).1
      have hknown : ∀ {path folder spec}, path ∈ suite.folders →
          Folder.load files suite.settings.contextFile path = .ok folder →
          folder.HasContext spec →
          (∀ p ∈ spec.presetters, suite.presetters.contains p.name = true)
            ∧ ∀ c ∈ spec.cleaners, suite.cleaners.contains c.name = true := by
        intro path folder spec hpath hload hspec
        -- A folder is loaded in one way only, so the plan has its contexts and they were checked.
        obtain ⟨folder', hmem, hload'⟩ := hloaded path hpath
        cases hload.symm.trans hload'
        obtain ⟨node, hnode, rfl⟩ := List.mem_map.mp
          ((Plan.mem_specs_ofFolders (.ofSettings suite.settings) folders).mpr
            ⟨folder, hmem, hspec⟩)
        exact ContextNode.checkCollaborators_eq_ok_iff.mp
          (Plan.checkCollaborators_eq_ok_iff.mp hchecked node hnode)
      exfalso
      cases h with
      | unloadable hpath hload =>
          obtain ⟨folder, -, hload'⟩ := hloaded _ hpath
          cases hload.symm.trans hload'
      | presetter hpath hload hspec hp hunknown =>
          exact hunknown (OrderedMap.contains_iff.mp ((hknown hpath hload hspec).1 _ hp))
      | cleaner hpath hload hspec hc hunknown =>
          exact hunknown (OrderedMap.contains_iff.mp ((hknown hpath hload hspec).2 _ hc))

/-- A suite with nothing wrong about it has a plan. -/
theorem exists_plan (h : ¬ suite.Flawed files) :
    ∃ plan count, suite.plan files = .ok (plan, count) := by
  unfold Suite.plan
  cases hfolders : loadAll files suite.settings.contextFile suite.folders with
  | error e =>
      obtain ⟨path, hpath, hload⟩ := loadAll_error hfolders
      exact absurd (.unloadable hpath hload) h
  | ok folders =>
      have hchecked : Plan.checkCollaborators suite.presetters suite.cleaners
          (Plan.ofFolders (.ofSettings suite.settings) folders).nodes = .ok () := by
        refine Plan.checkCollaborators_eq_ok_iff.mpr fun node hnode => ?_
        obtain ⟨folder, hfolder, hspec⟩ :=
          (Plan.mem_specs_ofFolders _ _).mp (List.mem_map.mpr ⟨node, hnode, rfl⟩)
        obtain ⟨path, hpath, hload⟩ := (loadAll_ok hfolders).2 folder hfolder
        refine ContextNode.checkCollaborators_eq_ok_iff.mpr ⟨fun p hp => ?_, fun c hc => ?_⟩
        · by_contra hunknown
          exact h (.presetter hpath hload hspec hp (mt OrderedMap.contains_iff.mpr hunknown))
        · by_contra hunknown
          exact h (.cleaner hpath hload hspec hc (mt OrderedMap.contains_iff.mpr hunknown))
      dsimp only
      rw [hchecked]
      exact ⟨_, _, rfl⟩

/-- The journal of a run when its first case is next. -/
def announced (journal : Journal) (plan : Plan) (count : Nat) : Journal :=
  journal.record (.noted .info s!"running {plan.cases.length} cases from {count} data dirs")

theorem run_of_plan {plan : Plan} {count : Nat} (h : suite.plan files = .ok (plan, count))
    (service : Service) (journal : Journal) :
    ∃ after, suite.run files service journal
      = (.ok ⟨(plan.execute (suite.setup service) (.root suite.vars)
          (announced journal plan count)).1⟩, after) := by
  rw [run, h]
  exact ⟨_, rfl⟩

/-- A suite that is flawed is refused and nothing is done, any other is run. What is run is the
plan, and in it there is no error about a name that does not exist. -/
theorem refused_before_running (suite : Suite) (files : FileTree) (service : Service)
    (journal : Journal) :
    (suite.Flawed files → ∃ e, suite.run files service journal = (.error e, journal))
      ∧ (¬ suite.Flawed files →
        ∃ report after, suite.run files service journal = (.ok report, after))
      ∧ ∀ report after, suite.run files service journal = (.ok report, after) →
        ∃ plan count, suite.plan files = .ok (plan, count)
          ∧ report.cases = (plan.execute (suite.setup service) (.root suite.vars)
            (announced journal plan count)).1
          ∧ ∀ e, plan.Raises (suite.setup service) (.root suite.vars)
            (announced journal plan count) e → ¬ e.NamesUnknown := by
  refine ⟨fun hflawed => ?_, fun hsound => ?_, fun report after hrun => ?_⟩
  · obtain ⟨e, hplan⟩ := hflawed.plan_error
    exact ⟨e, by rw [run, hplan]⟩
  · obtain ⟨plan, count, hplan⟩ := exists_plan hsound
    obtain ⟨after, hrun⟩ := run_of_plan hplan service journal
    exact ⟨_, after, hrun⟩
  · cases hplan : suite.plan files with
    | error e =>
        rw [run, hplan] at hrun
        cases hrun
    | ok planned =>
        obtain ⟨plan, count⟩ := planned
        obtain ⟨after', hrun'⟩ := run_of_plan hplan service journal
        cases hrun.symm.trans hrun'
        exact ⟨plan, count, rfl, rfl, fun e hraises => (checked_plan hplan service).raises hraises⟩

/-- A folder without cases whose context is to be swept. -/
def sweptFiles : FileTree :=
  .folder [("data", .folder [("_context.yaml", .file "cleaner: [\x7bname: sweep\x7d]")])]

/-- A suite of the folder in which nothing can sweep. -/
def unswept : Suite where
  settings := {}
  folders := ["data"]
  presetters := Presetter.builtins
  clients := { usual := {} }
  functions := .builtins ⟨0, 0⟩

theorem refused_before_running_unswept :
    unswept.Flawed sweptFiles
      ∧ ∃ e, unswept.run sweptFiles .unreachable {} = (.error e, {}) := by
  have hloaded : (match Folder.load sweptFiles unswept.settings.contextFile "data" with
      | .ok folder => folder.context.cleaners.map (·.name)
      | .error _ => []) = ["sweep"] := by decide +kernel
  have hflawed : unswept.Flawed sweptFiles := by
    cases hload : Folder.load sweptFiles unswept.settings.contextFile "data" with
    | error e =>
        rw [hload] at hloaded
        cases hloaded
    | ok folder =>
        rw [hload] at hloaded
        obtain ⟨c, hc, hname⟩ :=
          List.mem_map.mp (hloaded.symm ▸ List.mem_singleton_self "sweep")
        refine .cleaner (List.mem_singleton_self _) hload (.own folder) hc ?_
        rw [hname]
        decide
  exact ⟨hflawed, (refused_before_running unswept sweptFiles .unreachable {}).1 hflawed⟩

end Suite

end HttpSuite
