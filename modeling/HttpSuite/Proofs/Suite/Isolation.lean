import HttpSuite.Proofs.Suite.Alone
import Mathlib.Data.List.Basic
import Mathlib.Data.List.GetD

/-!
# Cases do not disturb each other

Two filters that both select a case may have quite different cases run before it, and each of
these activates contexts that remember it. If the contexts can be activated again, the service
forgets, and what the cases call is the same on all occasions, then this does not show: what the
case sees and how it ends is the same, `isolated`. Both plans have the same contexts and the same
paths, so it is enough that both runs come to what the case comes to on its own.

Contexts that cannot be activated again do show it, even though they do not refer to what
they export: `not_isolated`.
-/

namespace HttpSuite

namespace Plan

variable {setup : Setup} {plan plan' : Plan}

theorem getD_of_outline (h : plan.outline = plan'.outline) (number : Nat) :
    (plan.nodes.getD number default).title = (plan'.nodes.getD number default).title
      ∧ (plan.nodes.getD number default).spec = (plan'.nodes.getD number default).spec := by
  have hnodes : plan.nodes.map (fun node => (node.title, node.spec))
      = plan'.nodes.map (fun node => (node.title, node.spec)) := congrArg Prod.fst h
  have hat := congrArg (fun l => l.getD number
    ((default : ContextNode).title, (default : ContextNode).spec)) hnodes
  rw [List.getD_map plan.nodes default fun node => (node.title, node.spec),
    List.getD_map plan'.nodes default fun node => (node.title, node.spec)] at hat
  exact Prod.mk.inj hat

theorem firstPath_congr (h : plan.outline = plan'.outline) (path : List Nat)
    (active : ActiveContext) :
    plan.firstPath setup path active = plan'.firstPath setup path active := by
  induction path generalizing active with
  | nil => rfl
  | cons number rest ih =>
      obtain ⟨htitle, hspec⟩ := getD_of_outline h number
      rw [firstPath, firstPath, Setup.activation_congr htitle hspec rfl rfl active]
      simp only [ih]

/-- A case that both plans select is the same for both when it is run on its own. -/
theorem outcomeAlone_congr (h : plan.outline = plan'.outline) {i : Nat} {c c' : PlannedCase}
    (hc : plan.cases[i]? = some c) (hc' : plan'.cases[i]? = some c')
    (hselected : c.selected = c'.selected) (setup : Setup) (root : ActiveContext) :
    c.path = c'.path ∧ plan.outcomeAlone setup root c = plan'.outcomeAlone setup root c' := by
  have hcases : plan.cases.map (fun c => (c.path, c.breadcrumb, c.spec))
      = plan'.cases.map (fun c => (c.path, c.breadcrumb, c.spec)) := congrArg Prod.snd h
  have hat := congrArg (·[i]?) hcases
  simp only [List.getElem?_map, hc, hc', Option.map_some, Option.some.injEq, Prod.mk.injEq] at hat
  obtain ⟨hpath, -, hspec⟩ := hat
  refine ⟨hpath, ?_⟩
  unfold outcomeAlone verdict
  rw [hselected, hpath, hspec, firstPath_congr h]

/-- Every context of the plan can be activated again. -/
theorem repeatable_getD (h : ∀ node ∈ plan.nodes, setup.Repeatable node.spec) (number : Nat) :
    setup.Repeatable (plan.nodes.getD number default).spec := by
  rw [List.getD_eq_getElem?_getD]
  cases hget : plan.nodes[number]? with
  | none => exact Setup.Repeatable.of_nothing (.of_eq_nil rfl) rfl rfl rfl
  | some node => exact h node (List.mem_of_getElem? hget)

theorem repeatable_of_outline (h : plan.outline = plan'.outline)
    (hrepeatable : ∀ node ∈ plan.nodes, setup.Repeatable node.spec) :
    ∀ node ∈ plan'.nodes, setup.Repeatable node.spec := by
  intro node hnode
  have hmem : (node.title, node.spec) ∈ plan'.outline.1 := List.mem_map.mpr ⟨node, hnode, rfl⟩
  rw [← h] at hmem
  obtain ⟨other, hother, heq⟩ := List.mem_map.mp hmem
  obtain ⟨-, hspec⟩ := Prod.mk.inj heq
  rw [← hspec]
  exact hrepeatable other hother

/-- What the cases of the plan call is the same on all occasions. -/
theorem steady_of_outline (h : plan.outline = plan'.outline)
    (hcases : ∀ c ∈ plan.cases, setup.functions.SteadyOn c.spec.called) :
    ∀ c ∈ plan'.cases, setup.functions.SteadyOn c.spec.called := by
  intro c hc
  have hmem : (c.path, c.breadcrumb, c.spec) ∈ plan'.outline.2 := List.mem_map.mpr ⟨c, hc, rfl⟩
  rw [← h] at hmem
  obtain ⟨other, hother, heq⟩ := List.mem_map.mp hmem
  obtain ⟨-, -, hspec⟩ := by simpa only [Prod.mk.injEq] using heq
  rw [← hspec]
  exact hcases other hother

theorem presettable_root (env : Scope) : setup.Presettable (ActiveContext.root env).template :=
  .plain

section

variable (hservice : setup.service.Stateless) {folders : List Folder} {filter : LabelFilter}
  (hrepeatable : ∀ node ∈ (ofFolders filter folders).nodes, setup.Repeatable node.spec)
  (hcases : ∀ c ∈ (ofFolders filter folders).cases, setup.functions.SteadyOn c.spec.called)
  (env : Scope)

include hservice hrepeatable hcases

/-- All cases of a run end as they do on their own. -/
theorem execute_eq (journal : Journal) :
    ((ofFolders filter folders).execute setup (.root env) journal).1.map (·.outcome)
      = (ofFolders filter folders).cases.map
        ((ofFolders filter folders).outcomeAlone setup (.root env)) := by
  obtain ⟨front, hfront⟩ := (laidOut_ofFolders filter folders).around
  exact (reportAll_eq hservice (presettable_root env) (repeatable_getD hrepeatable) hcases
    (fun c hc p m q => hfront c hc p m q (Nat.zero_le m)) (settled_start journal)).1

/-- Whatever cases were run before, a case sees what it does on its own. -/
theorem active_eq {c : PlannedCase} (hc : c ∈ (ofFolders filter folders).cases)
    {before : List PlannedCase} (hbefore : before ⊆ (ofFolders filter folders).cases)
    (journal : Journal) :
    ((ofFolders filter folders).activatePath setup c.path (.root env)
        ((ofFolders filter folders).reportAll setup (.root env) before
          ((ofFolders filter folders).start journal)).2).2.1
      = (ofFolders filter folders).firstPath setup c.path (.root env) := by
  obtain ⟨front, hfront⟩ := (laidOut_ofFolders filter folders).around
  have hsettled := (reportAll_eq hservice (presettable_root env) (repeatable_getD hrepeatable)
    (fun c hc => hcases c (hbefore hc))
    (fun c hc p m q => hfront c (hbefore hc) p m q (Nat.zero_le m)) (settled_start journal)).2
  refine (activatePath_eq hservice (presettable_root env) (repeatable_getD hrepeatable)
    (rfl : (ofFolders filter folders).firstPath setup [] (.root env) = .ok (.root env))
    (fun p m q => hfront c hc p m q (Nat.zero_le m)) hsettled).1

end

/-- If every context can be activated again, the service forgets, and what the cases call is the
same on all occasions, then a case that two filters select ends in the same under both, and once
its contexts are activated it sees the same whatever cases were run before. -/
theorem isolated (hservice : setup.service.Stateless) {folders : List Folder}
    {first second : LabelFilter}
    (hrepeatable : ∀ node ∈ (ofFolders first folders).nodes, setup.Repeatable node.spec)
    (hcases : ∀ c ∈ (ofFolders first folders).cases, setup.functions.SteadyOn c.spec.called)
    (env : Scope) {i : Nat} {c c' : PlannedCase}
    (hc : (ofFolders first folders).cases[i]? = some c) (hselected : c.selected = true)
    (hc' : (ofFolders second folders).cases[i]? = some c') (hselected' : c'.selected = true) :
    (∀ journal journal', ∃ outcome,
      ((ofFolders first folders).execute setup (.root env) journal).1[i]?.map (·.outcome)
          = some outcome
        ∧ ((ofFolders second folders).execute setup (.root env) journal').1[i]?.map (·.outcome)
          = some outcome)
      ∧ ∀ before ⊆ (ofFolders first folders).cases,
          ∀ before' ⊆ (ofFolders second folders).cases, ∀ journal journal',
        ((ofFolders first folders).activatePath setup c.path (.root env)
            ((ofFolders first folders).reportAll setup (.root env) before
              ((ofFolders first folders).start journal)).2).2.1
          = ((ofFolders second folders).activatePath setup c'.path (.root env)
            ((ofFolders second folders).reportAll setup (.root env) before'
              ((ofFolders second folders).start journal')).2).2.1 := by
  have houtline := outline_ofFolders first second folders
  have hrepeatable' := repeatable_of_outline houtline hrepeatable
  have hcases' := steady_of_outline houtline hcases
  obtain ⟨hpath, halone⟩ := outcomeAlone_congr houtline hc hc'
    (hselected.trans hselected'.symm) setup (.root env)
  refine ⟨fun journal journal' => ?_, ?_⟩
  · refine ⟨(ofFolders first folders).outcomeAlone setup (.root env) c, ?_, ?_⟩
    · rw [← List.getElem?_map, execute_eq hservice hrepeatable hcases, List.getElem?_map, hc]
      rfl
    · rw [← List.getElem?_map, execute_eq hservice hrepeatable' hcases', List.getElem?_map,
        hc', halone]
      rfl
  · intro before hbefore before' hbefore' journal journal'
    rw [active_eq hservice hrepeatable hcases env (List.mem_of_getElem? hc) hbefore,
      active_eq hservice hrepeatable' hcases' env (List.mem_of_getElem? hc') hbefore', hpath,
      firstPath_congr houtline]

/-! ## A context that can be activated again -/

/-- A round trip that cannot be sent, and is not if its condition leaves it out. -/
def unsendable (expr : String) : RoundTripSpec where
  condition := some { expr := expr, args := .empty }

/-- A folder with two cases, the second of which has a label. Both fail if an expression holds
in the scope that the context hands down. -/
def twoCases (context : ContextSpec) (expr : String) : List Folder :=
  [⟨"d", "d", context, 2,
    [⟨"a.yaml", "d/a.yaml", { flow := [unsendable expr] }⟩,
      ⟨"b.yaml", "d/b.yaml", { flow := [unsendable expr], labels := ["b"] }⟩], []⟩]

/-- How the second case ends. -/
def secondOutcome (service : Service) (filter : LabelFilter) (folders : List Folder) :
    Option Outcome :=
  ((ofFolders filter folders).execute (.plain service) (.root .empty) {}).1[1]?.map (·.outcome)

/-- A user is made up by a constructor, and a list by the flow; both are exported, and the first
item of the list besides. -/
def userContext : ContextSpec where
  flow := [.leftOut 1 ["list"]]
  validatedFlow := [⟨[.leftOut 1 ["user"]], [.leftOut 2 ["seen"]]⟩]
  exports := [⟨"list", []⟩, ⟨"first", [.literal "list", .literal "[0]"]⟩, ⟨"user", []⟩]

theorem mayDefine_leftOut {n : Nat} {names : List String} (hne : names ≠ []) {name : String}
    (h : setup.MayDefine [.leftOut n names] name) : name ∈ names := by
  obtain ⟨spec, hspec, template, -, hname⟩ := h
  cases List.mem_singleton.mp hspec
  have hsome : ¬ (RoundTripSpec.leftOut n names).definitions.isEmpty := by
    simpa [RoundTripSpec.leftOut] using hne
  rw [RoundTripSpec.definable, if_neg hsome] at hname
  simpa [RoundTripSpec.leftOut] using hname

theorem repeatable_userContext (service : Service) :
    (Setup.plain service).Repeatable userContext := by
  have hwhole : ∀ name, (Setup.plain service).IsWhole ⟨name, []⟩ := by
    intro name occasion vars path h
    cases h
    rfl
  have hnames : ∀ e ∈ userContext.exports, e.names = [] := by decide +kernel
  refine ⟨.of_eq_nil (by decide +kernel), rfl, by decide +kernel, ?_,
    List.pairwise_singleton _ _, ?_, ?_, ?_, ?_⟩
  · intro flow hflow spec hspec name hname
    cases List.mem_singleton.mp hflow
    cases List.mem_singleton.mp hspec
    rw [show (RoundTripSpec.leftOut 2 ["seen"]).names = [] by decide +kernel] at hname
    cases hname
  · intro e he name hname
    rw [hnames e he] at hname
    cases hname
  · intro e he occasion vars name rest hpath _
    have hlist : (⟨"list", []⟩ : ExportSpec) ∈ userContext.exports := by decide +kernel
    have huser : (⟨"user", []⟩ : ExportSpec) ∈ userContext.exports := by decide +kernel
    simp only [userContext, List.mem_cons, List.not_mem_nil, or_false] at he
    rcases he with rfl | rfl | rfl
    · cases hpath
      exact ⟨_, hlist, rfl, hwhole _⟩
    · cases hpath
      exact ⟨_, hlist, rfl, hwhole _⟩
    · cases hpath
      exact ⟨_, huser, rfl, hwhole _⟩
  · intro e _ _ flow hflow hmay hflowMay
    cases List.mem_singleton.mp hflow
    have hname := List.mem_singleton.mp (mayDefine_leftOut (by simp) hmay)
    rw [hname] at hflowMay
    exact absurd (mayDefine_leftOut (by simp) hflowMay) (by decide)
  · exact fun _ _ _ => List.pairwise_singleton _ _

def userFolders : List Folder := twoCases userContext "user != \"[null]\""

/-- The second case passes, whether the first one is run before it or not. -/
theorem isolated_user :
    Service.unreachable.Stateless
      ∧ (∀ node ∈ (ofFolders {} userFolders).nodes,
          (Setup.plain .unreachable).Repeatable node.spec)
      ∧ (∀ c ∈ (ofFolders {} userFolders).cases,
          (Setup.plain .unreachable).functions.SteadyOn c.spec.called)
      ∧ secondOutcome .unreachable {} userFolders = some .passed
      ∧ secondOutcome .unreachable ⟨["b"], []⟩ userFolders = some .passed := by
  have hservice : Service.unreachable.Stateless := fun _ _ _ => rfl
  have hrepeatable : ∀ node ∈ (ofFolders {} userFolders).nodes,
      (Setup.plain .unreachable).Repeatable node.spec := by
    intro node hnode
    cases List.mem_singleton.mp hnode
    exact repeatable_userContext _
  have hcases : ∀ c ∈ (ofFolders {} userFolders).cases,
      (Setup.plain .unreachable).functions.SteadyOn c.spec.called := by
    have hnone : ∀ c ∈ (ofFolders {} userFolders).cases, c.spec.called = [] := by decide +kernel
    exact fun c hc => .of_eq_nil (hnone c hc)
  have hfirst : secondOutcome .unreachable {} userFolders = some .passed := by decide +kernel
  refine ⟨hservice, hrepeatable, hcases, hfirst, ?_⟩
  have hselected : ∀ filter ∈ [({} : LabelFilter), ⟨["b"], []⟩],
      ∃ c, (ofFolders filter userFolders).cases[1]? = some c ∧ c.selected = true := by
    intro filter hfilter
    simp only [List.mem_cons, List.not_mem_nil, or_false] at hfilter
    rcases hfilter with rfl | rfl <;> exact ⟨_, rfl, rfl⟩
  obtain ⟨c, hc, hcSelected⟩ := hselected {} (by simp)
  obtain ⟨c', hc', hcSelected'⟩ := hselected ⟨["b"], []⟩ (by simp)
  obtain ⟨outcome, hall, honly⟩ :=
    (isolated hservice hrepeatable hcases .empty hc hcSelected hc' hcSelected').1 {} {}
  exact honly.trans (hall.symm.trans hfirst)

/-! ## Contexts that cannot -/

/-- A service that answers with a number, by the path. -/
def numberService : Service where
  reachable _ := true
  reply _ request :=
    .answer { body := (if request.url.pathText == "/one" then "1" else "2").toUTF8.toList }

/-- A round trip that asks for a number and defines variables as it. -/
def asking (path : String) (names : List String) : RoundTripSpec where
  request := { host := some (.literal "localhost"), api := some (.literal s!"GET {path}") }
  definitions := names.map fun name => { name := name }

def readTemplate (source : String) : Template := (Template.parse source).toOption.getD default

/-- Contexts that lack one of the conditions on those that can be activated again, each with a
service and with an expression for the cases. -/
def unrepeatable : List (Service × ContextSpec × String) :=
  -- A validator refers to what its constructor defines, or an earlier one.
  [(.unreachable,
      { validatedFlow := [⟨[.leftOut 1 ["user"]], [unsendable "user != \"[null]\""]⟩] }, "false"),
    (.unreachable,
      { validatedFlow := [⟨[.leftOut 1 ["user"]], []⟩, ⟨[], [unsendable "user != \"[null]\""]⟩] },
      "false"),
    -- The path of an export does.
    (numberService,
      { flow := [.leftOut 2 ["list"]]
        validatedFlow := [⟨[asking "/one" ["which"]], []⟩]
        exports := [⟨"item", [.literal "list", readTemplate "%\x7bwhich\x7d"]⟩] }, "false"),
    -- It leads to something that a constructor defines and that is not exported.
    (.unreachable,
      { validatedFlow := [⟨[.leftOut 1 ["created"]], []⟩]
        exports := [⟨"id", [.literal "created"]⟩] }, "false"),
    -- It leads to something that is exported from elsewhere.
    (.unreachable,
      { flow := [.leftOut 1 ["a"], .leftOut 2 ["b"]]
        exports := [⟨"a", [.literal "b"]⟩, ⟨"c", [.literal "a"]⟩] }, "c != \"[null]\""),
    -- What a constructor defines on top of the flow, or of an earlier validator, is exported.
    (numberService,
      { flow := [asking "/one" ["x"]]
        validatedFlow := [⟨[asking "/two" ["x"]], []⟩]
        exports := [⟨"x", []⟩] }, "x != \"2\""),
    (numberService,
      { validatedFlow := [⟨[], [asking "/one" ["x"]]⟩, ⟨[asking "/two" ["x"]], []⟩]
        exports := [⟨"x", []⟩] }, "x != \"2\"")]

/-- The context does not refer to what it exports, and yet the second case passes if it is run
alone and not behind the first one. -/
structure Disturbs (service : Service) (context : ContextSpec) (expr : String) : Prop where
  stateless : service.Stateless
  steady : (Setup.plain service).functions.SteadyOn context.called
    ∧ ∀ c ∈ (ofFolders {} (twoCases context expr)).cases,
      (Setup.plain service).functions.SteadyOn c.spec.called
  uncleaned : context.cleaners = []
  unreferring : ∀ name ∈ context.names, name ∉ Setup.exportNames context.exports
  alone : secondOutcome service ⟨["b"], []⟩ (twoCases context expr) = some .passed
  behind : secondOutcome service {} (twoCases context expr) ≠ some .passed

theorem steady_twoCases {functions : FunctionRegistry} {context : ContextSpec} {expr : String}
    (hcontext : context.called = [])
    (hcases : ∀ c ∈ (ofFolders {} (twoCases context expr)).cases, c.spec.called = []) :
    functions.SteadyOn context.called
      ∧ ∀ c ∈ (ofFolders {} (twoCases context expr)).cases, functions.SteadyOn c.spec.called :=
  ⟨.of_eq_nil hcontext, fun c hc => .of_eq_nil (hcases c hc)⟩

theorem not_isolated : unrepeatable.Forall fun e => Disturbs e.1 e.2.1 e.2.2 := by
  have hstateless : ∀ service ∈ [Service.unreachable, numberService], service.Stateless := by
    intro service hservice
    simp only [List.mem_cons, List.not_mem_nil, or_false] at hservice
    rcases hservice with rfl | rfl <;> exact fun _ _ _ => rfl
  rw [List.forall_iff_forall_mem]
  intro e he
  simp only [unrepeatable, List.mem_cons, List.not_mem_nil, or_false] at he
  rcases he with rfl | rfl | rfl | rfl | rfl | rfl | rfl <;>
    exact ⟨hstateless _ (by simp), steady_twoCases (by decide +kernel) (by decide +kernel), rfl,
      by decide +kernel, by decide +kernel, by decide +kernel⟩

end Plan

end HttpSuite
