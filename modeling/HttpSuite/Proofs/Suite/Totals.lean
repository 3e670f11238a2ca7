import HttpSuite.Proofs.Suite.Complete
import HttpSuite.Proofs.Suite.Plan

/-!
# Totals agree with the plan

A context is finished when as many cases have been through it as its total says, so a total
that is off would leave a cleaner out or run it early. Totals come from a recursion of their
own, and the paths of cases from the one that numbers the contexts; when folders are loaded a
third recursion counts their cases.

A path is followed from an outermost folder, one step inside at a time, to the folder that the
case is in. That there is such a route is read off the addresses of folders: the last step of
the address is the last step of the route.
-/

namespace HttpSuite

/-- The folder at a position right inside another. -/
def Found.step (outer : Found) (i : Nat) (inner : Folder) : Found :=
  ⟨outer.address ++ [i], outer.around ++ [outer.folder], inner⟩

namespace Folder

/-- Numbers that lead from one of the folders, from parent to child, to a folder. A number
stands for a folder in the list of all that are found. -/
inductive Route (folders : List Folder) (all : List Found) : List Nat → Found → Prop where
  | outermost {n i : Nat} {folder : Folder} (h : folders[i]? = some folder)
      (hn : all[n]? = some ⟨[i], [], folder⟩) : Route folders all [n] ⟨[i], [], folder⟩
  | inside {path : List Nat} {n i : Nat} {outer : Found} {inner : Folder}
      (hroute : Route folders all path outer) (h : outer.folder.folders[i]? = some inner)
      (hn : all[n]? = some (outer.step i inner)) :
      Route folders all (path ++ [n]) (outer.step i inner)

/-! ### The last step of an address -/

variable {folders : List Folder} {address : List Nat} {around : List Folder} {folder : Folder}

theorem Leads.concat {i : Nat} (h : Leads folders (address ++ [i]) around folder)
    (hne : address ≠ []) :
    ∃ before outer, around = before ++ [outer] ∧ Leads folders address before outer
      ∧ outer.folders[i]? = some folder := by
  induction address generalizing folders around with
  | nil => exact absurd rfl hne
  | cons j address ih =>
      cases address with
      | nil =>
          cases h with
          | inside houter hin =>
              cases hin with
              | here h => exact ⟨[], _, rfl, .here houter, h⟩
              | inside _ hin => cases hin
      | cons k address =>
          cases h with
          | inside houter hin =>
              obtain ⟨before, outer, rfl, hleads, h⟩ := ih hin (List.cons_ne_nil k address)
              exact ⟨_ :: before, outer, rfl, .inside houter hleads, h⟩

theorem Leads.unique {around' : List Folder} {folder' : Folder}
    (h : Leads folders address around folder) (h' : Leads folders address around' folder') :
    around = around' ∧ folder = folder' := by
  induction h generalizing around' with
  | here h =>
      cases h' with
      | here h' => exact ⟨rfl, Option.some.inj (h.symm.trans h')⟩
      | inside _ hin => cases hin
  | inside h hin ih =>
      cases h' with
      | here _ => cases hin
      | inside h' hin' =>
          cases h.symm.trans h'
          obtain ⟨rfl, rfl⟩ := ih hin'
          exact ⟨rfl, rfl⟩

/-- The list of all that are found has at every place a folder that its address leads to. -/
theorem leads_of_getElem? {x : Found} {n : Nat} (h : (foundIn [] 0 [] folders)[n]? = some x) :
    Leads folders x.address x.around x.folder :=
  ((Plan.covers_ofFolders {} folders).found x).mp (List.mem_of_getElem? h)

theorem getElem?_of_address {n : Nat}
    (hn : (foundIn [] 0 [] folders)[n]?.map Found.address = some address)
    (h : Leads folders address around folder) :
    (foundIn [] 0 [] folders)[n]? = some ⟨address, around, folder⟩ := by
  obtain ⟨⟨_, around', folder'⟩, hx, rfl⟩ := Option.map_eq_some_iff.mp hn
  obtain ⟨rfl, rfl⟩ := (leads_of_getElem? hx).unique h
  exact hx

/-- The numbers of the beginnings of an address are a route to where it leads. -/
theorem route_of_inits {path : List Nat} (h : Leads folders address around folder)
    (hpath : path.map (fun n => (foundIn [] 0 [] folders)[n]?.map Found.address)
      = address.inits.tail.map some) :
    Route folders (foundIn [] 0 [] folders) path ⟨address, around, folder⟩ := by
  induction address using List.reverseRecOn generalizing path around folder with
  | nil => cases h
  | append_singleton address i ih =>
      rw [inits_concat_tail, List.map_append, List.map_eq_append_iff] at hpath
      obtain ⟨before, last, rfl, hbefore, hlast⟩ := hpath
      obtain ⟨n, rfl, hn⟩ := List.map_eq_singleton_iff.mp hlast
      have hat := getElem?_of_address hn h
      by_cases hne : address = []
      · subst hne
        cases List.map_eq_nil_iff.mp hbefore
        cases h with
        | here h => exact .outermost h hat
        | inside _ hin => cases hin
      · obtain ⟨front, outer, rfl, hleads, h⟩ := h.concat hne
        exact .inside (ih hleads hbefore) h hat

/-- The contexts on a route are called by what is around its end, and by that. -/
theorem Route.titles {all : List Found} {path : List Nat} {x : Found}
    (h : Route folders all path x) (filter : LabelFilter) :
    ∃ nodes : List ContextNode,
      path.map (fun n => (all.map (Found.node filter))[n]?) = nodes.map some
        ∧ nodes.map ContextNode.title = x.around.map Folder.title ++ [x.folder.title] := by
  induction h with
  | @outermost n i folder _ hn =>
      refine ⟨[Found.node filter ⟨[i], [], folder⟩], ?_, rfl⟩
      rw [List.map_singleton, List.getElem?_map, hn]
      rfl
  | @inside path n i outer inner _ _ hn ih =>
      obtain ⟨nodes, hnodes, htitles⟩ := ih
      refine ⟨nodes ++ [(outer.step i inner).node filter], ?_, ?_⟩
      · rw [List.map_append, List.map_append, hnodes, List.map_singleton, List.getElem?_map, hn]
        rfl
      · rw [List.map_append, htitles, Found.step, List.map_append]
        rfl

/-! ### Counts -/

mutual

theorem selectedCount_eq_countP (filter : LabelFilter) : ∀ folder : Folder,
    folder.selectedCount filter = folder.allCases.countP fun c => filter.selects c.spec.labels
  | ⟨_, _, _, _, cases, folders⟩ => by
      rw [selectedCount, allCases, List.countP_append, List.countP_eq_length_filter,
        selectedCounts_eq_countP filter folders]

theorem selectedCounts_eq_countP (filter : LabelFilter) : ∀ folders : List Folder,
    selectedCounts filter folders
      = (allCasesOf folders).countP fun c => filter.selects c.spec.labels
  | [] => by
      rw [selectedCounts, allCasesOf, List.countP_nil]
  | first :: rest => by
      rw [selectedCounts, allCasesOf, List.countP_append, selectedCount_eq_countP filter first,
        selectedCounts_eq_countP filter rest]

end

/-- The count of a folder is that of its cases, and so are the counts of the folders inside. -/
inductive Counted : Folder → Prop where
  | intro {folder : Folder} (hcount : folder.caseCount = folder.allCases.length)
      (hinner : ∀ f ∈ folder.folders, Counted f) : Counted folder

theorem Counted.caseCount (h : folder.Counted) : folder.caseCount = folder.allCases.length := by
  cases h with
  | intro hcount _ => exact hcount

theorem Counted.leads (h : Leads folders address around folder)
    (hfolders : ∀ f ∈ folders, f.Counted) : folder.Counted := by
  induction h with
  | here h => exact hfolders _ (List.mem_of_getElem? h)
  | inside h _ ih =>
      cases hfolders _ (List.mem_of_getElem? h) with
      | intro _ hinner => exact ih hinner

theorem Loaded.counted {contextFile : String} (h : Loaded contextFile folder) : folder.Counted := by
  induction h with
  | intro _ _ _ ih =>
      refine .intro (caseCount_ofItems _ _ _ fun f hf => ?_) ih
      exact (ih f (List.mem_filterMap.mpr ⟨_, hf, rfl⟩)).caseCount

end Folder

/-! ### What the numbers of a plan say -/

/-- What the case of a folder that is found is in a plan. -/
structure Found.Stands (filter : LabelFilter) (folders : List Folder) (plan : Plan)
    (x : Found × CaseFile) (c : PlannedCase) : Prop where
  /-- The case is that of the file. -/
  spec : c.spec = x.2.spec
  /-- The filter decides whether it is run. -/
  selected : c.selected = filter.selects x.2.spec.labels
  /-- Its path leads from an outermost folder, from parent to child, to its own. -/
  route : Folder.Route folders (Folder.foundIn [] 0 [] folders) c.path x.1
  /-- It is called by the contexts on its path and by itself. -/
  breadcrumb : ∃ nodes : List ContextNode, c.path.map (fun n => plan.nodes[n]?) = nodes.map some
    ∧ c.breadcrumb = nodes.map ContextNode.title ++ [x.2.title]

/-- The totals of a plan are those of its paths, and these are those of the folders. -/
structure Plan.Tallied (filter : LabelFilter) (folders : List Folder) (plan : Plan) : Prop where
  /-- The contexts are those of the folders. -/
  nodes : plan.nodes = (Folder.foundIn [] 0 [] folders).map (Found.node filter)
  /-- A context counts the selected cases that have it on their paths. -/
  total : ∀ (n : Nat) (node : ContextNode), plan.nodes[n]? = some node →
    node.total = Plan.countThrough n plan.cases
  /-- Folder by folder, its own cases are in the plan, and nothing else is. -/
  cases : List.Forall₂ (Found.Stands filter folders plan)
    ((Folder.foundIn [] 0 [] folders).flatMap Found.cases) plan.cases

theorem Plan.Covers.stands {filter : LabelFilter} {folders : List Folder} {plan : Plan}
    (hcovers : plan.Covers filter folders) {x : Found × CaseFile} {c : PlannedCase}
    (hx : x ∈ (Folder.foundIn [] 0 [] folders).flatMap Found.cases)
    (h : Found.PlannedAs filter (Folder.foundIn [] 0 [] folders) x c) :
    Found.Stands filter folders plan x c := by
  obtain ⟨y, hy, hin⟩ := List.mem_flatMap.mp hx
  obtain ⟨file, -, rfl⟩ := List.mem_map.mp hin
  have hroute := Folder.route_of_inits ((hcovers.found y).mp hy) h.path
  obtain ⟨nodes, hnodes, htitles⟩ := hroute.titles filter
  refine ⟨h.spec, h.selected, hroute, nodes, hcovers.nodes ▸ hnodes, ?_⟩
  rw [h.breadcrumb, htitles]

theorem Plan.tallied_ofFolders (filter : LabelFilter) (folders : List Folder) :
    (Plan.ofFolders filter folders).Tallied filter folders := by
  have hcovers := Plan.covers_ofFolders filter folders
  have hlaid := Plan.laidOut_ofFolders filter folders
  refine ⟨hcovers.nodes, fun n node hnode => ?_, ?_⟩
  · rw [hlaid.total n node hnode, Nat.zero_add]
  · have hplanned := (List.forall₂_and_left ..).mpr ⟨fun _ hx => hx, hcovers.cases⟩
    exact hplanned.imp fun _ _ ⟨hx, h⟩ => hcovers.stands hx h

/-- With nothing filtered out the total of a folder that counts its cases is that count. -/
theorem Folder.Counted.selectedCount {folder : Folder} (h : folder.Counted) :
    folder.selectedCount {} = folder.caseCount := by
  have hall : ∀ c ∈ folder.allCases, (LabelFilter.selects {} c.spec.labels) = true := by
    intro c _
    simp [LabelFilter.selects]
  rw [selectedCount_eq_countP, List.countP_eq_length.mpr hall, h.caseCount]

/-- Totals agree with paths, whatever is filtered out, and if nothing is with the counts of
folders that were loaded. -/
theorem Plan.totals_agree (folders : List Folder) :
    (∀ filter, (Plan.ofFolders filter folders).Tallied filter folders)
      ∧ ((∀ f ∈ folders, ∃ files contextFile path, Folder.load files contextFile path = .ok f) →
        (Plan.ofFolders {} folders).nodes.map ContextNode.total
          = (Folder.foundIn [] 0 [] folders).map (·.folder.caseCount)) := by
  refine ⟨fun filter => tallied_ofFolders filter folders, fun hloaded => ?_⟩
  have hcovers := Plan.covers_ofFolders {} folders
  have hcounted : ∀ f ∈ folders, f.Counted := by
    intro f hf
    obtain ⟨files, contextFile, path, h⟩ := hloaded f hf
    exact (Folder.loaded_of_load h).counted
  rw [hcovers.nodes, List.map_map]
  refine List.map_congr_left fun x hx => ?_
  exact (Folder.Counted.leads ((hcovers.found x).mp hx) hcounted).selectedCount

/-- What is in a folder with a case, and one further inside. -/
def stockEntries : List (String × FileTree) :=
  [("_context.yaml", .file ""), ("a.yaml", .file ""),
    ("users", .folder [("_context.yaml", .file ""), ("b.yaml", .file ""),
      ("c.yaml", .file "labels: [slow]")])]

/-- What loading that folder comes to: its count, and the totals of its plan, with and without
the slow case. -/
theorem Plan.totals_agree_stock :
    ∃ folder, Folder.load (.folder stockEntries) "_context.yaml" "." = .ok folder
      ∧ (Folder.foundIn [] 0 [] [folder]).map (·.folder.caseCount) = [3, 2]
      ∧ (Plan.ofFolders {} [folder]).nodes.map ContextNode.total = [3, 2]
      ∧ (Plan.ofFolders ⟨[], ["slow"]⟩ [folder]).nodes.map ContextNode.total = [2, 1]
      ∧ (Plan.ofFolders ⟨[], ["slow"]⟩ [folder]).Tallied ⟨[], ["slow"]⟩ [folder] := by
  have hread : (match Folder.load (.folder stockEntries) "_context.yaml" "." with
      | .ok folder =>
        some ((Folder.foundIn [] 0 [] [folder]).map (·.folder.caseCount),
          (Plan.ofFolders ⟨[], ["slow"]⟩ [folder]).nodes.map ContextNode.total)
      | .error _ => none) = some ([3, 2], [2, 1]) := by
    rw [Folder.load, Folder.find_shop]
    dsimp only [FileTree.root]
    -- The entries are in order at both depths, so nothing is sorted.
    rw [Folder.loadEntry_of_increasing (by decide), stockEntries, Folder.loadEntries,
      Folder.loadEntries, Folder.loadEntries, Folder.loadEntry_of_increasing (by decide)]
    decide +kernel
  cases hload : Folder.load (.folder stockEntries) "_context.yaml" "." with
  | error e =>
      rw [hload] at hread
      cases hread
  | ok folder =>
      rw [hload] at hread
      obtain ⟨hcounts, htotals⟩ := Prod.mk.inj (Option.some.inj hread)
      obtain ⟨htallied, hsame⟩ := totals_agree [folder]
      have hloaded : ∀ f ∈ [folder], ∃ files contextFile path,
          Folder.load files contextFile path = .ok f := by
        intro f hf
        cases List.mem_singleton.mp hf
        exact ⟨_, _, _, hload⟩
      exact ⟨folder, rfl, hcounts, (hsame hloaded).trans hcounts, htotals, htallied _⟩

end HttpSuite
