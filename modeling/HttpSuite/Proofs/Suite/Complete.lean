import Mathlib.Data.List.Infix
import HttpSuite.Proofs.Suite.Reordered

/-!
# A suite is planned completely

What a plan has to cover is said without the recursion that makes plans. A folder is found by an
address, the positions on the way to it, and `Leads` says where an address leads; a plan has a
context for every folder that is found, by address, and the cases of the folders in that order.
The numbers on the path of a case are those of the contexts at the beginnings of the address, so
no two folders are mixed up that say the same.

The recursion meets the folders in the order of their addresses. That it numbers them rightly is
an invariant about the list of all folders that are found: those in front of the current one are
as many as its number says.
-/

namespace HttpSuite

/-- A folder that is found among folders. -/
structure Found where
  /-- The positions on the way to it, from the outermost folder on. -/
  address : List Nat
  /-- The folders around it, the outermost one first. -/
  around : List Folder
  /-- The folder. -/
  folder : Folder

namespace Folder

/-- Where an address leads among folders, and past which of them. -/
inductive Leads : List Folder → List Nat → List Folder → Folder → Prop where
  | here {folders : List Folder} {i : Nat} {folder : Folder} (h : folders[i]? = some folder) :
      Leads folders [i] [] folder
  | inside {folders : List Folder} {i : Nat} {outer folder : Folder} {address : List Nat}
      {around : List Folder} (h : folders[i]? = some outer)
      (hin : Leads outer.folders address around folder) :
      Leads folders (i :: address) (outer :: around) folder

theorem leads_zero_iff {first : Folder} {rest : List Folder} {address : List Nat}
    {around : List Folder} {folder : Folder} :
    Leads (first :: rest) (0 :: address) around folder
      ↔ (address = [] ∧ around = [] ∧ folder = first)
        ∨ ∃ further, around = first :: further ∧ Leads first.folders address further folder := by
  constructor
  · intro h
    cases h with
    | here h =>
        cases h
        exact Or.inl ⟨rfl, rfl, rfl⟩
    | inside h hin =>
        cases h
        exact Or.inr ⟨_, rfl, hin⟩
  · rintro (⟨rfl, rfl, rfl⟩ | ⟨further, rfl, hin⟩)
    · exact .here rfl
    · exact .inside rfl hin

theorem leads_succ_iff {first : Folder} {rest : List Folder} {i : Nat} {address : List Nat}
    {around : List Folder} {folder : Folder} :
    Leads (first :: rest) ((i + 1) :: address) around folder
      ↔ Leads rest (i :: address) around folder := by
  constructor
  · intro h
    cases h with
    | here h => exact .here h
    | inside h hin => exact .inside h hin
  · intro h
    cases h with
    | here h => exact .here h
    | inside h hin => exact .inside h hin

mutual

/-- A folder, and then what is found in it. Its address and the folders around it are given. -/
def found (address : List Nat) (around : List Folder) : Folder → List Found
  | ⟨name, path, context, count, cases, folders⟩ =>
    let folder : Folder := ⟨name, path, context, count, cases, folders⟩
    ⟨address, around, folder⟩ :: foundIn address 0 (around ++ [folder]) folders

/-- What is found in folders, the first of which has the given position behind the address. -/
def foundIn (address : List Nat) (position : Nat) (around : List Folder) :
    List Folder → List Found
  | [] => []
  | folder :: rest =>
    folder.found (address ++ [position]) around ++ foundIn address (position + 1) around rest

end

mutual

theorem mem_found_iff {x : Found} : ∀ (folder : Folder) (address : List Nat)
    (around : List Folder), x ∈ folder.found address around
      ↔ x = ⟨address, around, folder⟩ ∨ ∃ a further f, Leads folder.folders a further f
        ∧ x = ⟨address ++ a, around ++ folder :: further, f⟩
  | ⟨name, path, context, count, cases, folders⟩, address, around => by
      rw [found, List.mem_cons, mem_foundIn_iff folders]
      refine or_congr_right ⟨?_, ?_⟩
      · rintro ⟨i, a, further, f, hleads, rfl⟩
        refine ⟨i :: a, further, f, hleads, ?_⟩
        rw [Nat.zero_add, List.append_assoc, List.singleton_append]
      · rintro ⟨a, further, f, hleads, rfl⟩
        cases a with
        | nil => cases hleads
        | cons i a =>
            refine ⟨i, a, further, f, hleads, ?_⟩
            rw [Nat.zero_add, List.append_assoc, List.singleton_append]

theorem mem_foundIn_iff {x : Found} : ∀ (folders : List Folder) (address : List Nat)
    (position : Nat) (around : List Folder), x ∈ foundIn address position around folders
      ↔ ∃ i a further f, Leads folders (i :: a) further f
        ∧ x = ⟨address ++ (position + i) :: a, around ++ further, f⟩
  | [], address, position, around => by
      rw [foundIn]
      refine iff_of_false List.not_mem_nil ?_
      rintro ⟨i, a, further, f, hleads, -⟩
      cases hleads with
      | here h => cases h
      | inside h _ => cases h
  | first :: rest, address, position, around => by
      rw [foundIn, List.mem_append, mem_found_iff first, mem_foundIn_iff rest]
      constructor
      · rintro ((rfl | ⟨a, further, f, hleads, rfl⟩) | ⟨i, a, further, f, hleads, rfl⟩)
        · exact ⟨0, [], [], first, leads_zero_iff.mpr (Or.inl ⟨rfl, rfl, rfl⟩), by simp⟩
        · exact ⟨0, a, first :: further, f, leads_zero_iff.mpr (Or.inr ⟨further, rfl, hleads⟩),
            by simp⟩
        · exact ⟨i + 1, a, further, f, leads_succ_iff.mpr hleads,
            by rw [Nat.add_right_comm, Nat.add_assoc]⟩
      · rintro ⟨i, a, further, f, hleads, rfl⟩
        cases i with
        | zero =>
            rcases leads_zero_iff.mp hleads with ⟨rfl, rfl, rfl⟩ | ⟨inner, rfl, hin⟩
            · exact Or.inl (Or.inl (by simp))
            · exact Or.inl (Or.inr ⟨a, inner, f, hin, by simp⟩)
        | succ i =>
            exact Or.inr ⟨i, a, further, f, leads_succ_iff.mp hleads,
              by rw [Nat.add_right_comm, Nat.add_assoc]⟩

end

mutual

/-- A folder is in front of what is found in it, and that is by address. -/
theorem found_increasing : ∀ (folder : Folder) (address : List Nat) (around : List Folder),
    ((folder.found address around).map Found.address).Pairwise (· < ·)
  | ⟨name, path, context, count, cases, folders⟩, address, around => by
      rw [found, List.map_cons, List.pairwise_cons]
      refine ⟨?_, foundIn_increasing folders _ _ _⟩
      intro inner hinner
      obtain ⟨x, hx, rfl⟩ := List.mem_map.mp hinner
      obtain ⟨i, a, further, f, -, rfl⟩ := (mem_foundIn_iff folders _ _ _).mp hx
      have hlt : address ++ [] < address ++ (0 + i) :: a :=
        List.append_left_lt (List.nil_lt_cons _ _)
      rwa [List.append_nil] at hlt

theorem foundIn_increasing : ∀ (folders : List Folder) (address : List Nat) (position : Nat)
    (around : List Folder),
    ((foundIn address position around folders).map Found.address).Pairwise (· < ·)
  | [], _, _, _ => by
      rw [foundIn]
      exact .nil
  | first :: rest, address, position, around => by
      rw [foundIn, List.map_append, List.pairwise_append]
      refine ⟨found_increasing first _ _, foundIn_increasing rest _ _ _, ?_⟩
      intro left hleft right hright
      obtain ⟨x, hx, rfl⟩ := List.mem_map.mp hleft
      obtain ⟨y, hy, rfl⟩ := List.mem_map.mp hright
      obtain ⟨i, a, further, f, -, rfl⟩ := (mem_foundIn_iff rest _ _ _).mp hy
      have hbelow : ∀ b, address ++ position :: b < address ++ (position + 1 + i) :: a :=
        fun b => List.append_left_lt (List.cons_lt_cons_iff.mpr (Or.inl (by omega)))
      rcases (mem_found_iff first _ _).mp hx with rfl | ⟨b, inner, g, -, rfl⟩
      · exact hbelow []
      · simpa using hbelow b

end

mutual

/-- The cases that are found are all cases. -/
theorem cases_found : ∀ (folder : Folder) (address : List Nat) (around : List Folder),
    (folder.found address around).flatMap (·.folder.cases) = folder.allCases
  | ⟨name, path, context, count, cases, folders⟩, address, around => by
      rw [found, List.flatMap_cons, cases_foundIn folders, allCases]

theorem cases_foundIn : ∀ (folders : List Folder) (address : List Nat) (position : Nat)
    (around : List Folder),
    (foundIn address position around folders).flatMap (·.folder.cases) = allCasesOf folders
  | [], _, _, _ => by
      rw [foundIn, allCasesOf]
      rfl
  | first :: rest, address, position, around => by
      rw [foundIn, List.flatMap_append, cases_found first, cases_foundIn rest, allCasesOf]

end

end Folder

namespace Found

/-- The context of a folder that is found. -/
def node (filter : LabelFilter) (x : Found) : ContextNode :=
  ⟨x.folder.title, x.folder.context, x.folder.selectedCount filter⟩

/-- The cases of a folder that is found, with it. -/
def cases (x : Found) : List (Found × CaseFile) := x.folder.cases.map (x, ·)

/-- What the case of a folder that is found is planned as, if these are all folders. -/
structure PlannedAs (filter : LabelFilter) (all : List Found) (x : Found × CaseFile)
    (c : PlannedCase) : Prop where
  /-- The case is that of the file. -/
  spec : c.spec = x.2.spec
  /-- The filter decides whether it is run. -/
  selected : c.selected = filter.selects x.2.spec.labels
  /-- It is called by all that is around it, from the outermost folder on. -/
  breadcrumb : c.breadcrumb
    = x.1.around.map Folder.title ++ [x.1.folder.title] ++ [x.2.title]
  /-- The contexts on its path are those at the beginnings of the address, from the outermost
  folder on. -/
  path : c.path.map (fun n => all[n]?.map Found.address) = x.1.address.inits.tail.map some

end Found

namespace Folder

mutual

theorem nodes_plan (filter : LabelFilter) : ∀ (folder : Folder) (number : Nat) (path : List Nat)
    (breadcrumb : List String) (address : List Nat) (around : List Folder),
    (folder.plan filter number path breadcrumb).nodes
      = (folder.found address around).map (Found.node filter)
  | ⟨name, place, context, count, cases, folders⟩, number, path, breadcrumb, address, around => by
      rw [Folder.plan, found, List.map_cons, ← nodes_planAll filter folders (number + 1)
        (path ++ [number]) (breadcrumb ++ [titleOf name context.summary])]
      rfl

theorem nodes_planAll (filter : LabelFilter) : ∀ (folders : List Folder) (number : Nat)
    (path : List Nat) (breadcrumb : List String) (address : List Nat) (position : Nat)
    (around : List Folder),
    (planAll filter number path breadcrumb folders).nodes
      = (foundIn address position around folders).map (Found.node filter)
  | [], _, _, _, _, _, _ => by
      rw [planAll, foundIn]
      rfl
  | first :: rest, number, path, breadcrumb, address, position, around => by
      rw [planAll, foundIn, List.map_append, ← nodes_plan filter first number path breadcrumb,
        ← nodes_planAll filter rest
          (number + (first.plan filter number path breadcrumb).nodes.length) path breadcrumb]
      rfl

end

/-- The beginnings of an address that goes one step further. -/
theorem inits_concat_tail (address : List Nat) (i : Nat) :
    (address ++ [i]).inits.tail = address.inits.tail ++ [address ++ [i]] := by
  have hne : address.inits ≠ [] := by
    cases address <;> exact List.cons_ne_nil _ _
  rw [List.inits_append, List.tail_append_of_ne_nil hne]
  rfl

/-- The cases of a folder are planned below it. -/
theorem own_plannedAs {filter : LabelFilter} {all : List Found} {x : Found} {path : List Nat}
    (hpath : path.map (fun n => all[n]?.map Found.address) = x.address.inits.tail.map some) :
    List.Forall₂ (Found.PlannedAs filter all) x.cases
      (x.folder.cases.map
        (planCase filter path (x.around.map Folder.title ++ [x.folder.title]))) := by
  unfold Found.cases
  rw [List.forall₂_map_left_iff, List.forall₂_map_right_iff, List.forall₂_same]
  intro file _
  exact ⟨rfl, rfl, rfl, hpath⟩

mutual

theorem cases_plan (filter : LabelFilter) {all : List Found} : ∀ (folder : Folder) (number : Nat)
    (path : List Nat) (address : List Nat) (position : Nat) (around : List Folder)
    (before after : List Found),
    all = before ++ folder.found (address ++ [position]) around ++ after →
    before.length = number →
    path.map (fun n => all[n]?.map Found.address) = address.inits.tail.map some →
    List.Forall₂ (Found.PlannedAs filter all)
      ((folder.found (address ++ [position]) around).flatMap Found.cases)
      (folder.plan filter number path (around.map Folder.title)).cases
  | ⟨name, place, context, count, cases, folders⟩, number, path, address, position, around,
    before, after, hall, hnumber, hpath => by
      rw [found] at hall ⊢
      rw [Folder.plan, List.flatMap_cons]
      -- The number of the folder leads to its address, so the path goes on as the address does.
      have hat : all[number]?
          = some ⟨address ++ [position], around,
              ⟨name, place, context, count, cases, folders⟩⟩ := by
        rw [hall, List.append_assoc, List.getElem?_append_right hnumber.le, hnumber, Nat.sub_self]
        rfl
      have hhere : (path ++ [number]).map (fun n => all[n]?.map Found.address)
          = (address ++ [position]).inits.tail.map some := by
        rw [List.map_append, hpath, inits_concat_tail, List.map_append, List.map_singleton,
          List.map_singleton, hat]
        rfl
      refine List.rel_append (own_plannedAs (x := ⟨_, _, _⟩) hhere) ?_
      have hinner := cases_planAll filter folders (number + 1) (path ++ [number])
        (address ++ [position]) 0 (around ++ [⟨name, place, context, count, cases, folders⟩])
        (before ++ [⟨address ++ [position], around,
          ⟨name, place, context, count, cases, folders⟩⟩]) after (by rw [hall]; simp)
        (by rw [List.length_append, hnumber]; rfl) hhere
      rw [List.map_append] at hinner
      exact hinner

theorem cases_planAll (filter : LabelFilter) {all : List Found} : ∀ (folders : List Folder)
    (number : Nat) (path : List Nat) (address : List Nat) (position : Nat)
    (around : List Folder) (before after : List Found),
    all = before ++ foundIn address position around folders ++ after →
    before.length = number →
    path.map (fun n => all[n]?.map Found.address) = address.inits.tail.map some →
    List.Forall₂ (Found.PlannedAs filter all)
      ((foundIn address position around folders).flatMap Found.cases)
      (planAll filter number path (around.map Folder.title) folders).cases
  | [], _, _, _, _, _, _, _, _, _, _ => by
      rw [planAll, foundIn]
      exact .nil
  | first :: rest, number, path, address, position, around, before, after, hall, hnumber,
    hpath => by
      rw [foundIn] at hall ⊢
      rw [planAll, List.flatMap_append]
      have hlength : (first.plan filter number path (around.map Folder.title)).nodes.length
          = (first.found (address ++ [position]) around).length := by
        rw [nodes_plan filter first number path _ (address ++ [position]) around, List.length_map]
      refine List.rel_append ?_ ?_
      · exact cases_plan filter first number path address position around before
          (foundIn address (position + 1) around rest ++ after) (by rw [hall]; simp) hnumber hpath
      · exact cases_planAll filter rest _ path address (position + 1) around
          (before ++ first.found (address ++ [position]) around) after (by rw [hall]; simp)
          (by rw [List.length_append, hnumber, hlength]) hpath

end

end Folder

/-- The plan has every context and every case of the folders, in the order of addresses. -/
structure Plan.Covers (filter : LabelFilter) (folders : List Folder) (plan : Plan) : Prop where
  /-- A folder is found where its address leads, and wherever an address leads one is found. -/
  found : ∀ x, x ∈ Folder.foundIn [] 0 [] folders
    ↔ Folder.Leads folders x.address x.around x.folder
  /-- A folder comes before those inside it and those behind it, and none comes twice. -/
  increasing : ((Folder.foundIn [] 0 [] folders).map Found.address).Pairwise (· < ·)
  /-- The contexts are those of the folders. -/
  nodes : plan.nodes = (Folder.foundIn [] 0 [] folders).map (Found.node filter)
  /-- Folder by folder, its own cases are planned. -/
  cases : List.Forall₂ (Found.PlannedAs filter (Folder.foundIn [] 0 [] folders))
    ((Folder.foundIn [] 0 [] folders).flatMap Found.cases) plan.cases
  /-- They are all cases. -/
  all : plan.cases.map (·.spec) = (Folder.allCasesOf folders).map (·.spec)

theorem Plan.covers_ofFolders (filter : LabelFilter) (folders : List Folder) :
    (Plan.ofFolders filter folders).Covers filter folders := by
  have hcases : List.Forall₂ (Found.PlannedAs filter (Folder.foundIn [] 0 [] folders))
      ((Folder.foundIn [] 0 [] folders).flatMap Found.cases)
      (Plan.ofFolders filter folders).cases :=
    Folder.cases_planAll filter folders 0 [] [] 0 [] [] [] (by simp) rfl rfl
  refine ⟨fun x => ?_, Folder.foundIn_increasing folders _ _ _,
    Folder.nodes_planAll filter folders _ _ _ _ _ _, hcases, ?_⟩
  · rw [Folder.mem_foundIn_iff]
    constructor
    · rintro ⟨i, a, further, f, hleads, rfl⟩
      simpa using hleads
    · intro hleads
      obtain ⟨address, around, folder⟩ := x
      cases address with
      | nil => cases hleads
      | cons i a => exact ⟨i, a, around, folder, hleads, by simp⟩
  · have hspecs : List.Forall₂ Eq
        (((Folder.foundIn [] 0 [] folders).flatMap Found.cases).map (·.2.spec))
        ((Plan.ofFolders filter folders).cases.map (·.spec)) := by
      rw [List.forall₂_map_left_iff, List.forall₂_map_right_iff]
      exact hcases.imp fun _ _ h => h.spec.symm
    rw [List.forall₂_eq_eq_eq] at hspecs
    rw [← hspecs, ← Folder.cases_foundIn folders [] 0 [], List.map_flatMap, List.map_flatMap]
    congr 1
    funext x
    exact List.map_map

namespace Folder

/-- Folders are loaded and planned completely and in an order that does not depend on the one
in which a file system gives their entries. -/
theorem planned_completely (files : FileTree) (hproper : files.Proper) (contextFile : String)
    (filter : LabelFilter) :
    (∀ path folder, load files contextFile path = .ok folder →
      ∃ place, files.root.find path = .ok place ∧ folder.path = path
        ∧ folder.name = (fileName? path).getD path ∧ Describes contextFile place folder)
      ∧ (∀ folders, (Plan.ofFolders filter folders).Covers filter folders)
      ∧ ∀ files', files.Reordered files' →
        (∀ path, load files contextFile path = load files' contextFile path)
          ∧ ∀ suite : Suite, suite.plan files = suite.plan files' := by
  refine ⟨fun path folder h => ?_, Plan.covers_ofFolders filter, fun files' hfiles => ?_⟩
  · unfold load at h
    split at h
    · cases h
    · cases h
    · next entries around hfind =>
        split at h
        · next loaded hloaded =>
            cases h
            obtain ⟨-, -, hname, hpath⟩ := loadEntry_folder hloaded rfl
            exact ⟨_, hfind, hpath, hname,
              describes_of_loadEntry (FileTree.Place.proper_of_find hproper hfind) hloaded⟩
        · cases h
        · cases h
  · exact ⟨load_reordered hfiles hproper contextFile, Suite.plan_reordered hfiles hproper⟩

/-- Entries that come by name are loaded in their order. -/
theorem loadEntry_of_increasing {contextFile path name : String} {around : List FileTree}
    {entries : List (String × FileTree)} (h : (Entries.keys entries).Pairwise (· ≤ ·)) :
    loadEntry contextFile path name around (.folder entries)
      = match readContext path contextFile ⟨.folder entries, around⟩ with
        | .error e => .error e
        | .ok context =>
          (sequence ((loadEntries contextFile path (.folder entries :: around) entries).map
            Prod.snd)).map fun items => .folder (ofItems name path context items) := by
  have hsorted : byName (loadEntries contextFile path (.folder entries :: around) entries)
      = loadEntries contextFile path (.folder entries :: around) entries := by
    refine List.mergeSort_of_pairwise ?_
    rw [loadEntries_eq_map, List.pairwise_map]
    exact (List.pairwise_map.mp h).imp decide_eq_true
  unfold byName at hsorted
  cases hcontext : readContext path contextFile ⟨.folder entries, around⟩ with
  | error e => rw [loadEntry, hcontext]
  | ok context => rw [loadEntry, hcontext, hsorted]

/-- What is in a folder with two cases and another folder. -/
def shopEntries : List (String × FileTree) :=
  [("_context.yaml", .file ""), ("a.yaml", .file ""), ("b.yaml", .file ""),
    ("notes.txt", .file ""), ("users", .folder [("_context.yaml", .file "")])]

theorem proper_shop : FileTree.Proper (.folder shopEntries) := by
  refine .folder (by decide) ?_
  simp only [shopEntries, List.forall_mem_cons]
  refine ⟨.file _, .file _, .file _, .file _, .folder (by decide) ?_, nofun⟩
  simp only [List.forall_mem_cons]
  exact ⟨.file _, nofun⟩

theorem find_shop {entries : List (String × FileTree)} :
    (FileTree.root (.folder entries)).find "." = .ok (FileTree.root (.folder entries)) := by
  have hpath : (".".isEmpty || ".".startsWith "/") = false := by decide +kernel
  have hparts : FileTree.parts "." = ["."] := by decide +kernel
  rw [FileTree.Place.find, hpath, hparts]
  rfl

theorem planned_completely_shop :
    ∃ folder, load (.folder shopEntries) "_context.yaml" "." = .ok folder
      ∧ folder.cases.map CaseFile.name = ["a.yaml", "b.yaml"]
      ∧ folder.folders.map Folder.name = ["users"]
      ∧ folder.caseCount = 2
      ∧ Describes "_context.yaml" (FileTree.root (.folder shopEntries)) folder
      ∧ (Plan.ofFolders {} [folder]).Covers {} [folder]
      ∧ load (.folder shopEntries.reverse) "_context.yaml" "." = .ok folder := by
  have hread : (match load (.folder shopEntries) "_context.yaml" "." with
      | .ok folder =>
        some (folder.cases.map CaseFile.name, folder.folders.map Folder.name, folder.caseCount)
      | .error _ => none) = some (["a.yaml", "b.yaml"], ["users"], 2) := by
    rw [load, find_shop]
    dsimp only [FileTree.root]
    rw [loadEntry_of_increasing (by decide)]
    decide +kernel
  obtain ⟨hdescribes, hcovers, hreordered⟩ :=
    planned_completely (.folder shopEntries) proper_shop "_context.yaml" {}
  have hsame := hreordered _ (proper_shop.reordered_of_perm (List.reverse_perm _).symm)
  cases hload : load (.folder shopEntries) "_context.yaml" "." with
  | error e =>
      rw [hload] at hread
      cases hread
  | ok folder =>
      rw [hload] at hread
      obtain ⟨hcases, hrest⟩ := Prod.mk.inj (Option.some.inj hread)
      obtain ⟨hfolders, hcount⟩ := Prod.mk.inj hrest
      obtain ⟨place, hfind, -, -, hplace⟩ := hdescribes "." folder hload
      cases find_shop.symm.trans hfind
      exact ⟨folder, rfl, hcases, hfolders, hcount, hplace, hcovers _,
        (hsame.1 ".").symm.trans hload⟩

end Folder

end HttpSuite
