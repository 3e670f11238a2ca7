import Mathlib.Data.List.Sort
import HttpSuite.Proofs.Journal
import HttpSuite.Proofs.OrderedMap
import HttpSuite.Proofs.Text.Utf8
import HttpSuite.Suite.Folder

/-!
# What is in a folder that was loaded

Loading goes through the entries of a folder by name and keeps what it made of each of them in
a list of items, from which the cases and the folders are picked. So both come in the order of
the entries, and an entry is picked if its kind is the one that is looked for; the two lemmas
on `picked` say this once for cases and folders.

`Describes` is what then holds at every depth: it is an inductive statement because a folder
describes its place only if the folders inside describe theirs. The induction is on the tree,
along the statement that no folder has a name twice.
-/

namespace HttpSuite

namespace FileTree

/-- No folder of the tree has two entries of one name. -/
inductive Proper : FileTree → Prop where
  | file (content : String) : Proper (.file content)
  | folder {entries : List (String × FileTree)} (hnames : (Entries.keys entries).Nodup)
      (hinner : ∀ e ∈ entries, Proper e.2) : Proper (.folder entries)

theorem Proper.nodup {entries : List (String × FileTree)} (h : Proper (.folder entries)) :
    (Entries.keys entries).Nodup := by
  cases h with
  | folder hnames _ => exact hnames

theorem Proper.inner {entries : List (String × FileTree)} (h : Proper (.folder entries))
    {name : String} {tree : FileTree} (hmem : (name, tree) ∈ entries) : tree.Proper := by
  cases h with
  | folder _ hinner => exact hinner _ hmem

theorem proper_empty : Proper empty := .folder List.nodup_nil nofun

theorem Proper.entries {tree : FileTree} (h : tree.Proper) : Proper (.folder tree.entries) := by
  cases tree with
  | file content => exact proper_empty
  | folder es => exact h

theorem Proper.insert {tree : FileTree} (h : tree.Proper) (content : Option String)
    (names : List String) : (tree.insert content names).Proper := by
  induction names generalizing tree with
  | nil =>
      unfold FileTree.insert
      cases content with
      | none => exact h.entries
      | some text => exact .file text
  | cons name rest ih =>
      have hentries := h.entries
      have hnames := Entries.nodup_keys_insert hentries.nodup name
        (FileTree.insert content rest ((tree.entries.lookup name).getD empty))
      refine .folder hnames fun e he => ?_
      have hlookup := Entries.get?_of_mem hnames he
      rw [Entries.get?_insert] at hlookup
      split at hlookup
      · rw [← Option.some.inj hlookup]
        refine ih ?_
        cases hinner : tree.entries.lookup name with
        | none => exact proper_empty
        | some inner => exact hentries.inner (Entries.mem_of_get? hinner)
      · exact hentries.inner (Entries.mem_of_get? hlookup)

/-- A tree that is made of files by their paths is proper. -/
theorem proper_ofFiles (files : List (String × String)) : (ofFiles files).Proper := by
  unfold ofFiles
  generalize hstart : empty = start
  have hproper : start.Proper := hstart ▸ proper_empty
  clear hstart
  induction files generalizing start with
  | nil => exact hproper
  | cons file files ih => exact ih _ (hproper.insert _ _)

end FileTree

namespace Folder

/-! ## The order of names -/

section ByName

variable {α β : Type}

/-- Entries in the order of their names. -/
def byName (entries : List (String × α)) : List (String × α) :=
  entries.mergeSort fun a b => a.1 ≤ b.1

theorem byName_perm (entries : List (String × α)) : (byName entries).Perm entries :=
  List.mergeSort_perm _ _

theorem mem_byName {entries : List (String × α)} {e : String × α} :
    e ∈ byName entries ↔ e ∈ entries := (byName_perm entries).mem_iff

theorem byName_map (f : String × α → β) (entries : List (String × α)) :
    byName (entries.map fun e => (e.1, f e)) = (byName entries).map fun e => (e.1, f e) :=
  (List.map_mergeSort (f := fun e : String × α => (e.1, f e)) fun _ _ _ _ => rfl).symm

/-- Names that come once come one behind the other. -/
theorem byName_increasing {entries : List (String × α)} (h : (Entries.keys entries).Nodup) :
    (Entries.keys (byName entries)).Pairwise (· < ·) := by
  have hle : (byName entries).Pairwise fun a b => decide (a.1 ≤ b.1) = true := by
    refine List.pairwise_mergeSort ?_ ?_ entries
    · simp only [decide_eq_true_eq]
      exact fun a b c => le_trans
    · simp only [Bool.or_eq_true, decide_eq_true_eq]
      exact fun a b => le_total a.1 b.1
  have hnodup : (Entries.keys (byName entries)).Nodup :=
    ((byName_perm entries).map Prod.fst).nodup_iff.mpr h
  refine List.pairwise_map.mpr (hle.imp₂ (fun a b hab hne => ?_) (List.pairwise_map.mp hnodup))
  exact lt_of_le_of_ne (of_decide_eq_true hab) hne

theorem byName_eq_of_perm {entries entries' : List (String × α)} (h : entries.Perm entries')
    (hnames : (Entries.keys entries).Nodup) : byName entries = byName entries' := by
  have hperm : (byName entries).Perm (byName entries') :=
    (byName_perm entries).trans (h.trans (byName_perm entries').symm)
  have hsorted := List.pairwise_map.mp (byName_increasing hnames)
  have hsorted' := List.pairwise_map.mp
    (byName_increasing ((h.map Prod.fst).nodup_iff.mp hnames))
  exact hperm.eq_of_pairwise (fun a b _ _ hab hba => absurd hba hab.asymm) hsorted hsorted'

end ByName

/-! ## What entries are to a suite -/

theorem loadEntries_eq_map (contextFile path : String) (around : List FileTree)
    (entries : List (String × FileTree)) :
    loadEntries contextFile path around entries
      = entries.map fun e => (e.1, loadEntry contextFile (joinPath path e.1) e.1 around e.2) := by
  induction entries with
  | nil => rfl
  | cons e entries ih => rw [loadEntries, ih, List.map_cons]

theorem sequence_eq_mapM (results : List (Except LoadError Item)) :
    sequence results = results.mapM id := by
  induction results with
  | nil => rfl
  | cons r results ih =>
      rw [List.mapM_cons]
      cases r with
      | error e => rfl
      | ok item =>
          rw [sequence, ih]
          cases results.mapM id <;> rfl

section Entry

variable {contextFile path name : String} {around : List FileTree}

theorem loadEntry_file_ok {content : String} {item : Item}
    (h : loadEntry contextFile path name around (.file content) = .ok item) :
    (isCaseName contextFile name = true
      ∧ ∃ spec, readCase path content = .ok spec ∧ item = .case ⟨name, path, spec⟩)
      ∨ (isCaseName contextFile name = false ∧ item = .other) := by
  rw [loadEntry] at h
  split at h
  · next hname =>
      obtain ⟨spec, hspec, rfl⟩ := map_ok_iff.mp h
      exact Or.inl ⟨hname, spec, hspec, rfl⟩
  · next hname =>
      cases h
      exact Or.inr ⟨Bool.not_eq_true _ ▸ hname, rfl⟩

theorem loadEntry_folder_ok {entries : List (String × FileTree)} {item : Item}
    (h : loadEntry contextFile path name around (.folder entries) = .ok item) :
    ∃ context items, readContext path contextFile ⟨.folder entries, around⟩ = .ok context
      ∧ List.Forall₂ (fun e i => loadEntry contextFile (joinPath path e.1) e.1
          (.folder entries :: around) e.2 = .ok i) (byName entries) items
      ∧ item = .folder (ofItems name path context items) := by
  rw [loadEntry] at h
  split at h
  · cases h
  · next context hcontext =>
      obtain ⟨items, hitems, rfl⟩ := map_ok_iff.mp h
      refine ⟨context, items, hcontext, ?_, rfl⟩
      rw [loadEntries_eq_map, sequence_eq_mapM, mapM_ok_iff] at hitems
      change List.Forall₂ _ ((byName _).map Prod.snd) items at hitems
      rw [byName_map, List.map_map, List.forall₂_map_left_iff] at hitems
      exact hitems

end Entry

section Picked

variable {α : Type} {made : String × FileTree → Except LoadError Item} {pick : Item → Option α}
  {entries : List (String × FileTree)} {items : List Item}

/-- What is picked from items was made of an entry, and comes in the order of the entries if it
has their names. -/
theorem names_picked_sublist (h : List.Forall₂ (fun e i => made e = .ok i) entries items)
    {label : α → String} (hlabel : ∀ e i a, made e = .ok i → pick i = some a → label a = e.1) :
    ((items.filterMap pick).map label).Sublist (Entries.keys entries) := by
  induction h with
  | nil => exact .slnil
  | @cons e i entries items hmade _ ih =>
      rw [List.filterMap_cons, Entries.keys_cons]
      cases hpick : pick i with
      | none => exact ih.cons _
      | some a =>
          rw [List.map_cons, hlabel e i a hmade hpick]
          exact ih.cons_cons _

theorem mem_picked_iff (h : List.Forall₂ (fun e i => made e = .ok i) entries items) {a : α} :
    a ∈ items.filterMap pick ↔ ∃ e ∈ entries, ∃ i, made e = .ok i ∧ pick i = some a := by
  induction h with
  | nil => exact iff_of_false nofun nofun
  | @cons e i entries items hmade _ ih =>
      have hhead : pick i = some a ↔ ∃ j, made e = .ok j ∧ pick j = some a := by
        constructor
        · exact fun hpick => ⟨i, hmade, hpick⟩
        · rintro ⟨j, hj, hpick⟩
          cases hmade.symm.trans hj
          exact hpick
      rw [List.exists_mem_cons_iff, ← hhead, ← ih, List.mem_filterMap, List.mem_filterMap,
        List.exists_mem_cons_iff]

/-- Nothing of what is made of entries is lost. -/
theorem exists_made (h : List.Forall₂ (fun e i => made e = .ok i) entries items)
    {e : String × FileTree} (he : e ∈ entries) : ∃ i ∈ items, made e = .ok i := by
  obtain ⟨k, hk, rfl⟩ := List.getElem_of_mem he
  exact ⟨_, List.getElem_mem (h.length_eq ▸ hk), h.get hk (h.length_eq ▸ hk)⟩

end Picked

/-! ## All cases -/

mutual

/-- The cases of a folder, and then those of the folders inside. -/
def allCases : Folder → List CaseFile
  | ⟨_, _, _, _, cases, folders⟩ => cases ++ allCasesOf folders

/-- The cases of folders. -/
def allCasesOf : List Folder → List CaseFile
  | [] => []
  | folder :: rest => folder.allCases ++ allCasesOf rest

end

/-- The count of a folder is right if those of the folders inside are. -/
theorem caseCount_ofItems (name path : String) (context : ContextSpec) {items : List Item}
    (h : ∀ f, .folder f ∈ items → f.caseCount = f.allCases.length) :
    (ofItems name path context items).caseCount
      = (ofItems name path context items).allCases.length := by
  have hsum : ∀ start, items.foldl (fun count i => count + i.caseCount) start
      = start + (items.filterMap Item.case?).length
        + (allCasesOf (items.filterMap Item.folder?)).length := by
    induction items with
    | nil => intro start; rfl
    | cons item items ih =>
        intro start
        rw [List.foldl_cons, ih fun f hf => h f (List.mem_cons_of_mem _ hf)]
        cases item with
        | case c =>
            show start + 1 + _ + _ = start + (c :: items.filterMap Item.case?).length
              + (allCasesOf (items.filterMap Item.folder?)).length
            rw [List.length_cons]
            omega
        | folder f =>
            have hf := h f List.mem_cons_self
            show start + f.caseCount + _ + _ = start + (items.filterMap Item.case?).length
              + (f.allCases ++ allCasesOf (items.filterMap Item.folder?)).length
            rw [hf, List.length_append]
            omega
        | other => rfl
  calc (ofItems name path context items).caseCount
      = (items.filterMap Item.case?).length
        + (allCasesOf (items.filterMap Item.folder?)).length := by
          rw [← Nat.zero_add (items.filterMap Item.case?).length]
          exact hsum 0
    _ = (ofItems name path context items).allCases.length := List.length_append.symm

/-! ## What a folder says about its place -/

/-- One name comes before another if its bytes do. -/
def NameBefore (a b : String) : Prop := Text.utf8 a.toList < Text.utf8 b.toList

/-- The folder has what is at the place: the context, the cases among the files and, in turn,
the folders inside. -/
inductive Describes (contextFile : String) : FileTree.Place → Folder → Prop where
  | intro {entries : List (String × FileTree)} {around : List FileTree} {folder : Folder}
      (hcontext : readContext folder.path contextFile ⟨.folder entries, around⟩
        = .ok folder.context)
      (hcases : ∀ name, name ∈ folder.cases.map CaseFile.name
        ↔ name ≠ contextFile ∧ (∃ stem, stem ≠ "" ∧ name = stem ++ ".yaml")
          ∧ ∃ content, (name, .file content) ∈ entries)
      (hcaseOrder : (folder.cases.map CaseFile.name).Pairwise NameBefore)
      (hread : ∀ c ∈ folder.cases, c.path = joinPath folder.path c.name
        ∧ ∃ content, (c.name, .file content) ∈ entries ∧ readCase c.path content = .ok c.spec)
      (hfolders : ∀ name, name ∈ folder.folders.map Folder.name
        ↔ ∃ inner, (name, .folder inner) ∈ entries)
      (hfolderOrder : (folder.folders.map Folder.name).Pairwise NameBefore)
      (hpaths : ∀ f ∈ folder.folders, f.path = joinPath folder.path f.name)
      (hinner : ∀ f ∈ folder.folders, ∀ inner, (f.name, .folder inner) ∈ entries →
        Describes contextFile ⟨.folder inner, .folder entries :: around⟩ f)
      (hcount : folder.caseCount = folder.allCases.length) :
      Describes contextFile ⟨.folder entries, around⟩ folder

theorem Describes.caseCount {contextFile : String} {place : FileTree.Place} {folder : Folder}
    (h : Describes contextFile place folder) : folder.caseCount = folder.allCases.length := by
  cases h with
  | intro _ _ _ _ _ _ _ _ hcount => exact hcount

theorem isYamlName_iff {name : String} :
    isYamlName name = true ↔ ∃ stem, stem ≠ "" ∧ name = stem ++ ".yaml" := by
  unfold isYamlName
  rw [Bool.and_eq_true, String.endsWith_eq_endsWith_toSlice, String.Slice.endsWith_string_iff,
    String.copy_toSlice, bne_iff_ne]
  constructor
  · rintro ⟨⟨stem, hstem⟩, hne⟩
    have hname : name = String.ofList stem ++ ".yaml" := by
      rw [← String.toList_inj, String.toList_append, String.toList_ofList, hstem]
    refine ⟨String.ofList stem, fun hempty => hne ?_, hname⟩
    rw [hname, hempty, String.empty_append]
  · rintro ⟨stem, hstem, rfl⟩
    refine ⟨⟨stem.toList, (String.toList_append ..).symm⟩, fun heq => hstem ?_⟩
    exact String.append_eq_right_iff.mp heq

theorem isCaseName_iff {contextFile name : String} :
    isCaseName contextFile name = true
      ↔ name ≠ contextFile ∧ ∃ stem, stem ≠ "" ∧ name = stem ++ ".yaml" := by
  unfold isCaseName
  rw [Bool.and_eq_true, bne_iff_ne, isYamlName_iff]

section Entry

variable {contextFile path name : String} {around : List FileTree}

/-- A case among the entries was read from its file. -/
theorem loadEntry_case {tree : FileTree} {item : Item} {c : CaseFile}
    (h : loadEntry contextFile path name around tree = .ok item) (hitem : item.case? = some c) :
    ∃ content, tree = .file content ∧ isCaseName contextFile name = true ∧ c.name = name
      ∧ c.path = path ∧ readCase c.path content = .ok c.spec := by
  cases tree with
  | file content =>
      rcases loadEntry_file_ok h with ⟨hname, spec, hspec, rfl⟩ | ⟨-, rfl⟩
      · cases hitem
        exact ⟨content, rfl, hname, rfl, rfl, hspec⟩
      · cases hitem
  | folder entries =>
      obtain ⟨_, _, -, -, rfl⟩ := loadEntry_folder_ok h
      cases hitem

theorem loadEntry_folder {tree : FileTree} {item : Item} {f : Folder}
    (h : loadEntry contextFile path name around tree = .ok item) (hitem : item.folder? = some f) :
    (∃ entries, tree = .folder entries) ∧ item = .folder f ∧ f.name = name ∧ f.path = path := by
  cases tree with
  | file content =>
      rcases loadEntry_file_ok h with ⟨-, _, -, rfl⟩ | ⟨-, rfl⟩ <;> cases hitem
  | folder entries =>
      obtain ⟨_, _, -, -, rfl⟩ := loadEntry_folder_ok h
      cases hitem
      exact ⟨⟨entries, rfl⟩, rfl, rfl, rfl⟩

end Entry

theorem nameBefore_of_sublist {entries : List (String × FileTree)} {names : List String}
    (hnames : (Entries.keys entries).Nodup)
    (h : names.Sublist (Entries.keys (byName entries))) : names.Pairwise NameBefore :=
  ((byName_increasing hnames).sublist h).imp fun hlt =>
    Text.utf8_lt_utf8_iff.mpr (String.lt_iff_toList_lt.mp hlt)

section Items

variable {contextFile path : String} {above : List FileTree} {entries : List (String × FileTree)}
  {items : List Item}
  (hitems : List.Forall₂
    (fun e i => loadEntry contextFile (joinPath path e.1) e.1 above e.2 = .ok i)
    (byName entries) items)
include hitems

theorem exists_file_of_mem {c : CaseFile} (hc : c ∈ items.filterMap Item.case?) :
    ∃ content, (c.name, .file content) ∈ entries ∧ isCaseName contextFile c.name = true
      ∧ c.path = joinPath path c.name ∧ readCase c.path content = .ok c.spec := by
  obtain ⟨⟨key, tree⟩, he, i, hmade, hpick⟩ := (mem_picked_iff hitems).mp hc
  obtain ⟨content, rfl, hcaseName, rfl, hpath, hread⟩ := loadEntry_case hmade hpick
  exact ⟨content, mem_byName.mp he, hcaseName, hpath, hread⟩

theorem exists_folder_of_mem {f : Folder} (hf : f ∈ items.filterMap Item.folder?) :
    ∃ inner, (f.name, .folder inner) ∈ entries ∧ f.path = joinPath path f.name
      ∧ loadEntry contextFile f.path f.name above (.folder inner) = .ok (.folder f) := by
  obtain ⟨⟨key, tree⟩, he, i, hmade, hpick⟩ := (mem_picked_iff hitems).mp hf
  obtain ⟨⟨inner, rfl⟩, rfl, rfl, hpath⟩ := loadEntry_folder hmade hpick
  exact ⟨inner, mem_byName.mp he, hpath, hpath ▸ hmade⟩

theorem mem_names_cases {name : String} :
    name ∈ (items.filterMap Item.case?).map CaseFile.name
      ↔ name ≠ contextFile ∧ (∃ stem, stem ≠ "" ∧ name = stem ++ ".yaml")
        ∧ ∃ content, (name, .file content) ∈ entries := by
  rw [List.mem_map]
  constructor
  · rintro ⟨c, hc, rfl⟩
    obtain ⟨content, hmem, hname, -⟩ := exists_file_of_mem hitems hc
    exact ⟨(isCaseName_iff.mp hname).1, (isCaseName_iff.mp hname).2, content, hmem⟩
  · rintro ⟨hne, hstem, content, hmem⟩
    obtain ⟨i, hi, hmade⟩ := exists_made hitems (mem_byName.mpr hmem)
    rcases loadEntry_file_ok hmade with ⟨-, spec, -, rfl⟩ | ⟨hname, -⟩
    · exact ⟨_, List.mem_filterMap.mpr ⟨_, hi, rfl⟩, rfl⟩
    · rw [isCaseName_iff.mpr ⟨hne, hstem⟩] at hname
      cases hname

theorem mem_names_folders {name : String} :
    name ∈ (items.filterMap Item.folder?).map Folder.name
      ↔ ∃ inner, (name, .folder inner) ∈ entries := by
  rw [List.mem_map]
  constructor
  · rintro ⟨f, hf, rfl⟩
    obtain ⟨inner, hmem, -⟩ := exists_folder_of_mem hitems hf
    exact ⟨inner, hmem⟩
  · rintro ⟨inner, hmem⟩
    obtain ⟨i, hi, hmade⟩ := exists_made hitems (mem_byName.mpr hmem)
    obtain ⟨_, _, -, -, rfl⟩ := loadEntry_folder_ok hmade
    exact ⟨_, List.mem_filterMap.mpr ⟨_, hi, rfl⟩, rfl⟩

theorem names_cases_sublist :
    ((items.filterMap Item.case?).map CaseFile.name).Sublist (Entries.keys (byName entries)) := by
  refine names_picked_sublist hitems fun e i c hmade hpick => ?_
  obtain ⟨-, -, -, hname, -⟩ := loadEntry_case hmade hpick
  exact hname

theorem names_folders_sublist :
    ((items.filterMap Item.folder?).map Folder.name).Sublist (Entries.keys (byName entries)) := by
  refine names_picked_sublist hitems fun e i f hmade hpick => ?_
  obtain ⟨-, -, hname, -⟩ := loadEntry_folder hmade hpick
  exact hname

end Items

/-- A folder that was loaded describes its place. -/
theorem describes_of_loadEntry {contextFile : String} {tree : FileTree} (hproper : tree.Proper)
    {path name : String} {around : List FileTree} {folder : Folder}
    (h : loadEntry contextFile path name around tree = .ok (.folder folder)) :
    Describes contextFile ⟨tree, around⟩ folder := by
  induction hproper generalizing path name around folder with
  | file content =>
      rcases loadEntry_file_ok h with ⟨-, _, -, hitem⟩ | ⟨-, hitem⟩ <;> cases hitem
  | @folder entries hnames hproper ih =>
      obtain ⟨context, items, hcontext, hitems, heq⟩ := loadEntry_folder_ok h
      cases heq
      have hinner : ∀ f ∈ items.filterMap Item.folder?, ∀ inner,
          (f.name, .folder inner) ∈ entries →
          Describes contextFile ⟨.folder inner, .folder entries :: around⟩ f := by
        intro f hf inner hmem
        obtain ⟨inner', hmem', -, hmade⟩ := exists_folder_of_mem hitems hf
        -- The entry of this name is the one that the folder was loaded from.
        have hsame := (Entries.get?_of_mem hnames hmem).symm.trans
          (Entries.get?_of_mem hnames hmem')
        cases hsame
        exact ih _ hmem hmade
      refine .intro hcontext (fun _ => mem_names_cases hitems) ?caseOrder ?read
        (fun _ => mem_names_folders hitems) ?folderOrder ?paths hinner ?count
      case caseOrder => exact nameBefore_of_sublist hnames (names_cases_sublist hitems)
      case read =>
        intro c hc
        obtain ⟨content, hmem, -, hpath, hread⟩ := exists_file_of_mem hitems hc
        exact ⟨hpath, content, hmem, hread⟩
      case folderOrder => exact nameBefore_of_sublist hnames (names_folders_sublist hitems)
      case paths =>
        intro f hf
        obtain ⟨-, -, hpath, -⟩ := exists_folder_of_mem hitems hf
        exact hpath
      case count =>
        refine caseCount_ofItems _ _ _ fun f hf => ?_
        have hf : f ∈ items.filterMap Item.folder? := List.mem_filterMap.mpr ⟨_, hf, rfl⟩
        obtain ⟨inner, hmem, -⟩ := exists_folder_of_mem hitems hf
        exact (hinner f hf inner hmem).caseCount

/-! ## Folders that were loaded -/

/-- The folder was put together from a context and cases that were read, and from folders that
were loaded. -/
inductive Loaded (contextFile : String) : Folder → Prop where
  | intro {path name : String} {context : ContextSpec} {items : List Item}
      (hcontext : ∃ place, readContext path contextFile place = .ok context)
      (hcases : ∀ c ∈ items.filterMap Item.case?, ∃ content, readCase c.path content = .ok c.spec)
      (hfolders : ∀ f ∈ items.filterMap Item.folder?, Loaded contextFile f) :
      Loaded contextFile (ofItems name path context items)

mutual

theorem loaded_of_loadEntry {contextFile : String} : ∀ (tree : FileTree) {path name : String}
    {around : List FileTree} {folder : Folder},
    loadEntry contextFile path name around tree = .ok (.folder folder) → Loaded contextFile folder
  | .file content, path, name, around, folder, h => by
      rcases loadEntry_file_ok h with ⟨-, _, -, hitem⟩ | ⟨-, hitem⟩ <;> cases hitem
  | .folder entries, path, name, around, folder, h => by
      obtain ⟨context, items, hcontext, hitems, heq⟩ := loadEntry_folder_ok h
      cases heq
      refine .intro ⟨_, hcontext⟩ (fun c hc => ?_) fun f hf => ?_
      · obtain ⟨e, -, i, hmade, hpick⟩ := (mem_picked_iff hitems).mp hc
        obtain ⟨content, -, -, -, -, hread⟩ := loadEntry_case hmade hpick
        exact ⟨content, hread⟩
      · obtain ⟨e, he, i, hmade, hpick⟩ := (mem_picked_iff hitems).mp hf
        obtain ⟨-, rfl, -, -⟩ := loadEntry_folder hmade hpick
        exact loaded_of_loadEntries entries (mem_byName.mp he) hmade

theorem loaded_of_loadEntries {contextFile : String} : ∀ (entries : List (String × FileTree))
    {e : String × FileTree}, e ∈ entries → ∀ {path name : String} {around : List FileTree}
    {folder : Folder}, loadEntry contextFile path name around e.2 = .ok (.folder folder) →
    Loaded contextFile folder
  | (_, tree) :: rest, e, he, path, name, around, folder, h => by
      rcases List.mem_cons.mp he with rfl | he
      · exact loaded_of_loadEntry tree h
      · exact loaded_of_loadEntries rest he h

end

theorem loaded_of_load {files : FileTree} {contextFile path : String} {folder : Folder}
    (h : load files contextFile path = .ok folder) : Loaded contextFile folder := by
  unfold load at h
  split at h
  · cases h
  · cases h
  · split at h
    · next hloaded =>
        cases h
        exact loaded_of_loadEntry _ hloaded
    · cases h
    · cases h

end Folder

end HttpSuite
