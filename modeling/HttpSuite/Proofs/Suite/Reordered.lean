import HttpSuite.Proofs.Suite.Folder
import HttpSuite.Suite.Basic

/-!
# The order of entries does not matter

A file system gives the entries of a folder in an order of its own. Two trees that differ in
nothing else load alike: a lookup in a folder finds the same name, whatever is in front of it,
and what was made of the entries is sorted by their names before anything depends on the order.

Below a folder the folders around it are reordered too, and a context file may be looked for in
them, so the statement for one entry is about two trees in two surroundings.
-/

namespace HttpSuite

namespace FileTree

/-- The same tree with the entries of its folders in another order. -/
inductive Reordered : FileTree → FileTree → Prop where
  | file (content : String) : Reordered (.file content) (.file content)
  | folder {entries entries' : List (String × FileTree)}
      (hnames : (Entries.keys entries).Perm (Entries.keys entries'))
      (hinner : ∀ name t t', (name, t) ∈ entries → (name, t') ∈ entries' → Reordered t t') :
      Reordered (.folder entries) (.folder entries')

theorem Proper.reordered_self {tree : FileTree} (h : tree.Proper) : tree.Reordered tree := by
  induction h with
  | file content => exact .file content
  | folder hnames _ ih =>
      refine .folder (.refl _) fun name t t' ht ht' => ?_
      cases (Entries.get?_of_mem hnames ht).symm.trans (Entries.get?_of_mem hnames ht')
      exact ih _ ht

theorem Proper.reordered_of_perm {entries entries' : List (String × FileTree)}
    (h : Proper (.folder entries)) (hperm : entries.Perm entries') :
    Reordered (.folder entries) (.folder entries') := by
  refine .folder (hperm.map Prod.fst) fun name t t' ht ht' => ?_
  cases (Entries.get?_of_mem h.nodup ht).symm.trans
    (Entries.get?_of_mem h.nodup (hperm.mem_iff.mpr ht'))
  exact (h.inner ht).reordered_self

theorem Reordered.nodup {entries entries' : List (String × FileTree)}
    (h : Reordered (.folder entries) (.folder entries')) (hproper : Proper (.folder entries)) :
    (Entries.keys entries').Nodup := by
  cases h with
  | folder hnames _ => exact hnames.nodup_iff.mp hproper.nodup

/-- A name is in both folders or in none. -/
theorem Reordered.lookup {entries entries' : List (String × FileTree)}
    (h : Reordered (.folder entries) (.folder entries')) (name : String) :
    (entries.lookup name = none ∧ entries'.lookup name = none)
      ∨ ∃ t t', entries.lookup name = some t ∧ entries'.lookup name = some t'
        ∧ (name, t) ∈ entries ∧ t.Reordered t' := by
  cases h with
  | folder hnames hinner =>
      cases hlookup : entries.lookup name with
      | none =>
          have habsent := Entries.get?_eq_none_iff.mp hlookup
          rw [hnames.mem_iff] at habsent
          exact Or.inl ⟨rfl, Entries.get?_eq_none_iff.mpr habsent⟩
      | some t =>
          have hmem := Entries.mem_of_get? hlookup
          have hkey := hnames.mem_iff.mp (List.mem_map_of_mem (f := Prod.fst) hmem)
          obtain ⟨t', hlookup'⟩ := Option.isSome_iff_exists.mp (Entries.get?_isSome_iff.mpr hkey)
          exact Or.inr ⟨t, t', rfl, hlookup', hmem,
            hinner name t t' hmem (Entries.mem_of_get? hlookup')⟩

/-- Folders around two places, one by one in another order. -/
def SameAround (around around' : List FileTree) : Prop :=
  List.Forall₂ (fun t t' => t.Proper ∧ t.Reordered t') around around'

namespace Place

/-- The same place in a tree and in one that is reordered. -/
structure Same (place place' : Place) : Prop where
  /-- What is there. -/
  tree : place.tree.Reordered place'.tree
  /-- It is proper. -/
  proper : place.tree.Proper
  /-- What is around it. -/
  around : SameAround place.around place'.around

theorem Same.root {tree tree' : FileTree} (h : tree.Reordered tree') (hproper : tree.Proper) :
    Same tree.root tree'.root := ⟨h, hproper, .nil⟩

/-- A path leads to the same place from both, or from both it leads nowhere. -/
theorem Same.follow {place place' : Place} (h : place.Same place') (parts : List String) :
    (∃ fault, place.follow parts = .error fault ∧ place'.follow parts = .error fault)
      ∨ ∃ q q', place.follow parts = .ok q ∧ place'.follow parts = .ok q' ∧ q.Same q' := by
  induction parts generalizing place place' with
  | nil => exact Or.inr ⟨place, place', rfl, rfl, h⟩
  | cons part rest ih =>
      obtain ⟨tree, around⟩ := place
      obtain ⟨tree', around'⟩ := place'
      obtain ⟨htree, hproper, haround⟩ := h
      dsimp only at htree hproper haround
      rw [Place.follow, Place.follow]
      cases htree with
      | file content => exact Or.inl ⟨.notFolder, rfl, rfl⟩
      | @folder entries entries' hnames hinner =>
          have htree : Reordered (.folder entries) (.folder entries') := .folder hnames hinner
          dsimp only
          split
          · exact ih ⟨htree, hproper, haround⟩
          · split
            · cases haround with
              | nil => exact Or.inl ⟨.missing, rfl, rfl⟩
              | cons houter hfurther => exact ih ⟨houter.2, houter.1, hfurther⟩
            · rcases htree.lookup part with ⟨hnone, hnone'⟩ | ⟨t, t', hsome, hsome', hmem, ht⟩
              · rw [hnone, hnone']
                exact Or.inl ⟨.missing, rfl, rfl⟩
              · rw [hsome, hsome']
                exact ih ⟨ht, hproper.inner hmem, .cons ⟨hproper, htree⟩ haround⟩

theorem Same.find {place place' : Place} (h : place.Same place') (path : String) :
    (∃ fault, place.find path = .error fault ∧ place'.find path = .error fault)
      ∨ ∃ q q', place.find path = .ok q ∧ place'.find path = .ok q' ∧ q.Same q' := by
  unfold Place.find
  split
  · exact Or.inl ⟨.missing, rfl, rfl⟩
  · exact h.follow _

/-- In a proper tree paths lead to proper trees. -/
theorem proper_of_find {files : FileTree} (h : files.Proper) {path : String} {place : Place}
    (hfind : files.root.find path = .ok place) : place.tree.Proper := by
  rcases (Same.root h.reordered_self h).find path with ⟨fault, hfault, -⟩ | ⟨q, q', hq, -, hsame⟩
  · rw [hfault] at hfind
    cases hfind
  · rw [hq] at hfind
    cases hfind
    exact hsame.proper

theorem Same.read {place place' : Place} (h : place.Same place') (path : String) :
    place.read path = place'.read path := by
  unfold Place.read
  rcases h.find path with ⟨fault, hfault, hfault'⟩ | ⟨q, q', hq, hq', hsame⟩
  · rw [hfault, hfault']
  · rw [hq, hq']
    obtain ⟨tree, around⟩ := q
    obtain ⟨tree', around'⟩ := q'
    cases hsame.tree with
    | file content => rfl
    | folder _ _ => rfl

end Place

end FileTree

namespace Folder

open FileTree

section Results

variable {contextFile path : String} {around : List FileTree}
  {entries : List (String × FileTree)}

theorem nodup_keys_loadEntries (h : (Entries.keys entries).Nodup) :
    (Entries.keys (loadEntries contextFile path around entries)).Nodup := by
  rw [loadEntries_eq_map, Entries.keys, List.map_map]
  exact h

theorem mem_loadEntries_iff {name : String} {result : Except LoadError Item} :
    (name, result) ∈ loadEntries contextFile path around entries
      ↔ ∃ tree, (name, tree) ∈ entries
        ∧ loadEntry contextFile (joinPath path name) name around tree = result := by
  rw [loadEntries_eq_map, List.mem_map]
  constructor
  · rintro ⟨⟨key, tree⟩, hmem, heq⟩
    cases heq
    exact ⟨tree, hmem, rfl⟩
  · rintro ⟨tree, hmem, rfl⟩
    exact ⟨_, hmem, rfl⟩

end Results

theorem loadEntry_reordered {contextFile : String} {tree tree' : FileTree}
    (h : tree.Reordered tree') (hproper : tree.Proper) {path name : String}
    {around around' : List FileTree} (haround : SameAround around around') :
    loadEntry contextFile path name around tree
      = loadEntry contextFile path name around' tree' := by
  induction h generalizing path name around around' with
  | file content => rw [loadEntry, loadEntry]
  | @folder entries entries' hnames hinner ih =>
      have htree : Reordered (.folder entries) (.folder entries') := .folder hnames hinner
      have hcontext : readContext path contextFile ⟨.folder entries, around⟩
          = readContext path contextFile ⟨.folder entries', around'⟩ := by
        have hsame : Place.Same ⟨.folder entries, around⟩ ⟨.folder entries', around'⟩ :=
          ⟨htree, hproper, haround⟩
        unfold readContext
        rw [hsame.read]
      have hinside : SameAround (.folder entries :: around) (.folder entries' :: around') :=
        .cons ⟨hproper, htree⟩ haround
      have hkeys : (Entries.keys (loadEntries contextFile path (.folder entries :: around)
          entries)).Nodup := nodup_keys_loadEntries hproper.nodup
      have hperm : (loadEntries contextFile path (.folder entries :: around) entries).Perm
          (loadEntries contextFile path (.folder entries' :: around') entries') := by
        refine (List.perm_ext_iff_of_nodup hkeys.of_map
          (nodup_keys_loadEntries (htree.nodup hproper)).of_map).mpr ?_
        rintro ⟨key, result⟩
        rw [mem_loadEntries_iff, mem_loadEntries_iff]
        constructor
        · rintro ⟨t, ht, rfl⟩
          obtain ⟨⟨_, t'⟩, ht', rfl⟩ := List.mem_map.mp (hnames.mem_iff.mp (List.mem_map_of_mem ht))
          exact ⟨t', ht', (ih _ t t' ht ht' (hproper.inner ht) hinside).symm⟩
        · rintro ⟨t', ht', rfl⟩
          obtain ⟨⟨_, t⟩, ht, rfl⟩ := List.mem_map.mp (hnames.mem_iff.mpr (List.mem_map_of_mem ht'))
          exact ⟨t, ht, ih _ t t' ht ht' (hproper.inner ht) hinside⟩
      -- Whatever the order of the results, by name they are the same list.
      have hsorted := byName_eq_of_perm hperm hkeys
      unfold byName at hsorted
      rw [loadEntry, loadEntry, hcontext, hsorted]

/-- Folders of reordered trees are the same. -/
theorem load_reordered {files files' : FileTree} (h : files.Reordered files')
    (hproper : files.Proper) (contextFile path : String) :
    load files contextFile path = load files' contextFile path := by
  unfold load
  rcases (Place.Same.root h hproper).find path with
    ⟨fault, hfault, hfault'⟩ | ⟨⟨tree, around⟩, ⟨tree', around'⟩, hq, hq', hsame⟩
  · rw [hfault, hfault']
  · rw [hq, hq']
    obtain ⟨htree, htreeProper, haround⟩ := hsame
    cases htree with
    | file content => rfl
    | folder hnames hinner =>
        dsimp only
        rw [loadEntry_reordered (.folder hnames hinner) htreeProper haround]

end Folder

namespace Suite

theorem loadAll_reordered {files files' : FileTree} (h : files.Reordered files')
    (hproper : files.Proper) (contextFile : String) (paths : List String) :
    loadAll files contextFile paths = loadAll files' contextFile paths := by
  induction paths with
  | nil => rfl
  | cons path rest ih => rw [loadAll, loadAll, Folder.load_reordered h hproper, ih]

/-- The plan of a suite is the same. -/
theorem plan_reordered {files files' : FileTree} (h : files.Reordered files')
    (hproper : files.Proper) (suite : Suite) : suite.plan files = suite.plan files' := by
  unfold Suite.plan
  rw [loadAll_reordered h hproper]

end Suite

end HttpSuite
