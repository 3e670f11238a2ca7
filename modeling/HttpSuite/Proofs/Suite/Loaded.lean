import HttpSuite.Proofs.Config.Validation
import HttpSuite.Proofs.Suite.Collaborators
import HttpSuite.Proofs.Suite.Complete

/-!
# What loading promises

Every context and every case is validated when it is read, so what validation promises holds at
every depth of a folder that was loaded. One promise leads on to a run: where no name is exported
twice, no activation fails for that.

Validation asks for the names of definitions in the flows of cases, but not in those of contexts.
So a folder may be loaded whose contexts define variables without names, and a folder has none of
these exactly if its contexts have none.
-/

namespace HttpSuite.Folder

/-! ## Reading files -/

section ReadDocument

variable {α : Type} [Inhabited α] {read : NodeReader α} {empty : α}
  {violations : α → List Violation} {path content : String}

/-- What a file says, whether or not it makes sense. -/
def saysOf (read : NodeReader α) (empty : α) (content : String) : Except DocumentError α :=
  if (Text.trim content).isEmpty then .ok empty else read.ofText content

/-- A file is accepted exactly if what it says has no violations. -/
theorem readDocument_eq_ok_iff {a : α} :
    readDocument read empty violations path content = .ok a
      ↔ saysOf read empty content = .ok a ∧ violations a = [] := by
  unfold readDocument saysOf
  dsimp only
  cases (if (Text.trim content).isEmpty then Except.ok empty else read.ofText content) with
  | error fault => simp
  | ok said =>
      dsimp only
      split
      · next hnone =>
          constructor
          · intro h
            cases h
            exact ⟨rfl, hnone⟩
          · rintro ⟨h, -⟩
            cases h
            rfl
      · next hsome =>
          constructor
          · nofun
          · rintro ⟨h, hnone⟩
            cases h
            exact absurd hnone hsome

end ReadDocument

theorem readContext_eq_ok_iff {path contextFile : String} {place : FileTree.Place}
    {spec : ContextSpec} :
    readContext path contextFile place = .ok spec
      ↔ (∃ content, place.read contextFile = .ok content
          ∧ saysOf NodeReader.context {} content = .ok spec) ∧ spec.Valid := by
  unfold readContext
  cases place.read contextFile with
  | error fault => simp
  | ok content =>
      dsimp only
      rw [readDocument_eq_ok_iff, ContextSpec.violations_eq_nil_iff]
      simp

theorem readCase_eq_ok_iff {path content : String} {spec : CaseSpec} :
    readCase path content = .ok spec
      ↔ saysOf NodeReader.case {} content = .ok spec ∧ spec.Valid := by
  rw [readCase, readDocument_eq_ok_iff, CaseSpec.violations_eq_nil_iff]

/-! ## Folders -/

theorem mem_allCasesOf {folders : List Folder} {c : CaseFile} :
    c ∈ allCasesOf folders ↔ ∃ f ∈ folders, c ∈ f.allCases := by
  induction folders with
  | nil => exact iff_of_false nofun nofun
  | cons f rest ih => rw [allCasesOf, List.mem_append, ih, List.exists_mem_cons_iff]

/-- What is promised of a folder that was loaded. -/
structure Valid (folder : Folder) : Prop where
  /-- All contexts are valid, however deep they are. -/
  contexts : ∀ spec, folder.HasContext spec → spec.Valid
  /-- All cases are valid, so that what they define has names. -/
  cases : ∀ c ∈ folder.allCases, c.spec.Valid
  /-- No activation of one of the contexts fails since a name is exported twice. -/
  exportedOnce : ∀ (node : ContextNode), folder.HasContext node.spec →
    ∀ (setup : Setup) (memory : ContextMemory) (parent : ActiveContext),
      (setup.activation node memory parent).Fails fun e => ∀ name, e ≠ .exportedTwice name

/-- All variables that round trips of cases and of contexts define have names. -/
structure Named (folder : Folder) : Prop where
  cases : ∀ c ∈ folder.allCases, ∀ r ∈ c.spec.flow, r.Named
  contexts : ∀ spec, folder.HasContext spec → ∀ r ∈ spec.roundTrips, r.Named

theorem Loaded.context_valid {contextFile : String} {folder : Folder}
    (h : Loaded contextFile folder) {spec : ContextSpec} (hspec : folder.HasContext spec) :
    spec.Valid := by
  induction h with
  | intro hcontext _ _ ih =>
      rcases hasContext_iff.mp hspec with rfl | ⟨child, hchild, hspec⟩
      · obtain ⟨place, hread⟩ := hcontext
        exact (readContext_eq_ok_iff.mp hread).2
      · exact ih child hchild hspec

theorem Loaded.case_valid {contextFile : String} {folder : Folder} (h : Loaded contextFile folder)
    {c : CaseFile} (hc : c ∈ folder.allCases) : c.spec.Valid := by
  induction h with
  | intro _ hcases _ ih =>
      rcases List.mem_append.mp hc with hown | hinner
      · obtain ⟨content, hread⟩ := hcases c hown
        exact (readCase_eq_ok_iff.mp hread).2
      · obtain ⟨f, hf, hc⟩ := mem_allCasesOf.mp hinner
        exact ih f hf hc

/-- A folder that was loaded is valid at every depth, and what is defined in it has names
exactly if what its contexts define has. -/
theorem load_promises {files : FileTree} {contextFile path : String} {folder : Folder}
    (h : load files contextFile path = .ok folder) :
    folder.Valid
      ∧ (folder.Named ↔ ∀ spec, folder.HasContext spec → ∀ r ∈ spec.roundTrips, r.Named) := by
  have hloaded := loaded_of_load h
  refine ⟨⟨fun _ => hloaded.context_valid, fun _ => hloaded.case_valid, ?_⟩,
    ⟨fun hnamed => hnamed.contexts, fun hcontexts => ⟨fun _ => hloaded.case_valid, hcontexts⟩⟩⟩
  intro node hspec setup memory parent
  exact setup.activation_not_exportedTwice (hloaded.context_valid hspec).distinct memory parent

/-- What is in a folder with a context that exports, a case that defines a variable, and a folder
inside whose context defines variables without names in a constructor and in a validator. -/
def looseEntries : List (String × FileTree) :=
  [("_context.yaml", .file "exports:\n  - name: id\n  - name: key\n"),
    ("a.yaml", .file "flow:\n  - definitions:\n      - name: token\n"),
    ("users", .folder [("_context.yaml", .file ("validatedFlow:\n"
      ++ "  - constructor:\n      - definitions:\n          - name: ''\n"
      ++ "    validator:\n      - definitions:\n          - name: ''\n"))])]

theorem load_promises_loose :
    ∃ folder, load (.folder looseEntries) "_context.yaml" "." = .ok folder
      ∧ folder.context.exports.map ExportSpec.name = ["id", "key"]
      ∧ folder.allCases.flatMap (fun c => definedNames c.spec.flow) = ["token"]
      ∧ folder.folders.flatMap (fun f => definedNames f.context.roundTrips) = ["", ""]
      ∧ folder.Valid ∧ ¬ folder.Named := by
  have hread : (load (.folder looseEntries) "_context.yaml" ".").toOption.map (fun folder =>
      (folder.context.exports.map ExportSpec.name,
        folder.allCases.flatMap (fun c => definedNames c.spec.flow),
        folder.folders.flatMap fun f => definedNames f.context.roundTrips))
      = some (["id", "key"], ["token"], ["", ""]) := by
    rw [load, find_shop]
    dsimp only [FileTree.root]
    -- The entries are in order at both depths, so nothing is sorted.
    rw [loadEntry_of_increasing (by decide), looseEntries, loadEntries, loadEntries, loadEntries,
      loadEntry_of_increasing (by decide)]
    decide +kernel
  obtain ⟨folder, hload, hnames⟩ := Option.map_eq_some_iff.mp hread
  obtain ⟨hexports, hrest⟩ := Prod.mk.inj hnames
  obtain ⟨hcase, hinner⟩ := Prod.mk.inj hrest
  have hload := toOption_eq_some_iff.mp hload
  obtain ⟨hvalid, hnamed⟩ := load_promises hload
  refine ⟨folder, hload, hexports, hcase, hinner, hvalid, fun hall => ?_⟩
  have hmem : "" ∈ folder.folders.flatMap fun f => definedNames f.context.roundTrips :=
    hinner ▸ List.mem_cons_self
  obtain ⟨f, hf, hmem⟩ := List.mem_flatMap.mp hmem
  exact forall_named_iff.mp (hnamed.mp hall _ (.inner hf (.own f))) hmem

/-- A flow that defines a variable without a name. -/
def unnamedFlow : String := "flow:\n  - definitions:\n      - name: ''\n"

/-- As the flow of a context it is loaded, and as that of a case it is refused. -/
theorem unnamed_loaded :
    (∃ folder,
      load (.folder [("_context.yaml", .file unnamedFlow)]) "_context.yaml" "." = .ok folder
        ∧ ¬ folder.Named)
      ∧ readCase "a.yaml" unnamedFlow = .error (.invalid "a.yaml" [.unnamedDefinition 0 0]) := by
  have hread : (load (.folder [("_context.yaml", .file unnamedFlow)]) "_context.yaml"
      ".").toOption.map (fun folder => definedNames folder.context.roundTrips) = some [""] := by
    rw [load, find_shop]
    dsimp only [FileTree.root]
    rw [loadEntry_of_increasing (by decide)]
    decide +kernel
  obtain ⟨folder, hload, hnames⟩ := Option.map_eq_some_iff.mp hread
  have hmem : "" ∈ definedNames folder.context.roundTrips := hnames ▸ List.mem_cons_self
  refine ⟨⟨folder, toOption_eq_some_iff.mp hload, fun hall => ?_⟩, by decide +kernel⟩
  exact forall_named_iff.mp (hall.contexts _ (.own folder)) hmem

end HttpSuite.Folder
