import HttpSuite.Config.Reader
import HttpSuite.Config.Validation
import HttpSuite.Suite.Files

/-!
# Folders of cases

A suite is a folder. Every folder has a file that describes its context; every other
file whose name ends in `.yaml` is a case, and every folder inside is a folder of cases
of its own. All come in the order of their names.

The context is read first and then what is in the folder, in order; the first thing
that is wrong is what is reported.
-/

namespace HttpSuite

/-- A case and the file it was read from. -/
structure CaseFile where
  /-- The name of the file. -/
  name : String
  /-- The path of the file. -/
  path : String
  /-- The case. -/
  spec : CaseSpec
  deriving DecidableEq, Inhabited

/-- A folder of cases. -/
structure Folder where
  /-- The name of the folder. -/
  name : String
  /-- The path of the folder. -/
  path : String
  /-- The context of the cases. -/
  context : ContextSpec
  /-- How many cases there are here and further inside. -/
  caseCount : Nat
  /-- The cases that are right here. -/
  cases : List CaseFile
  /-- The folders inside. -/
  folders : List Folder
  deriving Inhabited

/-- What cases and folders are called in reports. -/
def titleOf (name summary : String) : String :=
  if summary.isEmpty then name else s!"{name}: {summary}"

/-- What a case is called in reports. -/
def CaseFile.title (c : CaseFile) : String := titleOf c.name c.spec.summary

/-- What a folder is called in reports. -/
def Folder.title (f : Folder) : String := titleOf f.name f.context.summary

/-- Why a folder cannot be loaded. -/
inductive LoadError where
  /-- There is nothing to read. -/
  | unreadable (path : String) (fault : FileFault)
  /-- A folder has no context file. -/
  | missingContext (folder file : String)
  /-- A file is not what it should be. -/
  | document (path : String) (fault : DocumentError)
  /-- A file makes no sense. -/
  | invalid (path : String) (violations : List Violation)
  deriving DecidableEq

/-- The words for a folder that cannot be loaded. -/
def LoadError.message : LoadError → String
  | .unreadable path fault => s!"can't read {path}: {fault.message}"
  | .missingContext folder file => s!"read context config {folder} error: {file} is missing"
  | .document path fault => s!"can't unmarshal {path}, err: {fault.message}"
  | .invalid path violations => s!"invalid {path}:\n{Violation.messages violations}"

namespace Folder

/-- Reads the text of a file that must make sense; blanks stand for what is written if
nothing is. -/
def readDocument {α : Type} [Inhabited α] (read : NodeReader α) (empty : α)
    (violations : α → List Violation) (path content : String) : Except LoadError α :=
  let result :=
    if (Text.trim content).isEmpty then .ok empty
    else read.ofText content
  match result with
  | .error fault => .error (.document path fault)
  | .ok a =>
    match violations a with
    | [] => .ok a
    | vs => .error (.invalid path vs)

/-- Reads the context of the folder at a place. -/
def readContext (path contextFile : String) (place : FileTree.Place) :
    Except LoadError ContextSpec :=
  match place.read contextFile with
  | .error _ => .error (.missingContext path contextFile)
  | .ok content =>
    readDocument NodeReader.context {} ContextSpec.violations (joinPath path contextFile) content

/-- Reads a case. -/
def readCase (path content : String) : Except LoadError CaseSpec :=
  readDocument NodeReader.case {} CaseSpec.violations path content

/-- Whether a file of this name is a case. -/
def isCaseName (contextFile name : String) : Bool := name != contextFile && isYamlName name

/-- What an entry of a folder is to a suite. -/
inductive Item where
  /-- A case. -/
  | case (file : CaseFile)
  /-- A folder of cases. -/
  | folder (folder : Folder)
  /-- Nothing. -/
  | other
  deriving Inhabited

/-- The cases among items. -/
def Item.case? : Item → Option CaseFile
  | .case c => some c
  | _ => none

/-- The folders among items. -/
def Item.folder? : Item → Option Folder
  | .folder f => some f
  | _ => none

/-- How many cases an item has. -/
def Item.caseCount : Item → Nat
  | .case _ => 1
  | .folder f => f.caseCount
  | .other => 0

/-- All items, or the first error. -/
def sequence : List (Except LoadError Item) → Except LoadError (List Item)
  | [] => .ok []
  | .error e :: _ => .error e
  | .ok item :: rest => (sequence rest).map (item :: ·)

/-- The folder of a context and of items in their order. -/
def ofItems (name path : String) (context : ContextSpec) (items : List Item) : Folder where
  name := name
  path := path
  context := context
  caseCount := items.foldl (fun count i => count + i.caseCount) 0
  cases := items.filterMap Item.case?
  folders := items.filterMap Item.folder?

mutual

/-- What an entry is to a suite. The folders around it are given. -/
def loadEntry (contextFile path name : String) (around : List FileTree) :
    FileTree → Except LoadError Item
  | .file content =>
    if isCaseName contextFile name then
      (readCase path content).map fun spec => .case ⟨name, path, spec⟩
    else .ok .other
  | .folder entries =>
    match readContext path contextFile ⟨.folder entries, around⟩ with
    | .error e => .error e
    | .ok context =>
      (sequence (((loadEntries contextFile path (.folder entries :: around) entries).mergeSort
        fun a b => a.1 ≤ b.1).map Prod.snd)).map
          fun items => .folder (ofItems name path context items)

/-- What each entry of a folder is to a suite. -/
def loadEntries (contextFile path : String) (around : List FileTree) :
    List (String × FileTree) → List (String × Except LoadError Item)
  | [] => []
  | (name, tree) :: rest =>
    (name, loadEntry contextFile (joinPath path name) name around tree)
      :: loadEntries contextFile path around rest

end

/-- Loads the folder at a path. -/
def load (files : FileTree) (contextFile path : String) : Except LoadError Folder :=
  match files.root.find path with
  | .error fault => .error (.unreadable path fault)
  | .ok ⟨.file _, _⟩ => .error (.unreadable path .notFolder)
  | .ok ⟨.folder entries, around⟩ =>
    match loadEntry contextFile path ((fileName? path).getD path) around (.folder entries) with
    | .ok (.folder folder) => .ok folder
    | .ok _ => .error (.unreadable path .notFolder)
    | .error e => .error e

end Folder

end HttpSuite
