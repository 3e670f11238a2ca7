import HttpSuite.Context.Basic
import HttpSuite.Suite.Folder
import HttpSuite.Suite.Settings

/-!
# Plans

A plan lists the contexts and the cases of folders in the order in which they are run:
the cases of a folder come first, then the folders inside. A case knows the contexts
around it by their numbers.
-/

namespace HttpSuite

/-- A case that is planned. -/
structure PlannedCase where
  /-- The numbers of the contexts around it, the outermost one first. -/
  path : List Nat
  /-- What is around it is called, from the outermost folder on, and itself. -/
  breadcrumb : List String
  /-- The case. -/
  spec : CaseSpec
  /-- Whether it is to be run. -/
  selected : Bool
  deriving Inhabited

/-- The contexts and the cases of a run. -/
structure Plan where
  /-- The contexts, by number. -/
  nodes : List ContextNode
  /-- The cases, in order. -/
  cases : List PlannedCase
  deriving Inhabited

namespace Plan

/-- The plan of nothing. -/
def empty : Plan := ⟨[], []⟩

/-- One plan behind another. -/
def append (first second : Plan) : Plan :=
  ⟨first.nodes ++ second.nodes, first.cases ++ second.cases⟩

end Plan

namespace Folder

mutual

/-- How many cases are selected in a folder and further inside. -/
def selectedCount (filter : LabelFilter) : Folder → Nat
  | ⟨_, _, _, _, cases, folders⟩ =>
    (cases.filter fun c => filter.selects c.spec.labels).length + selectedCounts filter folders

/-- How many cases are selected in folders. -/
def selectedCounts (filter : LabelFilter) : List Folder → Nat
  | [] => 0
  | folder :: rest => folder.selectedCount filter + selectedCounts filter rest

end

/-- The plan of a case. -/
def planCase (filter : LabelFilter) (path : List Nat) (breadcrumb : List String)
    (c : CaseFile) : PlannedCase where
  path := path
  breadcrumb := breadcrumb ++ [c.title]
  spec := c.spec
  selected := filter.selects c.spec.labels

mutual

/-- The plan of a folder whose context has the given number. The path and the breadcrumb
are those of the folders around it. -/
def plan (filter : LabelFilter) (number : Nat) (path : List Nat) (breadcrumb : List String) :
    Folder → Plan
  | ⟨name, place, context, count, cases, folders⟩ =>
    let title := titleOf name context.summary
    let total := selectedCount filter ⟨name, place, context, count, cases, folders⟩
    let path := path ++ [number]
    let breadcrumb := breadcrumb ++ [title]
    Plan.append ⟨[⟨title, context, total⟩], cases.map (planCase filter path breadcrumb)⟩
      (planAll filter (number + 1) path breadcrumb folders)

/-- The plan of folders, the first of whose contexts has the given number. -/
def planAll (filter : LabelFilter) (number : Nat) (path : List Nat) (breadcrumb : List String) :
    List Folder → Plan
  | [] => .empty
  | folder :: rest =>
    let first := folder.plan filter number path breadcrumb
    first.append (planAll filter (number + first.nodes.length) path breadcrumb rest)

end

end Folder

/-- The plan of folders. -/
def Plan.ofFolders (filter : LabelFilter) (folders : List Folder) : Plan :=
  Folder.planAll filter 0 [] [] folders

end HttpSuite
