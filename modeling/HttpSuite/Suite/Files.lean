import HttpSuite.OrderedMap
import HttpSuite.Text.Basic

/-!
# Files

The files that a suite is read from, as a tree. Paths are relative to its root; a path
cannot lead out of the tree.
-/

namespace HttpSuite

/-- A file or a folder. -/
inductive FileTree where
  /-- A file and its text. -/
  | file (content : String)
  /-- A folder and what is in it. -/
  | folder (entries : List (String × FileTree))
  deriving Inhabited

/-- Why there is nothing to read at a path. -/
inductive FileFault where
  /-- Nothing is there. -/
  | missing
  /-- A folder is there, and not a file. -/
  | isFolder
  /-- A file is there, and not a folder. -/
  | notFolder
  deriving DecidableEq, Repr

/-- The words for a path at which there is nothing to read. -/
def FileFault.message : FileFault → String
  | .missing => "No such file or directory (os error 2)"
  | .isFolder => "Is a directory (os error 21)"
  | .notFolder => "Not a directory (os error 20)"

namespace FileTree

/-- The tree without files. -/
def empty : FileTree := .folder []

/-- The parts of a path. -/
def parts (path : String) : List String :=
  (Text.splitBy (· == '/') path.toList).map String.ofList

/-- Whether a part of a path stays where it is. -/
def isHere (part : String) : Bool := part.isEmpty || part == "."

/-- What is in a folder. -/
def entries : FileTree → List (String × FileTree)
  | .file _ => []
  | .folder es => es

/-- Puts a file, or a folder if there is no content, where the parts of a path lead. -/
def insert (content : Option String) : List String → FileTree → FileTree
  | [], t =>
    match content with
    | some text => .file text
    | none => .folder t.entries
  | name :: rest, t =>
    .folder (Entries.insert t.entries name
      (insert content rest ((t.entries.lookup name).getD empty)))

/-- The tree of files by their paths. A path with a slash at its end stands for a folder. -/
def ofFiles (files : List (String × String)) : FileTree :=
  files.foldl
    (fun tree (path, content) =>
      let names := (parts path).filter fun part => !isHere part
      tree.insert (if path.endsWith "/" then none else some content) names)
    empty

/-- A place in a tree. -/
structure Place where
  /-- What is there. -/
  tree : FileTree
  /-- The folders around it, the innermost one first. -/
  around : List FileTree
  deriving Inhabited

/-- Where the parts of a path lead to from a place. -/
def Place.follow (place : Place) : List String → Except FileFault Place
  | [] => .ok place
  | part :: rest =>
    match place.tree with
    | .file _ => .error .notFolder
    | .folder es =>
      if isHere part then place.follow rest
      else if part == ".." then
        match place.around with
        | [] => .error .missing
        | outer :: further => Place.follow ⟨outer, further⟩ rest
      else
        match es.lookup part with
        | some inner => Place.follow ⟨inner, place.tree :: place.around⟩ rest
        | none => .error .missing

/-- Where a path leads to from a place. -/
def Place.find (place : Place) (path : String) : Except FileFault Place :=
  if path.isEmpty || path.startsWith "/" then .error .missing else place.follow (parts path)

/-- The text of the file that a path leads to from a place. -/
def Place.read (place : Place) (path : String) : Except FileFault String :=
  match place.find path with
  | .ok ⟨.file content, _⟩ => .ok content
  | .ok ⟨.folder _, _⟩ => .error .isFolder
  | .error fault => .error fault

/-- The place that a tree is in if nothing is around it. -/
def root (tree : FileTree) : Place := ⟨tree, []⟩

/-- The text of the file that a path leads to. -/
def read (tree : FileTree) (path : String) : Except FileFault String := tree.root.read path

end FileTree

/-- The last part of a path that names something. -/
def fileName? (path : String) : Option String :=
  match ((FileTree.parts path).filter fun part => !FileTree.isHere part).getLast? with
  | some ".." => none
  | name => name

/-- A path inside a folder. -/
def joinPath (folder name : String) : String :=
  if name.startsWith "/" then name
  else if folder.isEmpty || folder.endsWith "/" then folder ++ name
  else folder ++ "/" ++ name

/-- Whether a name ends in `.yaml` behind something else. -/
def isYamlName (name : String) : Bool := name.endsWith ".yaml" && name != ".yaml"

end HttpSuite
