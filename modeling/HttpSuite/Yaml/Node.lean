import HttpSuite.Yaml.Tree

/-!
# Nodes of YAML

What a text says, once its aliases are followed. Collections nest at most 128
deep, aliases counted at the place where they stand, and only so many aliases are
followed as a hundred for each part of the document; what lies beyond is broken.
Breakage is part of the tree, so it is found by whoever comes to it and not
before.
-/

namespace HttpSuite.Yaml

/-- A node. -/
inductive Node where
  /-- Nothing: the text has no document. -/
  | void
  /-- A scalar. -/
  | scalar (tag : Option String) (style : ScalarStyle) (text : String)
  /-- A sequence. -/
  | sequence (tag : Option String) (items : List Node)
  /-- A mapping. -/
  | mapping (tag : Option String) (entries : List (Node × Node))
  /-- Where the text stops making sense. -/
  | broken
  deriving Inhabited, Repr

/-- A text that has been read. -/
structure Document where
  /-- The node it says. -/
  root : Node
  /-- Whether nothing is wrong behind it. -/
  ended : Bool
  deriving Inhabited, Repr

namespace Tree

mutual

/-- How many parts a tree has: beginnings, ends, scalars and aliases. -/
def parts : Tree → Nat
  | scalar .. => 1
  | aliased _ => 1
  | broken => 0
  | sequence _ items => 2 + partsAll items
  | mapping _ entries => 2 + partsFields entries

/-- The parts of all items. -/
def partsAll : List Tree → Nat
  | [] => 0
  | t :: rest => parts t + partsAll rest

/-- The parts of all keys and values. -/
def partsFields : List (Tree × Tree) → Nat
  | [] => 0
  | (k, v) :: rest => parts k + parts v + partsFields rest

end

/-- Follows an alias, if as many may still be followed. -/
def follow (numbered : Nat → Option Tree) (t : Tree) (left : Nat) : Tree × Nat :=
  match t, left with
  | aliased number, left + 1 => ((numbered number).getD broken, left)
  | aliased _, 0 => (broken, 0)
  | t, left => (t, left)

/-- Applies a function to items one after another. -/
def expandAll (f : Tree → Nat → Node × Nat) : List Tree → Nat → List Node × Nat
  | [], left => ([], left)
  | t :: rest, left =>
    let (n, left) := f t left
    let (ns, left) := expandAll f rest left
    (n :: ns, left)

/-- Applies a function to keys and values one after another. -/
def expandFields (f : Tree → Nat → Node × Nat) :
    List (Tree × Tree) → Nat → List (Node × Node) × Nat
  | [], left => ([], left)
  | (k, v) :: rest, left =>
    let (k, left) := f k left
    let (v, left) := f v left
    let (es, left) := expandFields f rest left
    ((k, v) :: es, left)

/-- The node of a tree with room for `depth` collections inside each other, and how
many aliases may be followed behind it. -/
def expand (numbered : Nat → Option Tree) (depth : Nat) (t : Tree) (left : Nat) : Node × Nat :=
  match depth, follow numbered t left with
  | _, (scalar tag style text, left) => (.scalar tag style text, left)
  | depth + 1, (sequence tag items, left) =>
    let (ns, left) := expandAll (expand numbered depth) items left
    (.sequence tag ns, left)
  | depth + 1, (mapping tag entries, left) =>
    let (es, left) := expandFields (expand numbered depth) entries left
    (.mapping tag es, left)
  | _, (_, left) => (.broken, left)

end Tree

/-- How deep collections may nest. -/
def maxDepth : Nat := 128

/-- Reads a text. -/
def Document.ofText (text : String) : Document :=
  let tokens := Tokens.ofText text
  match Reading.document tokens with
  | none => ⟨.void, tokens.complete⟩
  | some (tree, r) => ⟨(tree.expand r.numbered maxDepth (100 * tree.parts)).1, r.atEnd⟩

end HttpSuite.Yaml
