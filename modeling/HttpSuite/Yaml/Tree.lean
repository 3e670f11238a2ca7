import HttpSuite.OrderedMap
import HttpSuite.Yaml.Token

/-!
# Trees of YAML

The nodes of a document as they are written, with aliases not yet followed. Where
the text stops making sense the tree ends in a broken node, and every collection
that is open there ends with it, so what came before can still be used.

A node with an anchor is remembered under a number. The number of a new anchor is
how many names are in use, so a name that is used again may take a number that
another one takes later; an alias stands for the last node that took its number.
-/

namespace HttpSuite.Yaml

/-- A node as it is written. -/
inductive Tree where
  /-- A scalar. -/
  | scalar (tag : Option String) (style : ScalarStyle) (text : String)
  /-- A sequence. -/
  | sequence (tag : Option String) (items : List Tree)
  /-- A mapping. -/
  | mapping (tag : Option String) (entries : List (Tree × Tree))
  /-- The node of a number. -/
  | aliased (number : Nat)
  /-- Where the text stops making sense. -/
  | broken
  deriving Inhabited, Repr

/-- Where the reading of trees stands. -/
structure Reading where
  /-- The tokens that are left. -/
  tokens : List Token
  /-- Whether the tokens reach to the end of the text. -/
  complete : Bool
  /-- Whether the text has stopped making sense. -/
  stopped : Bool
  /-- What the handles of tags stand for. -/
  handles : OrderedMap String
  /-- The number of each anchor. -/
  anchors : OrderedMap Nat
  /-- Which anchored node took a number, the last one first. -/
  takers : List (Nat × Nat)
  /-- How many anchored nodes have begun. -/
  begun : Nat
  /-- The anchored nodes that have ended. -/
  ended : List (Nat × Tree)

namespace Reading

/-- The scalar that stands where nothing is written. -/
def emptyScalar : Tree := .scalar none .plain ""

/-- Gives up. -/
def stop (r : Reading) : Tree × Reading := (.broken, { r with stopped := true })

/-- Goes on with other tokens. -/
def moveTo (r : Reading) (tokens : List Token) : Reading := { r with tokens := tokens }

/-- The anchor and tag in front of a node, in either order. -/
def properties (r : Reading) : Option String × Option (String × String) × Reading :=
  match r.tokens with
  | .anchor name :: .tag handle suffix :: rest => (some name, some (handle, suffix), r.moveTo rest)
  | .anchor name :: rest => (some name, none, r.moveTo rest)
  | .tag handle suffix :: .anchor name :: rest => (some name, some (handle, suffix), r.moveTo rest)
  | .tag handle suffix :: rest => (none, some (handle, suffix), r.moveTo rest)
  | _ => (none, none, r)

/-- The full name of a tag; none if its handle is not known. -/
def fullTag (r : Reading) : Option (String × String) → Option (Option String)
  | none => some none
  | some (handle, suffix) =>
    if handle.isEmpty then some (some suffix)
    else (r.handles.get? handle).map fun start => some (start ++ suffix)

/-- A node with an anchor begins. -/
def enter (r : Reading) (anchor : Option String) : Reading :=
  match anchor with
  | none => r
  | some name =>
    let number := r.anchors.size
    { r with
      anchors := r.anchors.insert name number
      takers := (number, r.begun) :: r.takers
      begun := r.begun + 1 }

/-- The node with an anchor that began as a given one has ended. -/
def finish (r : Reading) (anchor : Option String) (order : Nat) (tree : Tree) : Reading :=
  match anchor with
  | none => r
  | some _ => { r with ended := (order, tree) :: r.ended }

mutual

/-- A node. In a block there may be indented collections, and where `compact` is
set, items at the indentation of what is around them. -/
def node (fuel : Nat) (block compact : Bool) (r : Reading) : Tree × Reading :=
  match fuel with
  | 0 => r.stop
  | fuel + 1 =>
    match r.tokens with
    | .aliased name :: rest =>
      match r.anchors.get? name with
      | some number => (.aliased number, r.moveTo rest)
      | none => r.stop
    | _ =>
      let (anchor, tag, behind) := r.properties
      match behind.fullTag tag with
      | none => behind.stop
      | some fullTag =>
        let (tree, after) :=
          content fuel block compact (anchor.isSome || tag.isSome) fullTag (behind.enter anchor)
        (tree, after.finish anchor r.begun tree)

/-- A node behind its anchor and tag. -/
def content (fuel : Nat) (block compact marked : Bool) (tag : Option String) (r : Reading) :
    Tree × Reading :=
  match fuel with
  | 0 => r.stop
  | fuel + 1 =>
    let other :=
      if marked && (!r.tokens.isEmpty || r.complete) then (Tree.scalar tag .plain "", r) else r.stop
    match r.tokens with
    | .scalar style text :: rest => (.scalar tag style text, r.moveTo rest)
    | .blockEntry :: _ =>
      if compact then
        let (items, r) := compactItems fuel r []
        (.sequence tag items, r)
      else other
    | .flowSequenceStart :: rest =>
      let (items, r) := flowItems fuel true (r.moveTo rest) []
      (.sequence tag items, r)
    | .flowMappingStart :: rest =>
      let (entries, r) := flowFields fuel true (r.moveTo rest) []
      (.mapping tag entries, r)
    | .blockSequenceStart :: rest =>
      if block then
        let (items, r) := blockItems fuel (r.moveTo rest) []
        (.sequence tag items, r)
      else other
    | .blockMappingStart :: rest =>
      if block then
        let (entries, r) := blockFields fuel (r.moveTo rest) []
        (.mapping tag entries, r)
      else other
    | _ => other

/-- The items of an indented sequence, behind those read before, which stand with
the last one first. -/
def blockItems (fuel : Nat) (r : Reading) (read : List Tree) : List Tree × Reading :=
  match fuel with
  | 0 => (read.reverse, r.stop.2)
  | fuel + 1 =>
    match r.tokens with
    | .blockEnd :: rest => (read.reverse, r.moveTo rest)
    | .blockEntry :: rest =>
      let (item, r) :=
        match rest with
        | .blockEntry :: _ | .blockEnd :: _ => (emptyScalar, r.moveTo rest)
        | _ => node fuel true false (r.moveTo rest)
      if r.stopped then ((item :: read).reverse, r) else blockItems fuel r (item :: read)
    | _ => ((.broken :: read).reverse, r.stop.2)

/-- The items of a sequence at the indentation of what is around it. -/
def compactItems (fuel : Nat) (r : Reading) (read : List Tree) : List Tree × Reading :=
  match fuel with
  | 0 => (read.reverse, r.stop.2)
  | fuel + 1 =>
    match r.tokens with
    | .blockEntry :: rest =>
      let (item, r) :=
        match rest with
        | .blockEntry :: _ | .key :: _ | .value :: _ | .blockEnd :: _ =>
          (emptyScalar, r.moveTo rest)
        | _ => node fuel true false (r.moveTo rest)
      if r.stopped then ((item :: read).reverse, r) else compactItems fuel r (item :: read)
    | [] => if r.complete then (read.reverse, r) else ((.broken :: read).reverse, r.stop.2)
    | _ => (read.reverse, r)

/-- A key or value of an indented mapping, behind the token that announces it. -/
def blockPart (fuel : Nat) (r : Reading) : Tree × Reading :=
  match fuel with
  | 0 => r.stop
  | fuel + 1 =>
    match r.tokens with
    | .key :: _ | .value :: _ | .blockEnd :: _ => (emptyScalar, r)
    | _ => node fuel true true r

/-- The fields of an indented mapping. -/
def blockFields (fuel : Nat) (r : Reading) (read : List (Tree × Tree)) :
    List (Tree × Tree) × Reading :=
  match fuel with
  | 0 => (read.reverse, r.stop.2)
  | fuel + 1 =>
    match r.tokens with
    | .blockEnd :: rest => (read.reverse, r.moveTo rest)
    | .key :: rest =>
      let (k, r) := blockPart fuel (r.moveTo rest)
      if r.stopped then (((k, .broken) :: read).reverse, r)
      else
        let (v, r) :=
          match r.tokens with
          | .value :: rest => blockPart fuel (r.moveTo rest)
          | [] => r.stop
          | _ => (emptyScalar, r)
        if r.stopped then (((k, v) :: read).reverse, r) else blockFields fuel r ((k, v) :: read)
    | _ => (((.broken, .broken) :: read).reverse, r.stop.2)

/-- The items between square brackets; between every two stands a comma. -/
def flowItems (fuel : Nat) (first : Bool) (r : Reading) (read : List Tree) :
    List Tree × Reading :=
  match fuel with
  | 0 => (read.reverse, r.stop.2)
  | fuel + 1 =>
    match r.tokens, first with
    | .flowSequenceEnd :: rest, _ => (read.reverse, r.moveTo rest)
    | .flowEntry :: rest, false => flowItem fuel (r.moveTo rest) read
    | _, true => flowItem fuel r read
    | _, false => ((.broken :: read).reverse, r.stop.2)

/-- The item behind a comma, if the bracket is not closed there, and those behind
it. A key may stand for a mapping of one field. -/
def flowItem (fuel : Nat) (r : Reading) (read : List Tree) : List Tree × Reading :=
  match fuel with
  | 0 => (read.reverse, r.stop.2)
  | fuel + 1 =>
    match r.tokens with
    | .flowSequenceEnd :: rest => (read.reverse, r.moveTo rest)
    | .key :: rest =>
      let (k, r) :=
        match rest with
        | .value :: rest | .flowEntry :: rest | .flowSequenceEnd :: rest =>
          (emptyScalar, r.moveTo rest)
        | _ => node fuel false false (r.moveTo rest)
      if r.stopped then ((.mapping none [(k, .broken)] :: read).reverse, r)
      else
        let (v, r) :=
          match r.tokens with
          | .value :: .flowEntry :: _ | .value :: .flowSequenceEnd :: _ =>
            (emptyScalar, r.moveTo r.tokens.tail)
          | .value :: rest => node fuel false false (r.moveTo rest)
          | [] => r.stop
          | _ => (emptyScalar, r)
        let item := Tree.mapping none [(k, v)]
        if r.stopped then ((item :: read).reverse, r) else flowItems fuel false r (item :: read)
    | _ =>
      let (item, r) := node fuel false false r
      if r.stopped then ((item :: read).reverse, r) else flowItems fuel false r (item :: read)

/-- The fields between braces; between every two stands a comma. -/
def flowFields (fuel : Nat) (first : Bool) (r : Reading) (read : List (Tree × Tree)) :
    List (Tree × Tree) × Reading :=
  match fuel with
  | 0 => (read.reverse, r.stop.2)
  | fuel + 1 =>
    match r.tokens, first with
    | .flowMappingEnd :: rest, _ => (read.reverse, r.moveTo rest)
    | .flowEntry :: rest, false => flowField fuel (r.moveTo rest) read
    | _, true => flowField fuel r read
    | _, false => (((.broken, .broken) :: read).reverse, r.stop.2)

/-- The field behind a comma, if the brace is not closed there, and those behind
it. A node alone is a key without a value. -/
def flowField (fuel : Nat) (r : Reading) (read : List (Tree × Tree)) :
    List (Tree × Tree) × Reading :=
  match fuel with
  | 0 => (read.reverse, r.stop.2)
  | fuel + 1 =>
    match r.tokens with
    | .flowMappingEnd :: rest => (read.reverse, r.moveTo rest)
    | .key :: rest =>
      let (k, r) :=
        match rest with
        | .value :: _ | .flowEntry :: _ | .flowMappingEnd :: _ => (emptyScalar, r.moveTo rest)
        | _ => node fuel false false (r.moveTo rest)
      if r.stopped then (((k, .broken) :: read).reverse, r)
      else
        let (v, r) :=
          match r.tokens with
          | .value :: .flowEntry :: _ | .value :: .flowMappingEnd :: _ =>
            (emptyScalar, r.moveTo r.tokens.tail)
          | .value :: rest => node fuel false false (r.moveTo rest)
          | [] => r.stop
          | _ => (emptyScalar, r)
        if r.stopped then (((k, v) :: read).reverse, r)
        else flowFields fuel false r ((k, v) :: read)
    | _ =>
      let (k, r) := node fuel false false r
      if r.stopped then (((k, .broken) :: read).reverse, r)
      else flowFields fuel false r ((k, emptyScalar) :: read)

end

/-- The directives in front of a document; none if they cannot be taken. -/
def directives (versioned : Bool) : List Token → OrderedMap String →
    Option (List Token × OrderedMap String)
  | .version major minor :: rest, handles =>
    if versioned || major != 1 || (minor != 1 && minor != 2) then none
    else directives true rest handles
  | .tagHandle handle start :: rest, handles =>
    if handles.contains handle then none
    else directives versioned rest (handles.insert handle start)
  | rest, handles => some (rest, handles)

/-- The handles that are always known. -/
def defaultHandles : List (String × String) := [("!", "!"), ("!!", "tag:yaml.org,2002:")]

/-- The root of a document, and what follows it; none if there is no document. -/
def document (tokens : Tokens) : Option (Tree × Reading) :=
  let r : Reading :=
    ⟨tokens.list, tokens.complete, false, .ofList defaultHandles, .empty, [], 0, []⟩
  let fuel := 4 * tokens.list.length + 4
  let explicit (rest : List Token) : Tree × Reading :=
    match directives false rest .empty with
    | some (.documentStart :: rest, handles) =>
      let missing := (OrderedMap.ofList defaultHandles).toList.filter fun e => !handles.contains e.1
      let r := { r with tokens := rest, handles := handles.extend (.ofList missing) }
      match rest with
      | .version .. :: _ | .tagHandle .. :: _ | .documentStart :: _ | .documentEnd :: _ =>
        (emptyScalar, r)
      | [] => if r.complete then (emptyScalar, r) else r.stop
      | _ => node fuel true false r
    | _ => r.stop
  match tokens.list with
  | [] => if tokens.complete then none else some r.stop
  | .version .. :: _ | .tagHandle .. :: _ | .documentStart :: _ => some (explicit tokens.list)
  | _ => some (node fuel true false r)

/-- Whether nothing but the ends of documents follows. -/
def atEnd (r : Reading) : Bool := !r.stopped && r.complete && r.tokens.all (· == .documentEnd)

/-- The node of a number. -/
def numbered (r : Reading) (number : Nat) : Option Tree :=
  (r.takers.lookup number).bind fun order => r.ended.lookup order

end Reading

end HttpSuite.Yaml
