import HttpSuite.Yaml.Scalar

/-!
# Tokens of YAML

The structure of a YAML text is partly written, by brackets and signs, and partly
drawn, by indentation. The tokens make both explicit: where a line is indented
further a collection begins, and where it is indented less, those inside end.

A mapping is recognised late, by the colon behind its first key. So a place where
a key may have begun is kept in mind, one for every open bracket, and when the
colon comes the tokens that open the mapping and mark the key are put in there.
What stands at such a place cannot be used before the question is settled; if the
text turns out to be ill-formed until then, the tokens end before it.
-/

namespace HttpSuite.Yaml

/-- A token. -/
inductive Token where
  /-- The version that a document declares. -/
  | version (major minor : Nat)
  /-- A handle for tags. -/
  | tagHandle (handle tagStart : String)
  /-- Three hyphens. -/
  | documentStart
  /-- Three points. -/
  | documentEnd
  /-- Indented items begin. -/
  | blockSequenceStart
  /-- Indented fields begin. -/
  | blockMappingStart
  /-- Indented items or fields end. -/
  | blockEnd
  /-- An opening square bracket. -/
  | flowSequenceStart
  /-- A closing square bracket. -/
  | flowSequenceEnd
  /-- An opening brace. -/
  | flowMappingStart
  /-- A closing brace. -/
  | flowMappingEnd
  /-- The hyphen in front of an item. -/
  | blockEntry
  /-- A comma. -/
  | flowEntry
  /-- A key follows. -/
  | key
  /-- A value follows. -/
  | value
  /-- A name that stands for a node. -/
  | aliased (name : String)
  /-- A name for the node that follows. -/
  | anchor (name : String)
  /-- A tag for the node that follows. -/
  | tag (handle suffix : String)
  /-- A scalar. -/
  | scalar (style : ScalarStyle) (text : String)
  deriving Repr, Inhabited, DecidableEq

/-- The tokens of a text, up to its end or to the first fault. -/
structure Tokens where
  /-- The tokens. -/
  list : List Token
  /-- Whether they reach to the end. -/
  complete : Bool
  deriving Repr, Inhabited

/-- A place where a key may have begun. -/
structure KeyPlace where
  /-- Where it is. -/
  cursor : Cursor
  /-- How many tokens come before it. -/
  before : Nat
  /-- Whether there must be a key, because the line is not indented further. -/
  required : Bool

/-- Where the reading of tokens stands. -/
structure Scan where
  /-- The place reached. -/
  cursor : Cursor
  /-- The tokens so far, the last one first. -/
  tokens : List Token
  /-- How many there are. -/
  count : Nat
  /-- The column of the innermost indented collection, or -1. -/
  indent : Int
  /-- The columns of those around it, innermost first. -/
  outer : List Int
  /-- The possible beginning of a key, if there is one, inside each open bracket and
  outside all of them, innermost first. -/
  keys : List (Option KeyPlace)
  /-- Whether a key may begin here. -/
  keyAllowed : Bool

namespace Scan

/-- How many brackets are open. -/
def flowDepth (s : Scan) : Nat := s.keys.length - 1

/-- Whether a bracket is open. -/
def inFlow (s : Scan) : Bool := s.flowDepth != 0

/-- Adds a token. -/
def push (s : Scan) (t : Token) : Scan :=
  { s with tokens := t :: s.tokens, count := s.count + 1 }

/-- Puts a token behind the first `before` ones. -/
def insertAt (s : Scan) (before : Nat) (t : Token) : Scan :=
  let behind := s.count - before
  { s with
    tokens := s.tokens.take behind ++ t :: s.tokens.drop behind
    count := s.count + 1 }

/-- Moves on. -/
def moveTo (s : Scan) (c : Cursor) : Scan := { s with cursor := c }

/-- Sets whether a key may begin here. -/
def allowKey (s : Scan) (allowed : Bool) : Scan := { s with keyAllowed := allowed }

/-- Behind the next `n` characters. -/
def skip (s : Scan) (n : Nat) : Scan := s.moveTo (s.cursor.skipMany n)

/-- Gives up the possible key inside the innermost bracket; none if one is
required. -/
def dropKey (s : Scan) : Option Scan :=
  match s.keys with
  | some k :: more => if k.required then none else some { s with keys := none :: more }
  | _ => some s

/-- Keeps in mind that a key may begin here. -/
def saveKey (s : Scan) : Option Scan :=
  if s.keyAllowed then do
    let s ← s.dropKey
    let required := !s.inFlow && s.indent == s.cursor.column
    some { s with keys := some ⟨s.cursor, s.count, required⟩ :: s.keys.tail }
  else some s

/-- Gives up possible keys that lie on an earlier line or more than 1024 characters
back; none if one of them is required. -/
def dropStaleKeys (s : Scan) : Option Scan :=
  let stale (k : KeyPlace) :=
    k.cursor.line < s.cursor.line || k.cursor.index + 1024 < s.cursor.index
  if s.keys.any fun k => k.any fun k => stale k && k.required then none
  else some { s with keys := s.keys.map fun k => k.filter fun k => !stale k }

/-- Opens an indented collection at a column, if that is further in. The token goes
behind the first `before` ones. -/
def indentTo (s : Scan) (column : Nat) (before : Nat) (t : Token) : Scan :=
  if s.inFlow || s.indent ≥ column then s
  else { s with indent := column, outer := s.indent :: s.outer }.insertAt before t

/-- Ends the indented collections that lie further in than a column. -/
def dedentLoop (column : Int) : (outer : List Int) → Scan → Scan
  | [], s => s
  | up :: more, s =>
    if s.indent > column then
      dedentLoop column more ({ s with indent := up, outer := more }.push .blockEnd)
    else s

/-- Ends the indented collections that lie further in than a column, unless a
bracket is open. -/
def dedentTo (s : Scan) (column : Int) : Scan :=
  if s.inFlow then s else dedentLoop column s.outer s

/-- Behind blanks, comments and breaks. A tab is no blank where a key may begin. -/
def skipToToken (s : Scan) : Scan :=
  let c := (s.cursor.takeWhile fun ch =>
    ch == ' ' || (ch == '\t' && (s.inFlow || !s.keyAllowed))).2
  let c := behindComment c
  match c.rest with
  | [] => s.moveTo c
  | ch :: _ =>
    if isBreak ch then
      if c.skipLine.rest.length < s.cursor.rest.length then
        skipToToken { s with cursor := c.skipLine, keyAllowed := s.keyAllowed || !s.inFlow }
      else s
    else s.moveTo c
termination_by s.cursor.rest.length

/-- A bracket opens. -/
def openFlow (s : Scan) (t : Token) : Option Scan := do
  let s ← s.saveKey
  some (({ s with keys := none :: s.keys, keyAllowed := true }.skip 1).push t)

/-- A bracket closes. -/
def closeFlow (s : Scan) (t : Token) : Option Scan := do
  let s ← s.dropKey
  let keys := if s.inFlow then s.keys.tail else s.keys
  some (({ s with keys := keys, keyAllowed := false }.skip 1).push t)

/-- A comma. -/
def readFlowEntry (s : Scan) : Option Scan := do
  let s ← s.dropKey
  some (((s.allowKey true).skip 1).push .flowEntry)

/-- The hyphen in front of an item. -/
def readBlockEntry (s : Scan) : Option Scan := do
  let s ←
    if s.inFlow then some s
    else if s.keyAllowed then
      some (s.indentTo s.cursor.column s.count .blockSequenceStart)
    else none
  let s ← s.dropKey
  some (((s.allowKey true).skip 1).push .blockEntry)

/-- The question mark in front of a key. -/
def readKey (s : Scan) : Option Scan := do
  let s ←
    if s.inFlow then some s
    else if s.keyAllowed then
      some (s.indentTo s.cursor.column s.count .blockMappingStart)
    else none
  let s ← s.dropKey
  some (((s.allowKey (!s.inFlow)).skip 1).push .key)

/-- The colon in front of a value. If a key may have begun before it, that was
one. -/
def readValue (s : Scan) : Option Scan := do
  let s ←
    match s.keys with
    | some k :: more =>
      let s := { s with keys := none :: more, keyAllowed := false }
      some ((s.insertAt k.before .key).indentTo k.cursor.column k.before .blockMappingStart)
    | _ =>
      if s.inFlow then some (s.allowKey false)
      else if s.keyAllowed then
        some ((s.indentTo s.cursor.column s.count .blockMappingStart).allowKey true)
      else none
  some ((s.skip 1).push .value)

/-- A name behind an ampersand or an asterisk. -/
def readName (s : Scan) (token : String → Token) : Option Scan := do
  let s ← s.saveKey
  let (name, c) := s.cursor.skip.takeWhile isNameChar
  let ends := endsWord c.head? || c.head?.any fun ch =>
    ch == '?' || ch == ':' || ch == ',' || ch == ']' || ch == '\x7d' || ch == '%' || ch == '@'
      || ch == '\x60'
  if name.isEmpty || !ends then none
  else some (((s.allowKey false).moveTo c).push (token (String.ofList name)))

/-- Characters of a tag; commas and brackets only between angle brackets. -/
def isTagChar (verbatim : Bool) (c : Char) : Bool :=
  isNameChar c || ";/?:@&=+$.%!~*'()".toList.contains c
    || (verbatim && (c == ',' || c == '[' || c == ']'))

/-- The handle and the suffix of a tag, and the place behind it. -/
def tagParts (c : Cursor) : Option (String × String × Cursor) :=
  if c.get? 1 == some '<' then
    let (uri, c) := (c.skipMany 2).takeWhile (isTagChar true)
    if uri.isEmpty || c.head? != some '>' then none
    else some ("", String.ofList uri, c.skip)
  else
    let (name, behind) := c.skip.takeWhile isNameChar
    if behind.head? == some '!' then
      let (suffix, c) := behind.skip.takeWhile (isTagChar false)
      if suffix.isEmpty then none
      else some (String.ofList ('!' :: name ++ ['!']), String.ofList suffix, c)
    else
      let (more, c) := behind.takeWhile (isTagChar false)
      let suffix := name ++ more
      if suffix.isEmpty then some ("", "!", c) else some ("!", String.ofList suffix, c)

/-- A tag. -/
def readTag (s : Scan) : Option Scan := do
  let s ← s.saveKey
  let (handle, suffix, c) ← tagParts s.cursor
  if endsWord c.head? || (s.inFlow && c.head? == some ',') then
    some (((s.allowKey false).moveTo c).push (.tag handle suffix))
  else none

/-- A scalar that may be a key. -/
def finishScalar (s : Scan) (style : ScalarStyle) (scanned : Scanned) : Scan :=
  ((s.allowKey scanned.atLineStart).moveTo scanned.cursor).push
    (.scalar style (String.ofList scanned.text))

/-- A scalar between quotes. -/
def readQuotedScalar (s : Scan) (double : Bool) : Option Scan := do
  let s ← s.saveKey
  let scanned ← readQuoted double s.cursor.skip []
  some (s.finishScalar .quoted scanned)

/-- A scalar without quotes. -/
def readPlainScalar (s : Scan) : Option Scan := do
  let s ← s.saveKey
  let scanned ← readPlain s.inFlow (s.indent + 1).toNat s.cursor [] ⟨[], []⟩
  some (s.finishScalar .plain scanned)

/-- A scalar in a block. -/
def readBlockScalar (s : Scan) (isLiteral : Bool) : Option Scan := do
  let s ← s.dropKey
  let scanned ← readBlock isLiteral s.indent s.cursor.skip
  some (s.finishScalar (if isLiteral then .literal else .folded) scanned)

/-- What comes between documents ends all indented collections. -/
def leaveBlocks (s : Scan) : Option Scan := do
  let s ← (s.dedentTo (-1)).dropKey
  some (s.allowKey false)

/-- The number that digits write, which are at most nine. -/
def versionNumber? (c : Cursor) : Option (Nat × Cursor) := do
  let (digits, c) := c.takeWhile Char.isDigit
  if digits.length > 9 then none
  else
    let n ← Text.digitsValue? 10 digits
    some (n, c)

/-- The parameters of a directive. -/
def directiveToken (name : List Char) (c : Cursor) : Option (Token × Cursor) := do
  let c := (c.takeWhile isBlank).2
  if name == "YAML".toList then
    let (major, c) ← versionNumber? c
    if c.head? != some '.' then none
    else
      let (minor, c) ← versionNumber? c.skip
      some (.version major minor, c)
  else if name == "TAG".toList then
    if c.head? != some '!' then none
    else
      let (handle, c) := c.skip.takeWhile isNameChar
      let (handle, c) :=
        if c.head? == some '!' then ('!' :: handle ++ ['!'], c.skip) else ('!' :: handle, c)
      if !(c.head?.any isBlank) || (handle.length > 1 && handle.getLast? != some '!') then none
      else
        let (start, c) := ((c.takeWhile isBlank).2).takeWhile (isTagChar true)
        if start.isEmpty || !endsWord c.head? then none
        else some (.tagHandle (String.ofList handle) (String.ofList start), c)
  else none

/-- A directive, and the rest of its line. -/
def readDirective (s : Scan) : Option Scan := do
  let s ← s.leaveBlocks
  let (name, c) := s.cursor.skip.takeWhile isNameChar
  if name.isEmpty || !endsWord c.head? then none
  else
    let (token, c) ← directiveToken name c
    let c := (c.takeWhile isBlank).2
    let c := behindComment c
    if c.head?.any fun ch => !isBreak ch then none
    else some ((s.moveTo (if c.rest.isEmpty then c else c.skipLine)).push token)

/-- A mark between documents. -/
def readMarker (s : Scan) (t : Token) : Option Scan := do
  let s ← s.leaveBlocks
  some ((s.skip 3).push t)

/-- The next token, which begins with a given character. -/
def readToken (s : Scan) (ch : Char) : Option Scan :=
  let c := s.cursor
  let alone := endsWord (c.get? 1)
  if c.column == 0 && ch == '%' then s.readDirective
  else if c.atMarker then s.readMarker (if ch == '-' then .documentStart else .documentEnd)
  else if ch == '[' then s.openFlow .flowSequenceStart
  else if ch == '\x7b' then s.openFlow .flowMappingStart
  else if ch == ']' then s.closeFlow .flowSequenceEnd
  else if ch == '\x7d' then s.closeFlow .flowMappingEnd
  else if ch == ',' then s.readFlowEntry
  else if ch == '-' && alone then s.readBlockEntry
  else if ch == '?' && (s.inFlow || alone) then s.readKey
  else if ch == ':' && (s.inFlow || alone) then s.readValue
  else if ch == '*' then s.readName .aliased
  else if ch == '&' then s.readName .anchor
  else if ch == '!' then s.readTag
  else if ch == '|' && !s.inFlow then s.readBlockScalar true
  else if ch == '>' && !s.inFlow then s.readBlockScalar false
  else if ch == '\'' then s.readQuotedScalar false
  else if ch == '"' then s.readQuotedScalar true
  else if ch == '-' && !(c.get? 1).any isBlank then s.readPlainScalar
  else if (ch == '?' || ch == ':') && !s.inFlow then s.readPlainScalar
  else if isBlank ch || "-?:,[]\x7b\x7d#&*!|>'\"%@\x60".toList.contains ch then none
  else s.readPlainScalar

/-- The tokens up to the first that may not be used yet: all that is known when the
next one cannot be read. -/
def cutOff (s : Scan) : Tokens :=
  let usable := s.keys.foldl (fun n k => min n (k.elim n KeyPlace.before)) s.count
  ⟨s.tokens.reverse.take usable, false⟩

/-- All tokens, from a place on. -/
def run (s : Scan) : Tokens :=
  match s.skipToToken.dropStaleKeys with
  | none => s.cutOff
  | some s' =>
    match s'.cursor.rest with
    | [] =>
      match (s'.dedentTo (-1)).dropKey with
      | some s => ⟨s.tokens.reverse, true⟩
      | none => s.cutOff
    | ch :: _ =>
      match (s'.dedentTo s'.cursor.column).readToken ch with
      | none => s.cutOff
      | some next => if next.cursor.rest.length < s.cursor.rest.length then run next else s.cutOff
termination_by s.cursor.rest.length

end Scan

/-- Characters that may occur in a YAML text. -/
def isAllowed (c : Char) : Bool :=
  let n := c.toNat
  n == 9 || n == 0xA || n == 0xD || (0x20 ≤ n && n ≤ 0x7E) || n == 0x85
    || (0xA0 ≤ n && n ≤ 0xFFFD && n != 0xFEFF) || 0x10000 ≤ n

/-- The tokens of a text. A byte order mark may come first. -/
def Tokens.ofText (text : String) : Tokens :=
  let chars := text.toList
  let chars := if chars.head?.any (·.toNat == 0xFEFF) then chars.tail else chars
  if chars.all isAllowed then
    Scan.run ⟨Cursor.ofText chars, [], 0, -1, [], [none], true⟩
  else ⟨[], false⟩

end HttpSuite.Yaml
