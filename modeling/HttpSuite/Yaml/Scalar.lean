import HttpSuite.Yaml.Cursor

/-!
# Scalars of YAML

A scalar is written plain, between quotes of either kind, or as a block of
indented lines. Where a plain or quoted scalar runs over lines, the gap between
two words is folded: a single break becomes a space, and of more breaks all but
the first are kept. A folded block treats breaks alike, except around lines that
are indented further.
-/

namespace HttpSuite.Yaml

/-- How a scalar is written. -/
inductive ScalarStyle where
  /-- Without quotes. -/
  | plain
  /-- Between quotes. -/
  | quoted
  /-- As a block whose breaks are kept. -/
  | literal
  /-- As a block whose breaks are folded. -/
  | folded
  deriving DecidableEq, Repr, Inhabited

/-- The blanks and breaks between two words. -/
structure Gap where
  /-- The blanks before the first break. -/
  blanks : List Char
  /-- The breaks, as they count inside a text. -/
  breaks : List Char
  deriving Inhabited

/-- What a gap stands for. -/
def Gap.fold (gap : Gap) : List Char :=
  match gap.breaks with
  | [] => gap.blanks
  | first :: more =>
    if first == '\n' then if more.isEmpty then [' '] else more else first :: more

/-- The gap at a place, and the place behind it; none if a tab stands where a
column below `tabsFrom` is asked for. -/
def readGap (tabsFrom : Nat) (c : Cursor) (gap : Gap) : Option (Gap × Cursor) :=
  match h : c.rest with
  | [] => some (gap, c)
  | ch :: rest =>
    if isBlank ch then
      if !gap.breaks.isEmpty && c.column < tabsFrom && ch == '\t' then none
      else
        have : c.skip.rest.length < c.rest.length := Cursor.length_skip_lt h
        readGap tabsFrom c.skip
          (if gap.breaks.isEmpty then { gap with blanks := gap.blanks ++ [ch] } else gap)
    else if isBreak ch then
      have : c.skipLine.rest.length < c.rest.length := Cursor.length_skipLine_lt h
      readGap tabsFrom c.skipLine { gap with breaks := gap.breaks ++ [breakText ch] }
    else some (gap, c)
termination_by c.rest.length

/-- A scalar that has been read. -/
structure Scanned where
  /-- Its text. -/
  text : List Char
  /-- The place behind it. -/
  cursor : Cursor
  /-- Whether a line begins there. -/
  atLineStart : Bool

/-! ### Plain scalars -/

/-- Characters that end a plain scalar inside flow collections. -/
def isFlowMark (c : Char) : Bool := c == ',' || c == '[' || c == ']' || c == '\x7b' || c == '\x7d'

/-- The characters of a word of a plain scalar; none if a colon stands before a
mark of a flow collection. -/
def plainWord (inFlow : Bool) : List Char → Option (List Char)
  | [] => some []
  | c :: rest =>
    if isBlank c || isBreak c then some []
    else if inFlow && c == ':' && rest.head?.any (fun d => isFlowMark d || d == '?') then none
    else if c == ':' && endsWord rest.head? then some []
    else if inFlow && isFlowMark c then some []
    else (plainWord inFlow rest).map (c :: ·)

/-- A plain scalar from a place on, behind `text` and a gap. -/
def readPlain (inFlow : Bool) (indent : Nat) (c : Cursor) (text : List Char) (gap : Gap) :
    Option Scanned :=
  let stop := some ⟨text, c, !gap.breaks.isEmpty⟩
  if c.atMarker || c.head? == some '#' then stop
  else
    match plainWord inFlow c.rest with
    | none => none
    | some [] => stop
    | some (ch :: word) =>
      let text := text ++ gap.fold ++ ch :: word
      let behind := c.skipMany (ch :: word).length
      if !(behind.head?.isSome && endsWord behind.head?) then some ⟨text, behind, false⟩
      else
        match readGap indent behind ⟨[], []⟩ with
        | none => none
        | some (gap, next) =>
          if !inFlow && next.column < indent then some ⟨text, next, !gap.breaks.isEmpty⟩
          else if next.rest.length < c.rest.length then readPlain inFlow indent next text gap
          else none
termination_by c.rest.length

/-! ### Quoted scalars -/

/-- The character that a letter behind a backslash stands for. -/
def escapeValue? (c : Char) : Option Char :=
  match c with
  | '0' => some (Char.ofNat 0)
  | 'a' => some (Char.ofNat 7)
  | 'b' => some (Char.ofNat 8)
  | 't' | '\t' => some '\t'
  | 'n' => some '\n'
  | 'v' => some (Char.ofNat 0xB)
  | 'f' => some (Char.ofNat 0xC)
  | 'r' => some '\r'
  | 'e' => some (Char.ofNat 0x1B)
  | ' ' => some ' '
  | '"' => some '"'
  | '/' => some '/'
  | '\\' => some '\\'
  | 'N' => some (Char.ofNat 0x85)
  | '_' => some (Char.ofNat 0xA0)
  | 'L' => some (Char.ofNat 0x2028)
  | 'P' => some (Char.ofNat 0x2029)
  | _ => none

/-- How many digits follow a letter behind a backslash. -/
def escapeDigits? (c : Char) : Option Nat :=
  match c with
  | 'x' => some 2
  | 'u' => some 4
  | 'U' => some 8
  | _ => none

/-- The character that an escape stands for, and how long the escape is behind
its backslash. -/
def readEscape? (s : List Char) : Option (Char × Nat) :=
  match s with
  | [] => none
  | c :: rest =>
    match escapeValue? c with
    | some v => some (v, 1)
    | none => do
      let n ← escapeDigits? c
      let digits := rest.take n
      let value ← Text.digitsValue? 16 digits
      if digits.length == n && Nat.isValidChar value then some (Char.ofNat value, n + 1) else none

/-- The characters of a quoted scalar up to a blank, a break, or the closing
quote, put in front of what was read before, the last one first. A backslash in
front of a line break removes it and the blanks behind. -/
def quotedRun (double : Bool) (c : Cursor) (read : List Char) :
    Option (List Char × Bool × Cursor) :=
  match h : c.rest with
  | [] => some (read, false, c)
  | ch :: rest =>
    have hlt : c.skip.rest.length < c.rest.length := Cursor.length_skip_lt h
    if isBlank ch || isBreak ch then some (read, false, c)
    else if !double && ch == '\'' && rest.head? == some '\'' then
      have : (c.skipMany 2).rest.length < c.rest.length := by
        simp only [Cursor.skipMany, h, List.length_drop, List.length_cons]
        omega
      quotedRun double (c.skipMany 2) ('\'' :: read)
    else if ch == (if double then '"' else '\'') then some (read, false, c)
    else if double && ch == '\\' then
      if rest.head?.any isBreak then some (read, true, c.skip.skipLine)
      else
        match readEscape? rest with
        | none => none
        | some (v, n) =>
          have : (c.skip.skipMany n).rest.length < c.rest.length :=
            Nat.lt_of_le_of_lt (Cursor.length_skipMany_le _ _) hlt
          quotedRun double (c.skip.skipMany n) (v :: read)
    else quotedRun double c.skip (ch :: read)
termination_by c.rest.length

/-- A quoted scalar from a place behind its opening quote on; what was read before
stands with the last character first. -/
def readQuoted (double : Bool) (c : Cursor) (read : List Char) : Option Scanned :=
  if c.atMarker || c.rest.isEmpty then none
  else
    match quotedRun double c read with
    | none => none
    | some (read, joined, behind) =>
      if behind.head? == some (if double then '"' else '\'') && !joined then
        some ⟨read.reverse, behind.skip, false⟩
      else
        match readGap 0 behind ⟨[], []⟩ with
        | none => none
        | some (gap, next) =>
          let gap := if joined then gap.breaks else gap.fold
          if next.rest.length < c.rest.length then readQuoted double next (gap.reverse ++ read)
          else none
termination_by c.rest.length

/-! ### Blocks -/

/-- What happens to the breaks at the end of a block. -/
inductive Chomping where
  /-- The first is kept. -/
  | clip
  /-- None is kept. -/
  | strip
  /-- All are kept. -/
  | keep
  deriving DecidableEq

/-- The sign behind the mark of a block, if there is one. -/
def readChomping (c : Cursor) : Option Chomping × Cursor :=
  match c.head? with
  | some '+' => (some .keep, c.skip)
  | some '-' => (some .strip, c.skip)
  | _ => (none, c)

/-- The digit behind the mark of a block, if there is one; none if it is zero. -/
def readIncrement (c : Cursor) : Option (Option Nat × Cursor) :=
  match c.head? with
  | some d =>
    if d.isDigit then if d == '0' then none else some (some (d.toNat - '0'.toNat), c.skip)
    else some (none, c)
  | none => some (none, c)

/-- The spaces at a place that count as indentation: all, or those that a known
indentation asks for. -/
def spacesAt (indent : Nat) (c : Cursor) : Nat :=
  ((if indent == 0 then c.rest else c.rest.take (indent - c.column)).takeWhile (· == ' ')).length

/-- The breaks before the next line of a block, and the greatest column met; none
if a tab stands where the indentation is. While the indentation is not known, it
is zero. -/
def readBlockBreaks (indent : Nat) (c : Cursor) (breaks : List Char) (deepest : Nat) :
    Option (List Char × Nat × Cursor) :=
  let line := c.skipMany (spacesAt indent c)
  let deepest := max deepest line.column
  if (indent == 0 || line.column < indent) && line.head? == some '\t' then none
  else
    match h : line.rest with
    | [] => some (breaks, deepest, line)
    | ch :: _ =>
      if isBreak ch then
        have : line.skipLine.rest.length < c.rest.length :=
          Nat.lt_of_lt_of_le (Cursor.length_skipLine_lt h) (Cursor.length_skipMany_le _ _)
        readBlockBreaks indent line.skipLine (breaks ++ [breakText ch]) deepest
      else some (breaks, deepest, line)
termination_by c.rest.length

/-- The lines of a block, behind `text`, the break at the end of the last line, and
the empty lines behind that. -/
def readBlockLines (isLiteral : Bool) (indent : Nat) (c : Cursor) (text : List Char)
    (lastBreak : Option Char) (breaks : List Char) (afterBlank : Bool) :
    Option (List Char × Option Char × List Char × Cursor) :=
  if c.column != indent || c.rest.isEmpty then some (text, lastBreak, breaks, c)
  else
    let blank := c.head?.any isBlank
    let joint :=
      if !isLiteral && lastBreak == some '\n' && !afterBlank && !blank then
        if breaks.isEmpty then [' '] else []
      else lastBreak.toList
    let (line, behind) := c.takeWhile fun ch => !isBreak ch
    let text := text ++ joint ++ breaks ++ line
    let lastBreak := behind.head?.map breakText
    let next := if behind.rest.isEmpty then behind else behind.skipLine
    match readBlockBreaks indent next [] 0 with
    | none => none
    | some (breaks, _, after) =>
      if after.rest.length < c.rest.length then
        readBlockLines isLiteral indent after text lastBreak breaks blank
      else none
termination_by c.rest.length

/-- The end of the line, if a comment begins at the place. -/
def behindComment (c : Cursor) : Cursor :=
  if c.head? == some '#' then (c.takeWhile fun ch => !isBreak ch).2 else c

/-- A block from a place behind its mark on, inside something indented by
`parentIndent`. -/
def readBlock (isLiteral : Bool) (parentIndent : Int) (c : Cursor) : Option Scanned := do
  let (before, c) := readChomping c
  let (increment, c) ← readIncrement c
  let (after, c) :=
    if before.isNone && increment.isSome then readChomping c else (none, c)
  let chomping := (before.or after).getD .clip
  let c := behindComment (c.takeWhile isBlank).2
  if c.head?.any fun ch => !isBreak ch then none
  else
    let c := if c.rest.isEmpty then c else c.skipLine
    let indent := match increment with
      | some n => (if parentIndent ≥ 0 then parentIndent.toNat else 0) + n
      | none => 0
    let (breaks, deepest, c) ← readBlockBreaks indent c [] 0
    let indent := if indent == 0 then max (max deepest (parentIndent + 1).toNat) 1 else indent
    let (text, lastBreak, breaks, c) ← readBlockLines isLiteral indent c [] none breaks false
    let text := if chomping == .strip then text else text ++ lastBreak.toList
    let text := if chomping == .keep then text ++ breaks else text
    some ⟨text, c, true⟩

end HttpSuite.Yaml
