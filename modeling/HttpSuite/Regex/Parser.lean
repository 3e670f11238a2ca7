import HttpSuite.Regex.CharClass

/-!
# Reading regular expressions

The text of a regular expression is read from left to right with a stack of open
groups. A state holds the arms finished so far, the parts of the current arm,
and the flags in force; opening a group puts the state on the stack, closing it
makes one part of it. Every round takes at least one character, so the number of
characters is fuel enough.

Back references and looks around are no part of the language. A repetition needs
something to repeat, and flags set without a group are nothing to repeat.
-/

namespace HttpSuite.Regex

open HttpSuite.Text

/-- A part of the current arm. -/
inductive Part where
  /-- Something that can be repeated. -/
  | solid (r : Regex)
  /-- A change of flags, which matches nothing of its own. -/
  | flags

/-- What has been read of one group. -/
structure Level where
  /-- The arms before the current one, the latest first. -/
  arms : List Regex
  /-- The parts of the current arm, the latest first. -/
  parts : List Part
  /-- The flags in force. -/
  flags : Flags

/-- The parts of an arm, in order. -/
def Level.arm (level : Level) : Regex :=
  let rs := level.parts.reverse.filterMap fun p =>
    match p with
    | .solid r => some r
    | .flags => none
  match rs with
  | [] => .empty
  | [r] => r
  | rs => .cat rs

/-- The whole group. -/
def Level.regex (level : Level) : Regex :=
  match level.arms with
  | [] => level.arm
  | arms => .alt (arms.reverse ++ [level.arm])

/-- The level with one more part. -/
def Level.add (level : Level) (r : Regex) : Level := { level with parts := .solid r :: level.parts }

/-- The level with its latest part repeated. -/
def Level.repeated? (level : Level) (least : Nat) (most : Option Nat) : Option Level :=
  match level.parts with
  | .solid r :: rest => some { level with parts := .solid (.rep r least most) :: rest }
  | _ => none

/-- Drops blanks. -/
private def dropBlanks (s : List Char) : List Char := s.dropWhile isWhitespace

/-- A count of a repetition, which must fit 32 bits. -/
private def count? (s : List Char) : Option (Nat × List Char) := do
  let s := dropBlanks s
  let n ← digitsValue? 10 (s.takeWhile Char.isDigit)
  if n < Nat.pow 2 32 then some (n, dropBlanks (s.dropWhile Char.isDigit)) else none

/-- The bounds of a repetition behind the opening brace. -/
def bounds? (s : List Char) : Option (Nat × Option Nat × List Char) := do
  let (least, s) ← count? s
  match s with
  | '\x7d' :: rest => some (least, some least, rest)
  | ',' :: rest =>
    match dropBlanks rest with
    | '\x7d' :: rest => some (least, none, rest)
    | rest =>
      let (most, rest) ← count? rest
      match rest with
      | '\x7d' :: rest => if least ≤ most then some (least, some most, rest) else none
      | _ => none
  | _ => none

/-- Sets or clears one flag. -/
private def Flags.put? (flags : Flags) (on : Bool) : Char → Option Flags
  | 'i' => some { flags with ignoreCase := on }
  | 'm' => some { flags with multiLine := on }
  | 's' => some { flags with dotAll := on }
  | 'U' => some { flags with swapGreed := on }
  | 'u' => some { flags with unicode := on }
  | 'x' => some { flags with verbose := on }
  | 'R' => some { flags with crlf := on }
  | _ => none

/-- Flags up to the colon or bracket behind them: the flags, whether there was
any, and the rest from that character on. No flag may be named twice, and a
hyphen must be followed by a flag. -/
def readFlags? (flags : Flags) (on : Bool) (seen : List Char) (hyphenLast : Bool) :
    List Char → Option (Flags × Bool × List Char)
  | [] => none
  | c :: rest =>
    if c == ':' || c == ')' then
      if hyphenLast then none else some (flags, !seen.isEmpty, c :: rest)
    else if c == '-' then
      if on then readFlags? flags false seen true rest else none
    else if seen.contains c then none
    else
      match flags.put? on c with
      | some flags => readFlags? flags on (c :: seen) false rest
      | none => none

/-- Whether a name is one for a group. -/
private def isGroupName : List Char → Bool
  | [] => false
  | c :: rest =>
    (c == '_' || isAlphabetic c)
      && rest.all fun c => c == '_' || c == '.' || c == '[' || c == ']' || isAlphanumeric c

/-- What stands behind the bracket that opens a group. -/
inductive Opening where
  /-- A group, with the flags that hold inside. -/
  | group (flags : Flags) (name : Option String)
  /-- Flags for the rest of the group around. -/
  | setFlags (flags : Flags)

/-- The kind of a group. -/
def opening? (flags : Flags) (s : List Char) : Option (Opening × List Char) :=
  match s with
  | '?' :: rest =>
    let named (s : List Char) : Option (Opening × List Char) := do
      let (name, rest) ← splitOnce? '>' s
      if isGroupName name then some (.group flags (some (String.ofList name)), rest) else none
    match rest with
    | '=' :: _ | '!' :: _ | '<' :: '=' :: _ | '<' :: '!' :: _ => none
    | 'P' :: '<' :: rest => named rest
    | '<' :: rest => named rest
    | rest =>
      match readFlags? flags true [] false rest with
      | some (flags, _, ':' :: rest) => some (.group flags none, rest)
      | some (flags, true, ')' :: rest) => some (.setFlags flags, rest)
      | _ => none
  | s => some (.group flags none, s)

/-- Any character but the ends of lines. -/
private def anyChar (flags : Flags) : CharSet :=
  if flags.dotAll then CharSet.full
  else
    CharSet.diff CharSet.full
      (CharSet.ofRanges (if flags.crlf then [(10, 10), (13, 13)] else [(10, 10)]))

/-- Reads on from a level, the levels around it, and the names of groups so
far. -/
def readFrom : Nat → Level → List Level → List String → List Char → Option Regex
  | 0, _, _, _, _ => none
  | fuel + 1, level, outer, names, s =>
    let flags := level.flags
    let rep (least : Nat) (most : Option Nat) (rest : List Char) : Option Regex :=
      let rest :=
        match rest with
        | '?' :: r => r
        | r => r
      match level.repeated? least most with
      | some level => readFrom fuel level outer names rest
      | none => none
    match skipVerbose flags s with
    | [] => if outer.isEmpty then some level.regex else none
    | '|' :: rest =>
      readFrom fuel { level with arms := level.arm :: level.arms, parts := [] } outer names rest
    | '(' :: rest =>
      match opening? flags (skipVerbose flags rest) with
      | none => none
      | some (.setFlags flags, rest) =>
        readFrom fuel { level with flags := flags, parts := .flags :: level.parts } outer names rest
      | some (.group flags name, rest) =>
        match name with
        | none => readFrom fuel ⟨[], [], flags⟩ (level :: outer) names rest
        | some name =>
          if names.contains name then none
          else readFrom fuel ⟨[], [], flags⟩ (level :: outer) (name :: names) rest
    | ')' :: rest =>
      match outer with
      | [] => none
      | around :: outer => readFrom fuel (around.add level.regex) outer names rest
    | '*' :: rest => rep 0 none rest
    | '+' :: rest => rep 1 none rest
    | '?' :: rest => rep 0 (some 1) rest
    | '\x7b' :: rest =>
      match bounds? rest with
      | some (least, most, rest) => rep least most rest
      | none => none
    | '.' :: rest =>
      if flags.unicode then readFrom fuel (level.add (.chars (anyChar flags))) outer names rest
      else none
    | '^' :: rest =>
      let cond := if flags.multiLine then .lineStart flags.crlf else .textStart
      readFrom fuel (level.add (.look cond)) outer names rest
    | '$' :: rest =>
      let cond := if flags.multiLine then .lineEnd flags.crlf else .textEnd
      readFrom fuel (level.add (.look cond)) outer names rest
    | '[' :: rest =>
      match bracketed.opening flags (2 * rest.length + 2) rest with
      | some (set, rest) => readFrom fuel (level.add (.chars set)) outer names rest
      | none => none
    | '\\' :: rest =>
      match escape? flags rest with
      | some (.char c, rest) =>
        readFrom fuel (level.add (.chars (flags.variants (CharSet.single c)))) outer names rest
      | some (.set s, rest) =>
        readFrom fuel (level.add (.chars (flags.variants s))) outer names rest
      | some (.look cond, rest) => readFrom fuel (level.add (.look cond)) outer names rest
      | none => none
    | c :: rest =>
      readFrom fuel (level.add (.chars (flags.variants (CharSet.single c)))) outer names rest

/-- The regular expression that a text writes, if it writes one. -/
def ofText? (text : String) : Option Regex :=
  let s := text.toList
  readFrom (s.length + 1) ⟨[], [], Flags.default⟩ [] [] s

end HttpSuite.Regex
