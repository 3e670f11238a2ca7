import HttpSuite.Regex.Basic

/-!
# Character classes of regular expressions

The named classes and the escapes that a regular expression may use, alone or
between brackets, and the bracketed classes themselves. A name of a Unicode
class is read loosely: case, blanks, hyphens and underscores do not count.

A bracketed class is read by one function per level of nesting. Its fuel is the
number of characters left, and every round takes at least one of them.
-/

namespace HttpSuite.Regex

open HttpSuite.Text

/-- How a part of a regular expression is to be read. -/
structure Flags where
  /-- Letter case does not matter. -/
  ignoreCase : Bool
  /-- Line anchors hold at every line. -/
  multiLine : Bool
  /-- A point matches line ends too. -/
  dotAll : Bool
  /-- Repetitions prefer few rounds; what matches is the same. -/
  swapGreed : Bool
  /-- Classes mean all of Unicode and not ASCII alone. -/
  unicode : Bool
  /-- Blanks and comments do not count. -/
  verbose : Bool
  /-- A carriage return ends lines too. -/
  crlf : Bool
  deriving Repr, DecidableEq

/-- The flags that hold when none is set. -/
def Flags.default : Flags := ⟨false, false, false, false, true, false, false⟩

/-- The general categories by their names, short and long. -/
def categoryNames : List (String × List String) :=
  [("l", ["L"]), ("letter", ["L"]), ("lc", ["Lu", "Ll", "Lt"]), ("casedletter", ["Lu", "Ll", "Lt"]),
   ("lu", ["Lu"]), ("uppercaseletter", ["Lu"]), ("ll", ["Ll"]), ("lowercaseletter", ["Ll"]),
   ("lt", ["Lt"]), ("titlecaseletter", ["Lt"]), ("lm", ["Lm"]), ("modifierletter", ["Lm"]),
   ("lo", ["Lo"]), ("otherletter", ["Lo"]),
   ("m", ["M"]), ("mark", ["M"]), ("combiningmark", ["M"]), ("mn", ["Mn"]),
   ("nonspacingmark", ["Mn"]), ("mc", ["Mc"]), ("spacingmark", ["Mc"]), ("me", ["Me"]),
   ("enclosingmark", ["Me"]),
   ("n", ["N"]), ("number", ["N"]), ("nd", ["Nd"]), ("decimalnumber", ["Nd"]), ("digit", ["Nd"]),
   ("nl", ["Nl"]), ("letternumber", ["Nl"]), ("no", ["No"]), ("othernumber", ["No"]),
   ("p", ["P"]), ("punctuation", ["P"]), ("punct", ["P"]), ("pc", ["Pc"]),
   ("connectorpunctuation", ["Pc"]), ("pd", ["Pd"]), ("dashpunctuation", ["Pd"]), ("ps", ["Ps"]),
   ("openpunctuation", ["Ps"]), ("pe", ["Pe"]), ("closepunctuation", ["Pe"]), ("pi", ["Pi"]),
   ("initialpunctuation", ["Pi"]), ("pf", ["Pf"]), ("finalpunctuation", ["Pf"]), ("po", ["Po"]),
   ("otherpunctuation", ["Po"]),
   ("s", ["S"]), ("symbol", ["S"]), ("sm", ["Sm"]), ("mathsymbol", ["Sm"]), ("sc", ["Sc"]),
   ("currencysymbol", ["Sc"]), ("sk", ["Sk"]), ("modifiersymbol", ["Sk"]), ("so", ["So"]),
   ("othersymbol", ["So"]),
   ("z", ["Z"]), ("separator", ["Z"]), ("zs", ["Zs"]), ("spaceseparator", ["Zs"]), ("zl", ["Zl"]),
   ("lineseparator", ["Zl"]), ("zp", ["Zp"]), ("paragraphseparator", ["Zp"]),
   ("c", ["C"]), ("other", ["C"]), ("cc", ["Cc"]), ("control", ["Cc"]), ("cntrl", ["Cc"]),
   ("cf", ["Cf"]), ("format", ["Cf"]), ("co", ["Co"]), ("privateuse", ["Co"]), ("cn", ["Cn"]),
   ("unassigned", ["Cn"])]

/-- A name as it is compared. -/
def looseName (name : List Char) : String :=
  let kept := (name.filter fun c => !(c == '_' || c == '-' || c == ' ')).map Char.toLower
  let kept := if startsWith "is".toList kept && kept.length > 2 then kept.drop 2 else kept
  String.ofList kept

/-- The characters of a Unicode class by its name. -/
def namedClass? (name : List Char) : Option CharSet :=
  let byCategory (loose : String) : Option CharSet :=
    (categoryNames.lookup loose).map fun labels => CharSet.ofCategories fun l =>
      labels.any fun label => label == l || (label.length == 1 && l.startsWith label)
  let loose := looseName name
  match splitOnce? '=' name with
  | some (key, value) =>
    if looseName key == "generalcategory" || looseName key == "gc" then byCategory (looseName value)
    else none
  | none =>
    if loose == "any" then some CharSet.full
    else if loose == "ascii" then some (CharSet.ofRanges [(0, 127)])
    else if loose == "assigned" then some (CharSet.ofCategories (· != "Cn"))
    else if loose == "alphabetic" || loose == "alpha" then some CharSet.alphabetic
    else if loose == "whitespace" || loose == "space" || loose == "wspace" then
      some CharSet.whitespace
    else if loose == "uppercase" || loose == "upper" then
      some (CharSet.ofCategories (· == "Lu"))
    else if loose == "lowercase" || loose == "lower" then
      some (CharSet.ofCategories (· == "Ll"))
    else byCategory loose

/-- The ASCII classes by their names. -/
def asciiClass? (name : String) : Option CharSet :=
  let ranges : Option (List (Char × Char)) :=
    match name with
    | "alnum" => some [('0', '9'), ('A', 'Z'), ('a', 'z')]
    | "alpha" => some [('A', 'Z'), ('a', 'z')]
    | "ascii" => some [('\x00', '\x7f')]
    | "blank" => some [('\t', '\t'), (' ', ' ')]
    | "cntrl" => some [('\x00', '\x1f'), ('\x7f', '\x7f')]
    | "digit" => some [('0', '9')]
    | "graph" => some [('!', '~')]
    | "lower" => some [('a', 'z')]
    | "print" => some [(' ', '~')]
    | "punct" => some [('!', '/'), (':', '@'), ('[', '\x60'), ('\x7b', '~')]
    | "space" => some [('\t', '\r'), (' ', ' ')]
    | "upper" => some [('A', 'Z')]
    | "word" => some [('0', '9'), ('A', 'Z'), ('_', '_'), ('a', 'z')]
    | "xdigit" => some [('0', '9'), ('A', 'F'), ('a', 'f')]
    | _ => none
  ranges.map fun rs => CharSet.ofRanges (rs.map fun r => (r.1.toNat, r.2.toNat))

/-- What an escape stands for. -/
inductive Escape where
  /-- A character. -/
  | char (c : Char)
  /-- Any character of a set. -/
  | set (s : CharSet)
  /-- A condition on the position. -/
  | look (cond : Look)

/-- All case variants, if case does not matter. -/
def Flags.variants (flags : Flags) (s : CharSet) : CharSet :=
  if flags.ignoreCase then
    if flags.unicode then s.withCaseVariants
    else
      s.union (CharSet.ofRanges (s.ranges.flatMap fun r =>
        let lower := (max r.1 'A'.toNat, min r.2 'Z'.toNat)
        let upper := (max r.1 'a'.toNat, min r.2 'z'.toNat)
        [(lower.1 + 32, lower.2 + 32), (upper.1 - 32, upper.2 - 32)]))
  else s

/-- The complement; outside Unicode mode a complement could match half a
character, which is refused. -/
def Flags.negate? (flags : Flags) (s : CharSet) : Option CharSet :=
  if flags.unicode then some s.complement else none

/-- One of the classes with a letter of its own. -/
private def letterClass? (flags : Flags) (c : Char) : Option CharSet :=
  let u := flags.unicode
  match c with
  | 'd' => some (if u then CharSet.decimalDigit else CharSet.range '0' '9')
  | 's' => if u then some CharSet.whitespace else asciiClass? "space"
  | 'w' => if u then some CharSet.wordChar else asciiClass? "word"
  | 'D' => if u then some CharSet.decimalDigit.complement else none
  | 'S' => if u then some CharSet.whitespace.complement else none
  | 'W' => if u then some CharSet.wordChar.complement else none
  | _ => none

/-- The character with a code, which must be one. -/
private def scalar? (n : Nat) : Option Char :=
  if n.isValidChar then some (Char.ofNat n) else none

/-- A code in hexadecimal: so many digits, or any number of them in braces. -/
private def hexCode? (digits : Nat) : List Char → Option (Char × List Char)
  | '\x7b' :: rest => do
    let (ds, rest) ← splitOnce? '\x7d' rest
    return (← scalar? (← digitsValue? 16 ds), rest)
  | s =>
    if s.length < digits then none
    else do return (← scalar? (← digitsValue? 16 (s.take digits)), s.drop digits)

/-- A Unicode class behind the letter `p`. -/
private def unicodeClass? (negated : Bool) : List Char → Option (CharSet × List Char)
  | '\x7b' :: rest => do
    let (name, rest) ← splitOnce? '\x7d' rest
    let (negated, name) :=
      match name with
      | '^' :: name => (!negated, name)
      | _ => (negated, name)
    let s ← namedClass? name
    return (if negated then s.complement else s, rest)
  | c :: rest => do
    let s ← namedClass? [c]
    return (if negated then s.complement else s, rest)
  | [] => none

/-- The words in braces behind the letter of a word boundary. -/
private def boundaryWords : List (String × (Bool → Look)) :=
  [("\x7bstart\x7d", .wordStart), ("\x7bend\x7d", .wordEnd),
   ("\x7bstart-half\x7d", .wordStartHalf), ("\x7bend-half\x7d", .wordEndHalf)]

/-- The escape behind a backslash. -/
def escape? (flags : Flags) : List Char → Option (Escape × List Char)
  | [] => none
  | c :: rest =>
    match letterClass? flags c with
    | some s => some (.set s, rest)
    | none =>
      match c with
      | 'n' => some (.char '\n', rest)
      | 't' => some (.char '\t', rest)
      | 'r' => some (.char '\r', rest)
      | 'f' => some (.char '\x0c', rest)
      | 'v' => some (.char '\x0b', rest)
      | 'a' => some (.char '\x07', rest)
      | 'x' => (hexCode? 2 rest).map fun (c, r) => (.char c, r)
      | 'u' => (hexCode? 4 rest).map fun (c, r) => (.char c, r)
      | 'U' => (hexCode? 8 rest).map fun (c, r) => (.char c, r)
      | 'p' =>
        if flags.unicode then (unicodeClass? false rest).map fun (s, r) => (.set s, r) else none
      | 'P' =>
        if flags.unicode then (unicodeClass? true rest).map fun (s, r) => (.set s, r) else none
      | 'A' => some (.look .textStart, rest)
      | 'z' => some (.look .textEnd, rest)
      | 'B' => some (.look (.notWordBoundary flags.unicode), rest)
      | '<' => some (.look (.wordStart flags.unicode), rest)
      | '>' => some (.look (.wordEnd flags.unicode), rest)
      | 'b' =>
        match boundaryWords.findSome? fun (w, f) =>
            (stripLiteral? w.toList rest).map fun r => (f flags.unicode, r) with
        | some (cond, r) => some (.look cond, r)
        | none => some (.look (.wordBoundary flags.unicode), rest)
      | _ =>
        if c.toNat < 128 && !c.isAlphanum then some (.char c, rest) else none

/-- Drops blanks and comments where they do not count. -/
def skipVerbose (flags : Flags) (s : List Char) : List Char :=
  if flags.verbose then go s else s
where
  /-- Drops blanks; inside a comment, everything up to the end of the line. -/
  go : List Char → List Char
    | [] => []
    | c :: rest =>
      if isWhitespace c then go rest
      else if c == '#' then comment rest
      else c :: rest
  /-- Drops the rest of a comment. -/
  comment : List Char → List Char
    | [] => []
    | c :: rest => if c == '\n' then go rest else comment rest

/-- An ASCII class between colons, behind its bracket. -/
private def colonClass? (s : List Char) : Option (CharSet × List Char) := do
  let rest ← stripLiteral? [':'] s
  let (negated, rest) :=
    match rest with
    | '^' :: r => (true, r)
    | r => (false, r)
  let (name, rest) ← splitLiteral? [':', ']'] rest
  let s ← asciiClass? (String.ofList name)
  return (if negated then s.complement else s, rest)

/-- How the set read so far meets the one behind an operator. -/
private def applyPending (pending : Option (CharSet × (CharSet → CharSet → CharSet)))
    (s : CharSet) : CharSet :=
  match pending with
  | none => s
  | some (left, f) => f left s

/-- One character or class inside brackets; a nested class is not one of them. -/
private def classItem? (flags : Flags) : List Char → Option (Escape × List Char)
  | '\\' :: rest =>
    match escape? flags rest with
    | some (.look _, _) => none
    | other => other
  | c :: rest => some (.char c, rest)
  | [] => none

/-- Leading hyphens inside brackets, and a bracket right behind them. -/
private def leadingLiterals (flags : Flags) : Nat → List Char → List Char × List Char
  | 0, s => ([], s)
  | fuel + 1, s =>
    match skipVerbose flags s with
    | '-' :: rest =>
      let (more, rest) := leadingLiterals flags fuel rest
      ('-' :: more, rest)
    | s => ([], s)

/-- A bracketed class behind its opening bracket: the set, and what follows the
closing bracket. `union` is what has been read since the last operator, and
`pending` is what stands before that operator. -/
def bracketed (flags : Flags) : Nat → (pending : Option (CharSet × (CharSet → CharSet → CharSet))) →
    (union : CharSet) → List Char → Option (CharSet × List Char)
  | 0, _, _, _ => none
  | fuel + 1, pending, union, s =>
    let operator (f : CharSet → CharSet → CharSet) (rest : List Char) :=
      let pending := some (applyPending pending (flags.variants union), f)
      bracketed flags fuel pending CharSet.empty rest
    match skipVerbose flags s with
    | [] => none
    | ']' :: rest => some (applyPending pending (flags.variants union), rest)
    | '&' :: '&' :: rest => operator CharSet.inter rest
    | '-' :: '-' :: rest => operator CharSet.diff rest
    | '~' :: '~' :: rest => operator CharSet.symmDiff rest
    | '[' :: rest =>
      match colonClass? rest with
      | some (set, rest) => bracketed flags fuel pending (union.union set) rest
      | none =>
        match opening fuel rest with
        | some (set, rest) => bracketed flags fuel pending (union.union set) rest
        | none => none
    | s =>
      match classItem? flags s with
      | none => none
      | some (.set set, rest) => bracketed flags fuel pending (union.union set) rest
      | some (.look _, _) => none
      | some (.char low, rest) =>
        let alone := bracketed flags fuel pending (union.union (CharSet.single low)) rest
        match skipVerbose flags rest with
        | '-' :: after =>
          match skipVerbose flags after with
          | ']' :: _ | '-' :: _ => alone
          | after =>
            match classItem? flags after with
            | some (.char high, rest) =>
              if low ≤ high then
                bracketed flags fuel pending (union.union (CharSet.range low high)) rest
              else none
            | _ => none
        | _ => alone
where
  /-- The start of a class: its negation, and the characters that are literal
  only there. -/
  opening (fuel : Nat) (s : List Char) : Option (CharSet × List Char) :=
    match fuel with
    | 0 => none
    | fuel + 1 =>
      let s := skipVerbose flags s
      let (negated, s) :=
        match s with
        | '^' :: rest => (true, rest)
        | _ => (false, s)
      let (hyphens, s) := leadingLiterals flags s.length s
      let (first, s) :=
        match hyphens, skipVerbose flags s with
        | [], ']' :: rest => (CharSet.single ']', rest)
        | [], s => (CharSet.empty, s)
        | _, s => (CharSet.single '-', s)
      match bracketed flags fuel none first s with
      | none => none
      | some (set, rest) =>
        if negated then (flags.negate? set).map fun set => (set, rest) else some (set, rest)

end HttpSuite.Regex
