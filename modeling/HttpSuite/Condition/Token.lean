import HttpSuite.Decimal.Binary64
import HttpSuite.Text.Basic

/-!
# Tokens of conditions

Conditions are expressions over names, numbers, texts between double quotes or
backticks, and characters between single quotes. Names are ASCII words. Many words
are set aside and are no names.
-/

namespace HttpSuite.Condition

open HttpSuite.Text

/-- A token of a condition. -/
inductive Token where
  /-- An integer. -/
  | int (n : Int)
  /-- A number with a fraction or exponent. -/
  | float (x : Binary64)
  /-- A text. -/
  | string (s : String)
  /-- A character. -/
  | char (c : Char)
  /-- A name or a word of the language. -/
  | word (s : String)
  /-- An operator or a mark. -/
  | symbol (s : String)
  deriving DecidableEq, Repr, Inhabited

/-- Characters that begin a name. -/
def isNameStart (c : Char) : Bool := c.isAlpha || c == '_'

/-- Characters inside a name. -/
def isNameChar (c : Char) : Bool := c.isAlphanum || c == '_'

/-- The operators and marks, longer ones before those they begin with. Three of them
mean nothing: they only keep their signs from being read one by one. -/
def symbols : List String :=
  ["++", "--", "<-", "&&", "||", "==", "!=", "<=", ">=", "<", ">", "+", "-", "*", "/", "%", "!",
    "&", "|", "^", "(", ")", "[", "]", "#\x7b", "\x7b", "\x7d", ",", ":"]

/-- Words that are neither names nor part of the language. -/
def reserved : List String :=
  ["let", "const", "fn", "this", "return", "switch", "do", "while", "until", "loop", "for", "in",
    "continue", "break", "private", "throw", "try", "catch", "import", "export", "as", "global",
    "var", "static", "shared", "goto", "exit", "match", "case", "public", "protected", "new",
    "use", "with", "is", "module", "package", "super", "thread", "spawn", "go", "await", "async",
    "sync", "yield", "default", "void", "null", "nil", "print", "debug", "type_of", "eval", "Fn",
    "call", "curry", "is_shared", "is_def_fn", "is_def_var"]

/-- What a letter behind a backslash stands for. -/
def escapeValue? (quote c : Char) : Option Char :=
  if c == 't' then some '\t'
  else if c == 'n' then some '\n'
  else if c == 'r' then some '\r'
  else if c == '\\' || c == quote then some c
  else none

/-- How many digits follow a letter behind a backslash. -/
def escapeDigits? (c : Char) : Option Nat :=
  if c == 'x' then some 2 else if c == 'u' then some 4 else if c == 'U' then some 8 else none

/-- Reads a text up to its closing quote, with escapes; a quote that is written twice
is one of the text. -/
def readQuoted (quote : Char) (s : List Char) : Option (List Char × List Char) :=
  match s with
  | [] => none
  | c :: rest =>
    if c == quote then
      match rest with
      | d :: more =>
        if d == quote then (readQuoted quote more).map fun (t, r) => (quote :: t, r)
        else some ([], rest)
      | [] => some ([], [])
    else if c == '\n' then none
    else if c == '\\' then
      match rest with
      | [] => none
      | d :: more =>
        match escapeValue? quote d with
        | some v => (readQuoted quote more).map fun (t, r) => (v :: t, r)
        | none =>
          match escapeDigits? d with
          | none => none
          | some n =>
            match digitsValue? 16 (more.take n) with
            | some v =>
              if (more.take n).length == n && Nat.isValidChar v then
                (readQuoted quote (more.drop n)).map fun (t, r) => (Char.ofNat v :: t, r)
              else none
            | none => none
    else (readQuoted quote rest).map fun (t, r) => (c :: t, r)
termination_by s.length
decreasing_by
  all_goals (simp_wf; try (simp only [List.length_cons, List.length_drop]))
  all_goals omega

/-- Reads a text up to its closing backtick; a break right behind the opening one does
not count. -/
def readBackticked (s : List Char) : Option (List Char × List Char) :=
  let s := match s with
    | '\n' :: rest => rest
    | s => s
  splitOnce? '\x60' s

/-- Digits of a base, with underscores between them. -/
def readDigits (base : Nat) (s : List Char) : List Char × List Char :=
  let isDigit (c : Char) : Bool := c == '_' || (hexValue? c).any (· < base)
  ((s.takeWhile isDigit).filter (· != '_'), s.dropWhile isDigit)

/-- The digits behind a point, and what follows; a point may stand without digits
where no name, point or underscore follows. -/
def readFraction? (s : List Char) : Option (List Char × List Char) :=
  match s with
  | '.' :: c :: rest =>
    if c.isDigit then some (readDigits 10 (c :: rest))
    else if c == '.' || isNameStart c then none
    else some ([], c :: rest)
  | _ => none

/-- The exponent at the front, if there is one, and what follows. -/
def readExponent (s : List Char) : Option Int × List Char :=
  match s with
  | 'e' :: rest =>
    let minus := rest.head? == some '-'
    let digits := if minus || rest.head? == some '+' then rest.tail else rest
    let (ds, behind) := readDigits 10 digits
    match digitsValue? 10 ds with
    | some n => (some (if minus then -(n : Int) else n), behind)
    | none => (none, s)
  | s => (none, s)

/-- An integer of a base other than ten. -/
def readBased (negative : Bool) (base : Nat) (s : List Char) : Option (Token × List Char) := do
  let (ds, rest) := readDigits base s
  let n ← digitsValue? base ds
  if n < Nat.pow 2 64 then
    let word : Int := if n < Nat.pow 2 63 then n else (n : Int) - Nat.pow 2 64
    some (.int (if negative then -word else word), rest)
  else none

/-- A number behind its sign. An integer that does not fit a signed word is one with a
fraction. -/
def readNumber (negative : Bool) (s : List Char) : Option (Token × List Char) :=
  match s with
  | '0' :: 'x' :: rest | '0' :: 'X' :: rest => readBased negative 16 rest
  | '0' :: 'o' :: rest | '0' :: 'O' :: rest => readBased negative 8 rest
  | '0' :: 'b' :: rest | '0' :: 'B' :: rest => readBased negative 2 rest
  | _ => do
    let (whole, rest) := readDigits 10 s
    let fraction? := readFraction? rest
    let (fraction, rest) := fraction?.getD ([], rest)
    let (exponent, rest) := readExponent rest
    let n ← digitsValue? 10 (whole ++ fraction)
    let fits := if negative then n ≤ Nat.pow 2 63 else n < Nat.pow 2 63
    if fraction?.isNone && exponent.isNone && fits then
      some (.int (if negative then -(n : Int) else n), rest)
    else
      let x ← Binary64.ofDecimal negative n (exponent.getD 0 - fraction.length)
      some (.float x, rest)

/-- What is behind blanks and comments; none if a comment is not closed. Comments
between `/*` and `*/` may stand inside each other, `depth` of them being open. -/
def skipBlanks (depth : Nat) : List Char → Option (List Char)
  | [] => if depth == 0 then some [] else none
  | c :: rest =>
    match depth, c, rest with
    | d + 1, '*', '/' :: more => skipBlanks d more
    | d, '/', '*' :: more => skipBlanks (d + 1) more
    | 0, '/', '/' :: more => skipLine more
    | 0, c, rest =>
      if c == ' ' || c == '\t' || c == '\n' || c == '\r' then skipBlanks 0 rest
      else some (c :: rest)
    | d + 1, _, rest => skipBlanks (d + 1) rest
where
  /-- What is behind the line, blanks and comments. -/
  skipLine : List Char → Option (List Char)
    | [] => some []
    | c :: rest => if c == '\n' then skipBlanks 0 rest else skipLine rest

/-- Whether a word can be a name: behind underscores it goes on with a letter. -/
def isName (word : List Char) : Bool :=
  (word.dropWhile (· == '_')).head?.any Char.isAlpha

/-- Whether an operand can end with a token, so that a sign behind it stands between
two operands. -/
def Token.endsOperand : Token → Bool
  | .symbol s => s == ")" || s == "]"
  | .word w => w != "if" && w != "else"
  | _ => true

/-- The token at the front. A minus that touches the digits behind it is a part of the
number where an operand may begin. -/
def readToken (afterOperand : Bool) (s : List Char) : Option (Token × List Char) :=
  match s with
  | [] => none
  | c :: rest =>
    if isNameStart c then
      let word := s.takeWhile isNameChar
      if isName word then some (.word (String.ofList word), s.dropWhile isNameChar) else none
    else if c.isDigit then readNumber false s
    else if c == '-' && !afterOperand && rest.head?.any Char.isDigit then readNumber true rest
    else if c == '"' then
      (readQuoted '"' rest).map fun (t, r) => (.string (String.ofList t), r)
    else if c == '\'' then
      (readQuoted '\'' rest).bind fun (t, r) =>
        match t with
        | [c] => some (.char c, r)
        | _ => none
    else if c == '\x60' then
      (readBackticked rest).bind fun (t, r) =>
        if (splitLiteral? ['$', '\x7b'] t).isSome then none
        else some (.string (String.ofList t), r)
    else
      (symbols.find? fun sym => startsWith sym.toList s).map fun sym =>
        (.symbol sym, s.drop sym.length)

/-- The tokens of a text that begins behind an operand or not. -/
def tokensFrom (afterOperand : Bool) (s : List Char) : Option (List Token) :=
  match skipBlanks 0 s with
  | none => none
  | some [] => some []
  | some (c :: rest) =>
    match readToken afterOperand (c :: rest) with
    | none => none
    | some (token, behind) =>
      if behind.length < s.length then
        (tokensFrom token.endsOperand behind).map (token :: ·)
      else none
termination_by s.length

/-- The tokens of a condition. -/
def tokenize (source : String) : Option (List Token) := tokensFrom false source.toList

end HttpSuite.Condition
