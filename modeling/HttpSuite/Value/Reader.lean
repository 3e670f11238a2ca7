import HttpSuite.Text.Basic
import HttpSuite.Value.Basic

/-!
# Reading values

JSON texts, read strictly: no leading zeros, no trailing commas, no comments, no
raw controls and no lone surrogates inside texts, nothing behind the value but
blanks. A repeated name keeps its first place and its last value. Arrays and
objects may nest 127 deep.

Every step of the reader returns what is left of the text with a proof that it
is shorter, and the recursion is on that length.

Decimals are read as `scaled` says: the digits that fit a 64-bit word make an
integer, digits behind them only move the point, and the double nearest to that
integer is then multiplied or divided by a double power of ten. The two
roundings are part of the format; texts that other writers produce with up to
fifteen digits are not affected by them.
-/

namespace HttpSuite.Value.Reader

open HttpSuite.Text

/-- What is left of a text, with fewer than `n` characters. -/
abbrev Rest (n : Nat) := { r : List Char // r.length < n }

/-- The same rest under a greater bound. -/
def Rest.weaken {n m : Nat} (r : Rest n) (h : n ≤ m) : Rest m :=
  ⟨r.1, Nat.lt_of_lt_of_le r.2 h⟩

/-- The blanks of the format. -/
def isBlank (c : Char) : Bool := c == ' ' || c == '\t' || c == '\n' || c == '\r'

/-- Drops blanks at the front. -/
def skipBlanks : List Char → List Char
  | [] => []
  | c :: rest => if isBlank c then skipBlanks rest else c :: rest

theorem length_skipBlanks_le (s : List Char) : (skipBlanks s).length ≤ s.length := by
  induction s with
  | nil => simp [skipBlanks]
  | cons c rest ih =>
    simp only [skipBlanks]
    split
    · simp only [List.length_cons]; omega
    · simp

/-- The greatest integer of 64 bits. -/
private def wordMax : Nat := Nat.pow 2 64 - 1

/-- `significand * 10 ^ exponent`, with the significand rounded to a double
first and the result of each scaling rounded again. Scaling is by at most
`10 ^ 308` at a time; `none` if the number is too large. The first argument
bounds the number of scalings by what can still change a double. -/
def scaled : Nat → Binary64 → Int → Option Binary64
  | 0, x, _ => some (Binary64.zero x.negative)
  | n + 1, x, e => do
    if e.natAbs ≤ 308 then
      let power ← Binary64.ofDecimal false 1 e.natAbs
      if e ≥ 0 then x.mul power else x.div power
    else if x.isZero then some x
    else if e ≥ 0 then none
    else scaled n (← x.div (← Binary64.ofDecimal false 1 308)) (e + 308)

/-- The double of a significand and an exponent. -/
def ofParts (negative : Bool) (significand : Nat) (exponent : Int) : Option Value := do
  let x ← Binary64.round negative significand 1
  return .number (.float (← scaled 4 x exponent))

/-- The digits at the front, as many as fit a word together with `acc`; then how
many there were, how many more followed, and the rest. -/
def takeDigits (acc : Nat) (full : Bool) (taken dropped : Nat) :
    List Char → Nat × Nat × Nat × List Char
  | [] => (acc, taken, dropped, [])
  | c :: rest =>
    if c.isDigit then
      let next := acc * 10 + (c.toNat - '0'.toNat)
      if full || next > wordMax then takeDigits acc true taken (dropped + 1) rest
      else takeDigits next false (taken + 1) dropped rest
    else (acc, taken, dropped, c :: rest)

/-- An exponent part, if there is one: its value, or `none` for one that is
written wrongly. -/
def exponentPart : List Char → Option (Option Int × List Char)
  | 'e' :: rest | 'E' :: rest =>
    let (negative, rest) :=
      match rest with
      | '+' :: r => (false, r)
      | '-' :: r => (true, r)
      | r => (false, r)
    let digits := rest.takeWhile Char.isDigit
    match digitsValue? 10 digits with
    | none => none
    | some n => some (some (if negative then -(n : Int) else n), rest.dropWhile Char.isDigit)
  | s => some (none, s)

/-- A number behind its sign. The number ends where the text stops looking like
one; what follows is for the caller to judge. -/
def unsigned (negative : Bool) (s : List Char) : Option (Value × List Char) := do
  let first ← s.head?
  if !first.isDigit then none
  else
    let (whole, taken, dropped, rest) := takeDigits 0 false 0 0 s
    if first == '0' && taken + dropped > 1 then none
    else
      match rest with
      | '.' :: rest =>
        let (significand, places, more, rest) := takeDigits whole (dropped > 0) 0 0 rest
        if places + more == 0 then none
        else
          let (e, rest) ← exponentPart rest
          let exponent := (dropped : Int) - places + e.getD 0
          return (← ofParts negative significand exponent, rest)
      | _ =>
        let (e, rest) ← exponentPart rest
        match e with
        | some e => return (← ofParts negative whole ((dropped : Int) + e), rest)
        | none =>
          if dropped > 0 then return (← ofParts negative whole dropped, rest)
          else if !negative then return (.number (.int whole), rest)
          else if whole == 0 || whole > Nat.pow 2 63 then return (← ofParts true whole 0, rest)
          else return (.number (.int (-(whole : Int))), rest)

/-- Keeps a result whose rest is shorter than `s`. -/
def shorter {α : Type} (s : List Char) : Option (α × List Char) → Option (α × Rest s.length)
  | some (a, r) => if h : r.length < s.length then some (a, ⟨r, h⟩) else none
  | none => none

/-- A number. -/
def number (s : List Char) : Option (Value × Rest s.length) :=
  shorter s <|
    match s with
    | '-' :: rest => unsigned true rest
    | _ => unsigned false s

/-- A text up to and with its closing quote; the characters read so far are
given in reverse. A code point beyond 16 bits is written as a pair of escapes,
and half of such a pair is an error. -/
def textBody (acc : List Char) (s : List Char) : Option (String × List Char) :=
  match s with
  | [] => none
  | '"' :: rest => some (String.ofList acc.reverse, rest)
  | '\\' :: 'u' :: a :: b :: c :: d :: rest =>
    match digitsValue? 16 [a, b, c, d] with
    | none => none
    | some n =>
      if 0xDC00 ≤ n ∧ n ≤ 0xDFFF then none
      else if 0xD800 ≤ n ∧ n ≤ 0xDBFF then
        match rest with
        | '\\' :: 'u' :: e :: f :: g :: h :: rest =>
          match digitsValue? 16 [e, f, g, h] with
          | some m =>
            if 0xDC00 ≤ m ∧ m ≤ 0xDFFF then
              textBody (Char.ofNat (0x10000 + (n - 0xD800) * 0x400 + (m - 0xDC00)) :: acc) rest
            else none
          | none => none
        | _ => none
      else textBody (Char.ofNat n :: acc) rest
  | '\\' :: c :: rest =>
    match c with
    | '"' => textBody ('"' :: acc) rest
    | '\\' => textBody ('\\' :: acc) rest
    | '/' => textBody ('/' :: acc) rest
    | 'b' => textBody ('\x08' :: acc) rest
    | 'f' => textBody ('\x0c' :: acc) rest
    | 'n' => textBody ('\n' :: acc) rest
    | 'r' => textBody ('\r' :: acc) rest
    | 't' => textBody ('\t' :: acc) rest
    | _ => none
  | c :: rest => if c == '\\' || c.toNat < 32 then none else textBody (c :: acc) rest

/-- A text behind its opening quote. -/
def text (s : List Char) : Option (String × Rest s.length) := shorter s (textBody [] s)

/-- A word of the format. -/
def word (lit : String) (v : Value) (s : List Char) : Option (Value × Rest s.length) :=
  shorter s ((stripLiteral? lit.toList s).map fun r => (v, r))

/-- The next character behind blanks, and what follows it. -/
def next (s : List Char) : Option (Char × Rest s.length) :=
  match h : skipBlanks s with
  | [] => none
  | c :: rest => some (c, ⟨rest, by
      have := length_skipBlanks_le s
      rw [h, List.length_cons] at this
      omega⟩)

mutual

/-- A value, which may nest `depth` deep. Blanks before it are already gone. -/
def value (depth : Nat) (s : List Char) : Option (Value × Rest s.length) :=
  match s with
  | [] => none
  | c :: rest =>
    if c == '"' then
      match text rest with
      | some (t, r) => some (.string t, r.weaken (by simp))
      | none => none
    else if c == '[' then
      if depth == 0 then none
      else
        match arrayBody (depth - 1) rest with
        | some (vs, r) => some (.array vs, r.weaken (by simp))
        | none => none
    else if c == '\x7b' then
      if depth == 0 then none
      else
        match objectBody (depth - 1) rest with
        | some (fs, r) => some (.object (Entries.ofPairs fs), r.weaken (by simp))
        | none => none
    else if c == 'n' then word "null" .null (c :: rest)
    else if c == 't' then word "true" (.bool true) (c :: rest)
    else if c == 'f' then word "false" (.bool false) (c :: rest)
    else number (c :: rest)
termination_by 4 * s.length

/-- An array behind its opening bracket. -/
def arrayBody (depth : Nat) (s : List Char) : Option (List Value × Rest s.length) :=
  match next s with
  | none => none
  | some (c, r) => if c == ']' then some ([], r) else items depth s
termination_by 4 * s.length + 3

/-- The items of an array up to and with its closing bracket. -/
def items (depth : Nat) (s : List Char) : Option (List Value × Rest s.length) :=
  have hs := length_skipBlanks_le s
  match value depth (skipBlanks s) with
  | none => none
  | some (v, ⟨r, hr⟩) =>
    match next r with
    | none => none
    | some (c, ⟨rest, hrest⟩) =>
      if c == ']' then some ([v], ⟨rest, by omega⟩)
      else if c == ',' then
        match items depth rest with
        | some (vs, q) => some (v :: vs, q.weaken (by omega))
        | none => none
      else none
termination_by 4 * s.length + 2

/-- An object behind its opening brace. -/
def objectBody (depth : Nat) (s : List Char) :
    Option (List (String × Value) × Rest s.length) :=
  match next s with
  | none => none
  | some (c, r) => if c == '\x7d' then some ([], r) else fields depth s
termination_by 4 * s.length + 3

/-- The fields of an object up to and with its closing brace. -/
def fields (depth : Nat) (s : List Char) : Option (List (String × Value) × Rest s.length) :=
  match next s with
  | none => none
  | some (quote, ⟨afterQuote, hq⟩) =>
    if quote != '"' then none
    else
      match text afterQuote with
      | none => none
      | some (name, ⟨afterName, hn⟩) =>
        match next afterName with
        | none => none
        | some (colon, ⟨afterColon, hc⟩) =>
          have hb := length_skipBlanks_le afterColon
          if colon != ':' then none
          else
            match value depth (skipBlanks afterColon) with
            | none => none
            | some (v, ⟨afterValue, hv⟩) =>
              match next afterValue with
              | none => none
              | some (c, ⟨rest, hrest⟩) =>
                if c == '\x7d' then some ([(name, v)], ⟨rest, by omega⟩)
                else if c == ',' then
                  match fields depth rest with
                  | some (fs, q) => some ((name, v) :: fs, q.weaken (by omega))
                  | none => none
                else none
termination_by 4 * s.length + 2

end

/-- How deep arrays and objects may nest. -/
def maxDepth : Nat := 127

end HttpSuite.Value.Reader

namespace HttpSuite.Value

/-- The value of a JSON text. -/
def ofJson? (text : String) : Option Value :=
  match Reader.value Reader.maxDepth (Reader.skipBlanks text.toList) with
  | some (v, rest) => if (Reader.skipBlanks rest.1).isEmpty then some v else none
  | none => none

end HttpSuite.Value
