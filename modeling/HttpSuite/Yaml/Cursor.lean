import HttpSuite.Text.Basic

/-!
# Places in a YAML text

YAML is read by lines and columns: how far a line is indented decides what it
belongs to. A cursor is what is left of a text together with the place reached.
-/

namespace HttpSuite.Yaml

/-- A place in a text. -/
structure Cursor where
  /-- What is left. -/
  rest : List Char
  /-- How many characters came before. -/
  index : Nat
  /-- How many line breaks came before. -/
  line : Nat
  /-- How many characters of the line came before. -/
  column : Nat
  deriving Inhabited

/-- Line feed, carriage return, and the line and paragraph breaks of Unicode. -/
def isBreak (c : Char) : Bool :=
  c == '\n' || c == '\r' || c.toNat == 0x85 || c.toNat == 0x2028 || c.toNat == 0x2029

/-- Space and tab. -/
def isBlank (c : Char) : Bool := c == ' ' || c == '\t'

/-- What ends a word: a blank, a break or the end of the text. -/
def endsWord : Option Char → Bool
  | none => true
  | some c => isBlank c || isBreak c

/-- ASCII letters, digits, the hyphen and the underscore. -/
def isNameChar (c : Char) : Bool := c.isAlphanum || c == '_' || c == '-'

/-- What a line break counts as inside a text: a line feed, or itself if it is one
of the two separators of Unicode. -/
def breakText (c : Char) : Char := if c.toNat == 0x2028 || c.toNat == 0x2029 then c else '\n'

namespace Cursor

/-- The beginning of a text. -/
def ofText (text : List Char) : Cursor := ⟨text, 0, 0, 0⟩

/-- The next character. -/
def head? (c : Cursor) : Option Char := c.rest.head?

/-- The character behind `n` others. -/
def get? (c : Cursor) (n : Nat) : Option Char := c.rest[n]?

/-- Behind the next character, which is no line break. -/
def skip (c : Cursor) : Cursor := ⟨c.rest.tail, c.index + 1, c.line, c.column + 1⟩

/-- Behind `n` characters of the line. -/
def skipMany (c : Cursor) (n : Nat) : Cursor :=
  ⟨c.rest.drop n, c.index + n, c.line, c.column + n⟩

/-- Behind the next character, which is a line break; a carriage return and a line
feed are one. -/
def skipLine (c : Cursor) : Cursor :=
  match c.rest with
  | '\r' :: '\n' :: rest => ⟨rest, c.index + 2, c.line + 1, 0⟩
  | rest => ⟨rest.tail, c.index + 1, c.line + 1, 0⟩

/-- The characters of the line that satisfy `p`, and the place behind them. -/
def takeWhile (p : Char → Bool) (c : Cursor) : List Char × Cursor :=
  let taken := c.rest.takeWhile p
  (taken, c.skipMany taken.length)

/-- Whether the line begins with three hyphens or three points that stand alone. -/
def atMarker (c : Cursor) : Bool :=
  c.column == 0
    && (Text.startsWith ['-', '-', '-'] c.rest || Text.startsWith ['.', '.', '.'] c.rest)
    && endsWord (c.get? 3)

theorem length_skip_lt {c : Cursor} {ch : Char} {rest : List Char} (h : c.rest = ch :: rest) :
    c.skip.rest.length < c.rest.length := by
  simp [skip, h]

theorem length_skipLine_lt {c : Cursor} {ch : Char} {rest : List Char} (h : c.rest = ch :: rest) :
    c.skipLine.rest.length < c.rest.length := by
  unfold skipLine
  split
  · next h' =>
    rw [h']
    simp only [List.length_cons]
    omega
  · simp [h]

theorem length_skipMany_le (c : Cursor) (n : Nat) :
    (c.skipMany n).rest.length ≤ c.rest.length := by
  simp [skipMany]

end Cursor

end HttpSuite.Yaml
