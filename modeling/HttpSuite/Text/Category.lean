import HttpSuite.Text.CategoryTable

/-!
# Classes of characters

Which characters are letters, digits, printable and so on, by the general
category of Unicode. ASCII characters and white space are decided without the
tables: the first because nearly all text is ASCII, the second because that
makes it visible that no blank is a letter or a digit.
-/

namespace HttpSuite.Text

/-- The two-letter general category of a character. -/
def category (c : Char) : String :=
  match Runs.find? Prod.fst CategoryTable.categories c.toNat with
  | some (_, label) => label
  | none => "Cn"

/-- Whether the category is one of the listed ones; a single letter stands for
all categories that begin with it. -/
def inCategory (labels : List String) (c : Char) : Bool :=
  let label := category c
  labels.any fun l => l == label || (l.length == 1 && l.toList == label.toList.take 1)

/-- Letters, letter-like numbers, and the marks that count as letters. -/
def isAlphabetic (c : Char) : Bool :=
  if c.toNat < 128 then c.isAlpha
  else if isWhitespace c then false
  else inCategory ["L", "Nl"] c || Runs.contains CategoryTable.otherAlphabetic c.toNat

/-- Numbers of every kind: digits, letter-like numbers, fractions and so on. -/
def isNumeric (c : Char) : Bool :=
  if c.toNat < 128 then c.isDigit
  else if isWhitespace c then false
  else inCategory ["N"] c

/-- Letters and numbers. -/
def isAlphanumeric (c : Char) : Bool := isAlphabetic c || isNumeric c

/-- The characters of words: letters, marks, decimal digits, connectors, and
the two joiners. -/
def isWordChar (c : Char) : Bool :=
  if c.toNat < 128 then c.isAlphanum || c == '_'
  else isAlphabetic c || inCategory ["M", "Nd", "Pc"] c || c.toNat == 0x200C || c.toNat == 0x200D

/-- Characters that extend the one before them instead of standing alone. -/
def isExtending (c : Char) : Bool :=
  c.toNat ≥ 128
    && (inCategory ["Mn", "Me"] c || Runs.contains CategoryTable.otherExtend c.toNat)

/-- Characters that leave a visible trace: all but controls, formats,
surrogates, private and unassigned code points, and separators; of those only
the space is printable. -/
def isPrintable (c : Char) : Bool :=
  if c.toNat < 128 then 32 ≤ c.toNat && c.toNat < 127 else !inCategory ["C", "Z"] c

end HttpSuite.Text
