import HttpSuite.Text.Category

/-!
# Quoted text

How texts and characters are shown inside messages: between quotes, with the
quote itself, the backslash and everything invisible escaped. The escape of an
invisible character is its code point in hexadecimal between braces. A
character that extends the one before it is escaped too, because between quotes
it would change how the quote looks.
-/

namespace HttpSuite.Text

/-- The escape of a character by its code point. -/
private def codePointEscape (c : Char) : List Char :=
  ['\\', 'u', '\x7b'] ++ hexDigits c.toNat ++ ['\x7d']

/-- One character between the given quotes. -/
def quotedChar (quote c : Char) : List Char :=
  if c == quote || c == '\\' then ['\\', c]
  else if c == '\n' then ['\\', 'n']
  else if c == '\t' then ['\\', 't']
  else if c == '\r' then ['\\', 'r']
  else if c.toNat == 0 then ['\\', '0']
  else if isExtending c || !isPrintable c then codePointEscape c
  else [c]

/-- A text between double quotes. -/
def quoted (s : String) : String :=
  String.ofList ('"' :: s.toList.flatMap (quotedChar '"') ++ ['"'])

/-- A character between single quotes. -/
def quotedLetter (c : Char) : String :=
  String.ofList ('\'' :: quotedChar '\'' c ++ ['\''])

/-- A list of texts, each between double quotes. -/
def quotedList (ss : List String) : String :=
  "[" ++ joinWith ", " (ss.map quoted) ++ "]"

end HttpSuite.Text
