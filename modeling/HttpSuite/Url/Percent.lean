import HttpSuite.Text.Utf8

/-!
# Percent-encoding

A byte that cannot stand in a part of an address is written as a percent sign and
two hexadecimal digits. Which bytes these are depends on the part; controls and
everything beyond ASCII always are.
-/

namespace HttpSuite.Url

/-- A byte behind a percent sign. -/
def percentByte (b : UInt8) : List Char :=
  ['%', (Text.hexDigit (b.toNat / 16)).toUpper, (Text.hexDigit (b.toNat % 16)).toUpper]

/-- Writes one character. -/
def percentChar (special : List Char) (c : Char) : List Char :=
  if c.toNat < 0x20 || c.toNat ≥ 0x7F || special.contains c then
    (String.utf8EncodeChar c).flatMap percentByte
  else [c]

/-- Writes a text in which the characters of `special` cannot stand. -/
def percentEncode (special s : List Char) : List Char := s.flatMap (percentChar special)

/-- What cannot stand in a fragment. -/
def fragmentSpecial : List Char := [' ', '"', '<', '>', '\x60']

/-- What cannot stand in a path. -/
def pathSpecial : List Char := fragmentSpecial ++ ['#', '?', '\x7b', '\x7d']

/-- What cannot stand in a user name or password. -/
def userSpecial : List Char :=
  pathSpecial ++ ['/', ':', ';', '=', '@', '[', '\\', ']', '^', '|']

/-- What cannot stand in a query. -/
def querySpecial : List Char := [' ', '"', '#', '<', '>']

/-- The bytes of a text in which bytes may be written behind percent signs. -/
def percentDecode (s : List Char) : List UInt8 :=
  match s with
  | [] => []
  | '%' :: a :: b :: rest =>
    match Text.hexValue? a, Text.hexValue? b with
    | some x, some y => UInt8.ofNat (16 * x + y) :: percentDecode rest
    | _, _ => (0x25 : UInt8) :: percentDecode (a :: b :: rest)
  | c :: rest => String.utf8EncodeChar c ++ percentDecode rest
termination_by s.length

end HttpSuite.Url
