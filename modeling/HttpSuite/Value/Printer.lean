import HttpSuite.Text.Basic
import HttpSuite.Value.Basic

/-!
# The written form of values

The compact JSON text of a value: no blanks, fields in their order. Texts escape
the quote, the backslash and the controls and nothing else. A double is written
with the fewest digits that read back and always shows that it is one, by a
fraction or by an exponent.
-/

namespace HttpSuite

/-- How doubles are laid out. -/
structure FloatFormat where
  /-- Least power of ten of the leading digit that is written in place. -/
  leastInPlace : Int
  /-- First power of ten of the leading digit that takes an exponent. -/
  firstWithExponent : Int

/-- Numbers from a hundred-thousandth up to ten quadrillions are written in
place, all others with an exponent and its sign. -/
def FloatFormat.json : FloatFormat := ⟨-5, 16⟩

/-- The decimal digits of a number. -/
def decimalDigits (n : Nat) : List Char := (toString n).toList

/-- A double as text. -/
def Binary64.render (format : FloatFormat) (x : Binary64) : String :=
  let d := Shortest.ofBinary64 x
  let digits := decimalDigits d.digits
  let leading : Int := d.exponent + (digits.length : Int) - 1
  let sign := if x.negative then "-" else ""
  if x.isZero then sign ++ "0.0"
  else if format.leastInPlace ≤ leading && leading < format.firstWithExponent then
    if leading < 0 then
      sign ++ "0." ++ String.ofList (List.replicate (-leading - 1).toNat '0' ++ digits)
    else
      let whole := (leading + 1).toNat
      let padded := digits ++ List.replicate (whole - digits.length) '0'
      let fraction := padded.drop whole
      sign ++ String.ofList (padded.take whole) ++ "."
        ++ (if fraction.isEmpty then "0" else String.ofList fraction)
  else
    let mantissa :=
      match digits with
      | [] => "0"
      | [d] => String.ofList [d]
      | d :: rest => String.ofList (d :: '.' :: rest)
    sign ++ mantissa ++ "e" ++ (if leading < 0 then "-" else "+") ++ toString leading.natAbs

/-- A number as text. -/
def Number.render : Number → String
  | .int n => toString n
  | .float x => x.render FloatFormat.json

namespace Value

/-- The escape of one character inside a text. -/
def escapeChar (c : Char) : List Char :=
  if c == '"' then ['\\', '"']
  else if c == '\\' then ['\\', '\\']
  else if c.toNat == 8 then ['\\', 'b']
  else if c.toNat == 9 then ['\\', 't']
  else if c.toNat == 10 then ['\\', 'n']
  else if c.toNat == 12 then ['\\', 'f']
  else if c.toNat == 13 then ['\\', 'r']
  else if c.toNat < 32 then
    ['\\', 'u', '0', '0', Text.hexDigit (c.toNat / 16), Text.hexDigit (c.toNat % 16)]
  else [c]

/-- A text between quotes. -/
def renderText (s : String) : String :=
  String.ofList ('"' :: s.toList.flatMap escapeChar ++ ['"'])

mutual

/-- The compact JSON text of a value. -/
def render : Value → String
  | null => "null"
  | bool b => if b then "true" else "false"
  | number n => n.render
  | string s => renderText s
  | array [] => "[]"
  | array (v :: rest) => "[" ++ render v ++ renderItems rest
  | object [] => "\x7b\x7d"
  | object ((k, v) :: rest) => "\x7b" ++ renderText k ++ ":" ++ render v ++ renderFields rest

/-- The items behind the first one, and the closing bracket. -/
def renderItems : List Value → String
  | [] => "]"
  | v :: rest => "," ++ render v ++ renderItems rest

/-- The fields behind the first one, and the closing brace. -/
def renderFields : List (String × Value) → String
  | [] => "\x7d"
  | (k, v) :: rest => "," ++ renderText k ++ ":" ++ render v ++ renderFields rest

end

/-- A value as it appears inside a text: texts as they are, all else in its
written form. -/
def display : Value → String
  | string s => s
  | v => v.render

end Value

end HttpSuite
