/-!
# Characters and pieces of text

The small operations on characters and on lists of characters that every reader
in this library is built from. Text is taken apart as `List Char`, so that a
reader is a recursion on what is left of its input, and put together as
`String`.
-/

namespace HttpSuite.Text

/-- The white space of Unicode: the ASCII blanks from tab to carriage return,
the space, and the spaces and separators beyond ASCII. -/
def isWhitespace (c : Char) : Bool :=
  let n := c.toNat
  (9 ≤ n && n ≤ 13) || n == 0x20 || n == 0x85 || n == 0xA0 || n == 0x1680
    || (0x2000 ≤ n && n ≤ 0x200A) || n == 0x2028 || n == 0x2029 || n == 0x202F
    || n == 0x205F || n == 0x3000

/-- The value of a hexadecimal digit. -/
def hexValue? (c : Char) : Option Nat :=
  if '0' ≤ c ∧ c ≤ '9' then some (c.toNat - '0'.toNat)
  else if 'a' ≤ c ∧ c ≤ 'f' then some (c.toNat - 'a'.toNat + 10)
  else if 'A' ≤ c ∧ c ≤ 'F' then some (c.toNat - 'A'.toNat + 10)
  else none

/-- The lower-case hexadecimal digit of a value below sixteen. -/
def hexDigit (n : Nat) : Char :=
  if n < 10 then Char.ofNat ('0'.toNat + n) else Char.ofNat ('a'.toNat + (n - 10))

/-- The hexadecimal digits of a number, most significant first. -/
def hexDigits (n : Nat) : List Char :=
  if n < 16 then [hexDigit n] else hexDigits (n / 16) ++ [hexDigit (n % 16)]
termination_by n

/-- The number that a list of digits of some base writes, if all are digits of
it and there is at least one. -/
def digitsValue? (base : Nat) (ds : List Char) : Option Nat :=
  if ds.isEmpty then none
  else ds.foldl (fun acc d => do
    let n ← acc
    let v ← hexValue? d
    if v < base then some (n * base + v) else none) (some 0)

/-- The number below a bound that decimal digits write, with a plus sign in front
or without. -/
def natBelow? (bound : Nat) (ds : List Char) : Option Nat :=
  let ds :=
    match ds with
    | '+' :: rest => rest
    | ds => ds
  (digitsValue? 10 ds).filter (· < bound)

/-- Drops the characters at the front that satisfy `p`. -/
def trimStartBy (p : Char → Bool) (s : List Char) : List Char := s.dropWhile p

/-- Drops the characters at the end that satisfy `p`. -/
def trimEndBy (p : Char → Bool) : List Char → List Char
  | [] => []
  | c :: rest =>
    match trimEndBy p rest with
    | [] => if p c then [] else [c]
    | kept => c :: kept

/-- Drops the characters at both ends that satisfy `p`. -/
def trimBy (p : Char → Bool) (s : List Char) : List Char :=
  trimEndBy p (trimStartBy p s)

/-- `trimBy` of white space, on strings. -/
def trim (s : String) : String := String.ofList (trimBy isWhitespace s.toList)

/-- The pieces between the characters that satisfy `p`; there is one piece more
than there are such characters. -/
def splitBy (p : Char → Bool) : List Char → List (List Char)
  | [] => [[]]
  | c :: rest =>
    match splitBy p rest with
    | [] => [[]]
    | piece :: pieces => if p c then [] :: piece :: pieces else (c :: piece) :: pieces

/-- What comes before and after the first occurrence of `sep`. -/
def splitOnce? (sep : Char) : List Char → Option (List Char × List Char)
  | [] => none
  | c :: rest =>
    if c == sep then some ([], rest)
    else (splitOnce? sep rest).map fun (a, b) => (c :: a, b)

/-- The rest of `s` behind the literal `lit`, if `s` begins with it. -/
def stripLiteral? : (lit : List Char) → List Char → Option (List Char)
  | [], s => some s
  | _ :: _, [] => none
  | l :: ls, c :: cs => if l == c then stripLiteral? ls cs else none

/-- Whether `s` begins with the literal `lit`. -/
def startsWith (lit s : List Char) : Bool := (stripLiteral? lit s).isSome

/-- What comes before and after the first occurrence of a literal. -/
def splitLiteral? (lit : List Char) : List Char → Option (List Char × List Char)
  | [] => (stripLiteral? lit []).map fun rest => ([], rest)
  | c :: rest =>
    match stripLiteral? lit (c :: rest) with
    | some after => some ([], after)
    | none => (splitLiteral? lit rest).map fun (a, b) => (c :: a, b)

/-- How often a non-empty literal occurs, occurrences not overlapping. The
second argument counts the characters still covered by the last one. -/
def countLiteral (lit : List Char) (covered : Nat) : List Char → Nat
  | [] => 0
  | c :: rest =>
    match covered with
    | k + 1 => countLiteral lit k rest
    | 0 =>
      if startsWith lit (c :: rest) then 1 + countLiteral lit (lit.length - 1) rest
      else countLiteral lit 0 rest

/-- Replaces the first occurrence of `lit`, if there is one. -/
def replaceFirst (lit new s : String) : String :=
  match splitLiteral? lit.toList s.toList with
  | some (a, b) => String.ofList (a ++ new.toList ++ b)
  | none => s

/-- Joins texts with a separator between every two of them. -/
def joinWith (sep : String) : List String → String
  | [] => ""
  | [s] => s
  | s :: rest => s ++ sep ++ joinWith sep rest

/-- The lines of a text: pieces ended by a line feed, a carriage return before
it not counted, and no empty piece behind the last one. -/
def lines (s : String) : List String :=
  let pieces := splitBy (· == '\n') s.toList
  let kept := if pieces.getLast? == some [] then pieces.dropLast else pieces
  kept.map fun piece =>
    String.ofList (if piece.getLast? == some '\r' then piece.dropLast else piece)

/-- ASCII letters to lower case, all else unchanged. -/
def asciiLower (s : String) : String := s.map Char.toLower

/-- Equal but for the case of ASCII letters. -/
def eqIgnoringCase (a b : String) : Bool := asciiLower a == asciiLower b

end HttpSuite.Text
