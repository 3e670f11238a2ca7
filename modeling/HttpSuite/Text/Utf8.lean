import HttpSuite.Text.Basic

/-!
# UTF-8

Text as bytes and back. Bytes that are no text are read with a replacement
character for every part that could have begun a character and does not become
one, as long as such a part can be.
-/

namespace HttpSuite.Text

/-- The bytes of a text. -/
def utf8 (s : List Char) : List UInt8 := s.flatMap String.utf8EncodeChar

/-- Stands for bytes that are no text. -/
def replacementChar : Char := Char.ofNat 0xFFFD

/-- Whether a byte continues a character: its top bits are `10`. -/
def isContinuation (b : UInt8) : Bool := 0x80 ≤ b && b ≤ 0xBF

/-- Whether a byte may follow the first one of a character of three or four bytes. -/
def isSecondByte (first second : UInt8) : Bool :=
  if first == 0xE0 then 0xA0 ≤ second && second ≤ 0xBF
  else if first == 0xED then 0x80 ≤ second && second ≤ 0x9F
  else if first == 0xF0 then 0x90 ≤ second && second ≤ 0xBF
  else if first == 0xF4 then 0x80 ≤ second && second ≤ 0x8F
  else isContinuation second

/-- How many bytes follow the first one of a character; none if it is no first one. -/
def bytesBehind? (first : UInt8) : Option Nat :=
  if first < 0x80 then some 0
  else if 0xC2 ≤ first && first ≤ 0xDF then some 1
  else if 0xE0 ≤ first && first ≤ 0xEF then some 2
  else if 0xF0 ≤ first && first ≤ 0xF4 then some 3
  else none

/-- The value of the payload bits of bytes behind the first one, put behind those of
`acc`. -/
def payload (acc : Nat) (bytes : List UInt8) : Nat :=
  bytes.foldl (fun n b => n * 64 + b.toNat % 64) acc

/-- The character that begins with a byte, if there is one, and how many bytes of
`rest` belong to it or to the part that stands in its place. -/
def decodeFirst (first : UInt8) (rest : List UInt8) : Option Char × Nat :=
  match bytesBehind? first with
  | none => (none, 0)
  | some 0 => (some (Char.ofNat first.toNat), 0)
  | some n =>
    let fits := (rest.take n).zipIdx.takeWhile fun e =>
      if e.2 == 0 then isSecondByte first e.1 else isContinuation e.1
    if fits.length == n then
      let head := first.toNat % (if n == 1 then 32 else if n == 2 then 16 else 8)
      (some (Char.ofNat (payload head (rest.take n))), n)
    else (none, fits.length)

/-- The text of bytes, with replacement characters. -/
def decodeLossy (bytes : List UInt8) : List Char :=
  match bytes with
  | [] => []
  | b :: rest =>
    let (c, used) := decodeFirst b rest
    c.getD replacementChar :: decodeLossy (rest.drop used)
termination_by bytes.length
decreasing_by (simp only [List.length_drop, List.length_cons]; omega)

/-- The text of bytes, if they are one. -/
def decode? (bytes : List UInt8) : Option (List Char) :=
  match bytes with
  | [] => some []
  | b :: rest =>
    match decodeFirst b rest with
    | (some c, used) => (decode? (rest.drop used)).map (c :: ·)
    | (none, _) => none
termination_by bytes.length
decreasing_by (simp only [List.length_drop, List.length_cons]; omega)

end HttpSuite.Text
