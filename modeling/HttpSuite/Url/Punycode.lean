import HttpSuite.Text.Basic

/-!
# Punycode

How a label beyond ASCII is written in ASCII. Its ASCII characters come first;
behind a hyphen the others follow in the order of their code points, each by how
far one has to go from the one before, counted through all places where it could
stand. The numbers have digits in base 36, and the threshold at which a number
ends adapts to those before it.
-/

namespace HttpSuite.Url.Punycode

/-- The digit of a value below 36. -/
def digit (n : Nat) : Char :=
  if n < 26 then Char.ofNat ('a'.toNat + n) else Char.ofNat ('0'.toNat + (n - 26))

/-- The value of a digit. -/
def digitValue? (c : Char) : Option Nat :=
  let c := c.toLower
  if 'a' ≤ c ∧ c ≤ 'z' then some (c.toNat - 'a'.toNat)
  else if c.isDigit then some (c.toNat - '0'.toNat + 26)
  else none

/-- The threshold of the digit at a place, which is a multiple of 36. -/
def threshold (place bias : Nat) : Nat := min 26 (max 1 (place - bias))

/-- Divides by 35 until a number is small, and counts the base for each time. -/
def adaptLoop (delta k : Nat) : Nat :=
  if delta > 455 then adaptLoop (delta / 35) (k + 36) else k + 36 * delta / (delta + 38)
termination_by delta

/-- The bias behind a number. -/
def adapt (delta count : Nat) (first : Bool) : Nat :=
  let delta := delta / (if first then 700 else 2)
  adaptLoop (delta + delta / count) 0

/-- The digits of a number from a place on. -/
def encodeNumber (n place bias : Nat) : List Char :=
  let t := threshold place bias
  if n < t then [digit n]
  else
    let q := (n - t) / (36 - t)
    if q < n then digit (t + (n - t) % (36 - t)) :: encodeNumber q (place + 36) bias
    else []
termination_by n

/-- Where the writing of a label stands. -/
structure Writing where
  /-- What has been written. -/
  output : List Char
  /-- The distance gone since the last number. -/
  delta : Nat
  /-- The bias. -/
  bias : Nat
  /-- How many characters have been written. -/
  handled : Nat

/-- Writes the occurrences of one code point. -/
def writeCode (basic code : Nat) (w : Writing) (c : Char) : Writing :=
  if c.toNat < code then { w with delta := w.delta + 1 }
  else if c.toNat == code then
    ⟨w.output ++ encodeNumber w.delta 36 w.bias, 0,
      adapt w.delta (w.handled + 1) (w.handled == basic), w.handled + 1⟩
  else w

/-- Writes the code points in ascending order, the one before them being `last`. -/
def writeCodes (label : List Char) (basic : Nat) : List Nat → Nat → Writing → Writing
  | [], _, w => w
  | code :: rest, last, w =>
    let w := { w with delta := w.delta + (code - last) * (w.handled + 1) }
    let w := label.foldl (writeCode basic code) w
    writeCodes label basic rest (code + 1) { w with delta := w.delta + 1 }

/-- Writes a label. -/
def encode (label : List Char) : List Char :=
  let ascii := label.filter fun c => c.toNat < 0x80
  let codes := (label.map Char.toNat).filter (· ≥ 0x80)
  let codes := (codes.mergeSort (· ≤ ·)).eraseDups
  let start := if ascii.isEmpty then [] else ascii ++ ['-']
  (writeCodes label ascii.length codes 0x80 ⟨start, 0, 72, ascii.length⟩).output

/-- Reads a number from a place on: how far it leads, and what follows. -/
def decodeNumber (i weight place bias : Nat) : List Char → Option (Nat × List Char)
  | [] => none
  | c :: rest =>
    match digitValue? c with
    | none => none
    | some d =>
      let i := i + d * weight
      let t := threshold place bias
      if i ≥ Nat.pow 2 32 then none
      else if d < t then some (i, rest)
      else decodeNumber i (weight * (36 - t)) (place + 36) bias rest

/-- Reads the numbers behind the hyphen. -/
def decodeNumbers (output : List Char) (code i bias : Nat) (s : List Char) : Option (List Char) :=
  if s.isEmpty then some output
  else
    match decodeNumber i 1 36 bias s with
    | none => none
    | some (next, rest) =>
      let count := output.length + 1
      let code := code + next / count
      let place := next % count
      if !Nat.isValidChar code then none
      else if rest.length < s.length then
        decodeNumbers (output.take place ++ Char.ofNat code :: output.drop place) code (place + 1)
          (adapt (next - i) count (i == 0)) rest
      else none
termination_by s.length

/-- What comes before and after the last hyphen. -/
def splitLastHyphen (s : List Char) : List Char × List Char :=
  let behind := (s.reverse.takeWhile (· != '-')).reverse
  let before := s.take (s.length - behind.length)
  if before.isEmpty then ([], s) else (before.dropLast, behind)

/-- Reads a label. -/
def decode? (s : List Char) : Option (List Char) :=
  let (ascii, numbers) := splitLastHyphen s
  if ascii.any fun c => c.toNat ≥ 0x80 then none else decodeNumbers ascii 0x80 0 72 numbers

end HttpSuite.Url.Punycode
