import HttpSuite.Text.Basic

/-!
# Lengths of time

A length of time is a number of nanoseconds. It is written as numbers with units,
as in `1m 30s`; a number may have a fraction, and blanks may stand anywhere but
inside a unit. What is written back names every unit at most once, the largest
first. A year has 365.25 days and a month 30.44.
-/

namespace HttpSuite

/-- A length of time. -/
structure Duration where
  /-- How many nanoseconds it has. -/
  nanos : Nat
  deriving DecidableEq, Repr, Inhabited

namespace Duration

/-- No time. -/
def zero : Duration := ⟨0⟩

/-- So many milliseconds. -/
def ofMillis (n : Nat) : Duration := ⟨n * 1000000⟩

/-- The nanoseconds of a second. -/
def second : Nat := 1000000000

/-- The seconds of a day. -/
def day : Nat := 86400

/-- The seconds of a month. -/
def month : Nat := 2630016

/-- The seconds of a year. -/
def year : Nat := 31557600

/-- A unit of time. -/
inductive Unit where
  /-- A number of nanoseconds that divides a second. -/
  | part (nanos : Nat)
  /-- A second or minute. -/
  | short (seconds : Nat)
  /-- An hour or more. -/
  | long (seconds : Nat)
  deriving DecidableEq, Repr

/-- The unit of a name. -/
def unit? (name : String) : Option Unit :=
  if ["nanos", "nsec", "ns"].contains name then some (.part 1)
  else if ["usec", "us", "µs"].contains name then some (.part 1000)
  else if ["millis", "msec", "ms"].contains name then some (.part 1000000)
  else if ["seconds", "second", "secs", "sec", "s"].contains name then some (.short 1)
  else if ["minutes", "minute", "min", "mins", "m"].contains name then some (.short 60)
  else if ["hours", "hour", "hrs", "hr", "h"].contains name then some (.long 3600)
  else if ["days", "day", "d"].contains name then some (.long day)
  else if ["weeks", "week", "wks", "wk", "w"].contains name then some (.long (7 * day))
  else if ["months", "month", "M"].contains name then some (.long month)
  else if ["years", "year", "yrs", "yr", "y"].contains name then some (.long year)
  else none

/-- The bound of a 64-bit word. -/
def wordBound : Nat := Nat.pow 2 64

/-- A number if it fits a word. -/
def word? (n : Nat) : Option Nat := if n < wordBound then some n else none

/-- Adds seconds and nanoseconds, if words can hold the sums. -/
def add? (total : Nat) (seconds nanos : Nat) : Option Nat := do
  let _ ← word? (total % second + nanos)
  let sum := total + seconds * second + nanos
  let _ ← word? (sum / second)
  return sum

/-- Adds a number of units: the whole part, and then the fraction, of which units
of an hour and more count only whole seconds. -/
def addUnits? (total n : Nat) (fraction : Option (Nat × Nat)) (u : Unit) : Option Nat := do
  let total ←
    match u with
    | .part nanos => add? total 0 (← word? (n * nanos))
    | .short seconds | .long seconds => add? total (← word? (n * seconds)) 0
  match fraction, u with
  | none, _ => some total
  | some (num, den), .part nanos => add? total 0 ((← word? (num * nanos)) / den)
  | some (num, den), .short seconds => add? total 0 ((← word? (num * (seconds * second))) / den)
  | some (num, den), .long seconds => add? total ((← word? (num * seconds)) / den) 0

/-- Letters of which units are made. -/
def isUnitChar (c : Char) : Bool := c.isAlpha || c == 'µ'

/-- Reads the digits of a number behind `n`, up to a letter, a point or the end. -/
def readWhole (n : Nat) : List Char → Option (Nat × List Char)
  | [] => some (n, [])
  | c :: rest =>
    if c.isDigit then do readWhole (← word? (n * 10 + (c.toNat - '0'.toNat))) rest
    else if Text.isWhitespace c then readWhole n rest
    else if isUnitChar c || c == '.' then some (n, c :: rest)
    else none

/-- Reads the digits of a fraction behind `num / den`, up to a letter or the end. -/
def readFraction (num den : Nat) : List Char → Option ((Nat × Nat) × List Char)
  | [] => some ((num, den), [])
  | c :: rest =>
    if c.isDigit then do
      readFraction (← word? (num * 10 + (c.toNat - '0'.toNat))) (← word? (den * 10)) rest
    else if Text.isWhitespace c then readFraction num den rest
    else if isUnitChar c then some ((num, den), c :: rest)
    else none

/-- Reads numbers with units from the first digit of a number on. -/
def readTerms (total : Nat) (s : List Char) : Option Nat :=
  match s.dropWhile Text.isWhitespace with
  | [] => some total
  | d :: rest =>
    if !d.isDigit then none
    else
      match readWhole 0 (d :: rest) with
      | none => none
      | some (n, behind) =>
        let fraction :=
          match behind with
          | '.' :: behind => (readFraction 0 1 behind).bind fun (f, behind) =>
            if f.2 == 1 then none else some (some f, behind)
          | _ => some (none, behind)
        match fraction with
        | none => none
        | some (fraction, behind) =>
          let next := behind.dropWhile isUnitChar
          let name := String.ofList (behind.takeWhile isUnitChar)
          match (unit? name).bind (addUnits? total n fraction) with
          | none => none
          | some total => if next.length < s.length then readTerms total next else none
termination_by s.length

/-- Reads a length of time. A zero needs no unit. -/
def parse? (text : String) : Option Duration :=
  if text == "0" then some zero
  else
    let s := text.toList
    if s.all Text.isWhitespace then none else (readTerms 0 s).map Duration.mk

/-- The units with their numbers, the largest first. -/
def terms (d : Duration) : List (Nat × String) :=
  let seconds := d.nanos / second
  let nanos := d.nanos % second
  let plural (n : Nat) (name : String) := (n, if n == 1 then name else name ++ "s")
  let inYear := seconds % year
  let inMonth := inYear % month
  let inDay := inMonth % day
  [plural (seconds / year) "year", plural (inYear / month) "month", plural (inMonth / day) "day",
    (inDay / 3600, "h"), (inDay % 3600 / 60, "m"), (inDay % 60, "s"),
    (nanos / 1000000, "ms"), (nanos / 1000 % 1000, "us"), (nanos % 1000, "ns")]

/-- Writes a length of time. -/
def render (d : Duration) : String :=
  if d.nanos == 0 then "0s"
  else Text.joinWith " " ((d.terms.filter (·.1 != 0)).map fun (n, name) => s!"{n}{name}")

/-- A number of `unit`s, of which there is one more than a nanosecond for each of
`perUnit`, as a decimal fraction without zeros at its end. -/
def decimal (nanos perUnit : Nat) (name : String) : String :=
  let padded := (Nat.toDigits 10 (perUnit + nanos % perUnit)).tail
  let shown := Text.trimEndBy (· == '0') padded
  let point := if shown.isEmpty then "" else "." ++ String.ofList shown
  s!"{nanos / perUnit}" ++ point ++ name

/-- A length of time in the largest of seconds, milliseconds, microseconds and
nanoseconds that it fills. -/
def compact (d : Duration) : String :=
  if d.nanos ≥ second then decimal d.nanos second "s"
  else if d.nanos ≥ 1000000 then decimal d.nanos 1000000 "ms"
  else if d.nanos ≥ 1000 then decimal d.nanos 1000 "µs"
  else s!"{d.nanos}ns"

end Duration

end HttpSuite
