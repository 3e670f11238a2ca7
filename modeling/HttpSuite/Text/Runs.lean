import HttpSuite.Text.Basic

/-!
# Tables of code points

Properties of characters change rarely along the code points, so a table of
them is a list of runs. This module decodes the textual form of such tables and
searches them. A search halves the range it looks at, and the range is what
the recursion decreases on.
-/

namespace HttpSuite.Text.Runs

/-- The words of a text between blanks. -/
private def words (text : String) : List (List Char) :=
  (splitBy isWhitespace text.toList).filter fun w => !w.isEmpty

/-- A hexadecimal number; anything that is none counts as zero. -/
private def hexNat (ds : List Char) : Nat := (digitsValue? 16 ds).getD 0

/-- Runs from the digits read so far and the text that is left. -/
private def labelledRuns (digits : List Char) : List Char → List (Nat × String)
  | [] => []
  | c :: rest =>
    if c.isUpper then
      match rest with
      | [] => []
      | d :: rest => (hexNat digits.reverse, String.ofList [c, d]) :: labelledRuns [] rest
    else if (hexValue? c).isSome then labelledRuns (c :: digits) rest
    else labelledRuns digits rest

/-- Runs written as a start in hexadecimal and a label of two letters, the
first of them a capital. -/
def decodeLabelled (text : String) : Array (Nat × String) :=
  (labelledRuns [] text.toList).toArray

/-- Ranges written `a-b`, or `a` for a single code point. -/
def decodeRanges (text : String) : Array (Nat × Nat) :=
  ((words text).map fun w =>
    match splitOnce? '-' w with
    | some (a, b) => (hexNat a, hexNat b)
    | none => (hexNat w, hexNat w)).toArray

/-- A run of code points that all move by the same distance. -/
structure Shift where
  /-- The first code point of the run. -/
  first : Nat
  /-- The last code point of the run. -/
  last : Nat
  /-- Every how many code points one moves. -/
  stride : Nat
  /-- How far it moves. -/
  distance : Int
  deriving Repr, Inhabited

/-- Runs written `a.b+d`, `a.b-d`, and with a slash after `b` where every
second code point moves. -/
def decodeShifts (text : String) : Array Shift :=
  ((words text).filterMap fun w => do
    let (a, rest) ← splitOnce? '.' w
    let sign : Char := if rest.contains '-' then '-' else '+'
    let (b, d) ← splitOnce? sign rest
    let paired := b.getLast? == some '/'
    let distance : Int := hexNat d
    pure
      { first := hexNat a
        last := hexNat (if paired then b.dropLast else b)
        stride := if paired then 2 else 1
        distance := if sign == '-' then -distance else distance }).toArray

/-- Entries written `a=b,c`. -/
def decodeExpansions (text : String) : Array (Nat × List Nat) :=
  ((words text).filterMap fun w => do
    let (a, rest) ← splitOnce? '=' w
    pure (hexNat a, (splitBy (· == ',') rest).map hexNat)).toArray

/-- The last index in `[lo, hi)` whose key is not above `n`, or `lo`. -/
def searchFrom {α : Type} (key : α → Nat) (runs : Array α) (n lo hi : Nat) : Nat :=
  if lo + 1 < hi then
    let mid := (lo + hi) / 2
    match runs[mid]? with
    | some run => if key run ≤ n then searchFrom key runs n mid hi else searchFrom key runs n lo mid
    | none => lo
  else lo
termination_by hi - lo

/-- The last entry whose key is not above `n`. -/
def find? {α : Type} (key : α → Nat) (runs : Array α) (n : Nat) : Option α :=
  (runs[searchFrom key runs n 0 runs.size]?).filter fun run => key run ≤ n

/-- Whether some range holds `n`. -/
def contains (ranges : Array (Nat × Nat)) (n : Nat) : Bool :=
  match find? Prod.fst ranges n with
  | some (_, last) => n ≤ last
  | none => false

/-- Whether a run moves `n`. -/
def Shift.moves (s : Shift) (n : Nat) : Bool :=
  s.first ≤ n && n ≤ s.last && (n - s.first) % s.stride == 0

/-- Where the runs move `n`; a code point in no run stays. -/
def shift (runs : Array Shift) (n : Nat) : Nat :=
  match find? Shift.first runs n with
  | some s => if s.moves n then ((n : Int) + s.distance).toNat else n
  | none => n

/-- The code points other than `n` that the runs move to `n`. -/
def sources (runs : Array Shift) (n : Nat) : List Nat :=
  runs.toList.filterMap fun s =>
    let source := ((n : Int) - s.distance).toNat
    if s.moves source && ((source : Int) + s.distance == n) then some source else none

end HttpSuite.Text.Runs
