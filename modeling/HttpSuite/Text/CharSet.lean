import HttpSuite.Text.Case
import HttpSuite.Text.Category

/-!
# Sets of characters

A set of characters is a list of ranges of code points in increasing order that
neither touch nor overlap. Surrogates are no characters, so complements leave
them out.
-/

namespace HttpSuite.Text

/-- Ranges of code points, ends included. -/
structure CharSet where
  /-- In increasing order, with a gap between every two of them. -/
  ranges : List (Nat × Nat)
  deriving Repr, Inhabited, DecidableEq

namespace CharSet

/-- The set without characters. -/
def empty : CharSet := ⟨[]⟩

/-- Joins ranges that touch or overlap, given ranges in order of their starts. -/
def joinRanges : List (Nat × Nat) → List (Nat × Nat)
  | [] => []
  | (a, b) :: rest =>
    match joinRanges rest with
    | [] => [(a, b)]
    | (c, d) :: more => if c ≤ b + 1 then (a, max b d) :: more else (a, b) :: (c, d) :: more

/-- The set of some ranges, in any order. -/
def ofRanges (ranges : List (Nat × Nat)) : CharSet :=
  let sorted := (ranges.filter fun r => r.1 ≤ r.2).mergeSort fun r s => r.1 ≤ s.1
  ⟨joinRanges sorted⟩

/-- The set of the characters from `a` to `b`. -/
def range (a b : Char) : CharSet := ofRanges [(a.toNat, b.toNat)]

/-- The set of one character. -/
def single (c : Char) : CharSet := ⟨[(c.toNat, c.toNat)]⟩

/-- All characters. -/
def full : CharSet := ⟨[(0, 0xD7FF), (0xE000, 0x10FFFF)]⟩

/-- Whether a code point is in the set. -/
def containsCode (s : CharSet) (n : Nat) : Bool := s.ranges.any fun r => r.1 ≤ n && n ≤ r.2

/-- Whether a character is in the set. -/
def contains (s : CharSet) (c : Char) : Bool := s.containsCode c.toNat

/-- The characters of either set. -/
def union (s t : CharSet) : CharSet := ofRanges (s.ranges ++ t.ranges)

/-- The characters of both sets. -/
def inter (s t : CharSet) : CharSet :=
  ofRanges (s.ranges.flatMap fun r => t.ranges.map fun q => (max r.1 q.1, min r.2 q.2))

/-- The gaps behind `from` up to the last code point. -/
def gaps (start : Nat) : List (Nat × Nat) → List (Nat × Nat)
  | [] => if start ≤ 0x10FFFF then [(start, 0x10FFFF)] else []
  | (a, b) :: rest => if start < a then (start, a - 1) :: gaps (b + 1) rest else gaps (b + 1) rest

/-- The characters outside the set. -/
def complement (s : CharSet) : CharSet := inter ⟨gaps 0 s.ranges⟩ full

/-- The characters of the first set that are not in the second. -/
def diff (s t : CharSet) : CharSet := inter s t.complement

/-- The characters of exactly one of the sets. -/
def symmDiff (s t : CharSet) : CharSet := union (diff s t) (diff t s)

/-- How many characters the set has. -/
def size (s : CharSet) : Nat := s.ranges.foldl (fun n r => n + (r.2 - r.1 + 1)) 0

/-- The character at a place in the order of the set. -/
def nth? : List (Nat × Nat) → Nat → Option Char
  | [], _ => none
  | (a, b) :: rest, i =>
    if i ≤ b - a then some (Char.ofNat (a + i)) else nth? rest (i - (b - a + 1))

/-- Every code point that some run of the fold table moves or reaches. -/
private def cased : List Nat :=
  CaseTable.fold.toList.flatMap fun s =>
    (List.range ((s.last - s.first) / s.stride + 1)).flatMap fun i =>
      let n := s.first + i * s.stride
      [n, ((n : Int) + s.distance).toNat]

/-- The set with all case variants of its characters. -/
def withCaseVariants (s : CharSet) : CharSet :=
  let added := (cased.filter s.containsCode).flatMap fun n =>
    (caseVariants (Char.ofNat n)).map fun c => (c.toNat, c.toNat)
  ofRanges (s.ranges ++ added)

/-- The characters whose category satisfies `p`. -/
def ofCategories (p : String → Bool) : CharSet :=
  let runs := CategoryTable.categories.toList
  let starts := (runs.drop 1).map Prod.fst ++ [0x110000]
  inter full <| ofRanges ((runs.zip starts).filterMap fun (run, next) =>
    if p run.2 then some (run.1, next - 1) else none)

/-- Decimal digits. -/
def decimalDigit : CharSet := ofCategories (· == "Nd")

/-- White space. -/
def whitespace : CharSet :=
  ofRanges [(9, 13), (0x20, 0x20), (0x85, 0x85), (0xA0, 0xA0), (0x1680, 0x1680), (0x2000, 0x200A),
    (0x2028, 0x2029), (0x202F, 0x202F), (0x205F, 0x205F), (0x3000, 0x3000)]

/-- Letters, and the marks that count as letters. -/
def alphabetic : CharSet :=
  union (ofCategories fun l => l.startsWith "L" || l == "Nl")
    (ofRanges CategoryTable.otherAlphabetic.toList)

/-- The characters of words. -/
def wordChar : CharSet :=
  union alphabetic
    (union (ofCategories fun l => l.startsWith "M" || l == "Nd" || l == "Pc")
      (ofRanges [(0x200C, 0x200D)]))

end CharSet

end HttpSuite.Text
