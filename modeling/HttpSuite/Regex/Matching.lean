import HttpSuite.Regex.Basic

/-!
# Searching for a regular expression

A regular expression takes a set of positions of a text to the set of positions
where a match may end. A set is given by one truth value per position. A
repetition adds positions until a round adds nothing new; that cannot take more
rounds than there are positions, and where the number of rounds is bounded it is
the smaller bound that counts.
-/

namespace HttpSuite

open HttpSuite.Text (isWordChar)

/-- Whether the character at a place, if there is one, belongs to words. -/
private def isWordAt (unicode : Bool) : Option Char → Bool
  | some c => if unicode then isWordChar c else c.isAlphanum || c == '_'
  | none => false

/-- Whether a condition holds between two characters; an absent character is
the edge of the text. -/
def Look.holds (cond : Look) (before after : Option Char) : Bool :=
  match cond with
  | .textStart => before.isNone
  | .textEnd => after.isNone
  | .lineStart crlf =>
    before.isNone || before == some '\n'
      || (crlf && before == some '\r' && after != some '\n')
  | .lineEnd crlf =>
    after.isNone || (crlf && after == some '\r')
      || (after == some '\n' && !(crlf && before == some '\r'))
  | .wordBoundary u => isWordAt u before != isWordAt u after
  | .notWordBoundary u => isWordAt u before == isWordAt u after
  | .wordStart u => !isWordAt u before && isWordAt u after
  | .wordEnd u => isWordAt u before && !isWordAt u after
  | .wordStartHalf u => !isWordAt u before
  | .wordEndHalf u => !isWordAt u after

namespace Regex

/-- Positions of a text, from before its first character to behind its last. -/
abbrev Positions := Array Bool

/-- The positions in either set. -/
def joinPositions (a b : Positions) : Positions := a.zipWith (· || ·) b

/-- The positions that satisfy a condition. -/
def keepWhere (text : Array Char) (cond : Look) (at? : Positions) : Positions :=
  at?.mapIdx fun i here =>
    here && cond.holds (if i == 0 then none else text[i - 1]?) text[i]?

/-- The positions behind a character of the set. -/
def stepOver (text : Array Char) (set : Text.CharSet) (at? : Positions) : Positions :=
  at?.mapIdx fun i _ =>
    i > 0 && at?.getD (i - 1) false &&
      (match text[i - 1]? with
        | some c => set.contains c
        | none => false)

/-- Applies `step` a number of times, or until nothing changes any more. -/
def exactly (step : Positions → Positions) : Nat → Positions → Positions
  | 0, ps => ps
  | n + 1, ps =>
    let qs := step ps
    if qs == ps then ps else exactly step n qs

/-- Everything reached in at most so many rounds, starting with `front`. -/
def upTo (step : Positions → Positions) : Nat → (reached front : Positions) → Positions
  | 0, reached, _ => reached
  | n + 1, reached, front =>
    let next := step front
    let joined := joinPositions reached next
    if joined == reached then reached else upTo step n joined next

mutual

/-- Where a match may end that begins at one of the positions. -/
def ends (text : Array Char) : Regex → Positions → Positions
  | empty, ps => ps
  | chars set, ps => stepOver text set ps
  | look cond, ps => keepWhere text cond ps
  | cat parts, ps => endsCat text parts ps
  | alt arms, ps => endsAlt text arms ps
  | rep body least most, ps =>
    let step := fun qs => ends text body qs
    let start := exactly step least ps
    match most with
    | some most => upTo step (most - least) start start
    | none => upTo step (ps.size + 1) start start

/-- `ends` of one part after another. -/
def endsCat (text : Array Char) : List Regex → Positions → Positions
  | [], ps => ps
  | r :: rest, ps => endsCat text rest (ends text r ps)

/-- `ends` of every arm. -/
def endsAlt (text : Array Char) : List Regex → Positions → Positions
  | [], ps => ps.map fun _ => false
  | r :: rest, ps => joinPositions (ends text r ps) (endsAlt text rest ps)

end

/-- Whether a match begins anywhere in the text. -/
def isMatch (r : Regex) (text : String) : Bool :=
  let chars := text.toList.toArray
  (r.ends chars (Array.replicate (chars.size + 1) true)).any id

end Regex

end HttpSuite
