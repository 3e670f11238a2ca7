import HttpSuite.Text.CharSet

/-!
# Regular expressions

What a regular expression is, once its text has been read: flags are gone, case
variants are in the sets of characters, and groups are where they stand.
-/

namespace HttpSuite

open HttpSuite.Text (CharSet)

/-- A condition on the characters around a position. -/
inductive Look where
  /-- The start of the text. -/
  | textStart
  /-- The end of the text. -/
  | textEnd
  /-- The start of a line; `crlf` lets a carriage return end lines too. -/
  | lineStart (crlf : Bool)
  /-- The end of a line. -/
  | lineEnd (crlf : Bool)
  /-- A word begins or ends. -/
  | wordBoundary (unicode : Bool)
  /-- No word begins or ends. -/
  | notWordBoundary (unicode : Bool)
  /-- A word begins. -/
  | wordStart (unicode : Bool)
  /-- A word ends. -/
  | wordEnd (unicode : Bool)
  /-- No word character comes before. -/
  | wordStartHalf (unicode : Bool)
  /-- No word character comes after. -/
  | wordEndHalf (unicode : Bool)
  deriving Repr, DecidableEq

/-- A regular expression. -/
inductive Regex where
  /-- Nothing at all. -/
  | empty
  /-- One character of a set. -/
  | chars (set : CharSet)
  /-- A condition on the position. -/
  | look (cond : Look)
  /-- One after another. -/
  | cat (parts : List Regex)
  /-- One of several. -/
  | alt (arms : List Regex)
  /-- At least `least` times, and at most `most` times if there is a bound. -/
  | rep (body : Regex) (least : Nat) (most : Option Nat)
  deriving Repr, Inhabited

end HttpSuite
