import HttpSuite.Pattern.Reader
import HttpSuite.Text.Quoted

/-!
# Checking values against patterns

A check goes on behind every mismatch, so that a report is complete: it has one
leaf for each demand that is not met, below the fields and indexes that lead to
it. Where a container has the wrong kind or length, or a field is missing, what
is inside is not looked at.
-/

namespace HttpSuite.Pattern

/-- The length of a text, array or object. -/
def lengthOf? : Value → Option Nat
  | .string s => some s.length
  | .array items => some items.length
  | .object entries => some entries.length
  | _ => none

/-- Failures inside a place, under its name if there are any. -/
def within (segment : String) (failures : List MatchFailure) : List MatchFailure :=
  if failures.isEmpty then [] else [.nested segment failures]

/-- What is wrong with the presence of a field. -/
def presenceFailure (segment : String) (expected : Bool) : MatchFailure :=
  .nested segment [.leaf s!"field existence err, expected: {expected}, actual: {!expected}"]

mutual

/-- All that keeps a value from matching. -/
def check : Pattern → Value → List MatchFailure
  | null, v =>
    if v.isNull then [] else [.leaf s!"expected null, actual: {v.render}"]
  | bool b, v =>
    match v with
    | .bool a => if a == b then [] else [.leaf s!"expected {b}, actual: {a}"]
    | v => [.leaf s!"expected {b}, actual: {v.render}"]
  | string s, v =>
    match v with
    | .string t =>
      if s == t then []
      else [.leaf s!"expected {Value.renderText s}, actual: {Value.renderText t}"]
    | v => [.leaf s!"expected {Value.renderText s}, actual: {v.render}"]
  | number n, v =>
    match v with
    | .number m =>
      if n.numEq m then [] else [.leaf s!"expected number {n.render}, actual: {m.render}"]
    | v => [.leaf s!"expected number {n.render}, actual: {v.render}"]
  | regexp source found, v =>
    match v with
    | .string s =>
      if found s then []
      else [.leaf s!"expected {Text.quoted s} to match regexp {Text.quoted source}"]
    | v => [.leaf s!"regexp {Text.quoted source} needs a string, actual: {v.render}"]
  | length n, v =>
    match lengthOf? v with
    | some m =>
      if m == n then [] else [.leaf s!"unexpected length, expected: {n}, actual: {m}"]
    | none => [.leaf s!"can't take length of {v.render}"]
  | elements ps, v =>
    match v with
    | .array items =>
      if items.length == ps.length then checkItems 0 ps items
      else
        [.leaf s!"unexpected slice length, expected: {ps.length}, actual: {items.length}"]
    | v => [.leaf s!"expected array, actual: {v.render}"]
  | fields fs, v =>
    match v with
    | .object entries => checkFields fs entries
    | v => [.leaf s!"expected object, actual: {v.render}"]
  | all ps, v => checkAll ps v

/-- What keeps items from matching, from an index on. -/
def checkItems (index : Nat) : List Pattern → List Value → List MatchFailure
  | p :: ps, v :: vs => within s!"[{index}]" (check p v) ++ checkItems (index + 1) ps vs
  | _, _ => []

/-- What keeps fields from matching. -/
def checkFields : List (String × Option Pattern) → Entries Value → List MatchFailure
  | [], _ => []
  | (key, none) :: rest, entries =>
    (if entries.contains key then [presenceFailure s!".{key}" false] else [])
      ++ checkFields rest entries
  | (key, some p) :: rest, entries =>
    (match entries.get? key with
      | some v => within s!".{key}" (check p v)
      | none => [presenceFailure s!".{key}" true])
      ++ checkFields rest entries

/-- What keeps a value from matching all patterns. -/
def checkAll : List Pattern → Value → List MatchFailure
  | [], _ => []
  | p :: ps, v => check p v ++ checkAll ps v

end

/-- Whether a value matches. -/
def accepts (p : Pattern) (v : Value) : Bool := (p.check v).isEmpty

theorem accepts_iff {p : Pattern} {v : Value} : p.accepts v = true ↔ p.check v = [] :=
  List.isEmpty_iff

theorem accepts_null {v : Value} : null.accepts v = true ↔ v = .null := by
  rw [accepts_iff]
  cases v <;> simp [check, Value.isNull]

end HttpSuite.Pattern
