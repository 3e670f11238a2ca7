import HttpSuite.Proofs.Text.Pieces
import HttpSuite.Scope.Basic

/-!
# Paths one behind the other

A path that is written with a separator in the middle is the path in front of it and the path
behind it: the separator ends a piece of the text, and what is made of a piece depends on
nothing else. Following such a path is following its two halves, so it does not matter whether
a value is reached at once or in two steps.
-/

namespace HttpSuite

namespace Path

open Text

/-- Whether a character stands between segments. -/
def separates (c : Char) : Bool := c == '.' || c == ','

/-- The segments of the pieces of a text. -/
def ofPieces (pieces : List (List Char)) : Path :=
  (((pieces.map (trimBy isWhitespace)).filter fun part => !part.isEmpty).flatMap
    partSegments).map String.ofList

theorem parse_eq (text : String) : parse text = ofPieces (splitBy separates text.toList) := rfl

theorem ofPieces_append (front back : List (List Char)) :
    ofPieces (front ++ back) = ofPieces front ++ ofPieces back := by
  simp [ofPieces]

theorem parse_split {c : Char} (hc : separates c = true) {text front back : String}
    (h : text.toList = front.toList ++ c :: back.toList) :
    parse text = parse front ++ parse back := by
  rw [parse_eq, h, splitBy_append_cons hc, ofPieces_append, ← parse_eq, ← parse_eq]

theorem partSegments_ne_nil (part : List Char) : partSegments part ≠ [] := by
  unfold partSegments
  simp only
  split <;> simp

/-- A text has a segment if it begins with more than a blank or a separator. -/
theorem parse_ne_nil {text : String} {c : Char} {rest : List Char} (h : text.toList = c :: rest)
    (hsep : separates c = false) (hblank : isWhitespace c = false) : parse text ≠ [] := by
  obtain ⟨piece, pieces, hrest⟩ :=
    List.exists_cons_of_ne_nil (splitBy_ne_nil rest (p := separates))
  have hpart := trimBy_cons hblank piece
  rw [parse_eq, h, splitBy_cons_of_neg hsep hrest, ofPieces, List.map_cons,
    List.filter_cons_of_pos (by simpa using hpart), List.flatMap_cons]
  simp [partSegments_ne_nil]

end Path

theorem Value.select_append (v : Value) (front back : Path) :
    v.select (front ++ back) = (v.select front).bind fun w => w.select back := by
  induction front generalizing v with
  | nil => rw [List.nil_append, select]; rfl
  | cons segment front ih =>
      rw [List.cons_append, select.eq_def, select.eq_def]
      simp only
      split
      · cases v.length with
        | error e => rfl
        | ok n => exact ih (ofNat n)
      · cases v with
        | object fields =>
            simp only
            cases Entries.get? fields segment with
            | none => rfl
            | some field => exact ih field
        | array items =>
            simp only
            cases Path.index? segment with
            | none => rfl
            | some i =>
                simp only
                cases items[i]? with
                | none => rfl
                | some item => exact ih item
        | _ => rfl

theorem Scope.select_append (scope : Scope) {front : Path} (h : front ≠ []) (back : Path) :
    scope.select (front ++ back) = (scope.select front).bind fun w => w.select back := by
  cases front with
  | nil => exact absurd rfl h
  | cons name front =>
      rw [List.cons_append, select, select]
      cases scope.get? name with
      | none => rfl
      | some v => exact v.select_append front back

end HttpSuite
