import HttpSuite.Proofs.Text.Digits
import HttpSuite.Proofs.Value.Path
import HttpSuite.Proofs.Value.Place

/-!
# Spellings of a path

The steps of a path can be written in many ways: each behind a point or a comma, and an index
also glued to the step before it, whatever that is. So a spelling is a list of parts, which the
separators keep apart, and a part is a step with the indexes glued to it.

The parts are read one by one. A part that begins with a key is cut into its steps, but a part
that begins with an index is one segment as a whole. Hence a path is read step by step exactly if
nothing is glued to an index that stands behind a separator: `parse_spelling_iff`.
-/

namespace HttpSuite

/-- A step as a segment of a path. -/
def Value.Step.segment : Value.Step → String
  | .field key => key
  | .item index => s!"[{index}]"

namespace Path

open Text
open Value (Step)

/-- A key that a path can spell: with something in it, no separator and no bracket, and no blank
at either end. -/
structure Key where
  name : String
  nonempty : name.toList ≠ []
  plain : ∀ c ∈ name.toList, c ≠ '.' ∧ c ≠ ',' ∧ c ≠ '[' ∧ c ≠ ']'
  starts : ∀ c, name.toList.head? = some c → isWhitespace c = false
  ends : ∀ c, name.toList.getLast? = some c → isWhitespace c = false

/-- What stands between two parts. -/
inductive Separator where
  | point
  | comma

def Separator.char : Separator → Char
  | point => '.'
  | comma => ','

/-- A step and the indexes glued to it. -/
inductive Part where
  | key (key : Key) (glued : List Nat)
  | index (index : Nat) (glued : List Nat)

namespace Part

def steps : Part → List Step
  | key k glued => .field k.name :: glued.map .item
  | index i glued => .item i :: glued.map .item

/-- The segments of the steps, with nothing in between. -/
def chars (part : Part) : List Char := part.steps.flatMap fun step => step.segment.toList

/-- The segments that are read. -/
def segments : Part → List String
  | key k glued => (key k glued).steps.map Step.segment
  | index i glued => [String.ofList (index i glued).chars]

end Part

/-- A way to write a path that begins with a key. -/
structure Spelling where
  key : Key
  glued : List Nat
  rest : List (Separator × Part)

namespace Spelling

def parts (s : Spelling) : List Part := .key s.key s.glued :: s.rest.map Prod.snd

def steps (s : Spelling) : List Step := s.parts.flatMap Part.steps

def text (s : Spelling) : String :=
  String.ofList ((Part.key s.key s.glued).chars
    ++ s.rest.flatMap fun next => next.1.char :: next.2.chars)

/-- Nothing is glued to an index that stands behind a separator. -/
def KeepsApart (s : Spelling) : Prop := ∀ i glued, Part.index i glued ∈ s.parts → glued = []

end Spelling

/-! ## Texts without separators -/

/-- A text that can stand between two separators and has no blank at either end. -/
structure Solid (s : List Char) : Prop where
  nonempty : s ≠ []
  plain : ∀ c ∈ s, separates c = false
  starts : ∀ c, s.head? = some c → isWhitespace c = false
  ends : ∀ c, s.getLast? = some c → isWhitespace c = false

theorem Solid.append {s t : List Char} (hs : Solid s) (ht : Solid t) : Solid (s ++ t) where
  nonempty := List.append_ne_nil_of_left_ne_nil hs.nonempty t
  plain := List.forall_mem_append.mpr ⟨hs.plain, ht.plain⟩
  starts c hc := by
    rw [List.head?_append] at hc
    cases hhead : s.head? with
    | none => exact absurd (List.head?_eq_none_iff.mp hhead) hs.nonempty
    | some d => exact hs.starts c (by rwa [hhead] at hc ⊢)
  ends c hc := by
    rw [List.getLast?_append] at hc
    cases hlast : t.getLast? with
    | none => exact absurd (List.getLast?_eq_none_iff.mp hlast) ht.nonempty
    | some d => exact ht.ends c (by rwa [hlast] at hc ⊢)

/-- Between two separators a text is read as it stands. -/
theorem Solid.parse {s : List Char} (h : Solid s) :
    Path.parse (String.ofList s) = (partSegments s).map String.ofList := by
  have hfilter : [s].filter (fun part => !part.isEmpty) = [s] :=
    List.filter_cons_of_pos (by simpa using h.nonempty)
  rw [parse_eq, String.toList_ofList, splitBy_of_forall_neg h.plain, ofPieces, List.map_singleton,
    trimBy_of_ends h.starts h.ends, hfilter, List.flatMap_singleton]

theorem Key.solid (key : Key) : Solid key.name.toList where
  nonempty := key.nonempty
  plain c hc := by
    obtain ⟨hpoint, hcomma, -⟩ := key.plain c hc
    simp [separates, hpoint, hcomma]
  starts := key.starts
  ends := key.ends

theorem toList_segment_item (i : Nat) :
    (Step.item i).segment.toList = '[' :: (Nat.toDigits 10 i ++ [']']) := by
  show ("[" ++ toString i ++ "]").toList = _
  rw [String.toList_append, String.toList_append, Nat.toString_eq_repr, Nat.toList_repr]
  rfl

theorem solid_segment_item (i : Nat) : Solid (Step.item i).segment.toList := by
  rw [toList_segment_item]
  refine ⟨nofun, fun c hc => ?_, fun c hc => ?_, fun c hc => ?_⟩
  · simp only [List.mem_cons, List.mem_append, List.not_mem_nil, or_false] at hc
    rcases hc with rfl | hdigit | rfl
    · rfl
    · have hc := isDigit_of_mem_toDigits hdigit
      rw [separates, Bool.or_eq_false_iff, beq_eq_false_iff_ne, beq_eq_false_iff_ne]
      constructor <;> rintro rfl <;> exact absurd hc (by decide)
    · rfl
  · cases hc
    rfl
  · rw [← List.cons_append, List.getLast?_concat] at hc
    cases hc
    rfl

/-! ## One part -/

/-- Indexes one behind the other. -/
def bracketed (indexes : List Nat) : List Char :=
  (indexes.map Step.item).flatMap fun step => step.segment.toList

theorem bracketed_cons (i : Nat) (indexes : List Nat) :
    bracketed (i :: indexes) = '[' :: (Nat.toDigits 10 i ++ ']' :: bracketed indexes) := by
  rw [bracketed, List.map_cons, List.flatMap_cons, toList_segment_item, List.cons_append,
    List.append_assoc]
  rfl

theorem Solid.append_bracketed {s : List Char} (h : Solid s) (indexes : List Nat) :
    Solid (s ++ bracketed indexes) := by
  induction indexes generalizing s with
  | nil =>
      rw [bracketed, List.map_nil, List.flatMap_nil, List.append_nil]
      exact h
  | cons i indexes ih =>
      have hnext := ih (h.append (solid_segment_item i))
      rwa [List.append_assoc] at hnext

theorem Part.chars_key (key : Key) (glued : List Nat) :
    (Part.key key glued).chars = key.name.toList ++ bracketed glued := rfl

theorem Part.chars_index (i : Nat) (glued : List Nat) :
    (Part.index i glued).chars = bracketed (i :: glued) := rfl

theorem Part.solid_chars (part : Part) : Solid part.chars := by
  cases part with
  | key k glued => exact k.solid.append_bracketed glued
  | index i glued => exact (solid_segment_item i).append_bracketed glued

/-- Up to the first closing bracket a text is one piece. -/
theorem cutAfterBrackets_append {s : List Char} (h : ']' ∉ s) (rest : List Char) :
    cutAfterBrackets (s ++ ']' :: rest) = (s ++ [']']) :: cutAfterBrackets rest := by
  induction s with
  | nil => rfl
  | cons c s ih =>
      rw [List.mem_cons, not_or] at h
      rw [List.cons_append, cutAfterBrackets, if_neg (by simpa using Ne.symm h.1), ih h.2]
      rfl

theorem cutAfterBrackets_bracketed (indexes : List Nat) :
    cutAfterBrackets (bracketed indexes)
      = (indexes.map Step.item).map fun step => step.segment.toList := by
  induction indexes with
  | nil => rfl
  | cons i indexes ih =>
      have hclosed : ']' ∉ '[' :: Nat.toDigits 10 i := by
        intro hmem
        rcases List.mem_cons.mp hmem with h | h
        · cases h
        · exact absurd (isDigit_of_mem_toDigits h) (by decide)
      rw [bracketed_cons, ← List.cons_append, cutAfterBrackets_append hclosed, ih, List.map_cons,
        List.map_cons, toList_segment_item, List.cons_append]

theorem span_bracketed (indexes : List Nat) :
    (bracketed indexes).takeWhile (· != '[') = []
      ∧ (bracketed indexes).dropWhile (· != '[') = bracketed indexes := by
  cases indexes with
  | nil => exact ⟨rfl, rfl⟩
  | cons i indexes =>
      rw [bracketed_cons]
      exact ⟨rfl, rfl⟩

/-- A key is cut from the indexes glued to it, and these from each other. -/
theorem partSegments_key (key : Key) (glued : List Nat) :
    partSegments (Part.key key glued).chars
      = (Part.key key glued).steps.map fun step => step.segment.toList := by
  have hkey : ∀ c ∈ key.name.toList, (c != '[') = true := by
    intro c hc
    simpa using (key.plain c hc).2.2.1
  obtain ⟨htake, hdrop⟩ := span_bracketed glued
  unfold partSegments
  dsimp only
  rw [Part.chars_key, List.takeWhile_append_of_pos hkey, List.dropWhile_append_of_pos hkey, htake,
    hdrop, List.append_nil, if_neg (by simpa using key.nonempty), cutAfterBrackets_bracketed]
  rfl

/-- What begins with a bracket is not cut. -/
theorem partSegments_index (i : Nat) (glued : List Nat) :
    partSegments (Part.index i glued).chars = [(Part.index i glued).chars] := by
  rw [Part.chars_index, bracketed_cons]
  rfl

theorem Part.parse_chars (part : Part) : parse (String.ofList part.chars) = part.segments := by
  rw [part.solid_chars.parse]
  cases part with
  | key k glued =>
      rw [partSegments_key, segments, List.map_map]
      exact List.map_congr_left fun step _ => String.ofList_toList
  | index i glued =>
      rw [partSegments_index]
      rfl

/-! ## All parts -/

/-- Behind a separator nothing depends on what is in front of it. -/
theorem parse_parts (front : List Char) (rest : List (Separator × Part)) :
    parse (String.ofList (front ++ rest.flatMap fun next => next.1.char :: next.2.chars))
      = parse (String.ofList front) ++ (rest.map Prod.snd).flatMap Part.segments := by
  induction rest generalizing front with
  | nil => simp
  | cons next rest ih =>
      obtain ⟨separator, part⟩ := next
      have hseparator : separates separator.char = true := by
        cases separator <;> rfl
      have hcut : ∀ back : List Char, parse (String.ofList (front ++ separator.char :: back))
          = parse (String.ofList front) ++ parse (String.ofList back) := fun back =>
        parse_split hseparator (by simp only [String.toList_ofList])
      rw [List.flatMap_cons, List.cons_append, hcut, ih, part.parse_chars, List.map_cons,
        List.flatMap_cons]

theorem Spelling.parse_text (s : Spelling) : parse s.text = s.parts.flatMap Part.segments := by
  rw [text, parse_parts, Part.parse_chars]
  rfl

/-- A part is read step by step if it is none of those with something glued to an index in
front. -/
theorem Part.segments_eq_steps {part : Part} (h : ∀ i glued, part = .index i glued → glued = []) :
    part.segments = part.steps.map Step.segment := by
  cases part with
  | key k glued => rfl
  | index i glued =>
      cases h i glued rfl
      rw [segments, chars_index, bracketed, List.map_singleton, List.flatMap_singleton,
        String.ofList_toList]
      rfl

/-- An index with others glued to it is longer than its first step. -/
theorem Part.segments_ne_first_step (i j : Nat) (glued : List Nat) :
    String.ofList (Part.index i (j :: glued)).chars ≠ (Step.item i).segment := by
  intro heq
  have hlength := congrArg (fun text => text.toList.length) heq
  rw [chars_index, bracketed_cons, bracketed_cons, String.toList_ofList, toList_segment_item]
    at hlength
  simp at hlength

theorem flatMap_segments_eq_iff (parts : List Part) :
    parts.flatMap Part.segments = (parts.flatMap Part.steps).map Step.segment
      ↔ ∀ i glued, Part.index i glued ∈ parts → glued = [] := by
  induction parts with
  | nil => simp
  | cons part parts ih =>
      rw [List.flatMap_cons, List.flatMap_cons, List.map_append]
      constructor
      · intro heq
        have hpart : ∀ i glued, part = .index i glued → glued = [] := by
          rintro i (_ | ⟨j, glued⟩) rfl
          · rfl
          · exact absurd (List.cons.inj heq).1 (Part.segments_ne_first_step i j glued)
        rw [Part.segments_eq_steps hpart, List.append_right_inj] at heq
        intro i glued hmem
        rcases List.mem_cons.mp hmem with hfirst | hrest
        · exact hpart i glued hfirst.symm
        · exact ih.mp heq i glued hrest
      · intro hall
        rw [Part.segments_eq_steps fun i glued h => hall i glued (h ▸ List.mem_cons_self),
          ih.mpr fun i glued h => hall i glued (List.mem_cons_of_mem _ h)]

/-- A path is read part by part, and step by step exactly if nothing is glued to an index that
stands behind a separator. -/
theorem parse_spelling_iff (s : Spelling) :
    parse s.text = s.parts.flatMap Part.segments
      ∧ (parse s.text = s.steps.map Step.segment ↔ s.KeepsApart) := by
  refine ⟨s.parse_text, ?_⟩
  rw [s.parse_text]
  exact flatMap_segments_eq_iff s.parts

def Key.rows : Key where
  name := "rows"
  nonempty := by simp
  plain := by simp
  starts := by simp [isWhitespace]
  ends := by simp [isWhitespace]

/-- Behind a point an index keeps what is glued to it, while behind a key it does not. -/
theorem glued_to_index_unsplit :
    ∃ s : Spelling, s.text = "rows.[0][1]" ∧ s.steps = [.field "rows", .item 0, .item 1]
      ∧ s.steps.map Step.segment = ["rows", "[0]", "[1]"] ∧ parse s.text = ["rows", "[0][1]"]
      ∧ parse "rows[0].[1]" = ["rows", "[0]", "[1]"]
      ∧ parse "rows[0][1]" = ["rows", "[0]", "[1]"] := by
  refine ⟨⟨.rows, [], [(.point, .index 0 [1])]⟩, by decide +kernel, rfl, by decide +kernel,
    by decide +kernel, by decide +kernel, by decide +kernel⟩

end Path

end HttpSuite
