import HttpSuite.Template.Function
import HttpSuite.Template.Token

/-!
# Templates

A template is a text together with the segments it was read into: plain text,
references to variables, and calls of functions. The segments are those of the
text, so two templates are the same as soon as their texts are. Rendering joins
what the segments stand for, from the left, and stops at the first that fails.
-/

namespace HttpSuite

/-- An argument as a template writes it. -/
inductive ArgumentSource where
  /-- A text. -/
  | literal (text : String)
  /-- The path of a variable. -/
  | reference (path : String)
  deriving DecidableEq, Repr, Inhabited

/-- A piece of a template. -/
inductive Segment where
  /-- Text that stands for itself. -/
  | text (s : String)
  /-- The value at a path. -/
  | reference (path : String)
  /-- What a function answers. -/
  | call (function : String) (args : List ArgumentSource)
  deriving DecidableEq, Repr, Inhabited

namespace Segment

/-- The arguments at the front. -/
def argumentsOf : List Template.Token → List ArgumentSource
  | .arg s :: rest => .literal s :: argumentsOf rest
  | .argVariable path :: rest => .reference path :: argumentsOf rest
  | _ => []

/-- The segments of a list of tokens: a function takes the arguments behind it. -/
def ofTokens : List Template.Token → List Segment
  | [] => []
  | .text s :: rest => .text s :: ofTokens rest
  | .variableName path :: rest => .reference path :: ofTokens rest
  | .functionName name :: rest => .call name (argumentsOf rest) :: ofTokens rest
  | .arg _ :: rest => ofTokens rest
  | .argVariable _ :: rest => ofTokens rest

/-- The segments that a text is read into. -/
def ofText (source : String) : Except TemplateError (List Segment) :=
  match Template.tokenize source with
  | .ok tokens => .ok (ofTokens tokens)
  | .error e => .error e

end Segment

/-- A text with scripts in it. -/
structure Template where
  /-- The text it was read from. -/
  source : String
  /-- What the text was read into. -/
  segments : List Segment
  /-- The segments are those of the text. -/
  segments_eq : Segment.ofText source = .ok segments

namespace Template

theorem eq_of_source {a b : Template} (h : a.source = b.source) : a = b := by
  obtain ⟨s, xs, hx⟩ := a
  obtain ⟨t, ys, hy⟩ := b
  subst h
  rw [hx] at hy
  cases hy
  rfl

instance : DecidableEq Template := fun a b =>
  if h : a.source = b.source then isTrue (eq_of_source h)
  else isFalse fun hab => h (congrArg Template.source hab)

/-- Reads a template. -/
def parse (source : String) : Except TemplateError Template :=
  match h : Segment.ofText source with
  | .ok segments => .ok ⟨source, segments, h⟩
  | .error e => .error e

/-- A text with every percent sign doubled. -/
def escape (s : List Char) : List Char := s.flatMap fun c => if c == '%' then ['%', '%'] else [c]

theorem escape_cons (c : Char) (s : List Char) :
    escape (c :: s) = (if c == '%' then ['%', '%'] else [c]) ++ escape s := rfl

theorem readText_escape (s : List Char) : readText (escape s) = .ok (s, false, []) := by
  induction s with
  | nil => rfl
  | cons c s ih =>
    rw [escape_cons]
    by_cases hc : c = '%'
    · subst hc
      simp [readText, ih]
    · cases h : escape s with
      | nil =>
        rw [h] at ih
        simp only [readText, Except.ok.injEq, Prod.mk.injEq] at ih
        simp [readText, hc, ← ih.1]
      | cons d t =>
        rw [h] at ih
        simp [readText, hc, ih]

theorem escape_ne_nil {s : List Char} (h : s ≠ []) : escape s ≠ [] := by
  cases s with
  | nil => exact absurd rfl h
  | cons c s => rw [escape_cons]; split <;> simp

theorem tokensFrom_nil : tokensFrom .text [] = .ok [] := by
  rw [tokensFrom]
  simp [next, nextInText]

theorem tokensFrom_escape {s : List Char} (h : s ≠ []) :
    tokensFrom .text (escape s) = .ok [.text (String.ofList s)] := by
  have hnext : next .text (escape s) = .ok (some (.text (String.ofList s), .text, [])) := by
    unfold next nextInText
    simp only [readText_escape]
    cases s with
    | nil => exact absurd rfl h
    | cons c s =>
      have := escape_ne_nil h
      split <;> simp_all
  rw [tokensFrom]
  split <;> simp_all [tokensFrom_nil]

/-- The template that always renders to a given text. -/
def literal (text : String) : Template where
  source := String.ofList (escape text.toList)
  segments := if text.isEmpty then [] else [.text text]
  segments_eq := by
    unfold Segment.ofText tokenize
    rw [String.toList_ofList]
    by_cases h : text.toList = []
    · have : text = "" := String.toList_inj.1 (by simpa using h)
      subst this
      simp [escape, tokensFrom_nil, Segment.ofTokens]
    · rw [tokensFrom_escape h]
      have hne : text.isEmpty = false := by
        simpa using h
      simp [hne, Segment.ofTokens]

instance : Inhabited Template := ⟨literal ""⟩

/-- Whether the template is the empty text. -/
def isEmpty (t : Template) : Bool := t.source.isEmpty

end Template

namespace ArgumentSource

/-- What an argument stands for in a scope; a path that leads nowhere is left to
the function to judge. -/
def resolve (scope : Scope) : ArgumentSource → Argument
  | literal text => .literal text
  | reference path => .reference path (scope.select (Path.parse path)).toOption

end ArgumentSource

namespace Segment

/-- What a segment stands for in a scope. -/
def render (functions : FunctionRegistry) (scope : Scope) : Segment → Except TemplateError String
  | text s => .ok s
  | reference path =>
    match scope.select (Path.parse path) with
    | .ok v => .ok v.display
    | .error e => .error (.unresolved path e)
  | call function args => functions.call function (args.map (ArgumentSource.resolve scope))

/-- What segments stand for one after another, or the first that fails. Each is told by
how many there are behind it. -/
def renderAll (functions : FunctionRegistry) (scope : Scope) :
    List Segment → Except TemplateError String
  | [] => .ok ""
  | segment :: rest => do
    let s ← segment.render (functions.within rest.length) scope
    let t ← renderAll functions scope rest
    .ok (s ++ t)

end Segment

/-- The text of a template in a scope. -/
def Template.render (functions : FunctionRegistry) (scope : Scope) (t : Template) :
    Except TemplateError String :=
  Segment.renderAll functions scope t.segments

end HttpSuite
