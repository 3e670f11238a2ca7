import HttpSuite.Proofs.Template.Append
import Mathlib.Data.List.Chain

/-!
# What templates can be written as

`Spells` says how a segment may be written: text with its percent signs doubled, and a reference
or a call with blanks wherever there is room for them. Whatever is written in this way is read
back as the same segments.

A script ends in a brace that the lexer has seen, so by `tokensFrom_append` it is enough to read
each segment with nothing behind it; `glue` then puts the tokens side by side, except that two
texts would become one, and `Apart` rules that out. Within a list of arguments the induction is
on the list: an argument leaves the lexer where the rest of the list begins.
-/

namespace HttpSuite

/-! ### Arguments -/

namespace ArgumentSource

open Template

/-- How an argument is written. -/
inductive Spells : ArgumentSource → List Char → Prop where
  | literal {text : String} (h : '\x60' ∉ text.toList) :
      Spells (.literal text) ('\x60' :: (text.toList ++ ['\x60']))
  | reference {path : String} (h : IsName path.toList) : Spells (.reference path) path.toList

/-- How arguments are written between brackets: with commas, and blanks around each. -/
inductive SpellsAll : List ArgumentSource → List Char → Prop where
  | nil {b : List Char} (hb : Blank b) : SpellsAll [] b
  | single {a : ArgumentSource} {b₁ b₂ s : List Char} (hb₁ : Blank b₁) (h : a.Spells s)
      (hb₂ : Blank b₂) : SpellsAll [a] (b₁ ++ (s ++ b₂))
  | cons {a : ArgumentSource} {args : List ArgumentSource} {b₁ b₂ s r : List Char}
      (hb₁ : Blank b₁) (h : a.Spells s) (hb₂ : Blank b₂) (hargs : args ≠ [])
      (hrest : SpellsAll args r) : SpellsAll (a :: args) (b₁ ++ (s ++ (b₂ ++ ',' :: r)))

theorem nextInArgs_spells {a : ArgumentSource} {b₁ b₂ s : List Char} (h : a.Spells s)
    (hb₁ : Blank b₁) (hb₂ : Blank b₂) {c : Char} (hc : endsArg c = true) (r : List Char) :
    nextInArgs (b₁ ++ (s ++ (b₂ ++ c :: r)))
      = .ok (some (a.token, .args, if c = ',' then r else c :: r)) := by
  cases h with
  | @literal text h =>
      have hnext := nextInArgs_literal hb₁ hb₂ h hc r
      rw [String.ofList_toList] at hnext
      rw [List.cons_append, List.append_assoc, List.singleton_append]
      exact hnext
  | @reference path h =>
      have hnext := nextInArgs_name hb₁ hb₂ h hc r
      rw [String.ofList_toList] at hnext
      exact hnext

/-- An argument leaves the rest of the list, and the last one the closing bracket. -/
theorem tokensFrom_spellsAll {args : List ArgumentSource} {s b : List Char} (h : SpellsAll args s)
    (hb : Blank b) : tokensFrom .args (s ++ ')' :: (b ++ ['\x7d'])) = .ok (args.map token) := by
  have hclose : ∀ {b₁}, Blank b₁ →
      tokensFrom .args (b₁ ++ ')' :: (b ++ ['\x7d'])) = .ok [] := by
    intro b₁ hb₁
    have hnext : next .args (b₁ ++ ')' :: (b ++ ['\x7d'])) = next .text [] :=
      nextInArgs_close hb₁ hb []
    rw [tokensFrom_congr hnext, tokensFrom_nil]
  induction h with
  | nil hb₁ => exact hclose hb₁
  | @single a b₁ b₂ s hb₁ h hb₂ =>
      have hnext : next .args (b₁ ++ (s ++ (b₂ ++ ')' :: (b ++ ['\x7d']))))
          = .ok (some (a.token, .args, ')' :: (b ++ ['\x7d']))) :=
        nextInArgs_spells h hb₁ hb₂ (by decide) _
      rw [List.append_assoc, List.append_assoc, tokensFrom_of_next hnext]
      have := hclose blank_nil
      rw [List.nil_append] at this
      rw [this]
      rfl
  | @cons a args b₁ b₂ s r hb₁ h hb₂ _ _ ih =>
      have hnext : next .args (b₁ ++ (s ++ (b₂ ++ ',' :: (r ++ ')' :: (b ++ ['\x7d'])))))
          = .ok (some (a.token, .args, r ++ ')' :: (b ++ ['\x7d']))) :=
        nextInArgs_spells h hb₁ hb₂ (by decide) _
      rw [List.append_assoc, List.append_assoc, List.append_assoc, List.cons_append,
        tokensFrom_of_next hnext, ih]
      rfl

end ArgumentSource

/-! ### Segments -/

namespace Segment

open Template

/-- The tokens of a segment. -/
def tokens : Segment → List Token
  | text s => [.text s]
  | reference path => [.variableName path]
  | call function args => .functionName function :: args.map ArgumentSource.token

/-- How a segment is written. -/
inductive Spells : Segment → List Char → Prop where
  | text {s : String} (h : s ≠ "") : Spells (.text s) (escape s.toList)
  | reference {path : String} {b₁ b₂ : List Char} (hb₁ : Blank b₁) (h : IsName path.toList)
      (hb₂ : Blank b₂) :
      Spells (.reference path) ('%' :: '\x7b' :: (b₁ ++ (path.toList ++ (b₂ ++ ['\x7d']))))
  | call {function : String} {args : List ArgumentSource} {b₁ b₂ b₃ s : List Char}
      (hb₁ : Blank b₁) (h : IsName function.toList) (hb₂ : Blank b₂)
      (hargs : ArgumentSource.SpellsAll args s) (hb₃ : Blank b₃) :
      Spells (.call function args) ('%' :: '\x7b' ::
        (b₁ ++ (function.toList ++ (b₂ ++ '(' :: (s ++ ')' :: (b₃ ++ ['\x7d']))))))

/-- A reference as it is usually written. -/
theorem Spells.plain {path : String} (h : IsName path.toList) :
    (Segment.reference path).Spells ('%' :: '\x7b' :: (path.toList ++ ['\x7d'])) :=
  .reference blank_nil h blank_nil

/-- A call of two arguments as it is usually written. -/
theorem Spells.pair {function : String} {a s : ArgumentSource} {x y : List Char}
    (h : IsName function.toList) (ha : a.Spells x) (hs : s.Spells y) :
    (Segment.call function [a, s]).Spells
      ('%' :: '\x7b' :: (function.toList ++ '(' :: (x ++ ',' :: ' ' :: (y ++ [')', '\x7d'])))) := by
  have hspace : Blank [' '] := by decide
  have hargs := ArgumentSource.SpellsAll.cons blank_nil ha blank_nil (List.cons_ne_nil s [])
    (.single hspace hs blank_nil)
  have hcall := Spells.call blank_nil h blank_nil hargs blank_nil
  simpa using hcall

/-- How segments are written, one behind the other. -/
inductive SpellsAll : List Segment → List Char → Prop where
  | nil : SpellsAll [] []
  | cons {segment : Segment} {rest : List Segment} {s r : List Char} (h : segment.Spells s)
      (hrest : SpellsAll rest r) : SpellsAll (segment :: rest) (s ++ r)

/-- Whether the segment is text. -/
def isText : Segment → Bool
  | text _ => true
  | _ => false

/-- Two segments that do not run into each other. -/
def Apart (a b : Segment) : Prop := ¬(a.isText = true ∧ b.isText = true)

instance (a b : Segment) : Decidable (a.Apart b) :=
  inferInstanceAs (Decidable ¬(a.isText = true ∧ b.isText = true))

theorem tokensFrom_script (s : List Char) :
    tokensFrom .text ('%' :: '\x7b' :: s) = tokensFrom .script s := by
  have hread : readText ('%' :: '\x7b' :: s) = .ok ([], true, s) := rfl
  rw [tokensFrom_of_readText hread, if_pos rfl]
  cases tokensFrom .script s <;> rfl

theorem tokensFrom_spells {segment : Segment} {s : List Char} (h : segment.Spells s) :
    tokensFrom .text s = .ok segment.tokens := by
  cases h with
  | @text s h =>
      have hne : s.toList ≠ [] := by simpa using h
      rw [tokensFrom_escape hne, String.ofList_toList]
      rfl
  | @reference path b₁ b₂ hb₁ h hb₂ =>
      have hnext := nextInScript_name hb₁ hb₂ h (Or.inl rfl) []
      rw [if_pos rfl, String.ofList_toList] at hnext
      rw [tokensFrom_script, tokensFrom_of_next (next_script hnext), tokensFrom_nil]
      rfl
  | @call function args b₁ b₂ b₃ s hb₁ h hb₂ hargs hb₃ =>
      have hnext := nextInScript_name hb₁ hb₂ h (Or.inr rfl) (s ++ ')' :: (b₃ ++ ['\x7d']))
      rw [if_neg (by decide), String.ofList_toList] at hnext
      rw [tokensFrom_script, tokensFrom_of_next (next_script hnext),
        ArgumentSource.tokensFrom_spellsAll hargs hb₃]
      rfl

theorem glue_of_not_texts {tokens : List Token}
    (h : ∀ token ∈ tokens, token.isScript = true ∨ token.isArg = true) (rest : List Token) :
    glue tokens rest = tokens ++ rest := by
  induction tokens with
  | nil => rw [glue]; rfl
  | cons token tokens ih =>
      rw [glue_of_not_text (h token List.mem_cons_self), List.cons_append,
        ih fun token' hmem => h token' (List.mem_cons_of_mem token hmem)]

/-- The tokens of segments stand side by side unless two of them are text. -/
theorem glue_tokens {segment : Segment} {rest : List Segment}
    (h : (segment :: rest).IsChain Apart) :
    glue segment.tokens (rest.flatMap tokens) = segment.tokens ++ rest.flatMap tokens := by
  cases segment with
  | text s =>
      cases h with
      | singleton => simp [tokens, glue]
      | @cons_cons _ b rest hapart _ =>
          cases b with
          | text t => exact absurd ⟨rfl, rfl⟩ hapart
          | reference path => simp [tokens, glue]
          | call function args => simp [tokens, glue]
  | reference path => exact glue_of_not_texts (by simp [tokens, Token.isScript]) _
  | call function args =>
      refine glue_of_not_texts (fun token htoken => ?_) _
      rcases List.mem_cons.mp htoken with rfl | hmem
      · exact Or.inl rfl
      · obtain ⟨a, -, rfl⟩ := List.mem_map.mp hmem
        exact Or.inr (by cases a <;> rfl)

theorem tokensFrom_spellsAll {segments : List Segment} {s : List Char} (h : SpellsAll segments s)
    (hapart : segments.IsChain Apart) :
    tokensFrom .text s = .ok (segments.flatMap tokens) := by
  induction h with
  | nil => exact tokensFrom_nil
  | @cons segment rest s r h _ ih =>
      rw [tokensFrom_append (tokensFrom_spells h), ih hapart.tail, Except.map, glue_tokens hapart,
        List.flatMap_cons]

/-! ### The segments of tokens -/

theorem argumentsOf_tokens (args : List ArgumentSource) {rest : List Token}
    (h : argumentsOf rest = []) :
    argumentsOf (args.map ArgumentSource.token ++ rest) = args := by
  induction args with
  | nil => exact h
  | cons a args ih =>
      cases a <;>
        simp only [List.map_cons, List.cons_append, ArgumentSource.token, argumentsOf, ih]

theorem ofTokens_arguments (args : List ArgumentSource) (rest : List Token) :
    ofTokens (args.map ArgumentSource.token ++ rest) = ofTokens rest := by
  induction args with
  | nil => rfl
  | cons a args ih =>
      cases a <;>
        simp only [List.map_cons, List.cons_append, ArgumentSource.token, ofTokens, ih]

theorem argumentsOf_flatMap_tokens (segments : List Segment) :
    argumentsOf (segments.flatMap tokens) = [] := by
  cases segments with
  | nil => rfl
  | cons segment rest => cases segment <;> rfl

theorem ofTokens_flatMap_tokens (segments : List Segment) :
    ofTokens (segments.flatMap tokens) = segments := by
  induction segments with
  | nil => rfl
  | cons segment rest ih =>
      rw [List.flatMap_cons]
      cases segment with
      | text s => rw [tokens, List.singleton_append, ofTokens, ih]
      | reference path => rw [tokens, List.singleton_append, ofTokens, ih]
      | call function args =>
          rw [tokens, List.cons_append, ofTokens, ofTokens_arguments, ih,
            argumentsOf_tokens args (argumentsOf_flatMap_tokens rest)]

/-- What is written as segments is read as a template with these segments. -/
theorem parse_spellsAll {segments : List Segment} {source : String}
    (h : SpellsAll segments source.toList) (hapart : segments.IsChain Apart) :
    ∃ t, parse source = .ok t ∧ t.segments = segments := by
  obtain ⟨t, ht, hsegments⟩ := parse_of_tokens (tokensFrom_spellsAll h hapart)
  exact ⟨t, ht, hsegments.trans (ofTokens_flatMap_tokens segments)⟩

end Segment

namespace Template

theorem render_literal (functions : FunctionRegistry) (scope : Scope) (text : String) :
    (literal text).render functions scope = .ok text := by
  have hsegments : (literal text).segments = if text.isEmpty then [] else [.text text] := rfl
  rw [render, hsegments]
  split
  · next h => rw [String.isEmpty_iff.mp h]; rfl
  · exact congrArg Except.ok String.append_empty

/-- What is written as segments, no two texts beside each other, is read as their tokens; and
text with its percent signs doubled stands for itself. -/
theorem tokenize_written :
    (∀ segments source, segments.IsChain Segment.Apart →
      Segment.SpellsAll segments source.toList →
        tokenize source = .ok (segments.flatMap Segment.tokens))
      ∧ ∀ text, ∃ t, parse (literal text).source = .ok t
        ∧ ∀ functions scope, t.render functions scope = .ok text := by
  constructor
  · intro segments source hapart h
    rw [tokenize, Segment.tokensFrom_spellsAll h hapart]
  · intro text
    exact ⟨literal text, parse_source (literal text),
      fun functions scope => render_literal functions scope text⟩

/-- A text that looks like a script, and a literal that looks like the end of one. -/
def discount : List Segment :=
  [.text "5% %\x7boff\x7d", .call "f" [.reference "a", .literal "),\x7d"], .reference "b.[0].#"]

def discountSource : String :=
  "5%% %%\x7boff\x7d%\x7b f (\ta ,\x60),\x7d\x60\n) \x7d%\x7bb.[0].# \x7d"

theorem tokenize_written_discount :
    discount.IsChain Segment.Apart ∧ Segment.SpellsAll discount discountSource.toList
      ∧ tokenize discountSource = .ok [.text "5% %\x7boff\x7d", .functionName "f",
        .argVariable "a", .arg "),\x7d", .variableName "b.[0].#"] := by
  have hapart : discount.IsChain Segment.Apart := by decide
  have hpieces : discountSource.toList
      = escape "5% %\x7boff\x7d".toList
        ++ (('%' :: '\x7b' :: ([' '] ++ ("f".toList ++ ([' '] ++ '('
            :: ((['\t'] ++ ("a".toList ++ ([' '] ++ ','
              :: ([] ++ (('\x60' :: ("),\x7d".toList ++ ['\x60'])) ++ ['\n'])))))
            ++ ')' :: ([' '] ++ ['\x7d']))))))
        ++ (('%' :: '\x7b' :: ([] ++ ("b.[0].#".toList ++ ([' '] ++ ['\x7d'])))) ++ [])) := by
    decide
  have hspace : Blank [' '] := by decide
  have hspells : Segment.SpellsAll discount discountSource.toList := by
    rw [hpieces]
    refine .cons (.text (by decide)) (.cons (.call hspace ?_ hspace ?_ hspace) (.cons ?_ .nil))
    · decide +kernel
    · exact .cons (by decide) (.reference (by decide +kernel)) hspace (List.cons_ne_nil _ _)
        (.single blank_nil (.literal (by decide)) (by decide))
    · exact .reference blank_nil (by decide +kernel) hspace
  exact ⟨hapart, hspells, tokenize_written.1 _ _ hapart hspells⟩

end Template

end HttpSuite
