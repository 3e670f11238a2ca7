import HttpSuite.Regex.Matching
import HttpSuite.Regex.Sample
import HttpSuite.Text.Quoted

/-!
# Engines of regular expressions

What a regular expression is and where it matches is for an engine to say, and so is
which texts are drawn for it. Whatever reads patterns is given an engine, and the
functions of templates are given a sampler. One of each is at hand here.
-/

namespace HttpSuite

/-- What reads regular expressions. -/
structure RegexEngine where
  /-- In which texts an expression matches somewhere, or why it is none. -/
  compile : String → Except String (String → Bool)

/-- What draws texts that match regular expressions. -/
structure Sampler where
  /-- A text that matches an expression, drawn with a seed. Repetitions without a bound go
  at most so many rounds beyond their least. -/
  sample : (pattern : String) → (limit seed : Nat) → Except String String

/-- The engine that is at hand. -/
def RegexEngine.builtin : RegexEngine where
  compile source :=
    match Regex.ofText? source with
    | some regex => .ok regex.isMatch
    | none => .error "malformed expression"

/-- The sampler that is at hand. -/
def Sampler.builtin : Sampler where
  sample pattern limit seed :=
    match (Regex.ofText? pattern).bind fun r => r.sample? limit seed with
    | some text => .ok text
    | none => .error s!"can't sample pattern {Text.quoted pattern}"

end HttpSuite
