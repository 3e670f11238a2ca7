import HttpSuite.Condition.Engine
import HttpSuite.Regex.Engine

/-!
# Engines

What a suite leaves to others: the evaluation of conditions, the reading of regular
expressions, and the drawing of texts that match them.
-/

namespace HttpSuite

/-- The engines of a suite. -/
structure Engines where
  /-- What evaluates conditions. -/
  conditions : ConditionEngine
  /-- What reads the regular expressions of patterns. -/
  regexes : RegexEngine
  /-- What templates draw texts with. -/
  samples : Sampler

/-- The engines that are at hand. -/
def Engines.builtin : Engines := ⟨.builtin, .builtin, .builtin⟩

end HttpSuite
