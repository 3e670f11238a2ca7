import HttpSuite.Duration

/-!
# Reports

How the cases of a run ended, in the order in which they were planned.
-/

namespace HttpSuite

/-- How a case ended. -/
inductive Outcome where
  /-- Everything was as expected. -/
  | passed
  /-- Something was not. -/
  | failed (message : String)
  /-- It was left out. -/
  | skipped
  deriving DecidableEq, Repr, Inhabited

namespace Outcome

/-- Whether a case passed. -/
def isPassed : Outcome → Bool
  | passed => true
  | _ => false

/-- What a failed case says. -/
def message? : Outcome → Option String
  | failed message => some message
  | _ => none

/-- Whether a case was left out. -/
def isSkipped : Outcome → Bool
  | skipped => true
  | _ => false

/-- The word for how a case ended. -/
def word : Outcome → String
  | passed => "ok"
  | failed _ => "FAILED"
  | skipped => "skipped"

end Outcome

/-- The name of a case: what is around it from the outermost folder on, and itself. -/
def breadcrumbName (breadcrumb : List String) : String := Text.joinWith " / " breadcrumb

/-- How one case ended. -/
structure CaseReport where
  /-- What is around it from the outermost folder on, and itself. -/
  breadcrumb : List String
  /-- How it ended. -/
  outcome : Outcome
  /-- How long it took. -/
  duration : Duration
  deriving DecidableEq, Inhabited

/-- The name of the case. -/
def CaseReport.name (c : CaseReport) : String := breadcrumbName c.breadcrumb

/-- How all cases ended. -/
structure Report where
  /-- The cases, in order. -/
  cases : List CaseReport := []
  deriving DecidableEq, Inhabited

namespace Report

/-- The report with one more case. -/
def push (report : Report) (c : CaseReport) : Report := ⟨report.cases ++ [c]⟩

/-- How many cases ended in a way. -/
def count (report : Report) (p : Outcome → Bool) : Nat :=
  (report.cases.filter fun c => p c.outcome).length

/-- How many cases passed. -/
def passed (report : Report) : Nat := report.count Outcome.isPassed

/-- How many cases failed. -/
def failed (report : Report) : Nat := report.count fun o => o.message?.isSome

/-- How many cases were left out. -/
def skipped (report : Report) : Nat := report.count Outcome.isSkipped

/-- Whether no case failed. -/
def isSuccess (report : Report) : Bool := report.failed == 0

/-- The failed cases, and what they say. -/
def failures (report : Report) : List (CaseReport × String) :=
  report.cases.filterMap fun c => c.outcome.message?.map fun message => (c, message)

/-- The numbers in a line. -/
def summary (report : Report) : String :=
  s!"{report.passed} passed, {report.failed} failed, {report.skipped} skipped"

/-- The report for people: a line for every case, then what the failed ones say, then
the numbers. -/
def render (report : Report) : String :=
  let caseLine (c : CaseReport) :=
    s!"{c.name} ... {c.outcome.word} ({c.duration.compact})\n"
  let failure (c : CaseReport) (message : String) :=
    s!"\n---- {c.name} ----\n"
      ++ String.join ((Text.lines message).map fun line => "  " ++ line ++ "\n")
  String.join (report.cases.map caseLine)
    ++ String.join (report.failures.map fun (c, message) => failure c message)
    ++ "\n" ++ report.summary

end Report

end HttpSuite
