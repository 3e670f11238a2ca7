import HttpSuite.Config.Spec

/-!
# Suites that make sense

What a suite that could be read must still satisfy before any of it is run. All
violations are found, and each is told in a line.
-/

namespace HttpSuite

/-- What is wrong with a context or a case. -/
inductive Violation where
  /-- One of the two halves of a validated flow is empty. -/
  | halfEmpty (index : Nat)
  /-- A presetter has no name. -/
  | unnamedPresetter (index : Nat)
  /-- A cleaner has no name. -/
  | unnamedCleaner (index : Nat)
  /-- An exported variable has no name. -/
  | unnamedExport (index : Nat)
  /-- Two variables are exported under one name. -/
  | exportedTwice (name : String)
  /-- A variable taken from a response has no name. -/
  | unnamedDefinition (roundTrip index : Nat)
  deriving DecidableEq, Repr

/-- The words for a violation. -/
def Violation.message : Violation → String
  | .halfEmpty i => s!"validatedFlow[{i}]: constructor and validator should not be empty"
  | .unnamedPresetter i => s!"presetters[{i}]: name should not be empty"
  | .unnamedCleaner i => s!"cleaners[{i}]: name should not be empty"
  | .unnamedExport i => s!"exports[{i}]: name should not be empty"
  | .exportedTwice name => s!"can't export var {name} twice"
  | .unnamedDefinition i j => s!"flow[{i}].definitions[{j}]: name should not be empty"

/-- The words for violations, a line for each. -/
def Violation.messages (vs : List Violation) : String :=
  Text.joinWith "\n" (vs.map Violation.message)

/-- The violations among exported variables, from an index on, where the names in
`taken` are exported already. -/
def exportViolations (index : Nat) (taken : List String) : List ExportSpec → List Violation
  | [] => []
  | e :: rest =>
    if e.name.isEmpty then .unnamedExport index :: exportViolations (index + 1) taken rest
    else if taken.contains e.name then
      .exportedTwice e.name :: exportViolations (index + 1) taken rest
    else exportViolations (index + 1) (e.name :: taken) rest

/-- The violations found by a test of each item and its index. -/
def indexed {α : Type} (test : α → Bool) (violation : Nat → Violation) (as : List α) :
    List Violation :=
  (as.zipIdx.filter fun e => test e.1).map fun e => violation e.2

/-- The violations of a context. -/
def ContextSpec.violations (c : ContextSpec) : List Violation :=
  indexed (fun f => f.constructor.isEmpty || f.validator.isEmpty) .halfEmpty c.validatedFlow
    ++ indexed (fun p => p.name.isEmpty) .unnamedPresetter c.presetters
    ++ indexed (fun p => p.name.isEmpty) .unnamedCleaner c.cleaners
    ++ exportViolations 0 [] c.exports

/-- The violations of a case. -/
def CaseSpec.violations (c : CaseSpec) : List Violation :=
  c.flow.zipIdx.flatMap fun e =>
    indexed (fun d => d.name.isEmpty) (Violation.unnamedDefinition e.2) e.1.definitions

end HttpSuite
