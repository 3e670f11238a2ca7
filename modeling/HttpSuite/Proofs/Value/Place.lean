import HttpSuite.Value.Basic

/-!
# Places in a value

A place is where a path of steps leads, each to a field of an object or to an item of an array.
-/

namespace HttpSuite.Value

/-- A step into a value: to a field of an object or to an item of an array. -/
inductive Step where
  | field (key : String)
  | item (index : Nat)
  deriving DecidableEq, Repr

/-- A step in writing. -/
def Step.text : Step → String
  | field key => s!".{key}"
  | item index => s!"[{index}]"

/-- Where a step leads, if it can be taken. -/
def step? : Value → Step → Option Value
  | object fields, .field key => Entries.get? fields key
  | array items, .item index => items[index]?
  | _, _ => none

/-- Where a path leads, if all of its steps can be taken. -/
def at? : Value → List Step → Option Value
  | v, [] => some v
  | v, step :: rest => (v.step? step).bind fun w => w.at? rest

theorem at?_cons {v w : Value} {step : Step} (h : v.step? step = some w) (rest : List Step) :
    v.at? (step :: rest) = w.at? rest := by
  rw [at?, h, Option.bind_some]

@[simp] theorem at?_singleton (v : Value) (step : Step) : v.at? [step] = v.step? step := by
  simp [at?]

theorem Step.text_ne_empty (step : Step) : step.text ≠ "" := by
  cases step <;> simp [text, toString]

end HttpSuite.Value
