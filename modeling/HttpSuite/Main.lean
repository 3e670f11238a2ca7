import HttpSuite.CommandLine
import HttpSuite.Http.Script

/-!
# The program

Reads one JSON object: the arguments, the environment, the files, the time, and the
script of the service that the suite is run against. Without a script no service can be
reached.
-/

namespace HttpSuite.Program

/-- The files of an object of paths and texts. -/
def filesOf (v : Value) : FileTree := .ofFiles v.textMap.toList

/-- The service of a list of rules, if there is one. -/
def serviceOf : Option Value → Service
  | none => .unreachable
  | some v => .scripted ((v.items.toOption.getD []).map ServiceRule.ofValue)

/-- How the program ends with what was read. -/
def run (chance : Chance) (input : Value) : CommandLine.Ending :=
  let args := (input.itemsField "args").filterMap fun v => v.text.toOption
  let around := ((input.field? "environ").getD .null).textMap
  let files := filesOf ((input.field? "files").getD .null)
  (CommandLine.run args around files (serviceOf (input.field? "service")) chance {}).1

end HttpSuite.Program

/-- Runs the program on what is read from the standard input. -/
def main : IO UInt32 := do
  let stdin ← IO.getStdin
  let input ← stdin.getLine
  let seed ← IO.rand 0 (Nat.pow 2 32)
  match HttpSuite.Value.ofJson? input with
  | none => return 2
  | some v =>
    let ending := HttpSuite.Program.run ⟨seed, (v.natField? "time").getD 0⟩ v
    IO.print ending.output
    IO.eprint ending.complaint
    return UInt32.ofNat ending.code
