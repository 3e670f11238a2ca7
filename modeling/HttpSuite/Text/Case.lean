import HttpSuite.Text.CaseTable

/-!
# Letter case

Upper and lower case for all scripts, and the case variants of a character.
Two characters are variants of each other when they fold to the same
representative.
-/

namespace HttpSuite.Text

/-- The characters of a list of code points. -/
private def charsOf (ns : List Nat) : List Char := ns.map Char.ofNat

/-- One character in upper case, which may be several characters. -/
def upperChars (c : Char) : List Char :=
  if c.toNat < 128 then [c.toUpper]
  else
    match Runs.find? Prod.fst CaseTable.upperLong c.toNat with
    | some (n, long) =>
      if n == c.toNat then charsOf long else [Char.ofNat (Runs.shift CaseTable.upper c.toNat)]
    | none => [Char.ofNat (Runs.shift CaseTable.upper c.toNat)]

/-- One character in lower case, which may be several characters. -/
def lowerChars (c : Char) : List Char :=
  if c.toNat < 128 then [c.toLower]
  else
    match Runs.find? Prod.fst CaseTable.lowerLong c.toNat with
    | some (n, long) =>
      if n == c.toNat then charsOf long else [Char.ofNat (Runs.shift CaseTable.lower c.toNat)]
    | none => [Char.ofNat (Runs.shift CaseTable.lower c.toNat)]

/-- A text in upper case. -/
def toUpper (s : String) : String := String.ofList (s.toList.flatMap upperChars)

/-- The representative of all case variants of a character. -/
def foldChar (c : Char) : Char := Char.ofNat (Runs.shift CaseTable.fold c.toNat)

/-- All case variants of a character, itself among them. -/
def caseVariants (c : Char) : List Char :=
  let f := foldChar c
  f :: (Runs.sources CaseTable.fold f.toNat).map Char.ofNat

end HttpSuite.Text
