import HttpSuite.Regex.Parser

/-!
# Texts that match a regular expression

A sample of a regular expression is drawn with a sequence of numbers that looks
random and is fixed by a seed. Repetitions without a bound go at most a given
number of rounds beyond their least. Conditions on positions cannot be sampled.
-/

namespace HttpSuite.Regex

/-- The next number of the sequence: a linear congruence on 64 bits. -/
def nextSeed (seed : Nat) : Nat := (seed * 6364136223846793005 + 1442695040888963407) % Nat.pow 2 64

/-- A number below a bound other than zero, and the next seed. -/
def pick (bound seed : Nat) : Nat × Nat :=
  let seed := nextSeed seed
  (seed / Nat.pow 2 16 % bound, seed)

mutual

/-- Whether there are no conditions on positions, and every set of characters
has some. -/
def samplable : Regex → Bool
  | empty => true
  | chars set => set.size > 0
  | look _ => false
  | cat parts => allSamplable parts
  | alt arms => allSamplable arms
  | rep body _ _ => samplable body

/-- `samplable` of all. -/
def allSamplable : List Regex → Bool
  | [] => true
  | r :: rest => samplable r && allSamplable rest

end

/-- Draws `n` times and joins what is drawn. -/
def drawTimes (draw : Nat → List Char × Nat) : Nat → Nat → List Char × Nat
  | 0, seed => ([], seed)
  | n + 1, seed =>
    let (cs, seed) := draw seed
    let (more, seed) := drawTimes draw n seed
    (cs ++ more, seed)

mutual

/-- A text that matches, and the next seed. -/
def draw (limit : Nat) : Regex → Nat → List Char × Nat
  | empty, seed => ([], seed)
  | chars set, seed =>
    let (i, seed) := pick (max 1 set.size) seed
    ((Text.CharSet.nth? set.ranges i).toList, seed)
  | look _, seed => ([], seed)
  | cat parts, seed => drawAll limit parts seed
  | alt arms, seed =>
    let (i, seed) := pick (max 1 arms.length) seed
    drawNth limit arms i seed
  | rep body least most, seed =>
    let span := match most with
      | some most => most - least
      | none => limit
    let (extra, seed) := pick (span + 1) seed
    drawTimes (fun seed => draw limit body seed) (least + extra) seed

/-- One text after another. -/
def drawAll (limit : Nat) : List Regex → Nat → List Char × Nat
  | [], seed => ([], seed)
  | r :: rest, seed =>
    let (cs, seed) := draw limit r seed
    let (more, seed) := drawAll limit rest seed
    (cs ++ more, seed)

/-- A text of the arm at a place. -/
def drawNth (limit : Nat) : List Regex → Nat → Nat → List Char × Nat
  | [], _, seed => ([], seed)
  | r :: _, 0, seed => draw limit r seed
  | _ :: rest, i + 1, seed => drawNth limit rest i seed

end

/-- A text that matches, drawn with a seed. -/
def sample? (r : Regex) (limit seed : Nat) : Option String :=
  if r.samplable then some (String.ofList (r.draw limit seed).1) else none

end HttpSuite.Regex
