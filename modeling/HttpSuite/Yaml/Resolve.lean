import HttpSuite.Value.Printer
import HttpSuite.Yaml.Node

/-!
# What plain scalars say

A scalar without quotes is null, a truth value or a number if it is spelt like
one, and otherwise a text. Integers may be written in base two, eight or sixteen;
a decimal one must not begin with a zero. A number that no 64-bit word or finite
double can hold is told apart, because no value can hold it either.
-/

namespace HttpSuite.Yaml

/-- What a scalar says. -/
inductive Meaning where
  /-- A value. -/
  | value (v : Value)
  /-- Infinity, or no number at all. -/
  | notFinite
  /-- An integer of more than 64 bits. -/
  | wide
  deriving Inhabited

/-- The words for null. -/
def isNullWord (s : String) : Bool := s == "null" || s == "Null" || s == "NULL" || s == "~"

/-- The truth value of a word. -/
def truthWord? (s : String) : Option Bool :=
  if s == "true" || s == "True" || s == "TRUE" then some true
  else if s == "false" || s == "False" || s == "FALSE" then some false
  else none

/-- Whether a sign stands at the front. -/
def isSigned (s : List Char) : Bool := s.head? == some '+' || s.head? == some '-'

/-- The rest behind a plus sign, or all. -/
def dropPlus : List Char → List Char
  | '+' :: rest => rest
  | s => s

/-- Decimal digits that begin with a zero and are more than one. -/
def hasLeadingZero (s : List Char) : Bool :=
  let digits := if isSigned s then s.tail else s
  digits.length > 1 && digits.head? == some '0' && digits.all Char.isDigit

/-- The number that digits behind a mark for their base write, if it is below a
bound. -/
def basedNat? (bound : Nat) (s : List Char) : Option Nat :=
  let digits (base : Nat) (rest : List Char) := (Text.digitsValue? base rest).filter (· < bound)
  match s with
  | '0' :: 'x' :: rest => digits 16 rest
  | '0' :: 'o' :: rest => digits 8 rest
  | '0' :: 'b' :: rest => digits 2 rest
  | _ => none

/-- The integer without a minus sign that a text writes, if it is below a bound. -/
def natural? (bound : Nat) (s : List Char) : Option Nat :=
  let unsigned := dropPlus s
  match basedNat? bound unsigned with
  | some n => some n
  | none =>
    if isSigned unsigned || hasLeadingZero s then none
    else (Text.digitsValue? 10 unsigned).filter (· < bound)

/-- The size of the integer with a minus sign that a text writes, if it is not
above a bound. -/
def negative? (bound : Nat) (s : List Char) : Option Nat :=
  match s with
  | '-' :: rest =>
    match basedNat? (bound + 1) rest with
    | some n => some n
    | none =>
      if hasLeadingZero s then none else (Text.digitsValue? 10 rest).filter (· ≤ bound)
  | _ => none

/-- The digits at the front, and the rest. -/
def spanDigits (s : List Char) : List Char × List Char :=
  (s.takeWhile Char.isDigit, s.dropWhile Char.isDigit)

/-- The exponent that a text is, from its letter on; zero if it is empty. -/
def exponent? (s : List Char) : Option Int :=
  match s with
  | [] => some 0
  | e :: rest =>
    if e != 'e' && e != 'E' then none
    else
      let minus := rest.head? == some '-'
      let digits := if isSigned rest then rest.tail else rest
      (Text.digitsValue? 10 digits).bind fun n =>
        if digits.all Char.isDigit then some (if minus then -(n : Int) else n) else none

/-- The double that a text writes with digits, perhaps a point, and perhaps an
exponent, if it is finite. -/
def decimal? (s : List Char) : Option Binary64 := do
  let minus := s.head? == some '-'
  let (whole, rest) := spanDigits (if isSigned s then s.tail else s)
  let (fraction, rest) :=
    match rest with
    | '.' :: rest => spanDigits rest
    | rest => ([], rest)
  let n ← Text.digitsValue? 10 (whole ++ fraction)
  let e ← exponent? rest
  Binary64.ofDecimal minus n (e - fraction.length)

/-- What a text says as a number with a fraction or exponent, or as one of the
words for what is not finite. -/
def double? (s : String) : Option Meaning :=
  let unsigned := dropPlus s.toList
  if s.startsWith "+" && isSigned unsigned then none
  else
    let word := String.ofList unsigned
    if [".inf", ".Inf", ".INF"].contains word || ["-.inf", "-.Inf", "-.INF"].contains s
      || [".nan", ".NaN", ".NAN"].contains s then some .notFinite
    else (decimal? unsigned).map fun x => .value (.number (.float x))

/-- What a text says as an integer. -/
def integer? (s : String) : Option Meaning :=
  let chars := s.toList
  match natural? (Nat.pow 2 64) chars with
  | some n => some (.value (.ofNat n))
  | none =>
    match negative? (Nat.pow 2 63) chars with
    | some n => some (.value (.ofInt (-(n : Int))))
    | none =>
      if (natural? (Nat.pow 2 128) chars).isSome || (negative? (Nat.pow 2 127) chars).isSome then
        some .wide
      else none

/-- What a plain scalar says. -/
def plainMeaning (s : String) : Meaning :=
  if s.isEmpty || isNullWord s then .value .null
  else
    match truthWord? s with
    | some b => .value (.bool b)
    | none =>
      match integer? s with
      | some m => m
      | none =>
        let number := if hasLeadingZero s.toList then none else double? s
        number.getD (.value (.string s))

/-- The tags of the standard that ask for a kind of scalar begin so. -/
def standardTag (name : String) : String := "tag:yaml.org,2002:" ++ name

/-- What a scalar says; none if it is not what its tag asks for, or if the tag is
one of the document's own. -/
def meaning? (tag : Option String) (style : ScalarStyle) (s : String) : Option Meaning :=
  match tag with
  | none => if style == .plain then some (plainMeaning s) else some (.value (.string s))
  | some tag =>
    if tag == standardTag "bool" then (truthWord? s).map fun b => .value (.bool b)
    else if tag == standardTag "int" then integer? s
    else if tag == standardTag "float" then double? s
    else if tag == standardTag "null" then if isNullWord s then some (.value .null) else none
    else if tag.startsWith "!" then none
    else some (.value (.string s))

namespace Node

/-- Whether a tag is one of the document's own. -/
def isOwnTag (tag : Option String) : Bool := tag.any (·.startsWith "!")

/-- The value that a meaning is; what is not finite becomes null. -/
def ofMeaning : Meaning → Option Value
  | .value v => some v
  | .notFinite => some .null
  | .wide => none

/-- The text of a key. With `anyKey` every scalar is one, and otherwise only those
that say a text. -/
def keyText? (anyKey : Bool) : Node → Option String
  | scalar tag style s =>
    if anyKey then some s
    else
      match meaning? tag style s with
      | some (.value (.string s)) => some s
      | _ => none
  | _ => none

mutual

/-- The value that a node says, if it says one. -/
def value? (anyKey : Bool) : Node → Option Value
  | void => some .null
  | scalar tag style s => (meaning? tag style s).bind ofMeaning
  | sequence tag items =>
    if isOwnTag tag then none else (values? anyKey items).map .array
  | mapping tag entries =>
    if isOwnTag tag then none
    else (fields? anyKey entries).map fun fs => .object (Entries.ofPairs fs)
  | broken => none

/-- The values of items. -/
def values? (anyKey : Bool) : List Node → Option (List Value)
  | [] => some []
  | n :: rest => do
    let v ← value? anyKey n
    let vs ← values? anyKey rest
    return v :: vs

/-- The fields of entries. -/
def fields? (anyKey : Bool) : List (Node × Node) → Option (List (String × Value))
  | [] => some []
  | (k, n) :: rest => do
    let key ← keyText? anyKey k
    let v ← value? anyKey n
    let fs ← fields? anyKey rest
    return (key, v) :: fs

end

mutual

/-- The node that says a value. -/
def ofValue : Value → Node
  | .string s => scalar none .quoted s
  | .array items => sequence none (ofValues items)
  | .object fields => mapping none (ofFields fields)
  | .null => scalar none .plain "null"
  | .bool b => scalar none .plain (if b then "true" else "false")
  | .number n => scalar none .plain n.render

/-- The nodes of items. -/
def ofValues : List Value → List Node
  | [] => []
  | v :: rest => ofValue v :: ofValues rest

/-- The entries of fields. -/
def ofFields : List (String × Value) → List (Node × Node)
  | [] => []
  | (k, v) :: rest => (scalar none .quoted k, ofValue v) :: ofFields rest

end

end Node

end HttpSuite.Yaml
