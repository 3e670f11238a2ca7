import HttpSuite.Value.Error

/-!
# Paths into values

A path is a list of segments. In an object a segment is a key; in an array it is
an index, bare or in brackets; and `#` stands for the length of what has been
reached. As text, segments are separated by points or commas, and an index may
be glued to the key before it, as in `rows[0][1]`.
-/

namespace HttpSuite

/-- The segments of a path. -/
abbrev Path := List String

namespace Path

/-- The segment for the length of an array or object. -/
def lengthSegment : String := "#"

/-- Cuts a text behind every closing bracket. -/
def cutAfterBrackets : List Char → List (List Char)
  | [] => []
  | c :: rest =>
    if c == ']' then [c] :: cutAfterBrackets rest
    else
      match cutAfterBrackets rest with
      | [] => [[c]]
      | piece :: pieces => (c :: piece) :: pieces

/-- The segments of the text between two separators: a key, and the indexes
glued to it. A text that begins with a bracket is one segment. -/
def partSegments (part : List Char) : List (List Char) :=
  let key := part.takeWhile (· != '[')
  let indexes := part.dropWhile (· != '[')
  if key.isEmpty then [part] else key :: cutAfterBrackets indexes

/-- The segments that a text writes. Blanks around a segment do not count, and
neither do empty segments. -/
def parse (text : String) : Path :=
  let parts := (Text.splitBy (fun c => c == '.' || c == ',') text.toList).map
    (Text.trimBy Text.isWhitespace)
  ((parts.filter fun part => !part.isEmpty).flatMap partSegments).map String.ofList

/-- The index that a segment writes, bare or in brackets. -/
def index? (segment : String) : Option Nat :=
  let chars := segment.toList
  let inner :=
    match chars with
    | '[' :: rest => if rest.getLast? == some ']' then rest.dropLast else chars
    | _ => chars
  Text.natBelow? (Nat.pow 2 64) (Text.trimBy Text.isWhitespace inner)

end Path

namespace Value

/-- The number of items of an array or of fields of an object. -/
def length : Value → Except VariableError Nat
  | array items => .ok items.length
  | object fields => .ok fields.length
  | v => .error (.notMeasurable v.kind)

/-- What a path leads to. -/
def select : Value → Path → Except VariableError Value
  | v, [] => .ok v
  | v, segment :: rest =>
    if segment == Path.lengthSegment then
      match v.length with
      | .ok n => select (ofNat n) rest
      | .error e => .error e
    else
      match v with
      | object fields =>
        match Entries.get? fields segment with
        | some field => select field rest
        | none => .error (.missingKey segment)
      | array items =>
        match Path.index? segment with
        | none => .error (.invalidIndex segment)
        | some i =>
          match items[i]? with
          | some item => select item rest
          | none => .error (.outOfRange i items.length)
      | v => .error (.notTraversable segment v.kind)

/-- The text of a text. -/
def text : Value → Except VariableError String
  | string s => .ok s
  | v => .error (.typeMismatch (.kind .string) v.kind)

/-- The integer of a number; one that is written with a fraction or does not
fit a signed word is refused. -/
def integer : Value → Except VariableError Int
  | number (.int n) =>
    if Number.minSigned ≤ n ∧ n ≤ Number.maxSigned then .ok n
    else .error (.typeMismatch .integer .number)
  | v => .error (.typeMismatch .integer v.kind)

/-- The double nearest to a number. -/
def double : Value → Except VariableError Binary64
  | number n => .ok n.toBinary64
  | v => .error (.typeMismatch (.kind .number) v.kind)

/-- The truth value of a truth value. -/
def truth : Value → Except VariableError Bool
  | bool b => .ok b
  | v => .error (.typeMismatch (.kind .boolean) v.kind)

/-- The items of an array. -/
def items : Value → Except VariableError (List Value)
  | array vs => .ok vs
  | v => .error (.typeMismatch (.kind .array) v.kind)

/-- The fields of an object. -/
def fields : Value → Except VariableError (List (String × Value))
  | object fs => .ok fs
  | v => .error (.typeMismatch (.kind .object) v.kind)

end Value

end HttpSuite
