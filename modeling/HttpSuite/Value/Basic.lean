import HttpSuite.Decimal.Shortest
import HttpSuite.OrderedMap

/-!
# Values

What a variable can hold and what a body can say: null, truth values, numbers,
texts, arrays and objects. Numbers are integers, exact over the whole range of
64-bit words of either sign, or doubles. The fields of an object keep their
order; `Value.Distinct` says of a value that no object in it has a name twice,
which every reader in this library ensures.
-/

namespace HttpSuite

/-- A number as it is written: with or without a fraction or exponent. -/
inductive Number where
  /-- An integer of at most 64 bits. -/
  | int (n : Int)
  /-- A double. -/
  | float (x : Binary64)
  deriving DecidableEq, Repr, Inhabited

/-- A value. -/
inductive Value where
  /-- Nothing. -/
  | null
  /-- A truth value. -/
  | bool (b : Bool)
  /-- A number. -/
  | number (n : Number)
  /-- A text. -/
  | string (s : String)
  /-- A list of values. -/
  | array (items : List Value)
  /-- Named values, in order. -/
  | object (fields : List (String × Value))
  deriving Inhabited

/-- The six kinds of values. -/
inductive Kind where
  | null
  | boolean
  | number
  | string
  | array
  | object
  deriving DecidableEq, Repr, Inhabited

/-- The word for a kind. -/
def Kind.name : Kind → String
  | .null => "null"
  | .boolean => "boolean"
  | .number => "number"
  | .string => "string"
  | .array => "array"
  | .object => "object"

/-- The least integer of 64 bits with a sign. -/
def Number.minSigned : Int := -(Nat.pow 2 63)

/-- The greatest integer of 64 bits with a sign. -/
def Number.maxSigned : Int := Nat.pow 2 63 - 1

/-- The greatest integer of 64 bits without a sign. -/
def Number.maxUnsigned : Int := Nat.pow 2 64 - 1

/-- A number as a double, rounded if it is an integer beyond 53 bits. -/
def Number.toBinary64 : Number → Binary64
  | .int n => (Binary64.ofInt n).getD (Binary64.zero (n < 0))
  | .float x => x

/-- Equal as numbers: integers exactly, and as doubles when either one is. -/
def Number.numEq : Number → Number → Bool
  | .int a, .int b => a == b
  | a, b => a.toBinary64.numEq b.toBinary64

/-- Equal as written: an integer is no double. -/
def Number.sameForm : Number → Number → Bool
  | .int a, .int b => a == b
  | .float a, .float b => a.numEq b
  | _, _ => false

namespace Value

/-- The kind of a value. -/
def kind : Value → Kind
  | null => .null
  | bool _ => .boolean
  | number _ => .number
  | string _ => .string
  | array _ => .array
  | object _ => .object

/-- An integer. -/
def ofInt (n : Int) : Value := number (.int n)

/-- A natural number. -/
def ofNat (n : Nat) : Value := number (.int n)

/-- Whether the value is null. -/
def isNull : Value → Bool
  | null => true
  | _ => false

mutual

/-- No object in the value has a name twice. -/
def Distinct : Value → Prop
  | array items => AllDistinct items
  | object fields => (Entries.keys fields).Nodup ∧ FieldsDistinct fields
  | _ => True

/-- `Distinct` of every item. -/
def AllDistinct : List Value → Prop
  | [] => True
  | v :: rest => Distinct v ∧ AllDistinct rest

/-- `Distinct` of every field. -/
def FieldsDistinct : List (String × Value) → Prop
  | [] => True
  | (_, v) :: rest => Distinct v ∧ FieldsDistinct rest

end

mutual

/-- Equal as values: numbers as written, objects whatever the order of their
fields. -/
def same : Value → Value → Bool
  | null, null => true
  | bool a, bool b => a == b
  | number a, number b => a.sameForm b
  | string a, string b => a == b
  | array as, array bs => sameItems as bs
  | object as, object bs => as.length == bs.length && sameFields as bs
  | _, _ => false

/-- `same`, item by item. -/
def sameItems : List Value → List Value → Bool
  | [], [] => true
  | a :: as, b :: bs => same a b && sameItems as bs
  | _, _ => false

/-- Whether every field of the first list has the same value in the second. -/
def sameFields : List (String × Value) → List (String × Value) → Bool
  | [], _ => true
  | (k, v) :: rest, bs =>
    (match Entries.get? bs k with
      | some w => same v w
      | none => false) && sameFields rest bs

end

end Value

end HttpSuite
