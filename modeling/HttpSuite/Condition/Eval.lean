import HttpSuite.Condition.Expr
import HttpSuite.Text.Quoted
import HttpSuite.Value.Printer

/-!
# Values of expressions

Integers are signed words of 64 bits and every operation on them is checked.
Values of different types are never equal, but integers compare with other
numbers, and texts with characters.
-/

namespace HttpSuite.Condition

/-- What an expression evaluates to. -/
inductive Operand where
  /-- An integer. -/
  | int (n : Int)
  /-- A number with a fraction or exponent. -/
  | float (x : Float)
  /-- A truth value. -/
  | bool (b : Bool)
  /-- A text. -/
  | string (s : String)
  /-- A character. -/
  | char (c : Char)
  /-- Nothing. -/
  | unit
  /-- A list. -/
  | array (items : List Operand)
  /-- Values by name. -/
  | map (fields : List (String × Operand))
  deriving Inhabited

/-- The word for the type of a value. -/
def Operand.typeName : Operand → String
  | .int _ => "i64"
  | .float _ => "f64"
  | .bool _ => "bool"
  | .string _ => "string"
  | .char _ => "char"
  | .unit => "()"
  | .array _ => "array"
  | .map _ => "map"

/-- Why an expression has no value. -/
inductive Fault where
  /-- The text is no expression. -/
  | malformed
  /-- A text is not of the form that a conversion needs. -/
  | conversion (text target : String)
  /-- A name stands for nothing. -/
  | unknownName (name : String)
  /-- No function of this name takes these values. -/
  | unknownFunction (name : String) (types : List String)
  /-- An integer would not fit. -/
  | overflow
  /-- A division by zero. -/
  | divisionByZero
  /-- A value of another type than the one needed. -/
  | notOfType (expected got : String)
  deriving DecidableEq, Repr

/-- The words for a fault. -/
def Fault.message : Fault → String
  | .malformed => "not an expression"
  | .conversion text target => s!"can't convert {Text.quoted text} to {target}"
  | .unknownName name => s!"unknown name {name}"
  | .unknownFunction name types =>
    let list := Text.joinWith ", " types
    s!"unknown function {name}({list})"
  | .overflow => "integer overflow"
  | .divisionByZero => "division by zero"
  | .notOfType expected got => s!"expected {expected}, got {got}"

/-- Refuses integers that do not fit a signed word. -/
def checkedInt (n : Int) : Except Fault Operand :=
  if Number.minSigned ≤ n ∧ n ≤ Number.maxSigned then .ok (.int n) else .error .overflow

/-- A number as text. -/
def floatText (x : Float) : String :=
  match Binary64.ofFloat? x with
  | some x => x.render FloatFormat.json
  | none => if x.isNaN then "NaN" else if x < 0 then "-inf" else "inf"

/-- The text that joins with another one, for values that have one. -/
def Operand.text? : Operand → Option String
  | .int n => some (toString n)
  | .float x => some (floatText x)
  | .bool b => some (toString b)
  | .string s => some s
  | .char c => some c.toString
  | .unit => some ""
  | .array _ | .map _ => none

/-- What an operator says about the order of two values. -/
def compareBy (op : BinaryOp) (less equal : Bool) : Option Bool :=
  match op with
  | .eq => some equal
  | .ne => some !equal
  | .lt => some less
  | .le => some (less || equal)
  | .gt => some !(less || equal)
  | .ge => some !less
  | _ => none

/-- An operator on two integers. -/
def applyInt (op : BinaryOp) (a b : Int) : Except Fault Operand :=
  match op with
  | .add => checkedInt (a + b)
  | .sub => checkedInt (a - b)
  | .mul => checkedInt (a * b)
  | .div => if b == 0 then .error .divisionByZero else checkedInt (a.tdiv b)
  | .mod =>
    if b == 0 then .error .divisionByZero
    else (checkedInt (a.tdiv b)).map fun _ => .int (a.tmod b)
  | .bitAnd => .ok (.int ((a.toInt64 &&& b.toInt64).toInt))
  | .bitOr => .ok (.int ((a.toInt64 ||| b.toInt64).toInt))
  | .bitXor => .ok (.int ((a.toInt64 ^^^ b.toInt64).toInt))
  | _ => .ok (.bool ((compareBy op (a < b) (a == b)).getD false))

/-- An operator on two numbers. -/
def applyFloat (op : BinaryOp) (a b : Float) : Except Fault Operand :=
  match op with
  | .add => .ok (.float (a + b))
  | .sub => .ok (.float (a - b))
  | .mul => .ok (.float (a * b))
  | .div => .ok (.float (a / b))
  | .mod =>
    let quotient := a / b
    .ok (.float (a - b * (if quotient < 0 then quotient.ceil else quotient.floor)))
  | .eq => .ok (.bool (a == b))
  | .ne => .ok (.bool (a != b))
  | .lt => .ok (.bool (a < b))
  | .le => .ok (.bool (a ≤ b))
  | .gt => .ok (.bool (a > b))
  | .ge => .ok (.bool (a ≥ b))
  | _ => .error (.notOfType "i64" "f64")

/-- An operator on two truth values. -/
def applyBool (op : BinaryOp) (a b : Bool) : Except Fault Operand :=
  match op with
  | .bitAnd => .ok (.bool (a && b))
  | .bitOr => .ok (.bool (a || b))
  | .bitXor => .ok (.bool (a != b))
  | _ =>
    match compareBy op (!a && b) (a == b) with
    | some r => .ok (.bool r)
    | none => .error (.notOfType "i64" "bool")

/-- A comparison of two texts. -/
def compareTexts (op : BinaryOp) (a b : List Char) : Except Fault Operand :=
  match compareBy op (decide (String.ofList a < String.ofList b)) (a == b) with
  | some r => .ok (.bool r)
  | none => .error (.notOfType "i64" "string")

/-- A number as one with a fraction. -/
def floatOfInt (n : Int) : Float := if n < 0 then -(Float.ofNat n.natAbs) else Float.ofNat n.natAbs

mutual

/-- Whether two values are equal. Values of types that have nothing to do with each
other are not. -/
def Operand.equal : Operand → Operand → Bool
  | .int a, .int b => a == b
  | .int a, .float b => floatOfInt a == b
  | .float a, .int b => a == floatOfInt b
  | .float a, .float b => a == b
  | .bool a, .bool b => a == b
  | .string a, .string b => a == b
  | .string a, .char b => a.toList.take 2 == [b]
  | .char a, .string b => [a] == b.toList.take 2
  | .char a, .char b => a == b
  | .unit, .unit => true
  | .array as, .array bs => equalItems as bs
  | .map as, .map bs => as.length == bs.length && equalFields as bs
  | _, _ => false

/-- Whether two lists are equal item by item. -/
def equalItems : List Operand → List Operand → Bool
  | [], [] => true
  | a :: as, b :: bs => a.equal b && equalItems as bs
  | _, _ => false

/-- Whether every field is equal to the one of its name. -/
def equalFields : List (String × Operand) → List (String × Operand) → Bool
  | [], _ => true
  | (name, a) :: as, bs => (bs.lookup name).any (fun b => a.equal b) && equalFields as bs

end

/-- The value of an operator between two values. -/
def applyBinary (op : BinaryOp) (a b : Operand) : Except Fault Operand :=
  let mismatch := .error (.notOfType a.typeName b.typeName)
  match op, a, b with
  | op, .int a, .int b => applyInt op a b
  | op, .int a, .float b => applyFloat op (floatOfInt a) b
  | op, .float a, .int b => applyFloat op a (floatOfInt b)
  | op, .float a, .float b => applyFloat op a b
  | op, .bool a, .bool b => applyBool op a b
  | .eq, a, b => .ok (.bool (a.equal b))
  | .ne, a, b => .ok (.bool !(a.equal b))
  | .add, .string a, b => b.text?.elim mismatch fun t => .ok (.string (a ++ t))
  | .add, a, .string b => a.text?.elim mismatch fun t => .ok (.string (t ++ b))
  | .add, .char a, .char b => .ok (.string (String.ofList [a, b]))
  | .add, .array a, .array b => .ok (.array (a ++ b))
  | op, .string a, .string b => compareTexts op a.toList b.toList
  | op, .string a, .char b => compareTexts op (a.toList.take 2) [b]
  | op, .char a, .string b => compareTexts op [a] (b.toList.take 2)
  | op, .char a, .char b => compareTexts op [a] [b]
  | _, _, _ => mismatch

/-- The value of an operator before a value. -/
def applyUnary (op : UnaryOp) (a : Operand) : Except Fault Operand :=
  match op, a with
  | .not, .bool b => .ok (.bool !b)
  | .minus, .int n => checkedInt (-n)
  | .minus, .float x => .ok (.float (-x))
  | .plus, .int n => .ok (.int n)
  | .plus, .float x => .ok (.float x)
  | .not, a => .error (.notOfType "bool" a.typeName)
  | _, a => .error (.notOfType "i64" a.typeName)

/-- The integer that a text says, blanks aside. -/
def intOfText? (s : String) : Option Int :=
  let n? := match Text.trimBy Text.isWhitespace s.toList with
    | '-' :: ds => (Text.digitsValue? 10 ds).map fun n => -(n : Int)
    | '+' :: ds => (Text.digitsValue? 10 ds).map Int.ofNat
    | ds => (Text.digitsValue? 10 ds).map Int.ofNat
  n?.filter fun n => Number.minSigned ≤ n && n ≤ Number.maxSigned

/-- The truth value that a text says. -/
def boolOfText? (s : String) : Option Bool :=
  if ["1", "t", "T", "true", "TRUE", "True"].contains s then some true
  else if ["0", "f", "F", "false", "FALSE", "False"].contains s then some false
  else none

/-- The value of a call. There are two functions, which turn texts into integers and
truth values. -/
def applyCall (function : String) (args : List Operand) : Except Fault Operand :=
  match function, args with
  | "int", [.int n] => .ok (.int n)
  | "int", [.string s] =>
    (intOfText? s).elim (.error (.conversion s "int")) fun n => .ok (.int n)
  | "bool", [.bool b] => .ok (.bool b)
  | "bool", [.string s] =>
    (boolOfText? s).elim (.error (.conversion s "bool")) fun b => .ok (.bool b)
  | _, _ => .error (.unknownFunction function (args.map Operand.typeName))

/-- A value that must be a truth value. -/
def Operand.truth : Operand → Except Fault Bool
  | .bool b => .ok b
  | a => .error (.notOfType "bool" a.typeName)

mutual

/-- The value of an expression, where names stand for texts. -/
def Expr.eval (names : String → Option String) : Expr → Except Fault Operand
  | .int n => .ok (.int n)
  | .float x => .ok (.float x.toFloat)
  | .string s => .ok (.string s)
  | .char c => .ok (.char c)
  | .bool b => .ok (.bool b)
  | .unit => .ok .unit
  | .name s => (names s).elim (.error (.unknownName s)) fun text => .ok (.string text)
  | .unary op e => do applyUnary op (← e.eval names)
  | .binary op a b => do
    let left ← a.eval names
    let right ← b.eval names
    applyBinary op left right
  | .both a b => do
    if ← (← a.eval names).truth then return .bool (← (← b.eval names).truth)
    else return .bool false
  | .either a b => do
    if ← (← a.eval names).truth then return .bool true
    else return .bool (← (← b.eval names).truth)
  | .call function args => do applyCall function (← evalAll names args)
  | .choose condition yes no => do
    if ← (← condition.eval names).truth then yes.eval names else no.eval names
  | .array items => do return .array (← evalAll names items)
  | .map keys values => do return .map (keys.zip (← evalAll names values))

/-- The values of expressions, in order. -/
def evalAll (names : String → Option String) : List Expr → Except Fault (List Operand)
  | [] => .ok []
  | e :: es => do
    let v ← e.eval names
    return v :: (← evalAll names es)

end

end HttpSuite.Condition
