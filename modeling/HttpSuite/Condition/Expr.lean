import HttpSuite.Condition.Token

/-!
# Expressions of conditions

Operators bind in six strengths. All of them group to the left, the ones before an
operand bind strongest. The parser returns what is left of the tokens with a proof
that some were used, and the recursion is on their number.
-/

namespace HttpSuite.Condition

/-- The operators between two operands that are always both evaluated. -/
inductive BinaryOp where
  | add
  | sub
  | mul
  | div
  | mod
  | eq
  | ne
  | lt
  | le
  | gt
  | ge
  | bitAnd
  | bitOr
  | bitXor
  deriving DecidableEq, Repr

/-- The operators before an operand. -/
inductive UnaryOp where
  | plus
  | minus
  | not
  deriving DecidableEq, Repr

/-- An expression. -/
inductive Expr where
  /-- An integer. -/
  | int (n : Int)
  /-- A number with a fraction or exponent. -/
  | float (x : Binary64)
  /-- A text. -/
  | string (s : String)
  /-- A character. -/
  | char (c : Char)
  /-- A truth value. -/
  | bool (b : Bool)
  /-- The value of nothing. -/
  | unit
  /-- A name. -/
  | name (s : String)
  /-- An operator before an operand. -/
  | unary (op : UnaryOp) (e : Expr)
  /-- An operator between operands. -/
  | binary (op : BinaryOp) (a b : Expr)
  /-- Both are true; the second is looked at only if the first is. -/
  | both (a b : Expr)
  /-- One is true; the second is looked at only if the first is not. -/
  | either (a b : Expr)
  /-- A call. -/
  | call (function : String) (args : List Expr)
  /-- A choice between two values. -/
  | choose (condition yes no : Expr)
  /-- A list of values. -/
  | array (items : List Expr)
  /-- Values by name. -/
  | map (names : List String) (values : List Expr)
  deriving Inhabited, Repr

/-- What stands between two operands. -/
inductive Infix where
  /-- An operator that takes both values. -/
  | op (binary : BinaryOp)
  /-- The lazy "and". -/
  | both
  /-- The lazy "or". -/
  | either
  deriving DecidableEq, Repr

/-- The operator that a symbol is, and how strongly it binds. -/
def infix? (symbol : String) : Option (Infix × Nat) :=
  [("||", (.either, 1)), ("|", (.op .bitOr, 1)), ("^", (.op .bitXor, 1)), ("&&", (.both, 2)),
    ("&", (.op .bitAnd, 2)), ("==", (.op .eq, 3)), ("!=", (.op .ne, 3)), ("<", (.op .lt, 4)),
    ("<=", (.op .le, 4)), (">", (.op .gt, 4)), (">=", (.op .ge, 4)), ("+", (.op .add, 5)),
    ("-", (.op .sub, 5)), ("*", (.op .mul, 6)), ("/", (.op .div, 6)),
    ("%", (.op .mod, 6))].lookup symbol

/-- An expression with an operator in the middle. -/
def Infix.apply : Infix → Expr → Expr → Expr
  | .op binary, a, b => .binary binary a b
  | .both, a, b => .both a b
  | .either, a, b => .either a b

/-- The operator before an operand that a symbol is. -/
def unary? (symbol : String) : Option UnaryOp :=
  [("+", .plus), ("-", .minus), ("!", .not)].lookup symbol

namespace Parser

/-- What is left of the tokens, fewer than `n` of them. -/
abbrev Rest (n : Nat) := { r : List Token // r.length < n }

/-- The same rest under a greater bound. -/
def Rest.weaken {n m : Nat} (r : Rest n) (h : n ≤ m) : Rest m := ⟨r.1, by omega⟩

/-- What is left behind a token. -/
def after? (token : Token) (ts : List Token) : Option (Rest ts.length) :=
  match ts with
  | [] => none
  | t :: rest => if t == token then some ⟨rest, by simp⟩ else none

/-- What is left behind a mark that must come next. -/
def expect (mark : String) {n : Nat} (r : Rest n) : Option (Rest n) :=
  (after? (.symbol mark) r.1).map fun q => q.weaken (Nat.le_of_lt r.2)

/-- The operator at the front, its strength, and what is left behind it. -/
def nextInfix? (ts : List Token) : Option (Infix × Nat × Rest ts.length) :=
  match ts with
  | .symbol s :: rest => (infix? s).map fun (op, strength) => (op, strength, ⟨rest, by simp⟩)
  | _ => none

mutual

/-- An operand: a value, a name, a call, a choice, or something in brackets. -/
def operand (ts : List Token) : Option (Expr × Rest ts.length) :=
  match ts with
  | [] => none
  | .int n :: rest => some (.int n, ⟨rest, by simp⟩)
  | .float x :: rest => some (.float x, ⟨rest, by simp⟩)
  | .string s :: rest => some (.string s, ⟨rest, by simp⟩)
  | .char c :: rest => some (.char c, ⟨rest, by simp⟩)
  | .word w :: rest =>
    if w == "true" then some (.bool true, ⟨rest, by simp⟩)
    else if w == "false" then some (.bool false, ⟨rest, by simp⟩)
    else if w == "if" then (choice rest).map fun (e, r) => (e, r.weaken (by simp))
    else if w == "else" || reserved.contains w then none
    else
      match after? (.symbol "(") rest with
      | some ⟨more, h⟩ =>
        (sequence ")" more).map fun (args, r) => (.call w args, r.weaken (by simp; omega))
      | none => some (.name w, ⟨rest, by simp⟩)
  | .symbol s :: rest =>
    match unary? s with
    | some op => (operand rest).map fun (e, r) => (.unary op e, r.weaken (by simp))
    | none =>
      if s == "(" then
        match after? (.symbol ")") rest with
        | some ⟨more, h⟩ => some (.unit, ⟨more, by simp; omega⟩)
        | none =>
          match expression 0 rest with
          | none => none
          | some (e, r) => (expect ")" r).map fun r => (e, r.weaken (by simp))
      else if s == "[" then
        (sequence "]" rest).map fun (items, r) => (.array items, r.weaken (by simp))
      else if s == "#\x7b" then
        (fields rest).map fun (entries, r) =>
          (.map (entries.map Prod.fst) (entries.map Prod.snd), r.weaken (by simp))
      else none
termination_by 4 * ts.length

/-- An expression whose operators all bind stronger than `strength`. -/
def expression (strength : Nat) (ts : List Token) : Option (Expr × Rest ts.length) :=
  match operand ts with
  | none => none
  | some (e, ⟨r, h⟩) =>
    match continued strength e r with
    | (e, ⟨r, h'⟩) => some (e, ⟨r, by omega⟩)
termination_by 4 * ts.length + 1

/-- What an expression becomes with the operators behind it. -/
def continued (strength : Nat) (left : Expr) (ts : List Token) :
    Expr × { r : List Token // r.length ≤ ts.length } :=
  match nextInfix? ts with
  | none => (left, ⟨ts, by omega⟩)
  | some (op, binding, ⟨rest, hrest⟩) =>
    if strength < binding then
      match expression binding rest with
      | none => (left, ⟨ts, by omega⟩)
      | some (right, ⟨r, hr⟩) =>
        let (e, ⟨r, h⟩) := continued strength (op.apply left right) r
        (e, ⟨r, by omega⟩)
    else (left, ⟨ts, by omega⟩)
termination_by 4 * ts.length

/-- A choice behind its `if`. -/
def choice (ts : List Token) : Option (Expr × Rest ts.length) :=
  match expression 0 ts with
  | none => none
  | some (condition, ⟨r, h⟩) =>
    match block r with
    | none => none
    | some (yes, ⟨r', h'⟩) =>
      match after? (.word "else") r' with
      | none => some (.choose condition yes .unit, ⟨r', by omega⟩)
      | some ⟨behind, hb⟩ =>
        match after? (.word "if") behind with
        | some ⟨rest, hr⟩ =>
          (choice rest).map fun (no, ⟨q, hq⟩) => (.choose condition yes no, ⟨q, by omega⟩)
        | none =>
          (block behind).map fun (no, ⟨q, hq⟩) => (.choose condition yes no, ⟨q, by omega⟩)
termination_by 4 * ts.length + 2

/-- An expression between braces. -/
def block (ts : List Token) : Option (Expr × Rest ts.length) :=
  match after? (.symbol "\x7b") ts with
  | none => none
  | some ⟨rest, h⟩ =>
    match after? (.symbol "\x7d") rest with
    | some ⟨more, hm⟩ => some (.unit, ⟨more, by omega⟩)
    | none =>
      match expression 0 rest with
      | none => none
      | some (e, r) => (expect "\x7d" r).map fun r => (e, r.weaken (by omega))
termination_by 4 * ts.length

/-- Expressions up to a closing mark. -/
def sequence (close : String) (ts : List Token) : Option (List Expr × Rest ts.length) :=
  match after? (.symbol close) ts with
  | some r => some ([], r)
  | none => sequenceFrom close ts
termination_by 4 * ts.length + 3

/-- One expression and those behind it up to a closing mark. -/
def sequenceFrom (close : String) (ts : List Token) : Option (List Expr × Rest ts.length) :=
  match expression 0 ts with
  | none => none
  | some (e, ⟨r, h⟩) =>
    match after? (.symbol close) r with
    | some ⟨rest, hr⟩ => some ([e], ⟨rest, by omega⟩)
    | none =>
      match after? (.symbol ",") r with
      | some ⟨rest, hr⟩ =>
        (sequence close rest).map fun (es, ⟨q, hq⟩) => (e :: es, ⟨q, by omega⟩)
      | none => none
termination_by 4 * ts.length + 2

/-- Named expressions up to a closing brace. -/
def fields (ts : List Token) : Option (List (String × Expr) × Rest ts.length) :=
  match ts with
  | .symbol "\x7d" :: rest => some ([], ⟨rest, by simp⟩)
  | .word name :: .symbol ":" :: rest | .string name :: .symbol ":" :: rest =>
    match expression 0 rest with
    | none => none
    | some (e, ⟨r, h⟩) =>
      match after? (.symbol "\x7d") r with
      | some ⟨more, hm⟩ => some ([(name, e)], ⟨more, by simp; omega⟩)
      | none =>
        match after? (.symbol ",") r with
        | some ⟨more, hm⟩ =>
          (fields more).map fun (es, ⟨q, hq⟩) => ((name, e) :: es, ⟨q, by simp; omega⟩)
        | none => none
  | _ => none
termination_by 4 * ts.length

end

end Parser

/-- The expression that a text says, if it says one and nothing else. -/
def Expr.parse? (source : String) : Option Expr := do
  let tokens ← tokenize source
  match Parser.expression 0 tokens with
  | some (e, ⟨[], _⟩) => some e
  | _ => none

end HttpSuite.Condition
