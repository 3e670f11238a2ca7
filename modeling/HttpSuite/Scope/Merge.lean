import HttpSuite.Scope.Basic

/-!
# Merging scopes

Sources are merged into a scope one binding after another. The four policies
differ in what happens to a name that is already bound: it may collect the
values, take the new one, merge the two, or refuse. A merge that may refuse is
checked as a whole before anything is bound.
-/

namespace HttpSuite

/-- What becomes of a name that is bound already. -/
inductive MergePolicy where
  /-- All values of the name are collected in an array. -/
  | combine
  /-- The later value replaces the earlier one. -/
  | overwrite
  /-- Objects and arrays are merged part by part, null keeps the other side, and
  anything else is replaced. -/
  | deepOverwrite
  /-- Binding the name again is an error. -/
  | conflict
  deriving DecidableEq, Repr, Inhabited

namespace Value

mutual

/-- `src` over `dst`, part by part. -/
def deepOverwrite (dst : Value) : (src : Value) → Value
  | null => dst
  | object srcFields =>
    match dst with
    | object dstFields => object (overwriteFields dstFields srcFields)
    | _ => object srcFields
  | array srcItems =>
    match dst with
    | array dstItems => array (overwriteItems dstItems srcItems)
    | _ => array srcItems
  | src => src

/-- Every source field over the field of the same name; new names go last. -/
def overwriteFields (dst : Entries Value) : (src : List (String × Value)) → Entries Value
  | [] => dst
  | (name, v) :: rest =>
    match dst.get? name with
    | some old => overwriteFields (dst.insert name (deepOverwrite old v)) rest
    | none => overwriteFields (dst.insert name v) rest

/-- Every source item over the item at the same place; items beyond the end of
`dst` are added. -/
def overwriteItems (dst : List Value) : (src : List Value) → List Value
  | [] => dst
  | v :: rest =>
    match dst with
    | [] => v :: overwriteItems [] rest
    | old :: olds => deepOverwrite old v :: overwriteItems olds rest

end

/-- Adds a value to those collected under a name so far. -/
def collect (previous : Option Value) (v : Value) : Value :=
  match previous with
  | none => array [v]
  | some (array items) => array (items ++ [v])
  | some old => array [old, v]

end Value

namespace Scope

/-- Merges one binding. -/
def mergeBinding (policy : MergePolicy) (scope : Scope) (name : String) (v : Value) : Scope :=
  match policy with
  | .conflict | .overwrite => scope.insert name v
  | .deepOverwrite =>
    match scope.get? name with
    | some old => scope.insert name (old.deepOverwrite v)
    | none => scope.insert name v
  | .combine => scope.insert name (Value.collect (scope.get? name) v)

/-- Merges the bindings of one source, in order. -/
def mergeSource (policy : MergePolicy) (scope source : Scope) : Scope :=
  source.toList.foldl (fun acc e => acc.mergeBinding policy e.1 e.2) scope

/-- The first of the names that is among `taken` or before itself. -/
def firstRepeated? (taken : List String) : List String → Option String
  | [] => none
  | name :: rest =>
    if taken.contains name then some name else firstRepeated? (name :: taken) rest

/-- The first name, in the order of the sources, that is bound in the scope or
in an earlier source. -/
def firstConflict? (scope : Scope) (sources : List Scope) : Option String :=
  firstRepeated? scope.keys (sources.flatMap OrderedMap.keys)

/-- Whether merging the sources would bind a name twice. -/
def isConflict (scope : Scope) (sources : List Scope) : Bool :=
  (scope.firstConflict? sources).isSome

/-- Merges sources into a scope, in order. -/
def merge (policy : MergePolicy) (scope : Scope) (sources : List Scope) :
    Except VariableError Scope :=
  let merged := sources.foldl (mergeSource policy) scope
  match policy with
  | .conflict =>
    match scope.firstConflict? sources with
    | some name => .error (.conflict name)
    | none => .ok merged
  | _ => .ok merged

/-- Merges that cannot fail: the later value replaces the earlier one. -/
def overwrite (scope source : Scope) : Scope := mergeSource .overwrite scope source

end Scope

end HttpSuite
