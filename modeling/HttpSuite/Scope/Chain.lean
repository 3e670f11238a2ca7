import HttpSuite.Scope.Merge

/-!
# Chains of scopes

Every context hands its children a chain of frames, the innermost one first. A
frame can be pushed only if it binds no name that the chain binds already, so a
lookup finds the same value whichever end it starts from.
-/

namespace HttpSuite

/-- Frames of variables, the newest first. -/
structure ScopeChain where
  /-- The frames, the newest first. -/
  frames : List Scope
  deriving Inhabited

namespace ScopeChain

/-- The chain without frames. -/
def empty : ScopeChain := ⟨[]⟩

/-- The chain of one frame. -/
def root (vars : Scope) : ScopeChain := ⟨[vars]⟩

/-- The value of a name in the newest frame that binds it. -/
def get? (chain : ScopeChain) (name : String) : Option Value :=
  chain.frames.findSome? fun frame => frame.get? name

/-- Whether some frame binds the name. -/
def contains (chain : ScopeChain) (name : String) : Bool := (chain.get? name).isSome

/-- The chain with one more frame, unless that would bind a name twice. -/
def push (chain : ScopeChain) (vars : Scope) : Except VariableError ScopeChain :=
  match vars.keys.find? chain.contains with
  | some name => .error (.conflict name)
  | none => .ok ⟨vars :: chain.frames⟩

/-- How many frames there are. -/
def depth (chain : ScopeChain) : Nat := chain.frames.length

/-- All bindings in one scope, those of the outermost frame first. -/
def materialize (chain : ScopeChain) : Scope :=
  chain.frames.reverse.foldl OrderedMap.extend OrderedMap.empty

end ScopeChain

end HttpSuite
