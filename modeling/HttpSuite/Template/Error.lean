import HttpSuite.Value.Error

/-!
# What can go wrong with templates

A template can be ill-formed, and then the fault has an offset, which counts the
characters of the source before it; or a well-formed one cannot be rendered.
-/

namespace HttpSuite

/-- Why a text is no template. -/
inductive TemplateFault where
  /-- A script is not closed. -/
  | unclosedScript
  /-- A percent sign is followed neither by another nor by a brace. -/
  | unrecognizedToken
  /-- A list of arguments is not closed. -/
  | unclosedArguments
  /-- A quoted argument is not closed. -/
  | unclosedQuote
  /-- A name or an argument is missing. -/
  | emptyName
  /-- A character stands where it cannot. -/
  | unexpectedChar (c : Char)
  deriving DecidableEq, Repr

/-- Why a template cannot be read or rendered. -/
inductive TemplateError where
  /-- The text is no template. -/
  | malformed (fault : TemplateFault) (offset : Nat)
  /-- A reference leads nowhere. -/
  | unresolved (name : String) (source : VariableError)
  /-- There is no function of this name. -/
  | unknownFunction (name : String)
  /-- There already is a function of this name. -/
  | duplicateFunction (name : String)
  /-- A function refused its arguments. -/
  | function (name message : String)
  deriving DecidableEq, Repr

/-- The words for an ill-formed template. -/
def TemplateFault.message (fault : TemplateFault) (offset : Nat) : String :=
  match fault with
  | .unclosedScript => s!"unclosed script at offset {offset}, missing '\x7d'"
  | .unrecognizedToken =>
    s!"unrecognized token at offset {offset}, only %% and %\x7b is allowed"
  | .unclosedArguments => s!"unclosed argument list at offset {offset}, missing ')'"
  | .unclosedQuote => s!"unclosed quote \x60 at offset {offset}"
  | .emptyName => s!"empty name at offset {offset}"
  | .unexpectedChar c => s!"unexpected character {Text.quotedLetter c} at offset {offset}"

/-- The words for a template error. -/
def TemplateError.message : TemplateError → String
  | .malformed fault offset => fault.message offset
  | .unresolved name source => s!"can't render variable {name}: {source.message}"
  | .unknownFunction name => s!"unknown function {name}"
  | .duplicateFunction name => s!"function {name} is already registered"
  | .function name message => s!"function {name}: {message}"

end HttpSuite
