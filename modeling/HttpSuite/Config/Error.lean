import HttpSuite.Template.Error

/-!
# What can go wrong with a document

A document that is well-formed YAML or JSON may still not be what it is read as.
Faults are found in the order in which the document is written; that a field is
missing is found at the end of what should have had it.
-/

namespace HttpSuite

/-- Why a document cannot be read. -/
inductive DocumentError where
  /-- A text is no template. -/
  | template (error : TemplateError)
  /-- Nothing of this name can be taken from a response. -/
  | unknownOrigin (name : String)
  /-- A text is no length of time. -/
  | invalidDuration (text : String)
  /-- There is no field of this name. -/
  | unknownField (name : String)
  /-- A field that must be there is not. -/
  | missingField (name : String)
  /-- A field is there twice. -/
  | duplicateField (name : String)
  /-- The text is ill-formed, or something of another kind was asked for. -/
  | malformed
  deriving DecidableEq, Repr

/-- The words for a document error. -/
def DocumentError.message : DocumentError → String
  | .template error => error.message
  | .unknownOrigin name =>
    s!"unknown definition type {Text.quoted name}, only [body, header, status] is allowed"
  | .invalidDuration text => s!"invalid duration {Text.quoted text}"
  | .unknownField name => s!"unknown field \x60{name}\x60"
  | .missingField name => s!"missing field \x60{name}\x60"
  | .duplicateField name => s!"duplicate field \x60{name}\x60"
  | .malformed => "malformed document"

end HttpSuite
