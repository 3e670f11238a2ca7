import HttpSuite.Text.Case
import HttpSuite.Text.Quoted

/-!
# Request methods
-/

namespace HttpSuite

/-- The method of a request. -/
inductive Method where
  | get
  | post
  | put
  | delete
  | patch
  | options
  | head
  | trace
  | connect
  deriving DecidableEq, Repr, Inhabited

namespace Method

/-- The word for a method. -/
def name : Method → String
  | get => "GET"
  | post => "POST"
  | put => "PUT"
  | delete => "DELETE"
  | patch => "PATCH"
  | options => "OPTIONS"
  | head => "HEAD"
  | trace => "TRACE"
  | connect => "CONNECT"

/-- All methods. -/
def all : List Method := [get, post, put, delete, patch, options, head, trace, connect]

/-- The method of a word in capitals. -/
def ofCapitals? (s : String) : Option Method := all.find? fun m => m.name == s

/-- The method of a word, whatever its case. -/
def ofName? (s : String) : Option Method := ofCapitals? (Text.toUpper s)

/-- The words for a method that does not exist. -/
def unknownMessage (s : String) : String := s!"unknown HTTP method {Text.quoted (Text.toUpper s)}"

end Method

end HttpSuite
