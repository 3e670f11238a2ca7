import HttpSuite.Http.Header
import HttpSuite.Value.Reader

/-!
# Responses
-/

namespace HttpSuite

/-- A response. -/
structure Response where
  /-- The status. -/
  status : Nat
  /-- The headers, by names in lower case. -/
  headers : OrderedMap String := .empty
  /-- The bytes of the body. -/
  body : List UInt8 := []
  deriving DecidableEq, Inhabited

namespace Response

/-- Whether the status tells of success. -/
def isSuccess (r : Response) : Bool := 200 ≤ r.status && r.status < 300

/-- The value of a header, whatever the case of its name. -/
def header? (r : Response) (name : String) : Option String := Http.findHeader? r.headers name

/-- Adds a header; values of one name are joined. -/
def addHeader (r : Response) (name value : String) : Response :=
  { r with headers := Http.addHeader r.headers name value }

/-- The body as a text, with replacement characters. -/
def bodyText (r : Response) : String := String.ofList (Text.decodeLossy r.body)

/-- The value that the body says, if it is JSON. -/
def json? (r : Response) : Option Value :=
  (Text.decode? r.body).bind fun chars => Value.ofJson? (String.ofList chars)

end Response

end HttpSuite
