import HttpSuite.Http.Header
import HttpSuite.Http.Method
import HttpSuite.Url.Basic

/-!
# Requests

A request that is ready to be sent. Its path may be a full address, which then
stands for scheme and host too.
-/

namespace HttpSuite

/-- A request. -/
structure Request where
  /-- The method. -/
  method : Method
  /-- The scheme of the address. -/
  scheme : String
  /-- The host, perhaps with a port. -/
  host : String
  /-- The path with the query, or a full address. -/
  path : String
  /-- The headers. -/
  headers : OrderedMap String
  /-- The body, if there is one. -/
  body : Option String
  deriving DecidableEq, Inhabited

namespace Request

/-- Whether a path is a full address. -/
def isAbsolute (path : String) : Bool := path.startsWith "http://" || path.startsWith "https://"

/-- The text of the address. -/
def address (r : Request) : String :=
  if isAbsolute r.path then r.path
  else
    let separator := if r.path.startsWith "/" || r.path.isEmpty then "" else "/"
    r.scheme ++ "://" ++ r.host ++ separator ++ r.path

/-- The address. -/
def url (r : Request) : Except UrlError Url := Url.parse r.address

/-- A line that tells what is requested. -/
def display (r : Request) : String :=
  match r.url with
  | .ok url => s!"{r.method.name} {url.render}"
  | .error _ => s!"{r.method.name} {r.scheme}://{r.host}{r.path}"

end Request

end HttpSuite
