import HttpSuite.Duration
import HttpSuite.Http.Request

/-!
# Clients

A client turns a request into what is sent, or finds that it cannot be sent. Besides
the usual client there may be others, which have names.
-/

namespace HttpSuite

/-- Why a request has no response. -/
inductive SendError where
  /-- No connection, or one that was closed too early. -/
  | network (detail : String)
  /-- No response came in time. -/
  | timeout
  /-- The address is ill-formed. -/
  | invalidUrl (fault : UrlError)
  /-- The name of a header is ill-formed. -/
  | headerName
  /-- The value of a header is ill-formed. -/
  | headerValue
  /-- Nothing can be sent by the scheme of the address. -/
  | scheme (url : Url)
  /-- There is no client of this name. -/
  | unknownClient (name : String)
  deriving DecidableEq

/-- The words for a request without a response. -/
def SendError.message : SendError → String
  | .network detail => s!"network error: {detail}"
  | .timeout => "request timed out"
  | .invalidUrl fault => s!"invalid URL: {fault.message}"
  | .headerName => "request build error: builder error: invalid HTTP header name"
  | .headerValue => "request build error: builder error: failed to parse header value"
  | .scheme url =>
    s!"request build error: builder error for url ({url.render}): URL scheme is not allowed"
  | .unknownClient name => s!"unknown HTTP client {Text.quoted name}"

/-- A request as it is sent. -/
structure Outgoing where
  /-- The method. -/
  method : Method
  /-- The address. -/
  url : Url
  /-- The headers, by names in lower case; a name may come more than once. -/
  headers : List (String × String)
  /-- The body. -/
  body : String
  deriving DecidableEq

/-- Something that sends requests. -/
structure Client where
  /-- How long to wait for a response. -/
  timeout : Option Duration := none
  /-- Headers of requests that do not set them. -/
  headers : List (String × String) := []
  deriving DecidableEq, Inhabited

namespace Http

/-- Characters of the names of headers. -/
def isNameChar (c : Char) : Bool :=
  c.isAlphanum
    || ['!', '#', '$', '%', '&', '\'', '*', '+', '-', '.', '^', '_', '\x60', '|', '~'].contains c

/-- Whether a text can be the name of a header. -/
def isName (s : String) : Bool := !s.isEmpty && s.toList.all isNameChar

/-- Whether a text can be the value of a header. -/
def isValue (s : String) : Bool :=
  s.toList.all fun c => c == '\t' || (c.toNat ≥ 32 && c.toNat != 127)

/-- The fault of a header, if it has one. -/
def headerFault? (name value : String) : Option SendError :=
  if !isName name then some .headerName
  else if !isValue value then some .headerValue
  else none

end Http

namespace Client

/-- What a client sends for a request. The address is looked at first, then the headers
in order, then the scheme. -/
def prepare (client : Client) (request : Request) : Except SendError Outgoing :=
  match request.url with
  | .error fault => .error (.invalidUrl fault)
  | .ok url =>
    match request.headers.toList.findSome? fun (name, value) => Http.headerFault? name value with
    | some fault => .error fault
    | none =>
      if url.scheme != "http" && url.scheme != "https" then .error (.scheme url)
      else
        let own := request.headers.toList.map fun (name, value) => (Text.asciiLower name, value)
        let added := client.headers.filter fun (name, _) => (own.lookup name).isNone
        .ok
          { method := request.method
            url := url.withoutFragment
            headers := own ++ added
            body := request.body.getD "" }

end Client

/-- The usual client and those that have names. -/
structure Clients where
  /-- The client that is used unless another one is named. -/
  usual : Client
  /-- The others. -/
  named : OrderedMap Client := .empty
  deriving Inhabited

namespace Clients

/-- Adds a client under a name that is not taken. -/
def register? (clients : Clients) (name : String) (client : Client) : Option Clients :=
  if clients.named.contains name then none
  else some { clients with named := clients.named.insert name client }

/-- The client of a name; without a name, or with the empty one, the usual client. -/
def find (clients : Clients) (name : Option String) : Except SendError Client :=
  match name.filter fun n => !n.isEmpty with
  | none => .ok clients.usual
  | some name =>
    match clients.named.get? name with
    | some client => .ok client
    | none => .error (.unknownClient name)

end Clients

end HttpSuite
