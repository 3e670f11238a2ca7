import HttpSuite.Config.Printer
import HttpSuite.Http.Request

/-!
# Round trips

A round trip whose templates have been rendered. What it does not say may come from
a template around it, which is a round trip itself: layers are put on top of each
other by `patched`, where what the upper one sets wins, and headers are combined
name by name.
-/

namespace HttpSuite

/-- What a round trip says about its request. -/
structure RequestLayer where
  /-- The scheme of the address. -/
  scheme : Option String := none
  /-- The host, perhaps with a port. -/
  host : Option String := none
  /-- The method. -/
  method : Option Method := none
  /-- The path with the query, or a full address. -/
  path : Option String := none
  /-- What is put around paths; it marks where the path goes. -/
  pathTemplate : Option String := none
  /-- The headers. -/
  headers : OrderedMap String := .empty
  /-- The body. -/
  body : Option String := none
  deriving DecidableEq, Inhabited

/-- How long and how often to ask again. -/
structure Polling where
  /-- How long to go on. -/
  timeout : Option Duration := none
  /-- How long to wait between two attempts. -/
  interval : Option Duration := none
  deriving DecidableEq, Inhabited, Repr

/-- What a round trip says about the response. -/
structure ResponseLayer where
  /-- The status, if it matters. -/
  statusCode : Option Nat := none
  /-- Headers that must have a value. -/
  headers : OrderedMap String := .empty
  /-- The text of the pattern of the body; the empty one asks for an empty body. -/
  body : Option String := none
  /-- Whether to ask again until the response is as expected. -/
  eventually : Option Polling := none
  deriving DecidableEq, Inhabited

/-- A variable that is taken from the response. -/
structure Definition where
  /-- The name of the variable. -/
  name : String
  /-- Where it is taken from. -/
  origin : Origin
  /-- The path into the body, or the name of the header. -/
  selector : List String
  deriving DecidableEq, Inhabited

/-- A round trip, or a layer of one. -/
structure RoundTrip where
  /-- What it is for. -/
  description : String := ""
  /-- The client that sends the request, if it is not the usual one. -/
  client : Option String := none
  /-- The request. -/
  request : RequestLayer := {}
  /-- What is expected of the response. -/
  response : ResponseLayer := {}
  /-- The variables that are taken from the response. -/
  definitions : List Definition := []
  deriving DecidableEq, Inhabited

/-- A request layer on top of another. -/
def RequestLayer.patched (below above : RequestLayer) : RequestLayer where
  scheme := above.scheme.or below.scheme
  host := above.host.or below.host
  method := above.method.or below.method
  path := above.path.or below.path
  pathTemplate := above.pathTemplate.or below.pathTemplate
  headers := below.headers.extend above.headers
  body := above.body.or below.body

/-- The header of a name, in its usual spelling, is set. -/
def RequestLayer.setHeader (r : RequestLayer) (name value : String) : RequestLayer :=
  { r with headers := r.headers.insert (Http.canonicalName name) value }

/-- Polling on top of another. -/
def Polling.patched (below above : Polling) : Polling where
  timeout := above.timeout.or below.timeout
  interval := above.interval.or below.interval

/-- Polling, where either may be missing, on top of another. -/
def Polling.patchedOption : Option Polling → Option Polling → Option Polling
  | some below, some above => some (below.patched above)
  | below, above => above.or below

/-- A response layer on top of another. -/
def ResponseLayer.patched (below above : ResponseLayer) : ResponseLayer where
  statusCode := above.statusCode.or below.statusCode
  headers := below.headers.extend above.headers
  body := above.body.or below.body
  eventually := Polling.patchedOption below.eventually above.eventually

/-- The header of a name, in its usual spelling, is expected to have a value. -/
def ResponseLayer.setHeader (r : ResponseLayer) (name value : String) : ResponseLayer :=
  { r with headers := r.headers.insert (Http.canonicalName name) value }

/-- Why a round trip has no request. -/
inductive Incomplete where
  /-- The host is missing. -/
  | host
  /-- The path is missing. -/
  | api
  deriving DecidableEq, Repr

/-- The words for what is missing. -/
def Incomplete.message : Incomplete → String
  | .host => "host is not defined"
  | .api => "api is not defined"

namespace RoundTrip

/-- A layer on top of another. -/
def patched (below above : RoundTrip) : RoundTrip where
  description := if above.description.isEmpty then below.description else above.description
  client := above.client.or below.client
  request := below.request.patched above.request
  response := below.response.patched above.response
  definitions := if above.definitions.isEmpty then below.definitions else above.definitions

/-- The request that a round trip says. Host and path must be there; an empty host or
scheme is none. -/
def toRequest (r : RoundTrip) : Except Incomplete Request :=
  match r.request.host.filter fun h => !h.isEmpty with
  | none => .error .host
  | some host =>
    match r.request.path with
    | none => .error .api
    | some path =>
      .ok
        { method := r.request.method.getD .get
          scheme := (r.request.scheme.filter fun s => !s.isEmpty).getD "http"
          host := host
          path := path
          headers := r.request.headers
          body := r.request.body }

end RoundTrip

end HttpSuite
