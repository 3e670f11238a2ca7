import HttpSuite.Duration
import HttpSuite.Template.Basic

/-!
# Suites as they are written

What the files of a suite can say. A directory is described by a context, and
every case has a file. Both consist of round trips: a request, what is expected
of the response, and the variables that are taken from it. Every text that may
refer to variables is a template.
-/

namespace HttpSuite

/-- A condition on which a round trip depends. -/
structure ConditionSpec where
  /-- An expression. -/
  expr : String
  /-- Names for the expression, each with its text. -/
  args : OrderedMap Template
  deriving DecidableEq, Inhabited

/-- A request. -/
structure RequestSpec where
  /-- The host, perhaps with a port. -/
  host : Option Template := none
  /-- The scheme of the address. -/
  scheme : Option Template := none
  /-- The method and the path. -/
  api : Option Template := none
  /-- The headers. -/
  headers : OrderedMap Template := .empty
  /-- The body. -/
  body : Option Template := none
  deriving DecidableEq, Inhabited

/-- How long and how often to ask again. -/
structure PollingSpec where
  /-- How long to go on. -/
  timeout : Option Duration := none
  /-- How long to wait between two attempts. -/
  interval : Option Duration := none
  deriving DecidableEq, Inhabited

/-- What is expected of a response. -/
structure ResponseSpec where
  /-- The status, if it matters. -/
  statusCode : Option Nat := none
  /-- Headers that must have a value. -/
  headers : OrderedMap Template := .empty
  /-- The pattern of the body, if it matters; the empty one asks for an empty body. -/
  body : Option Template := none
  /-- Whether to ask again until the response is as expected. -/
  eventually : Option PollingSpec := none
  deriving DecidableEq, Inhabited

/-- The part of a response that a variable is taken from. -/
inductive Origin where
  /-- A place in the body. -/
  | body
  /-- A header. -/
  | header
  /-- The status. -/
  | status
  deriving DecidableEq, Repr, Inhabited

/-- The word for a part of a response. -/
def Origin.name : Origin → String
  | .body => "body"
  | .header => "header"
  | .status => "status"

/-- The part of a response that a word names; the empty word stands for the body. -/
def Origin.ofName? (s : String) : Option Origin :=
  if s == "" || s == "body" then some .body
  else if s == "header" then some .header
  else if s == "status" then some .status
  else none

/-- A variable that is taken from the response. -/
structure DefinitionSpec where
  /-- The name of the variable. -/
  name : String
  /-- Where it is taken from. -/
  origin : Origin := .body
  /-- The path into the body, or the name of the header. -/
  selector : List Template := []
  deriving DecidableEq, Inhabited

/-- A round trip. -/
structure RoundTripSpec where
  /-- What it is for. -/
  description : String := ""
  /-- The client that sends the request, if it is not the usual one. -/
  client : Option String := none
  /-- How often to repeat it; zero means once, outside any loop. -/
  loop : Nat := 0
  /-- The condition on which it depends. -/
  condition : Option ConditionSpec := none
  /-- The request. -/
  request : RequestSpec := {}
  /-- What is expected of the response. -/
  response : ResponseSpec := {}
  /-- The variables that are taken from the response. -/
  definitions : List DefinitionSpec := []
  deriving DecidableEq, Inhabited

/-- A presetter with its arguments. -/
structure PresetSpec where
  /-- The name of the presetter. -/
  name : String
  /-- The arguments. -/
  args : OrderedMap Template := .empty
  deriving DecidableEq, Inhabited

/-- A cleaner with its arguments. -/
structure CleanerSpec where
  /-- The name of the cleaner. -/
  name : String
  /-- Whether it runs after every case and not only after the last. -/
  forEach : Bool := false
  /-- The arguments. -/
  args : OrderedMap Template := .empty
  deriving DecidableEq, Inhabited

/-- Round trips that build something up, and round trips that tell whether it still
stands. -/
structure ValidatedFlow where
  /-- What builds it up. -/
  constructor : List RoundTripSpec := []
  /-- What tells whether it stands. -/
  validator : List RoundTripSpec := []
  deriving DecidableEq, Inhabited

/-- A variable that a context hands to those inside it. -/
structure ExportSpec where
  /-- The name it gets there. -/
  name : String
  /-- The path it is taken from; the empty one stands for the name itself. -/
  selector : List Template := []
  deriving DecidableEq, Inhabited

/-- A context: what happens around the cases of a directory. -/
structure ContextSpec where
  /-- A short description. -/
  summary : String := ""
  /-- A long description. -/
  description : String := ""
  /-- What is applied, in order, to the template of round trips. -/
  presetters : List PresetSpec := []
  /-- Round trips that are made whenever the context is entered. -/
  flow : List RoundTripSpec := []
  /-- Flows that are made again only when they have to be. -/
  validatedFlow : List ValidatedFlow := []
  /-- What is done behind the cases. -/
  cleaners : List CleanerSpec := []
  /-- The variables handed to what is inside. -/
  exports : List ExportSpec := []
  deriving DecidableEq, Inhabited

/-- A case. -/
structure CaseSpec where
  /-- A short description. -/
  summary : String := ""
  /-- A long description. -/
  description : String := ""
  /-- The round trips. -/
  flow : List RoundTripSpec := []
  /-- The labels by which cases are chosen. -/
  labels : List String := []
  deriving DecidableEq, Inhabited

end HttpSuite
