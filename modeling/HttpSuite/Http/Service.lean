import HttpSuite.Http.Client
import HttpSuite.Http.Response

/-!
# Services

What is under test, as far as a client can tell: whether it can be reached, and what
it replies to a request in view of those it received before.
-/

namespace HttpSuite

/-- What a service sends back. -/
structure Answer where
  /-- The status. -/
  status : Nat := 200
  /-- The headers; a name may come more than once. -/
  headers : List (String × String) := []
  /-- The bytes of the body. -/
  body : List UInt8 := []
  /-- How long it takes. -/
  delay : Duration := Duration.zero
  deriving DecidableEq, Inhabited

namespace Answer

/-- Whether the value of a header can be read as a text. -/
def isVisible (value : String) : Bool :=
  value.toList.all fun c => c == '\t' || (32 ≤ c.toNat && c.toNat < 127)

/-- The response that a client reads. Of the headers only those of visible characters
count, and some responses have no body. -/
def readFor (answer : Answer) (method : Method) : Response where
  status := answer.status
  headers := (answer.headers.filter fun (_, value) => isVisible value).foldl
    (fun headers (name, value) => Http.addHeader headers name value) .empty
  body :=
    if method == .head || answer.status == 204 || answer.status == 304 then [] else answer.body

end Answer

/-- What a service does about a request. -/
inductive Reply where
  /-- It sends an answer. -/
  | answer (answer : Answer)
  /-- It closes the connection. -/
  | closed
  deriving DecidableEq, Inhabited

/-- A service. -/
structure Service where
  /-- Whether a request reaches it. -/
  reachable : Outgoing → Bool
  /-- Its reply to a request, after those it received before. -/
  reply : List Outgoing → Outgoing → Reply

/-- A rule of a service that follows a script. -/
structure ServiceRule where
  /-- The method of the requests it is for. -/
  method : Option String := none
  /-- The path of the requests it is for. -/
  path : Option String := none
  /-- How often it can be used. -/
  times : Option Nat := none
  /-- What is replied. -/
  reply : Reply
  deriving Inhabited

namespace ServiceRule

/-- Whether a rule is for a request. -/
def covers (rule : ServiceRule) (request : Outgoing) : Bool :=
  rule.method.all (· == request.method.name) && rule.path.all (· == request.url.pathText)

/-- The first rule that is for a request and is not used up, after each rule was used
as often as told. -/
def firstOpen? (request : Outgoing) : List (ServiceRule × Nat) → Option Nat
  | [] => none
  | (rule, used) :: rest =>
    if rule.covers request && rule.times.all (used < ·) then some 0
    else (firstOpen? request rest).map (· + 1)

/-- How often each rule is used by requests. -/
def usedBy (rules : List ServiceRule) (requests : List Outgoing) : List (ServiceRule × Nat) :=
  requests.foldl
    (fun counted request =>
      match firstOpen? request counted with
      | some i => counted.modify i fun (rule, used) => (rule, used + 1)
      | none => counted)
    (rules.map fun rule => (rule, 0))

end ServiceRule

namespace Service

/-- A service that no request reaches. -/
def unreachable : Service := ⟨fun _ => false, fun _ _ => .closed⟩

/-- A service that follows a script: the first rule for a request that is not used up
tells the reply. If there is none, nothing is found. -/
def scripted (rules : List ServiceRule) : Service where
  reachable _ := true
  reply seen request :=
    let counted := ServiceRule.usedBy rules seen
    match (ServiceRule.firstOpen? request counted).bind fun i => counted[i]? with
    | some (rule, _) => rule.reply
    | none => .answer { status := 404 }

end Service

end HttpSuite
