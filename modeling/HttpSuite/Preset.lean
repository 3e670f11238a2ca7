import HttpSuite.RoundTrip.Basic

/-!
# Presetters

A presetter changes the template that a context hands to its round trips. It is
called by name with texts as arguments, and it may refuse them.
-/

namespace HttpSuite

/-- Why a presetter refuses its arguments. -/
inductive PresetError where
  /-- An argument is missing. -/
  | missing (arg : String)
  /-- An argument cannot be used. -/
  | invalid (arg value reason : String)
  /-- A reason of the presetter's own. -/
  | custom (message : String)
  deriving DecidableEq, Repr

/-- The words for a presetter's refusal. -/
def PresetError.message : PresetError → String
  | .missing arg => s!"{arg} is not defined"
  | .invalid arg value reason => s!"invalid {arg} {Text.quoted value}: {reason}"
  | .custom message => message

/-- Changes a template. -/
abbrev Presetter := RoundTrip → OrderedMap String → Except PresetError RoundTrip

namespace Presetter

/-- An argument that must be there. -/
def required (args : OrderedMap String) (name : String) : Except PresetError String :=
  match args.get? name with
  | some value => .ok value
  | none => .error (.missing name)

/-- Sends every argument as a header. -/
def requestHeader : Presetter := fun template args =>
  .ok
    { template with
      request := args.toList.foldl (fun r e => r.setHeader e.1 e.2) template.request }

/-- Expects every argument as a header. -/
def responseHeader : Presetter := fun template args =>
  .ok
    { template with
      response := args.toList.foldl (fun r e => r.setHeader e.1 e.2) template.response }

/-- Where the path goes in what is put around it. -/
def pathMark : String := "%s"

/-- Sets where requests go to. -/
def host : Presetter := fun template args => do
  let host ← required args "host"
  let scheme := (args.get? "scheme").getD "http"
  let request := { template.request with host := some host, scheme := some scheme }
  match args.get? "pathTemplate" with
  | none => return { template with request := request }
  | some around =>
    if Text.countLiteral pathMark.toList 0 around.toList != 1 then
      throw (.invalid "pathTemplate" around "should contain exactly one %s")
    return { template with request := { request with pathTemplate := some around } }

/-- Names a user by a password, which may be empty. -/
def basicAuth : Presetter := fun template args => do
  let user ← required args "username"
  let password := (args.get? "password").getD ""
  let value := Http.basicCredentials user password
  return { template with request := template.request.setHeader "Authorization" value }

/-- Names a user by a token. -/
def bearerAuth : Presetter := fun template args => do
  let token ← required args "token"
  let trimmed := Text.trim token
  if trimmed.isEmpty then throw (.invalid "token" token "should not be empty")
  let value := Http.bearerCredentials trimmed
  return { template with request := template.request.setHeader "Authorization" value }

/-- The presetters that are always there. -/
def builtins : OrderedMap Presetter :=
  .ofList
    [("requestHeader", requestHeader), ("responseHeader", responseHeader), ("host", host),
      ("basicAuth", basicAuth), ("bearerAuth", bearerAuth)]

end Presetter

end HttpSuite
