import HttpSuite.OrderedMap
import HttpSuite.Text.Base64
import HttpSuite.Text.Utf8

/-!
# Headers

The name of a header is the same name in any case. In requests it is kept in one
spelling, with a capital at the beginning of each part; in responses in lower case,
and values that come under one name are joined.
-/

namespace HttpSuite.Http

/-- A word with a capital and otherwise small letters. -/
def capitalized : List Char → List Char
  | [] => []
  | c :: rest => c.toUpper :: rest.map Char.toLower

/-- Joins parts with hyphens. -/
def joinHyphen : List (List Char) → List Char
  | [] => []
  | [part] => part
  | part :: rest => part ++ '-' :: joinHyphen rest

/-- The usual spelling of a header's name. -/
def canonicalName (name : String) : String :=
  String.ofList (joinHyphen ((Text.splitBy (· == '-') name.toList).map capitalized))

/-- The value of the header that names a user by a password. -/
def basicCredentials (user password : String) : String :=
  let bytes := Text.utf8 (user.toList ++ ':' :: password.toList)
  "Basic " ++ String.ofList (Text.base64 bytes)

/-- The value of the header that names a user by a token. -/
def bearerCredentials (token : String) : String := "Bearer " ++ token

/-- Adds a value under a name in lower case, behind those it has. -/
def addHeader (headers : OrderedMap String) (name value : String) : OrderedMap String :=
  let key := Text.asciiLower name
  match headers.get? key with
  | some old => headers.insert key (old ++ ", " ++ value)
  | none => headers.insert key value

/-- The value under a name, whatever its case. -/
def findHeader? (headers : OrderedMap String) (name : String) : Option String :=
  (headers.toList.find? fun e => Text.eqIgnoringCase e.1 name).map Prod.snd

end HttpSuite.Http
