import HttpSuite.Url.Host

/-!
# Addresses

An address has a scheme; mostly a host with a port; a path; and perhaps a query and
a fragment. In the usual schemes a backslash counts as a slash, the port that
belongs to the scheme is left out, and the path has at least one segment. Segments
that point to the directory itself or to the one above are followed.
-/

namespace HttpSuite

/-- The path of an address. -/
inductive UrlPath where
  /-- Segments with a slash before each. -/
  | segments (list : List (List Char))
  /-- Text that has no structure. -/
  | opaquePath (text : List Char)
  deriving DecidableEq, Repr, Inhabited

/-- An address. -/
structure Url where
  /-- The scheme, in lower case. -/
  scheme : String
  /-- The user and password with the sign behind them, if there are any. -/
  user : List Char := []
  /-- The host, if there is one. -/
  host : Option (List Char)
  /-- The port, unless it is that of the scheme. -/
  port : Option Nat := none
  /-- The path. -/
  path : UrlPath
  /-- The query. -/
  query : Option (List Char) := none
  /-- The fragment. -/
  fragment : Option (List Char) := none
  deriving DecidableEq, Repr, Inhabited

namespace Url

/-- The port of a usual scheme. -/
def defaultPort? (scheme : String) : Option Nat :=
  if scheme == "http" || scheme == "ws" then some 80
  else if scheme == "https" || scheme == "wss" then some 443
  else if scheme == "ftp" then some 21
  else none

/-- Whether the scheme is that of files. -/
def isFile (scheme : String) : Bool := scheme == "file"

/-- Whether a scheme is one of the usual. -/
def isSpecial (scheme : String) : Bool := (defaultPort? scheme).isSome || isFile scheme

/-! ### Writing addresses -/

/-- The text of a path. -/
def renderPath : UrlPath → List Char
  | .segments list => (list.map fun s => '/' :: s).flatten
  | .opaquePath text => text

/-- The text of the host with what belongs to it. -/
def renderAuthority (url : Url) : List Char :=
  match url.host with
  | none =>
    match url.path with
    | .segments ([] :: _ :: _) => ['/', '.']
    | _ => []
  | some host =>
    let port := match url.port with
      | some p => ':' :: (toString p).toList
      | none => []
    ['/', '/'] ++ url.user ++ host ++ port

/-- An optional part behind its mark. -/
def renderPart (mark : Char) : Option (List Char) → List Char
  | some s => mark :: s
  | none => []

/-- The text of an address. -/
def render (url : Url) : String :=
  String.ofList (url.scheme.toList ++ ':' :: url.renderAuthority ++ renderPath url.path
    ++ renderPart '?' url.query ++ renderPart '#' url.fragment)

/-- The text of the path. -/
def pathText (url : Url) : String := String.ofList (renderPath url.path)

/-- The address without its fragment. -/
def withoutFragment (url : Url) : Url := { url with fragment := none }

/-! ### Reading addresses -/

/-- The scheme at the front, and what follows its colon. -/
def splitScheme? (s : List Char) : Option (String × List Char) := do
  let isSchemeChar (c : Char) : Bool := c.isAlphanum || c == '+' || c == '-' || c == '.'
  let name := s.takeWhile isSchemeChar
  let rest := s.dropWhile isSchemeChar
  if name.head?.any Char.isAlpha && rest.head? == some ':' then
    some (String.ofList (name.map Char.toLower), rest.tail)
  else none

/-- Whether a character ends the host with what belongs to it. -/
def endsAuthority (special : Bool) (c : Char) : Bool :=
  c == '/' || c == '?' || c == '#' || (special && c == '\\')

/-- User and password as they are written, with the sign behind them. -/
def renderUser (s : List Char) : List Char :=
  let (name, password) := (Text.splitOnce? ':' s).getD (s, [])
  let name := percentEncode userSpecial name
  let password := percentEncode userSpecial password
  if name.isEmpty && password.isEmpty then []
  else if password.isEmpty then name ++ ['@']
  else name ++ ':' :: password ++ ['@']

/-- The user with the password, and what follows the sign behind them. -/
def splitUser (special : Bool) (s : List Char) : Except UrlError (List Char × List Char) :=
  let authority := s.takeWhile fun c => !endsAuthority special c
  let behind := (authority.reverse.takeWhile (· != '@')).reverse
  if behind.length == authority.length then .ok ([], s)
  else
    let user := authority.take (authority.length - behind.length - 1)
    let rest := s.drop (user.length + 1)
    if user.isEmpty && rest.head?.any (endsAuthority special) then .error .emptyHost
    else .ok (renderUser user, rest)

/-- The host at the front, and what follows it. A colon inside brackets is part of
the host. -/
def splitHost (special : Bool) (inBrackets : Bool) : List Char → List Char × List Char
  | [] => ([], [])
  | c :: rest =>
    if (c == ':' && !inBrackets) || endsAuthority special c then ([], c :: rest)
    else
      let inBrackets := if c == '[' then true else if c == ']' then false else inBrackets
      let (host, behind) := splitHost special inBrackets rest
      (c :: host, behind)

/-- The port behind a colon, and what follows it. -/
def readPort (scheme : String) (s : List Char) : Except UrlError (Option Nat × List Char) :=
  let digits := s.takeWhile Char.isDigit
  let rest := s.dropWhile Char.isDigit
  let port := (Text.digitsValue? 10 digits).getD 0
  if port > 65535 || rest.head?.any fun c => !endsAuthority true c then .error .invalidPort
  else if digits.isEmpty || defaultPort? scheme == some port then .ok (none, rest)
  else .ok (some port, rest)

/-- A segment that stands for the directory it is in. -/
def isHere (segment : List Char) : Bool :=
  let s := Text.asciiLower (String.ofList segment)
  s == "." || s == "%2e"

/-- A segment that stands for the directory above. -/
def isAbove (segment : List Char) : Bool :=
  let s := Text.asciiLower (String.ofList segment)
  s == ".." || s == "%2e%2e" || s == "%2e." || s == ".%2e"

/-- The segments behind those that have been read, which stand with the last one
first. -/
def normalize (read : List (List Char)) : List (List Char) → List (List Char)
  | [] => read.reverse
  | [last] =>
    if isAbove last then ([] :: read.tail).reverse
    else if isHere last then ([] :: read).reverse
    else (percentEncode pathSpecial last :: read).reverse
  | s :: rest =>
    if isAbove s then normalize read.tail rest
    else if isHere s then normalize read rest
    else normalize (percentEncode pathSpecial s :: read) rest

/-- The path behind a host. -/
def readPath (special : Bool) (s : List Char) : UrlPath :=
  let isSlash (c : Char) : Bool := c == '/' || (special && c == '\\')
  if s.isEmpty && !special then .segments []
  else
    let inner := if s.head?.any isSlash then s.tail else s
    .segments (normalize [] (Text.splitBy isSlash inner))

/-- The query and the fragment that follow a path. -/
def readTail (special : Bool) (s : List Char) : Option (List Char) × Option (List Char) :=
  let (before, fragment) := match Text.splitOnce? '#' s with
    | some (a, b) => (a, some (percentEncode fragmentSpecial b))
    | none => (s, none)
  let query := match before with
    | '?' :: q => some (percentEncode (if special then '\'' :: querySpecial else querySpecial) q)
    | _ => none
  (query, fragment)

/-- Where the path ends. -/
def splitPath (s : List Char) : List Char × List Char :=
  (s.takeWhile fun c => c != '?' && c != '#', s.dropWhile fun c => c != '?' && c != '#')

/-- Completes an address by what follows the host. -/
def finish (url : Url) (s : List Char) : Url :=
  let special := isSpecial url.scheme
  let (path, tail) := splitPath s
  let (query, fragment) := readTail special tail
  { url with path := readPath special path, query := query, fragment := fragment }

/-- Reads what follows the two slashes behind a scheme. -/
def readAuthority (scheme : String) (s : List Char) : Except UrlError Url := do
  let special := isSpecial scheme
  let (user, rest) ← splitUser special s
  let (hostText, rest) := splitHost special false rest
  if special && hostText.isEmpty then throw .emptyHost
  let host ← if special then readHost hostText else readOpaqueHost hostText
  if host.isEmpty && (!user.isEmpty || rest.head? == some ':') then throw .emptyHost
  let (port, rest) ←
    if rest.head? == some ':' then readPort scheme rest.tail else .ok (none, rest)
  return finish ⟨scheme, user, some host, port, .segments [], none, none⟩ rest

/-- Reads what follows the scheme of a file. -/
def readFile (s : List Char) : Except UrlError Url := do
  let isSlash (c : Char) : Bool := c == '/' || c == '\\'
  let base : Url := { scheme := "file", host := some [], path := .segments [] }
  if s.head?.any isSlash && s[1]?.any isSlash then
    let inner := s.drop 2
    let hostText := inner.takeWhile fun c => !endsAuthority true c
    let rest := inner.dropWhile fun c => !endsAuthority true c
    let host ← if hostText.isEmpty then .ok [] else readHost hostText
    let host := if host == "localhost".toList then [] else host
    return finish { base with host := some host } rest
  else return finish base s

/-- Reads an address of a scheme that is not one of the usual. -/
def readOther (scheme : String) (s : List Char) : Except UrlError Url :=
  match s with
  | '/' :: '/' :: rest => readAuthority scheme rest
  | '/' :: _ => .ok (finish { scheme := scheme, host := none, path := .segments [] } s)
  | _ =>
    let (path, tail) := splitPath s
    let (query, fragment) := readTail false tail
    .ok
      { scheme := scheme
        host := none
        path := .opaquePath (percentEncode [] path)
        query := query
        fragment := fragment }

/-- Reads an address. Controls and blanks around it do not count, and neither do tabs
and line breaks inside. -/
def parse (text : String) : Except UrlError Url :=
  let trimmed := Text.trimBy (fun c => c.toNat ≤ 0x20) text.toList
  let s := trimmed.filter fun c => c != '\t' && c != '\n' && c != '\r'
  match splitScheme? s with
  | none => .error .relative
  | some (scheme, rest) =>
    if isFile scheme then readFile rest
    else if isSpecial scheme then
      readAuthority scheme (rest.dropWhile fun c => c == '/' || c == '\\')
    else readOther scheme rest

end Url

end HttpSuite
