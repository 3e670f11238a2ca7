import HttpSuite.Text.Case
import HttpSuite.Text.Category
import HttpSuite.Url.Percent
import HttpSuite.Url.Punycode

/-!
# Hosts of addresses

A host is a name, or a number of four or sixteen bytes. A name is folded to lower
case and written in ASCII; a name that ends in a number is read as a number of four
bytes, which may be given in up to four parts and in base ten, eight or sixteen.
-/

namespace HttpSuite

/-- Why a text is no address. -/
inductive UrlError where
  /-- There is no host where there must be one. -/
  | emptyHost
  /-- The host is no name. -/
  | invalidName
  /-- The host has a character that no host has. -/
  | invalidHostChar
  /-- The host ends in a number and is none of four bytes. -/
  | invalidIpv4
  /-- The host stands in brackets and is no number of sixteen bytes. -/
  | invalidIpv6
  /-- The port is no number, or too large. -/
  | invalidPort
  /-- There is no scheme. -/
  | relative
  deriving DecidableEq, Repr

/-- The words for an address error. -/
def UrlError.message : UrlError → String
  | .emptyHost => "empty host"
  | .invalidName => "invalid international domain name"
  | .invalidHostChar => "invalid domain character"
  | .invalidIpv4 => "invalid IPv4 address"
  | .invalidIpv6 => "invalid IPv6 address"
  | .invalidPort => "invalid port number"
  | .relative => "relative URL without a base"

namespace Url

/-! ### Names -/

/-- ASCII characters that cannot stand in a name. -/
def isForbiddenInName (c : Char) : Bool :=
  c.toNat ≤ 0x20 || c.toNat == 0x7F || "#/:<>?@[\\]^|%".toList.contains c

/-- Characters that are left out of names: those that do not show. -/
def isLeftOut (c : Char) : Bool :=
  let n := c.toNat
  n == 0xAD || n == 0x34F || n == 0x200B || n == 0x2060 || n == 0x2064 || n == 0xFEFF
    || (0x180B ≤ n && n ≤ 0x180F) || (0xFE00 ≤ n && n ≤ 0xFE0F) || (0xE0100 ≤ n && n ≤ 0xE01EF)

/-- What a character becomes in a name: lower case, in the usual width, and a plain
point for the points of other scripts. -/
def nameChars (c : Char) : List Char :=
  let n := c.toNat
  if isLeftOut c then []
  else if n == 0x3002 || n == 0xFF0E || n == 0xFF61 then ['.']
  else if n == 0xA0 || n == 0x3000 then [' ']
  else if n == 0x1E9E then ['s', 's']
  else if 0xFF01 ≤ n && n ≤ 0xFF5E then [(Char.ofNat (n - 0xFEE0)).toLower]
  else Text.lowerChars c

/-- Whether a character beyond ASCII may stand in a label. -/
def isLabelChar (c : Char) : Bool :=
  c.toNat < 0x80
    || !(Text.inCategory ["Cc", "Cf", "Cn", "Co", "Cs", "Zl", "Zp", "Zs"] c)

/-- Whether a label beyond ASCII is one. -/
def isLabel (label : List Char) : Bool :=
  label.all isLabelChar && !(label.head?.any (Text.inCategory ["Mn", "Mc", "Me"]))

/-- The ASCII form of a label. -/
def asciiLabel? (label : List Char) : Option (List Char) :=
  match Text.stripLiteral? ['x', 'n', '-', '-'] label with
  | some code => do
    if code.any fun c => c.toNat ≥ 0x80 then none
    else
      let decoded ← Punycode.decode? code
      if decoded.any (fun c => c.toNat ≥ 0x80) && isLabel decoded
        && decoded.flatMap nameChars == decoded && Punycode.encode decoded == code then some label
      else none
  | none =>
    if label.all fun c => c.toNat < 0x80 then some label
    else if isLabel label then some (['x', 'n', '-', '-'] ++ Punycode.encode label)
    else none

/-- The ASCII form of a name. -/
def asciiName? (name : List Char) : Option (List Char) := do
  let labels := Text.splitBy (· == '.') (name.flatMap nameChars)
  let labels ← labels.mapM asciiLabel?
  let joined := ((labels.map fun l => '.' :: l).flatten).tail
  if joined.any isForbiddenInName then none else some joined

/-! ### Numbers of four bytes -/

/-- The number that a part writes: `none` inside if it does not fit 32 bits. -/
def ipv4Part? (s : List Char) : Option (Option Nat) :=
  let read (base : Nat) (digits : List Char) : Option (Option Nat) :=
    if digits.isEmpty then some (some 0)
    else (Text.digitsValue? base digits).map fun n => if n < Nat.pow 2 32 then some n else none
  match s with
  | [] => none
  | '0' :: 'x' :: rest | '0' :: 'X' :: rest => read 16 rest
  | '0' :: d :: rest => read 8 (d :: rest)
  | s => read 10 s

/-- Whether the last part of a name is a number. -/
def endsInNumber (name : List Char) : Bool :=
  let parts := Text.splitBy (· == '.') name
  let parts := if parts.getLast? == some [] then parts.dropLast else parts
  match parts.getLast? with
  | none => false
  | some last => (!last.isEmpty && last.all Char.isDigit) || (ipv4Part? last).isSome

/-- The number that a name writes in one to four parts: the last one fills the bytes
that the others leave. -/
def ipv4? (name : List Char) : Option Nat := do
  let parts := Text.splitBy (· == '.') name
  let parts := if parts.getLast? == some [] then parts.dropLast else parts
  if parts.length > 4 then none
  else
    let numbers ← parts.mapM fun p => (ipv4Part? p).join
    let last ← numbers.getLast?
    let firsts := numbers.dropLast
    if last ≥ Nat.pow 256 (4 - firsts.length) || firsts.any (· > 255) then none
    else
      let places := firsts.zipIdx.map fun e => e.1 * Nat.pow 256 (3 - e.2)
      some (places.foldl (· + ·) last)

/-- A number of four bytes, byte by byte. -/
def renderIpv4 (n : Nat) : List Char :=
  s!"{n / Nat.pow 2 24 % 256}.{n / Nat.pow 2 16 % 256}.{n / Nat.pow 2 8 % 256}.{n % 256}".toList

/-! ### Numbers of sixteen bytes -/

/-- The four bytes in decimal at the end of a number of sixteen. -/
def ipv4Tail? (s : List Char) : Option (List Nat) := do
  let parts := Text.splitBy (· == '.') s
  let bytes ← parts.mapM fun p => do
    let n ← Text.digitsValue? 10 p
    if n > 255 || (p.length > 1 && p.head? == some '0') then none else some n
  match bytes with
  | [a, b, c, d] => some [a * 256 + b, c * 256 + d]
  | _ => none

/-- The words between colons, the last of which may be four bytes in decimal. -/
def ipv6Words? (s : List Char) : Option (List Nat) :=
  if s.isEmpty then some []
  else
    let parts := Text.splitBy (· == ':') s
    let word (p : List Char) : Option Nat :=
      if p.length > 4 then none else Text.digitsValue? 16 p
    match parts.getLast? with
    | none => none
    | some last =>
      if last.contains '.' then do
        let words ← parts.dropLast.mapM word
        return words ++ (← ipv4Tail? last)
      else parts.mapM word

/-- The eight words that a text writes; two colons stand for zeros. -/
def ipv6? (s : List Char) : Option (List Nat) :=
  match Text.splitLiteral? [':', ':'] s with
  | none => (ipv6Words? s).filter fun words => words.length == 8
  | some (a, b) => do
    let before ← ipv6Words? a
    let behind ← ipv6Words? b
    let count := before.length + behind.length
    if a.contains '.' || count > 7 then none
    else some (before ++ List.replicate (8 - count) 0 ++ behind)

/-- How many zeros begin a list of words. -/
def leadingZeros (words : List Nat) : Nat := (words.takeWhile (· == 0)).length

/-- The first of the longest runs of at least two zeros: its place and length. -/
def longestZeros (place : Nat) : List Nat → Nat × Nat
  | [] => (place, 0)
  | w :: rest =>
    let here := leadingZeros (w :: rest)
    let later := longestZeros (place + 1) rest
    if here ≥ 2 && here ≥ later.2 then (place, here) else later

/-- Words in hexadecimal with colons between them. -/
def renderWords (words : List Nat) : List Char :=
  ((words.map fun w => ':' :: Text.hexDigits w).flatten).tail

/-- Eight words, with two colons for the longest run of zeros. -/
def renderIpv6 (words : List Nat) : List Char :=
  match longestZeros 0 words with
  | (_, 0) => renderWords words
  | (place, n) =>
    renderWords (words.take place) ++ [':', ':'] ++ renderWords (words.drop (place + n))

/-! ### Hosts -/

/-- The host in square brackets that a text is, if it begins with one. -/
def bracketed? (s : List Char) : Option (Except UrlError (List Char)) :=
  match s with
  | '[' :: rest =>
    if rest.getLast? != some ']' then some (.error .invalidIpv6)
    else
      match ipv6? rest.dropLast with
      | some words => some (.ok ('[' :: renderIpv6 words ++ [']']))
      | none => some (.error .invalidIpv6)
  | _ => none

/-- The host that a text writes in an address whose scheme is one of the usual. -/
def readHost (s : List Char) : Except UrlError (List Char) :=
  match bracketed? s with
  | some result => result
  | none =>
    match (Text.decode? (percentDecode s)).bind asciiName? with
    | none => .error .invalidName
    | some name =>
      if name.isEmpty then .error .emptyHost
      else if endsInNumber name then
        match ipv4? name with
        | some n => .ok (renderIpv4 n)
        | none => .error .invalidIpv4
      else .ok name

/-- Characters that no host has. -/
def isForbiddenInHost (c : Char) : Bool :=
  c.toNat == 0 || "\t\n\r #/:<>?@[\\]^|".toList.contains c

/-- The host that a text writes in an address of any other scheme. -/
def readOpaqueHost (s : List Char) : Except UrlError (List Char) :=
  match bracketed? s with
  | some result => result
  | none => if s.any isForbiddenInHost then .error .invalidHostChar else .ok (percentEncode [] s)

end Url

end HttpSuite
