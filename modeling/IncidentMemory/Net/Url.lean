import IncidentMemory.Number.Decimal

/-!
# Addresses of services

Two notations for the address of a service. A `Url` is read by the rules of web browsers: special
schemes need a host, hosts that end in a number are IP addresses, and stray blanks are forgiven at
the ends only. An *endpoint* is the stricter notation of HTTP messages, where the scheme may be
missing; `isEndpoint` only says whether a text is one.
-/

namespace IncidentMemory

/-- **A URL**, as far as it matters whom to connect to. -/
structure Url where
  /-- The scheme, in lower case. -/
  scheme : String
  /-- What stands in front of the host. -/
  userInfo : String
  /-- The host; there may be none. -/
  host : Option String
  /-- The port, if it is given and not the usual one of the scheme. -/
  port : Option Nat
  /-- The path. -/
  path : String
  deriving DecidableEq, Repr

namespace Url

/-- The schemes that need a host, and their usual ports. -/
def specialPorts : List (String × Nat) :=
  [("http", 80), ("https", 443), ("ws", 80), ("wss", 443), ("ftp", 21)]

/-- Whether a character is an ASCII letter. -/
def isLetter (c : Char) : Bool :=
  ('a' ≤ c && c ≤ 'z') || ('A' ≤ c && c ≤ 'Z')

/-- The scheme at the start of a text, and what follows its colon. -/
def splitScheme (cs : List Char) : Option (String × List Char) :=
  let (word, r) := cs.span fun c => isLetter c || Number.isDigit c || c = '+' || c = '-' || c = '.'
  match word.head?, r with
  | some c, ':' :: r =>
    if isLetter c then some (String.ofList (word.map Text.lowerAscii), r) else none
  | _, _ => none

/-- The characters that no host may hold. -/
def forbidden : List Char :=
  [' ', '#', '/', ':', '<', '>', '?', '@', '[', '\\', ']', '^', '|']

/-- Whether a character may stand in the host of a special scheme. -/
def isDomainChar (c : Char) : Bool :=
  0x20 ≤ c.toNat && c.toNat ≠ 0x7F && c ≠ '%' && !forbidden.contains c

/-- Replaces percent escapes by the bytes they stand for, as far as these are ASCII; none is left
over otherwise. -/
def unescape : List Char → List Char
  | '%' :: a :: b :: r =>
    match Number.readBase 16 [a, b] with
    | some n => if n < 0x80 then Char.ofNat n :: unescape r else '%' :: unescape (a :: b :: r)
    | none => '%' :: unescape (a :: b :: r)
  | c :: r => c :: unescape r
  | [] => []

/-- A part of an IPv4 address: decimal, octal after a zero, or hexadecimal after `0x`. -/
def ipv4Part (cs : List Char) : Option Nat :=
  match cs with
  | ['0'] => some 0
  | '0' :: x :: r =>
    if x = 'x' || x = 'X' then if r.isEmpty then some 0 else Number.readBase 16 r
    else Number.readBase 8 (x :: r)
  | cs => Number.readBase 10 cs

/-- Whether a host must be an IPv4 address: its last part is a number. -/
def endsInNumber (cs : List Char) : Bool :=
  let parts := Text.splitAt '.' cs
  let parts := if 1 < parts.length && parts.getLast? == some [] then parts.dropLast else parts
  match parts.getLast? with
  | some p => (!p.isEmpty && p.all Number.isDigit) ||
      ((p.take 2 == ['0', 'x'] || p.take 2 == ['0', 'X']) && (ipv4Part p).isSome)
  | none => false

/-- The value of an IPv4 address's parts: all but the last are bytes, the last fills what is
left. -/
def ipv4Value : List Nat → Option Nat
  | [] => none
  | parts =>
    let last := parts.getLast?.getD 0
    let bytes := parts.dropLast
    if 4 < parts.length || bytes.any (255 < ·) || Nat.pow 256 (5 - parts.length) ≤ last then none
    else some (bytes.foldl (fun n b => 256 * n + b) 0 * Nat.pow 256 (5 - parts.length) + last)

/-- An IPv4 address, written with four decimal parts. -/
def ipv4 (cs : List Char) : Option String := do
  let parts := Text.splitAt '.' cs
  let parts := if 1 < parts.length && parts.getLast? == some [] then parts.dropLast else parts
  let n ← ipv4Value (← parts.mapM ipv4Part)
  some s!"{n / 16777216}.{n / 65536 % 256}.{n / 256 % 256}.{n % 256}"

/-- How many 16-bit groups a piece of an IPv6 address holds. An IPv4 address may close the last one
and counts as two. -/
def ipv6Groups (final : Bool) (cs : List Char) : Option Nat :=
  if cs.isEmpty then some 0
  else
    let groups := Text.splitAt ':' cs
    let isGroup := fun (g : List Char) => g.length ≤ 4 && (Number.readBase 16 g).isSome
    if groups.all isGroup then some groups.length
    else
      let embedded := groups.getLast?.getD []
      let bytes := Text.splitAt '.' embedded
      let isByte := fun (b : List Char) =>
        b.length ≤ 3 && (b.length = 1 || b.head? != some '0') &&
          (match Number.readBase 10 b with | some n => n ≤ 255 | none => false)
      if final && groups.dropLast.all isGroup && bytes.length = 4 && bytes.all isByte then
        some (groups.length + 1)
      else none

/-- Whether a text is an IPv6 address: eight groups, or fewer around one double colon. -/
def isIpv6 (cs : List Char) : Bool :=
  match Text.splitAtLiteral [':', ':'] cs with
  | none => ipv6Groups true cs == some 8
  | some (before, after) =>
    match ipv6Groups false before, ipv6Groups true after with
    | some n, some m => n + m ≤ 7
    | _, _ => false

/-- The host of a URL. -/
def readHost (special : Bool) (cs : List Char) : Option (Option String) :=
  match cs with
  | '[' :: r =>
    match r.reverse with
    | ']' :: inner =>
      let address := inner.reverse
      if isIpv6 address then
        some (some (String.ofList ('[' :: address.map Text.lowerAscii ++ [']'])))
      else none
    | _ => none
  | [] => if special then none else some none
  | cs =>
    if special then
      let name := unescape cs
      if !name.all isDomainChar then none
      else if endsInNumber name then (ipv4 name).map some
      else some (some (String.ofList (name.map Text.lowerAscii)))
    else if cs.any (forbidden.contains ·) then none
    else some (some (String.ofList cs))

/-- Splits a host and its port at the last colon outside brackets. -/
def splitPort (cs : List Char) : List Char × Option (List Char) :=
  let (tail, rest) := cs.reverse.span fun c => c ≠ ':' && c ≠ ']'
  match rest with
  | ':' :: host => (host.reverse, some tail.reverse)
  | _ => (cs, none)

/-- The port of a URL; none if nothing follows the colon. -/
def readPort : Option (List Char) → Option (Option Nat)
  | none | some [] => some none
  | some ds => (Number.readDigits 65535 ds).map some

/-- The parts of a URL from its authority on. -/
def withAuthority (scheme : String) (special : Bool) (cs : List Char) : Option Url := do
  let isEnd := fun c => c = '/' || c = '?' || c = '#' || (special && c = '\\')
  let (authority, path) := cs.span fun c => !isEnd c
  let (hostPart, user) := authority.reverse.span (· ≠ '@')
  let (hostText, portText) := splitPort hostPart.reverse
  let host ← readHost special hostText
  let port ← readPort portText
  if host.isNone && (portText.isSome || !user.isEmpty) then none
  else
    some {
      scheme
      userInfo := String.ofList (user.drop 1).reverse
      host
      port := if port = specialPorts.lookup scheme then none else port
      path := String.ofList (path.takeWhile fun c => c ≠ '?' && c ≠ '#') }

/-- **Reads a URL.** -/
def parse? (text : String) : Option Url := do
  let isEdge := fun (c : Char) => c.toNat ≤ 0x20
  let cs := ((text.toList.dropWhile isEdge).reverse.dropWhile isEdge).reverse
  let cs := cs.filter fun c => c ≠ '\t' && c ≠ '\n' && c ≠ '\r'
  let (scheme, r) ← splitScheme cs
  if (specialPorts.lookup scheme).isSome then
    withAuthority scheme true (r.dropWhile fun c => c = '/' || c = '\\')
  else
    match r with
    | '/' :: '/' :: r => withAuthority scheme false r
    | r => some ⟨scheme, "", none, none, String.ofList (r.takeWhile fun c => c ≠ '?' && c ≠ '#')⟩

end Url

/-! ## Endpoints -/

/-- What counts in the authority of an endpoint while it is read from left to right. -/
structure AuthorityScan where
  /-- Colons that may precede a port. -/
  colons : Nat := 0
  /-- Whether a bracket has been opened. -/
  opened : Bool := false
  /-- Whether it has been closed. -/
  closed : Bool := false
  /-- Whether an escape stands outside brackets and user information. -/
  escaped : Bool := false
  /-- Whether the last character was an at sign. -/
  atSign : Bool := false

/-- Takes the next character of an authority; none if it may not stand there. -/
def AuthorityScan.next (s : AuthorityScan) (c : Char) : Option AuthorityScan :=
  let s := { s with atSign := false }
  if c = ':' then if 8 ≤ s.colons then none else some { s with colons := s.colons + 1 }
  else if c = '[' then if s.escaped || s.opened then none else some { s with opened := true }
  else if c = ']' then
    if !s.opened || s.closed then none
    else some { s with closed := true, colons := 0, escaped := false }
  else if c = '@' then some { s with colons := 0, escaped := false, atSign := true }
  else if c = '%' then some { s with escaped := true }
  else if Url.isLetter c || Number.isDigit c || "!$&'()*+,;=-._~".toList.contains c then some s
  else none

/-- Whether an authority is well formed. -/
def isAuthority (cs : List Char) : Bool :=
  match cs.foldlM AuthorityScan.next {} with
  | some s => s.opened == s.closed && s.colons ≤ 1 && !s.atSign && !s.escaped
  | none => false

/-- Whether a character may stand in the path or query of an endpoint. -/
def isPathChar (c : Char) : Bool :=
  0x21 ≤ c.toNat && c.toNat ≠ 0x7F && !(['<', '>', '\\', '^', '\x60'].contains c)

/-- Whether the path and query of an endpoint are well formed. -/
def isPathAndQuery (cs : List Char) : Bool :=
  (cs.takeWhile (· ≠ '#')).all isPathChar

/-- The scheme in front of an endpoint, if it has one, and what follows it. -/
def splitEndpointScheme (cs : List Char) : Option (List Char) × List Char :=
  let (word, r) := cs.span fun c =>
    Url.isLetter c || Number.isDigit c || c = '+' || c = '-' || c = '.'
  match r with
  | ':' :: '/' :: '/' :: r => (some word, r)
  | _ => (none, cs)

/-- **Whether a text is an endpoint**: an authority, or a scheme, an authority and perhaps a path,
or a path alone. -/
def isEndpoint (text : String) : Bool :=
  match text.toList with
  | [] => false
  | ['*'] => true
  | '/' :: r => isPathAndQuery r
  | cs =>
    match splitEndpointScheme cs with
    | (none, cs) => isAuthority cs
    | (some scheme, cs) =>
      let (authority, path) := cs.span fun c => c ≠ '/' && c ≠ '?' && c ≠ '#'
      scheme.length ≤ 64 && !authority.isEmpty && isAuthority authority && isPathAndQuery path

end IncidentMemory
