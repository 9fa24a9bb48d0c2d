import IncidentMemory.Net.Url

/-!
# Socket addresses

Where a service listens: an IP address and a port, in the notation `127.0.0.1:8080` or `[::1]:8080`.
Names of hosts are not looked up.
-/

namespace IncidentMemory

/-- **A socket address.** -/
structure SocketAddress where
  /-- The IP address, with its brackets if it has any. -/
  host : String
  /-- The port. -/
  port : Nat
  deriving DecidableEq, Repr

namespace SocketAddress

/-- Whether a text is a decimal number below 256 in its shortest form. -/
def isByte (cs : List Char) : Bool :=
  (cs.length = 1 || cs.head? ≠ some '0') && (Number.readDigits 255 cs).isSome

/-- Whether a text is an IPv4 address: four bytes. -/
def isIpv4 (cs : List Char) : Bool :=
  let parts := Text.splitAt '.' cs
  parts.length = 4 && parts.all isByte

/-- Whether a text is an IPv6 address, after which the number of a zone may stand. -/
def isZonedIpv6 (cs : List Char) : Bool :=
  match Text.splitOnce '%' cs with
  | some (address, zone) =>
    Url.isIpv6 address && (Number.readDigits 4294967295 zone).isSome
  | none => Url.isIpv6 cs

/-- Whether a text is an IP address as it is written in front of a port. -/
def isHost (cs : List Char) : Bool :=
  match cs with
  | '[' :: rest => rest.getLast? = some ']' && isZonedIpv6 rest.dropLast
  | cs => isIpv4 cs

/-- **Reads a socket address.** -/
def parse? (text : String) : Option SocketAddress := do
  let (tail, front) ← Text.splitOnce ':' text.toList.reverse
  let host := front.reverse
  let port ← Number.readDigits 65535 tail.reverse
  if isHost host then some ⟨String.ofList host, port⟩ else none

/-- The address as a text. -/
def text (a : SocketAddress) : String :=
  a.host ++ ":" ++ toString a.port

end SocketAddress

end IncidentMemory
