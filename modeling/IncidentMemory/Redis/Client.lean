import IncidentMemory.Failure
import IncidentMemory.Log
import IncidentMemory.Net.Url
import IncidentMemory.Text.Percent
import IncidentMemory.Time.Duration

/-!
# A Redis server for markers

A marker is one key with a time to live, set by the one command that sets a key only if there is
none. This module says which addresses can be connected to, what the command is, and what its reply
means.
-/

namespace IncidentMemory.Redis

/-! ## Addresses -/

/-- Where the server is, if nothing is said. -/
def defaultUrl : String := "redis://localhost:6379"

/-- Whether a text is an integer of 64 bits. -/
def isInteger (cs : List Char) : Bool :=
  match cs with
  | '-' :: ds => (Number.readDigits 9223372036854775808 ds).isSome
  | cs => (Number.readNat 9223372036854775807 cs).isSome

/-- Whether a path names a database by its number, or none. -/
def namesDatabase (path : String) : Bool :=
  let inner := (path.toList.dropWhile (· = '/')).reverse.dropWhile (· = '/')
  inner.isEmpty || isInteger inner.reverse

/-- Whether a URL tells where a server is. Encrypted connections are not supported. -/
def isAddress (url : Url) : Bool :=
  match url.scheme with
  | "redis" => url.host.isSome && namesDatabase url.path
      && (Text.percentDecoded? url.userInfo).isSome
  | "unix" | "redis+unix" => true
  | _ => false

/-- A failure to connect. -/
def connectionFailure (message : String) : Failure :=
  .dedupStore message .dedupConnection

/-- **Connects to a server.** `dial` tries to reach an address and says why it could not. -/
def connect (dial : String → Except String Unit) (url : String) : Outcome Unit :=
  match (Url.parse? url).filter isAddress with
  | none => .error (connectionFailure "Failed to create Redis client: not an address of a server")
  | some _ =>
    match dial url with
    | .error reason => .error (connectionFailure s!"Failed to connect to Redis: {reason}")
    | .ok () => .ok ()

/-- What is logged when a server was reached. -/
def connectedEvent (url : String) : Log.Event :=
  ⟨.debug, .redis, "Redis dedup store connected", [("url", .str url)]⟩

/-! ## The command -/

/-- The time to live in whole milliseconds, at least one and at most what 64 bits hold. -/
def ttlMillis (ttl : Duration) : Nat :=
  max 1 (min (ttl.nanos / 1000000) Number.maxWord)

/-- **The command that sets a marker unless there is one.** -/
def setCommand (key value : String) (ttl : Duration) : List String :=
  ["SET", key, value, "NX", "PX", toString (ttlMillis ttl)]

/-- A reply. -/
inductive Reply where
  /-- Nothing: the key is there already. -/
  | nil
  /-- A text: the key was set. -/
  | text (s : String)
  /-- A value of another kind, or an error. -/
  | other (description : String)
  deriving DecidableEq, Repr

/-- **What a reply means.** -/
def interpret : Except String Reply → Outcome Bool
  | .ok .nil => .ok false
  | .ok (.text _) => .ok true
  | .ok (.other description) => .error (.ofDedupStore s!"Redis SET NX failed: {description}")
  | .error reason => .error (.ofDedupStore s!"Redis SET NX failed: {reason}")

end IncidentMemory.Redis
