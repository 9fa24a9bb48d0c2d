import IncidentMemory.Http.Wire
import IncidentMemory.Simulation.Lifetime
import Std.Async.Signal
import Std.Async.System
import Std.Async.TCP
import Std.Time.DateTime.Timestamp

/-!
# The program

Starts the service from the environment and the files of the working directory, answers requests
one after another, and ends in order when it is told to by a signal. What is kept in memory is kept
until then; connections to other services are not opened.
-/

namespace IncidentMemory.Program

open Simulation Std.Async

/-- Why no other service can be reached. -/
def unreachable : String := "this program opens no connections"

/-- What a path leads to. -/
def entryOf (path : String) : IO Startup.FileEntry := do
  try
    return .file (← IO.FS.readBinFile path).toList
  catch
    | .noFileOrDirectory .. => return .missing
    | _ => return .directory

/-- Looks around: the environment, and the files that it makes relevant. -/
def lookAround : IO Startup.Surroundings := do
  let environment ← System.getEnv
  let assignments ← entryOf ".env"
  let near : Startup.Surroundings :=
    { environment := environment.get?
      entry := fun path => if path = ".env" then assignments else .missing
      dial := fun _ => .error unreachable }
  match near.wantedFile with
  | none => return near
  | some (wanted, _) =>
    let config ← entryOf wanted
    return { near with entry := fun path => if path = wanted then config else near.entry path }

/-- The date and the time of day. -/
def today : IO Timestamp := do
  let nanos := (← Std.Time.Timestamp.now).toNanosecondsSinceUnixEpoch.val
  return ⟨nanos / 1000000000, (nanos % 1000000000).toNat⟩

/-- Writes what was logged. -/
def write (layout : Log.Layout) (events : List Log.Event) : IO Unit := do
  for line in layout.lines events do
    IO.println line
  (← IO.getStdout).flush

/-- Reports why the service does not start. -/
def refuse (fault : Startup.Fault) : IO UInt32 := do
  IO.eprintln ("Error: " ++ fault.message)
  return 1

/-- Begins to listen. -/
def bind (a : SocketAddress) : IO TCP.Socket.Server := do
  let port := a.port.toUInt16
  let address : Option Std.Net.SocketAddress :=
    match Std.Net.IPv4Addr.ofString a.host with
    | some addr => some (.v4 ⟨addr, port⟩)
    | none =>
      (Std.Net.IPv6Addr.ofString ((a.host.drop 1).dropEnd 1).toString).map
        fun addr => .v6 ⟨addr, port⟩
  match address with
  | none => throw (IO.userError Startup.Fault.address.message)
  | some address =>
    let server ← TCP.Socket.Server.mk
    server.bind address
    server.listen 128
    return server

/-- The request on a connection, if there is one. -/
def receive (client : TCP.Socket.Client) : Async (Option Http.Request) := do
  let mut arrived : List UInt8 := []
  repeat
    match ← client.recv? 65536 with
    | none => return none
    | some more =>
      arrived := arrived ++ more.toList
      match Http.Arrival.ofBytes arrived with
      | .incomplete => continue
      | .malformed => return none
      | .complete request => return some request
  return none

/-- Answers the request on a connection. -/
def attend (layout : Log.Layout) (client : TCP.Socket.Client) (l : Lifetime) : Async Lifetime := do
  match ← receive client with
  | none => return l
  | some request =>
    let (l, response) := (l.atTime (← today) ((← IO.monoNanosNow : Nat))).answer request
    let (l, events) := l.collect
    write layout events
    client.send ((response.getD (.bare 500)).render.toUTF8)
    client.shutdown
    return l

/-- Answers requests until a signal tells to end. -/
def serve (layout : Log.Layout) (server : TCP.Socket.Server) (start : Lifetime) :
    Async Lifetime := do
  let interrupt ← Signal.Waiter.mk .sigint false
  let terminate ← Signal.Waiter.mk .sigterm false
  let mut l := start
  repeat
    let next ← Selectable.one #[
      .case server.acceptSelector fun client => return some client,
      .case interrupt.selector fun _ => return none,
      .case terminate.selector fun _ => return none]
    match next with
    | none => break
    | some client =>
      try l ← attend layout client l
      catch fault => IO.eprintln (toString fault)
  return l

/-- Runs the service, and says how the program ended. -/
def run : IO UInt32 := do
  let surroundings ← lookAround
  let layout := surroundings.layout
  let planned := Startup.plan surroundings
  write layout planned.events
  match planned.value with
  | .error fault => refuse fault
  | .ok plan =>
    match launch plan (fun _ => .ok ()) (World.isolated plan unreachable (← today)) with
    | .refused fault events =>
      write layout events
      refuse fault
    | .brokenOff text events =>
      write layout events
      IO.eprintln text
      return 101
    | .running address l =>
      let (l, events) := l.collect
      write layout events
      try
        let server ← bind address
        let l ← Async.block (serve layout server l)
        write layout l.finish.collect.2
        return 0
      catch fault => refuse (.listening (toString fault))

end IncidentMemory.Program

/-- The program. -/
def main : IO UInt32 :=
  IncidentMemory.Program.run
