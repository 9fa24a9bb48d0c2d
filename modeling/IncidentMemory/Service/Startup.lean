import IncidentMemory.Backends
import IncidentMemory.Buffer.Basic
import IncidentMemory.Config.EnvironmentFile
import IncidentMemory.Config.File
import IncidentMemory.Log.Filter
import IncidentMemory.Memory.Preparation
import IncidentMemory.Net.SocketAddress
import IncidentMemory.Service.Basic

/-!
# Start and end of the service

The service is started in two parts. `Startup.plan` finds out what the operator wants from the
environment and the files, and makes the backends. `Startup.Plan.start` is the routine that prepares
the collection, starts the worker and begins to listen. The first thing that goes wrong ends the
start; only a collection that cannot be prepared does not. `Startup.finish` is the routine of an
orderly end.
-/

namespace IncidentMemory.Startup

open Log (Reported)

/-- **Why the service does not start.** -/
inductive Fault where
  /-- A configuration file cannot be read. -/
  | configFile (path : String)
  /-- The port is no number of a port. -/
  | port
  /-- A part of the service cannot be made. -/
  | part (failure : Failure)
  /-- Requests must show a key, but there is none. -/
  | noKey
  /-- The host and the port are no address. -/
  | address
  /-- It is not possible to listen there. -/
  | listening (reason : String)

/-- The fault as a text. -/
def Fault.message : Fault → String
  | .configFile path => "failed to load config from " ++ path
  | .port => "KUBEMIND_PORT must be a valid port number"
  | .part failure => failure.message
  | .noKey => "KUBEMIND_REQUIRE_AUTH is set but KUBEMIND_API_KEY is not"
  | .address => "invalid socket address syntax"
  | .listening reason => reason

/-! ## The surroundings -/

/-- What a path leads to. -/
inductive FileEntry where
  /-- Nothing. -/
  | missing
  /-- A directory. -/
  | directory
  /-- A file with these contents. -/
  | file (contents : List UInt8)

/-- The contents of a file. -/
def FileEntry.contents? : FileEntry → Option (List UInt8)
  | .file contents => some contents
  | .missing | .directory => none

/-- Whether there is anything. -/
def FileEntry.isThere : FileEntry → Bool
  | .missing => false
  | .directory | .file _ => true

/-- **What a service finds when it starts.** -/
structure Surroundings where
  /-- The environment. -/
  environment : Environment
  /-- The files by their paths. -/
  entry : String → FileEntry
  /-- Tries to reach an address. -/
  dial : String → Except String Unit

namespace Surroundings

/-- The environment, with the variables of the file `.env` if there is one. -/
def fullEnvironment (s : Surroundings) : Environment :=
  match (s.entry ".env").contents? with
  | some contents => EnvironmentFile.apply s.environment contents
  | none => s.environment

/-- How the log is written. -/
def layout (s : Surroundings) : Log.Layout :=
  .ofEnvironment s.fullEnvironment

/-- Where the configuration file is looked for, and whether it must be there: one that is named must
be, the usual one need not. -/
def wantedFile (s : Surroundings) : Option (String × Bool) :=
  match s.fullEnvironment "KUBEMIND_CONFIG", s.fullEnvironment "HOME" with
  | some path, _ => some (path, true)
  | none, some home => if home.isEmpty then none else some (Config.defaultPath home, false)
  | none, none => none

/-- The path of the configuration file, if there is one. -/
def configPath (s : Surroundings) : Option String :=
  s.wantedFile.bind fun (path, needed) =>
    if needed || (s.entry path).isThere then some path else none

/-- **The configuration**: that of the file, overlaid by the environment. -/
def config (s : Surroundings) : Reported (Except Fault Config) :=
  let written : Except Fault Config :=
    match s.configPath with
    | none => .ok {}
    | some path =>
      match Config.ofFile path (s.entry path).contents? with
      | .ok c => .ok c
      | .error _ => .error (.configFile path)
  match written with
  | .ok c =>
    let overlaid := c.overlay s.fullEnvironment
    ⟨.ok overlaid.value, overlaid.warnings⟩
  | .error fault => ⟨.error fault, []⟩

/-- The port to listen at. -/
def port (s : Surroundings) : Except Fault Nat :=
  match Number.readNat 65535 ((s.fullEnvironment "KUBEMIND_PORT").getD "8080").toList with
  | some port => .ok port
  | none => .error .port

end Surroundings

/-! ## The plan -/

/-- **What is known before anything runs.** -/
structure Plan where
  /-- The settings. -/
  settings : Settings
  /-- The backends. -/
  backends : Backends
  /-- The host to listen at. -/
  host : String
  /-- The port to listen at. -/
  port : Nat
  /-- Whether requests must show a key. -/
  keyRequired : Bool
  /-- The key that is set. -/
  apiKey : Option String

/-- **Makes a plan** from the surroundings. -/
def plan (s : Surroundings) : Reported (Except Fault Plan) :=
  s.config.andThen fun config =>
    match s.port with
    | .error fault => ⟨.error fault, []⟩
    | .ok port =>
      let settings := config.settings
      let made := Backends.create s.fullEnvironment s.dial config settings.value
      ⟨(made.value.mapError .part).map fun backends =>
          { settings := settings.value
            backends
            host := (s.fullEnvironment "KUBEMIND_HOST").getD "0.0.0.0"
            port
            keyRequired := (s.fullEnvironment "KUBEMIND_REQUIRE_AUTH").isSome
            apiKey := s.fullEnvironment "KUBEMIND_API_KEY" },
        settings.warnings ++ made.events⟩

/-! ## The start -/

/-- A part of the start, which a fault ends. -/
abbrev Starting (α : Type) := ExceptT Fault Routine α

/-- A decision as a part of the start. -/
def decided {α : Type} (e : Except Fault α) : Starting α :=
  ExceptT.mk (.done e)

/-- A routine as a part of the start. -/
def always {α : Type} (r : Routine α) : Starting α :=
  ExceptT.lift r

namespace Plan

/-- The service of a plan. -/
def service (p : Plan) : Service where
  settings := p.settings
  collection := p.backends.vectorStore.collection
  backend := p.backends.dedupStore.name
  apiKey := if p.keyRequired then p.apiKey else none

/-- An event about the service. -/
def event (message : String) (fields : List (String × Json) := []) : Log.Event :=
  ⟨.info, .server, message, fields⟩

/-- What is logged when the worker has been started. -/
def workerStartedEvent (p : Plan) : Log.Event :=
  event "Memory consolidator started" [("buffer_capacity", .ofNat p.settings.bufferCapacity),
    ("dedup_window_secs", .ofNat p.settings.dedupWindow.seconds)]

/-- Makes sure that there is a key if one is required. -/
def checkKey (p : Plan) : Except Fault Log.Event :=
  match p.keyRequired, p.apiKey with
  | true, some _ => .ok (event "Authentication enabled")
  | true, none => .error .noKey
  | false, _ => .ok (event "Authentication disabled")

/-- The address to listen at. -/
def address (p : Plan) : Except Fault SocketAddress :=
  match SocketAddress.parse? (p.host ++ ":" ++ toString p.port) with
  | some a => .ok a
  | none => .error .address

/-- The buffer must not be too large; an attempt to make it breaks off then. -/
def checkBuffer (p : Plan) : Routine Unit :=
  let made : Reported (Attempt (Buffer Resolution)) := Buffer.create p.settings.bufferCapacity
  match made.value with
  | .done _ => return ()
  | .brokenOff text => .brokenOff text

/-- **Starts the service.** `listen` tries to listen at an address. -/
def start (p : Plan) (listen : SocketAddress → Except String Unit) : Starting SocketAddress := do
  let _ ← always (Memory.prepareCollection p.service.collection p.settings.dims)
  always p.checkBuffer
  decided ((← always Background.start.run).mapError .part)
  always (Routine.report p.workerStartedEvent)
  always (Routine.report (← decided p.checkKey))
  let address ← decided p.address
  always (Routine.report (event "Starting kubemind-server" [("addr", .str address.text)]))
  decided ((listen address).mapError .listening)
  return address

end Plan

/-! ## The end -/

/-- **Ends the service** after it was asked to: the token fires, so that nobody waits any more, and
the worker is waited for. -/
def finish : Routine Unit := do
  Routine.report (Plan.event "Shutdown signal received")
  Routine.perform .stop
  Background.shutdown
  Routine.report (Plan.event "Server stopped cleanly")

end IncidentMemory.Startup
