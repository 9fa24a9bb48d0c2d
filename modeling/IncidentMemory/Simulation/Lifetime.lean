import IncidentMemory.Service.Startup
import IncidentMemory.Simulation.Tasks

/-!
# A service from its start to its end

A lifetime carries out a plan in a world: the start, then requests one after another, then the end.
Each is a task beside the worker and its supervisor.
-/

namespace IncidentMemory.Simulation

/-- **A service at work.** -/
structure Lifetime where
  /-- Its interface. -/
  server : Http.Server
  /-- Its tasks and their world; a task has a result if it answers a request. -/
  schedule : Schedule (Option Http.Response)
  /-- How many tasks have been begun. -/
  begun : Nat

namespace Lifetime

/-- Begins a task and lets all tasks go on. How it ended is said, if it has. -/
def perform (l : Lifetime) (r : Routine (Option Http.Response)) :
    Lifetime × Option (Ending (Option Http.Response)) :=
  let task := TaskId.step l.begun
  let schedule := (l.schedule.start task r).run
  ({ l with
      schedule := { schedule with endings := [] }
      begun := l.begun + 1 },
    schedule.endings.lookup task)

/-- The lifetime with a changed world. -/
def withWorld (l : Lifetime) (w : World) : Lifetime :=
  { l with schedule := { l.schedule with world := w } }

/-- Sets the date and the time of day, and the clock. -/
def atTime (l : Lifetime) (today : Timestamp) (clock : Instant) : Lifetime :=
  l.withWorld { l.schedule.world with today, clock }

/-- Hands over what was logged since the last time, and forgets it together with the trace. -/
def collect (l : Lifetime) : Lifetime × List Log.Event :=
  (l.withWorld { l.schedule.world with events := [], trace := [] }, l.schedule.world.events)

/-- **Answers a request**; there is no answer if the handler breaks off or waits for ever. -/
def answer (l : Lifetime) (request : Http.Request) : Lifetime × Option Http.Response :=
  match l.perform (some <$> l.server.respond request) with
  | (l, some (.result response)) => (l, response)
  | (l, _) => (l, none)

/-- **The end.** -/
def finish (l : Lifetime) : Lifetime :=
  (l.perform ((fun _ => none) <$> Startup.finish)).1

end Lifetime

/-! ## A world without other processes -/

/-- The vector store that is named, if no server answers; the reason is why. -/
def VectorStore.isolated (c : VectorStoreConfig) (dims : Nat) (reason : String) : VectorStore :=
  match c.provider with
  | .memory => .inMemory { bound := c.collection, dims }
  | .qdrant =>
    let server : Qdrant.Server := fun _ => .error reason
    .scripted
      { search := ⟨.ofOutcome (Qdrant.search server c.collection [] 0 none), []⟩
        upsert := ⟨.ofOutcome (Qdrant.upsert server c.collection []), []⟩
        get := ⟨.ofOutcome (Qdrant.get server c.collection ""), []⟩
        has := ⟨.ofOutcome (Qdrant.hasCollection server c.collection), []⟩
        create := ⟨.ofOutcome (Qdrant.createCollection server c.collection dims .cosine), []⟩ }

/-- **The world of a plan if no other process can be reached**: what is kept in memory works, and
whatever else is asked for fails. The reason is why. -/
def World.isolated (plan : Startup.Plan) (reason : String) (today : Timestamp) : World where
  embedder := { otherwise := .ofOutcome (plan.backends.embedder.interpret (.error reason)) }
  reasoner := { otherwise := .answers none }
  store := .isolated plan.backends.vectorStore plan.settings.dims reason
  dedup := .inMemory {}
  buffer := .empty plan.settings.bufferCapacity
  today

/-! ## The start -/

/-- How a start ended. -/
inductive Launch where
  /-- The service listens at an address. -/
  | running (address : SocketAddress) (lifetime : Lifetime)
  /-- It does not start. -/
  | refused (fault : Startup.Fault) (events : List Log.Event)
  /-- The start broke off. -/
  | brokenOff (text : String) (events : List Log.Event)

/-- **Starts the service of a plan** in a world. -/
def launch (plan : Startup.Plan) (listen : SocketAddress → Except String Unit) (world : World) :
    Launch :=
  let task := TaskId.step 0
  let background := fun t => (fun _ => .ok none) <$> plan.service.background t
  let idle : Schedule (Except Startup.Fault (Option SocketAddress)) := .idle world background
  let schedule := (idle.start task ((·.map some) <$> (plan.start listen).run)).run
  match schedule.endings.lookup task with
  | some (.result (.ok (some address))) => .running address
      { server := plan.service.server
        schedule :=
          { world := schedule.world
            tasks := schedule.tasks.map (Task.map fun _ => none) }
        begun := 1 }
  | some (.result (.error fault)) => .refused fault schedule.world.events
  | some (.brokenOff text) => .brokenOff text schedule.world.events
  | _ => .brokenOff "the start did not come to an end" schedule.world.events

end IncidentMemory.Simulation
