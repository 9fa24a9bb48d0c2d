import IncidentMemory.Background
import IncidentMemory.Buffer.Exchange
import IncidentMemory.Simulation.StandIn

/-!
# The world of a rehearsal

Everything that routines act upon: stores, buffer, counters, the shutdown token, a clock that stands
still unless it is moved, and who waits for what. `World.act` carries out an action. `World.attempt`
tries a call; a call that has to wait is tried again by `World.retry` when its task goes on.

A task goes on when it is made ready: a writer when it has been granted a slot or the reader has
gone, the worker when there is an item or nobody can write any more, whoever waits for the end of a
task when it ends, and whoever watches the token when that fires. Tasks go on in the order in which
they were made ready.
-/

namespace IncidentMemory.Simulation

/-- What identifies a task. -/
inductive TaskId where
  /-- A task in the background. -/
  | background (task : BackgroundTask)
  /-- The task of a step. -/
  | step (number : Nat)
  deriving DecidableEq, Repr

/-- The ticket of a task's writes; only the tasks of steps write. -/
def TaskId.ticket : TaskId → Ticket
  | .background _ => 0
  | .step n => n

/-- **The world of a rehearsal.** -/
structure World where
  /-- Who computes embeddings. -/
  embedder : Rules Embedding
  /-- Who looks for diagnoses. -/
  reasoner : Rules (Option Diagnosis)
  /-- Where memories are kept. -/
  store : VectorStore
  /-- Where markers are kept. -/
  dedup : DedupStore
  /-- The buffer. -/
  buffer : Buffer Resolution
  /-- The date and time of day. -/
  today : Timestamp
  /-- The clock. -/
  clock : Instant := 0
  /-- Whether the token has fired. -/
  stopping : Bool := false
  /-- What the worker has done. -/
  counters : Counters := {}
  /-- Whether the worker runs. -/
  workerState : WorkerState := .idle
  /-- Whether the reader has not been taken. -/
  readerFree : Bool := true
  /-- Whether the supervisor was started and nobody has taken the right to wait for it. -/
  supervisorFree : Bool := false
  /-- Whether the pipeline is there, so that more can be written. -/
  writersHeld : Bool := true
  /-- The tasks of steps that use the pipeline. -/
  users : List TaskId := []
  /-- The background tasks that have ended. -/
  ended : List BackgroundTask := []
  /-- The tasks to go on, in order. -/
  ready : List TaskId := []
  /-- The tasks that wait and watch the token, in the order in which they began to wait. -/
  watchers : List TaskId := []
  /-- Whether the worker waits for an item. -/
  receiving : Bool := false
  /-- Who waits for the end of a task. -/
  joiners : List (BackgroundTask × TaskId) := []
  /-- The calls of stand-ins, in order. -/
  trace : List Call := []
  /-- What was logged, in order. -/
  events : List Log.Event := []

/-- What came of trying a call. -/
inductive Progress (α : Type) where
  /-- It has ended. -/
  | ended (result : Attempt α)
  /-- It waits. -/
  | waits
  /-- It has made the token fire, and waits. -/
  | stops

namespace World

/-! ## Who goes on -/

/-- Makes a task ready, unless it is. -/
def wake (w : World) (t : TaskId) : World :=
  if t ∈ w.ready then w else { w with ready := w.ready ++ [t] }

/-- Makes tasks ready, one after another. -/
def wakeAll (w : World) (ts : List TaskId) : World :=
  ts.foldl wake w

/-- Makes the worker ready if it waits for an item. -/
def wakeReceiver (w : World) : World :=
  if w.receiving then { w with receiving := false }.wake (.background .worker) else w

/-- Lets the token fire. -/
def fire (w : World) : World :=
  if w.stopping then w else { w with stopping := true, watchers := [] }.wakeAll w.watchers

/-- Notes that a task waits and watches the token. -/
def watch (w : World) (t : TaskId) : World :=
  { w with watchers := w.watchers ++ [t] }

/-- Notes that a task does not watch the token any more. -/
def unwatch (w : World) (t : TaskId) : World :=
  { w with watchers := w.watchers.erase t }

/-- Whether anything can still be written. -/
def canWrite (w : World) : Bool :=
  w.writersHeld || !w.users.isEmpty

/-- The buffer after a change; a writer that was granted a slot by it goes on. -/
def withBuffer (w : World) (b : Buffer Resolution) : World :=
  let granted := b.granted.filter fun t => t ∉ w.buffer.granted
  { w with buffer := b }.wakeAll (granted.map TaskId.step)

/-- The reader goes, and every writer that waits goes on. -/
def closeBuffer (w : World) : World :=
  { w with buffer := w.buffer.close }.wakeAll (w.buffer.waiting.map TaskId.step)

/-- The pipeline goes. -/
def dropWriters (w : World) : World :=
  let w := { w with writersHeld := false }
  if w.canWrite then w else w.wakeReceiver

/-- A task is over: whatever it waited for, used or kept others from is free. -/
def leave (w : World) (t : TaskId) : World :=
  let w := { w.unwatch t with ready := w.ready.erase t, users := w.users.erase t }
  let w := match t with
    | .background task =>
      let waiting := (w.joiners.filter (·.1 = task)).map (·.2)
      { w with ended := task :: w.ended, joiners := w.joiners.filter (·.1 ≠ task) }.wakeAll waiting
    | .step n =>
      ({ w with joiners := w.joiners.filter (·.2 ≠ t) }).withBuffer (w.buffer.abandonWrite n)
  if w.canWrite then w else w.wakeReceiver

/-! ## Actions -/

/-- **Carries out an action.** -/
def act (w : World) : (a : Action) → World × a.Result
  | .log event => ({ w with events := w.events ++ [event] }, ())
  | .now => (w, w.today)
  | .isStopping => (w, w.stopping)
  | .stop => (w.fire, ())
  | .count counter => ({ w with counters := w.counters.add counter }, ())
  | .counters => (w, w.counters)
  | .workerState => (w, w.workerState)
  | .setWorkerState state => ({ w with workerState := state }, ())
  | .buffered => (w, w.buffer.size)
  | .bufferCapacity => (w, w.buffer.capacity)
  | .takeReader => ({ w with readerFree := false }, w.readerFree)
  | .dropReader => (w.closeBuffer, ())
  | .spawn task =>
    ({ w.wake (.background task) with
        supervisorFree := w.supervisorFree || task = .supervisor }, ())
  | .takeSupervisor => ({ w with supervisorFree := false }, w.supervisorFree)

/-! ## Calls -/

/-- What comes of a stand-in's behaviour. -/
def progress {α : Type} : Behaviour α → Progress (Outcome α)
  | .answers a => .ended (.done (.ok a))
  | .fails f => .ended (.done (.error f))
  | .breaksOff text => .ended (.brokenOff text)
  | .hangs => .waits
  | .cancels => .stops

/-- A call that has ended at once. -/
def answered {α : Type} (o : Outcome α) : Progress (Outcome α) :=
  .ended (.done o)

/-- Notes a call of a stand-in. -/
def traced (w : World) (c : Call) : World :=
  { w with trace := w.trace ++ [c] }

/-- Creates a collection. -/
def createCollection (w : World) (name : String) (dims : Nat) (distance : Distance) :
    World × Progress (Outcome Unit) :=
  match w.store with
  | .scripted s =>
    ({ w.traced (.createCollection name dims distance) with
        store := .scripted { s with create := s.create.rest } }, progress s.create.next)
  | .inMemory s =>
    match s.create name dims distance with
    | .ok s' =>
      ({ w with
          store := .inMemory s'
          events := w.events ++ [Collections.createdEvent name dims distance] }, answered (.ok ()))
    | .error f => (w, answered (.error f))

/-- Looks for a collection. -/
def hasCollection (w : World) (name : String) : World × Progress (Outcome Bool) :=
  match w.store with
  | .scripted s =>
    ({ w.traced (.hasCollection name) with store := .scripted { s with has := s.has.rest } },
      progress s.has.next)
  | .inMemory s => (w, answered (.ok (s.has name)))

/-- Puts points in. -/
def upsert (w : World) (points : List Point) : World × Progress (Outcome Unit) :=
  match w.store with
  | .scripted s =>
    ({ w.traced (.upsert points) with store := .scripted { s with upsert := s.upsert.rest } },
      progress s.upsert.next)
  | .inMemory s =>
    match s.upsert points with
    | .ok s' => ({ w with store := .inMemory s' }, answered (.ok ()))
    | .error f => (w, answered (.error f))

/-- Looks for similar points. -/
def search (w : World) (query : Embedding) (limit : Nat) (least : Option Single) :
    World × Progress (Outcome (List Hit)) :=
  match w.store with
  | .scripted s =>
    ({ w.traced (.search query limit least) with
        store := .scripted { s with search := s.search.rest } }, progress s.search.next)
  | .inMemory s => (w, answered (s.search query limit least))

/-- Asks for a point. -/
def get (w : World) (id : String) : World × Progress (Outcome (Option Point)) :=
  match w.store with
  | .scripted s =>
    ({ w.traced (.get id) with store := .scripted { s with get := s.get.rest } },
      progress s.get.next)
  | .inMemory s => (w, answered (s.get id))

/-- Sets a marker unless there is one. -/
def setIfAbsent (w : World) (key value : String) (ttl : Duration) :
    World × Progress (Outcome Bool) :=
  match w.dedup with
  | .scripted replies =>
    ({ w.traced (.setIfAbsent key value ttl) with dedup := .scripted replies.rest },
      progress replies.next)
  | .inMemory m =>
    let (m', result) := m.setIfAbsent w.clock key value ttl
    ({ w with dedup := .inMemory m' }, .ended result)

/-- Takes an item, or waits for one. -/
def receive (w : World) : World × Progress (Option Resolution) :=
  match w.buffer.take with
  | (b, some item) => (w.withBuffer b, .ended (.done (some item)))
  | (_, none) =>
    if w.canWrite then ({ w with receiving := true }, .waits) else (w, .ended (.done none))

/-- What came of a write. -/
def sent (w : World) (after : Buffer Resolution × WriteState) : World × Progress (Outcome Unit) :=
  let w := w.withBuffer after.1
  match after.2 with
  | .accepted => (w.wakeReceiver, answered (.ok ()))
  | .closed => (w, answered (.error .bufferClosed))
  | .pending => (w, .waits)

/-- Waits until a task has ended. -/
def join (w : World) (t : TaskId) (task : BackgroundTask) : World × Progress Unit :=
  if task ∈ w.ended then (w, .ended (.done ()))
  else ({ w with joiners := w.joiners ++ [(task, t)] }, .waits)

/-- **Tries a call** of a task. -/
def attempt (w : World) (t : TaskId) : (c : Call) → World × Progress c.Reply
  | .embed text => (w.traced (.embed text), progress (w.embedder.behaviour text))
  | .resolve incident goal =>
    (w.traced (.resolve incident goal), progress (w.reasoner.behaviour goal))
  | .setIfAbsent key value ttl => w.setIfAbsent key value ttl
  | .createCollection name dims distance => w.createCollection name dims distance
  | .hasCollection name => w.hasCollection name
  | .upsert points => w.upsert points
  | .search query limit least => w.search query limit least
  | .get id => w.get id
  | .send r => w.sent (w.buffer.startWrite t.ticket r)
  | .receive => w.receive
  | .join task => w.join t task

/-- **Tries a call again** that has waited. A stand-in that has not answered never will. -/
def retry (w : World) (t : TaskId) : (c : Call) → World × Progress c.Reply
  | .send r => w.sent (w.buffer.resumeWrite t.ticket r)
  | .receive => w.receive
  | .join task => w.join t task
  | _ => (w, .waits)

/-- **Gives a call up** that has waited. -/
def giveUp (w : World) (t : TaskId) : Call → World
  | .send _ => w.withBuffer (w.buffer.abandonWrite t.ticket)
  | .receive => { w with receiving := false }
  | _ => w

end World

end IncidentMemory.Simulation
