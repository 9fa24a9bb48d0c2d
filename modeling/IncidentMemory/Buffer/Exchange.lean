import IncidentMemory.Buffer.Basic

/-!
# An exchange over a buffer

Writers, a reader and cancellation tokens around one buffer, moved by hand: `Exchange.step` takes
one step and says what came of it. A write watches a token: it looks at the token before it looks
for a slot, every time it goes on, and gives up if the token has fired.
-/

namespace IncidentMemory

/-- A write that waits. -/
structure PendingWrite (α : Type) where
  /-- The item to write. -/
  item : α
  /-- The token that cancels it. -/
  token : Nat

/-- **The state of an exchange.** -/
structure Exchange (α : Type) where
  /-- The buffer. -/
  buffer : Buffer α
  /-- Of every writer there ever was, whether it is still there. -/
  writers : List Bool := [true]
  /-- Whether the reader is still there. -/
  reader : Bool := true
  /-- The writes that had a writer, in the order in which they began; none if it has ended. -/
  writes : List (Option (PendingWrite α)) := []
  /-- The tokens that are in use now. -/
  tokens : List Nat := [0, 1, 2, 3]
  /-- How many tokens there have been. -/
  tokenCount : Nat := 4
  /-- The tokens that have fired. -/
  fired : List Nat := []

/-- A step of an exchange. -/
inductive ExchangeStep (α : Type) where
  /-- A writer begins to write an item under a token. -/
  | write (writer : Nat) (token : Nat) (item : α)
  /-- A write goes on. -/
  | poll (write : Nat)
  /-- A write is given up. -/
  | dropWrite (write : Nat)
  /-- The reader waits for an item, and stops waiting at once. -/
  | receive
  /-- The reader takes an item if there is one. -/
  | tryReceive
  /-- A token fires. -/
  | cancel (token : Nat)
  /-- A token is replaced by a new one. -/
  | newToken (token : Nat)
  /-- A writer is doubled. -/
  | cloneWriter (writer : Nat)
  /-- A writer goes. -/
  | dropWriter (writer : Nat)
  /-- The reader goes. -/
  | dropReader

/-- What came of a step. -/
inductive ExchangeResult (α : Type) where
  /-- A write ended. -/
  | wrote (outcome : Outcome Unit)
  /-- A write or a read waits. -/
  | pending
  /-- There is no such writer. -/
  | noWriter
  /-- There is no such write. -/
  | finished
  /-- A read ended, with an item or without. -/
  | got (item : Option α)
  /-- There is no reader. -/
  | noReader
  /-- A token fired. -/
  | cancelled
  /-- A token was replaced. -/
  | replaced
  /-- Whether something was still there. -/
  | was (present : Bool)
  /-- The number of a new writer. -/
  | writer (number : Nat)

/-- The failure of a write whose token fired. -/
def Failure.writeCancelled : Failure := .cancelled "resolution buffer write"

namespace Exchange

variable {α : Type}

/-- An exchange with one writer and four tokens over a buffer. -/
def ofBuffer (b : Buffer α) : Exchange α := { buffer := b }

/-- Whether a writer is there. -/
def hasWriter (x : Exchange α) (i : Nat) : Bool :=
  x.writers.getD i false

/-- Whether anything can still be written: every write that waits has a writer of its own. -/
def canWrite (x : Exchange α) : Bool :=
  x.writers.any id || x.writes.any Option.isSome

/-- The write of a number, if it waits. -/
def pendingWrite (x : Exchange α) (i : Nat) : Option (PendingWrite α) :=
  x.writes.getD i none

/-- What came of a write that looked for a slot; its number is `i`. -/
def settle (x : Exchange α) (i : Nat) (after : Buffer α × WriteState) :
    Exchange α × ExchangeResult α :=
  let ended := { x with buffer := after.1, writes := x.writes.set i none }
  match after.2 with
  | .accepted => (ended, .wrote (.ok ()))
  | .closed => (ended, .wrote (.error .bufferClosed))
  | .pending => ({ x with buffer := after.1 }, .pending)

/-- A write that is cancelled. -/
def cancelWrite (x : Exchange α) (i : Nat) : Exchange α × ExchangeResult α :=
  ({ x with buffer := x.buffer.abandonWrite i, writes := x.writes.set i none },
    .wrote (.error .writeCancelled))

/-- Begins a write. -/
def write (x : Exchange α) (writer token : Nat) (item : α) : Exchange α × ExchangeResult α :=
  if x.hasWriter writer then
    let i := x.writes.length
    let token := x.tokens.getD token token
    let x := { x with writes := x.writes ++ [some (PendingWrite.mk item token)] }
    if token ∈ x.fired then x.cancelWrite i else x.settle i (x.buffer.startWrite i item)
  else (x, .noWriter)

/-- Goes on with a write. -/
def poll (x : Exchange α) (i : Nat) : Exchange α × ExchangeResult α :=
  match x.pendingWrite i with
  | none => (x, .finished)
  | some w =>
    if w.token ∈ x.fired then x.cancelWrite i else x.settle i (x.buffer.resumeWrite i w.item)

/-- Reads; `waits` if the reader would wait for an item. -/
def receive (x : Exchange α) (waits : Bool) : Exchange α × ExchangeResult α :=
  if x.reader then
    match x.buffer.take with
    | (b, some item) => ({ x with buffer := b }, .got (some item))
    | (_, none) => (x, if waits && x.canWrite then .pending else .got none)
  else (x, .noReader)

/-- **Takes a step.** -/
def step (x : Exchange α) : ExchangeStep α → Exchange α × ExchangeResult α
  | .write writer token item => x.write writer token item
  | .poll i => x.poll i
  | .dropWrite i =>
    match x.pendingWrite i with
    | none => (x, .was false)
    | some _ =>
      ({ x with buffer := x.buffer.abandonWrite i, writes := x.writes.set i none }, .was true)
  | .receive => x.receive true
  | .tryReceive => x.receive false
  | .cancel i => ({ x with fired := x.tokens.getD i i :: x.fired }, .cancelled)
  | .newToken i =>
    ({ x with tokens := x.tokens.set i x.tokenCount, tokenCount := x.tokenCount + 1 }, .replaced)
  | .cloneWriter i => ({ x with writers := x.writers ++ [x.hasWriter i] }, .writer x.writers.length)
  | .dropWriter i => ({ x with writers := x.writers.set i false }, .was (x.hasWriter i))
  | .dropReader =>
    if x.reader then ({ x with reader := false, buffer := x.buffer.close }, .was true)
    else (x, .was false)

end Exchange

/-! ## Reports -/

/-- What is logged when an item was written: whose it is, and how many slots are taken. -/
def Buffer.writtenEvent (incidentId : String) (queued : Nat) : Log.Event :=
  ⟨.debug, .buffer, "Resolution buffered", [("incident_id", .str incidentId),
    ("queued", .ofNat queued)]⟩

/-- What is logged when a write was cancelled. -/
def Buffer.cancelledEvent (incidentId : String) : Log.Event :=
  ⟨.warn, .buffer, "Buffer write cancelled, resolution dropped", [("incident_id", .str incidentId)]⟩

/-- What is logged about the result of a write of an incident's resolution. -/
def ExchangeResult.events {α : Type} (incidentId : String) (queued : Nat) :
    ExchangeResult α → List Log.Event
  | .wrote (.ok ()) => [Buffer.writtenEvent incidentId queued]
  | .wrote (.error (.cancelled _)) => [Buffer.cancelledEvent incidentId]
  | _ => []

end IncidentMemory
