import IncidentMemory.Config.Basic
import IncidentMemory.Log

/-!
# The buffer

A queue with a fixed number of slots between many writers and one reader. A write needs a slot. If
none is free it waits; a slot that comes free goes to the write that has waited longest, at once,
but its item enters the queue only when that write goes on. A write that gives up passes its slot
to the next.

Writes are told apart by tickets. In every state with a reader the free slots, the granted slots and
the queued items make up the capacity (`Buffer.IsConserved`), and no write waits while a slot is
free.
-/

namespace IncidentMemory

/-- What identifies a write. -/
abbrev Ticket := Nat

/-- **A buffer.** -/
structure Buffer (α : Type) where
  /-- How many slots there are. -/
  capacity : Nat
  /-- How many of them are free. -/
  free : Nat
  /-- The items that were written and not yet read, oldest first. -/
  queue : List α := []
  /-- The waiting writes that were granted a slot and have not gone on yet. -/
  granted : List Ticket := []
  /-- The waiting writes without a slot, the longest-waiting first. -/
  waiting : List Ticket := []
  /-- Whether the reader is gone. -/
  closed : Bool := false

/-- Where a write stands. -/
inductive WriteState where
  /-- Its item is in the queue. -/
  | accepted
  /-- It waits for a slot. -/
  | pending
  /-- There is no reader. -/
  | closed
  deriving DecidableEq, Repr

namespace Buffer

variable {α : Type}

/-- The largest capacity, `2 ^ 61 - 1`. -/
def maxCapacity : Nat := 2305843009213693951

/-- A buffer with all slots free. -/
def empty (capacity : Nat) : Buffer α where
  capacity
  free := capacity

/-- **Makes a buffer.** A capacity of zero is replaced by the default; one that is too large breaks
the attempt off. -/
def create (capacity : Nat) : Log.Reported (Attempt (Buffer α)) :=
  if capacity = 0 then
    ⟨.done (empty defaultBufferCapacity),
      [⟨.warn, .buffer, "Buffer capacity must be positive, using default",
        [("default", .ofNat defaultBufferCapacity)]⟩]⟩
  else if maxCapacity < capacity then
    ⟨.brokenOff s!"a semaphore may not have more than MAX_PERMITS permits ({maxCapacity})", []⟩
  else ⟨.done (empty capacity), []⟩

/-- How many slots are taken. -/
def size (b : Buffer α) : Nat :=
  b.capacity - b.free

/-- Whether no slot is taken. -/
def isEmpty (b : Buffer α) : Bool :=
  b.size == 0

/-- Frees a slot: the longest-waiting write has it. -/
def release (b : Buffer α) : Buffer α :=
  match b.waiting with
  | t :: ts => { b with granted := b.granted ++ [t], waiting := ts }
  | [] => { b with free := b.free + 1 }

/-- Puts an item into the queue. -/
def enqueue (b : Buffer α) (item : α) : Buffer α :=
  { b with queue := b.queue ++ [item] }

/-- **Begins a write.** -/
def startWrite (b : Buffer α) (t : Ticket) (item : α) : Buffer α × WriteState :=
  if b.closed then (b, .closed)
  else if 0 < b.free then ({ b with free := b.free - 1 }.enqueue item, .accepted)
  else ({ b with waiting := b.waiting ++ [t] }, .pending)

/-- **Gives a write up.** A slot it was granted goes to the next. -/
def abandonWrite (b : Buffer α) (t : Ticket) : Buffer α :=
  if t ∈ b.granted then { b with granted := b.granted.erase t }.release
  else { b with waiting := b.waiting.erase t }

/-- **Goes on with a write** that waited. -/
def resumeWrite (b : Buffer α) (t : Ticket) (item : α) : Buffer α × WriteState :=
  if b.closed then (b.abandonWrite t, .closed)
  else if t ∈ b.granted then ({ b with granted := b.granted.erase t }.enqueue item, .accepted)
  else (b, .pending)

/-- **Takes the oldest item**, whose slot comes free. -/
def take (b : Buffer α) : Buffer α × Option α :=
  match b.queue with
  | item :: items => ({ b with queue := items }.release, some item)
  | [] => (b, none)

/-- **The reader goes**: queued items are dropped, and no write waits any more. -/
def close (b : Buffer α) : Buffer α :=
  { b with
    free := b.free + b.queue.length
    queue := []
    waiting := []
    closed := true }

/-- Free slots, granted slots and queued items make up the capacity, and no write waits while a slot
is free. -/
def IsConserved (b : Buffer α) : Prop :=
  b.free + b.granted.length + b.queue.length = b.capacity ∧ (0 < b.free → b.waiting = [])

end Buffer

end IncidentMemory
