import IncidentMemory.Simulation.World

/-!
# What making tasks ready leaves alone

Tasks are made ready on many occasions – a slot is granted, the token fires,
the reader goes. None of it touches a store, the buffer or the clock.

`World.bare` is a world to start from where an example needs one.
-/

namespace IncidentMemory.Simulation.World

/-- A world with nothing in it: no collections, no markers, and a buffer with
one slot. -/
def bare : World where
  embedder := { otherwise := .answers [] }
  reasoner := { otherwise := .answers none }
  store := .inMemory { bound := "memories", dims := 2 }
  dedup := .inMemory {}
  buffer := .empty 1
  today := ⟨0, 0⟩

/-- **Making tasks ready changes who is ready**, and nothing else. -/
theorem wakeAll_eq (w : World) (ts : List TaskId) :
    w.wakeAll ts = { w with ready := (w.wakeAll ts).ready } := by
  unfold wakeAll
  induction ts generalizing w with
  | nil => rfl
  | cons t ts ih =>
    rw [List.foldl_cons, ih]
    unfold wake
    split <;> rfl

@[simp] theorem wakeAll_store (w : World) (ts : List TaskId) : (w.wakeAll ts).store = w.store := by
  rw [wakeAll_eq]

/-- A change of the buffer changes nothing besides but who is ready. -/
theorem withBuffer_eq (w : World) (b : Buffer Resolution) :
    w.withBuffer b = { w with buffer := b, ready := (w.withBuffer b).ready } :=
  wakeAll_eq _ _

/-- That the reader goes changes nothing besides the buffer but who is ready. -/
theorem closeBuffer_eq (w : World) :
    w.closeBuffer = { w with buffer := w.buffer.close, ready := w.closeBuffer.ready } :=
  wakeAll_eq _ _

/-- That the worker may go on changes who is ready, and whether it waits. -/
theorem wakeReceiver_eq (w : World) :
    w.wakeReceiver
      = { w with ready := w.wakeReceiver.ready, receiving := w.wakeReceiver.receiving } := by
  unfold wakeReceiver wake
  split
  · split <;> rfl
  · rfl

/-- Markers in memory decide at once. -/
theorem setIfAbsent_inMemory {w : World} {m : Markers} (hw : w.dedup = .inMemory m)
    (key value : String) (ttl : Duration) :
    w.setIfAbsent key value ttl
      = ({ w with dedup := .inMemory (m.setIfAbsent w.clock key value ttl).1 },
        .ended (m.setIfAbsent w.clock key value ttl).2) := by
  unfold setIfAbsent
  rw [hw]

/-- That the token fires leaves the vector store alone. -/
@[simp] theorem fire_store (w : World) : w.fire.store = w.store := by
  unfold fire
  split
  · rfl
  · exact wakeAll_store _ _

/-- It leaves alone what was counted. -/
@[simp] theorem fire_counters (w : World) : w.fire.counters = w.counters := by
  unfold fire
  split
  · rfl
  · rw [wakeAll_eq]

/-- It leaves alone what stand-ins were asked. -/
@[simp] theorem fire_trace (w : World) : w.fire.trace = w.trace := by
  unfold fire
  split
  · rfl
  · rw [wakeAll_eq]

end IncidentMemory.Simulation.World
