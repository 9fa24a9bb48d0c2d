import IncidentMemory.Failure
import IncidentMemory.Time.Duration

/-!
# Markers

The gate marks every incident it lets pass. A marker is set only if there is none, and is gone when
its time is over; setting it again neither replaces it nor makes it last longer. `Markers` keeps
them in memory, on a clock that counts nanoseconds.

A marker that would outlast the clock cannot be set: the attempt breaks off halfway, and from then
on the markers cannot be used any more.
-/

namespace IncidentMemory

/-- A point of time, in nanoseconds. -/
abbrev Instant := Nat

/-- The end of the clock, which counts seconds in 64 bits with a sign: `2 ^ 63` of them. -/
def Instant.limit : Instant := 9223372036854775808 * nanosPerSecond

/-- A marker. -/
structure Marker where
  /-- What is marked. -/
  key : String
  /-- What the marker says. -/
  value : String
  /-- When it is gone. -/
  expiry : Instant
  deriving DecidableEq, Repr

/-- **Markers in memory.** -/
structure Markers where
  /-- The markers, some of which may be over. -/
  entries : List Marker := []
  /-- Whether an attempt to set one broke off. -/
  broken : Bool := false
  deriving DecidableEq, Repr

namespace Markers

/-- What an incident is marked under. -/
def keyOf (incidentId : String) : String :=
  "incident:" ++ incidentId

/-- What a marker of an incident says. -/
def sentinel : String := "processed"

/-- The markers that last beyond a point of time. -/
def lasting (entries : List Marker) (now : Instant) : List Marker :=
  entries.filter fun m => now < m.expiry

/-- **Sets a marker unless there is one**, and says whether it did. -/
def setIfAbsent (m : Markers) (now : Instant) (key value : String) (ttl : Duration) :
    Markers × Attempt (Outcome Bool) :=
  if m.broken then (m, .done (.error (.internal "dedup store lock poisoned")))
  else
    let kept := lasting m.entries now
    if kept.any (·.key == key) then (⟨kept, false⟩, .done (.ok false))
    else if Instant.limit ≤ now + ttl.nanos then
      (⟨kept, true⟩, .brokenOff "overflow when adding duration to instant")
    else (⟨kept ++ [⟨key, value, now + ttl.nanos⟩], false⟩, .done (.ok true))

/-- How many markers there are; none can be counted once they are broken. -/
def size (m : Markers) (now : Instant) : Nat :=
  if m.broken then 0 else (lasting m.entries now).length

end Markers

end IncidentMemory
