import IncidentMemory.Proofs.Window

/-!
# Windows that outlast the clock

A dedup window may be longer than the clock can count: what a configuration may
ask for goes up to `2 ^ 64` seconds, and the clock ends at half of that. A
marker that would last beyond the end of the clock cannot be set. The attempt
breaks off while the markers are locked, and from then on nobody can use them:
every gate falls back to its policy, and one that lets incidents pass lets all
of them pass, repetitions included.

`Gate.enforces_iff` says when this happens, and that nothing else does it: calls
one after another are all decided by the window law exactly if each of them
finds its incident within a window or begins one that ends on the clock. The
first call that does neither breaks off.
-/

namespace IncidentMemory

open Simulation

namespace Markers

/-- What is said of a marker that would outlast the clock. -/
def overflow : String := "overflow when adding duration to instant"

/-- What is said when the markers cannot be used any more. -/
def poisoned : Failure := .internal "dedup store lock poisoned"

variable {m : Markers} {now later : Instant} {claims : List Claim} {key : String}

/-- **A key that is not held and cannot be held long enough breaks the
markers.** -/
theorem Records.break (h : m.Records now claims) (value : String) {ttl : Duration}
    (hle : now ≤ later) (hfree : ¬ Held claims later key)
    (hend : Instant.limit ≤ later + ttl.nanos) :
    ∃ m', m.setIfAbsent later key value ttl = (m', .brokenOff overflow) ∧ m'.broken = true := by
  refine ⟨⟨Markers.lasting m.entries later, true⟩, ?_, rfl⟩
  unfold setIfAbsent
  rw [if_neg (by rw [h.whole]; exact Bool.false_ne_true),
    if_neg fun hany => hfree ((h.any_lasting_iff hle).mp hany), if_pos hend]
  rfl

/-- Broken markers stay as they are, and no key can be asked for. -/
theorem setIfAbsent_of_broken (h : m.broken = true) (now : Instant) (key value : String)
    (ttl : Duration) : m.setIfAbsent now key value ttl = (m, .done (.error poisoned)) := by
  unfold setIfAbsent
  rw [if_pos h]
  rfl

end Markers

namespace Gate

/-- What a gate does when the dedup store fails. -/
def onFailure (g : Gate) (f : Failure) : Answer :=
  match g.policy with
  | .failOpen => passes
  | .failClosed => some (.done (.error f))

/-! ## One call -/

/-- The markers are asked in one call of the dedup store. -/
theorem carryOut_setIfAbsent (g : Gate) (incidentId : String) {w : World} {m m' : Markers}
    (t : TaskId) {result : Attempt (Outcome Bool)} (hw : w.dedup = .inMemory m)
    (h : m.setIfAbsent w.clock (Markers.keyOf incidentId) Markers.sentinel g.window
      = (m', result)) :
    w.carryOut t (Procedure.setIfAbsent (Markers.keyOf incidentId) Markers.sentinel g.window).run
      = ({ w with dedup := .inMemory m' }, some result) := by
  refine (World.carryOut_ask w t (.setIfAbsent _ _ _)).trans ?_
  show World.tried (w.setIfAbsent _ _ _) = _
  rw [World.setIfAbsent_inMemory hw, h]
  rfl

/-- **A gate breaks off with its dedup store.** -/
theorem carryOut_isDuplicate_brokenOff (g : Gate) (incidentId : String) {w : World}
    {m m' : Markers} (t : TaskId) {text : String} (hw : w.dedup = .inMemory m)
    (h : m.setIfAbsent w.clock (Markers.keyOf incidentId) Markers.sentinel g.window
      = (m', .brokenOff text)) :
    w.carryOut t (g.isDuplicate incidentId).run
      = ({ w with dedup := .inMemory m' }, some (.brokenOff text)) := by
  unfold isDuplicate
  rw [World.carryOut_run_outcome_bind, carryOut_setIfAbsent g incidentId t hw h]
  rfl

/-- **A gate whose dedup store fails goes by its policy.** -/
theorem carryOut_isDuplicate_failed (g : Gate) (incidentId : String) {w : World}
    {m m' : Markers} (t : TaskId) {f : Failure} (hw : w.dedup = .inMemory m)
    (h : m.setIfAbsent w.clock (Markers.keyOf incidentId) Markers.sentinel g.window
      = (m', .done (.error f))) :
    (w.carryOut t (g.isDuplicate incidentId).run).1.dedup = .inMemory m'
      ∧ (w.carryOut t (g.isDuplicate incidentId).run).2 = g.onFailure f := by
  unfold isDuplicate onFailure
  rw [World.carryOut_run_outcome_bind, carryOut_setIfAbsent g incidentId t hw h,
    World.andThen_done]
  cases hpolicy : g.policy with
  | failOpen => exact ⟨rfl, rfl⟩
  | failClosed => exact ⟨rfl, rfl⟩

/-- The dedup store is in memory and cannot be used any more. -/
def IsBroken (w : World) : Prop :=
  ∃ m, w.dedup = .inMemory m ∧ m.broken = true

/-- **A call that the clock has no room for** breaks off, and breaks the dedup
store. -/
theorem Keeps.break {w : World} {now : Instant} {history : List (GateCall × Answer)}
    (h : Keeps w now history) {c : GateCall} (hle : now ≤ c.time)
    (hfit : ¬ c.Fits (passages history)) :
    (ask w c).2 = some (.brokenOff Markers.overflow) ∧ IsBroken (ask w c).1 := by
  obtain ⟨m, hw, hrec⟩ := h
  obtain ⟨hfree, hend⟩ := not_or.mp hfit
  have hclock : ({ w with clock := c.time } : World).dedup = .inMemory m := hw
  obtain ⟨m', hset, hbroken⟩ := hrec.break Markers.sentinel hle
    (mt (held_claims_iff history c).mp hfree) (Nat.not_lt.mp hend)
  have hcarry := c.gate.carryOut_isDuplicate_brokenOff c.incidentId c.caller hclock hset
  unfold ask
  rw [hcarry]
  exact ⟨rfl, m', rfl, hbroken⟩

/-- Once the dedup store is broken, a call goes by the policy of its gate. -/
theorem IsBroken.ask {w : World} (h : IsBroken w) (c : GateCall) :
    (Gate.ask w c).2 = c.gate.onFailure Markers.poisoned ∧ IsBroken (Gate.ask w c).1 := by
  obtain ⟨m, hw, hbroken⟩ := h
  have hclock : ({ w with clock := c.time } : World).dedup = .inMemory m := hw
  obtain ⟨hdedup, hanswer⟩ := c.gate.carryOut_isDuplicate_failed c.incidentId c.caller hclock
    (Markers.setIfAbsent_of_broken hbroken _ _ _ _)
  exact ⟨hanswer, m, hdedup, hbroken⟩

/-- And so do all that follow. -/
theorem IsBroken.askAll {w : World} (h : IsBroken w) (cs : List GateCall) :
    ∀ x ∈ (Gate.askAll w cs).2, x.2 = x.1.gate.onFailure Markers.poisoned := by
  induction cs generalizing w with
  | nil => exact fun x hx => absurd hx List.not_mem_nil
  | cons c cs ih =>
    obtain ⟨hanswer, hbroken⟩ := h.ask c
    intro x hx
    rcases List.mem_cons.mp hx with rfl | hx
    · exact hanswer
    · exact ih hbroken x hx

/-! ## Many calls -/

/-- **A call is decided by the window law**, given the passages before it: it is
answered, lets its incident through exactly if this is within no window, and
leaves the markers usable. -/
structure IsEnforced (w : World) (earlier : List GateCall) (c : GateCall) : Prop where
  /-- The incident passes, or is a repetition. -/
  answered : (ask (askAll w earlier).1 c).2 = passes ∨ (ask (askAll w earlier).1 c).2 = repeats
  /-- It passes exactly if it is within no window. -/
  passes_iff : (ask (askAll w earlier).1 c).2 = passes
    ↔ ¬ c.IsHeld (passages (askAll w earlier).2)
  /-- The markers can still be used. -/
  usable : ¬ IsBroken (ask (askAll w earlier).1 c).1

/-- **All calls are decided by the window law.** -/
def Enforces (w : World) (calls : List GateCall) : Prop :=
  ∀ earlier c later, calls = earlier ++ c :: later → IsEnforced w earlier c

/-- A dedup store that records the passages is not broken. -/
theorem Keeps.not_isBroken {w : World} {now : Instant} {history : List (GateCall × Answer)}
    (h : Keeps w now history) : ¬ IsBroken w := by
  obtain ⟨m, hw, hrec⟩ := h
  rintro ⟨m', hw', hbroken⟩
  obtain rfl : m = m' := by simpa using hw.symm.trans hw'
  exact Bool.false_ne_true (hrec.whole.symm.trans hbroken)

/-- Calls for which the clock has room, up to a point of time that is not before
any of them, are recorded in a dedup store that was empty. -/
theorem keeps_askAll_of_fits {w : World} (hw : w.dedup = .inMemory {}) {cs : List GateCall}
    (hord : cs.Pairwise (·.time ≤ ·.time))
    (hfits : ∀ earlier c later, cs = earlier ++ c :: later →
      c.Fits (passages (askAll w earlier).2))
    {now : Instant} (hnow : ∀ c ∈ cs, c.time ≤ now) :
    Keeps (askAll w cs).1 now (askAll w cs).2 :=
  have hstart : Keeps w 0 [] := ⟨{}, hw, Markers.Records.empty 0⟩
  hstart.askAll_of_fits hord (fun c _ => Nat.zero_le c.time) hfits hnow (Nat.zero_le now)

/-- The calls up to one of them are in order, and none is after it. -/
theorem pairwise_earlier {cs earlier later : List GateCall} {c : GateCall}
    (hord : cs.Pairwise (·.time ≤ ·.time)) (hsplit : cs = earlier ++ c :: later) :
    earlier.Pairwise (·.time ≤ ·.time) ∧ ∀ d ∈ earlier, d.time ≤ c.time := by
  obtain ⟨hearlier, -, hcross⟩ := List.pairwise_append.mp (hsplit ▸ hord)
  exact ⟨hearlier, fun d hd => hcross d hd c List.mem_cons_self⟩

/-- **Where the window law is kept, the clock has room**: otherwise the first
call without room would have broken the store. -/
theorem Enforces.fits {w : World} (hw : w.dedup = .inMemory {}) {calls : List GateCall}
    (hord : calls.Pairwise (·.time ≤ ·.time)) (h : Enforces w calls)
    (earlier : List GateCall) (c : GateCall) (later : List GateCall)
    (hsplit : calls = earlier ++ c :: later) : c.Fits (passages (askAll w earlier).2) := by
  induction hn : earlier.length using Nat.strongRecOn generalizing earlier c later with
  | ind n ih =>
    -- the calls before this one have room, as there are fewer before any of them
    have hbefore : ∀ e d ds, earlier = e ++ d :: ds → d.Fits (passages (askAll w e).2) := by
      rintro e d ds rfl
      refine ih e.length ?_ e d (ds ++ c :: later) (by simp [hsplit]) rfl
      rw [← hn, List.length_append, List.length_cons]
      omega
    obtain ⟨hearlier, hle⟩ := pairwise_earlier hord hsplit
    have hkeeps := keeps_askAll_of_fits hw hearlier hbefore hle
    refine Classical.byContradiction fun hfit => ?_
    exact (h earlier c later hsplit).usable (hkeeps.break (Nat.le_refl c.time) hfit).2

/-- **When dedup windows are enforced.** Calls of gates, one after another over
a dedup store in memory that was empty, are all decided by the window law
exactly if the clock has room for each of them. The first one that it has no
room for breaks off, and all that follow go by the policies of their gates. -/
theorem enforces_iff (w : World) (hw : w.dedup = .inMemory {}) (calls : List GateCall)
    (hord : calls.Pairwise (·.time ≤ ·.time)) :
    (Enforces w calls
        ↔ ∀ earlier c later, calls = earlier ++ c :: later →
          c.Fits (passages (askAll w earlier).2))
      ∧ ∀ earlier c later, calls = earlier ++ c :: later → Enforces w earlier →
        ¬ c.Fits (passages (askAll w earlier).2) →
          (ask (askAll w earlier).1 c).2 = some (.brokenOff Markers.overflow)
            ∧ ∀ x ∈ (askAll (ask (askAll w earlier).1 c).1 later).2,
              x.2 = x.1.gate.onFailure Markers.poisoned := by
  refine ⟨⟨Enforces.fits hw hord, fun hfits earlier c later hsplit => ?_⟩,
    fun earlier c later hsplit henforced hfit => ?_⟩
  · obtain ⟨hearlier, hle⟩ := pairwise_earlier hord hsplit
    have hkeeps := keeps_askAll_of_fits hw hearlier
      (fun e d ds hd => hfits e d (ds ++ c :: later) (by simp [hsplit, hd])) hle
    obtain ⟨hanswered, hpasses, hkept, -⟩ :=
      hkeeps.enforced (Nat.le_refl c.time) (hfits earlier c later hsplit)
    exact ⟨hanswered, hpasses, hkept.not_isBroken⟩
  · obtain ⟨hearlier, hle⟩ := pairwise_earlier hord hsplit
    have hkeeps := keeps_askAll_of_fits hw hearlier (henforced.fits hw hearlier) hle
    obtain ⟨hanswer, hbroken⟩ := hkeeps.break (Nat.le_refl c.time) hfit
    exact ⟨hanswer, hbroken.askAll later⟩

/-- A call of the gate of a configuration, a number of seconds after the
beginning. -/
def configuredCall (window : String) (seconds : Nat) (incidentId : String) : GateCall :=
  let settings := (Config.settings { dedupWindow := some window }).value
  { gate := ⟨settings.dedupWindow, settings.gatePolicy, "memory"⟩
    caller := .step seconds
    incidentId
    time := seconds * nanosPerSecond }

/-- Calls with a window that ends in the last second of the clock: one that
begins it, a repetition, and another incident for which there is no room. -/
def lastSecondCalls : List GateCall :=
  [configuredCall "2562047788015215:30:07" 0 "a", configuredCall "2562047788015215:30:07" 1 "a",
    configuredCall "2562047788015215:30:07" 2 "b"]

/-- The window law is kept of the first two of these calls, and broken by the
third. -/
theorem enforces_iff_lastSecond :
    (World.bare.dedup = .inMemory {} ∧ lastSecondCalls.Pairwise (·.time ≤ ·.time))
      ∧ (Enforces World.bare lastSecondCalls
        ↔ ∀ earlier c later, lastSecondCalls = earlier ++ c :: later →
          c.Fits (passages (askAll World.bare earlier).2))
      ∧ ∀ earlier c later, lastSecondCalls = earlier ++ c :: later →
        Enforces World.bare earlier → ¬ c.Fits (passages (askAll World.bare earlier).2) →
          (ask (askAll World.bare earlier).1 c).2 = some (.brokenOff Markers.overflow)
            ∧ ∀ x ∈ (askAll (ask (askAll World.bare earlier).1 c).1 later).2,
              x.2 = x.1.gate.onFailure Markers.poisoned :=
  have hord : lastSecondCalls.Pairwise (·.time ≤ ·.time) := by decide
  ⟨⟨rfl, hord⟩, enforces_iff World.bare rfl lastSecondCalls hord⟩

/-- **A window that is accepted and cannot be enforced.** The first call breaks
off, and its incident passes however often it comes back. -/
theorem askAll_windowAsLongAsTheClock :
    Duration.parse "9223372036854775808" = some ⟨Instant.limit⟩
      ∧ (askAll World.bare [configuredCall "9223372036854775808" 0 "a",
          configuredCall "9223372036854775808" 1 "a",
          configuredCall "9223372036854775808" 2 "a"]).2.map Prod.snd
        = [some (.brokenOff Markers.overflow), passes, passes] := by
  refine ⟨by decide +kernel, ?_⟩
  rfl

end Gate

end IncidentMemory
