import IncidentMemory.Gate
import IncidentMemory.Proofs.Markers
import IncidentMemory.Proofs.Routine
import IncidentMemory.Proofs.World

/-!
# The window of a gate

Several gates, each with a window of its own, share one dedup store in memory.
Whether an incident passes depends on nothing but when it last passed:
`Gate.askAll_window` says that an incident is let through exactly if it is not
within the window of an earlier passage, which began with that passage and had
the length that the gate it passed gave it. Repetitions and other incidents do
not occur in that condition, so they neither lengthen nor shorten a window.

The store forgets markers that are over each time it is asked for any of them.
What carries the proof is therefore not the markers but the claims they record
(`Markers.Records`), which are the passages so far.
-/

namespace IncidentMemory

open Simulation

/-- **A call of a gate.** -/
structure GateCall where
  /-- The gate. -/
  gate : Gate
  /-- Who calls it. -/
  caller : TaskId
  /-- The incident it is asked about. -/
  incidentId : String
  /-- When. -/
  time : Instant

namespace GateCall

/-- What the incident is marked under. -/
def key (c : GateCall) : String :=
  Markers.keyOf c.incidentId

/-- The end of the window that begins if the incident passes. -/
def windowEnd (c : GateCall) : Instant :=
  c.time + c.gate.window.nanos

/-- The incident is within the window of a passage. -/
def IsHeld (c : GateCall) (passages : List GateCall) : Prop :=
  ∃ e ∈ passages, e.incidentId = c.incidentId ∧ c.time < e.windowEnd

/-- **A call that the clock leaves room for**: its incident is within a window,
or the window that it begins ends on the clock. -/
def Fits (c : GateCall) (passages : List GateCall) : Prop :=
  c.IsHeld passages ∨ c.windowEnd < Instant.limit

end GateCall

namespace Gate

/-- What a call of a gate came to, if it has ended. -/
abbrev Answer := Option (Attempt (Outcome Bool))

/-- **Asks a gate** at the time of the call. -/
def ask (w : World) (c : GateCall) : World × Answer :=
  { w with clock := c.time }.carryOut c.caller (c.gate.isDuplicate c.incidentId).run

/-- **Asks gates one after another**, and says what each call came to. -/
def askAll (w : World) : List GateCall → World × List (GateCall × Answer)
  | [] => (w, [])
  | c :: cs =>
    let (w', answer) := ask w c
    let (w'', others) := askAll w' cs
    (w'', (c, answer) :: others)

/-- That the incident passes. -/
def passes : Answer := some (.done (.ok false))

/-- That the incident is a repetition. -/
def repeats : Answer := some (.done (.ok true))

/-! ## One call -/

/-- **A gate passes on what the dedup store says**, if that comes to a result. -/
theorem carryOut_isDuplicate (g : Gate) (incidentId : String) {w : World} {m m' : Markers}
    (t : TaskId) {fresh : Bool} (hw : w.dedup = .inMemory m)
    (h : m.setIfAbsent w.clock (Markers.keyOf incidentId) Markers.sentinel g.window
      = (m', .done (.ok fresh))) :
    (w.carryOut t (g.isDuplicate incidentId).run).1.dedup = .inMemory m'
      ∧ (w.carryOut t (g.isDuplicate incidentId).run).2 = some (.done (.ok (!fresh))) := by
  have hset : w.carryOut t (Procedure.setIfAbsent (Markers.keyOf incidentId) Markers.sentinel
      g.window).run = ({ w with dedup := .inMemory m' }, some (.done (.ok fresh))) := by
    refine (World.carryOut_ask w t (.setIfAbsent _ _ _)).trans ?_
    show World.tried (w.setIfAbsent _ _ _) = _
    rw [World.setIfAbsent_inMemory hw, h]
    rfl
  unfold isDuplicate
  rw [World.carryOut_run_outcome_bind, hset, World.andThen_done]
  cases fresh with
  | true => exact ⟨rfl, rfl⟩
  | false => exact ⟨rfl, rfl⟩

/-! ## The claims that passages make -/

/-- The calls among which the incident passed. -/
def passages (history : List (GateCall × Answer)) : List GateCall :=
  history.filterMap fun (c, answer) =>
    match answer with
    | some (.done (.ok false)) => some c
    | _ => none

/-- The claims that those calls made. -/
def claims (history : List (GateCall × Answer)) : List Markers.Claim :=
  (passages history).map fun c => (c.key, c.windowEnd)

/-- An incident is held exactly if it is within the window of a passage. -/
theorem held_claims_iff (history : List (GateCall × Answer)) (c : GateCall) :
    Markers.Held (claims history) c.time c.key
      ↔ ∃ e ∈ passages history, e.incidentId = c.incidentId ∧ c.time < e.windowEnd := by
  unfold Markers.Held claims
  constructor
  · rintro ⟨_, hmem, hkey, hlt⟩
    obtain ⟨e, he, rfl⟩ := List.mem_map.mp hmem
    exact ⟨e, he, Markers.keyOf_inj.mp hkey, hlt⟩
  · rintro ⟨e, he, hid, hlt⟩
    exact ⟨_, List.mem_map_of_mem he, Markers.keyOf_inj.mpr hid, hlt⟩

theorem passages_append (h₁ h₂ : List (GateCall × Answer)) :
    passages (h₁ ++ h₂) = passages h₁ ++ passages h₂ :=
  List.filterMap_append

/-- The dedup store is in memory and records the passages so far. -/
def Keeps (w : World) (now : Instant) (history : List (GateCall × Answer)) : Prop :=
  ∃ m, w.dedup = .inMemory m ∧ m.Records now (claims history)

/-- What a call comes to, given the calls so far: an answer that fits them, and
a store that records them all, without markers that are over. -/
structure Decides (w : World) (c : GateCall) (history : List (GateCall × Answer)) : Prop where
  /-- The incident passes, or is a repetition. -/
  answered : (ask w c).2 = passes ∨ (ask w c).2 = repeats
  /-- It passes exactly if it is within no window. -/
  passes_iff : (ask w c).2 = passes
    ↔ ¬ ∃ e ∈ passages history, e.incidentId = c.incidentId ∧ c.time < e.windowEnd
  /-- The store records the calls so far and this one. -/
  keeps : Keeps (ask w c).1 c.time (history ++ [(c, (ask w c).2)])
  /-- Markers that are over are gone. -/
  lasting : ∀ m, (ask w c).1.dedup = .inMemory m → ∀ e ∈ m.entries, c.time < e.expiry

/-- **A call that the clock has room for is decided by the window law**: the
incident passes exactly if it is within no window. The store goes on recording
the passages, and a positive window leaves no marker that is over. -/
theorem Keeps.enforced {w : World} {now : Instant} {history : List (GateCall × Answer)}
    (h : Keeps w now history) {c : GateCall} (hle : now ≤ c.time)
    (hfit : c.Fits (passages history)) :
    ((ask w c).2 = passes ∨ (ask w c).2 = repeats)
      ∧ ((ask w c).2 = passes ↔ ¬ c.IsHeld (passages history))
      ∧ Keeps (ask w c).1 c.time (history ++ [(c, (ask w c).2)])
      ∧ (0 < c.gate.window.nanos →
        ∀ m, (ask w c).1.dedup = .inMemory m → ∀ e ∈ m.entries, c.time < e.expiry) := by
  obtain ⟨m, hw, hrec⟩ := h
  have hclock : ({ w with clock := c.time } : World).dedup = .inMemory m := hw
  by_cases hheld : c.IsHeld (passages history)
  · -- a window is open, and stays as it is
    obtain ⟨m', hset, hrec', hlast⟩ := hrec.refuse Markers.sentinel c.gate.window hle
      ((held_claims_iff history c).mpr hheld)
    obtain ⟨hdedup, hanswer⟩ := c.gate.carryOut_isDuplicate c.incidentId c.caller hclock hset
    have hrepeats : (ask w c).2 = repeats := hanswer
    refine ⟨Or.inr hrepeats, iff_of_false ?_ (fun hout => hout hheld), ⟨m', hdedup, ?_⟩,
      fun _ m₀ hm₀ => ?_⟩
    · rw [hrepeats]
      simp [passes, repeats]
    · unfold claims
      rw [hrepeats, passages_append]
      exact (List.append_nil (passages history)).symm ▸ hrec'
    · obtain rfl : m' = m₀ := by simpa using hdedup.symm.trans hm₀
      exact hlast
  · obtain ⟨m', hset, hrec', hlast⟩ := hrec.grant Markers.sentinel hle
      (mt (held_claims_iff history c).mp hheld) (hfit.resolve_left hheld)
    obtain ⟨hdedup, hanswer⟩ := c.gate.carryOut_isDuplicate c.incidentId c.caller hclock hset
    have hpasses : (ask w c).2 = passes := hanswer
    refine ⟨Or.inl hpasses, iff_of_true hpasses hheld, ⟨m', hdedup, ?_⟩, fun hpos m₀ hm₀ => ?_⟩
    · unfold claims
      rw [hpasses, passages_append, List.map_append]
      exact hrec'
    · obtain rfl : m' = m₀ := by simpa using hdedup.symm.trans hm₀
      exact hlast hpos

/-- **One call decides by the passages so far.** -/
theorem Keeps.decides {w : World} {now : Instant} {history : List (GateCall × Answer)}
    (h : Keeps w now history) (c : GateCall) (hle : now ≤ c.time)
    (hpos : 0 < c.gate.window.nanos) (hroom : c.windowEnd < Instant.limit) :
    Decides w c history := by
  obtain ⟨hanswered, hpasses, hkeeps, hlasting⟩ := h.enforced hle (Or.inr hroom)
  exact ⟨hanswered, hpasses, hkeeps, hlasting hpos⟩

/-! ## Many calls -/

/-- **Calls in good order**: their times do not decrease, and their windows are
positive and end before the clock does. -/
structure InOrder (calls : List GateCall) : Prop where
  /-- No call is before an earlier one. -/
  ordered : calls.Pairwise (·.time ≤ ·.time)
  /-- The gates have positive windows. -/
  positive : ∀ c ∈ calls, 0 < c.gate.window.nanos
  /-- The clock does not overflow. -/
  onClock : ∀ c ∈ calls, c.windowEnd < Instant.limit

/-- **Calls are enforced as long as the clock has room for them**: the store
records the passages up to any of them. -/
theorem Keeps.askAll_of_fits {w : World} {now : Instant} {history : List (GateCall × Answer)}
    (h : Keeps w now history) {cs : List GateCall}
    (hord : cs.Pairwise (·.time ≤ ·.time)) (hnow : ∀ c ∈ cs, now ≤ c.time)
    (hfits : ∀ earlier c later, cs = earlier ++ c :: later →
      c.Fits (passages (history ++ (Gate.askAll w earlier).2)))
    {later : Instant} (hlater : ∀ c ∈ cs, c.time ≤ later) (hle : now ≤ later) :
    Keeps (Gate.askAll w cs).1 later (history ++ (Gate.askAll w cs).2) := by
  induction cs generalizing w now history with
  | nil =>
    obtain ⟨m, hw, hrec⟩ := h
    exact ⟨m, hw, (List.append_nil history).symm ▸ hrec.mono hle⟩
  | cons c cs ih =>
    have hc : c ∈ c :: cs := List.mem_cons_self
    have hfirst := hfits [] c cs rfl
    obtain ⟨-, -, hkeeps, -⟩ := h.enforced (hnow c hc) ((List.append_nil history) ▸ hfirst)
    have hrest := ih hkeeps (List.pairwise_cons.mp hord).2 (List.pairwise_cons.mp hord).1
      (fun earlier d ds hds => ?_) (fun d hd => hlater d (List.mem_cons_of_mem c hd)) (hlater c hc)
    · rw [List.append_assoc] at hrest
      exact hrest
    · have hd := hfits (c :: earlier) d ds (congrArg (c :: ·) hds)
      rw [List.append_assoc]
      exact hd

/-- **Calls one after another keep the store recording all of them.** -/
theorem Keeps.askAll {w : World} {now : Instant} {history : List (GateCall × Answer)}
    (h : Keeps w now history) {cs : List GateCall} (hcs : InOrder cs)
    (hnow : ∀ c ∈ cs, now ≤ c.time) {later : Instant} (hlater : ∀ c ∈ cs, c.time ≤ later)
    (hle : now ≤ later) :
    Keeps (Gate.askAll w cs).1 later (history ++ (Gate.askAll w cs).2) :=
  h.askAll_of_fits hcs.ordered hnow
    (fun _ c _ hsplit => Or.inr (hcs.onClock c (by rw [hsplit]; simp))) hlater hle

/-- **The window law.** However many calls gates have had, over one dedup store
in memory that was empty, the next one is answered, and lets its incident
through exactly if it is not within the window of an earlier passage of the
same incident. Afterwards the store holds no marker that is over. -/
theorem askAll_window (w : World) (hw : w.dedup = .inMemory {}) (earlier : List GateCall)
    (c : GateCall) (h : InOrder (earlier ++ [c])) :
    let now := ask (askAll w earlier).1 c
    (now.2 = passes ∨ now.2 = repeats)
      ∧ (now.2 = passes ↔ ¬ ∃ e ∈ passages (askAll w earlier).2,
          e.incidentId = c.incidentId ∧ c.time < e.time + e.gate.window.nanos)
      ∧ ∃ m, now.1.dedup = .inMemory m ∧ ∀ e ∈ m.entries, c.time < e.expiry := by
  obtain ⟨hord, -, hlast⟩ := List.pairwise_append.mp h.ordered
  have hearlier : InOrder earlier :=
    ⟨hord, fun d hd => h.positive d (List.mem_append_left _ hd),
      fun d hd => h.onClock d (List.mem_append_left _ hd)⟩
  have hc : c ∈ earlier ++ [c] := List.mem_append_right _ List.mem_cons_self
  have hstart : Keeps w 0 [] := ⟨{}, hw, Markers.Records.empty 0⟩
  have hkeeps := hstart.askAll hearlier (fun d _ => Nat.zero_le d.time)
    (fun d hd => hlast d hd c List.mem_cons_self) (Nat.zero_le c.time)
  have hdec := hkeeps.decides c (Nat.le_refl c.time) (h.positive c hc) (h.onClock c hc)
  obtain ⟨m, hm, -⟩ := hdec.keeps
  exact ⟨hdec.answered, hdec.passes_iff, m, hm, hdec.lasting m hm⟩

/-- A call of a gate with a window of five minutes, a number of seconds after
the beginning. -/
def callAt (seconds : Nat) (incidentId : String) : GateCall where
  gate := ⟨.ofSeconds 300, .failOpen, "memory"⟩
  caller := .step seconds
  incidentId
  time := seconds * nanosPerSecond

/-- Five minutes after it passed an incident passes again, in spite of a
repetition and of another incident between. -/
theorem askAll_window_at_the_end :
    InOrder ([callAt 0 "a", callAt 200 "a", callAt 250 "b"] ++ [callAt 300 "a"])
      ∧ let now := ask (askAll World.bare
          [callAt 0 "a", callAt 200 "a", callAt 250 "b"]).1 (callAt 300 "a")
        (now.2 = passes ∨ now.2 = repeats)
          ∧ (now.2 = passes ↔ ¬ ∃ e ∈ passages (askAll World.bare
              [callAt 0 "a", callAt 200 "a", callAt 250 "b"]).2,
              e.incidentId = (callAt 300 "a").incidentId
                ∧ (callAt 300 "a").time < e.time + e.gate.window.nanos)
          ∧ ∃ m, now.1.dedup = .inMemory m
            ∧ ∀ e ∈ m.entries, (callAt 300 "a").time < e.expiry :=
  have h : InOrder ([callAt 0 "a", callAt 200 "a", callAt 250 "b"] ++ [callAt 300 "a"]) :=
    ⟨by decide, by decide, by decide⟩
  ⟨h, askAll_window World.bare rfl _ _ h⟩

end Gate

end IncidentMemory
