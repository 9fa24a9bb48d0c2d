import IncidentMemory.Proofs.Buffer
import IncidentMemory.Proofs.Passage
import IncidentMemory.Proofs.World

/-!
# Incidents handled side by side

Any number of incidents go through one pipeline at once, each with a token of its
own. In a `Traffic` one of them goes on by one action or one call at a time
(`Handling.go`), so that between any two of these anything else can happen: other
incidents go on, tokens fire, time goes by, and others write to the buffer or
read from it.

Markers and buffer are those of a rehearsal (`World.attempt`, `World.retry`,
`World.giveUp`). Everything else that is asked for – embeddings, memories,
diagnoses – is answered from outside, at any time and in any way.
-/

namespace IncidentMemory

open Simulation

/-- **Whatever is outside**: how a call is answered, if it is. -/
abbrev Outside := (q : Call) → Option (Attempt q.Reply)

/-- **An incident that is handled.** -/
structure Handling where
  /-- The incident. -/
  incident : Incident
  /-- Whether its token had fired before it began. -/
  early : Bool
  /-- Whether its token has fired. -/
  fired : Bool
  /-- What is left to do. -/
  routine : Routine (Outcome Handled)
  /-- Whether it waits for the call that this begins with. -/
  waiting : Bool := false
  /-- The course so far. -/
  course : Course := {}
  /-- What the queue of the buffer has gained when it went on. -/
  put : List Resolution := []

/-- A verdict of the dedup store. -/
structure Decision where
  /-- Which incident it was about, by its place. -/
  handling : Nat
  /-- What that is called. -/
  incidentId : String
  /-- When. -/
  time : Instant
  /-- The verdict. -/
  verdict : Attempt (Outcome Bool)

/-- **Incidents that are handled side by side.** -/
structure Traffic where
  /-- The world they are handled in. -/
  world : World
  /-- The incidents, in the order in which they came. -/
  handlings : List Handling := []
  /-- The verdicts, in order. -/
  decisions : List Decision := []

/-- What may happen next. -/
inductive Move where
  /-- An incident comes, with a token that may have fired. -/
  | arrive (incident : Incident) (goal : String) (early : Bool)
  /-- The token of an incident fires. -/
  | cancel (handling : Nat)
  /-- An incident goes on. -/
  | go (handling : Nat) (outside : Outside)
  /-- Time goes by. -/
  | pass (nanos : Nat)
  /-- Others change the buffer. -/
  | elsewhere (buffer : Buffer Resolution)

/-! ## Going on -/

namespace Simulation.World

/-- **Serves a call**, for the first time or again, and says how it was answered
if it was. -/
def serve (w : World) (t : TaskId) (again : Bool) (outside : Outside) :
    (q : Call) → World × Option (Attempt q.Reply)
  | .setIfAbsent key value ttl =>
    tried (if again then w.retry t (.setIfAbsent key value ttl)
      else w.attempt t (.setIfAbsent key value ttl))
  | .send r => tried (if again then w.retry t (.send r) else w.attempt t (.send r))
  | q => (w, outside q)

end Simulation.World

namespace Handling

/-- Goes on with the answer to a call, or waits for it. -/
def hear (h : Handling) (c : Course) (q : Call)
    (next : Attempt q.Reply → Routine (Outcome Handled)) : Option (Attempt q.Reply) → Handling
  | some reply => { h with routine := next reply, waiting := false, course := c.told q reply }
  | none => { h with waiting := true, course := c }

/-- Makes a call that may have been made before. -/
def ask (h : Handling) (w : World) (t : TaskId) (outside : Outside) (q : Call)
    (next : Attempt q.Reply → Routine (Outcome Handled)) : World × Handling :=
  let served := w.serve t h.waiting outside q
  (served.1, h.hear (if h.waiting then h.course else h.course.asked q) q next served.2)

/-- **Goes on by one action or one call.** The token is looked at before a call
that waits under it is made again. -/
def go (h : Handling) (w : World) (t : TaskId) (outside : Outside) : World × Handling :=
  match h.routine with
  | .done _ | .brokenOff _ => (w, h)
  | .act a next =>
    let (w', r) := { w with stopping := h.fired }.act a
    (w', { h with routine := next r })
  | .call q next => h.ask w t outside q next
  | .watch q next stopped =>
    if h.waiting && h.fired then (w.giveUp t q, { h with routine := stopped, waiting := false })
    else h.ask w t outside q next

/-- Notes what the queue has gained between two worlds. -/
def gaining (h : Handling) (w w' : World) : Handling :=
  { h with put := h.put ++ w'.buffer.queue.drop w.buffer.queue.length }

end Handling

namespace Traffic

/-- The traffic after an incident has gone on. -/
def turn (s : Traffic) (k : Nat) (h : Handling) (outside : Outside) : Traffic :=
  let after := h.go s.world (.step k) outside
  let verdicts := after.2.course.verdicts.drop h.course.verdicts.length
  { world := after.1
    handlings := s.handlings.set k (after.2.gaining s.world after.1)
    decisions := s.decisions ++ verdicts.map fun v => ⟨k, h.incident.id, s.world.clock, v⟩ }

/-- **Makes a move.** -/
def move (p : Pipeline) (s : Traffic) : Move → Traffic
  | .arrive incident goal early =>
    let h : Handling :=
      { incident, early, fired := early, routine := (p.handle incident goal).run }
    { s with handlings := s.handlings ++ [h] }
  | .cancel k => { s with handlings := s.handlings.modify k fun h => { h with fired := true } }
  | .go k outside =>
    match s.handlings[k]? with
    | none => s
    | some h => s.turn k h outside
  | .pass nanos => { s with world := { s.world with clock := s.world.clock + nanos } }
  | .elsewhere buffer => { s with world := { s.world with buffer } }

theorem move_go {p : Pipeline} {s : Traffic} {k : Nat} {h : Handling}
    (hk : s.handlings[k]? = some h) (outside : Outside) :
    s.move p (.go k outside) = s.turn k h outside := by
  simp only [move, hk]

/-- **Makes moves one after another.** -/
def run (p : Pipeline) (s : Traffic) : List Move → Traffic
  | [] => s
  | m :: ms => run p (s.move p m) ms

end Traffic

/-! ## What a step leaves alone -/

namespace Simulation.World

variable (w : World) (t : TaskId) (outside : Outside)

/-- A quiet action leaves the shared things alone. -/
theorem act_quiet {a : Action} (ha : a.IsQuiet) :
    (w.act a).1.dedup = w.dedup ∧ (w.act a).1.buffer = w.buffer ∧ (w.act a).1.clock = w.clock := by
  cases a with
  | log event => exact ⟨rfl, rfl, rfl⟩
  | isStopping => exact ⟨rfl, rfl, rfl⟩
  | buffered => exact ⟨rfl, rfl, rfl⟩
  | _ => exact ha.elim

/-- What an action results in is credible, if a token that had fired before the
beginning has fired. -/
theorem act_credible {early : Bool} (h : early = true → w.stopping = true) (a : Action) :
    a.Credible early (w.act a).2 := by
  cases a with
  | isStopping => exact h
  | _ => trivial

/-- Giving a call up leaves the markers, the clock and the queue alone. -/
theorem giveUp_shared (q : Call) :
    (w.giveUp t q).dedup = w.dedup ∧ (w.giveUp t q).clock = w.clock
      ∧ (w.giveUp t q).buffer.queue = w.buffer.queue := by
  cases q with
  | send r =>
    show (w.withBuffer _).dedup = _ ∧ (w.withBuffer _).clock = _ ∧ (w.withBuffer _).buffer.queue = _
    rw [withBuffer_eq]
    exact ⟨rfl, rfl, Buffer.queue_abandonWrite _ _⟩
  | receive => exact ⟨rfl, rfl, rfl⟩
  | _ => exact ⟨rfl, rfl, rfl⟩

/-- What came of a write, for the shared things: the queue has gained the item
exactly if the write was answered so. -/
theorem tried_sent (r : Resolution) {after : Buffer Resolution × WriteState}
    (hqueue : after.1.queue = w.buffer.queue ++ Buffer.gained r after.2) :
    (tried (w.sent after)).1.dedup = w.dedup ∧ (tried (w.sent after)).1.clock = w.clock
      ∧ (tried (w.sent after)).1.buffer.queue
        = w.buffer.queue ++ ((tried (w.sent after)).2.map (Pipeline.written r)).getD [] := by
  obtain ⟨b, state⟩ := after
  unfold sent
  rw [withBuffer_eq]
  cases state with
  | accepted =>
    show (wakeReceiver _).dedup = _ ∧ (wakeReceiver _).clock = _ ∧ (wakeReceiver _).buffer.queue = _
    rw [wakeReceiver_eq]
    exact ⟨rfl, rfl, hqueue⟩
  | closed => exact ⟨rfl, rfl, hqueue⟩
  | pending => exact ⟨rfl, rfl, hqueue⟩

/-- **A resolution that is sent** is in the queue exactly if that is the
answer. -/
theorem serve_send (again : Bool) (r : Resolution) :
    (w.serve t again outside (.send r)).1.dedup = w.dedup
      ∧ (w.serve t again outside (.send r)).1.clock = w.clock
      ∧ (w.serve t again outside (.send r)).1.buffer.queue = w.buffer.queue
        ++ ((w.serve t again outside (.send r)).2.map (Pipeline.written r)).getD [] := by
  cases again with
  | false => exact w.tried_sent r (Buffer.queue_startWrite w.buffer t.ticket r)
  | true => exact w.tried_sent r (Buffer.queue_resumeWrite w.buffer t.ticket r)

/-- A call that is answered from outside does nothing. -/
theorem serve_of_isOutside (again : Bool) {q : Call} (hq : q.IsOutside) :
    w.serve t again outside q = (w, outside q) := by
  cases q with
  | setIfAbsent key value ttl => exact hq.elim
  | send r => exact hq.elim
  | _ => rfl

/-- **The markers decide at once.** -/
theorem serve_setIfAbsent {m : Markers} (hw : w.dedup = .inMemory m) (key value : String)
    (ttl : Duration) :
    w.serve t false outside (.setIfAbsent key value ttl)
      = ({ w with dedup := .inMemory (m.setIfAbsent w.clock key value ttl).1 },
        some (m.setIfAbsent w.clock key value ttl).2) :=
  congrArg tried (setIfAbsent_inMemory hw key value ttl)

end Simulation.World

/-! ## What a step does to the shared things -/

/-- **What has happened to the shared things** fits what has happened to the
course: the queue has gained what the buffer is said to have taken, and the
markers have been asked if there is a new verdict. -/
structure Shares (q : Call) (w w' : World) (c c' : Course) : Prop where
  /-- Time stands still. -/
  clock : w'.clock = w.clock
  /-- What was taken was gained. -/
  gained : ∃ gained, c'.accepted = c.accepted ++ gained
    ∧ w'.buffer.queue = w.buffer.queue ++ gained
  /-- The markers are the same, or have been asked by the call. -/
  verdict : (w'.dedup = w.dedup ∧ c'.verdicts = c.verdicts)
    ∨ ∃ m m' key value ttl v, q = .setIfAbsent key value ttl ∧ w.dedup = .inMemory m
      ∧ m.setIfAbsent w.clock key value ttl = (m', v) ∧ w'.dedup = .inMemory m'
      ∧ c'.verdicts = c.verdicts ++ [v]

/-- Where neither the shared things nor what was seen of them has changed. -/
theorem Shares.refl (q : Call) {w w' : World} {c c' : Course} (hclock : w'.clock = w.clock)
    (hdedup : w'.dedup = w.dedup) (hqueue : w'.buffer.queue = w.buffer.queue)
    (haccepted : c'.accepted = c.accepted) (hverdicts : c'.verdicts = c.verdicts) :
    Shares q w w' c c' where
  clock := hclock
  gained := ⟨[], haccepted.trans (List.append_nil _).symm, hqueue.trans (List.append_nil _).symm⟩
  verdict := Or.inl ⟨hdedup, hverdicts⟩

/-- What the buffer has taken according to an answer. -/
theorem Course.accepted_told_send (c : Course) (r : Resolution) (reply : Attempt (Outcome Unit)) :
    (c.told (.send r) reply).accepted = c.accepted ++ Pipeline.written r reply
      ∧ (c.told (.send r) reply).verdicts = c.verdicts := by
  rcases reply with (f | ⟨⟩) | text
  · exact ⟨(List.append_nil _).symm, rfl⟩
  · exact ⟨rfl, rfl⟩
  · exact ⟨(List.append_nil _).symm, rfl⟩

theorem Course.getD_map_told (c : Course) {q : Call} (hq : q.IsOutside)
    (reply : Option (Attempt q.Reply)) : (reply.map (c.told q)).getD c = c := by
  cases reply with
  | none => rfl
  | some reply => exact c.told_of_isOutside hq reply

theorem shares_serve_of_isOutside (w : World) (t : TaskId) (again : Bool) (outside : Outside)
    {q : Call} (hq : q.IsOutside) (c : Course) :
    Shares q w (w.serve t again outside q).1 c
      (((w.serve t again outside q).2.map (c.told q)).getD c) := by
  rw [w.serve_of_isOutside t outside again hq, c.getD_map_told hq]
  exact .refl q rfl rfl rfl rfl rfl

/-- **However a call is served**, what happens to the shared things fits the
answer. -/
theorem shares_serve {w : World} {m : Markers} (hw : w.dedup = .inMemory m) (t : TaskId)
    (again : Bool) (outside : Outside) (q : Call) (c : Course) :
    Shares q w (w.serve t again outside q).1 c
      (((w.serve t again outside q).2.map (c.told q)).getD c) := by
  cases q with
  | setIfAbsent key value ttl =>
    cases again with
    | true => exact .refl _ rfl rfl rfl rfl rfl
    | false =>
      rw [w.serve_setIfAbsent t outside hw]
      exact ⟨rfl, ⟨[], (List.append_nil _).symm, (List.append_nil _).symm⟩,
        Or.inr ⟨m, _, key, value, ttl, _, rfl, hw, rfl, rfl, rfl⟩⟩
  | send r =>
    obtain ⟨hdedup, hclock, hqueue⟩ := w.serve_send t outside again r
    cases hreply : (w.serve t again outside (.send r)).2 with
    | none =>
      rw [hreply] at hqueue
      exact .refl _ hclock hdedup (hqueue.trans (List.append_nil _)) rfl rfl
    | some reply =>
      rw [hreply] at hqueue
      obtain ⟨haccepted, hverdicts⟩ := c.accepted_told_send r reply
      exact ⟨hclock, ⟨Pipeline.written r reply, haccepted, hqueue⟩, Or.inl ⟨hdedup, hverdicts⟩⟩
  | _ => exact shares_serve_of_isOutside w t again outside (by exact trivial) c

/-! ## One step of an incident -/

namespace Handling

variable {p : Pipeline} {h : Handling} {w : World}

/-- That a routine is what is left to do of an incident that has taken a course. -/
abbrev IsLeft (p : Pipeline) (h : Handling) (r : Routine (Outcome Handled)) (c : Course) : Prop :=
  r.Always h.early (Pipeline.Within h.early p h.incident) (Pipeline.Unsent h.early p h.incident)
    (Pipeline.Settled p h.incident) c

/-- The same of a routine that waits for the call it begins with. -/
abbrev IsLeftWaiting (p : Pipeline) (h : Handling) (r : Routine (Outcome Handled)) (c : Course) :
    Prop :=
  r.AlwaysWaiting h.early (Pipeline.Within h.early p h.incident)
    (Pipeline.Unsent h.early p h.incident) (Pipeline.Settled p h.incident) c

/-- What is always the case of the rest of a routine, whether it waits or not. -/
def Ahead (p : Pipeline) (h : Handling) : Prop :=
  if h.waiting then h.IsLeftWaiting p h.routine h.course else h.IsLeft p h.routine h.course

/-- **What a step of an incident does** to the world and to the handling. -/
structure Goes (p : Pipeline) (w w' : World) (h h' : Handling) : Prop where
  /-- It remains the same incident. -/
  incident : h'.incident = h.incident
  /-- Its token remains as it was. -/
  early : h'.early = h.early
  /-- Its token remains as it is. -/
  fired : h'.fired = h.fired
  /-- What the queue has gained is noted elsewhere. -/
  put : h'.put = h.put
  /-- What is left to do is still what is always the case. -/
  ahead : h'.Ahead p
  /-- The shared things have changed as the course has. -/
  shares : Shares (p.gateCall h.incident) w w' h.course h'.course
  /-- If the token had fired before the beginning they have not changed. -/
  untouched : h.early = true → w'.dedup = w.dedup ∧ w'.buffer = w.buffer

/-- If a call of the incident has asked the markers it was that to the gate. -/
theorem shares_gateCall {w' : World} {i : Incident} {q : Call} {c c' : Course}
    (hpassage : Pipeline.Passage p i c) (hq : q ∈ c.begun) (hs : Shares q w w' c c') :
    Shares (p.gateCall i) w w' c c' := by
  refine ⟨hs.clock, hs.gained, hs.verdict.imp_right ?_⟩
  rintro ⟨m, m', key, value, ttl, v, rfl, hrest⟩
  exact ⟨m, m', key, value, ttl, v, (hpassage.eq_gateCall hq).symm, hrest⟩

/-- **A call is made**, for the first time or again. -/
theorem goes_ask {m : Markers} (hw : w.dedup = .inMemory m) (t : TaskId) (outside : Outside)
    {q : Call} {next : Attempt q.Reply → Routine (Outcome Handled)} {c : Course}
    (hc : c = if h.waiting then h.course else h.course.asked q) (hq : q ∈ c.begun)
    (hunsent : Pipeline.Unsent h.early p h.incident c)
    (hnext : ∀ reply, h.IsLeft p (next reply) (c.told q reply))
    (hwaiting : h.IsLeftWaiting p h.routine c) :
    Goes p w (h.ask w t outside q next).1 h (h.ask w t outside q next).2 := by
  have hshares := shares_gateCall hunsent.passage hq (shares_serve hw t h.waiting outside q c)
  have hlate : h.early = true → False := fun he =>
    absurd (hunsent.late.symm.trans he) Bool.false_ne_true
  -- that a call has begun is no change of what counts here
  have hbegun : c.verdicts = h.course.verdicts ∧ c.accepted = h.course.accepted := by
    rw [hc]
    split <;> exact ⟨rfl, rfl⟩
  obtain ⟨hclock, hgained, hverdict⟩ := hshares
  rw [hbegun.1] at hverdict
  rw [hbegun.2] at hgained
  have hcourse : Shares (p.gateCall h.incident) w _ h.course _ := ⟨hclock, hgained, hverdict⟩
  unfold ask
  rw [← hc]
  dsimp only
  cases hreply : (w.serve t h.waiting outside q).2 with
  | none =>
    rw [hreply] at hcourse
    exact ⟨rfl, rfl, rfl, rfl, hwaiting, hcourse, fun he => (hlate he).elim⟩
  | some reply =>
    rw [hreply] at hcourse
    exact ⟨rfl, rfl, rfl, rfl, hnext reply, hcourse, fun he => (hlate he).elim⟩

/-- Where a step does nothing to the shared things, and makes no call. -/
theorem goes_quietly {w' : World} {h' : Handling} (hincident : h'.incident = h.incident)
    (hearly : h'.early = h.early) (hfired : h'.fired = h.fired) (hput : h'.put = h.put)
    (hcourse : h'.course = h.course) (hahead : h'.Ahead p)
    (hworld : w'.dedup = w.dedup ∧ w'.clock = w.clock ∧ w'.buffer.queue = w.buffer.queue)
    (huntouched : h.early = true → w'.buffer = w.buffer) : Goes p w w' h h' where
  incident := hincident
  early := hearly
  fired := hfired
  put := hput
  ahead := hahead
  shares := by
    obtain ⟨hdedup, hclock, hqueue⟩ := hworld
    rw [hcourse]
    exact .refl _ hclock hdedup hqueue rfl rfl
  untouched := fun he => ⟨hworld.1, huntouched he⟩

/-- **Whatever an incident does next**, it does as `Goes` says. -/
theorem goes {m : Markers} (hw : w.dedup = .inMemory m) (hahead : h.Ahead p)
    (hearly : h.early = true → h.fired = true) (t : TaskId) (outside : Outside) :
    Goes p w (h.go w t outside).1 h (h.go w t outside).2 := by
  have hstays : Goes p w w h h :=
    goes_quietly rfl rfl rfl rfl rfl hahead ⟨rfl, rfl, rfl⟩ fun _ => rfl
  unfold go
  unfold Ahead at hahead
  cases hr : h.routine with
  | done a => exact hstays
  | brokenOff text => exact hstays
  | act a next =>
    rw [hr] at hahead
    split at hahead
    · exact hahead.elim
    · next hwaiting =>
      obtain ⟨-, hquiet, hnext⟩ := hahead
      obtain ⟨hdedup, hbuffer, hclock⟩ := World.act_quiet { w with stopping := h.fired } hquiet
      refine goes_quietly rfl rfl rfl rfl rfl ?_ ⟨hdedup, hclock, congrArg _ hbuffer⟩
        fun _ => hbuffer
      unfold Ahead
      rw [if_neg hwaiting]
      exact hnext _ (World.act_credible _ hearly a)
  | call q next =>
    rw [hr] at hahead
    split at hahead
    · next hwaiting =>
      obtain ⟨hq, hunsent, hnext⟩ := hahead
      exact goes_ask hw t outside (if_pos hwaiting).symm hq hunsent hnext
        (hr ▸ ⟨hq, hunsent, hnext⟩)
    · next hwaiting =>
      obtain ⟨-, hunsent, hnext⟩ := hahead
      have hq : q ∈ (h.course.asked q).begun := List.mem_append_right _ List.mem_cons_self
      exact goes_ask hw t outside (if_neg hwaiting).symm hq hunsent hnext
        (hr ▸ ⟨hq, hunsent, hnext⟩)
  | watch q next stopped =>
    rw [hr] at hahead
    split at hahead
    · next hwaiting =>
      obtain ⟨hq, hunsent, hnext, hstopped⟩ := hahead
      dsimp only
      split
      · -- the token has fired, and what was granted is given back
        obtain ⟨hdedup, hclock, hqueue⟩ := w.giveUp_shared t q
        exact goes_quietly rfl rfl rfl rfl rfl hstopped ⟨hdedup, hclock, hqueue⟩ fun he =>
          absurd (hunsent.late.symm.trans he) Bool.false_ne_true
      · exact goes_ask hw t outside (if_pos hwaiting).symm hq hunsent hnext
          (hr ▸ ⟨hq, hunsent, hnext, hstopped⟩)
    · next hwaiting =>
      obtain ⟨-, hunsent, hnext, hstopped⟩ := hahead
      have hq : q ∈ (h.course.asked q).begun := List.mem_append_right _ List.mem_cons_self
      dsimp only
      rw [eq_false_of_ne_true hwaiting]
      exact goes_ask hw t outside (if_neg hwaiting).symm hq hunsent hnext
        (hr ▸ ⟨hq, hunsent, hnext, hstopped⟩)

end Handling

end IncidentMemory
