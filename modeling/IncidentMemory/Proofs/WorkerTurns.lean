import IncidentMemory.Proofs.Shift
import IncidentMemory.Proofs.Turns

/-!
# A turn of the worker is made of moves

In a rehearsal the worker goes on until it has to wait, over the buffer, the
counters and the store that all tasks share. In a `Shift` it goes on by one move,
and is answered in any way. The first is a case of the second: whatever the worker
does in a turn of a rehearsal it can do by moves, with the same buffer, the same
counters and the same points in the store (`Shift.follows_turn`).

For this a routine must do no more than the worker does (`Routine.Works`).
-/

namespace IncidentMemory

open Simulation

/-- An action of a worker that goes on. -/
def Action.IsWork : Action → Prop
  | .log _ | .now | .isStopping | .count _ => True
  | _ => False

/-- A call of a worker. -/
def Call.IsWork : Call → Prop
  | .embed _ | .search .. | .upsert _ | .receive => True
  | _ => False

namespace Routine

/-! ## What a worker does -/

variable {α β : Type}

/-- **A routine that does what a worker does**; if it may, it lets the reader go
at its end. -/
def Works (drops : Bool) : Routine α → Prop
  | .done _ | .brokenOff _ => True
  | .act a next => (a.IsWork ∧ ∀ res, (next res).Works drops)
    ∨ drops = true ∧ a = .dropReader ∧ ∀ res, ∃ b, next res = .done b
  | .call q next => q.IsWork ∧ ∀ reply, (next reply).Works drops
  | .watch q next stopped => q.IsWork ∧ (∀ reply, (next reply).Works drops) ∧ stopped.Works drops

variable {r : Routine α} {f : α → Routine β} {drops : Bool}

/-- Only the last part of a composition may let the reader go. -/
theorem Works.bind (hr : r.Works false) (hf : ∀ a, (f a).Works drops) : (r >>= f).Works drops := by
  rw [bind_eq]
  induction r with
  | done a => exact hf a
  | brokenOff text => trivial
  | act a next ih =>
    rcases hr with ⟨ha, hnext⟩ | ⟨hdrops, -⟩
    · exact Or.inl ⟨ha, fun res => ih res (hnext res)⟩
    · exact absurd hdrops Bool.false_ne_true
  | call q next ih => exact ⟨hr.1, fun reply => ih reply (hr.2 reply)⟩
  | watch q next stopped ih ihs =>
    exact ⟨hr.1, fun reply => ih reply (hr.2.1 reply), ihs hr.2.2⟩

theorem works_perform {a : Action} (ha : a.IsWork) : (perform a).Works drops :=
  Or.inl ⟨ha, fun _ => trivial⟩

theorem works_report (event : Log.Event) : (report event).Works drops :=
  works_perform (a := .log event) trivial

theorem works_ask {q : Call} (hq : q.IsWork) : (ask q).Works drops :=
  ⟨hq, fun reply => by cases reply <;> trivial⟩

theorem Works.caught (hr : r.Works false) : r.caught.Works false := by
  induction r with
  | done a => trivial
  | brokenOff text => trivial
  | act a next ih =>
    rcases hr with ⟨ha, hnext⟩ | ⟨hdrops, -⟩
    · exact Or.inl ⟨ha, fun res => ih res (hnext res)⟩
    · exact absurd hdrops Bool.false_ne_true
  | call q next ih => exact ⟨hr.1, fun reply => ih reply (hr.2 reply)⟩
  | watch q next stopped ih ihs =>
    exact ⟨hr.1, fun reply => ih reply (hr.2.1 reply), ihs hr.2.2⟩

theorem Works.watching (hr : r.Works false) : (watching r).Works false := by
  have hguarded : r.guarded.Works false := by
    induction r with
    | done a => trivial
    | brokenOff text => trivial
    | act a next ih =>
      rcases hr with ⟨ha, hnext⟩ | ⟨hdrops, -⟩
      · exact Or.inl ⟨ha, fun res => ih res (hnext res)⟩
      · exact absurd hdrops Bool.false_ne_true
    | call q next ih => exact ⟨hr.1, fun reply => ih reply (hr.2 reply), trivial⟩
    | watch q next stopped ih ihs =>
      exact ⟨hr.1, fun reply => ih reply (hr.2.1 reply), ihs hr.2.2⟩
  unfold Routine.watching
  refine (works_perform (a := .isStopping) trivial).bind fun fired => ?_
  cases fired with
  | true => trivial
  | false => exact hguarded

/-- A composition of procedures. -/
theorem Works.run_bind {p : Procedure α} {f : α → Procedure β} (hp : p.run.Works false)
    (hf : ∀ a, (f a).run.Works drops) : (p >>= f).run.Works drops := by
  rw [ExceptT.run_bind]
  refine hp.bind fun o => ?_
  cases o with
  | ok a => exact hf a
  | error e => trivial

/-- A routine in a procedure. -/
theorem Works.run_lift_bind {f : α → Procedure β} (hr : r.Works false)
    (hf : ∀ a, (f a).run.Works drops) : ((liftM r : Procedure α) >>= f).run.Works drops := by
  show (ExceptT.run (ExceptT.lift r >>= f)).Works drops
  rw [ExceptT.run_bind_lift]
  exact hr.bind hf

end Routine

namespace Consolidator

open Routine

theorem works_consolidate (c : Consolidator) (r : Resolution) :
    (c.consolidate r).run.Works false := by
  unfold consolidate Procedure.embedAs
  split
  · exact (works_report _).run_lift_bind fun _ => trivial
  · refine Works.run_bind ?_ fun e => ?_
    · refine Works.run_bind (works_ask trivial) fun e => ?_
      split <;> trivial
    · refine Works.run_bind (works_ask trivial) fun hits => ?_
      dsimp only
      refine Works.run_bind ?_ fun _ => ?_
      · generalize (c.repeated r.incidentId hits).events = events
        induction events with
        | nil => trivial
        | cons event events ih =>
          rw [List.forM_eq_forM, List.forM_cons]
          exact (works_report _).run_lift_bind fun _ => ih
      · split
        · trivial
        · refine (works_perform (a := .now) trivial).run_lift_bind fun now => ?_
          refine Works.run_bind (works_ask trivial) fun _ => ?_
          exact (works_report _).run_lift_bind fun _ => trivial

theorem works_handle (c : Consolidator) (r : Resolution) : (c.handle r).Works false := by
  have hcounted : (perform (.count .failed)).Works false := works_perform (a := .count _) trivial
  unfold handle
  refine (works_perform (a := .count .received) trivial).bind fun _ => ?_
  refine (c.works_consolidate r).caught.watching.bind fun x => ?_
  rcases x with _ | ((f | result) | text)
  · exact (works_report _).bind fun _ => trivial
  · dsimp only
    split
    · exact (works_report _).bind fun _ => trivial
    · exact hcounted.bind fun _ => (works_report _).bind fun _ => trivial
  · exact (works_perform (a := .count result.counter) trivial).bind fun _ => trivial
  · exact hcounted.bind fun _ => (works_report _).bind fun _ => trivial

theorem works_drain (c : Consolidator) (most : Nat) : (c.drain most).Works false := by
  induction most with
  | zero => trivial
  | succ most ih =>
    refine (works_ask (q := .receive) trivial).watching.bind fun item => ?_
    rcases item with _ | _ | r
    · trivial
    · exact works_report _
    · refine (c.works_handle r).bind fun goesOn => ?_
      cases goesOn with
      | true => exact ih
      | false => trivial

/-- **The worker works**, and lets the reader go at the end. -/
theorem works_work (c : Consolidator) (most : Nat) : (c.work most).Works true := by
  unfold work
  refine Works.bind (works_report _) fun _ => ?_
  refine (c.works_drain most).bind fun _ => ?_
  refine Works.bind (works_report _) fun _ => ?_
  exact Or.inr ⟨rfl, rfl, fun ⟨⟩ => ⟨(), rfl⟩⟩

end Consolidator

/-! ## A workplace and a world -/

namespace Workplace

/-- **A workplace that is as the world of a rehearsal**, which began with a
store. -/
structure Mirrors (store : Collections) (w : World) (p : Workplace) : Prop where
  /-- They have the same buffer. -/
  buffer : p.exchange.buffer = w.buffer
  /-- In both something can still be written, or in neither. -/
  canWrite : p.exchange.canWrite = w.canWrite
  /-- The token has fired in both, or in neither. -/
  stopping : p.stopping = w.stopping
  /-- The same was counted. -/
  counters : p.counters = w.counters
  /-- A store in memory is what the points that took effect have made of it. -/
  store : ∀ m, w.store = .inMemory m → p.effects.foldlM Collections.upsert store = .ok m

variable {store : Collections} {w : World} {p : Workplace}

/-- Who is ready, who waits and who watches does not matter. -/
theorem Mirrors.same (h : p.Mirrors store w) {w' : World} (hbuffer : w'.buffer = w.buffer)
    (hcanWrite : w'.canWrite = w.canWrite) (hstopping : w'.stopping = w.stopping)
    (hcounters : w'.counters = w.counters) (hstore : w'.store = w.store) : p.Mirrors store w' where
  buffer := h.buffer.trans hbuffer.symm
  canWrite := h.canWrite.trans hcanWrite.symm
  stopping := h.stopping.trans hstopping.symm
  counters := h.counters.trans hcounters.symm
  store := fun m hm => h.store m (hstore ▸ hm)

theorem Mirrors.wakes (h : p.Mirrors store w) (ts : List TaskId) :
    p.Mirrors store (w.wakeAll ts) := by
  rw [World.wakeAll_eq]
  exact h.same rfl rfl rfl rfl rfl

/-- **The token fires** in both. -/
theorem Mirrors.fires (h : p.Mirrors store w) :
    { p with stopping := true }.Mirrors store w.fire := by
  unfold World.fire
  split
  · next hstop => exact ⟨h.buffer, h.canWrite, hstop.symm, h.counters, h.store⟩
  · have hfired : { p with stopping := true }.Mirrors store
        { w with stopping := true, watchers := [] } :=
      ⟨h.buffer, h.canWrite, rfl, h.counters, h.store⟩
    exact hfired.wakes _

/-- **An action of the worker** is carried out in both, with the same result. -/
theorem Mirrors.act (h : p.Mirrors store w) {a : Action} (ha : a.IsWork) :
    (p.act (fun a => (w.act a).2) a).1.Mirrors store (w.act a).1
      ∧ (p.act (fun a => (w.act a).2) a).2 = (w.act a).2
      ∧ (p.act (fun a => (w.act a).2) a).1.exchange.reader = p.exchange.reader := by
  cases a with
  | log event => exact ⟨h.same rfl rfl rfl rfl rfl, rfl, rfl⟩
  | now => exact ⟨h, rfl, rfl⟩
  | isStopping => exact ⟨h, h.stopping, rfl⟩
  | count counter =>
    exact ⟨⟨h.buffer, h.canWrite, h.stopping, congrArg (Counters.add · counter) h.counters,
      h.store⟩, rfl, rfl⟩
  | _ => exact ha.elim

/-- **The reader goes** in both. -/
theorem Mirrors.dropReader (h : p.Mirrors store w) (hreader : p.exchange.reader = true)
    (results : (a : Action) → a.Result) :
    (p.act results .dropReader).1.Mirrors store (w.act .dropReader).1 := by
  have hstep : p.exchange.step .dropReader
      = ({ p.exchange with reader := false, buffer := p.exchange.buffer.close }, .was true) := by
    show (if p.exchange.reader = true then _ else _) = _
    rw [if_pos hreader]
  have hclosed :
      (p.act results .dropReader).1.Mirrors store { w with buffer := w.buffer.close } := by
    show Mirrors store _ { p with exchange := _, ledger := _ }
    rw [hstep]
    exact ⟨congrArg Buffer.close h.buffer, h.canWrite, h.stopping, h.counters, h.store⟩
  exact hclosed.wakes _

/-- What a call comes to in a rehearsal, at a workplace. -/
structure Comes (store : Collections) (p : Workplace) (again : Bool) (q : Call)
    (after : World × Progress q.Reply) (outside : Outside) : Prop where
  /-- They are alike afterwards. -/
  mirrors : (p.serve again outside q).1.Mirrors store after.1
  /-- The answer is the same. -/
  reply : (p.serve again outside q).2 = after.2.reply?
  /-- The reader is still there. -/
  reader : (p.serve again outside q).1.exchange.reader = true

/-- What a read comes to, from what the exchange says. -/
theorem comes_of_step {x : Exchange Resolution} {result : ExchangeResult Resolution}
    (hstep : p.exchange.step .receive = (x, result)) {w' : World}
    (hmirrors : { p with exchange := x }.Mirrors store w') (hreader : x.reader = true)
    {progress : Progress (Option Resolution)} (hreply : reading result = progress.reply?)
    (again : Bool) (outside : Outside) : p.Comes store again .receive (w', progress) outside := by
  have hserve : p.serve again outside .receive
      = ({ p with exchange := x, ledger := p.ledger.note .receive result }, reading result) := by
    show (p.exchanged .receive, reading (p.exchange.step .receive).2) = _
    unfold exchanged
    rw [hstep]
  refine ⟨?_, ?_, ?_⟩
  · rw [hserve]
    exact ⟨hmirrors.buffer, hmirrors.canWrite, hmirrors.stopping, hmirrors.counters, hmirrors.store⟩
  · rw [hserve]
    exact hreply
  · rw [hserve]
    exact hreader

/-- **An item is received** in both, or waited for. -/
theorem Mirrors.receive (h : p.Mirrors store w) (hreader : p.exchange.reader = true) (again : Bool)
    (outside : Outside) : p.Comes store again .receive w.receive outside := by
  have hstep : p.exchange.step .receive = p.exchange.receive true := rfl
  unfold Exchange.receive at hstep
  rw [if_pos hreader, h.buffer, h.canWrite, Bool.true_and] at hstep
  unfold World.receive
  rcases htake : w.buffer.take with ⟨b, _ | item⟩ <;> rw [htake] at hstep
  · dsimp only at hstep ⊢
    by_cases hcan : w.canWrite = true
    · rw [if_pos hcan] at hstep ⊢
      refine comes_of_step hstep ?_ hreader ?_ again outside
      · exact ⟨h.buffer, h.canWrite, h.stopping, h.counters, h.store⟩
      · rfl
    · rw [if_neg hcan] at hstep ⊢
      exact comes_of_step hstep h hreader rfl again outside
  · have htaken : { p with exchange := { p.exchange with buffer := b } }.Mirrors store
        { w with buffer := b } :=
      ⟨rfl, h.canWrite, h.stopping, h.counters, h.store⟩
    exact comes_of_step hstep (htaken.wakes _) hreader rfl again outside

/-- A call that is answered from outside changes nothing at the workplace. -/
theorem Mirrors.answered (h : p.Mirrors store w) (hreader : p.exchange.reader = true) (again : Bool)
    {q : Call} (hserve : ∀ outside, p.serve again outside q = (p, outside q))
    (progress : Progress q.Reply) : ∃ outside, p.Comes store again q (w, progress) outside := by
  obtain ⟨outside, houtside⟩ := World.exists_outside q progress.reply?
  refine ⟨outside, ?_, ?_, ?_⟩
  · rw [hserve]
    exact h
  · rw [hserve]
    exact houtside
  · rw [hserve]
    exact hreader

/-- An answer to a call that puts points in has to do with points only. -/
theorem confirm_eq (p : Workplace) (reply : Option (Attempt (Outcome Unit))) :
    ∃ sending effects, (p.confirm reply).1 = { p with sending, effects } := by
  unfold confirm
  split
  · exact ⟨_, _, rfl⟩
  · split <;> exact ⟨_, _, rfl⟩
  · exact ⟨_, _, rfl⟩

/-- Points that are put in for the first time. -/
theorem comes_of_confirm (hreader : p.exchange.reader = true) {points : List Point} {w' : World}
    {progress : Progress (Outcome Unit)}
    (hmirrors : ({ p with sending := some points }.confirm progress.reply?).1.Mirrors store w') :
    ∃ outside, p.Comes store false (.upsert points) (w', progress) outside := by
  obtain ⟨outside, houtside⟩ := World.exists_outside (.upsert points) progress.reply?
  have hserve : p.serve false outside (.upsert points)
      = { p with sending := some points }.confirm progress.reply? := by
    rw [← houtside]
    rfl
  refine ⟨outside, ?_, ?_, ?_⟩
  · rw [hserve]
    exact hmirrors
  · rw [hserve]
    rcases progress.reply? with _ | ((f | ⟨⟩) | text) <;> rfl
  · obtain ⟨sending, effects, hconfirm⟩ :=
      { p with sending := some points }.confirm_eq progress.reply?
    rw [hserve, hconfirm]
    exact hreader

/-- **Points are put in**, in both or in neither. -/
theorem Mirrors.upsert (h : p.Mirrors store w) (hreader : p.exchange.reader = true)
    (points : List Point) :
    ∃ outside, p.Comes store false (.upsert points) (w.upsert points) outside := by
  unfold World.upsert
  cases hs : w.store with
  | scripted s =>
    refine comes_of_confirm hreader ?_
    obtain ⟨sending, effects, hconfirm⟩ :=
      { p with sending := some points }.confirm_eq (World.progress s.upsert.next).reply?
    rw [hconfirm]
    exact ⟨h.buffer, h.canWrite, h.stopping, h.counters, fun m hm => nomatch hm⟩
  | inMemory s =>
    have heffects := h.store s hs
    dsimp only
    cases hupsert : s.upsert points with
    | ok s' =>
      refine comes_of_confirm hreader ⟨h.buffer, h.canWrite, h.stopping, h.counters, fun m hm => ?_⟩
      obtain rfl := VectorStore.inMemory.inj hm
      show (p.effects ++ [points]).foldlM Collections.upsert store = .ok s'
      rw [List.foldlM_append, heffects]
      show List.foldlM Collections.upsert s [points] = .ok s'
      rw [List.foldlM_cons, hupsert]
      rfl
    | error f =>
      exact comes_of_confirm hreader ⟨h.buffer, h.canWrite, h.stopping, h.counters, h.store⟩

/-- Similar points are looked for, which changes nothing. -/
theorem Mirrors.search (h : p.Mirrors store w) (query : Embedding) (limit : Nat)
    (least : Option Single) : p.Mirrors store (w.search query limit least).1 := by
  unfold World.search
  split
  · exact ⟨h.buffer, h.canWrite, h.stopping, h.counters, fun m hm => nomatch hm⟩
  · exact h

/-- **A call of the worker** comes to the same in both. -/
theorem Mirrors.attempt (h : p.Mirrors store w) (hreader : p.exchange.reader = true) (t : TaskId)
    {q : Call} (hq : q.IsWork) :
    ∃ outside, p.Comes store false q (w.attempt t q) outside := by
  cases q with
  | embed text =>
    have htraced : p.Mirrors store (w.traced (.embed text)) := h.same rfl rfl rfl rfl rfl
    exact htraced.answered hreader false (fun _ => rfl) _
  | search query limit least =>
    exact (h.search query limit least).answered hreader false (fun _ => rfl) _
  | upsert points => exact h.upsert hreader points
  | receive => exact ⟨fun _ => none, h.receive hreader false _⟩
  | _ => exact hq.elim

/-- **A call that is made again** as well. -/
theorem Mirrors.retry (h : p.Mirrors store w) (hreader : p.exchange.reader = true) (t : TaskId)
    {q : Call} (hq : q.IsWork) :
    ∃ outside, p.Comes store true q (w.retry t q) outside := by
  cases q with
  | embed text => exact h.answered hreader true (fun _ => rfl) _
  | search query limit least => exact h.answered hreader true (fun _ => rfl) _
  | upsert points => exact ⟨fun _ => none, h, rfl, hreader⟩
  | receive => exact ⟨fun _ => none, h.receive hreader true _⟩
  | _ => exact hq.elim

/-- A call of the worker is given up. -/
theorem Mirrors.giveUp (h : p.Mirrors store w) (t : TaskId) {q : Call} (hq : q.IsWork) :
    p.Mirrors store (w.giveUp t q) := by
  cases q with
  | send r => exact hq.elim
  | receive => exact h.same rfl rfl rfl rfl rfl
  | _ => exact h

end Workplace

/-! ## Turns -/

namespace Shift

/-- That a shift is where a turn has left the worker, which may go on. -/
def IsAfter (s : Shift) : Turn Unit → Prop
  | .ended (.done ()) => s.routine = .done ()
  | .ended (.brokenOff text) => s.routine = .brokenOff text
  | .waits rest => s.routine = rest ∧ s.waiting = true ∧ rest.Works true
    ∧ s.place.exchange.reader = true

/-- That the next moves of the worker come to what a turn of a rehearsal comes
to. -/
def Follows (store : Collections) (s : Shift) (after : World × Turn Unit) : Prop :=
  ∃ moves, (s.run moves).place.Mirrors store after.1 ∧ (s.run moves).IsAfter after.2

variable {store : Collections} {s : Shift} {w : World}

/-- A move, and then what follows it. -/
theorem Follows.move {after : World × Turn Unit} (m : Move)
    (h : (s.move m).Follows store after) : s.Follows store after := by
  obtain ⟨moves, hmirrors, hafter⟩ := h
  exact ⟨m :: moves, hmirrors, hafter⟩

/-- That the next move is to make a call, for the first time or again. -/
def Asks (s : Shift) (q : Call) (next : Attempt q.Reply → Routine Unit) : Prop :=
  ∀ outside results, s.go outside results = s.hear q next (s.place.serve s.waiting outside q)

section Asks

variable {q : Call} {next : Attempt q.Reply → Routine Unit} {w' : World} {outside : Outside}

theorem asks_call (hr : s.routine = .call q next) : s.Asks q next := by
  intro outside results
  unfold go
  rw [hr]

theorem asks_watch {stopped : Routine Unit} (hr : s.routine = .watch q next stopped)
    (hlate : (s.waiting && s.place.stopping) = false) : s.Asks q next := by
  intro outside results
  unfold go
  rw [hr]
  dsimp only
  rw [hlate, if_neg Bool.false_ne_true]

/-- The call is answered, and something follows. -/
theorem Asks.answered (ha : s.Asks q next) {reply : Attempt q.Reply} {after : World × Turn Unit}
    (hcomes : s.place.Comes store s.waiting q (w', .ended reply) outside)
    (hf : ∀ s' : Shift, s'.routine = next reply → s'.waiting = false →
      s'.place.exchange.reader = true → s'.place.Mirrors store w' → s'.Follows store after) :
    s.Follows store after := by
  refine .move (.go outside fun a => (w'.act a).2) ?_
  show (s.go outside _).Follows store after
  obtain ⟨hmirrors, hreply, hreader⟩ := hcomes
  rw [ha]
  generalize s.place.serve s.waiting outside q = served at hmirrors hreply hreader ⊢
  obtain ⟨p, answer⟩ := served
  obtain rfl : answer = some reply := hreply
  exact hf _ rfl rfl hreader hmirrors

/-- The call is not answered, and the token fires at most. -/
theorem Asks.unanswered (ha : s.Asks q next) {progress : Progress q.Reply}
    (hcomes : s.place.Comes store s.waiting q (w', progress) outside)
    (hprogress : progress.reply? = none) (hworks : s.routine.Works true) {w'' : World}
    (hlater : ∀ p : Workplace, p.Mirrors store w' → p.Mirrors store w''
      ∨ { p with stopping := true }.Mirrors store w'') :
    s.Follows store (w'', .waits s.routine) := by
  obtain ⟨hmirrors, hreply, hreader⟩ := hcomes
  have hgo : s.go outside (fun a => (w'.act a).2)
      = { s with place := (s.place.serve s.waiting outside q).1, waiting := true } := by
    rw [ha]
    generalize s.place.serve s.waiting outside q = served at hreply ⊢
    obtain ⟨p, answer⟩ := served
    obtain rfl : answer = none := hreply.trans hprogress
    rfl
  refine .move (.go outside fun a => (w'.act a).2) ?_
  show (s.go outside _).Follows store _
  rw [hgo]
  rcases hlater _ hmirrors with hmirrors | hfired
  · exact ⟨[], hmirrors, rfl, rfl, hworks, hreader⟩
  · exact ⟨[.fire], hfired, rfl, rfl, hworks, hreader⟩

end Asks

/-- **A turn in which the worker need not wait first**, by moves. -/
theorem follows_advance (t : TaskId) {r : Routine Unit} (hr : s.routine = r)
    (hwaiting : s.waiting = true → r.asked? = none) (hworks : r.Works true)
    (hreader : s.place.exchange.reader = true) (hmirrors : s.place.Mirrors store w) :
    s.Follows store (w.advance t r) := by
  -- by induction on the routine, one move for every node that the turn goes through
  induction r generalizing w s with
  | done a => exact ⟨[], hmirrors, hr⟩
  | brokenOff text => exact ⟨[], hmirrors, hr⟩
  | act a next ih =>
    refine .move (.go (fun _ => none) fun a => (w.act a).2) ?_
    have hgo : s.move (.go (fun _ => none) fun a => (w.act a).2)
        = { place := (s.place.act (fun a => (w.act a).2) a).1
            routine := next (s.place.act (fun a => (w.act a).2) a).2
            journal := s.journal ++ a.entries (s.place.act (fun a => (w.act a).2) a).2 } := by
      show s.go _ _ = _
      unfold go
      rw [hr]
    rw [hgo]
    rcases hworks with ⟨ha, hnext⟩ | ⟨-, rfl, hnext⟩
    · obtain ⟨hact, hresult, hstays⟩ := hmirrors.act ha
      rw [hresult]
      exact ih _ rfl (fun h => absurd h Bool.false_ne_true) (hnext _) (hstays.trans hreader) hact
    · -- the reader goes, and with that the worker has ended
      obtain ⟨⟨⟩, hend⟩ := hnext ()
      have hdropped := hmirrors.dropReader hreader fun a => (w.act a).2
      have hadvance : w.advance t (.act .dropReader next)
          = ((w.act .dropReader).1, .ended (.done ())) := by
        rw [World.advance]
        show World.advance _ t (next ()) = _
        rw [hend]
        rfl
      rw [hadvance]
      exact ⟨[], hdropped, hend⟩
  | call q next ih =>
    obtain ⟨hq, hnext⟩ := hworks
    have hfirst : s.waiting = false :=
      eq_false_of_ne_true fun h => Option.some_ne_none _ (hwaiting h)
    obtain ⟨outside, hcomes⟩ := hmirrors.attempt hreader t hq
    have hasks := asks_call hr
    rw [← hfirst] at hcomes
    rw [World.advance]
    rcases hattempt : w.attempt t q with ⟨w', reply | _ | _⟩ <;> rw [hattempt] at hcomes
    · exact hasks.answered hcomes fun s' hr' hwaiting' hreader' hmirrors' =>
        ih reply hr' (fun h => absurd (hwaiting'.symm.trans h) Bool.false_ne_true) (hnext reply)
          hreader' hmirrors'
    · rw [← hr]
      exact hasks.unanswered hcomes rfl (hr ▸ ⟨hq, hnext⟩) fun p hp => Or.inl hp
    · rw [← hr]
      exact hasks.unanswered hcomes rfl (hr ▸ ⟨hq, hnext⟩) fun p hp => Or.inr hp.fires
  | watch q next stopped ih ihs =>
    obtain ⟨hq, hnext, hstopped⟩ := hworks
    have hfirst : s.waiting = false :=
      eq_false_of_ne_true fun h => Option.some_ne_none _ (hwaiting h)
    obtain ⟨outside, hcomes⟩ := hmirrors.attempt hreader t hq
    have hasks := asks_watch hr (by rw [hfirst]; rfl)
    rw [← hfirst] at hcomes
    rw [World.advance]
    rcases hattempt : w.attempt t q with ⟨w', reply | _ | _⟩ <;> rw [hattempt] at hcomes
    · exact hasks.answered hcomes fun s' hr' hwaiting' hreader' hmirrors' =>
        ih reply hr' (fun h => absurd (hwaiting'.symm.trans h) Bool.false_ne_true) (hnext reply)
          hreader' hmirrors'
    · rw [← hr]
      exact hasks.unanswered hcomes rfl (hr ▸ ⟨hq, hnext, hstopped⟩)
        fun p hp => Or.inl (hp.same rfl rfl rfl rfl rfl)
    · rw [← hr]
      have hwatched : ∀ {p : Workplace}, p.Mirrors store w' → p.Mirrors store (w'.watch t) :=
        fun hp => hp.same rfl rfl rfl rfl rfl
      exact hasks.unanswered hcomes rfl (hr ▸ ⟨hq, hnext, hstopped⟩)
        fun p hp => Or.inr (hwatched hp).fires

/-- **A turn in which the worker has waited**, by moves. -/
theorem follows_resume (t : TaskId) (hwaiting : s.waiting = true)
    (hworks : s.routine.Works true) (hreader : s.place.exchange.reader = true)
    (hmirrors : s.place.Mirrors store w) : s.Follows store (w.resume t s.routine) := by
  have hgoesOn : ∀ {r : Routine Unit} {w' : World}, r.Works true → ∀ s' : Shift, s'.routine = r →
      s'.waiting = false → s'.place.exchange.reader = true → s'.place.Mirrors store w' →
        s'.Follows store (w'.advance t r) :=
    fun hr s' hr' hwaiting' hreader' hmirrors' => follows_advance t hr'
      (fun h => absurd (hwaiting'.symm.trans h) Bool.false_ne_true) hr hreader' hmirrors'
  cases hr : s.routine with
  | call q next =>
    rw [hr] at hworks
    obtain ⟨hq, hnext⟩ := hworks
    obtain ⟨outside, hcomes⟩ := hmirrors.retry hreader t hq
    have hasks := asks_call hr
    rw [← hwaiting] at hcomes
    rw [World.resume]
    rcases hretry : w.retry t q with ⟨w', reply | _ | _⟩ <;> rw [hretry] at hcomes
    · exact hasks.answered hcomes (hgoesOn (hnext reply))
    · rw [← hr]
      exact hasks.unanswered hcomes rfl (hr ▸ ⟨hq, hnext⟩) fun p hp => Or.inl hp
    · rw [← hr]
      exact hasks.unanswered hcomes rfl (hr ▸ ⟨hq, hnext⟩) fun p hp => Or.inl hp
  | watch q next stopped =>
    rw [hr] at hworks
    obtain ⟨hq, hnext, hstopped⟩ := hworks
    have hmirrors' : s.place.Mirrors store (w.unwatch t) := hmirrors.same rfl rfl rfl rfl rfl
    rw [World.resume]
    by_cases hstop : (w.unwatch t).stopping = true
    · rw [if_pos hstop]
      -- the token has fired, and the call is given up
      have hgo : s.go (fun _ => none) (fun a => (w.act a).2)
          = { place := s.place, routine := stopped, journal := s.journal ++ [.gaveUp q] } := by
        unfold go
        rw [hr]
        dsimp only
        rw [hwaiting, hmirrors'.stopping, hstop]
        rfl
      refine .move (.go (fun _ => none) fun a => (w.act a).2) ?_
      show (s.go _ _).Follows store _
      rw [hgo]
      exact hgoesOn hstopped _ rfl rfl hreader (hmirrors'.giveUp t hq)
    · rw [if_neg hstop]
      have hnot : s.place.stopping = false :=
        hmirrors'.stopping.trans (eq_false_of_ne_true hstop)
      obtain ⟨outside, hcomes⟩ := hmirrors'.retry hreader t hq
      have hasks := asks_watch hr (by rw [hnot, Bool.and_false])
      rw [← hwaiting] at hcomes
      have hwatched : ∀ {w' : World} (p : Workplace), p.Mirrors store w' →
          p.Mirrors store (w'.watch t) ∨ { p with stopping := true }.Mirrors store (w'.watch t) :=
        fun p hp => Or.inl (hp.same rfl rfl rfl rfl rfl)
      rcases hretry : (w.unwatch t).retry t q with ⟨w', reply | _ | _⟩ <;> rw [hretry] at hcomes
      · exact hasks.answered hcomes (hgoesOn (hnext reply))
      · rw [← hr]
        exact hasks.unanswered hcomes rfl (hr ▸ ⟨hq, hnext, hstopped⟩) hwatched
      · rw [← hr]
        exact hasks.unanswered hcomes rfl (hr ▸ ⟨hq, hnext, hstopped⟩) hwatched
  | _ => exact follows_advance t hr (fun _ => rfl) (hr ▸ hworks) hreader hmirrors

/-- **A turn of a rehearsal is made of moves**, for a worker that is over a
workplace like the world. -/
theorem follows_turn (t : TaskId) (hworks : s.routine.Works true)
    (hreader : s.place.exchange.reader = true) (hmirrors : s.place.Mirrors store w) :
    s.Follows store (if s.waiting then w.resume t s.routine else w.advance t s.routine) := by
  by_cases hwaiting : s.waiting = true
  · rw [if_pos hwaiting]
    exact follows_resume t hwaiting hworks hreader hmirrors
  · rw [if_neg hwaiting]
    exact follows_advance t rfl (fun h => absurd h hwaiting) hworks hreader hmirrors

/-- **A worker that begins in a rehearsal** begins a shift over the buffer. -/
theorem follows_start (c : Consolidator) (most : Nat) (t : TaskId) {m : Collections}
    (hstore : w.store = .inMemory m) (hcanWrite : w.canWrite = true)
    (hstopping : w.stopping = false) (hcounters : w.counters = {}) :
    (start c most w.buffer).Follows m (w.advance t (c.work most)) := by
  refine follows_turn t (c.works_work most) rfl ⟨rfl, hcanWrite.symm, hstopping.symm,
    hcounters.symm, fun m' hm => ?_⟩
  exact congrArg Except.ok (VectorStore.inMemory.inj (hstore.symm.trans hm))

end Shift

end IncidentMemory
