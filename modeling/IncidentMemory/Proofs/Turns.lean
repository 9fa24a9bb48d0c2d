import IncidentMemory.Proofs.Traffic

/-!
# A turn is made of steps

In a rehearsal a task goes on until it ends or has to wait
(`Schedule.turn`), while in a `Traffic` an incident goes on by one step, and is
answered in any way. The first is a case of the second: whatever an incident does
in a turn of a rehearsal, it can do in steps, with the same markers, the same
buffer and the same end (`Handling.follows_turn`). What holds of all traffic
therefore holds of rehearsals.
-/

namespace IncidentMemory

open Simulation

/-- How a call was answered, if it was. -/
def Simulation.Progress.reply? {α : Type} : Progress α → Option (Attempt α)
  | .ended reply => some reply
  | _ => none

/-- **Worlds that are alike** in what incidents share. -/
structure Simulation.World.Alike (w v : World) : Prop where
  /-- They have the same markers. -/
  dedup : v.dedup = w.dedup
  /-- They have the same buffer. -/
  buffer : v.buffer = w.buffer
  /-- It is the same time. -/
  clock : v.clock = w.clock

namespace Handling

/-- **What an incident can come to** by steps of its own. -/
inductive Reaches (t : TaskId) : World → Handling → World → Handling → Prop
  /-- It need not go on. -/
  | refl (w : World) (h : Handling) : Reaches t w h w h
  /-- It goes on by a step, and then further. -/
  | step {w w' : World} {h h' : Handling} (outside : Outside)
    (rest : Reaches t (h.go w t outside).1 (h.go w t outside).2 w' h') : Reaches t w h w' h'

/-- That a handling is where a turn has left a task. -/
def IsAfter (h : Handling) : Turn (Outcome Handled) → Prop
  | .ended (.done o) => h.routine = .done o
  | .ended (.brokenOff text) => h.routine = .brokenOff text
  | .waits rest => h.routine = rest ∧ h.waiting = true

end Handling

namespace Simulation.World

variable {w v : World}

theorem Alike.wakes (h : w.Alike v) (ts : List TaskId) : (w.wakeAll ts).Alike v := by
  rw [wakeAll_eq]
  exact ⟨h.dedup, h.buffer, h.clock⟩

theorem Alike.fires (h : w.Alike v) : w.fire.Alike v := by
  unfold fire
  split
  · exact h
  · have hfired : ({ w with stopping := true, watchers := [] } : World).Alike v :=
      ⟨h.dedup, h.buffer, h.clock⟩
    exact hfired.wakes _

theorem Alike.watches (h : w.Alike v) {t : TaskId} : (w.watch t).Alike v :=
  ⟨h.dedup, h.buffer, h.clock⟩

/-- A change of the buffer is the same in worlds that are alike. -/
theorem Alike.withBuffer (h : w.Alike v) (b : Buffer Resolution) :
    (w.withBuffer b).Alike (v.withBuffer b) := by
  rw [withBuffer_eq w, withBuffer_eq v]
  exact ⟨h.dedup, rfl, h.clock⟩

theorem Alike.wakeReceiver (h : w.Alike v) : w.wakeReceiver.Alike v.wakeReceiver := by
  rw [wakeReceiver_eq w, wakeReceiver_eq v]
  exact ⟨h.dedup, h.buffer, h.clock⟩

/-- Giving a call up is the same in worlds that are alike. -/
theorem Alike.giveUp (h : w.Alike v) (t : TaskId) (q : Call) :
    (w.giveUp t q).Alike (v.giveUp t q) ∧ (w.giveUp t q).stopping = w.stopping := by
  cases q with
  | send r =>
    show (w.withBuffer _).Alike (v.withBuffer _) ∧ (w.withBuffer _).stopping = _
    refine ⟨?_, ?_⟩
    · rw [h.buffer]
      exact h.withBuffer _
    · rw [withBuffer_eq]
  | receive => exact ⟨⟨h.dedup, h.buffer, h.clock⟩, rfl⟩
  | _ => exact ⟨h, rfl⟩

/-- **A quiet action** is the same in worlds that are alike, if it finds the
token as it is. -/
theorem Alike.act (h : w.Alike v) {a : Action} (ha : a.IsQuiet) :
    (w.act a).1.Alike ({ v with stopping := w.stopping }.act a).1
      ∧ (w.act a).2 = ({ v with stopping := w.stopping }.act a).2
      ∧ (w.act a).1.stopping = w.stopping := by
  cases a with
  | log event => exact ⟨⟨h.dedup, h.buffer, h.clock⟩, rfl, rfl⟩
  | isStopping => exact ⟨⟨h.dedup, h.buffer, h.clock⟩, rfl, rfl⟩
  | buffered =>
    refine ⟨⟨h.dedup, h.buffer, h.clock⟩, ?_, rfl⟩
    exact congrArg Buffer.size h.buffer.symm
  | _ => exact ha.elim

/-- What came of a write is the same in worlds that are alike. -/
theorem Alike.sent (h : w.Alike v) (after : Buffer Resolution × WriteState) :
    (w.sent after).1.Alike (tried (v.sent after)).1
      ∧ (tried (v.sent after)).2 = (w.sent after).2.reply?
      ∧ (w.sent after).1.stopping = w.stopping ∧ (w.sent after).1.dedup = w.dedup := by
  obtain ⟨b, state⟩ := after
  have hbuffer := h.withBuffer b
  unfold World.sent
  cases state with
  | accepted =>
    refine ⟨hbuffer.wakeReceiver, rfl, ?_⟩
    dsimp only
    rw [wakeReceiver_eq, withBuffer_eq]
    exact ⟨rfl, rfl⟩
  | closed =>
    refine ⟨hbuffer, rfl, ?_⟩
    dsimp only
    rw [withBuffer_eq]
    exact ⟨rfl, rfl⟩
  | pending =>
    refine ⟨hbuffer, rfl, ?_⟩
    dsimp only
    rw [withBuffer_eq]
    exact ⟨rfl, rfl⟩

/-- A search changes nothing that is shared. -/
theorem Alike.search (h : w.Alike v) (query : Embedding) (limit : Nat) (least : Option Single) :
    (w.search query limit least).1.Alike v
      ∧ (w.search query limit least).1.stopping = w.stopping
      ∧ (w.search query limit least).1.dedup = w.dedup := by
  unfold World.search
  split
  · exact ⟨⟨h.dedup, h.buffer, h.clock⟩, rfl, rfl⟩
  · exact ⟨h, rfl, rfl⟩

/-- Anything may be the answer from outside. -/
theorem exists_outside (q : Call) (reply : Option (Attempt q.Reply)) :
    ∃ outside : Outside, outside q = reply := by
  classical
  exact ⟨fun o => if h : o = q then h ▸ reply else none, dif_pos rfl⟩

/-- What came of a call in a rehearsal, for an incident. -/
structure Comes (w : World) (v : World) (t : TaskId) (again : Bool) (q : Call)
    (after : World × Progress q.Reply) (outside : Outside) : Prop where
  /-- The same has happened to the shared things. -/
  alike : after.1.Alike (v.serve t again outside q).1
  /-- The answer is the same. -/
  reply : (v.serve t again outside q).2 = after.2.reply?
  /-- The token is as it was. -/
  stopping : after.1.stopping = w.stopping
  /-- The markers are still in memory. -/
  inMemory : ∃ m, after.1.dedup = .inMemory m

section Comes

variable {m : Markers} (h : w.Alike v) (hw : w.dedup = .inMemory m) (t : TaskId)

include hw

/-- A call to the outside: there is an answer from there that comes to the
same. -/
theorem comes_of_isOutside (again : Bool) (q : Call) (hq : q.IsOutside)
    {after : World × Progress q.Reply} (halike : after.1.Alike v)
    (hstopping : after.1.stopping = w.stopping) (hdedup : after.1.dedup = w.dedup) :
    ∃ outside, Comes w v t again q after outside := by
  obtain ⟨outside, hreply⟩ := exists_outside q after.2.reply?
  refine ⟨outside, ?_, ?_, hstopping, m, hdedup.trans hw⟩
  · rw [v.serve_of_isOutside t outside again hq]
    exact halike
  · rw [v.serve_of_isOutside t outside again hq]
    exact hreply

include h

/-- A resolution that is sent. -/
theorem comes_sent (again : Bool) (r : Resolution) (after : Buffer Resolution × WriteState)
    (hserve : ∀ outside, v.serve t again outside (.send r) = tried (v.sent after)) :
    ∃ outside, Comes w v t again (.send r) (w.sent after) outside := by
  obtain ⟨halike, hreply, hstopping, hdedup⟩ := h.sent after
  refine ⟨fun _ => none, ?_, ?_, hstopping, m, hdedup.trans hw⟩
  · rw [hserve]
    exact halike
  · rw [hserve]
    exact hreply

/-- **Trying a call** of an incident in a rehearsal is serving it. -/
theorem comes_attempt {p : Pipeline} {i : Incident} {c : Course} (hc : p.Passage i c) {q : Call}
    (hq : q ∈ c.begun) : ∃ outside, Comes w v t false q (w.attempt t q) outside := by
  rcases hc.mem hq with rfl | hlookup | ⟨goal, rfl⟩ | ⟨d, rfl⟩
  · refine ⟨fun _ => none, ?_⟩
    have hserve : v.serve t false (fun _ => none) (p.gateCall i) = _ :=
      v.serve_setIfAbsent t _ (h.dedup.trans hw) _ _ _
    have hattempt : w.attempt t (p.gateCall i) = _ := setIfAbsent_inMemory hw _ _ _
    rw [hattempt]
    refine ⟨?_, ?_, rfl, _, rfl⟩
    · rw [hserve, h.clock]
      exact ⟨rfl, h.buffer, rfl⟩
    · rw [hserve, h.clock]
      rfl
  · cases q with
    | embed text =>
      exact comes_of_isOutside hw t false (.embed text) trivial ⟨h.dedup, h.buffer, h.clock⟩ rfl rfl
    | search query limit least =>
      obtain ⟨halike, hstopping, hdedup⟩ := h.search query limit least
      exact comes_of_isOutside hw t false (.search query limit least) trivial halike hstopping
        hdedup
    | _ => exact hlookup.elim
  · exact comes_of_isOutside hw t false (.resolve i goal) trivial ⟨h.dedup, h.buffer, h.clock⟩ rfl
      rfl
  · refine comes_sent h hw t false (p.resolution i d) _ fun outside => ?_
    show tried (v.sent (v.buffer.startWrite _ _)) = _
    rw [h.buffer]

/-- **Trying a call again** is serving it again. -/
theorem comes_retry {p : Pipeline} {i : Incident} {c : Course} (hc : p.Passage i c) {q : Call}
    (hq : q ∈ c.begun) : ∃ outside, Comes w v t true q (w.retry t q) outside := by
  rcases hc.mem hq with rfl | hlookup | ⟨goal, rfl⟩ | ⟨d, rfl⟩
  · exact ⟨fun _ => none, h, rfl, rfl, m, hw⟩
  · cases q with
    | embed text => exact comes_of_isOutside hw t true (.embed text) trivial h rfl rfl
    | search query limit least =>
      exact comes_of_isOutside hw t true (.search query limit least) trivial h rfl rfl
    | _ => exact hlookup.elim
  · exact comes_of_isOutside hw t true (.resolve i goal) trivial h rfl rfl
  · refine comes_sent h hw t true (p.resolution i d) _ fun outside => ?_
    show tried (v.sent (v.buffer.resumeWrite _ _)) = _
    rw [h.buffer]

end Comes

end Simulation.World

/-! ## Turns -/

namespace Handling

variable {p : Pipeline} {w v : World} {h : Handling}

/-- That the next steps of an incident come to what a turn of a rehearsal comes
to. -/
def Follows (t : TaskId) (v : World) (h : Handling) (after : World × Turn (Outcome Handled)) :
    Prop :=
  ∃ v' h', Reaches t v h v' h' ∧ after.1.Alike v' ∧ h'.IsAfter after.2

/-- A step, and then what follows it. -/
theorem Follows.step {t : TaskId} {after : World × Turn (Outcome Handled)} (outside : Outside)
    (hf : Follows t (h.go v t outside).1 (h.go v t outside).2 after) : Follows t v h after := by
  obtain ⟨v', h', hreaches, halike, hafter⟩ := hf
  exact ⟨v', h', .step outside hreaches, halike, hafter⟩

/-- That the next step is to make a call, for the first time or again. -/
def Asks (h : Handling) (c : Course) (q : Call)
    (next : Attempt q.Reply → Routine (Outcome Handled)) : Prop :=
  ∀ w t outside, h.go w t outside = ((w.serve t h.waiting outside q).1,
    h.hear c q next (w.serve t h.waiting outside q).2)

section Asks

variable {c : Course} {q : Call} {next : Attempt q.Reply → Routine (Outcome Handled)}

theorem asks_call (hr : h.routine = .call q next)
    (hc : c = if h.waiting then h.course else h.course.asked q) : h.Asks c q next := by
  intro w t outside
  unfold go ask
  rw [hr, hc]

theorem asks_watch {stopped : Routine (Outcome Handled)} (hr : h.routine = .watch q next stopped)
    (hc : c = if h.waiting then h.course else h.course.asked q)
    (hlate : (h.waiting && h.fired) = false) : h.Asks c q next := by
  intro w t outside
  unfold go ask
  rw [hr, hc]
  dsimp only
  rw [hlate, if_neg Bool.false_ne_true]

variable {t : TaskId} {w' : World} {outside : Outside}

/-- The call is answered, and something follows. -/
theorem Asks.answered (ha : h.Asks c q next) {reply : Attempt q.Reply}
    {after : World × Turn (Outcome Handled)}
    (hcomes : World.Comes w v t h.waiting q (w', .ended reply) outside)
    (hf : Follows t (v.serve t h.waiting outside q).1 (h.hear c q next (some reply)) after) :
    Follows t v h after := by
  refine .step outside ?_
  rw [ha v t outside, hcomes.reply]
  exact hf

/-- The call is not answered. -/
theorem Asks.unanswered (ha : h.Asks c q next) {progress : Progress q.Reply}
    (hcomes : World.Comes w v t h.waiting q (w', progress) outside)
    (hprogress : progress.reply? = none) {w'' : World}
    (halike : w''.Alike (v.serve t h.waiting outside q).1) :
    Follows t v h (w'', .waits h.routine) := by
  refine .step outside ⟨_, _, .refl _ _, ?_, ?_⟩
  · rw [ha v t outside]
    exact halike
  · rw [ha v t outside, hcomes.reply]
    show (h.hear c q next progress.reply?).IsAfter _
    rw [hprogress]
    exact ⟨rfl, rfl⟩

end Asks

/-- **A turn in which an incident need not wait first**, in steps. -/
theorem follows_advance (t : TaskId) {r : Routine (Outcome Handled)} (hr : h.routine = r)
    (hwaiting : h.waiting = false) (hleft : h.IsLeft p r h.course) (halike : w.Alike v)
    (hmarkers : ∃ m, w.dedup = .inMemory m) (hfired : w.stopping = h.fired)
    (hearly : h.early = true → h.fired = true) : Follows t v h (w.advance t r) := by
  have hcourse : ∀ {q}, h.course.asked q = if h.waiting then h.course else h.course.asked q := by
    intro q
    rw [hwaiting, if_neg Bool.false_ne_true]
  -- by induction on the routine, one step for every node that the turn goes through
  induction r generalizing w v h with
  | done o => exact ⟨v, h, .refl v h, halike, hr⟩
  | brokenOff text => exact ⟨v, h, .refl v h, halike, hr⟩
  | act a next ih =>
    obtain ⟨-, hquiet, hnext⟩ := hleft
    obtain ⟨hact, hresult, hstopping⟩ := halike.act hquiet
    have hgo : h.go v t (fun _ => none) = (({ v with stopping := h.fired }.act a).1,
        { h with routine := next ({ v with stopping := h.fired }.act a).2 }) := by
      unfold go
      rw [hr]
    rw [hfired] at hact hresult
    refine .step (fun _ => none) ?_
    rw [hgo, ← hresult]
    have hdedup := (w.act_quiet hquiet).1
    exact ih _ rfl hwaiting (hnext _ (w.act_credible (fun he => hfired.trans (hearly he)) a)) hact
      (hmarkers.imp fun m hm => hdedup.trans hm) (hstopping.trans hfired) hearly hcourse
  | call q next ih =>
    obtain ⟨-, hunsent, hnext⟩ := hleft
    obtain ⟨m, hm⟩ := hmarkers
    have hasks := asks_call hr hcourse
    obtain ⟨outside, hcomes⟩ := World.comes_attempt halike hm t hunsent.passage
      (List.mem_append_right _ List.mem_cons_self)
    rw [← hwaiting] at hcomes
    rw [World.advance]
    rcases hattempt : w.attempt t q with ⟨w', reply | _ | _⟩ <;> rw [hattempt] at hcomes
    · exact hasks.answered hcomes (ih reply rfl rfl (hnext reply) hcomes.alike hcomes.inMemory
        (hcomes.stopping.trans hfired) hearly rfl)
    · rw [← hr]
      exact hasks.unanswered hcomes rfl hcomes.alike
    · rw [← hr]
      exact hasks.unanswered hcomes rfl hcomes.alike.fires
  | watch q next stopped ih ihs =>
    obtain ⟨-, hunsent, hnext, -⟩ := hleft
    obtain ⟨m, hm⟩ := hmarkers
    have hasks := asks_watch hr hcourse (by rw [hwaiting]; rfl)
    obtain ⟨outside, hcomes⟩ := World.comes_attempt halike hm t hunsent.passage
      (List.mem_append_right _ List.mem_cons_self)
    rw [← hwaiting] at hcomes
    rw [World.advance]
    rcases hattempt : w.attempt t q with ⟨w', reply | _ | _⟩ <;> rw [hattempt] at hcomes
    · exact hasks.answered hcomes (ih reply rfl rfl (hnext reply) hcomes.alike hcomes.inMemory
        (hcomes.stopping.trans hfired) hearly rfl)
    · rw [← hr]
      exact hasks.unanswered hcomes rfl hcomes.alike.watches
    · rw [← hr]
      exact hasks.unanswered hcomes rfl hcomes.alike.watches.fires

/-- **A turn in which an incident has waited**, in steps. -/
theorem follows_resume (t : TaskId) (hwaiting : h.waiting = true)
    (hleft : h.IsLeftWaiting p h.routine h.course) (halike : w.Alike v)
    (hmarkers : ∃ m, w.dedup = .inMemory m) (hfired : w.stopping = h.fired)
    (hearly : h.early = true → h.fired = true) : Follows t v h (w.resume t h.routine) := by
  obtain ⟨m, hm⟩ := hmarkers
  cases hr : h.routine with
  | call q next =>
    rw [hr] at hleft
    obtain ⟨hq, hunsent, hnext⟩ := hleft
    have hasks : h.Asks h.course q next := asks_call hr (if_pos hwaiting).symm
    obtain ⟨outside, hcomes⟩ := World.comes_retry halike hm t hunsent.passage hq
    rw [← hwaiting] at hcomes
    rw [World.resume]
    rcases hretry : w.retry t q with ⟨w', reply | _ | _⟩ <;> rw [hretry] at hcomes
    · exact hasks.answered hcomes (follows_advance t rfl rfl (hnext reply) hcomes.alike
        hcomes.inMemory (hcomes.stopping.trans hfired) hearly)
    · rw [← hr]
      exact hasks.unanswered hcomes rfl hcomes.alike
    · rw [← hr]
      exact hasks.unanswered hcomes rfl hcomes.alike
  | watch q next stopped =>
    rw [hr] at hleft
    obtain ⟨hq, hunsent, hnext, hstopped⟩ := hleft
    have halike' : (w.unwatch t).Alike v := ⟨halike.dedup, halike.buffer, halike.clock⟩
    have hm' : (w.unwatch t).dedup = .inMemory m := hm
    have hfired' : (w.unwatch t).stopping = h.fired := hfired
    rw [World.resume]
    by_cases hstop : (w.unwatch t).stopping = true
    · rw [if_pos hstop]
      obtain ⟨hgaveUp, hstopping⟩ := halike'.giveUp t q
      have hgo : h.go v t (fun _ => none)
          = (v.giveUp t q, { h with routine := stopped, waiting := false }) := by
        unfold go
        rw [hr]
        dsimp only
        rw [hwaiting, ← hfired', hstop]
        rfl
      refine .step (fun _ => none) ?_
      rw [hgo]
      exact follows_advance t rfl rfl hstopped hgaveUp
        ⟨m, ((w.unwatch t).giveUp_shared t q).1.trans hm'⟩ (hstopping.trans hfired') hearly
    · rw [if_neg hstop]
      have hnot : h.fired = false := hfired'.symm.trans (eq_false_of_ne_true hstop)
      have hasks : h.Asks h.course q next :=
        asks_watch hr (if_pos hwaiting).symm (by rw [hnot, Bool.and_false])
      obtain ⟨outside, hcomes⟩ := World.comes_retry halike' hm' t hunsent.passage hq
      rw [← hwaiting] at hcomes
      rcases hretry : (w.unwatch t).retry t q with ⟨w', reply | _ | _⟩ <;> rw [hretry] at hcomes
      · exact hasks.answered hcomes (follows_advance t rfl rfl (hnext reply) hcomes.alike
          hcomes.inMemory (hcomes.stopping.trans hfired') hearly)
      · rw [← hr]
        exact hasks.unanswered hcomes rfl hcomes.alike.watches
      · rw [← hr]
        exact hasks.unanswered hcomes rfl hcomes.alike.watches
  | _ =>
    rw [hr] at hleft
    exact hleft.elim

/-- **A turn of a rehearsal is made of steps**, for an incident whose token is
that of the world. -/
theorem follows_turn (t : TaskId) (hahead : h.Ahead p) (hearly : h.early = true → h.fired = true)
    (halike : w.Alike v) (hmarkers : ∃ m, w.dedup = .inMemory m)
    (hfired : w.stopping = h.fired) :
    Follows t v h (if h.waiting then w.resume t h.routine else w.advance t h.routine) := by
  unfold Ahead at hahead
  by_cases hwaiting : h.waiting = true
  · rw [if_pos hwaiting] at hahead ⊢
    exact follows_resume t hwaiting hahead halike hmarkers hfired hearly
  · rw [if_neg hwaiting] at hahead ⊢
    exact follows_advance t rfl (eq_false_of_ne_true hwaiting) hahead halike hmarkers hfired hearly

end Handling

end IncidentMemory
