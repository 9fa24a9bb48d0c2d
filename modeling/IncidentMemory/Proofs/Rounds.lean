import IncidentMemory.Proofs.Separation
import IncidentMemory.Proofs.Work

/-!
# A round of the worker on its own

In a round the worker is alone in a world, and resolutions are delivered to it: a
wait for an item ends with the next one at once, and with it come the embedder
and the time of day that the item meets. `Round.run` carries the worker's routine
out in this way, up to where a call never ends.

Over a store in memory a round is nothing but consolidations one after another, of
the items that the worker gets to (`Consolidator.reached`): up to and including
the first one that it abandons. What is in the store, which texts the embedder was
given and what was counted then is what `Consolidator.takeAll` leaves and says
(`Consolidator.run_work`).
-/

namespace IncidentMemory

open Simulation

/-! ## The interpreter -/

/-- **A round**: a world in which the worker is alone, and what is still to be
delivered. -/
structure Round where
  /-- The world. -/
  world : World
  /-- The deliveries ahead. -/
  ahead : List Delivery

namespace Round

variable {α β : Type}

/-- **Tries a call of the worker.** -/
def attempt (x : Round) : (q : Call) → Round × Progress q.Reply
  | .receive =>
    match x.ahead with
    | [] => (x, .ended (.done none))
    | d :: ds =>
      (⟨{ x.world with embedder := d.embedder, today := d.today }, ds⟩,
        .ended (.done (some d.resolution)))
  | q => (⟨(x.world.attempt (.background .worker) q).1, x.ahead⟩,
      (x.world.attempt (.background .worker) q).2)

/-- The token fires. -/
def fire (x : Round) : Round :=
  { x with world := x.world.fire }

/-- **Carries out a routine** until it ends or has to wait for what never comes. A
call that makes the token fire is given up if it is watched. -/
def run (x : Round) : Routine α → Round × Option (Attempt α)
  | .done a => (x, some (.done a))
  | .brokenOff text => (x, some (.brokenOff text))
  | .act a next => run { x with world := (x.world.act a).1 } (next (x.world.act a).2)
  | .call q next =>
    match x.attempt q with
    | (y, .ended reply) => y.run (next reply)
    | (y, .waits) => (y, none)
    | (y, .stops) => (y.fire, none)
  | .watch q next stopped =>
    match x.attempt q with
    | (y, .ended reply) => y.run (next reply)
    | (y, .waits) => (y, none)
    | (y, .stops) => y.fire.run stopped

/-- What follows a routine, if that has come to a result. -/
def andThen (f : α → Routine β) : Round × Option (Attempt α) → Round × Option (Attempt β)
  | (y, some (.done a)) => y.run (f a)
  | (y, some (.brokenOff text)) => (y, some (.brokenOff text))
  | (y, none) => (y, none)

/-- **A composition is carried out one part after the other.** -/
theorem run_bind (x : Round) (r : Routine α) (f : α → Routine β) :
    x.run (r >>= f) = andThen f (x.run r) := by
  rw [Routine.bind_eq]
  induction r generalizing x with
  | done a => rfl
  | brokenOff text => rfl
  | act a next ih => exact ih _ _
  | call q next ih =>
    rw [Routine.bind, run, run]
    rcases x.attempt q with ⟨y, reply | _ | _⟩
    · exact ih reply y
    · rfl
    · rfl
  | watch q next stopped ih ihs =>
    rw [Routine.bind, run, run]
    rcases x.attempt q with ⟨y, reply | _ | _⟩
    · exact ih reply y
    · rfl
    · exact ihs y.fire

/-- A watched routine is carried out if the token has not fired. -/
theorem run_watching {x : Round} (h : x.world.stopping = false) (r : Routine α) :
    x.run (Routine.watching r) = x.run r.guarded := by
  show x.run (if x.world.stopping = true then _ else _) = _
  rw [if_neg (by rw [h]; exact Bool.false_ne_true)]

/-- A call that is no wait for an item is tried in the world. -/
theorem attempt_of_ne {q : Call} (hq : q ≠ .receive) (x : Round) :
    x.attempt q = (⟨(x.world.attempt (.background .worker) q).1, x.ahead⟩,
      (x.world.attempt (.background .worker) q).2) := by
  cases q with
  | receive => exact absurd rfl hq
  | _ => rfl

end Round

/-! ## Routines that only ask -/

/-- An action that changes nothing but what was logged, and does not look at the
token. -/
def Action.IsNote : Action → Prop
  | .log _ | .now => True
  | _ => False

/-- A call of a vector store that a consolidation makes. -/
def Call.IsOfStore : Call → Prop
  | .search .. | .upsert _ => True
  | _ => False

/-- A call that a consolidation makes. -/
def Call.IsOfConsolidation : Call → Prop
  | .embed _ | .search .. | .upsert _ => True
  | _ => False

theorem Call.IsOfConsolidation.ne_receive {q : Call} (h : q.IsOfConsolidation) : q ≠ .receive := by
  rintro rfl
  exact h

namespace Routine

variable {α β : Type} {Q : Call → Prop}

/-- **A routine that makes calls of one kind** and besides only reports and reads the
time. It watches none of its calls. -/
def Consults (Q : Call → Prop) : Routine α → Prop
  | .done _ | .brokenOff _ => True
  | .act a next => a.IsNote ∧ ∀ res, (next res).Consults Q
  | .call q next => Q q ∧ ∀ reply, (next reply).Consults Q
  | .watch .. => False

variable {r : Routine α} {f : α → Routine β}

theorem Consults.bind (hr : r.Consults Q) (hf : ∀ a, (f a).Consults Q) : (r >>= f).Consults Q := by
  rw [bind_eq]
  induction r with
  | done a => exact hf a
  | brokenOff text => trivial
  | act a next ih => exact ⟨hr.1, fun res => ih res (hr.2 res)⟩
  | call q next ih => exact ⟨hr.1, fun reply => ih reply (hr.2 reply)⟩
  | watch q next stopped => exact hr.elim

theorem consults_report (event : Log.Event) : (report event).Consults Q :=
  ⟨trivial, fun _ => trivial⟩

theorem consults_ask {q : Call} (hq : Q q) : (ask q).Consults Q :=
  ⟨hq, fun reply => by cases reply <;> trivial⟩

theorem Consults.mono {Q' : Call → Prop} (hr : r.Consults Q) (h : ∀ q, Q q → Q' q) :
    r.Consults Q' := by
  induction r with
  | done a => trivial
  | brokenOff text => trivial
  | act a next ih => exact ⟨hr.1, fun res => ih res (hr.2 res)⟩
  | call q next ih => exact ⟨h q hr.1, fun reply => ih reply (hr.2 reply)⟩
  | watch q next stopped => exact hr.elim

/-- A composition of procedures. -/
theorem Consults.run_bind {p : Procedure α} {f : α → Procedure β} (hp : p.run.Consults Q)
    (hf : ∀ a, (f a).run.Consults Q) : (p >>= f).run.Consults Q := by
  rw [ExceptT.run_bind]
  refine hp.bind fun o => ?_
  cases o with
  | ok a => exact hf a
  | error e => trivial

/-- A routine in a procedure. -/
theorem Consults.run_lift_bind {f : α → Procedure β} (hr : r.Consults Q)
    (hf : ∀ a, (f a).run.Consults Q) : ((liftM r : Procedure α) >>= f).run.Consults Q := by
  show (ExceptT.run (ExceptT.lift r >>= f)).Consults Q
  rw [ExceptT.run_bind_lift]
  exact hr.bind hf

/-- Reports one after another. -/
theorem consults_reports_bind {p : Procedure α} (hp : p.run.Consults Q) (events : List Log.Event) :
    ((events.forM fun e => (liftM (report e) : Procedure Unit)) >>= fun _ => p).run.Consults Q := by
  induction events with
  | nil => exact hp
  | cons e es ih =>
    rw [List.forM_eq_forM, List.forM_cons, bind_assoc]
    exact (consults_report e).run_lift_bind fun _ => ih

/-- **What reports and calls keep** is kept by the routine. -/
theorem Consults.carryOut {I : World → Prop} {t : TaskId} (hr : r.Consults Q)
    (hlogged : ∀ w events, I w → I (w.logged events))
    (hcall : ∀ w q, Q q → I w → I (World.tried (w.attempt t q)).1) {w : World} (hw : I w) :
    I (w.carryOut t r).1 := by
  induction r generalizing w with
  | done a => exact hw
  | brokenOff text => exact hw
  | act a next ih =>
    obtain ⟨ha, hnext⟩ := hr
    cases a with
    | log event => exact ih () (hnext ()) (hlogged w [event] hw)
    | now => exact ih w.today (hnext w.today) hw
    | _ => exact ha.elim
  | call q next ih =>
    rw [World.carryOut_call]
    have hafter := hcall w q hr.1 hw
    generalize World.tried (w.attempt t q) = tried at hafter ⊢
    rcases tried with ⟨w', _ | reply⟩
    · exact hafter
    · exact ih reply (hr.2 reply) hafter
  | watch q next stopped => exact hr.elim

end Routine

namespace Round

variable {α : Type} {Q : Call → Prop}

/-- **A watched routine with its break-offs caught** does to the world what it does
unwatched. If it has come to an end that is its result, and otherwise it was given
up or waits. -/
theorem run_caught_guarded {r : Routine α} (hr : r.Consults Q) (hQ : ∀ q, Q q → q ≠ .receive)
    (x : Round) :
    (x.run r.caught.guarded).1 = ⟨(x.world.carryOut (.background .worker) r).1, x.ahead⟩
      ∧ match (x.world.carryOut (.background .worker) r).2 with
        | some o => (x.run r.caught.guarded).2 = some (.done (some o))
        | none => (x.run r.caught.guarded).2 = none
          ∨ (x.run r.caught.guarded).2 = some (.done none) := by
  induction r generalizing x with
  | done a => exact ⟨rfl, rfl⟩
  | brokenOff text => exact ⟨rfl, rfl⟩
  | act a next ih => exact ih _ (hr.2 _) { x with world := (x.world.act a).1 }
  | call q next ih =>
    rw [World.carryOut_call, Routine.caught, Routine.guarded, run,
      attempt_of_ne (hQ q hr.1)]
    rcases x.world.attempt (.background .worker) q with ⟨w', reply | _ | _⟩
    · exact ih reply (hr.2 reply) ⟨w', x.ahead⟩
    · exact ⟨rfl, Or.inl rfl⟩
    · exact ⟨rfl, Or.inr rfl⟩
  | watch q next stopped => exact hr.elim

end Round

/-! ## One item -/

/-- The calls that can be seen of a consolidation over a store in memory. -/
def Resolution.asked (r : Resolution) : List Call :=
  if r.hasLog then [.embed r.rawLog] else []

/-- **The counters when an item was received** and its consolidation has ended, or
was given up. -/
def Counters.settle (k : Counters) (x : Upshot) : Counters :=
  match x.counter? with
  | some counter => (k.add .received).add counter
  | none => k.add .received

theorem Counters.settle_of_counted (k : Counters) {x : Upshot} {counter : Counter}
    (h : x.counter? = some counter) : k.settle x = (k.add .received).add counter := by
  unfold settle
  rw [h]

theorem Counters.settle_of_abandoned (k : Counters) {x : Upshot} (h : x.isAbandoned = true) :
    k.settle x = k.add .received := by
  unfold settle
  rw [x.counter?_eq_none_iff.mpr h]

/-- What a consolidation keeps of a world, apart from the store: what was counted and
asked, and whether the token has fired. -/
structure Simulation.World.Keeps (w₀ w : World) : Prop where
  /-- The store is one in memory. -/
  store : ∃ s, w.store = .inMemory s
  /-- What was counted. -/
  counters : w.counters = w₀.counters
  /-- What stand-ins were asked. -/
  trace : w.trace = w₀.trace
  /-- Whether the token has fired. -/
  stopping : w.stopping = w₀.stopping

namespace Consolidator

open Routine

theorem consults_searchOn (c : Consolidator) (r : Resolution) (e : Embedding) :
    (c.searchOn r e).run.Consults Call.IsOfStore := by
  unfold searchOn
  refine (consults_ask trivial).run_bind fun hits => ?_
  refine consults_reports_bind ?_ _
  split
  · trivial
  · refine Consults.run_lift_bind ⟨trivial, fun _ => trivial⟩ fun now => ?_
    refine (consults_ask trivial).run_bind fun _ => ?_
    exact (consults_report _).run_lift_bind fun _ => trivial

theorem consults_consolidate (c : Consolidator) (r : Resolution) :
    (c.consolidate r).run.Consults Call.IsOfConsolidation := by
  unfold consolidate Procedure.embedAs
  split
  · exact (consults_report _).run_lift_bind fun _ => trivial
  · refine Consults.run_bind ?_ fun e => ?_
    · refine (consults_ask trivial).run_bind fun e => ?_
      split <;> trivial
    · exact (c.consults_searchOn r e).mono fun q hq => by cases q <;> trivial

variable {w : World} {s : Collections}

/-- Calls of a store in memory keep everything but the store. -/
theorem keeps_tried {w₀ : World} {t : TaskId} (hw : w₀.Keeps w) {q : Call} (hq : q.IsOfStore) :
    w₀.Keeps (World.tried (w.attempt t q)).1 := by
  obtain ⟨⟨s, hs⟩, hcounters, htrace, hstopping⟩ := hw
  cases q with
  | search query limit least =>
    show w₀.Keeps (World.tried (w.search query limit least)).1
    unfold World.search
    rw [hs]
    exact ⟨⟨s, hs⟩, hcounters, htrace, hstopping⟩
  | upsert points =>
    show w₀.Keeps (World.tried (w.upsert points)).1
    unfold World.upsert
    rw [hs]
    dsimp only
    cases s.upsert points with
    | error f => exact ⟨⟨s, hs⟩, hcounters, htrace, hstopping⟩
    | ok s' => exact ⟨⟨s', rfl⟩, hcounters, htrace, hstopping⟩
  | _ => exact hq.elim

/-- What a consolidation makes of a world besides its store, if it asks for what is
given, and its result: if there is one, nothing has made the token fire. -/
structure Besides {α : Type} (w : World) (asked : List Call) (y : World × Option (Attempt α)) :
    Prop where
  /-- What was counted. -/
  counters : y.1.counters = w.counters
  /-- What stand-ins were asked. -/
  trace : y.1.trace = w.trace ++ asked
  /-- Whether the token has fired. -/
  stopping : y.2 ≠ none → y.1.stopping = w.stopping

/-- **Besides what it does to the store** a consolidation asks the embedder, unless
the log is blank. -/
theorem carryOut_consolidate_besides (c : Consolidator) (r : Resolution)
    (hs : w.store = .inMemory s) (t : TaskId) :
    Besides w r.asked (w.carryOut t (c.consolidate r).run) := by
  unfold consolidate Resolution.asked
  by_cases hlog : r.hasLog = true
  · have hnot : ¬ (!r.hasLog) = true := by simp [hlog]
    rw [if_neg hnot, if_pos hlog]
    show Besides w _ (w.carryOut t
      ((Procedure.embedAs c.settings.dims r.rawLog >>= c.searchOn r).run))
    unfold Procedure.embedAs
    rw [bind_assoc, World.carryOut_run_bind, World.carryOut_embed]
    cases w.embedder.behaviour r.rawLog with
    | answers e =>
      show Besides w _ (World.carryOut _ t (ExceptT.run ((if _ then pure e else _) >>= _)))
      by_cases hlen : e.length = c.settings.dims
      · rw [if_pos hlen, pure_bind]
        have hstart : (w.traced (.embed r.rawLog)).Keeps (w.traced (.embed r.rawLog)) :=
          ⟨⟨s, hs⟩, rfl, rfl, rfl⟩
        have hkeeps := (c.consults_searchOn r e).carryOut (t := t)
          (I := (w.traced (.embed r.rawLog)).Keeps)
          (fun _ _ h => ⟨h.store, h.counters, h.trace, h.stopping⟩)
          (fun _ _ hq h => keeps_tried h hq) hstart
        exact ⟨hkeeps.counters, hkeeps.trace, fun _ => hkeeps.stopping⟩
      · rw [if_neg hlen]
        exact ⟨rfl, rfl, fun _ => rfl⟩
    | fails f => exact ⟨rfl, rfl, fun _ => rfl⟩
    | breaksOff text => exact ⟨rfl, rfl, fun _ => rfl⟩
    | hangs => exact ⟨rfl, rfl, fun _ => rfl⟩
    | cancels => exact ⟨World.fire_counters _, World.fire_trace _, fun h => absurd rfl h⟩
  · have hnot : (!r.hasLog) = true := by simpa using hlog
    rw [if_pos hnot, if_neg hlog,
      World.carryOut_run_lift_bind, World.carryOut_report]
    exact ⟨rfl, (List.append_nil _).symm, fun _ => rfl⟩

/-- **What the worker makes of an item**: of the store what a consolidation makes of
it, and the counters tell how that ended. The worker goes on unless the item was
abandoned. -/
structure Handled (x : Round) (r : Resolution) (after : Collections × Upshot)
    (y : Round × Option (Attempt Bool)) : Prop where
  /-- Nothing more is delivered. -/
  ahead : y.1.ahead = x.ahead
  /-- The store is as the consolidation leaves it. -/
  store : y.1.world.store = .inMemory after.1
  /-- What the embedder was asked. -/
  trace : y.1.world.trace = x.world.trace ++ r.asked
  /-- What was counted. -/
  counters : y.1.world.counters = x.world.counters.settle after.2
  /-- An abandoned item is the last. -/
  ends : after.2.isAbandoned = true → y.2 ≠ some (.done true)
  /-- After any other the worker goes on. -/
  goesOn : after.2.isAbandoned = false → y.2 = some (.done true) ∧ y.1.world.stopping = false

section

variable {x : Round} {r : Resolution} {after : Collections × Upshot}
  {y : Round × Option (Attempt Bool)}

/-- The worker ends with an item that it abandons, which counts as received only. -/
theorem Handled.of_abandoned (hahead : y.1.ahead = x.ahead)
    (hstore : y.1.world.store = .inMemory after.1)
    (htrace : y.1.world.trace = x.world.trace ++ r.asked)
    (hcounters : y.1.world.counters = x.world.counters.add .received)
    (habandoned : after.2.isAbandoned = true) (hends : y.2 ≠ some (.done true)) :
    Handled x r after y where
  ahead := hahead
  store := hstore
  trace := htrace
  counters := hcounters.trans (Counters.settle_of_abandoned _ habandoned).symm
  ends _ := hends
  goesOn h := absurd (habandoned.symm.trans h) Bool.true_eq_false.mp

/-- The worker goes on after an item that it has counted. -/
theorem Handled.of_counted (hahead : y.1.ahead = x.ahead)
    (hstore : y.1.world.store = .inMemory after.1)
    (htrace : y.1.world.trace = x.world.trace ++ r.asked) {counter : Counter}
    (hcounters : y.1.world.counters = (x.world.counters.add .received).add counter)
    (hcounted : after.2.counter? = some counter) (hstopping : y.1.world.stopping = false)
    (hgoesOn : y.2 = some (.done true)) : Handled x r after y where
  ahead := hahead
  store := hstore
  trace := htrace
  counters := hcounters.trans (Counters.settle_of_counted _ hcounted).symm
  ends h := absurd (hcounted.symm.trans ((Upshot.counter?_eq_none_iff _).mpr h))
    (Option.some_ne_none _)
  goesOn _ := ⟨hgoesOn, hstopping⟩

end

/-- **An item in a round**: the worker makes of it what a consolidation makes of the
store, counts how that ended, and goes on unless the item was abandoned. -/
theorem run_handle (c : Consolidator) (r : Resolution) {x : Round}
    (hs : x.world.store = .inMemory s) (hstopping : x.world.stopping = false) :
    Handled x r (c.effect s r x.world.today (x.world.embedder.behaviour r.rawLog))
      (x.run (c.handle r)) := by
  let w : World := { x.world with counters := x.world.counters.add .received }
  have hleaves := c.carryOut_consolidate (w := w) (t := .background .worker) r hs
  have hbesides := c.carryOut_consolidate_besides (w := w) r hs (.background .worker)
  have hguarded := Round.run_caught_guarded (c.consults_consolidate r)
    (fun _ hq => hq.ne_receive) ⟨w, x.ahead⟩
  have hwatching := Round.run_watching (x := ⟨w, x.ahead⟩) hstopping (c.consolidate r).run.caught
  show Handled x r _ (Round.run ⟨w, x.ahead⟩ (watching (c.consolidate r).run.caught >>= _))
  rw [Round.run_bind, hwatching]
  obtain ⟨hworld, hresult⟩ := hguarded
  obtain ⟨hstore, hended⟩ := hleaves
  obtain ⟨hcounters, htrace, hstop⟩ := hbesides
  rw [hended] at hresult hstop
  generalize (w.carryOut (.background .worker) (c.consolidate r).run).1 = w' at *
  generalize Round.run ⟨w, x.ahead⟩ (c.consolidate r).run.caught.guarded = y at *
  obtain ⟨y, ending⟩ := y
  obtain rfl : y = ⟨w', x.ahead⟩ := hworld
  generalize c.effect s r w.today (w.embedder.behaviour r.rawLog) = after at *
  obtain ⟨s', upshot⟩ := after
  have hcounts : ∀ counter, w'.counters.add counter
      = (x.world.counters.add .received).add counter :=
    fun counter => congrArg (·.add counter) hcounters
  -- one case for each way in which the worker goes on
  rcases upshot with _ | ((f | result) | text)
  · rcases hresult with rfl | rfl
    · exact .of_abandoned rfl hstore htrace hcounters rfl nofun
    · exact .of_abandoned rfl hstore htrace hcounters rfl nofun
  · obtain rfl := hresult
    show Handled x r _ (Round.run ⟨w', x.ahead⟩ (if _ then _ else _))
    cases hf : f.isCancellation with
    | true =>
      rw [if_pos rfl]
      exact .of_abandoned rfl hstore htrace hcounters hf nofun
    | false =>
      rw [if_neg Bool.false_ne_true]
      exact .of_counted rfl hstore htrace (hcounts .failed) (if_neg (by simp [hf]))
        ((hstop nofun).trans hstopping) rfl
  · obtain rfl := hresult
    exact .of_counted rfl hstore htrace (hcounts result.counter) rfl
      ((hstop nofun).trans hstopping) rfl
  · obtain rfl := hresult
    exact .of_counted rfl hstore htrace (hcounts .failed) rfl ((hstop nofun).trans hstopping) rfl

/-! ## All items -/

/-- **The items that the worker gets to**: up to and including the first one that it
abandons. -/
def reached (c : Consolidator) (w : World) : List Delivery → List Delivery
  | [] => []
  | d :: ds => d :: if Upshot.isAbandoned (c.take w d).2 then [] else c.reached (c.take w d).1 ds

theorem reached_singleton (c : Consolidator) (w : World) (d : Delivery) :
    c.reached w [d] = [d] := by
  rw [reached, reached, ite_self]

/-- What has been made of a store, of what was asked and of what was counted is what
consolidations of items leave and say. -/
structure Worked (c : Consolidator) (w : World) (ds : List Delivery) (k : Counters) (w' : World) :
    Prop where
  /-- What is in the store. -/
  store : w'.store = (c.takeAll w ds).1.store
  /-- What the embedder was asked. -/
  trace : w'.trace = (c.takeAll w ds).1.trace
  /-- What was counted. -/
  counters : w'.counters = (c.takeAll w ds).2.foldl Counters.settle k

theorem takeAll_cons (c : Consolidator) (w : World) (d : Delivery) (ds : List Delivery) :
    c.takeAll w (d :: ds)
      = ((c.takeAll (c.take w d).1 ds).1, (c.take w d).2 :: (c.takeAll (c.take w d).1 ds).2) :=
  rfl

theorem length_takeAll (c : Consolidator) (w : World) (ds : List Delivery) :
    (c.takeAll w ds).2.length = ds.length := by
  induction ds generalizing w with
  | nil => rfl
  | cons d ds ih => rw [takeAll_cons, List.length_cons, List.length_cons, ih]

/-- **The worker gets to all items** if it abandons none of those it gets to. -/
theorem reached_of_settled (c : Consolidator) {w : World} {ds : List Delivery}
    (h : ∀ x ∈ (c.takeAll w (c.reached w ds)).2, Upshot.isAbandoned x = false) :
    c.reached w ds = ds := by
  induction ds generalizing w with
  | nil => rfl
  | cons d ds ih =>
    rw [reached, takeAll_cons] at h
    have hfirst := h _ List.mem_cons_self
    rw [hfirst, if_neg Bool.false_ne_true] at h
    rw [reached, hfirst, if_neg Bool.false_ne_true,
      ih fun x hx => h x (List.mem_cons_of_mem _ hx)]

/-- A consolidation of a delivery, over a store in memory. -/
theorem take_spec (c : Consolidator) (hs : w.store = .inMemory s) (d : Delivery) :
    (c.take w d).1.store = .inMemory
        (c.effect s d.resolution d.today (d.embedder.behaviour d.resolution.rawLog)).1
      ∧ (c.take w d).2
        = (c.effect s d.resolution d.today (d.embedder.behaviour d.resolution.rawLog)).2
      ∧ (c.take w d).1.trace = w.trace ++ d.resolution.asked
      ∧ (c.take w d).1.counters = w.counters := by
  let w₁ : World := { w with embedder := d.embedder, today := d.today }
  obtain ⟨hstore, hended⟩ := c.carryOut_consolidate (w := w₁) (t := .background .worker)
    d.resolution hs
  have hbesides := c.carryOut_consolidate_besides (w := w₁) d.resolution hs (.background .worker)
  exact ⟨hstore, hended, hbesides.trace, hbesides.counters⟩

/-- The loop makes of its items what consolidations one after another make of those
that it gets to. -/
theorem run_drain (c : Consolidator) (most : Nat) {x : Round} {w : World}
    (hs : w.store = .inMemory s) (hx : x.world.store = .inMemory s)
    (htrace : x.world.trace = w.trace) (hstopping : x.world.stopping = false) :
    Worked c w (c.reached w (x.ahead.take most)) x.world.counters (x.run (c.drain most)).1.world := by
  induction most generalizing x w s with
  | zero => exact ⟨hx.trans hs.symm, htrace, rfl⟩
  | succ most ih =>
    rw [drain, Round.run_bind, Round.run_watching hstopping]
    obtain ⟨w₀, ahead⟩ := x
    cases ahead with
    | nil => exact ⟨hx.trans hs.symm, htrace, rfl⟩
    | cons d ds =>
      let y : Round := ⟨{ w₀ with embedder := d.embedder, today := d.today }, ds⟩
      show Worked c w _ _ (y.run (c.handle d.resolution >>= fun on =>
        if on = true then c.drain most else pure ())).1.world
      rw [Round.run_bind]
      have hhandled := c.run_handle d.resolution (x := y) hx hstopping
      obtain ⟨hstore, hended, hasked, -⟩ := c.take_spec hs d
      generalize y.run (c.handle d.resolution) = handled at *
      obtain ⟨z, ending⟩ := handled
      change Handled y d.resolution
        (c.effect s d.resolution d.today (d.embedder.behaviour d.resolution.rawLog)) _ at hhandled
      generalize c.effect s d.resolution d.today (d.embedder.behaviour d.resolution.rawLog) = after
        at *
      have htrace' : z.world.trace = (c.take w d).1.trace := by
        rw [hasked, ← htrace]
        exact hhandled.trace
      rw [List.take_succ_cons, reached, hended]
      cases habandoned : Upshot.isAbandoned after.2 with
      | true =>
        have hlast : (Round.andThen (fun on => if on = true then c.drain most else pure ())
            (z, ending)).1.world = z.world := by
          rcases ending with _ | ((_ | _) | text)
          · rfl
          · rfl
          · exact absurd rfl (hhandled.ends habandoned)
          · rfl
        rw [hlast]
        refine ⟨hhandled.store.trans hstore.symm, htrace', ?_⟩
        rw [hhandled.counters, if_pos rfl, takeAll_cons, hended]
        rfl
      | false =>
        obtain ⟨rfl, hgoes⟩ := hhandled.goesOn habandoned
        have hrest := ih hstore hhandled.store htrace' hgoes
        rw [hhandled.ahead, hhandled.counters] at hrest
        refine ⟨hrest.store, hrest.trace, hrest.counters.trans ?_⟩
        rw [if_neg Bool.false_ne_true, takeAll_cons, List.foldl_cons, hended]

/-- **A round of the worker** over a store in memory is consolidations one after
another, of the items that it gets to. -/
theorem run_work (c : Consolidator) (most : Nat) (hs : w.store = .inMemory s)
    (hstopping : w.stopping = false) (ds : List Delivery) :
    Worked c w (c.reached w (ds.take most)) w.counters (Round.run ⟨w, ds⟩ (c.work most)).1.world := by
  let started : List (String × Json) :=
    [("duplicate_threshold", .ofSingle c.settings.duplicateThreshold)]
  let x : Round := ⟨w.logged [workerEvent "Memory consolidator started" started], ds⟩
  have hdrain := c.run_drain most (x := x) hs hs rfl hstopping
  show Worked c w _ _ (x.run (c.drain most >>= fun _ =>
    report (workerEvent "Memory consolidator stopped") >>= fun _ => perform .dropReader)).1.world
  rw [Round.run_bind]
  generalize x.run (c.drain most) = drained at *
  obtain ⟨y, _ | (⟨⟨⟩⟩ | text)⟩ := drained
  · exact hdrain
  · -- what follows the loop are a report and the end of the reader
    let z := y.world.logged [workerEvent "Memory consolidator stopped"]
    show Worked c w _ _ z.closeBuffer
    rw [World.closeBuffer_eq]
    exact ⟨hdrain.store, hdrain.trace, hdrain.counters⟩
  · exact hdrain

end Consolidator

end IncidentMemory
