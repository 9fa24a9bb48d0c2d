import IncidentMemory.Simulation.Tasks

/-!
# Routines as a monad, and a routine on its own

Routines compose as programs do: they are a lawful monad, so a `do` block may
be read line by line. `World.carryOut` lets one routine alone go on in a world
and says what it comes to – a result, a break-off, or nothing if it waits. It
is `World.advance` without the rest of a routine that waits, and it goes
through a composition one part after the other (`World.carryOut_bind`).
-/

namespace IncidentMemory

namespace Routine

variable {α β γ : Type}

/-- Ending with the result changes nothing. -/
theorem bind_done (r : Routine α) : r.bind .done = r := by
  induction r with
  | done a => rfl
  | brokenOff text => rfl
  | act a next ih => exact congrArg (Routine.act a) (funext ih)
  | call c next ih => exact congrArg (Routine.call c) (funext ih)
  | watch c next stopped ih ihs =>
    rw [Routine.bind, ihs]
    exact congrArg (Routine.watch c · stopped) (funext ih)

theorem bind_bind (r : Routine α) (f : α → Routine β) (g : β → Routine γ) :
    (r.bind f).bind g = r.bind fun a => (f a).bind g := by
  induction r with
  | done a => rfl
  | brokenOff text => rfl
  | act a next ih => exact congrArg (Routine.act a) (funext ih)
  | call c next ih => exact congrArg (Routine.call c) (funext ih)
  | watch c next stopped ih ihs =>
    rw [Routine.bind, Routine.bind, Routine.bind, ihs]
    exact congrArg (Routine.watch c · _) (funext ih)

instance : LawfulMonad Routine :=
  LawfulMonad.mk' Routine bind_done (fun _ _ => rfl) bind_bind

/-- Composition in a `do` block is composition of routines. -/
theorem bind_eq (r : Routine α) (f : α → Routine β) : r >>= f = r.bind f :=
  rfl

end Routine

namespace Simulation

variable {α β : Type}

/-- What a turn came to, if it did not end in a wait. -/
def Turn.result? : Turn α → Option (Attempt α)
  | .ended result => some result
  | .waits _ => none

namespace World

/-- The world after events were reported. -/
def logged (w : World) (events : List Log.Event) : World :=
  { w with events := w.events ++ events }

@[simp] theorem logged_today (w : World) (events : List Log.Event) :
    (w.logged events).today = w.today :=
  rfl

/-- **What a routine comes to on its own**: the world afterwards, and how the
routine ended, if it has not had to wait. -/
def carryOut (w : World) (t : TaskId) (r : Routine α) : World × Option (Attempt α) :=
  ((w.advance t r).1, (w.advance t r).2.result?)

/-- What follows a routine: it goes on with its result, and does not begin if
the routine breaks off or waits. -/
def andThen (t : TaskId) (f : α → Routine β) :
    World × Option (Attempt α) → World × Option (Attempt β)
  | (w, some (.done a)) => w.carryOut t (f a)
  | (w, some (.brokenOff text)) => (w, some (.brokenOff text))
  | (w, none) => (w, none)

@[simp] theorem andThen_done (t : TaskId) (f : α → Routine β) (w : World) (a : α) :
    andThen t f (w, some (.done a)) = w.carryOut t (f a) :=
  rfl

/-- What a call comes to when it is tried for the first time. -/
def tried : World × Progress α → World × Option (Attempt α)
  | (w, .ended reply) => (w, some reply)
  | (w, .waits) => (w, none)
  | (w, .stops) => (w.fire, none)

theorem carryOut_call (w : World) (t : TaskId) (c : Call)
    (next : Attempt c.Reply → Routine α) :
    w.carryOut t (.call c next)
      = match tried (w.attempt t c) with
        | (w', some reply) => w'.carryOut t (next reply)
        | (w', none) => (w', none) := by
  unfold carryOut
  rw [advance]
  rcases w.attempt t c with ⟨w', reply | _ | _⟩ <;> rfl

/-- **A composition is carried out one part after the other.** -/
theorem carryOut_bind (w : World) (t : TaskId) (r : Routine α) (f : α → Routine β) :
    w.carryOut t (r >>= f) = andThen t f (w.carryOut t r) := by
  rw [Routine.bind_eq]
  induction r generalizing w with
  | done a => rfl
  | brokenOff text => rfl
  | act a next ih => exact ih _ _
  | call c next ih =>
    rw [Routine.bind]
    unfold carryOut
    rw [advance, advance]
    rcases w.attempt t c with ⟨w', reply | _ | _⟩
    · exact ih reply w'
    · rfl
    · rfl
  | watch c next stopped ih ihs =>
    rw [Routine.bind]
    unfold carryOut
    rw [advance, advance]
    rcases w.attempt t c with ⟨w', reply | _ | _⟩
    · exact ih reply w'
    · rfl
    · rfl

/-- What time it is, is what the world says. -/
@[simp] theorem carryOut_now (w : World) (t : TaskId) :
    w.carryOut t (Routine.perform .now) = (w, some (.done w.today)) :=
  rfl

/-- Reporting an event adds it to what was logged. -/
@[simp] theorem carryOut_report (w : World) (t : TaskId) (event : Log.Event) :
    w.carryOut t (Routine.report event) = (w.logged [event], some (.done ())) :=
  rfl

/-- A call on its own. -/
theorem carryOut_ask (w : World) (t : TaskId) (c : Call) :
    w.carryOut t (Routine.ask c) = tried (w.attempt t c) := by
  rw [Routine.ask, carryOut_call]
  rcases w.attempt t c with ⟨w', (reply | text) | _ | _⟩ <;> rfl

/-! ## Procedures -/

/-- A procedure goes on only without a failure. -/
theorem carryOut_run_bind (w : World) (t : TaskId) (p : Procedure α) (f : α → Procedure β) :
    w.carryOut t (p >>= f).run
      = andThen t (fun
          | .ok a => (f a).run
          | .error e => .done (.error e)) (w.carryOut t p.run) := by
  rw [ExceptT.run_bind, carryOut_bind]
  refine congrArg (andThen t · _) (funext fun o => ?_)
  cases o <;> rfl

/-- A routine in a procedure does not fail. -/
theorem carryOut_run_lift_bind (w : World) (t : TaskId) (r : Routine α) (f : α → Procedure β) :
    w.carryOut t ((liftM r : Procedure α) >>= f).run
      = andThen t (fun a => (f a).run) (w.carryOut t r) := by
  show w.carryOut t (ExceptT.run (ExceptT.lift r >>= f)) = _
  rw [ExceptT.run_bind_lift, carryOut_bind]

/-- The embedder is asked, and does what it does with the text. -/
theorem carryOut_embed (w : World) (t : TaskId) (text : String) :
    w.carryOut t (Procedure.embed text).run
      = tried (w.traced (.embed text), progress (w.embedder.behaviour text)) :=
  carryOut_ask w t (.embed text)

/-- **What comes of asking for an embedding of the right length**, by what the embedder replies. -/
theorem carryOut_embedAs {w : World} {text : String} {reply : Outcome Embedding}
    (hreply : w.embedder.behaviour text = .ofOutcome reply) (t : TaskId) (dims : Nat) :
    w.carryOut t (Procedure.embedAs dims text).run
      = (w.traced (.embed text), some (.done (do
          let e ← reply
          if e.length = dims then .ok e else .error (.dimensions dims e.length)))) := by
  unfold Procedure.embedAs
  rw [carryOut_run_bind, carryOut_embed, hreply]
  cases reply with
  | error f => rfl
  | ok e =>
    show carryOut _ t (ExceptT.run (if e.length = dims then _ else _))
      = (_, some (.done (if e.length = dims then _ else _)))
    by_cases hlen : e.length = dims
    · rw [if_pos hlen, if_pos hlen]
      rfl
    · rw [if_neg hlen, if_neg hlen]
      rfl

/-- A procedure together with its failure does not fail. -/
theorem carryOut_run_outcome_bind (w : World) (t : TaskId) (p : Procedure α)
    (f : Outcome α → Procedure β) :
    w.carryOut t (p.outcome >>= f).run = andThen t (fun o => (f o).run) (w.carryOut t p.run) :=
  carryOut_run_lift_bind w t p.run f

/-- Reporting events one after another adds them to what was logged. -/
theorem carryOut_run_report_bind (w : World) (t : TaskId) (events : List Log.Event)
    (p : Procedure α) :
    w.carryOut t ((events.forM fun e => (liftM (Routine.report e) : Procedure Unit)) >>=
        fun _ => p).run
      = (w.logged events).carryOut t p.run := by
  induction events generalizing w with
  | nil =>
    rw [List.forM_eq_forM, List.forM_nil, pure_bind, logged, List.append_nil]
  | cons e es ih =>
    rw [List.forM_eq_forM, List.forM_cons, bind_assoc, carryOut_run_lift_bind, carryOut_report,
      andThen_done, ← List.forM_eq_forM, ih, logged, logged, List.append_assoc]
    rfl

end World

end Simulation

end IncidentMemory
