import IncidentMemory.Background
import IncidentMemory.Proofs.Stopped
import IncidentMemory.Proofs.World

/-!
# The background at run time

In a `Shift` the worker is at work. In a `Runtime` there are also those who start
it and stop it: an owner, who gives one command after another and waits until it
has returned, and a supervisor, who waits for the worker. All three go on by one
action or one call at a time, in any order, while others write or go away, and
the token may fire at any moment.

What was sent to the store takes effect at any moment (`Shift.Move.land`), also when
the worker does not wait for that any more. Where it is assumed that nothing takes
effect that late, the assumption is named (`Runtime.Timely`).

The actions of the owner and the supervisor are those of a rehearsal
(`Runtime.Mirrors.act`), in which tasks take longer turns. At the end of the module
are the commands and the supervisor step by step, since what is true of a runtime
depends on how far each of them is.
-/

namespace IncidentMemory

open Routine

namespace Background

/-- **What the owner of the background may ask for.** -/
inductive Command where
  /-- To start the worker. -/
  | start
  /-- To stop it, and wait until it has ended. -/
  | shutdown
  deriving DecidableEq

/-- What is done then. -/
def Command.procedure : Command → Procedure Unit
  | .start => Background.start
  | .shutdown => .ofRoutine Background.shutdown

end Background

/-- **The background at run time.** -/
structure Runtime where
  /-- The worker, and what it works with. -/
  shift : Shift
  /-- What is said about the worker. -/
  workerState : WorkerState := .idle
  /-- Whether the reader has not been taken. -/
  readerFree : Bool := true
  /-- Whether the supervisor was started and nobody has taken the right to wait for it. -/
  supervisorFree : Bool := false
  /-- The tasks that were started, in order. -/
  spawned : List BackgroundTask := []
  /-- What is left to do for the supervisor. -/
  supervision : Routine Unit := Background.supervise
  /-- The command that is carried out, and what is left of it. -/
  command : Option (Background.Command × Routine (Outcome Unit)) := none
  /-- The commands that have returned, in order, and what they came to. -/
  returned : List (Background.Command × Attempt (Outcome Unit)) := []

namespace Runtime

/-- What may happen next. -/
inductive Move where
  /-- The worker goes on, or something happens around it: others write or go away, the token fires
  from outside, or what was sent to the store takes effect. -/
  | worker (move : Shift.Move)
  /-- The supervisor goes on. -/
  | supervisor (results : (a : Action) → a.Result)
  /-- The owner gives a command. -/
  | give (command : Background.Command)
  /-- The command goes on. -/
  | owner (results : (a : Action) → a.Result)

/-- Whether a task has ended. -/
def hasEnded (s : Runtime) : BackgroundTask → Bool
  | .worker => s.shift.routine.isOver
  | .supervisor => s.supervision.isOver

/-- **Carries out an action** of the owner or the supervisor. Others may know the results of those
that are about neither of them. -/
def act (s : Runtime) (results : (a : Action) → a.Result) : (a : Action) → Runtime × a.Result
  | .isStopping => (s, s.shift.place.stopping)
  | .stop => ({ s with shift := s.shift.move .fire }, ())
  | .counters => (s, s.shift.place.counters)
  | .workerState => (s, s.workerState)
  | .setWorkerState state => ({ s with workerState := state }, ())
  | .takeReader => ({ s with readerFree := false }, s.readerFree)
  | .spawn task =>
    ({ s with
        spawned := s.spawned ++ [task]
        supervisorFree := s.supervisorFree || task = .supervisor }, ())
  | .takeSupervisor => ({ s with supervisorFree := false }, s.supervisorFree)
  | a => (s, results a)

/-- **Goes on by one action, or by waiting for a task.** There are no other calls to make. -/
def advance {α : Type} (s : Runtime) (results : (a : Action) → a.Result) :
    Routine α → Runtime × Routine α
  | .act a next => ((s.act results a).1, next (s.act results a).2)
  | .call (.join task) next =>
    (s, if s.hasEnded task then next (.done ()) else .call (.join task) next)
  | r => (s, r)

/-- The owner goes on with a command, or hears what it came to. -/
def goOn (s : Runtime) (results : (a : Action) → a.Result) (command : Background.Command)
    (rest : Routine (Outcome Unit)) : Runtime :=
  match rest with
  | .done o => { s with command := none, returned := s.returned ++ [(command, .done o)] }
  | .brokenOff text =>
    { s with command := none, returned := s.returned ++ [(command, .brokenOff text)] }
  | rest =>
    { (s.advance results rest).1 with command := some (command, (s.advance results rest).2) }

/-- Whether a move is possible: the worker does nothing before it was started. -/
def allows (s : Runtime) : Shift.Move → Bool
  | .go _ _ => .worker ∈ s.spawned
  | _ => true

/-- **Makes a move.** -/
def move (s : Runtime) : Move → Runtime
  | .worker m => if s.allows m then { s with shift := s.shift.move m } else s
  | .supervisor results =>
    if .supervisor ∈ s.spawned then
      { (s.advance results s.supervision).1 with
        supervision := (s.advance results s.supervision).2 }
    else s
  | .give command =>
    if s.command.isSome then s else { s with command := some (command, command.procedure.run) }
  | .owner results =>
    match s.command with
    | none => s
    | some (command, rest) => s.goOn results command rest

/-- **Makes moves one after another.** -/
def run (s : Runtime) : List Move → Runtime
  | [] => s
  | m :: ms => (s.move m).run ms

/-- **That the store takes effect in time**: if what was sent to it takes effect, it does so while
the worker waits for that, and not when it has given it up. -/
def Timely (s : Runtime) : List Move → Prop
  | [] => True
  | m :: ms => (m = .worker .land → s.shift.underWay.isSome = true) ∧ (s.move m).Timely ms

/-- A runtime in which nothing was started, over a buffer. -/
def idle (c : Consolidator) (most : Nat) (b : Buffer Resolution) : Runtime where
  shift := Shift.start c most b

/-! ## As in a rehearsal -/

/-- **That a rehearsal has come as far**: what actions of the owner and the supervisor look at is
the same in its world. -/
structure Mirrors (w : Simulation.World) (s : Runtime) : Prop where
  /-- Whether the token has fired. -/
  stopping : w.stopping = s.shift.place.stopping
  /-- What was counted. -/
  counters : w.counters = s.shift.place.counters
  /-- What is said about the worker. -/
  workerState : w.workerState = s.workerState
  /-- Whether the reader is free. -/
  readerFree : w.readerFree = s.readerFree
  /-- Whether the supervisor is. -/
  supervisorFree : w.supervisorFree = s.supervisorFree
  /-- Which tasks have ended. -/
  ended : ∀ task, task ∈ w.ended ↔ s.hasEnded task = true

variable {w : Simulation.World} {s : Runtime}

/-- **An action is that of a rehearsal**, with the same result. Only the worker counts and lets the
reader go. -/
theorem Mirrors.act (h : Mirrors w s) {a : Action} (hcount : ∀ counter, a ≠ .count counter)
    (hdrop : a ≠ .dropReader) :
    (s.act (fun a => (w.act a).2) a).2 = (w.act a).2
      ∧ Mirrors (w.act a).1 (s.act (fun a => (w.act a).2) a).1 := by
  obtain ⟨hstopping, hcounters, hstate, hreader, hsupervisor, hended⟩ := h
  cases a with
  | count counter => exact absurd rfl (hcount counter)
  | dropReader => exact absurd rfl hdrop
  | stop =>
    refine ⟨rfl, ?_⟩
    show Mirrors w.fire { s with shift := s.shift.move .fire }
    unfold Simulation.World.fire
    split
    · next hfired => exact ⟨hfired, hcounters, hstate, hreader, hsupervisor, hended⟩
    · rw [Simulation.World.wakeAll_eq]
      exact ⟨rfl, hcounters, hstate, hreader, hsupervisor, hended⟩
  | spawn task =>
    refine ⟨rfl, ?_⟩
    show Mirrors { w.wake (.background task) with
      supervisorFree := w.supervisorFree || task = .supervisor } _
    unfold Simulation.World.wake
    split <;> exact ⟨hstopping, hcounters, hstate, hreader, congrArg (· || _) hsupervisor, hended⟩
  | isStopping => exact ⟨hstopping.symm, hstopping, hcounters, hstate, hreader, hsupervisor, hended⟩
  | counters => exact ⟨hcounters.symm, hstopping, hcounters, hstate, hreader, hsupervisor, hended⟩
  | workerState => exact ⟨hstate.symm, hstopping, hcounters, hstate, hreader, hsupervisor, hended⟩
  | setWorkerState state => exact ⟨rfl, hstopping, hcounters, rfl, hreader, hsupervisor, hended⟩
  | takeReader => exact ⟨hreader.symm, hstopping, hcounters, hstate, rfl, hsupervisor, hended⟩
  | takeSupervisor => exact ⟨hsupervisor.symm, hstopping, hcounters, hstate, hreader, rfl, hended⟩
  | _ => exact ⟨rfl, hstopping, hcounters, hstate, hreader, hsupervisor, hended⟩

/-- **So is a wait for a task**: it ends when the task has. -/
theorem Mirrors.join (h : Mirrors w s) (t : Simulation.TaskId) (task : BackgroundTask) :
    (w.join t task).2 = if s.hasEnded task then .ended (.done ()) else .waits := by
  unfold Simulation.World.join
  by_cases hmem : task ∈ w.ended
  · rw [if_pos hmem, if_pos ((h.ended task).mp hmem)]
  · rw [if_neg hmem, if_neg fun hended => hmem ((h.ended task).mpr hended)]

theorem run_append (s : Runtime) (ms more : List Move) :
    s.run (ms ++ more) = (s.run ms).run more := by
  induction ms generalizing s with
  | nil => rfl
  | cons m ms ih => exact ih (s.move m)

end Runtime

/-! ## Commands step by step -/

namespace Background

/-- What a second attempt to start comes to. -/
def alreadyStarted : Failure := .internal "Memory consolidator already started"

/-- What is left of a start when the worker and the supervisor were started. -/
def announcing : Routine (Outcome Unit) :=
  .act (.log (event .info "Background consolidation started")) fun _ => .done (.ok ())

/-- What is left when it is said that the worker runs, -/
def supervising : Routine (Outcome Unit) :=
  .act (.spawn .supervisor) fun _ => announcing

/-- when the worker was started, -/
def publishing : Routine (Outcome Unit) :=
  .act (.setWorkerState .running) fun _ => supervising

/-- and when the reader was taken. -/
def spawning : Routine (Outcome Unit) :=
  .act (.spawn .worker) fun _ => publishing

theorem start_eq : Command.start.procedure.run
    = .act .takeReader fun free => if free then spawning else .done (.error alreadyStarted) := by
  refine congrArg (Routine.act .takeReader) (funext fun free => ?_)
  cases free <;> rfl

/-- What is left of a shutdown when the worker has ended, or there is none, -/
def closing : Routine (Outcome Unit) :=
  .act .counters fun counters =>
    .act (.log (event .info "Background consolidation stopped" [("stats", .str counters.line)]))
      fun _ => .done (.ok ())

/-- when there is a supervisor to wait for, -/
def joining : Routine (Outcome Unit) :=
  .call (.join .supervisor) fun
    | .done _ => closing
    | .brokenOff text => .brokenOff text

/-- when the token has fired, -/
def claiming : Routine (Outcome Unit) :=
  .act .takeSupervisor fun free => if free then joining else closing

/-- and before that. -/
def firing : Routine (Outcome Unit) :=
  .act .stop fun _ => claiming

theorem shutdown_eq : Command.shutdown.procedure.run
    = .act (.log (event .debug "Shutting down background consolidation")) fun _ => firing := by
  refine congrArg (Routine.act _) (funext fun _ => ?_)
  refine congrArg (Routine.act _) (funext fun _ => ?_)
  refine congrArg (Routine.act _) (funext fun free => ?_)
  cases free with
  | true => refine congrArg (Routine.call _) (funext fun reply => ?_); cases reply <;> rfl
  | false => rfl

/-- What is left of the supervision when it was noted that the worker has ended, -/
def complaining : Routine Unit :=
  .act .isStopping fun fired =>
    if !fired then .act (.log (event .warn "Memory consolidator exited before shutdown")) .done
    else .done ()

/-- and when it was noticed. -/
def noticing : Routine Unit :=
  .act (.setWorkerState .stopped) fun _ => complaining

theorem supervise_eq : supervise = .call (.join .worker) fun
    | .done _ => noticing
    | .brokenOff text => .brokenOff text := by
  refine congrArg (Routine.call _) (funext fun reply => ?_)
  cases reply with
  | done _ =>
    refine congrArg (Routine.act _) (funext fun _ => ?_)
    refine congrArg (Routine.act _) (funext fun fired => ?_)
    cases fired <;> rfl
  | brokenOff text => rfl

end Background

end IncidentMemory
