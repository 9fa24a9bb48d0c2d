import IncidentMemory.Proofs.Runtime

/-!
# How far the background has come

A start takes the reader, starts the worker, says that it runs, and starts the
supervisor. So there are five stages, and each determines which tasks there are
and what may be said about the worker. `Runtime.Sound` adds to this how far the
supervisor is (`Runtime.Supervised`), what is left of the command that is carried
out (`Runtime.Commanded`), and what is known from shutdowns that have returned.

`Runtime.Onward` is about two moments: what is said about the worker moves on
only, and when it is said to have ended nothing becomes of it any more.

Whatever happens to the worker and around it, and whatever the supervisor does,
the background remains in order and moves on (`Runtime.Sound.worker`,
`Runtime.Sound.supervisor`).
-/

namespace IncidentMemory

open Routine

/-- How far a worker has come that is in a state. -/
def WorkerState.rank : WorkerState → Nat
  | .idle => 0
  | .running => 1
  | .stopped => 2

/-! ## Routines that change nothing -/

/-- Whether an action leaves the background as it is. -/
def Action.isAside : Action → Bool
  | .log _ | .now | .isStopping | .counters | .workerState | .buffered | .bufferCapacity => true
  | _ => false

/-- **That a routine ends with a result**, and changes nothing before that. -/
def Routine.EndsWith {α : Type} (a : α) : Routine α → Prop
  | .done b => b = a
  | .act action next => action.isAside = true ∧ ∀ result, (next result).EndsWith a
  | _ => False

/-- It waits for nothing. -/
theorem Routine.EndsWith.asked? {α : Type} {a : α} {r : Routine α} (h : r.EndsWith a) :
    r.asked? = none := by
  cases r with
  | done | act => rfl
  | _ => exact h.elim

namespace Background

theorem endsWith_announcing : announcing.EndsWith (.ok ()) :=
  ⟨rfl, fun _ => rfl⟩

theorem endsWith_closing : closing.EndsWith (.ok ()) :=
  ⟨rfl, fun _ => ⟨rfl, fun _ => rfl⟩⟩

theorem endsWith_complaining : complaining.EndsWith () :=
  ⟨rfl, fun fired => by
    cases fired with
    | false => exact ⟨rfl, fun _ => rfl⟩
    | true => rfl⟩

end Background

namespace Runtime

open Background (Command)

variable {α : Type} {a : α} {s : Runtime} {command : Command} {results : (a : Action) → a.Result}

theorem act_of_isAside {action : Action} (h : action.isAside = true) :
    (s.act results action).1 = s := by
  cases action with
  | stop | count | setWorkerState | takeReader | dropReader | spawn | takeSupervisor =>
    exact nomatch h
  | _ => rfl

theorem advance_endsWith {r : Routine α} (h : r.EndsWith a) :
    (s.advance results r).1 = s ∧ (s.advance results r).2.EndsWith a := by
  cases r with
  | done b => exact ⟨rfl, h⟩
  | act action next => exact ⟨act_of_isAside h.1, h.2 _⟩
  | _ => exact h.elim

theorem goOn_act {action : Action} {next : action.Result → Routine (Outcome Unit)} :
    s.goOn results command (.act action next)
      = { (s.act results action).1 with
          command := some (command, next (s.act results action).2) } :=
  rfl

/-- A command that changes nothing any more returns, or goes on like that. -/
theorem goOn_endsWith {o : Outcome Unit} {r : Routine (Outcome Unit)} (h : r.EndsWith o) :
    s.goOn results command r
        = { s with command := none, returned := s.returned ++ [(command, .done o)] }
      ∨ ∃ rest, rest.EndsWith o
        ∧ s.goOn results command r = { s with command := some (command, rest) } := by
  cases r with
  | done b =>
    obtain rfl : b = o := h
    exact Or.inl rfl
  | act action next =>
    obtain ⟨haside, hnext⟩ := h
    refine Or.inr ⟨_, hnext (s.act results action).2, ?_⟩
    rw [goOn_act, act_of_isAside haside]
  | _ => exact h.elim

end Runtime

/-! ## How far the background has come -/

namespace Runtime

open Background

/-- **How far the start has come.** -/
inductive Stage where
  /-- Nobody has tried to start the worker. -/
  | fresh
  /-- The reader was taken. -/
  | taken
  /-- The worker was started. -/
  | working
  /-- It is said to run. -/
  | published
  /-- The supervisor was started. -/
  | started
  deriving DecidableEq

/-- The tasks that were started. -/
def Stage.spawned : Stage → List BackgroundTask
  | .fresh | .taken => []
  | .working | .published => [.worker]
  | .started => [.worker, .supervisor]

/-- What is said about the worker before the supervisor was started. -/
def Stage.state : Stage → WorkerState
  | .fresh | .taken | .working => .idle
  | .published | .started => .running

/-- **What is true of the supervisor**, by whether the worker has ended: it says so when that is
true. -/
inductive Supervised (ended free : Bool) : Stage → WorkerState → Routine Unit → Prop
  /-- It was not started. -/
  | absent {stage : Stage} {state : WorkerState} {rest : Routine Unit} (h : stage ≠ .started)
    (hstate : state = stage.state) (hrest : rest = supervise) (hfree : free = false) :
    Supervised ended free stage state rest
  /-- It waits for the worker. -/
  | waiting : Supervised ended free .started .running supervise
  /-- It has noticed that the worker has ended. -/
  | noticing (h : ended = true) : Supervised ended free .started .running noticing
  /-- It has said so. -/
  | told (h : ended = true) {r : Routine Unit} (hr : r.EndsWith ()) :
    Supervised ended free .started .stopped r

/-- What attempts to start have come to. -/
def startsOf (returned : List (Command × Attempt (Outcome Unit))) :
    List (Attempt (Outcome Unit)) :=
  returned.filterMap fun (command, o) => if command = .start then some o else none

/-- A start that has succeeded. -/
def succeeded : Command × Attempt (Outcome Unit) :=
  (.start, .done (.ok ()))

/-- **No start is on its way**: there was none, or the first has succeeded and all others were
refused. -/
inductive Settled (starts : List (Attempt (Outcome Unit))) : Stage → Prop
  /-- There was none. -/
  | fresh (h : starts = []) : Settled starts .fresh
  /-- The first has succeeded. -/
  | started (refused : Nat) (h : starts
      = .done (.ok ()) :: List.replicate refused (.done (.error alreadyStarted))) :
    Settled starts .started

/-- **What is left of a shutdown**, by whether the token has fired and the supervisor has ended. -/
inductive Closing (stopping ended : Bool) (stage : Stage) : Routine (Outcome Unit) → Prop
  /-- All of it. -/
  | asked : Closing stopping ended stage Command.shutdown.procedure.run
  /-- The token is about to fire. -/
  | firing : Closing stopping ended stage firing
  /-- It has fired. -/
  | claiming (hstop : stopping = true) : Closing stopping ended stage claiming
  /-- The supervisor is waited for. -/
  | joining (hstop : stopping = true) (hstage : stage = .started) :
    Closing stopping ended stage joining
  /-- It has ended, if there is one. -/
  | closing (hstop : stopping = true) (hended : stage = .started → ended = true)
    {r : Routine (Outcome Unit)} (hr : r.EndsWith (.ok ())) : Closing stopping ended stage r

/-- **What is true of the owner**, by the attempts to start that have returned. -/
inductive Commanded (starts : List (Attempt (Outcome Unit))) (stopping ended : Bool) :
    Stage → Option (Command × Routine (Outcome Unit)) → Prop
  /-- No command is carried out. -/
  | none {stage : Stage} (h : Settled starts stage) : Commanded starts stopping ended stage none
  /-- A start was asked for. -/
  | asked {stage : Stage} (h : Settled starts stage) :
    Commanded starts stopping ended stage (some (.start, Command.start.procedure.run))
  /-- It has taken the reader, -/
  | taken (h : starts = []) : Commanded starts stopping ended .taken (some (.start, spawning))
  /-- started the worker, -/
  | working (h : starts = []) :
    Commanded starts stopping ended .working (some (.start, publishing))
  /-- said that it runs, -/
  | published (h : starts = []) :
    Commanded starts stopping ended .published (some (.start, supervising))
  /-- and started the supervisor. -/
  | succeeding (h : starts = []) {r : Routine (Outcome Unit)} (hr : r.EndsWith (.ok ())) :
    Commanded starts stopping ended .started (some (.start, r))
  /-- Or there was no reader to take. -/
  | refused (h : Settled starts .started) {r : Routine (Outcome Unit)}
    (hr : r.EndsWith (.error alreadyStarted)) :
    Commanded starts stopping ended .started (some (.start, r))
  /-- A shutdown is carried out. -/
  | closing {stage : Stage} (h : Settled starts stage) {r : Routine (Outcome Unit)}
    (hr : Closing stopping ended stage r) :
    Commanded starts stopping ended stage (some (.shutdown, r))

/-- **What is true of the background** at a stage of its start. -/
structure Sound (c : Consolidator) (most n : Nat) (s : Runtime) (stage : Stage) : Prop where
  /-- The worker is in good order. -/
  shift : s.shift.Sound c most n
  /-- The reader is free until it is taken. -/
  reader : s.readerFree = decide (stage = .fresh)
  /-- The tasks that were started. -/
  spawned : s.spawned = stage.spawned
  /-- The worker does nothing before that. -/
  untouched : stage.spawned = [] → s.shift.routine = c.work most ∧ s.shift.journal = []
  /-- The supervisor. -/
  supervised : Supervised (s.hasEnded .worker) s.supervisorFree stage s.workerState s.supervision
  /-- Who takes the right to wait for it waits until it has ended. -/
  joined : stage = .started → s.supervisorFree = false →
    s.command = some (.shutdown, joining) ∨ s.hasEnded .supervisor = true
  /-- The owner. -/
  commanded : Commanded (startsOf s.returned) s.shift.place.stopping (s.hasEnded .supervisor)
    stage s.command
  /-- When a shutdown has returned that came after a start, the supervisor has ended. -/
  after : ∀ before o later, s.returned = before ++ (.shutdown, o) :: later → succeeded ∈ before →
    stage = .started ∧ s.hasEnded .supervisor = true
  /-- When one has returned before, the worker will find that the token has fired. -/
  before : ∀ before o later, s.returned = before ++ (.shutdown, o) :: later →
    succeeded ∉ before → s.shift.Dark

/-- **What may become of the background**, and what may not. -/
structure Onward (s s' : Runtime) : Prop where
  /-- What is said about the worker only moves on. -/
  forward : s.workerState.rank ≤ s'.workerState.rank
  /-- So do the commands that have returned. -/
  returned : s.returned <+: s'.returned
  /-- So do the tasks that were started. -/
  spawned : s.spawned <+: s'.spawned
  /-- When it is said to have ended, it learns nothing, receives nothing and puts nothing in. -/
  still : s.workerState = .stopped → Shift.Still s.shift s'.shift

variable {c : Consolidator} {most n : Nat} {s : Runtime} {stage : Stage}

theorem sound_idle (c : Consolidator) (most n : Nat) :
    Sound c most n (idle c most (Buffer.empty n)) .fresh where
  shift := Shift.sound_start c most n
  reader := rfl
  spawned := rfl
  untouched := fun _ => ⟨rfl, rfl⟩
  supervised := .absent (by decide) rfl rfl rfl
  joined := nofun
  commanded := .none (.fresh rfl)
  after := fun before _ _ h => absurd h (by simp [idle])
  before := fun before _ _ h => absurd h (by simp [idle])

/-! ## What every move keeps -/

theorem Onward.refl (s : Runtime) : Onward s s :=
  ⟨Nat.le_refl _, List.prefix_refl _, List.prefix_refl _, fun _ => .refl _⟩

theorem eq_stopped_of_rank_le {state : WorkerState} (h : WorkerState.rank .stopped ≤ state.rank) :
    state = .stopped := by
  cases state with
  | stopped => rfl
  | _ => exact absurd h (by decide)

/-- It remains said to have ended. -/
theorem Onward.stopped {s s' : Runtime} (h : Onward s s') (hstate : s.workerState = .stopped) :
    s'.workerState = .stopped := by
  have hforward := h.forward
  rw [hstate] at hforward
  exact eq_stopped_of_rank_le hforward

theorem Onward.trans {s s' s'' : Runtime} (h : Onward s s') (h' : Onward s' s'') :
    Onward s s'' where
  forward := Nat.le_trans h.forward h'.forward
  returned := h.returned.trans h'.returned
  spawned := h.spawned.trans h'.spawned
  still hstate := (h.still hstate).trans (h'.still (h.stopped hstate))

theorem Closing.mono {stopping stopping' ended ended' : Bool} {r : Routine (Outcome Unit)}
    (h : Closing stopping ended stage r) (hstop : stopping = true → stopping' = true)
    (hended : ended = true → ended' = true) : Closing stopping' ended' stage r := by
  cases h with
  | asked => exact .asked
  | firing => exact .firing
  | claiming h => exact .claiming (hstop h)
  | joining h hstage => exact .joining (hstop h) hstage
  | closing h hjoined hr => exact .closing (hstop h) (fun hstage => hended (hjoined hstage)) hr

theorem Commanded.mono {starts : List (Attempt (Outcome Unit))}
    {stopping stopping' ended ended' : Bool} {command : Option (Command × Routine (Outcome Unit))}
    (h : Commanded starts stopping ended stage command)
    (hstop : stopping = true → stopping' = true) (hended : ended = true → ended' = true) :
    Commanded starts stopping' ended' stage command := by
  cases h with
  | none h => exact .none h
  | asked h => exact .asked h
  | taken h => exact .taken h
  | working h => exact .working h
  | published h => exact .published h
  | succeeding h hr => exact .succeeding h hr
  | refused h hr => exact .refused h hr
  | closing h hr => exact .closing h (hr.mono hstop hended)

/-- What is said to have ended has ended. -/
theorem Sound.hasEnded_worker (hs : Sound c most n s stage) (hstate : s.workerState = .stopped) :
    s.hasEnded .worker = true := by
  have hsupervised := hs.supervised
  rw [hstate] at hsupervised
  generalize hstopped : WorkerState.stopped = state at hsupervised
  generalize s.supervision = rest at hsupervised
  cases hsupervised with
  | absent h hstate =>
    rw [← hstopped] at hstate
    cases stage <;> exact nomatch hstate
  | waiting => exact nomatch hstopped
  | noticing h => exact h
  | told h => exact h

/-- **The worker goes on**, or something happens around it. -/
theorem Sound.worker (hs : Sound c most n s stage) {m : Shift.Move} (hm : s.allows m = true) :
    Sound c most n { s with shift := s.shift.move m } stage
      ∧ Onward s { s with shift := s.shift.move m } := by
  have hended : s.hasEnded .worker = true → (s.shift.move m).routine.isOver = true := by
    intro h
    rw [(Shift.still_move h m).routine]
    exact h
  refine ⟨{ hs with
    shift := hs.shift.move m
    untouched := fun hstage => ?_
    supervised := ?_
    commanded := hs.commanded.mono (fun h => Shift.stopping_move h m) id
    before := fun before o later h hno => (hs.before before o later h hno).move m }, ?_⟩
  · obtain ⟨hroutine, hjournal⟩ := hs.untouched hstage
    cases m with
    | elsewhere step =>
      unfold Shift.move
      dsimp only
      split <;> exact ⟨hroutine, hjournal⟩
    | fire => exact ⟨hroutine, hjournal⟩
    | land => exact ⟨hroutine, hjournal⟩
    | go outside results =>
      -- it was not started
      have hworker : BackgroundTask.worker ∈ s.spawned := of_decide_eq_true hm
      rw [hs.spawned, hstage] at hworker
      exact nomatch hworker
  · have hsupervised := hs.supervised
    show Supervised (s.shift.move m).routine.isOver s.supervisorFree stage s.workerState
      s.supervision
    generalize s.workerState = state at hsupervised ⊢
    generalize s.supervision = rest at hsupervised ⊢
    cases hsupervised with
    | absent h hstate hrest hfree => exact .absent h hstate hrest hfree
    | waiting => exact .waiting
    | noticing h => exact .noticing (hended h)
    | told h hr => exact .told (hended h) hr
  · exact ⟨Nat.le_refl _, List.prefix_refl _, List.prefix_refl _, fun hstate =>
      Shift.still_move (hs.hasEnded_worker hstate) m⟩

theorem advance_supervise {results : (a : Action) → a.Result} :
    s.advance results supervise
      = (s, if s.hasEnded .worker then noticing else supervise) := by
  rw [supervise_eq]
  rfl

/-- The supervisor comes to something else before it has ended. -/
theorem Sound.with_supervision (hs : Sound c most n s .started)
    (hgoing : s.hasEnded .supervisor = false) {state : WorkerState} {rest : Routine Unit}
    (h : Supervised (s.hasEnded .worker) s.supervisorFree .started state rest) :
    Sound c most n { s with workerState := state, supervision := rest } .started :=
  { hs with
    supervised := h
    joined := fun hstage hfree => (hs.joined hstage hfree).imp id fun hended =>
      absurd (hended.symm.trans hgoing) Bool.true_eq_false.mp
    commanded := hs.commanded.mono id fun hended =>
      absurd (hended.symm.trans hgoing) Bool.true_eq_false.mp
    after := fun before o later hreturned hmem =>
      absurd ((hs.after before o later hreturned hmem).2.symm.trans hgoing)
        Bool.true_eq_false.mp }

/-- The supervisor only says more. -/
theorem onward_with_supervision {state : WorkerState} (h : s.workerState.rank ≤ state.rank)
    (rest : Routine Unit) : Onward s { s with workerState := state, supervision := rest } :=
  ⟨h, List.prefix_refl _, List.prefix_refl _, fun _ => .refl _⟩

/-- **The supervisor goes on.** -/
theorem Sound.supervisor (hs : Sound c most n s stage) (results : (a : Action) → a.Result) :
    Sound c most n (s.move (.supervisor results)) stage
      ∧ Onward s (s.move (.supervisor results)) := by
  unfold move
  dsimp only
  by_cases hspawned : BackgroundTask.supervisor ∈ s.spawned
  · rw [if_pos hspawned]
    obtain rfl : stage = .started := by
      rw [hs.spawned] at hspawned
      cases stage with
      | started => rfl
      | _ => exact absurd hspawned (by decide)
    cases hended : s.hasEnded .supervisor with
    | true =>
      have hover : s.supervision.isOver = true := hended
      have hsame : s.advance results s.supervision = (s, s.supervision) := by
        cases hrest : s.supervision with
        | done _ => rfl
        | brokenOff _ => rfl
        | _ => rw [hrest] at hover; exact nomatch hover
      rw [hsame]
      exact ⟨hs, Onward.refl s⟩
    | false =>
      have hsupervised := hs.supervised
      generalize hstate : s.workerState = state at hsupervised
      generalize hrest : s.supervision = rest at hsupervised
      cases hsupervised with
      | absent h => exact absurd rfl h
      | waiting =>
        rw [advance_supervise]
        cases hworker : s.hasEnded .worker with
        | true =>
          refine ⟨hs.with_supervision hended ?_, onward_with_supervision (Nat.le_refl _) _⟩
          rw [hstate]
          exact .noticing hworker
        | false =>
          refine ⟨hs.with_supervision hended ?_, onward_with_supervision (Nat.le_refl _) _⟩
          rw [hstate]
          exact .waiting
      | noticing h =>
        refine ⟨hs.with_supervision hended (.told h endsWith_complaining),
          onward_with_supervision ?_ _⟩
        rw [hstate]
        show WorkerState.rank .running ≤ WorkerState.rank .stopped
        decide
      | told h hr =>
        rw [(advance_endsWith hr).1]
        refine ⟨hs.with_supervision hended ?_, onward_with_supervision (Nat.le_refl _) _⟩
        rw [hstate]
        exact .told h (advance_endsWith hr).2
  · rw [if_neg hspawned]
    exact ⟨hs, Onward.refl s⟩

end Runtime

end IncidentMemory
