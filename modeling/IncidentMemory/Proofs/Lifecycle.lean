import IncidentMemory.Proofs.Stages

/-!
# The life of the background

The owner may give its two commands in any order, the token may fire from outside
and writers may go at any time, and owner, supervisor and worker go on by single
actions in any order. Nevertheless what is said about the worker goes from idle to
running to stopped and never back, and what is said is true. There is a single
worker, however often a start is tried. When a shutdown has returned, the worker
takes and puts in nothing any more; and a worker that is started only then takes
nothing at all (`Runtime.lifecycle_run`). A record whose storing was given up may
take effect even after the shutdown, unless the store takes effect in time
(`Runtime.Timely`); nothing else does.

The proof goes through the commands step by step, with one lemma for each step
that changes something. A step that only reports, or reads something, is one of a
routine that ends with a known result (`Routine.EndsWith`).
-/

namespace IncidentMemory

open Routine

namespace Runtime

open Background

variable {c : Consolidator} {most n : Nat} {s : Runtime} {stage : Stage}
  {results : (a : Action) → a.Result}

/-! ## Commands -/

/-- A command comes to something else, or another one is given. -/
theorem Sound.with_command (hs : Sound c most n s stage)
    {command : Option (Command × Routine (Outcome Unit))}
    (h : Commanded (startsOf s.returned) s.shift.place.stopping (s.hasEnded .supervisor) stage
      command)
    (hjoined : stage = .started → s.supervisorFree = false →
      command = some (.shutdown, joining) ∨ s.hasEnded .supervisor = true) :
    Sound c most n { s with command := command } stage :=
  { hs with
    joined := hjoined
    commanded := h }

/-- Nothing else becomes of the background by that. -/
theorem onward_with_command (command : Option (Command × Routine (Outcome Unit))) :
    Onward s { s with command := command } :=
  ⟨Nat.le_refl _, List.prefix_refl _, List.prefix_refl _, fun _ => .refl _⟩

/-- While another command is carried out, nobody waits for the supervisor. -/
theorem Sound.joined_of_ne (hs : Sound c most n s stage)
    (hne : s.command ≠ some (.shutdown, joining)) (hstage : stage = .started)
    (hfree : s.supervisorFree = false) : s.hasEnded .supervisor = true :=
  (hs.joined hstage hfree).resolve_left hne

/-- Then it may come to anything that is in order. -/
theorem Sound.with_command_of_ne (hs : Sound c most n s stage)
    (hne : s.command ≠ some (.shutdown, joining))
    {command : Option (Command × Routine (Outcome Unit))}
    (h : Commanded (startsOf s.returned) s.shift.place.stopping (s.hasEnded .supervisor) stage
      command) :
    Sound c most n { s with command := command } stage :=
  hs.with_command h fun hstage hfree => Or.inr (hs.joined_of_ne hne hstage hfree)

/-- **The owner gives a command.** -/
theorem Sound.give (hs : Sound c most n s stage) (command : Command) :
    Sound c most n (s.move (.give command)) stage ∧ Onward s (s.move (.give command)) := by
  unfold move
  dsimp only
  split
  · exact ⟨hs, Onward.refl s⟩
  · next hnone =>
    have hcommand : s.command = none := Option.not_isSome_iff_eq_none.mp hnone
    have hne : s.command ≠ some (.shutdown, joining) := by
      rw [hcommand]
      exact nofun
    refine ⟨hs.with_command_of_ne hne ?_, onward_with_command _⟩
    have hcommanded := hs.commanded
    rw [hcommand] at hcommanded
    cases hcommanded with
    | none h =>
      cases command with
      | start => exact .asked h
      | shutdown => exact .closing h .asked

/-- An entry of a list with one more is the last, or is followed by others that end with it. -/
theorem concat_eq_append_cons {β : Type} {l before later : List β} {x a : β}
    (h : l ++ [x] = before ++ a :: later) :
    (l = before ∧ x = a) ∨ ∃ later', l = before ++ a :: later' := by
  rcases List.eq_nil_or_concat later with rfl | ⟨later', y, rfl⟩
  · obtain ⟨hl, hx⟩ := List.append_inj' h rfl
    exact Or.inl ⟨hl, (List.cons_eq_cons.mp hx).1⟩
  · refine Or.inr ⟨later', ?_⟩
    rw [List.concat_eq_append, ← List.cons_append, ← List.append_assoc] at h
    exact (List.append_inj' h rfl).1

/-- **A command returns.** -/
theorem Sound.returned (hs : Sound c most n s stage) {command : Command}
    {o : Attempt (Outcome Unit)} (hne : s.command ≠ some (.shutdown, joining))
    (hsettled : Settled (startsOf (s.returned ++ [(command, o)])) stage)
    (hafter : command = .shutdown → succeeded ∈ s.returned →
      stage = .started ∧ s.hasEnded .supervisor = true)
    (hbefore : command = .shutdown → succeeded ∉ s.returned → s.shift.Dark) :
    Sound c most n { s with command := none, returned := s.returned ++ [(command, o)] } stage :=
  { hs with
    joined := fun hstage hfree => Or.inr (hs.joined_of_ne hne hstage hfree)
    commanded := .none hsettled
    after := fun before o' later h hmem => by
      rcases concat_eq_append_cons h with ⟨rfl, hlast⟩ | ⟨later', h⟩
      · exact hafter (Prod.mk.inj hlast).1 hmem
      · exact hs.after before o' later' h hmem
    before := fun before o' later h hmem => by
      rcases concat_eq_append_cons h with ⟨rfl, hlast⟩ | ⟨later', h⟩
      · exact hbefore (Prod.mk.inj hlast).1 hmem
      · exact hs.before before o' later' h hmem }

theorem onward_returned (command : Option (Command × Routine (Outcome Unit)))
    (new : List (Command × Attempt (Outcome Unit))) :
    Onward s { s with command := command, returned := s.returned ++ new } :=
  ⟨Nat.le_refl _, List.prefix_append _ _, List.prefix_refl _, fun _ => .refl _⟩

theorem mem_startsOf {o : Attempt (Outcome Unit)}
    {returned : List (Command × Attempt (Outcome Unit))} :
    o ∈ startsOf returned ↔ (.start, o) ∈ returned := by
  unfold startsOf
  rw [List.mem_filterMap]
  constructor
  · rintro ⟨⟨command, o'⟩, hmem, ho⟩
    obtain ⟨rfl, ho⟩ := Option.ite_none_right_eq_some.mp ho
    exact Option.some.inj ho ▸ hmem
  · intro hmem
    exact ⟨_, hmem, if_pos rfl⟩

theorem startsOf_concat (returned : List (Command × Attempt (Outcome Unit))) (command : Command)
    (o : Attempt (Outcome Unit)) : startsOf (returned ++ [(command, o)])
      = startsOf returned ++ if command = .start then [o] else [] := by
  unfold startsOf
  rw [List.filterMap_append]
  cases command <;> rfl

theorem Sound.absent (hs : Sound c most n s stage) (hne : stage ≠ .started) :
    s.workerState = stage.state ∧ s.supervision = supervise ∧ s.supervisorFree = false := by
  have hsupervised := hs.supervised
  generalize s.workerState = state at hsupervised ⊢
  generalize s.supervision = rest at hsupervised ⊢
  cases hsupervised with
  | absent h hstate hrest hfree => exact ⟨hstate, hrest, hfree⟩
  | _ => exact absurd rfl hne

/-- **The start comes a step further**: of the worker nothing is known to be different, and no
command returns. -/
theorem Sound.launch (hs : Sound c most n s stage) {s' : Runtime} {stage' : Stage}
    (hne : stage ≠ .started) (hshift : s'.shift = s.shift) (hreturned : s'.returned = s.returned)
    (hreader : s'.readerFree = decide (stage' = .fresh)) (hspawned : s'.spawned = stage'.spawned)
    (huntouched : stage'.spawned = [] → stage.spawned = [])
    (hsupervised : Supervised (s'.hasEnded .worker) s'.supervisorFree stage' s'.workerState
      s'.supervision)
    (hfree : stage' = .started → s'.supervisorFree = true)
    (hcommanded : Commanded (startsOf s.returned) s.shift.place.stopping
      (s'.hasEnded .supervisor) stage' s'.command) :
    Sound c most n s' stage' where
  shift := hshift ▸ hs.shift
  reader := hreader
  spawned := hspawned
  untouched := fun hstage => by
    rw [hshift]
    exact hs.untouched (huntouched hstage)
  supervised := hsupervised
  joined := fun hstage hno => absurd (hno.symm.trans (hfree hstage)) Bool.false_ne_true
  commanded := by
    rw [hreturned, hshift]
    exact hcommanded
  after := fun before o later h hmem => by
    rw [hreturned] at h
    exact absurd (hs.after before o later h hmem).1 hne
  before := fun before o later h hmem => by
    rw [hreturned] at h
    rw [hshift]
    exact hs.before before o later h hmem

/-- **A start goes on.** -/
theorem Sound.goOn_asked (hs : Sound c most n s stage) (h : Settled (startsOf s.returned) stage)
    (hcommand : s.command = some (.start, Command.start.procedure.run)) :
    ∃ stage', Sound c most n (s.goOn results .start Command.start.procedure.run) stage'
      ∧ Onward s (s.goOn results .start Command.start.procedure.run) := by
  rw [start_eq, goOn_act]
  show ∃ stage', Sound c most n { s with
      readerFree := false
      command := some (.start, if s.readerFree then spawning else .done (.error alreadyStarted)) }
      stage' ∧ Onward s _
  have honward : ∀ command, Onward s { s with readerFree := false, command := command } :=
    fun _ => ⟨Nat.le_refl _, List.prefix_refl _, List.prefix_refl _, fun _ => .refl _⟩
  refine ⟨if s.readerFree then .taken else stage, ?_, honward _⟩
  cases h with
  | fresh h =>
    obtain ⟨hstate, hrest, hfree⟩ := hs.absent (by decide)
    rw [hs.reader]
    exact hs.launch (by decide) rfl rfl rfl hs.spawned (fun _ => rfl)
      (.absent (by decide) hstate hrest hfree) nofun (.taken h)
  | started refused h =>
    have hreader : s.readerFree = false := hs.reader
    have hnew : Sound c most n
        { s with command := some (.start, .done (.error alreadyStarted)) } .started :=
      hs.with_command_of_ne (by rw [hcommand]; exact nofun) (.refused (.started refused h) rfl)
    rw [hreader]
    exact { hnew with reader := rfl }

/-- The worker is started. -/
theorem Sound.goOn_spawning (hs : Sound c most n s .taken) (h : startsOf s.returned = []) :
    Sound c most n (s.goOn results .start spawning) .working
      ∧ Onward s (s.goOn results .start spawning) := by
  obtain ⟨hstate, hrest, hfree⟩ := hs.absent (by decide)
  refine ⟨hs.launch (by decide) rfl rfl hs.reader ?_ nofun
    (.absent (by decide) hstate hrest ?_) nofun (.working h),
    Nat.le_refl _, List.prefix_refl _, List.prefix_append _ _, fun _ => .refl _⟩
  · exact congrArg (· ++ [BackgroundTask.worker]) hs.spawned
  · exact congrArg (· || false) hfree

/-- It is said that it runs. -/
theorem Sound.goOn_publishing (hs : Sound c most n s .working) (h : startsOf s.returned = []) :
    Sound c most n (s.goOn results .start publishing) .published
      ∧ Onward s (s.goOn results .start publishing) := by
  obtain ⟨hstate, hrest, hfree⟩ := hs.absent (by decide)
  refine ⟨hs.launch (by decide) rfl rfl hs.reader hs.spawned nofun
    (.absent (by decide) rfl hrest hfree) nofun (.published h),
    ?_, List.prefix_refl _, List.prefix_refl _, fun _ => .refl _⟩
  rw [hstate]
  exact Nat.zero_le _

/-- The supervisor is started. -/
theorem Sound.goOn_supervising (hs : Sound c most n s .published)
    (h : startsOf s.returned = []) :
    Sound c most n (s.goOn results .start supervising) .started
      ∧ Onward s (s.goOn results .start supervising) := by
  obtain ⟨hstate, hrest, hfree⟩ := hs.absent (by decide)
  refine ⟨hs.launch (by decide) rfl rfl hs.reader ?_ nofun ?_ (fun _ => ?_)
    (.succeeding h endsWith_announcing),
    Nat.le_refl _, List.prefix_refl _, List.prefix_append _ _, fun _ => .refl _⟩
  · exact congrArg (· ++ [BackgroundTask.supervisor]) hs.spawned
  · show Supervised _ _ .started s.workerState s.supervision
    rw [hstate, hrest]
    exact .waiting
  · exact Bool.or_true _

/-- **A start returns**, or has only to say what it came to. -/
theorem Sound.goOn_start (hs : Sound c most n s .started) {o : Outcome Unit}
    {r : Routine (Outcome Unit)} (hr : r.EndsWith o) (hcommand : s.command = some (.start, r))
    (hrest : ∀ {rest : Routine (Outcome Unit)}, rest.EndsWith o →
      Commanded (startsOf s.returned) s.shift.place.stopping (s.hasEnded .supervisor) .started
        (some (.start, rest)))
    (hsettled : Settled (startsOf s.returned ++ [.done o]) .started) :
    Sound c most n (s.goOn results .start r) .started ∧ Onward s (s.goOn results .start r) := by
  have hne : s.command ≠ some (.shutdown, joining) := by
    rw [hcommand]
    exact nofun
  rcases goOn_endsWith hr with heq | ⟨rest, hends, heq⟩
  · rw [heq]
    refine ⟨hs.returned hne ?_ nofun nofun, onward_returned _ _⟩
    rw [startsOf_concat]
    exact hsettled
  · rw [heq]
    exact ⟨hs.with_command_of_ne hne (hrest hends), onward_with_command _⟩

/-- Once the supervisor was started, it does not matter whether anybody waits for it. -/
theorem Supervised.of_free {ended free free' : Bool} {state : WorkerState} {rest : Routine Unit}
    (h : Supervised ended free .started state rest) :
    Supervised ended free' .started state rest := by
  cases h with
  | absent h => exact absurd rfl h
  | waiting => exact .waiting
  | noticing h => exact .noticing h
  | told h hr => exact .told h hr

/-- The first start has succeeded if any has. -/
theorem Settled.eq_started_iff {returned : List (Command × Attempt (Outcome Unit))}
    (h : Settled (startsOf returned) stage) : stage = .started ↔ succeeded ∈ returned := by
  rw [succeeded, ← mem_startsOf]
  cases h with
  | fresh h =>
    rw [h]
    exact ⟨nofun, fun hmem => nomatch hmem⟩
  | started refused h =>
    rw [h]
    exact ⟨fun _ => List.mem_cons_self, fun _ => rfl⟩

/-- The right to wait for the supervisor is taken. -/
theorem Sound.goOn_claiming (hs : Sound c most n s stage) (h : Settled (startsOf s.returned) stage)
    (hstop : s.shift.place.stopping = true) (hcommand : s.command = some (.shutdown, claiming)) :
    Sound c most n (s.goOn results .shutdown claiming) stage
      ∧ Onward s (s.goOn results .shutdown claiming) := by
  have hne : s.command ≠ some (.shutdown, joining) := by
    rw [hcommand]
    exact nofun
  refine ⟨?_, Nat.le_refl _, List.prefix_refl _, List.prefix_refl _, fun _ => .refl _⟩
  show Sound c most n { s with
      supervisorFree := false
      command := some (.shutdown, if s.supervisorFree then joining else closing) } stage
  cases hfree : s.supervisorFree with
  | true =>
    obtain rfl : stage = .started := by
      refine Decidable.byContradiction fun hstage => ?_
      exact absurd (hfree.symm.trans (hs.absent hstage).2.2) Bool.true_eq_false.mp
    exact { hs with
      supervised := hs.supervised.of_free
      joined := fun _ _ => Or.inl rfl
      commanded := .closing h (.joining hstop rfl) }
  | false =>
    have hended := fun hstage => hs.joined_of_ne hne hstage hfree
    have hnew : Sound c most n { s with command := some (.shutdown, closing) } stage :=
      hs.with_command (.closing h (.closing hstop hended endsWith_closing))
        fun hstage _ => Or.inr (hended hstage)
    exact { hnew with
      supervised := hfree ▸ hs.supervised
      joined := fun hstage _ => Or.inr (hended hstage) }

/-- **A shutdown goes on**, or returns. -/
theorem Sound.goOn_closing (hs : Sound c most n s stage) (h : Settled (startsOf s.returned) stage)
    {r : Routine (Outcome Unit)}
    (hr : Closing s.shift.place.stopping (s.hasEnded .supervisor) stage r)
    (hcommand : s.command = some (.shutdown, r)) :
    Sound c most n (s.goOn results .shutdown r) stage
      ∧ Onward s (s.goOn results .shutdown r) := by
  cases hr with
  | asked =>
    have hne : s.command ≠ some (.shutdown, joining) := by
      rw [hcommand, shutdown_eq]
      exact nofun
    rw [shutdown_eq, goOn_act, act_of_isAside rfl]
    exact ⟨hs.with_command_of_ne hne (.closing h .firing), onward_with_command _⟩
  | firing =>
    have hne : s.command ≠ some (.shutdown, joining) := by
      rw [hcommand]
      exact nofun
    obtain ⟨hfired, honward⟩ := hs.worker (m := .fire) rfl
    exact ⟨hfired.with_command_of_ne hne (.closing h (.claiming rfl)),
      honward.trans (onward_with_command _)⟩
  | claiming hstop => exact hs.goOn_claiming h hstop hcommand
  | joining hstop hstage =>
    refine ⟨?_, onward_with_command _⟩
    show Sound c most n { s with
        command := some (.shutdown, if s.hasEnded .supervisor then closing else joining) } stage
    cases hended : s.hasEnded .supervisor with
    | true =>
      exact hs.with_command (.closing h (.closing hstop (fun _ => hended) endsWith_closing))
        fun _ _ => Or.inr hended
    | false => exact hs.with_command (.closing h (.joining hstop hstage)) fun _ _ => Or.inl rfl
  | closing hstop hended hr =>
    have hne : s.command ≠ some (.shutdown, joining) := by
      rw [hcommand]
      intro heq
      obtain rfl := (Prod.mk.inj (Option.some.inj heq)).2
      exact hr
    rcases goOn_endsWith hr with heq | ⟨rest, hends, heq⟩
    · rw [heq]
      refine ⟨hs.returned hne ?_ (fun _ hmem => ?_) (fun _ hno => ?_), onward_returned _ _⟩
      · rw [startsOf_concat, if_neg (by decide), List.append_nil]
        exact h
      · have hstage := h.eq_started_iff.mpr hmem
        exact ⟨hstage, hended hstage⟩
      · -- the worker was not started, so it has not looked at the token
        refine ⟨hstop, ?_⟩
        cases h with
        | fresh h =>
          rw [(hs.untouched rfl).2]
          exact List.not_mem_nil
        | started refused h => exact absurd ((Settled.started refused h).eq_started_iff.mp rfl) hno
    · rw [heq]
      exact ⟨hs.with_command (.closing h (.closing hstop hended hends)) fun hstage _ =>
        Or.inr (hended hstage), onward_with_command _⟩

/-- **The owner goes on.** -/
theorem Sound.owner (hs : Sound c most n s stage) (results : (a : Action) → a.Result) :
    ∃ stage', Sound c most n (s.move (.owner results)) stage'
      ∧ Onward s (s.move (.owner results)) := by
  unfold move
  dsimp only
  have hcommanded := hs.commanded
  generalize hcommand : s.command = command at hcommanded
  cases hcommanded with
  | none h => exact ⟨stage, hs, Onward.refl s⟩
  | asked h => exact hs.goOn_asked h hcommand
  | taken h => exact ⟨_, hs.goOn_spawning h⟩
  | working h => exact ⟨_, hs.goOn_publishing h⟩
  | published h => exact ⟨_, hs.goOn_supervising h⟩
  | succeeding h hr =>
    refine ⟨_, hs.goOn_start hr hcommand (.succeeding h) (.started 0 ?_)⟩
    rw [h]
    rfl
  | refused h hr =>
    refine ⟨_, hs.goOn_start hr hcommand (.refused h) ?_⟩
    cases h with
    | started refused h =>
      refine .started (refused + 1) ?_
      rw [h, List.cons_append, List.replicate_succ']
  | closing h hr => exact ⟨_, hs.goOn_closing h hr hcommand⟩

/-- **Every move keeps the background in order**, and lets it only move on. -/
theorem Sound.move (hs : Sound c most n s stage) (m : Move) :
    ∃ stage', Sound c most n (s.move m) stage' ∧ Onward s (s.move m) := by
  cases m with
  | worker m =>
    unfold Runtime.move
    dsimp only
    split
    · next hm => exact ⟨stage, hs.worker hm⟩
    · exact ⟨stage, hs, Onward.refl s⟩
  | supervisor results => exact ⟨stage, hs.supervisor results⟩
  | give command => exact ⟨stage, hs.give command⟩
  | owner results => exact hs.owner results

/-- **Every run does.** -/
theorem Sound.run (hs : Sound c most n s stage) (ms : List Move) :
    ∃ stage', Sound c most n (s.run ms) stage' ∧ Onward s (s.run ms) := by
  induction ms generalizing s stage with
  | nil => exact ⟨stage, hs, Onward.refl s⟩
  | cons m ms ih =>
    obtain ⟨stage₁, hs₁, honward₁⟩ := hs.move m
    obtain ⟨stage₂, hs₂, honward₂⟩ := ih hs₁
    exact ⟨stage₂, hs₂, honward₁.trans honward₂⟩

/-! ## What takes effect in the end -/

/-- Actions of the owner and the supervisor put nothing in. -/
theorem act_effects (action : Action) :
    (s.act results action).1.shift.place.effects = s.shift.place.effects := by
  cases action <;> rfl

theorem advance_effects {α : Type} (r : Routine α) :
    (s.advance results r).1.shift.place.effects = s.shift.place.effects := by
  unfold advance
  split
  · exact act_effects _
  · rfl
  · rfl

theorem goOn_effects (command : Command) (r : Routine (Outcome Unit)) :
    (s.goOn results command r).shift.place.effects = s.shift.place.effects := by
  unfold goOn
  split
  · rfl
  · rfl
  · exact advance_effects _

/-- **Nothing takes effect when the worker has ended**, unless it was given up before. -/
theorem effects_move (hended : s.hasEnded .worker = true) {m : Move} (hm : m ≠ .worker .land) :
    (s.move m).shift.place.effects = s.shift.place.effects := by
  cases m with
  | worker m =>
    unfold move
    dsimp only
    split
    · exact Shift.effects_move_of_isOver hended fun hland => hm (congrArg Move.worker hland)
    · rfl
  | supervisor results =>
    unfold move
    dsimp only
    split
    · exact advance_effects _
    · rfl
  | give command =>
    unfold move
    dsimp only
    split <;> rfl
  | owner results =>
    unfold move
    dsimp only
    split
    · rfl
    · exact goOn_effects _ _

/-- **If the store takes effect in time, nothing takes effect when the worker is said to have
ended.** -/
theorem Sound.effects_run (hs : Sound c most n s stage) (hstate : s.workerState = .stopped)
    {ms : List Move} (htimely : s.Timely ms) :
    (s.run ms).shift.place.effects = s.shift.place.effects := by
  induction ms generalizing s stage with
  | nil => rfl
  | cons m ms ih =>
    obtain ⟨hland, hlater⟩ := htimely
    have hended := hs.hasEnded_worker hstate
    have hm : m ≠ .worker .land := by
      -- a worker that has ended waits for nothing
      intro hm
      have hwaits := hland hm
      rw [Shift.underWay_of_isOver hended] at hwaits
      exact nomatch hwaits
    obtain ⟨stage', hs', honward⟩ := hs.move m
    exact (ih hs' (honward.stopped hstate) hlater).trans (effects_move hended hm)

/-! ## The life of the background -/

/-- **What is true of the background at every moment.** -/
structure Orderly (s : Runtime) : Prop where
  /-- The first start succeeds, and all others are refused. -/
  starts : startsOf s.returned = [] ∨ ∃ refused, startsOf s.returned
    = .done (.ok ()) :: List.replicate refused (.done (.error alreadyStarted))
  /-- It never takes waiting to hear which. -/
  prompt : ∀ rest, s.command = some (.start, rest) → rest.asked? = none
  /-- The worker and the supervisor are started once, and by then that has succeeded nothing else
  is. -/
  spawned : s.spawned <+: [.worker, .supervisor]
    ∧ (succeeded ∈ s.returned → s.spawned = [.worker, .supervisor])
  /-- The worker is said to have ended only when it has. -/
  ended : s.workerState = .stopped → s.shift.routine = .done ()
  /-- It has ended when a shutdown has returned that came after a start. -/
  after : ∀ before o later, s.returned = before ++ (.shutdown, o) :: later → succeeded ∈ before →
    s.workerState = .stopped
  /-- If one has returned before there was a start, nothing is received and nothing takes
  effect. -/
  before : ∀ before o later, s.returned = before ++ (.shutdown, o) :: later →
    succeeded ∉ before → s.shift.place.ledger.received = [] ∧ s.shift.place.effects = []

theorem Settled.cases {starts : List (Attempt (Outcome Unit))} (hsettled : Settled starts stage) :
    starts = [] ∨ ∃ refused, starts
      = .done (.ok ()) :: List.replicate refused (.done (.error alreadyStarted)) := by
  cases hsettled with
  | fresh h => exact Or.inl h
  | started refused h => exact Or.inr ⟨refused, h⟩

theorem Commanded.starts {starts : List (Attempt (Outcome Unit))} {stopping ended : Bool}
    {command : Option (Command × Routine (Outcome Unit))}
    (h : Commanded starts stopping ended stage command) : starts = [] ∨ ∃ refused, starts
      = .done (.ok ()) :: List.replicate refused (.done (.error alreadyStarted)) := by
  cases h with
  | none h | asked h | refused h | closing h => exact h.cases
  | taken h | working h | published h | succeeding h => exact Or.inl h

/-- A start waits for nothing. -/
theorem prompt_of_commanded {starts : List (Attempt (Outcome Unit))} {stopping ended : Bool}
    {rest : Routine (Outcome Unit)}
    (h : Commanded starts stopping ended stage (some (.start, rest))) : rest.asked? = none := by
  cases h with
  | asked => rw [start_eq]; rfl
  | taken | working | published => rfl
  | succeeding h hr | refused h hr => exact hr.asked?

/-- When the supervisor has ended, it has said that the worker has. -/
theorem Sound.stopped (hs : Sound c most n s .started) (hended : s.hasEnded .supervisor = true) :
    s.workerState = .stopped := by
  have hover : s.supervision.isOver = true := hended
  have hsupervised := hs.supervised
  generalize s.workerState = state at hsupervised ⊢
  generalize s.supervision = rest at hsupervised hover
  cases hsupervised with
  | absent h => exact absurd rfl h
  | waiting =>
    rw [supervise_eq] at hover
    exact nomatch hover
  | noticing => exact nomatch hover
  | told => rfl

theorem Sound.orderly (hs : Sound c most n s stage) : Orderly s where
  starts := hs.commanded.starts
  prompt rest hrest := prompt_of_commanded (hrest ▸ hs.commanded)
  spawned := by
    rw [hs.spawned]
    refine ⟨by cases stage <;> decide, fun hmem => ?_⟩
    -- the start that has succeeded is the first that has returned
    have hcommanded := hs.commanded
    rw [succeeded, ← mem_startsOf] at hmem
    generalize s.command = command at hcommanded
    cases hcommanded with
    | none h | asked h | closing h =>
      obtain rfl := h.eq_started_iff.mpr (mem_startsOf.mp hmem)
      rfl
    | taken h | working h | published h =>
      rw [h] at hmem
      exact nomatch hmem
    | _ => rfl
  ended hstate := by
    have hover : s.shift.routine.isOver = true := hs.hasEnded_worker hstate
    cases hr : s.shift.routine with
    | done a => rfl
    | brokenOff text => exact absurd hr (hs.shift.orderly.unbroken text)
    | _ => rw [hr] at hover; exact nomatch hover
  after := fun before o later h hmem => by
    obtain ⟨rfl, hended⟩ := hs.after before o later h hmem
    exact hs.stopped hended
  before := fun before o later h hno => hs.shift.nothing (hs.before before o later h hno).unseen

/-- **The life of the background.** Whatever commands the owner gives one after another, wherever
the token fires from outside and whoever goes on writing or goes away, whenever what was sent to
the store takes effect, and in whichever order the owner, the supervisor and the worker go on: at
every moment the background is `Orderly`, and from one moment to a later one it has only moved
`Onward`. If moreover the store takes effect in time, nothing takes effect any more when the worker
is said to have ended. -/
theorem lifecycle_run (c : Consolidator) (most capacity : Nat) (b : Buffer Resolution)
    (hb : (Buffer.create capacity).value = .done b) (ms more : List Move) :
    Orderly ((idle c most b).run ms)
      ∧ Onward ((idle c most b).run ms) ((idle c most b).run (ms ++ more))
      ∧ (((idle c most b).run ms).Timely more → ((idle c most b).run ms).workerState = .stopped →
        ((idle c most b).run (ms ++ more)).shift.place.effects
          = ((idle c most b).run ms).shift.place.effects) := by
  obtain ⟨n, rfl⟩ := Buffer.create_done hb
  obtain ⟨stage, hs, -⟩ := (sound_idle c most n).run ms
  obtain ⟨-, -, honward⟩ := hs.run more
  rw [run_append]
  exact ⟨hs.orderly, honward, fun htimely hstate => hs.effects_run hstate htimely⟩

/-- The background is started, takes a resolution, and is shut down while that is being put in. Then
it is to be started again. -/
def stoppedWhileStoring : List Move :=
  [.give .start] ++ List.replicate 6 (.owner Shift.sampleResults)
    ++ [.worker (.elsewhere (.write 0 0 ⟨"c", "prod", "default", "oom killed", "raise the limit"⟩))]
    ++ List.replicate 12 (.worker (.go Shift.sampleOutside Shift.sampleResults))
    ++ [.give .shutdown] ++ List.replicate 3 (.owner Shift.sampleResults)
    ++ List.replicate 5 (.worker (.go Shift.sampleOutside Shift.sampleResults))
    ++ List.replicate 3 (.supervisor Shift.sampleResults)
    ++ List.replicate 4 (.owner Shift.sampleResults)
    ++ [.give .start] ++ List.replicate 2 (.owner Shift.sampleResults)

/-- The shutdown returns when the worker has given its resolution up, and the second start is
refused. The record may take effect even then, but it does not if the store takes effect in
time. -/
theorem lifecycle_run_stoppedWhileStoring :
    (Buffer.create 4 : Log.Reported (Attempt (Buffer Resolution))).value = .done (Buffer.empty 4)
      ∧ Orderly ((idle Shift.sampleConsolidator Consolidator.mostReceived (Buffer.empty 4)).run
        stoppedWhileStoring)
      ∧ Onward ((idle Shift.sampleConsolidator Consolidator.mostReceived (Buffer.empty 4)).run
          stoppedWhileStoring)
        ((idle Shift.sampleConsolidator Consolidator.mostReceived (Buffer.empty 4)).run
          (stoppedWhileStoring ++ [.worker .land]))
      ∧ ((idle Shift.sampleConsolidator Consolidator.mostReceived (Buffer.empty 4)).run
          stoppedWhileStoring).returned.map Prod.fst = [.start, .shutdown, .start]
      ∧ ((idle Shift.sampleConsolidator Consolidator.mostReceived (Buffer.empty 4)).run
          stoppedWhileStoring).workerState = .stopped
      ∧ ((idle Shift.sampleConsolidator Consolidator.mostReceived (Buffer.empty 4)).run
          stoppedWhileStoring).shift.place.ledger.received.length = 1
      ∧ ((idle Shift.sampleConsolidator Consolidator.mostReceived (Buffer.empty 4)).run
          (stoppedWhileStoring ++ [.worker .land])).shift.place.effects.length = 1
      ∧ ((idle Shift.sampleConsolidator Consolidator.mostReceived (Buffer.empty 4)).run
          (stoppedWhileStoring ++ [.worker .fire])).shift.place.effects.length = 0 := by
  obtain ⟨horderly, honward, -⟩ := lifecycle_run Shift.sampleConsolidator
    Consolidator.mostReceived 4 (Buffer.empty 4) rfl stoppedWhileStoring [.worker .land]
  obtain ⟨-, -, htimely⟩ := lifecycle_run Shift.sampleConsolidator
    Consolidator.mostReceived 4 (Buffer.empty 4) rfl stoppedWhileStoring [.worker .fire]
  have hstate : ((idle Shift.sampleConsolidator Consolidator.mostReceived (Buffer.empty 4)).run
      stoppedWhileStoring).workerState = .stopped := by decide +kernel
  refine ⟨rfl, horderly, honward, by decide +kernel, hstate, by decide +kernel, by decide +kernel,
    ?_⟩
  rw [htimely ⟨nofun, trivial⟩ hstate]
  decide +kernel

end Runtime

end IncidentMemory
