import IncidentMemory.Proofs.Routine

/-!
# What a routine does whatever it is told

The course of a routine is what can be seen of it from outside: the calls it has
begun, the verdicts of the dedup store, and the resolutions that the buffer took.
`Routine.Always` states something about every course a routine can take, with
nothing assumed about what calls are answered with, how long they wait and when
the token fires: one condition for every moment, one for the moments at which a
call waits, and one for the end.

There is one rule for each way in which routines are put together. A part that
gives up when the token fires (`Routine.always_watching`) needs its end condition
in addition at every moment at which it waits, and where it begins.
-/

namespace IncidentMemory

/-- A call that has nothing to do with the dedup store or the buffer. -/
def Call.IsOutside : Call → Prop
  | .setIfAbsent .. | .send _ => False
  | _ => True

/-! ## Courses -/

/-- **The course that something has taken** so far. -/
structure Course where
  /-- The calls that were begun, in order. -/
  begun : List Call := []
  /-- What the dedup store answered. -/
  verdicts : List (Attempt (Outcome Bool)) := []
  /-- The resolutions that the buffer took. -/
  accepted : List Resolution := []

namespace Course

/-- The course when a call begins. -/
def asked (c : Course) (call : Call) : Course :=
  { c with begun := c.begun ++ [call] }

/-- The course when a call is answered. -/
def told (c : Course) : (call : Call) → Attempt call.Reply → Course
  | .setIfAbsent .., reply => { c with verdicts := c.verdicts ++ [reply] }
  | .send r, .done (.ok ()) => { c with accepted := c.accepted ++ [r] }
  | _, _ => c

/-- Other calls leave no trace but that they were begun. -/
theorem told_of_isOutside (c : Course) {q : Call} (hq : q.IsOutside) (reply : Attempt q.Reply) :
    c.told q reply = c := by
  cases q with
  | setIfAbsent key value ttl => exact hq.elim
  | send r => exact hq.elim
  | _ => rfl

end Course

/-! ## Everything that may happen -/

/-- An action that changes nothing but what was logged. -/
def Action.IsQuiet : Action → Prop
  | .log _ | .isStopping | .buffered => True
  | _ => False

/-- What an action may result in; if the token had fired before the beginning
(`early`), that it has fired. -/
def Action.Credible (early : Bool) : (a : Action) → a.Result → Prop
  | .isStopping, fired => early = true → fired = true
  | _, _ => True

namespace Routine

variable {α β : Type}

/-- **Whatever happens**, `I` holds of the course at every moment and `J` while a
call waits, and if the routine ends, `Q` holds of the course and of how it
ended. -/
def Always (early : Bool) (I J : Course → Prop) (Q : Course → Attempt α → Prop) :
    Routine α → Course → Prop
  | .done a, c => I c ∧ Q c (.done a)
  | .brokenOff text, c => I c ∧ Q c (.brokenOff text)
  | .act a next, c => I c ∧ a.IsQuiet
    ∧ ∀ r, a.Credible early r → (next r).Always early I J Q c
  | .call q next, c => I c ∧ J (c.asked q)
    ∧ ∀ reply, (next reply).Always early I J Q ((c.asked q).told q reply)
  | .watch q next stopped, c => I c ∧ J (c.asked q)
    ∧ (∀ reply, (next reply).Always early I J Q ((c.asked q).told q reply))
    ∧ stopped.Always early I J Q (c.asked q)

/-- What `Always` says of a routine that waits for the call it begins with. -/
def AlwaysWaiting (early : Bool) (I J : Course → Prop) (Q : Course → Attempt α → Prop) :
    Routine α → Course → Prop
  | .call q next, c => q ∈ c.begun ∧ J c
    ∧ ∀ reply, (next reply).Always early I J Q (c.told q reply)
  | .watch q next stopped, c => q ∈ c.begun ∧ J c
    ∧ (∀ reply, (next reply).Always early I J Q (c.told q reply))
    ∧ stopped.Always early I J Q c
  | _, _ => False

variable {early : Bool} {I I' J J' : Course → Prop} {Q Q' : Course → Attempt α → Prop} {c : Course}

/-- The condition for every moment holds now. -/
theorem Always.now {r : Routine α} (h : r.Always early I J Q c) : I c := by
  cases r with
  | done a => exact h.1
  | brokenOff text => exact h.1
  | act a next => exact h.1
  | call q next => exact h.1
  | watch q next stopped => exact h.1

/-- **Weaker conditions** hold as well. -/
theorem Always.mono {r : Routine α} (h : r.Always early I J Q c) (hI : ∀ c, I c → I' c)
    (hJ : ∀ c, J c → J' c) (hQ : ∀ c a, I c → Q c a → Q' c a) : r.Always early I' J' Q' c := by
  induction r generalizing c with
  | done a => exact ⟨hI c h.1, hQ c _ h.1 h.2⟩
  | brokenOff text => exact ⟨hI c h.1, hQ c _ h.1 h.2⟩
  | act a next ih => exact ⟨hI c h.1, h.2.1, fun r hr => ih r (h.2.2 r hr)⟩
  | call q next ih => exact ⟨hI c h.1, hJ _ h.2.1, fun reply => ih reply (h.2.2 reply)⟩
  | watch q next stopped ih ihs =>
    exact ⟨hI c h.1, hJ _ h.2.1, fun reply => ih reply (h.2.2.1 reply), ihs h.2.2.2⟩

/-- **A composition**: what follows the first part begins with the course that
this has taken. -/
theorem always_bind {r : Routine α} {f : α → Routine β} {Q : Course → Attempt β → Prop}
    (h : r.Always early I J (fun c => fun
      | .done a => (f a).Always early I J Q c
      | .brokenOff text => Q c (.brokenOff text)) c) :
    (r >>= f).Always early I J Q c := by
  show (r.bind f).Always early I J Q c
  induction r generalizing c with
  | done a => exact h.2
  | brokenOff text => exact h
  | act a next ih => exact ⟨h.1, h.2.1, fun r hr => ih r (h.2.2 r hr)⟩
  | call q next ih => exact ⟨h.1, h.2.1, fun reply => ih reply (h.2.2 reply)⟩
  | watch q next stopped ih ihs =>
    exact ⟨h.1, h.2.1, fun reply => ih reply (h.2.2.1 reply), ihs h.2.2.2⟩

/-- An action alone. -/
theorem always_perform {a : Action} {Q : Course → Attempt a.Result → Prop} (hI : I c)
    (ha : a.IsQuiet) (hQ : ∀ r, a.Credible early r → Q c (.done r)) :
    (perform a).Always early I J Q c :=
  ⟨hI, ha, fun r hr => ⟨hI, hQ r hr⟩⟩

/-- A report. -/
theorem always_report {event : Log.Event} {Q : Course → Attempt Unit → Prop} (hI : I c)
    (hQ : Q c (.done ())) : (report event).Always early I J Q c :=
  ⟨hI, trivial, fun _ _ => ⟨hI, hQ⟩⟩

/-- A call alone. -/
theorem always_ask {q : Call} {Q : Course → Attempt q.Reply → Prop} (hI : I c)
    (hJ : J (c.asked q)) (hI' : ∀ reply, I ((c.asked q).told q reply))
    (hQ : ∀ reply, Q ((c.asked q).told q reply) reply) :
    (ask q).Always early I J Q c := by
  refine ⟨hI, hJ, fun reply => ?_⟩
  cases reply with
  | done r => exact ⟨hI' (.done r), hQ (.done r)⟩
  | brokenOff text => exact ⟨hI' (.brokenOff text), hQ (.brokenOff text)⟩

/-- How a part ended that might have been given up, but was not. -/
def notGivenUp : Attempt α → Attempt (Option α)
  | .done a => .done (some a)
  | .brokenOff text => .brokenOff text

/-- A part that gives up while it waits. -/
theorem always_guarded {r : Routine α} {Q : Course → Attempt (Option α) → Prop}
    (h : r.Always early I (fun c => J c ∧ I c ∧ Q c (.done none))
      (fun c a => Q c (notGivenUp a)) c) : r.guarded.Always early I J Q c := by
  induction r generalizing c with
  | done a => exact h
  | brokenOff text => exact h
  | act a next ih => exact ⟨h.1, h.2.1, fun r hr => ih r (h.2.2 r hr)⟩
  | call q next ih =>
    -- the call is watched from now on, and what then follows is that there is no result
    obtain ⟨hI, ⟨hJ, hgivenUp⟩, hnext⟩ := h
    exact ⟨hI, hJ, fun reply => ih reply (hnext reply), hgivenUp⟩
  | watch q next stopped ih ihs =>
    obtain ⟨hI, ⟨hJ, -⟩, hnext, hstopped⟩ := h
    exact ⟨hI, hJ, fun reply => ih reply (hnext reply), ihs hstopped⟩

/-- **A part that gives up when the token has fired.** If that was before the
beginning the part does not begin. -/
theorem always_watching {r : Routine α} {Q : Course → Attempt (Option α) → Prop} (hI : I c)
    (hstop : Q c (.done none))
    (h : early = false → r.Always early I (fun c => J c ∧ I c ∧ Q c (.done none))
      (fun c a => Q c (notGivenUp a)) c) : (watching r).Always early I J Q c := by
  unfold watching
  refine always_bind (always_perform hI trivial fun fired hfired => ?_)
  cases fired with
  | true => exact ⟨hI, hstop⟩
  | false =>
    -- had the token fired before the beginning, it would have fired now
    have hlate : early = false := by
      cases early with
      | false => rfl
      | true => exact absurd (hfired rfl) Bool.false_ne_true
    exact always_guarded (h hlate)

/-! ## Procedures -/

/-- **A composition of procedures**: what follows begins only without a
failure. -/
theorem always_run_bind {p : Procedure α} {f : α → Procedure β}
    {Q : Course → Attempt (Outcome β) → Prop}
    (h : p.run.Always early I J (fun c (o : Attempt (Outcome α)) =>
      match o with
      | .done (.ok a) => (f a).run.Always early I J Q c
      | .done (.error e) => Q c (.done (.error e))
      | .brokenOff text => Q c (.brokenOff text)) c) :
    (p >>= f).run.Always early I J Q c := by
  rw [ExceptT.run_bind]
  refine always_bind (h.mono (fun _ => id) (fun _ => id) fun c a hI ha => ?_)
  rcases a with (e | a) | text
  · exact ⟨hI, ha⟩
  · exact ha
  · exact ha

/-- A routine in a procedure does not fail. -/
theorem always_run_lift_bind {r : Routine α} {f : α → Procedure β}
    {Q : Course → Attempt (Outcome β) → Prop}
    (h : r.Always early I J (fun c => fun
      | .done a => (f a).run.Always early I J Q c
      | .brokenOff text => Q c (.brokenOff text)) c) :
    ((liftM r : Procedure α) >>= f).run.Always early I J Q c := by
  show (ExceptT.run (ExceptT.lift r >>= f)).Always early I J Q c
  rw [ExceptT.run_bind_lift]
  exact always_bind h

/-- A report in a procedure. -/
theorem always_run_report_bind {event : Log.Event} {f : Unit → Procedure β}
    {Q : Course → Attempt (Outcome β) → Prop} (h : (f ()).run.Always early I J Q c) :
    ((liftM (report event) : Procedure Unit) >>= f).run.Always early I J Q c :=
  always_run_lift_bind (always_report h.now h)

/-- **A procedure that is cancelled** when the token has fired. -/
theorem always_cancellable {p : Procedure α} {operation : String}
    {Q : Course → Attempt (Outcome α) → Prop} (hI : I c)
    (hstop : Q c (.done (.error (.cancelled operation))))
    (h : early = false → p.run.Always early I
      (fun c => J c ∧ I c ∧ Q c (.done (.error (.cancelled operation)))) Q c) :
    (p.cancellable operation).run.Always early I J Q c := by
  unfold Procedure.cancellable
  refine always_run_lift_bind (always_watching hI ⟨hI, hstop⟩ fun hlate => ?_)
  refine (h hlate).mono (fun _ => id) (fun c hc => ⟨hc.1, hc.2.1, hc.2⟩) fun c a hc ha => ?_
  rcases a with (e | a) | text
  · exact ⟨hc, ha⟩
  · exact ⟨hc, ha⟩
  · exact ha

/-! ## Routines that do not call -/

/-- A routine that waits fulfils the condition for that. -/
theorem AlwaysWaiting.waits {r : Routine α} (h : r.AlwaysWaiting early I J Q c) : J c := by
  cases r with
  | call q next => exact h.2.1
  | watch q next stopped => exact h.2.1
  | _ => exact h.elim

/-- **A routine that may not call any more ends at once**, and as it may at
the end of the course it has taken. -/
theorem Always.carryOut {r : Routine α} (h : r.Always false I J Q c)
    (hJ : ∀ q, ¬ J (c.asked q)) (w : Simulation.World) (t : Simulation.TaskId) :
    ∃ o, (w.carryOut t r).2 = some o ∧ Q c o := by
  induction r generalizing w with
  | done a => exact ⟨.done a, rfl, h.2⟩
  | brokenOff text => exact ⟨.brokenOff text, rfl, h.2⟩
  | act a next ih =>
    obtain ⟨-, -, hnext⟩ := h
    have hcredible : a.Credible false (w.act a).2 := by
      cases a with
      | isStopping => exact fun h => absurd h Bool.false_ne_true
      | _ => trivial
    exact ih _ (hnext _ hcredible) _
  | call q next => exact (hJ q h.2.1).elim
  | watch q next stopped => exact (hJ q h.2.1).elim

/-! ## Routines that leave a condition as it is -/

/-- That a condition of the course, once it holds, holds at every moment. -/
def StaysIn (P : Course → Prop) (r : Routine α) : Prop :=
  ∀ c early, P c → r.Always early P P (fun c _ => P c) c

variable {P : Course → Prop}

theorem staysIn_done (a : α) : (Routine.done a).StaysIn P :=
  fun _ _ hc => ⟨hc, hc⟩

theorem staysIn_report (event : Log.Event) : (report event).StaysIn P :=
  fun _ _ hc => always_report hc hc

/-- A call alone, if neither its beginning nor its end matters to the
condition. -/
theorem staysIn_ask {q : Call} (hasked : ∀ c, P c → P (c.asked q))
    (htold : ∀ c reply, P c → P (c.told q reply)) : (ask q).StaysIn P :=
  fun c _ hc => always_ask hc (hasked c hc) (fun reply => htold _ reply (hasked c hc))
    fun reply => htold _ reply (hasked c hc)

theorem StaysIn.bind {r : Routine α} {f : α → Routine β} (hr : r.StaysIn P)
    (hf : ∀ a, (f a).StaysIn P) : (r >>= f).StaysIn P := by
  intro c early hc
  refine always_bind ((hr c early hc).mono (fun _ => id) (fun _ => id) fun c a _ hc => ?_)
  cases a with
  | done a => exact hf a c early hc
  | brokenOff text => exact hc

theorem StaysIn.run_bind {p : Procedure α} {f : α → Procedure β} (hp : p.run.StaysIn P)
    (hf : ∀ a, (f a).run.StaysIn P) : (p >>= f).run.StaysIn P := by
  rw [ExceptT.run_bind]
  refine hp.bind fun o => ?_
  cases o with
  | ok a => exact hf a
  | error e => exact staysIn_done _

theorem StaysIn.run_lift_bind {r : Routine α} {f : α → Procedure β} (hr : r.StaysIn P)
    (hf : ∀ a, (f a).run.StaysIn P) : ((liftM r : Procedure α) >>= f).run.StaysIn P := by
  show (ExceptT.run (ExceptT.lift r >>= f)).StaysIn P
  rw [ExceptT.run_bind_lift]
  exact hr.bind hf

end Routine

end IncidentMemory
