import IncidentMemory.Proofs.Routine

/-!
# The journal of a routine

What a routine learns and what it counts can be written down as it runs: that it
looked at the token, how its calls were answered, which of them it gave up. The
result is its journal. `Routine.Runs` says which journals a routine can leave
and how it ends with each of them, whatever its calls are answered with, whether
or not the token fires, and when.

A journal of a composition is one of the first part and then one of the second
(`Routine.Runs.bind`). A routine that is watched, with its break-offs caught, does
not break off (`Routine.Runs.of_caught`), but a call in it may be the last.
`Setback` lists how.
-/

namespace IncidentMemory

/-- **An entry of a journal.** -/
inductive Entry where
  /-- The token was looked at. -/
  | looked (fired : Bool)
  /-- Something was counted. -/
  | counted (counter : Counter)
  /-- A call has ended. -/
  | heard (call : Call) (reply : Attempt call.Reply)
  /-- A call was given up, because the token had fired. -/
  | gaveUp (call : Call)

/-- What is written down of an action. -/
def Action.entries : (a : Action) → a.Result → List Entry
  | .isStopping, fired => [.looked fired]
  | .count counter, _ => [.counted counter]
  | _, _ => []

/-- The failure that a reply reports. -/
def Call.failure? : (q : Call) → q.Reply → Option Failure
  | .embed _, .error f | .resolve .., .error f | .setIfAbsent .., .error f
  | .createCollection .., .error f | .hasCollection _, .error f | .upsert _, .error f
  | .search .., .error f | .get _, .error f | .send _, .error f => some f
  | _, _ => none

namespace Entry

/-- That a reply reports a cancellation. -/
def isCancellation : Entry → Bool
  | .heard q (.done reply) => (q.failure? reply).any Failure.isCancellation
  | _ => false

/-- That the token was seen to have fired. -/
def seesToken : Entry → Bool
  | .looked fired => fired
  | .gaveUp _ => true
  | _ => false

/-- **That a shutdown was noticed**, by the token or from a reply. -/
def tellsStop (e : Entry) : Bool :=
  e.seesToken || e.isCancellation

/-- That something was counted under a name. -/
def counts (k : Counter) : Entry → Bool
  | .counted counter => counter = k
  | _ => false

/-- What was received. -/
def received? : Entry → Option Resolution
  | .heard .receive (.done item) => item
  | _ => none

/-- The points that were put in. -/
def put? : Entry → Option (List Point)
  | .heard (.upsert points) (.done (.ok ())) => some points
  | _ => none

/-- The points of which it is not known whether they were put in. -/
def loose? : Entry → Option (List Point)
  | .gaveUp (.upsert points) => some points
  | _ => none

theorem eq_of_loose {e : Entry} {points : List Point} (h : e.loose? = some points) :
    e = .gaveUp (.upsert points) := by
  unfold loose? at h
  split at h
  · exact congrArg (gaveUp ∘ Call.upsert) (Option.some.inj h)
  · exact nomatch h

end Entry

/-! ## Shutdowns -/

/-- That no shutdown was noticed. -/
def Calm (j : List Entry) : Prop :=
  ∀ e ∈ j, e.tellsStop = false

/-- That a shutdown was noticed at the very end. -/
def EndsStopped (j : List Entry) : Prop :=
  ∃ calm e, j = calm ++ [e] ∧ Calm calm ∧ e.tellsStop = true

theorem calm_nil : Calm [] :=
  fun _ he => nomatch he

theorem calm_cons {e : Entry} {j : List Entry} : Calm (e :: j) ↔ e.tellsStop = false ∧ Calm j :=
  List.forall_mem_cons

theorem calm_append {j j' : List Entry} : Calm (j ++ j') ↔ Calm j ∧ Calm j' :=
  List.forall_mem_append

theorem EndsStopped.append {j j' : List Entry} (hj : Calm j) (h : EndsStopped j') :
    EndsStopped (j ++ j') := by
  obtain ⟨calm, e, rfl, hcalm, he⟩ := h
  exact ⟨j ++ calm, e, (List.append_assoc ..).symm, calm_append.mpr ⟨hj, hcalm⟩, he⟩

/-- **After a shutdown that was noticed at the end nothing comes.** -/
theorem EndsStopped.last {j before after : List Entry} {e : Entry} (h : EndsStopped j)
    (hj : j = before ++ e :: after) (he : e.tellsStop = true) : after = [] := by
  obtain ⟨calm, last, rfl, hcalm, -⟩ := h
  rcases List.eq_nil_or_concat after with rfl | ⟨rest, next, rfl⟩
  · rfl
  · -- otherwise it would be one of the calm entries
    have hsame : calm ++ [last] = (before ++ e :: rest) ++ [next] := by
      rw [hj, List.concat_eq_append, List.append_assoc, List.cons_append]
    obtain ⟨rfl, -⟩ := List.append_inj' hsame rfl
    have hcalm' := hcalm e (List.mem_append_right _ List.mem_cons_self)
    exact absurd (he.symm.trans hcalm') Bool.true_eq_false.mp

/-! ## Runs -/

namespace Routine

variable {α β : Type}

/-- **A run of a routine** leaves a journal and ends as it says. -/
def Runs : Routine α → List Entry → Attempt α → Prop
  | .done a, j, o => j = [] ∧ o = .done a
  | .brokenOff text, j, o => j = [] ∧ o = .brokenOff text
  | .act a next, j, o => ∃ res rest, j = a.entries res ++ rest ∧ (next res).Runs rest o
  | .call q next, j, o => ∃ reply rest, j = .heard q reply :: rest ∧ (next reply).Runs rest o
  | .watch q next stopped, j, o =>
    (∃ reply rest, j = .heard q reply :: rest ∧ (next reply).Runs rest o)
      ∨ ∃ rest, j = .gaveUp q :: rest ∧ stopped.Runs rest o

variable {r : Routine α} {f : α → Routine β} {j : List Entry}

/-- **A run of a composition** is one of the first part, and then one of the
second if the first has a result. -/
theorem Runs.bind {o : Attempt β} (h : (r >>= f).Runs j o) :
    (∃ j₁ j₂ a, j = j₁ ++ j₂ ∧ r.Runs j₁ (.done a) ∧ (f a).Runs j₂ o)
      ∨ ∃ text, r.Runs j (.brokenOff text) ∧ o = .brokenOff text := by
  rw [bind_eq] at h
  induction r generalizing j with
  | done a => exact Or.inl ⟨[], j, a, rfl, ⟨rfl, rfl⟩, h⟩
  | brokenOff text => exact Or.inr ⟨text, ⟨h.1, rfl⟩, h.2⟩
  | act a next ih =>
    obtain ⟨res, rest, rfl, hrest⟩ := h
    rcases ih res hrest with ⟨j₁, j₂, b, rfl, hfirst, hsecond⟩ | ⟨text, hbroken, ho⟩
    · exact Or.inl ⟨_, j₂, b, (List.append_assoc ..).symm, ⟨res, j₁, rfl, hfirst⟩, hsecond⟩
    · exact Or.inr ⟨text, ⟨res, rest, rfl, hbroken⟩, ho⟩
  | call q next ih =>
    obtain ⟨reply, rest, rfl, hrest⟩ := h
    rcases ih reply hrest with ⟨j₁, j₂, b, rfl, hfirst, hsecond⟩ | ⟨text, hbroken, ho⟩
    · exact Or.inl ⟨_ :: j₁, j₂, b, rfl, ⟨reply, j₁, rfl, hfirst⟩, hsecond⟩
    · exact Or.inr ⟨text, ⟨reply, rest, rfl, hbroken⟩, ho⟩
  | watch q next stopped ih ihs =>
    rcases h with ⟨reply, rest, rfl, hrest⟩ | ⟨rest, rfl, hrest⟩
    · rcases ih reply hrest with ⟨j₁, j₂, b, rfl, hfirst, hsecond⟩ | ⟨text, hbroken, ho⟩
      · exact Or.inl ⟨_ :: j₁, j₂, b, rfl, Or.inl ⟨reply, j₁, rfl, hfirst⟩, hsecond⟩
      · exact Or.inr ⟨text, Or.inl ⟨reply, rest, rfl, hbroken⟩, ho⟩
    · rcases ihs hrest with ⟨j₁, j₂, b, rfl, hfirst, hsecond⟩ | ⟨text, hbroken, ho⟩
      · exact Or.inl ⟨_ :: j₁, j₂, b, rfl, Or.inr ⟨j₁, rfl, hfirst⟩, hsecond⟩
      · exact Or.inr ⟨text, Or.inr ⟨rest, rfl, hbroken⟩, ho⟩

/-- What follows an action that cannot break off. -/
theorem Runs.perform_bind {a : Action} {f : a.Result → Routine β} {o : Attempt β}
    (h : (perform a >>= f).Runs j o) :
    ∃ res rest, j = a.entries res ++ rest ∧ (f res).Runs rest o :=
  h

/-- A report leaves no entry. -/
theorem Runs.report_bind {event : Log.Event} {f : Unit → Routine β} {o : Attempt β}
    (h : (report event >>= f).Runs j o) : (f ()).Runs j o := by
  obtain ⟨⟨⟩, rest, rfl, hrest⟩ := h
  exact hrest

/-- **A watched routine whose break-offs are caught does not break off.** -/
theorem Runs.of_caught {o : Attempt (Option (Attempt α))} (h : r.caught.guarded.Runs j o) :
    ∃ x, o = .done x := by
  induction r generalizing j with
  | done a => exact ⟨_, h.2⟩
  | brokenOff text => exact ⟨_, h.2⟩
  | act a next ih =>
    obtain ⟨res, rest, -, hrest⟩ := h
    exact ih res hrest
  | call q next ih =>
    rcases h with ⟨reply, rest, -, hrest⟩ | ⟨rest, -, hrest⟩
    · exact ih reply hrest
    · exact ⟨_, hrest.2⟩
  | watch q next stopped ih ihs =>
    rcases h with ⟨reply, rest, -, hrest⟩ | ⟨rest, -, hrest⟩
    · exact ih reply hrest
    · exact ihs hrest

/-- A watched routine that has ended. -/
theorem Runs.of_done {a : α} {x : Option (Attempt α)}
    (h : (done a).caught.guarded.Runs j (.done x)) : j = [] ∧ x = some (.done a) :=
  ⟨h.1, Attempt.done.inj h.2⟩

/-- **A call that did not lead to anything**: its entry, and what becomes of the
watched routine that made it. -/
inductive Setback (q : Call) : Entry → Option (Attempt (Outcome α)) → Prop
  /-- It was given up. -/
  | gaveUp : Setback q (.gaveUp q) none
  /-- It broke off. -/
  | brokenOff (text : String) : Setback q (.heard q (.brokenOff text)) (some (.brokenOff text))
  /-- It failed. -/
  | failed {reply : q.Reply} {f : Failure} (h : q.failure? reply = some f) :
    Setback q (.heard q (.done reply)) (some (.done (.error f)))

/-- **A call in a watched routine** is given up, breaks off, or has an answer,
with which the routine goes on. -/
theorem Runs.ask_bind {q : Call} {f : q.Reply → Routine (Outcome α)}
    {x : Option (Attempt (Outcome α))} (h : (ask q >>= f).caught.guarded.Runs j (.done x)) :
    (∃ entry, j = [entry] ∧ Setback q entry x)
      ∨ ∃ reply rest, j = .heard q (.done reply) :: rest
        ∧ (f reply).caught.guarded.Runs rest (.done x) := by
  rcases h with ⟨reply | text, rest, rfl, hrest⟩ | ⟨rest, rfl, hrest⟩
  · exact Or.inr ⟨reply, rest, rfl, hrest⟩
  · obtain ⟨rfl, hx⟩ := hrest
    obtain rfl := Attempt.done.inj hx
    exact Or.inl ⟨_, rfl, .brokenOff text⟩
  · obtain ⟨rfl, hx⟩ := hrest
    obtain rfl := Attempt.done.inj hx
    exact Or.inl ⟨_, rfl, .gaveUp⟩

/-- Reports in a procedure leave no entries. -/
theorem Runs.reports_bind {p : Procedure α} {events : List Log.Event}
    {o : Attempt (Option (Attempt (Outcome α)))}
    (h : ((events.forM fun e => (liftM (report e) : Procedure Unit)) >>=
      fun _ => p).run.caught.guarded.Runs j o) : p.run.caught.guarded.Runs j o := by
  induction events with
  | nil => exact h
  | cons e es ih =>
    rw [List.forM_eq_forM, List.forM_cons, bind_assoc] at h
    obtain ⟨⟨⟩, rest, rfl, hrest⟩ := h
    exact ih hrest

/-- **A routine that gives up** looks at the token first. -/
theorem Runs.watching {o : Attempt (Option α)} (h : (watching r).Runs j o) :
    (j = [.looked true] ∧ o = .done none)
      ∨ ∃ rest, j = .looked false :: rest ∧ r.guarded.Runs rest o := by
  obtain ⟨fired, rest, rfl, hrest⟩ := Runs.perform_bind h
  cases fired with
  | true =>
    obtain ⟨rfl, ho⟩ := hrest
    exact Or.inl ⟨rfl, ho⟩
  | false => exact Or.inr ⟨rest, rfl, hrest⟩

/-! ## Every routine can run -/

/-- That a wait for an item did not break off. -/
def Honest (j : List Entry) : Prop :=
  ∀ text, Entry.heard .receive (.brokenOff text) ∉ j

theorem honest_nil : Honest [] :=
  fun _ => List.not_mem_nil

theorem honest_append {j j' : List Entry} : Honest (j ++ j') ↔ Honest j ∧ Honest j' := by
  unfold Honest
  simp only [List.mem_append, not_or, forall_and]

theorem honest_entries (a : Action) (res : a.Result) : Honest (a.entries res) := by
  intro text hmem
  cases a with
  | isStopping => exact nomatch List.mem_singleton.mp hmem
  | count counter => exact nomatch List.mem_singleton.mp hmem
  | _ => exact nomatch hmem

/-- Every call may be answered somehow. -/
theorem exists_honest (q : Call) : ∃ reply, Honest [.heard q reply] := by
  cases q with
  | receive =>
    refine ⟨.done none, fun text hmem => ?_⟩
    exact nomatch List.mem_singleton.mp hmem
  | _ => exact ⟨.brokenOff "", fun text hmem => nomatch List.mem_singleton.mp hmem⟩

theorem exists_result (a : Action) : Nonempty a.Result := by
  cases a with
  | now => exact ⟨⟨0, 0⟩⟩
  | counters => exact ⟨{}⟩
  | workerState => exact ⟨.idle⟩
  | _ => exact ⟨default⟩

/-- **Every routine has a run.** -/
theorem exists_runs (r : Routine α) : ∃ j o, Honest j ∧ r.Runs j o := by
  induction r with
  | done a => exact ⟨[], _, honest_nil, rfl, rfl⟩
  | brokenOff text => exact ⟨[], _, honest_nil, rfl, rfl⟩
  | act a next ih =>
    obtain ⟨res⟩ := exists_result a
    obtain ⟨j, o, hj, hruns⟩ := ih res
    exact ⟨_, o, honest_append.mpr ⟨honest_entries a res, hj⟩, res, j, rfl, hruns⟩
  | call q next ih =>
    obtain ⟨reply, hreply⟩ := exists_honest q
    obtain ⟨j, o, hj, hruns⟩ := ih reply
    exact ⟨_, o, honest_append.mpr ⟨hreply, hj⟩, reply, j, rfl, hruns⟩
  | watch q next stopped ih ihs =>
    obtain ⟨reply, hreply⟩ := exists_honest q
    obtain ⟨j, o, hj, hruns⟩ := ih reply
    exact ⟨_, o, honest_append.mpr ⟨hreply, hj⟩, Or.inl ⟨reply, j, rfl, hruns⟩⟩

end Routine

end IncidentMemory
