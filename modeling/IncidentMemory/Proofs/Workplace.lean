import IncidentMemory.Proofs.Journal
import IncidentMemory.Proofs.Traffic
import IncidentMemory.Proofs.Ledger

/-!
# What a worker works with

The worker reads from an exchange that others write to, counts, watches a token,
and puts points into a store. `Workplace` has all of these, and says of every
action and every call of a routine what becomes of them.

Points that are put in take effect at some time after the call was made
(`Workplace.land`): before it is answered, or when the answer is that they were
put in, or after the call was given up. An answer that it failed means that they
do not take effect. Whatever else is asked for is answered from outside.

`Workplace.Agrees` says that the journal of a routine and the things it has
worked with tell the same story. Each thing that may happen preserves this.
-/

namespace IncidentMemory

open Routine

/-- How often something was counted. -/
def Counters.get (c : Counters) : Counter → Nat
  | .received => c.received
  | .stored => c.stored
  | .duplicates => c.duplicates
  | .skipped => c.skipped
  | .failed => c.failed

theorem Counters.get_add (c : Counters) (k l : Counter) :
    (c.add k).get l = c.get l + if k = l then 1 else 0 := by
  cases k <;> cases l <;> rfl

/-! ## An exchange that is exhausted -/

/-- That a step of an exchange is for its reader. -/
def ExchangeStep.isReading {α : Type} : ExchangeStep α → Bool
  | .receive | .tryReceive | .dropReader => true
  | _ => false

/-- Others receive nothing. -/
theorem Ledger.received_note {α : Type} (l : Ledger α) {step : ExchangeStep α}
    (h : step.isReading = false) (result : ExchangeResult α) :
    (l.note step result).received = l.received := by
  have hended : ∀ (l : Ledger α) i, (l.ended i result).received = l.received := by
    intro l i
    unfold ended
    split <;> rfl
  unfold note
  split
  · rfl
  · exact hended _ _
  · exact hended _ _
  · rfl
  · exact nomatch h
  · exact nomatch h
  · rfl

namespace Exchange

variable {α : Type} {n : Nat} {x : Exchange α} {l : Ledger α}

/-- **That nobody can write any more**, and what was accepted was received. -/
structure Exhausted (x : Exchange α) (l : Ledger α) : Prop where
  /-- There are no writers. -/
  writers : ∀ i, x.hasWriter i = false
  /-- No write waits. -/
  writes : ∀ i, x.pendingWrite i = none
  /-- What was received are the items of the writes that were accepted. -/
  received : l.received.map some = l.items l.accepted

/-- Then nothing is queued. -/
theorem Exhausted.queue (h : x.Exhausted l) (ha : Accounts n x l) : x.buffer.queue = [] := by
  obtain ⟨lost, hitems, -⟩ := ha.delivered
  have hlength := congrArg List.length (h.received.trans hitems)
  simp only [List.length_map, List.length_append] at hlength
  exact List.length_eq_zero_iff.mp (by omega)

/-- A read then finds nothing, and changes nothing. -/
theorem Exhausted.receive (h : x.Exhausted l) (ha : Accounts n x l) (waits : Bool) :
    (x.receive waits).1 = x ∧ l.read (x.receive waits).2 = l := by
  unfold Exchange.receive
  split
  · rw [Buffer.take_nil (h.queue ha)]
    dsimp only
    split <;> exact ⟨rfl, rfl⟩
  · exact ⟨rfl, rfl⟩

/-- **It remains so.** -/
theorem Exhausted.step (h : x.Exhausted l) (ha : Accounts n x l) (s : ExchangeStep α) :
    (x.step s).1.Exhausted (l.note s (x.step s).2) := by
  cases s with
  | write writer token item =>
    have hwrite : x.write writer token item = (x, .noWriter) := by
      unfold Exchange.write
      rw [if_neg (by rw [h.writers]; exact Bool.false_ne_true)]
    show (x.write writer token item).1.Exhausted (l.note _ (x.write writer token item).2)
    rw [hwrite]
    exact h
  | poll i =>
    have hpoll : x.poll i = (x, .finished) := by
      unfold Exchange.poll
      rw [h.writes]
    show (x.poll i).1.Exhausted (l.ended i (x.poll i).2)
    rw [hpoll]
    exact h
  | dropWrite i =>
    have hdrop : x.step (.dropWrite i) = (x, .was false) := by
      simp only [Exchange.step, h.writes]
    rw [hdrop]
    exact h
  | receive =>
    obtain ⟨hsame, hread⟩ := h.receive ha true
    show (x.receive true).1.Exhausted (l.read (x.receive true).2)
    rw [hsame, hread]
    exact h
  | tryReceive =>
    obtain ⟨hsame, hread⟩ := h.receive ha false
    show (x.receive false).1.Exhausted (l.read (x.receive false).2)
    rw [hsame, hread]
    exact h
  | cancel i => exact ⟨h.writers, h.writes, h.received⟩
  | newToken i => exact ⟨h.writers, h.writes, h.received⟩
  | cloneWriter i =>
    -- a writer that is not there is doubled
    refine ⟨fun j => ?_, h.writes, h.received⟩
    show (x.writers ++ [x.hasWriter i]).getD j false = false
    rw [h.writers i, List.getD_eq_getElem?_getD, List.getElem?_append]
    split
    · rw [← List.getD_eq_getElem?_getD]
      exact h.writers j
    · cases j - x.writers.length <;> rfl
  | dropWriter i =>
    refine ⟨fun j => ?_, h.writes, h.received⟩
    show (x.writers.set i false).getD j false = false
    rw [List.getD_eq_getElem?_getD, List.getElem?_set]
    split
    · split <;> rfl
    · rw [← List.getD_eq_getElem?_getD]
      exact h.writers j
  | dropReader =>
    simp only [Exchange.step]
    split
    · exact ⟨h.writers, h.writes, h.received⟩
    · exact h

end Exchange

/-- What is gathered from a journal with one more entry. -/
theorem filterMap_concat {α β : Type} (f : α → Option β) (l : List α) (a : α) :
    (l ++ [a]).filterMap f = l.filterMap f ++ (f a).toList := by
  rw [List.filterMap_append]
  cases hf : f a <;> simp [hf]

/-! ## The workplace -/

/-- **What a worker works with.** -/
structure Workplace where
  /-- The exchange that it reads from. -/
  exchange : Exchange Resolution
  /-- What was seen of the exchange. -/
  ledger : Ledger Resolution := {}
  /-- Whether the token has fired. -/
  stopping : Bool := false
  /-- What was counted. -/
  counters : Counters := {}
  /-- The points that were sent to the store and may still take effect. -/
  sending : Option (List Point) := none
  /-- The points that have taken effect, in order. -/
  effects : List (List Point) := []

/-- The points that a call puts in. -/
def Call.points? : Call → Option (List Point)
  | .upsert points => some points
  | _ => none

namespace Workplace

/-- A step of the exchange. -/
def exchanged (w : Workplace) (step : ExchangeStep Resolution) : Workplace :=
  { w with
    exchange := (w.exchange.step step).1
    ledger := w.ledger.note step (w.exchange.step step).2 }

/-- **What was sent takes effect.** -/
def land (w : Workplace) : Workplace :=
  { w with sending := none, effects := w.effects ++ w.sending.toList }

/-- **Carries out an action**, of which others may know the result. -/
def act (w : Workplace) (results : (a : Action) → a.Result) : (a : Action) → Workplace × a.Result
  | .isStopping => (w, w.stopping)
  | .count counter => ({ w with counters := w.counters.add counter }, ())
  | .dropReader => (w.exchanged .dropReader, ())
  | a => (w, results a)

/-- How a wait for an item is answered. -/
def reading : ExchangeResult Resolution → Option (Attempt (Option Resolution))
  | .got item => some (.done item)
  | _ => none

/-- **How a call that puts points in is answered.** If they have taken effect
there can be no answer but that. -/
def confirm (w : Workplace) :
    Option (Attempt (Outcome Unit)) → Workplace × Option (Attempt (Outcome Unit))
  | some (.done (.ok ())) => (w.land, some (.done (.ok ())))
  | some reply => if w.sending.isSome then ({ w with sending := none }, some reply) else (w, none)
  | none => (w, none)

/-- **Serves a call**, for the first time or again, and says how it was answered
if it was. -/
def serve (w : Workplace) (again : Bool) (outside : Outside) :
    (q : Call) → Workplace × Option (Attempt q.Reply)
  | .receive => (w.exchanged .receive, reading (w.exchange.step .receive).2)
  | .upsert points =>
    (if again then w else { w with sending := some points }).confirm (outside (.upsert points))
  | q => (w, outside q)

end Workplace

/-! ## What was read agrees -/

/-- **What the journal says was received, was**, from an exchange over a buffer
with `n` slots. -/
structure Reads (n : Nat) (x : Exchange Resolution) (l : Ledger Resolution) (j : List Entry) :
    Prop where
  /-- The ledger agrees with the exchange. -/
  accounts : Exchange.Accounts n x l
  /-- It has what the journal says. -/
  received : l.received = j.filterMap Entry.received?
  /-- No wait for an item broke off. -/
  honest : Honest j
  /-- If there was no item any more, then there is none. -/
  exhausted : .heard .receive (.done none) ∈ j → x.Exhausted l

namespace Reads

variable {n : Nat} {x : Exchange Resolution} {l : Ledger Resolution} {j : List Entry}

/-- An entry about something else. -/
theorem add (h : Reads n x l j) {e : Entry} (hreceived : e.received? = none)
    (hreceive : ∀ reply, e ≠ .heard .receive reply) : Reads n x l (j ++ [e]) where
  accounts := h.accounts
  received := by
    rw [filterMap_concat, hreceived]
    exact h.received.trans (List.append_nil _).symm
  honest := honest_append.mpr ⟨h.honest, fun text hmem =>
    hreceive _ (List.mem_singleton.mp hmem).symm⟩
  exhausted := fun hmem => by
    rcases List.mem_append.mp hmem with hmem | hmem
    · exact h.exhausted hmem
    · exact absurd (List.mem_singleton.mp hmem).symm (hreceive _)

/-- A step by which nothing is received. -/
theorem exchanged (h : Reads n x l j) {step : ExchangeStep Resolution}
    (hstep : (l.note step (x.step step).2).received = l.received) :
    Reads n (x.step step).1 (l.note step (x.step step).2) j where
  accounts := h.accounts.step step
  received := hstep.trans h.received
  honest := h.honest
  exhausted := fun hmem => (h.exhausted hmem).step h.accounts step

/-- **A read with an answer.** -/
theorem got (h : Reads n x l j) {item : Option Resolution}
    (hgot : (x.step .receive).2 = .got item) :
    Reads n (x.step .receive).1 (l.note .receive (x.step .receive).2)
      (j ++ [.heard .receive (.done item)]) where
  accounts := h.accounts.step .receive
  received := by
    rw [hgot, filterMap_concat, ← h.received]
    cases item with
    | none => exact (List.append_nil _).symm
    | some r => rfl
  honest := honest_append.mpr ⟨h.honest, fun text hmem => nomatch List.mem_singleton.mp hmem⟩
  exhausted := by
    intro hmem
    rcases List.mem_append.mp hmem with hmem | hmem
    · exact (h.exhausted hmem).step h.accounts .receive
    · -- the wait has ended because there are no items any more
      have hitem : none = item := Attempt.done.inj
        (eq_of_heq (Entry.heard.inj (List.mem_singleton.mp hmem)).2)
      obtain ⟨hwriters, hwrites, hreceived⟩ := h.accounts.exhausted (hitem ▸ hgot)
      exact Exchange.Exhausted.step ⟨hwriters, hwrites, hreceived⟩ h.accounts .receive

end Reads

/-! ## What was put in agrees -/

/-- **What has taken effect, or still may**, is what the journal says was put in or
given up, and what is being put in. -/
structure Writes (effects : List (List Point)) (sending : Option (List Point)) (j : List Entry)
    (sent : Option (List Point)) : Prop where
  /-- That is all, and in this order. -/
  effects : effects ++ sending.toList
    = j.filterMap Entry.put? ++ (j.filterMap Entry.loose? ++ sent.toList)
  /-- Nothing may still take effect unless it was given up or is being put in. -/
  idle : j.filterMap Entry.loose? ++ sent.toList = [] → sending = none

namespace Writes

variable {effects : List (List Point)} {sending sent : Option (List Point)} {j : List Entry}
  {points : List Point}

/-- An entry about something else, or about a call that was given up. -/
theorem add (h : Writes effects sending j sent) {e : Entry} (hput : e.put? = none)
    {sent' : Option (List Point)} (hsent : e.loose?.toList ++ sent'.toList = sent.toList) :
    Writes effects sending (j ++ [e]) sent' where
  effects := by
    rw [filterMap_concat, filterMap_concat, hput, Option.toList_none, List.append_nil,
      List.append_assoc, hsent]
    exact h.effects
  idle := by
    rw [filterMap_concat, List.append_assoc, hsent]
    exact h.idle

/-- **What was sent takes effect**, at any time. -/
theorem land (h : Writes effects sending j sent) : Writes (effects ++ sending.toList) none j sent :=
  ⟨(List.append_nil _).trans h.effects, fun _ => rfl⟩

/-- What has taken effect if nothing else may. -/
theorem effects_eq (h : Writes effects sending j none) (hloose : j.filterMap Entry.loose? = []) :
    sending = none ∧ effects = j.filterMap Entry.put? := by
  obtain ⟨heffects, hidle⟩ := h
  rw [hloose] at heffects hidle
  obtain rfl := hidle rfl
  exact ⟨rfl, by simpa using heffects⟩

/-- **Points are sent**, if no others may take effect. -/
theorem send (h : Writes effects sending j none) (hloose : j.filterMap Entry.loose? = []) :
    Writes effects (some points) j (some points) where
  effects := by
    rw [(h.effects_eq hloose).2, hloose]
    rfl
  idle := by
    rw [hloose]
    exact fun hnil => nomatch hnil

/-- **They were put in**, and have taken effect by then. -/
theorem put (h : Writes effects sending j (some points)) (hloose : j.filterMap Entry.loose? = []) :
    Writes (effects ++ sending.toList) none (j ++ [.heard (.upsert points) (.done (.ok ()))])
      none where
  effects := by
    have heffects := h.effects
    rw [hloose] at heffects
    rw [filterMap_concat, filterMap_concat, hloose, heffects]
    simp [Entry.put?, Entry.loose?]
  idle := fun _ => rfl

/-- **They were not put in**, and have not taken effect. -/
theorem fail {other : List Point} (h : Writes effects (some other) j (some points))
    (hloose : j.filterMap Entry.loose? = []) {e : Entry} (hput : e.put? = none)
    (he : e.loose? = none) : Writes effects none (j ++ [e]) none where
  effects := by
    have heffects := h.effects
    rw [hloose] at heffects
    rw [filterMap_concat, filterMap_concat, hloose, hput, he]
    obtain ⟨hsame, -⟩ := List.append_inj' heffects rfl
    simp [hsame]
  idle := fun _ => rfl

end Writes

/-! ## The journal agrees -/

namespace Workplace

/-- **A journal agrees with what was worked with**, over a buffer with `n` slots,
while points are being put in or none are. -/
structure Agrees (n : Nat) (w : Workplace) (j : List Entry) (sent : Option (List Point)) :
    Prop where
  /-- What was read agrees. -/
  reads : Reads n w.exchange w.ledger j
  /-- The counters are what was counted. -/
  counters : ∀ k, w.counters.get k = j.countP (Entry.counts k)
  /-- If the token was seen to have fired, it has. -/
  stopping : ∀ e ∈ j, e.seesToken = true → w.stopping = true
  /-- What was put in agrees. -/
  writes : Writes w.effects w.sending j sent

variable {n : Nat} {w : Workplace} {j : List Entry} {sent : Option (List Point)}

/-- At the beginning the journal is empty. -/
theorem Agrees.start (n : Nat) : Agrees n { exchange := .ofBuffer (Buffer.empty n) } [] none where
  reads := ⟨.start n, rfl, honest_nil, fun he => nomatch he⟩
  counters := fun k => by cases k <;> rfl
  stopping := fun _ he => nomatch he
  writes := ⟨rfl, fun _ => rfl⟩

theorem counters_concat {c : Counters} (h : ∀ k, c.get k = j.countP (Entry.counts k)) {e : Entry}
    (he : ∀ k, e.counts k = false) (k : Counter) :
    c.get k = (j ++ [e]).countP (Entry.counts k) := by
  rw [List.countP_append, List.countP_cons_of_neg (by rw [he]; exact Bool.false_ne_true)]
  exact h k

theorem stopping_concat (h : ∀ e ∈ j, e.seesToken = true → w.stopping = true) {e : Entry}
    (he : e.seesToken = true → w.stopping = true) :
    ∀ e' ∈ j ++ [e], e'.seesToken = true → w.stopping = true :=
  List.forall_mem_append.mpr ⟨h, List.forall_mem_singleton.mpr he⟩

/-- **An action is carried out**, and written down. -/
theorem Agrees.act (h : Agrees n w j none) (results : (a : Action) → a.Result) (a : Action) :
    Agrees n (w.act results a).1 (j ++ a.entries (w.act results a).2) none := by
  cases a with
  | isStopping =>
    exact ⟨h.reads.add rfl (fun _ he => nomatch he), counters_concat h.counters fun _ => rfl,
      stopping_concat h.stopping id, h.writes.add rfl rfl⟩
  | count counter =>
    refine ⟨h.reads.add rfl (fun _ he => nomatch he), fun k => ?_,
      stopping_concat h.stopping (fun he => nomatch he), h.writes.add rfl rfl⟩
    show (w.counters.add counter).get k = (j ++ [Entry.counted counter]).countP _
    rw [Counters.get_add, h.counters, List.countP_append, List.countP_singleton]
    simp only [Entry.counts, decide_eq_true_eq]
  | dropReader =>
    show Agrees n (w.exchanged .dropReader) (j ++ []) none
    rw [List.append_nil]
    exact ⟨h.reads.exchanged rfl, h.counters, h.stopping, h.writes⟩
  | _ =>
    show Agrees n w (j ++ []) none
    rw [List.append_nil]
    exact h

/-- **A call has ended**, which is nothing that is counted. -/
theorem Agrees.heard (h : Agrees n w j sent) {w' : Workplace} {q : Call} {reply : Attempt q.Reply}
    (hcounters : w'.counters = w.counters) (hstopping : w'.stopping = w.stopping)
    (hreads : Reads n w'.exchange w'.ledger (j ++ [.heard q reply]))
    (hwrites : Writes w'.effects w'.sending (j ++ [.heard q reply]) none) :
    Agrees n w' (j ++ [.heard q reply]) none where
  reads := hreads
  counters := by
    rw [hcounters]
    exact counters_concat h.counters fun _ => rfl
  stopping := by
    rw [hstopping]
    exact stopping_concat h.stopping fun he => nomatch he
  writes := hwrites

/-- What came of serving a call, for the journal. -/
def Answered (n : Nat) (j : List Entry) (q : Call) (after : Workplace × Option (Attempt q.Reply)) :
    Prop :=
  match after.2 with
  | some reply => Agrees n after.1 (j ++ [.heard q reply]) none
  | none => Agrees n after.1 j q.points?

/-- A call that is answered from outside. -/
theorem Agrees.answered (h : Agrees n w j none) {q : Call} (hreceive : q ≠ .receive)
    (hpoints : q.points? = none) (reply : Option (Attempt q.Reply)) :
    Answered n j q (w, reply) := by
  unfold Answered
  rw [hpoints]
  cases reply with
  | none => exact h
  | some reply =>
    have hreceived : (Entry.heard q reply).received? = none := by
      cases q with
      | receive => exact absurd rfl hreceive
      | _ => rfl
    have hput : (Entry.heard q reply).put? = none := by
      cases q with
      | upsert points => exact nomatch hpoints
      | _ => rfl
    exact h.heard rfl rfl (h.reads.add hreceived fun _ he => hreceive (Entry.heard.inj he).1)
      (h.writes.add hput rfl)

/-- **A wait for an item** is answered, or goes on. -/
theorem Agrees.receive (h : Agrees n w j none) :
    Answered n j .receive (w.exchanged .receive, reading (w.exchange.step .receive).2) := by
  unfold Answered
  cases hresult : (w.exchange.step .receive).2 with
  | got item =>
    show Agrees n (w.exchanged .receive) (j ++ [.heard .receive (.done item)]) none
    exact h.heard rfl rfl (h.reads.got hresult) (h.writes.add rfl rfl)
  | _ =>
    show Agrees n (w.exchanged .receive) j none
    exact ⟨h.reads.exchanged (by rw [hresult]; rfl), h.counters, h.stopping, h.writes⟩

/-- **A call that puts points in** is answered as they took effect, or goes on. -/
theorem Agrees.confirm {points : List Point} (h : Agrees n w j (some points))
    (hloose : j.filterMap Entry.loose? = []) (reply : Option (Attempt (Outcome Unit))) :
    Answered n j (.upsert points) (w.confirm reply) := by
  have hreads : ∀ reply, Reads n w.exchange w.ledger (j ++ [.heard (.upsert points) reply]) :=
    fun reply => h.reads.add rfl fun _ he => nomatch he
  have hfails : ∀ reply, (Entry.heard (.upsert points) reply).put? = none →
      Answered n j (.upsert points)
        (if w.sending.isSome then ({ w with sending := none }, some reply) else (w, none)) := by
    intro reply hput
    cases hsending : w.sending with
    | none => exact h
    | some other =>
      exact h.heard rfl rfl (hreads reply) ((hsending ▸ h.writes).fail hloose hput rfl)
  rcases reply with _ | ((f | ⟨⟩) | text)
  · exact h
  · exact hfails (.done (.error f)) rfl
  · exact h.heard rfl rfl (hreads _) (h.writes.put hloose)
  · exact hfails (.brokenOff text) rfl

/-- **However a call is served**, the journal agrees. -/
theorem Agrees.serve {again : Bool} {q : Call}
    (h : Agrees n w j (if again then q.points? else none))
    (hloose : j.filterMap Entry.loose? = []) (outside : Outside) :
    Answered n j q (w.serve again outside q) := by
  have hother : q.points? = none → Agrees n w j none := by
    intro hpoints
    rw [hpoints, ite_self] at h
    exact h
  cases q with
  | receive => exact (hother rfl).receive
  | upsert points =>
    cases again with
    | true => exact Agrees.confirm h hloose _
    | false =>
      have hsent : Agrees n { w with sending := some points } j (some points) :=
        ⟨h.reads, h.counters, h.stopping, h.writes.send hloose⟩
      exact hsent.confirm hloose _
  | _ => exact Agrees.answered (hother rfl) (fun hq => by cases hq) rfl _

/-- **A call is given up**, and with it what is known of the points it puts in. -/
theorem Agrees.giveUp {q : Call} (h : Agrees n w j q.points?) (hstop : w.stopping = true) :
    Agrees n w (j ++ [.gaveUp q]) none := by
  refine ⟨h.reads.add rfl (fun _ he => nomatch he), counters_concat h.counters fun _ => rfl,
    stopping_concat h.stopping fun _ => hstop, h.writes.add rfl ?_⟩
  cases q <;> rfl

end Workplace

end IncidentMemory
