import IncidentMemory.Proofs.Work
import IncidentMemory.Proofs.Workplace

/-!
# The worker's accounts

In a `Shift` the worker goes on by one action or one call at a time, while others
write to its exchange, the token fires, and points that were put in take effect.
All this may happen at any moment, and every call may be answered in any way, at
once, late, or never.

What is left of the worker's routine is at every moment such that the journal so
far can be completed to one of the worker, and agrees with what the worker works
with (`Shift.Sound`). When the worker has ended, the journal is therefore one of
`Consolidator.Drained`, and the accounts follow (`Shift.orderly_run`): what was
received is what was stored, known, skipped or failed, and possibly one item more
that was abandoned.
-/

namespace IncidentMemory

open Routine

/-- The call that a routine begins with. -/
def Routine.asked? {α : Type} : Routine α → Option Call
  | .call q _ => some q
  | .watch q _ _ => some q
  | _ => none

/-- **A worker at work.** -/
structure Shift where
  /-- What it works with. -/
  place : Workplace
  /-- What is left to do. -/
  routine : Routine Unit
  /-- Whether it waits for the call that this begins with. -/
  waiting : Bool := false
  /-- What was written down so far. -/
  journal : List Entry := []

namespace Shift

/-- What may happen next. -/
inductive Move where
  /-- Others do something with the exchange. -/
  | elsewhere (step : ExchangeStep Resolution)
  /-- The token fires. -/
  | fire
  /-- Points that were put in take effect. -/
  | land
  /-- The worker goes on. -/
  | go (outside : Outside) (results : (a : Action) → a.Result)

/-- Goes on with the answer to a call, or waits for it. -/
def hear (s : Shift) (q : Call) (next : Attempt q.Reply → Routine Unit) :
    Workplace × Option (Attempt q.Reply) → Shift
  | (w, some reply) =>
    { place := w, routine := next reply, journal := s.journal ++ [.heard q reply] }
  | (w, none) => { s with place := w, waiting := true }

/-- **Goes on by one action or one call.** The token is looked at before a call
that waits under it is made again. -/
def go (s : Shift) (outside : Outside) (results : (a : Action) → a.Result) : Shift :=
  match s.routine with
  | .done _ | .brokenOff _ => s
  | .act a next =>
    let (w, res) := s.place.act results a
    { place := w, routine := next res, journal := s.journal ++ a.entries res }
  | .call q next => s.hear q next (s.place.serve s.waiting outside q)
  | .watch q next stopped =>
    if s.waiting && s.place.stopping then
      { place := s.place, routine := stopped, journal := s.journal ++ [.gaveUp q] }
    else s.hear q next (s.place.serve s.waiting outside q)

/-- **Makes a move.** -/
def move (s : Shift) : Move → Shift
  | .elsewhere step =>
    if step.isReading then s else { s with place := s.place.exchanged step }
  | .fire => { s with place := { s.place with stopping := true } }
  | .land => { s with place := s.place.land }
  | .go outside results => s.go outside results

/-- **Makes moves one after another.** -/
def run (s : Shift) : List Move → Shift
  | [] => s
  | m :: ms => (s.move m).run ms

/-- A worker that begins, over a buffer. -/
def start (c : Consolidator) (most : Nat) (b : Buffer Resolution) : Shift where
  place := { exchange := .ofBuffer b }
  routine := c.work most

/-! ## What every move keeps -/

/-- The points that are being put in. -/
def underWay (s : Shift) : Option (List Point) :=
  if s.waiting then s.routine.asked?.bind Call.points? else none

/-- **A shift in good order**, of a worker that may take a number of items from a
buffer with `n` slots. -/
structure Sound (c : Consolidator) (most n : Nat) (s : Shift) : Prop where
  /-- What is left completes the journal to one of the worker. -/
  ahead : ∀ j o, s.routine.Runs j o → (c.work most).Runs (s.journal ++ j) o
  /-- The journal agrees with what was worked with. -/
  agrees : s.place.Agrees n s.journal s.underWay

variable {c : Consolidator} {most n : Nat} {s : Shift}

theorem sound_start (c : Consolidator) (most n : Nat) :
    Sound c most n (start c most (Buffer.empty n)) where
  ahead := fun _ _ h => h
  agrees := .start n

/-- A routine that begins with a call has a run with an entry about it, which is not one
about the token. -/
theorem exists_runs_cons {r : Routine Unit} {q : Call} (h : r.asked? = some q) :
    ∃ e j o, (∀ fired, e ≠ .looked fired) ∧ Honest (e :: j) ∧ r.Runs (e :: j) o := by
  obtain ⟨j, o, hj, hruns⟩ := exists_runs r
  cases r with
  | call q next =>
    obtain ⟨reply, rest, rfl, -⟩ := id hruns
    exact ⟨.heard q reply, rest, o, nofun, hj, hruns⟩
  | watch q next stopped =>
    rcases id hruns with ⟨reply, rest, rfl, -⟩ | ⟨rest, rfl, -⟩
    · exact ⟨.heard q reply, rest, o, nofun, hj, hruns⟩
    · exact ⟨.gaveUp q, rest, o, nofun, hj, hruns⟩
  | _ => exact nomatch h

/-- The journal of a worker, complete. -/
theorem Sound.drained (hs : Sound c most n s) {j : List Entry} {o : Attempt Unit} (hj : Honest j)
    (hruns : s.routine.Runs j o) : o = .done () ∧ ∃ items closing, c.Drained most items closing
      ∧ s.journal ++ j = Consolidator.journalOf items closing :=
  Consolidator.runs_work (hs.ahead j o hruns) (honest_append.mpr ⟨hs.agrees.reads.honest, hj⟩)

/-- After a shutdown was noticed there is nothing, and nothing is left to come. -/
theorem Sound.append_eq_nil (hs : Sound c most n s) {before after j : List Entry} {e : Entry}
    {o : Attempt Unit} (hj : Honest j) (hruns : s.routine.Runs j o)
    (hjournal : s.journal = before ++ e :: after) (he : e.tellsStop = true) : after ++ j = [] := by
  obtain ⟨-, items, closing, hdrained, hall⟩ := hs.drained hj hruns
  have hsplit : Consolidator.journalOf items closing = before ++ e :: (after ++ j) := by
    rw [← hall, hjournal, List.append_assoc, List.cons_append]
  rcases hdrained.stops with hstops | ⟨hcalm, -⟩
  · exact hstops.last hsplit he
  · have hcalm' := hcalm e (by rw [hsplit]; exact List.mem_append_right _ List.mem_cons_self)
    exact absurd (he.symm.trans hcalm') Bool.true_eq_false.mp

/-- **Nothing comes after a shutdown was noticed.** -/
theorem Sound.last (hs : Sound c most n s) {before after : List Entry} {e : Entry}
    (hjournal : s.journal = before ++ e :: after) (he : e.tellsStop = true) : after = [] := by
  obtain ⟨j, o, hj, hruns⟩ := exists_runs s.routine
  exact (List.append_eq_nil_iff.mp (hs.append_eq_nil hj hruns hjournal he)).1

/-- **A worker with a call to make has given none up**, so nothing is known to be
open. -/
theorem Sound.loose (hs : Sound c most n s) {q : Call} (hq : s.routine.asked? = some q) :
    s.journal.filterMap Entry.loose? = [] := by
  obtain ⟨next, j, o, -, hj, hruns⟩ := exists_runs_cons hq
  refine List.filterMap_eq_nil_iff.mpr fun e he => ?_
  cases hloose : e.loose? with
  | none => rfl
  | some points =>
    obtain rfl := Entry.eq_of_loose hloose
    obtain ⟨before, after, hjournal⟩ := List.append_of_mem he
    have hnil := hs.append_eq_nil hj hruns hjournal rfl
    exact absurd (List.append_eq_nil_iff.mp hnil).2 (List.cons_ne_nil _ _)

/-- **A call is made**, for the first time or again. -/
theorem Sound.hear (hs : Sound c most n s) {q : Call} {next : Attempt q.Reply → Routine Unit}
    (hq : s.routine.asked? = some q)
    (hnext : ∀ reply j o, (next reply).Runs j o → s.routine.Runs (.heard q reply :: j) o)
    (outside : Outside) :
    Sound c most n (s.hear q next (s.place.serve s.waiting outside q)) := by
  have hagrees := hs.agrees
  unfold underWay at hagrees
  rw [hq] at hagrees
  have hserved := hagrees.serve (hs.loose hq) outside
  unfold Workplace.Answered at hserved
  generalize s.place.serve s.waiting outside q = after at hserved ⊢
  rcases after with ⟨w, _ | reply⟩
  · refine ⟨hs.ahead, ?_⟩
    unfold underWay Shift.hear
    dsimp only
    rw [if_pos rfl, hq]
    exact hserved
  · refine ⟨fun j o hruns => ?_, hserved⟩
    show (c.work most).Runs (s.journal ++ [_] ++ j) o
    rw [List.append_assoc]
    exact hs.ahead _ o (hnext reply j o hruns)

/-- **Whatever the worker does next**, the shift remains in good order. -/
theorem Sound.go (hs : Sound c most n s) (outside : Outside) (results : (a : Action) → a.Result) :
    Sound c most n (s.go outside results) := by
  have hagrees := hs.agrees
  unfold Shift.go
  cases hr : s.routine with
  | done a => exact hs
  | brokenOff text => exact hs
  | act a next =>
    have hnone : s.underWay = none := by
      unfold underWay
      rw [hr]
      split <;> rfl
    rw [hnone] at hagrees
    refine ⟨fun j o hruns => ?_, hagrees.act results a⟩
    dsimp only at hruns ⊢
    rw [List.append_assoc]
    exact hs.ahead _ o (by rw [hr]; exact ⟨_, j, rfl, hruns⟩)
  | call q next =>
    exact hs.hear (by rw [hr]; rfl)
      (fun reply j o hruns => by rw [hr]; exact ⟨reply, j, rfl, hruns⟩) outside
  | watch q next stopped =>
    dsimp only
    split
    · next hstop =>
      -- the token has fired while the call was waited for
      obtain ⟨hwaiting, hstopping⟩ := Bool.and_eq_true_iff.mp hstop
      unfold underWay at hagrees
      rw [if_pos hwaiting, hr] at hagrees
      refine ⟨fun j o hruns => ?_, hagrees.giveUp hstopping⟩
      dsimp only at hruns ⊢
      rw [List.append_assoc]
      exact hs.ahead _ o (by rw [hr]; exact Or.inr ⟨j, rfl, hruns⟩)
    · exact hs.hear (by rw [hr]; rfl)
        (fun reply j o hruns => by rw [hr]; exact Or.inl ⟨reply, j, rfl, hruns⟩) outside

/-- **Every move keeps the order.** -/
theorem Sound.move (hs : Sound c most n s) (m : Move) : Sound c most n (s.move m) := by
  obtain ⟨hahead, hagrees⟩ := hs
  cases m with
  | elsewhere step =>
    unfold Shift.move
    dsimp only
    split
    · exact ⟨hahead, hagrees⟩
    · next hreading =>
      have hothers := s.place.ledger.received_note (eq_false_of_ne_true hreading)
      exact ⟨hahead, ⟨hagrees.reads.exchanged (hothers _), hagrees.counters, hagrees.stopping,
        hagrees.writes⟩⟩
  | fire =>
    exact ⟨hahead, ⟨hagrees.reads, hagrees.counters, fun _ _ _ => rfl, hagrees.writes⟩⟩
  | land =>
    exact ⟨hahead, ⟨hagrees.reads, hagrees.counters, hagrees.stopping, hagrees.writes.land⟩⟩
  | go outside results => exact Sound.go ⟨hahead, hagrees⟩ outside results

/-- **Every run keeps the order.** -/
theorem Sound.run (hs : Sound c most n s) (ms : List Move) : Sound c most n (s.run ms) := by
  induction ms generalizing s with
  | nil => exact hs
  | cons m ms ih => exact ih (hs.move m)

/-! ## How much is written down -/

/-- **With every move there is at most one entry more**, and one about the token says whether
that has fired. -/
theorem journal_move (s : Shift) (m : Move) : (s.move m).journal = s.journal
    ∨ ∃ e, (s.move m).journal = s.journal ++ [e]
      ∧ ∀ fired, e = .looked fired → fired = s.place.stopping := by
  have hhear : ∀ {q : Call} (next : Attempt q.Reply → Routine Unit) after,
      (s.hear q next after).journal = s.journal
        ∨ ∃ e, (s.hear q next after).journal = s.journal ++ [e]
          ∧ ∀ fired, e = .looked fired → fired = s.place.stopping := by
    rintro q next ⟨w, _ | reply⟩
    · exact Or.inl rfl
    · exact Or.inr ⟨_, rfl, nofun⟩
  cases m with
  | elsewhere step =>
    unfold move
    dsimp only
    split <;> exact Or.inl rfl
  | go outside results =>
    show (s.go outside results).journal = _ ∨ ∃ e, (s.go outside results).journal = _ ∧ _
    unfold go
    split
    · exact Or.inl rfl
    · exact Or.inl rfl
    · next a next _ =>
      cases a with
      | isStopping => exact Or.inr ⟨_, rfl, fun fired h => (Entry.looked.inj h).symm⟩
      | count counter => exact Or.inr ⟨_, rfl, nofun⟩
      | _ => exact Or.inl (List.append_nil _)
    · exact hhear _ _
    · split
      · exact Or.inr ⟨_, rfl, nofun⟩
      · exact hhear _ _
  | _ => exact Or.inl rfl

theorem length_journal_move (s : Shift) (m : Move) :
    (s.move m).journal.length ≤ s.journal.length + 1 := by
  rcases s.journal_move m with h | ⟨e, h, -⟩
  · rw [h]
    exact Nat.le_succ _
  · rw [h]
    exact Nat.le_of_eq List.length_append

theorem length_journal_run (s : Shift) (ms : List Move) :
    (s.run ms).journal.length ≤ s.journal.length + ms.length := by
  induction ms generalizing s with
  | nil => exact Nat.le_refl _
  | cons m ms ih =>
    have hmove := s.length_journal_move m
    have hrun := ih (s.move m)
    rw [List.length_cons]
    show ((s.move m).run ms).journal.length ≤ _
    omega

/-- What was received is in the journal. -/
theorem Sound.received_le (hs : Sound c most n s) :
    s.place.ledger.received.length ≤ s.journal.length := by
  rw [hs.agrees.reads.received]
  exact List.length_filterMap_le _ _

/-! ## The accounts -/

/-- **The accounts of a worker that has ended**, by the items that it took. -/
structure Accounted (c : Consolidator) (most : Nat) (s : Shift) (items : List (Item c)) : Prop where
  /-- Its journal is what was written down about the items, and about the end. -/
  journal : ∃ closing, c.Drained most items closing
    ∧ s.journal = Consolidator.journalOf items closing
  /-- It has received their resolutions, in this order. -/
  received : s.place.ledger.received = items.map Item.resolution
  /-- It has counted as many. -/
  counted : s.place.counters.received = items.length
  /-- Of these it has stored, known, skipped, failed or abandoned every one. -/
  balance : s.place.counters.received = s.place.counters.stored + s.place.counters.duplicates
    + s.place.counters.skipped + s.place.counters.failed + items.countP (·.upshot.isAbandoned)
  /-- It has abandoned one at most, and that was the last. -/
  abandoned : items.countP (·.upshot.isAbandoned) ≤ 1
    ∧ ∀ i ∈ items.dropLast, i.upshot.isAbandoned = false
  /-- It has put in the record of an item if this counts as stored, and else
  nothing. -/
  puts : ∀ i ∈ items, (i.upshot.counter? ≠ some .stored ∧ i.puts = [])
    ∨ i.upshot.counter? = some .stored
      ∧ ∃ e now, i.puts = [[(c.recordOf i.resolution e now).toPoint]]
  /-- It has put in as many records as it has counted. -/
  stored : (items.flatMap Item.puts).length = s.place.counters.stored
  /-- These have taken effect in the order of the items, and one more may have, if
  the last item was abandoned while its record was being put in. -/
  effects : s.place.effects = items.flatMap Item.puts
    ∨ ∃ i e now, items.getLast? = some i ∧ i.upshot = none
      ∧ .gaveUp (.upsert [(c.recordOf i.resolution e now).toPoint]) ∈ i.told
      ∧ s.place.effects = items.flatMap Item.puts ++ [[(c.recordOf i.resolution e now).toPoint]]
  /-- If the token has not fired and no call has reported a cancellation, it has
  received everything that was accepted, or as much as it may. -/
  exhausted : s.place.stopping = false → (∀ e ∈ s.journal, e.isCancellation = false) →
    s.place.ledger.received.map some = s.place.ledger.items s.place.ledger.accepted
      ∨ s.place.ledger.received.length = most

/-- **What is true of a worker at every moment**, and what its accounts are when it
has ended. -/
structure Orderly (c : Consolidator) (most : Nat) (s : Shift) : Prop where
  /-- Nothing is received, counted or asked for after a shutdown was noticed. -/
  last : ∀ before e after, s.journal = before ++ e :: after → e.tellsStop = true → after = []
  /-- The worker does not break off. -/
  unbroken : ∀ text, s.routine ≠ .brokenOff text
  /-- When it has ended the accounts are in order. -/
  accounted : s.routine = .done () → ∃ items, Accounted c most s items

/-- If the token has not fired, and no call has reported a cancellation, the worker
ends when there is nothing to receive any more. -/
theorem Sound.exhausted (hs : Sound c most n s) {items : List (Item c)} {closing : List Entry}
    (hdrained : c.Drained most items closing)
    (hjournal : s.journal = Consolidator.journalOf items closing)
    (hstopping : s.place.stopping = false) (hcancel : ∀ e ∈ s.journal, e.isCancellation = false) :
    s.place.ledger.received.map some = s.place.ledger.items s.place.ledger.accepted
      ∨ items.length = most := by
  rcases hdrained.stops with ⟨calm, e, hall, -, he⟩ | ⟨-, hlength | hmem⟩
  · -- the shutdown that was noticed is one of the two that there were not
    have hmem : e ∈ s.journal := by
      rw [hjournal, hall]
      exact List.mem_append_right _ List.mem_cons_self
    rcases Bool.or_eq_true_iff.mp he with htoken | hreply
    · exact absurd ((hs.agrees.stopping e hmem htoken).symm.trans hstopping) Bool.true_eq_false.mp
    · exact absurd (hreply.symm.trans (hcancel e hmem)) Bool.true_eq_false.mp
  · exact Or.inr hlength
  · exact Or.inl (hs.agrees.reads.exhausted (hjournal ▸ hmem)).received

/-- **What has taken effect when nothing is being put in**: what was put in for the
items, and perhaps the record with which the last was abandoned. -/
theorem Sound.effects (hs : Sound c most n s) {items : List (Item c)} {closing : List Entry}
    (hdrained : c.Drained most items closing)
    (hjournal : s.journal = Consolidator.journalOf items closing) (hsent : s.underWay = none) :
    s.place.effects = items.flatMap Item.puts
      ∨ ∃ i e now, items.getLast? = some i ∧ i.upshot = none
        ∧ .gaveUp (.upsert [(c.recordOf i.resolution e now).toPoint]) ∈ i.told
        ∧ s.place.effects
          = items.flatMap Item.puts ++ [[(c.recordOf i.resolution e now).toPoint]] := by
  have hwrites := hs.agrees.writes
  rw [hsent, hjournal] at hwrites
  rcases hdrained.loose with hnone | ⟨i, e, now, hlast, hgivenUp, htold, hloose⟩
  · exact Or.inl ((hwrites.effects_eq hnone).2.trans hdrained.put)
  · have heffects := hwrites.effects
    rw [hloose, hdrained.put] at heffects
    cases hsending : s.place.sending with
    | none =>
      rw [hsending] at heffects
      exact Or.inr ⟨i, e, now, hlast, hgivenUp, htold, (List.append_nil _).symm.trans heffects⟩
    | some points =>
      rw [hsending] at heffects
      exact Or.inl (List.append_inj' heffects rfl).1

/-- **When the worker has ended its accounts are in order.** -/
theorem Sound.accounted (hs : Sound c most n s) (hr : s.routine = .done ()) :
    ∃ items, Accounted c most s items := by
  obtain ⟨-, items, closing, hdrained, hall⟩ :=
    hs.drained (j := []) (o := .done ()) honest_nil (by rw [hr]; exact ⟨rfl, rfl⟩)
  rw [List.append_nil] at hall
  have hreceived : s.place.ledger.received = items.map Item.resolution := by
    rw [hs.agrees.reads.received, hall, hdrained.received]
  have hcount : ∀ k, s.place.counters.get k
      = (if k = .received then items.length else 0)
        + items.countP (·.upshot.counter? = some k) := by
    intro k
    rw [hs.agrees.counters, hall, hdrained.countP_journal]
  have hcounted : s.place.counters.received = items.length := by
    refine (hcount .received).trans ?_
    rw [if_pos rfl, Consolidator.countP_received]
    rfl
  have hsettled : ∀ k ≠ .received, s.place.counters.get k
      = items.countP (·.upshot.counter? = some k) := by
    intro k hk
    rw [hcount, if_neg hk, Nat.zero_add]
  have hsent : s.underWay = none := by
    unfold underWay
    rw [hr]
    split <;> rfl
  refine ⟨items, ⟨closing, hdrained, hall⟩, hreceived, hcounted, ?_, hdrained.countP_isAbandoned,
    fun i hi => ?_, ?_, hs.effects hdrained hall hsent, fun hstopping hcancel => ?_⟩
  · rw [hcounted, Consolidator.length_eq_add items, ← hsettled .stored (by decide),
      ← hsettled .duplicates (by decide), ← hsettled .skipped (by decide),
      ← hsettled .failed (by decide)]
    rfl
  · rcases i.isTold.stores with ⟨hputs, -, hcounter⟩ | ⟨e, now, hputs, -, hcounter⟩
      | ⟨e, now, hputs, -, hgivenUp⟩
    · exact Or.inl ⟨hcounter, hputs⟩
    · exact Or.inr ⟨hcounter, e, now, hputs⟩
    · refine Or.inl ⟨?_, hputs⟩
      rw [hgivenUp]
      exact fun h => nomatch h
  · rw [Consolidator.length_flatMap_puts]
    exact (hsettled .stored (by decide)).symm
  · refine (hs.exhausted hdrained hall hstopping hcancel).imp id fun hlength => ?_
    rw [hreceived, List.length_map, hlength]

theorem Sound.orderly (hs : Sound c most n s) : Orderly c most s where
  last := fun _ _ _ hjournal he => hs.last hjournal he
  unbroken := by
    intro text hr
    obtain ⟨ho, -⟩ := hs.drained (j := []) (o := .brokenOff text) honest_nil
      (by rw [hr]; exact ⟨rfl, rfl⟩)
    exact nomatch ho
  accounted := hs.accounted

/-- **The worker's accounts are in order.** Whatever is written to the exchange and
by whom, however embedder and store answer, wherever they break off and wherever
the token fires, and whenever what was put in takes effect: nothing comes after a
shutdown was noticed, and when the worker has ended every resolution that it has
received is accounted for. It receives at most one with each move, so it ends
because of `most` only after as many moves. -/
theorem orderly_run (c : Consolidator) (most capacity : Nat) (b : Buffer Resolution)
    (hb : (Buffer.create capacity).value = .done b) (moves : List Move) :
    Orderly c most ((start c most b).run moves)
      ∧ ((start c most b).run moves).place.ledger.received.length ≤ moves.length := by
  obtain ⟨n, rfl⟩ := Buffer.create_done hb
  have hsound := (sound_start c most n).run moves
  have hjournal := length_journal_run (start c most (Buffer.empty n)) moves
  rw [show (start c most (Buffer.empty n)).journal.length = 0 from rfl, Nat.zero_add] at hjournal
  exact ⟨hsound.orderly, Nat.le_trans hsound.received_le hjournal⟩

/-- A consolidator that takes vectors of one dimension. -/
def sampleConsolidator : Consolidator where
  settings := ⟨.one, 1, false⟩
  collection := "memories"

/-- Embeddings are computed and nothing is similar, but nobody says what becomes of
the record of the incident `c`. -/
def sampleOutside : Outside
  | .embed _ => some (.done (.ok [.one]))
  | .search .. => some (.done (.ok []))
  | .upsert points => if points.any (·.id = "c") then none else some (.done (.ok ()))
  | _ => none

/-- What others know about actions. -/
def sampleResults : (a : Action) → a.Result
  | .log _ | .stop | .count _ | .setWorkerState _ | .dropReader | .spawn _ => ()
  | .now => ⟨0, 0⟩
  | .isStopping | .takeReader | .takeSupervisor => false
  | .counters => {}
  | .workerState => .idle
  | .buffered | .bufferCapacity => 0

/-- Three resolutions are written. The log of the first is blank, the second is
stored, and the token fires while the third is put in, which takes effect all the
same. -/
def firedWhileStoring : List Move :=
  [.elsewhere (.write 0 0 ⟨"a", "prod", "default", " ", "restart"⟩),
    .elsewhere (.write 0 0 ⟨"b", "prod", "default", "oom killed", "raise the limit"⟩),
    .elsewhere (.write 0 0 ⟨"c", "prod", "default", "oom killed", "raise the limit"⟩)]
    ++ List.replicate 26 (.go sampleOutside sampleResults) ++ [.fire]
    ++ List.replicate 4 (.go sampleOutside sampleResults) ++ [.land]

/-- Three were received, of which one was stored, one skipped and one abandoned, and
two have taken effect. -/
theorem orderly_run_firedWhileStoring :
    (Buffer.create 4 : Log.Reported (Attempt (Buffer Resolution))).value = .done (Buffer.empty 4)
      ∧ Orderly sampleConsolidator Consolidator.mostReceived
        ((start sampleConsolidator Consolidator.mostReceived (Buffer.empty 4)).run
          firedWhileStoring)
      ∧ ((start sampleConsolidator Consolidator.mostReceived (Buffer.empty 4)).run
          firedWhileStoring).routine = .done ()
      ∧ ((start sampleConsolidator Consolidator.mostReceived (Buffer.empty 4)).run
          firedWhileStoring).place.counters = ⟨3, 1, 0, 1, 0⟩
      ∧ ((start sampleConsolidator Consolidator.mostReceived (Buffer.empty 4)).run
          firedWhileStoring).place.effects.length = 2 :=
  ⟨rfl, (orderly_run sampleConsolidator Consolidator.mostReceived 4 (Buffer.empty 4) rfl
    firedWhileStoring).1, by rfl, by decide +kernel, by decide +kernel⟩

end Shift

end IncidentMemory
