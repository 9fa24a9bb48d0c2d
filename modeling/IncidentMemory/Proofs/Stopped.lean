import IncidentMemory.Proofs.Shift

/-!
# A worker that is stopped

Before the worker takes an item it looks at the token. So if the token has fired
before the worker has looked at it, the journal is at most that look, nothing is
received, and nothing takes effect (`Shift.Sound.nothing`); and it remains so
whatever happens (`Shift.Dark.move`).

A worker that has ended makes no call any more. Others may go on to write, but
nothing is received or put in (`Shift.still_move`). What was given up before that
may take effect, and nothing else.
-/

namespace IncidentMemory

open Routine

/-- Whether there is nothing left of a routine. -/
def Routine.isOver {α : Type} : Routine α → Bool
  | .done _ | .brokenOff _ => true
  | _ => false

/-! ## A worker that finds the token fired -/

namespace Workplace

variable (w : Workplace)

@[simp] theorem act_stopping (results : (a : Action) → a.Result) (a : Action) :
    (w.act results a).1.stopping = w.stopping := by
  cases a <;> rfl

@[simp] theorem serve_stopping (again : Bool) (outside : Outside) (q : Call) :
    (w.serve again outside q).1.stopping = w.stopping := by
  have hconfirm : ∀ (w : Workplace) reply, (w.confirm reply).1.stopping = w.stopping := by
    rintro w (_ | ((f | ⟨⟩) | text))
    · rfl
    · unfold confirm
      dsimp only
      split <;> rfl
    · rfl
    · unfold confirm
      dsimp only
      split <;> rfl
  cases q with
  | upsert points =>
    refine (hconfirm _ _).trans ?_
    split <;> rfl
  | _ => rfl

end Workplace

namespace Shift

variable {c : Consolidator} {most n : Nat} {s : Shift}

/-- **A worker whose token has fired before it looked.** -/
structure Dark (s : Shift) : Prop where
  /-- The token has fired. -/
  stopping : s.place.stopping = true
  /-- The worker has never seen that it had not. -/
  unseen : .looked false ∉ s.journal

theorem hear_stopping (s : Shift) (outside : Outside) (q : Call)
    (next : Attempt q.Reply → Routine Unit) :
    (s.hear q next (s.place.serve s.waiting outside q)).place.stopping = s.place.stopping := by
  have hserve := s.place.serve_stopping s.waiting outside q
  generalize s.place.serve s.waiting outside q = after at hserve ⊢
  rcases after with ⟨w, _ | reply⟩ <;> exact hserve

/-- The token only fires. -/
theorem stopping_move (h : s.place.stopping = true) (m : Move) :
    (s.move m).place.stopping = true := by
  cases m with
  | elsewhere step =>
    unfold move
    dsimp only
    split <;> exact h
  | fire => rfl
  | land => exact h
  | go outside results =>
    show (s.go outside results).place.stopping = true
    unfold go
    split
    · exact h
    · exact h
    · exact (Workplace.act_stopping _ _ _).trans h
    · exact (hear_stopping _ _ _ _).trans h
    · split
      · exact h
      · exact (hear_stopping _ _ _ _).trans h

/-- **It remains so.** -/
theorem Dark.move (h : s.Dark) (m : Move) : (s.move m).Dark := by
  refine ⟨stopping_move h.stopping m, ?_⟩
  rcases s.journal_move m with hsame | ⟨e, hmore, hlooked⟩
  · rw [hsame]
    exact h.unseen
  · rw [hmore]
    intro hmem
    rcases List.mem_append.mp hmem with hmem | hmem
    · exact h.unseen hmem
    · -- a look at the token finds that it has fired
      have hfired := hlooked false (List.mem_singleton.mp hmem).symm
      exact absurd (hfired.trans h.stopping) Bool.false_ne_true

/-- What was written down begins with a look at the token, and that is all if it had fired. -/
theorem journalOf_begins {items : List (Item c)} {closing : List Entry}
    (h : c.Drained most items closing) : Consolidator.journalOf items closing = []
      ∨ Consolidator.journalOf items closing = [.looked true]
      ∨ ∃ rest, Consolidator.journalOf items closing = .looked false :: rest := by
  cases h with
  | full => exact Or.inl rfl
  | closed h =>
    cases h with
    | stopped => exact Or.inr (Or.inl rfl)
    | gaveUp => exact Or.inr (Or.inr ⟨_, rfl⟩)
    | exhausted => exact Or.inr (Or.inr ⟨_, rfl⟩)
  | abandoned => exact Or.inr (Or.inr ⟨_, rfl⟩)
  | settled => exact Or.inr (Or.inr ⟨_, rfl⟩)

/-- A worker that has not seen the token unfired has seen nothing else but that it fired. -/
theorem Sound.journal_of_unseen (hs : Sound c most n s) (hunseen : .looked false ∉ s.journal)
    {j : List Entry} {o : Attempt Unit} (hj : Honest j) (hruns : s.routine.Runs j o) :
    s.journal = [] ∧ (j = [] ∨ ∃ fired rest, j = .looked fired :: rest)
      ∨ s.journal = [.looked true] ∧ j = [] := by
  obtain ⟨-, items, closing, hdrained, hall⟩ := hs.drained hj hruns
  cases hjournal : s.journal with
  | nil =>
    refine Or.inl ⟨rfl, ?_⟩
    rw [hjournal, List.nil_append] at hall
    rw [hall]
    rcases journalOf_begins hdrained with hnil | hstopped | ⟨rest, hrest⟩
    · exact Or.inl hnil
    · exact Or.inr ⟨true, [], hstopped⟩
    · exact Or.inr ⟨false, rest, hrest⟩
  | cons e before =>
    refine Or.inr ?_
    rw [hjournal, List.cons_append] at hall
    rcases journalOf_begins hdrained with hnil | hstopped | ⟨rest, hrest⟩
    · exact absurd (hall.trans hnil) (List.cons_ne_nil _ _)
    · obtain ⟨rfl, hnil⟩ := List.cons_eq_cons.mp (hall.trans hstopped)
      obtain ⟨rfl, rfl⟩ := List.append_eq_nil_iff.mp hnil
      exact ⟨rfl, rfl⟩
    · obtain ⟨rfl, -⟩ := List.cons_eq_cons.mp (hall.trans hrest)
      exact absurd (hjournal ▸ List.mem_cons_self) hunseen

/-- **A worker that finds the token fired receives nothing, and nothing takes effect.** -/
theorem Sound.nothing (hs : Sound c most n s) (hunseen : .looked false ∉ s.journal) :
    s.place.ledger.received = [] ∧ s.place.effects = [] := by
  obtain ⟨j, o, hj, hruns⟩ := exists_runs s.routine
  have hjournal : s.journal = [] ∨ s.journal = [.looked true] :=
    (hs.journal_of_unseen hunseen hj hruns).imp And.left And.left
  have hsent : s.underWay = none := by
    -- a call would come after a look at the token
    unfold underWay
    cases hq : s.routine.asked? with
    | none => exact ite_self none
    | some q =>
      obtain ⟨e, j, o, he, hj, hruns⟩ := exists_runs_cons hq
      rcases hs.journal_of_unseen hunseen hj hruns with ⟨-, hnil | ⟨fired, rest, hrest⟩⟩ | ⟨-, hnil⟩
      · exact absurd hnil (List.cons_ne_nil _ _)
      · exact absurd (List.cons_eq_cons.mp hrest).1 (he fired)
      · exact absurd hnil (List.cons_ne_nil _ _)
  have hwrites := hs.agrees.writes
  rw [hsent] at hwrites
  rcases hjournal with hjournal | hjournal
  · rw [hs.agrees.reads.received, hjournal]
    rw [hjournal] at hwrites
    exact ⟨rfl, (hwrites.effects_eq rfl).2⟩
  · rw [hs.agrees.reads.received, hjournal]
    rw [hjournal] at hwrites
    exact ⟨rfl, (hwrites.effects_eq rfl).2⟩

/-! ## A worker that has ended -/

theorem underWay_of_isOver (h : s.routine.isOver = true) : s.underWay = none := by
  unfold underWay
  cases hr : s.routine with
  | done a => exact ite_self none
  | brokenOff text => exact ite_self none
  | _ => rw [hr] at h; exact nomatch h

/-- **That a worker has done nothing in between.** -/
structure Still (s s' : Shift) : Prop where
  /-- It has as much left to do. -/
  routine : s'.routine = s.routine
  /-- It has written nothing down. -/
  journal : s'.journal = s.journal
  /-- It has received nothing, -/
  received : s'.place.ledger.received = s.place.ledger.received
  /-- counted nothing -/
  counters : s'.place.counters = s.place.counters
  /-- and put nothing in: what has taken effect or still may is the same. -/
  effects : s'.place.effects ++ s'.place.sending.toList
    = s.place.effects ++ s.place.sending.toList

theorem Still.refl (s : Shift) : Still s s :=
  ⟨rfl, rfl, rfl, rfl, rfl⟩

theorem Still.trans {s s' s'' : Shift} (h : Still s s') (h' : Still s' s'') : Still s s'' where
  routine := h'.routine.trans h.routine
  journal := h'.journal.trans h.journal
  received := h'.received.trans h.received
  counters := h'.counters.trans h.counters
  effects := h'.effects.trans h.effects

theorem go_of_isOver (h : s.routine.isOver = true) (outside : Outside)
    (results : (a : Action) → a.Result) : s.go outside results = s := by
  unfold go
  cases hr : s.routine with
  | done a => rfl
  | brokenOff text => rfl
  | _ => rw [hr] at h; exact nomatch h

/-- **A worker that has ended does nothing**, whatever happens. -/
theorem still_move (h : s.routine.isOver = true) (m : Move) : Still s (s.move m) := by
  cases m with
  | elsewhere step =>
    unfold move
    dsimp only
    split
    · exact Still.refl s
    · next hreading =>
      exact ⟨rfl, rfl, s.place.ledger.received_note (eq_false_of_ne_true hreading) _, rfl, rfl⟩
  | fire => exact ⟨rfl, rfl, rfl, rfl, rfl⟩
  | land => exact ⟨rfl, rfl, rfl, rfl, List.append_nil _⟩
  | go outside results =>
    show Still s (s.go outside results)
    rw [go_of_isOver h]
    exact Still.refl s

/-- Nothing takes effect then but what was given up before. -/
theorem effects_move_of_isOver (h : s.routine.isOver = true) {m : Move} (hm : m ≠ .land) :
    (s.move m).place.effects = s.place.effects := by
  cases m with
  | elsewhere step =>
    unfold move
    dsimp only
    split <;> rfl
  | fire => rfl
  | land => exact absurd rfl hm
  | go outside results => exact congrArg (·.place.effects) (go_of_isOver h outside results)

end Shift

end IncidentMemory
