import IncidentMemory.Proofs.Separation

/-!
# How long a memory stays as it is

A consolidation looks for memories *like* the one it is about to write, but
writes it under the id of its incident, in place of whatever is there under that
id. So an id under which a record is found will always have one, which stays the
same until another resolution of the same incident is stored;
`Consolidator.found_takeAll_append` says that nothing else that a consolidation
does can be seen by looking under an id.

It is not true that a record never changes: an incident that occurs again with
another log has its first record replaced (`Consolidator.found_storedAgain`).
-/

namespace IncidentMemory

open Simulation

namespace Collections

variable {s : Collections} {col : Collection}

theorem get_of_current (h : s.current = .ok col) (id : String) : s.get id = .ok (col.get? id) := by
  unfold get
  rw [h]
  rfl

/-- What is found under an id after a point was put into the current
collection. -/
theorem get_withCurrent_insertPoint (h : s.current = .ok col) (p : Point) (id : String) :
    (s.withCurrent { col with points := Collection.insertPoint p col.points }).get id
      = (s.get id).map fun old => if p.id = id then some p else old := by
  rw [get_of_current (current_withCurrent h _), get_of_current h]
  exact congrArg Except.ok (Collection.find?_insertPoint p col.points id)

end Collections

namespace Consolidator

/-- The record that a delivery is stored as, if it is stored. -/
def memoryOf (c : Consolidator) (d : Delivery) : Option Point :=
  match d.embedder.behaviour d.resolution.rawLog with
  | .answers e => some (c.recordOf d.resolution e d.today).toPoint
  | _ => none

/-- **What a consolidation has written under an id**, given how it ended. -/
def written? (c : Consolidator) (id : String) (d : Delivery) (ended : Ended) : Option Point :=
  if stores id ended then c.memoryOf d else none

/-- **The last thing that consolidations have written under an id**, given how
they ended. -/
def lastWritten? (c : Consolidator) (id : String) : List Delivery → List Ended → Option Point
  | d :: ds, ended :: others => (c.lastWritten? id ds others).or (c.written? id d ended)
  | _, _ => none

variable {w : World} {s : Collections}

/-- **One consolidation** changes what is found under an id only by writing
under it. -/
theorem get_take (c : Consolidator) (hs : w.store = .inMemory s) (d : Delivery) :
    ∃ s', (c.take w d).1.store = .inMemory s'
      ∧ ∀ id, s'.get id = (s.get id).map fun old => (c.written? id d (c.take w d).2).or old := by
  obtain ⟨hstore, hended⟩ := c.carryOut_consolidate
    (w := { w with embedder := d.embedder, today := d.today }) (t := .background .worker)
    d.resolution hs
  refine ⟨_, hstore, fun id => ?_⟩
  show _ = (s.get id).map fun old => (c.written? id d (World.carryOut _ _ _).2).or old
  rw [hended]
  -- what leaves the collections as they were has stored nothing
  have hsame : ∀ {x : Collections × Ended}, x.1 = s → storedId? x.2 = none →
      x.1.get id = (s.get id).map fun old => (c.written? id d x.2).or old := by
    rintro ⟨_, ended⟩ rfl hnone
    have hwritten : c.written? id d ended = none := by
      unfold written? stores
      rw [hnone]
      rfl
    simp only [hwritten, Option.none_or]
    exact (congrFun Except.map_id _).symm
  cases hcol : s.current with
  | error f =>
    obtain ⟨hfst, hnone⟩ := c.effect_of_current_error hcol d.resolution d.today
      (d.embedder.behaviour d.resolution.rawLog)
    exact hsame hfst hnone
  | ok col =>
    rcases c.effect_cases hcol d.resolution d.today (d.embedder.behaviour d.resolution.rawLog) with
      ⟨hfst, hnone⟩ | ⟨e, hanswer, -, -, -, -, heffect⟩
    · exact hsame hfst hnone
    · have hmemory : c.memoryOf d = some (c.recordOf d.resolution e d.today).toPoint := by
        unfold memoryOf
        rw [hanswer]
      rw [heffect]
      refine (Collections.get_withCurrent_insertPoint hcol _ id).trans ?_
      congr 1
      funext old
      unfold written? stores storedId?
      rw [recordOf_toPoint_id, hmemory]
      by_cases hid : d.resolution.incidentId = id
      · simp [hid]
      · simp [hid]

/-- Consolidations one after another change what is found under an id only by
writing under it. -/
theorem get_takeAll (c : Consolidator) (hs : w.store = .inMemory s) (ds : List Delivery) :
    ∃ s', (c.takeAll w ds).1.store = .inMemory s'
      ∧ ∀ id, s'.get id
        = (s.get id).map fun old => (c.lastWritten? id ds (c.takeAll w ds).2).or old := by
  induction ds generalizing w s with
  | nil =>
    refine ⟨s, hs, fun id => ?_⟩
    cases s.get id <;> rfl
  | cons d ds ih =>
    obtain ⟨s₁, hs₁, hfirst⟩ := c.get_take hs d
    obtain ⟨s₂, hs₂, hrest⟩ := ih hs₁
    refine ⟨s₂, hs₂, fun id => ?_⟩
    rw [hrest, hfirst, takeAll, lastWritten?]
    cases s.get id with
    | error f => rfl
    | ok old => exact congrArg Except.ok (Option.or_assoc ..).symm

theorem takeAll_append (c : Consolidator) (w : World) (ds later : List Delivery) :
    (c.takeAll w (ds ++ later)).1 = (c.takeAll (c.takeAll w ds).1 later).1 := by
  induction ds generalizing w with
  | nil => rfl
  | cons d ds ih => exact ih (c.take w d).1

/-- What is found under an id in a store in memory. -/
def found (w : World) (id : String) : Outcome (Option Point) :=
  match w.store with
  | .inMemory s => s.get id
  | .scripted _ => .ok none

/-- **A record stays until another one is stored under its id.** However many
resolutions a consolidator has taken, and however many more it takes, one after
another, and whatever the embedder does with their logs: what is found under an
id after all of them is what the later ones have last written under this id, and
what was found there before if they have written nothing under it. -/
theorem found_takeAll_append (c : Consolidator) (w : World) {s : Collections}
    (hs : w.store = .inMemory s) (ds later : List Delivery) (id : String) :
    found (c.takeAll w (ds ++ later)).1 id
      = (found (c.takeAll w ds).1 id).map fun old =>
        (c.lastWritten? id later (c.takeAll (c.takeAll w ds).1 later).2).or old := by
  obtain ⟨s₁, hs₁, -⟩ := c.get_takeAll hs ds
  obtain ⟨s₂, hs₂, hlater⟩ := c.get_takeAll hs₁ later
  unfold found
  rw [takeAll_append, hs₂, hs₁]
  exact hlater id

/-- The same incident twice, with embeddings at right angles, and then another
one. -/
def recurring : List Delivery :=
  [delivered "a" [.one, .zero], delivered "a" [.zero, .one], delivered "b" [.one, .zero]]

/-- Looking under the id of the first after all three finds what the second was
stored as. -/
theorem found_takeAll_append_recurring :
    emptyPlane.store = .inMemory ⟨.usual, "memories", 2, [("memories", ⟨2, .cosine, []⟩)]⟩
      ∧ found (inThePlane.takeAll emptyPlane (recurring.take 1 ++ recurring.drop 1)).1 "a"
        = (found (inThePlane.takeAll emptyPlane (recurring.take 1)).1 "a").map (fun old =>
          (inThePlane.lastWritten? "a" (recurring.drop 1)
            (inThePlane.takeAll (inThePlane.takeAll emptyPlane (recurring.take 1)).1
              (recurring.drop 1)).2).or old)
      ∧ (inThePlane.lastWritten? "a" (recurring.drop 1)
          (inThePlane.takeAll (inThePlane.takeAll emptyPlane (recurring.take 1)).1
            (recurring.drop 1)).2).map (·.vector) = some [.zero, .one] :=
  ⟨rfl, found_takeAll_append inThePlane emptyPlane rfl (recurring.take 1) (recurring.drop 1) "a",
    by decide +kernel⟩

/-- **A record that was found under an id is not found there any more**, once
another resolution of the same incident was stored. -/
theorem found_storedAgain :
    (found (inThePlane.takeAll emptyPlane (recurring.take 1)).1 "a").toOption.join.map (·.vector)
        = some [.one, .zero]
      ∧ (found (inThePlane.takeAll emptyPlane (recurring.take 2)).1 "a").toOption.join.map
          (·.vector)
        = some [.zero, .one] :=
  ⟨by decide +kernel, by decide +kernel⟩

end Consolidator

end IncidentMemory
