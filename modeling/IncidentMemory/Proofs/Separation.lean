import IncidentMemory.Proofs.Consolidation

/-!
# Stored memories stay apart

A consolidator compares the embedding of a log with a single stored vector, the
nearest one, and stores the log only if that one scores below the duplicate
threshold. Taken one after another, this keeps *all* pairs of stored vectors
apart: whichever of two was stored later scores below the threshold against the
other (`Consolidator.takeAll_apart`). A record stored again under its id
becomes the later one of all its pairs, and is compared anew with all others.

The condition is that no score is not a number. Such a score is ahead of all
others in the total order or behind them, so it would hide what is near.
-/

namespace IncidentMemory

open Simulation

/-- **A resolution to consolidate**, with the embedder and the time of day
that it meets. -/
structure Delivery where
  /-- The resolution. -/
  resolution : Resolution
  /-- What the embedder does while it is consolidated. -/
  embedder : Rules Embedding
  /-- The date and time of day. -/
  today : Timestamp

namespace Consolidator

/-- How a consolidation ended, if it has. -/
abbrev Ended := Option (Attempt (Outcome Consolidated))

/-- **Consolidates a delivered resolution** on its own. -/
def take (c : Consolidator) (w : World) (d : Delivery) : World × Ended :=
  { w with embedder := d.embedder, today := d.today }.carryOut (.background .worker)
    (c.consolidate d.resolution).run

/-- **Over a vector store in memory** it has its effect, and nothing else
becomes of the store. -/
theorem take_leaves (c : Consolidator) {w : World} {s : Collections} (hs : w.store = .inMemory s)
    (d : Delivery) :
    Leaves (c.take w d) (c.effect s d.resolution d.today
      (d.embedder.behaviour d.resolution.rawLog)) :=
  c.carryOut_consolidate (w := { w with embedder := d.embedder, today := d.today })
    (t := .background .worker) d.resolution hs

/-- **Consolidates resolutions one after another**, and says how each
consolidation ended. -/
def takeAll (c : Consolidator) (w : World) : List Delivery → World × List Ended
  | [] => (w, [])
  | d :: ds =>
    let (w', ended) := c.take w d
    let (w'', others) := c.takeAll w' ds
    (w'', ended :: others)

/-- The scores that the search of a consolidation computes. -/
def scoresFor (c : Consolidator) (w : World) (d : Delivery) : List Single :=
  match w.store, d.embedder.behaviour d.resolution.rawLog with
  | .inMemory s, .answers e =>
    if d.resolution.hasLog ∧ e.length = c.settings.dims then s.scores e else []
  | _, _ => []

/-- The scores that all the consolidations compute. -/
def allScores (c : Consolidator) (w : World) : List Delivery → List Single
  | [] => []
  | d :: ds => c.scoresFor w d ++ c.allScores (c.take w d).1 ds

/-! ## When a record was stored -/

/-- Whether a consolidation stored a record under an id. -/
def stores (id : String) (ended : Ended) : Bool :=
  storedId? ended == some id

/-- **How many consolidations there have been since a record was last stored
under an id.** -/
def age? (ended : List Ended) (id : String) : Option Nat :=
  ended.reverse.findIdx? (stores id)

/-- The same, for consolidations of which the latest is first. -/
def ageIn (past : List Ended) (id : String) : Option Nat :=
  past.findIdx? (stores id)

/-- At one time only one record is stored. -/
theorem eq_of_ageIn {past : List Ended} {a b : String} {n : Nat} (ha : ageIn past a = some n)
    (hb : ageIn past b = some n) : a = b := by
  obtain ⟨h, hpa, -⟩ := List.findIdx?_eq_some_iff_getElem.mp ha
  obtain ⟨_, hpb, -⟩ := List.findIdx?_eq_some_iff_getElem.mp hb
  have h₁ : storedId? past[n] = some a := by simpa [stores] using hpa
  have h₂ : storedId? past[n] = some b := by simpa [stores] using hpb
  exact Option.some.inj (h₁.symm.trans h₂)

/-- What another consolidation does to the age of a record. -/
theorem ageIn_cons (ended : Ended) (past : List Ended) (id : String) :
    ageIn (ended :: past) id
      = if storedId? ended = some id then some 0 else (ageIn past id).map (· + 1) := by
  unfold ageIn
  rw [List.findIdx?_cons]
  by_cases h : storedId? ended = some id
  · rw [if_pos h, if_pos (by simpa [stores] using h)]
  · rw [if_neg h, if_neg (by simpa [stores] using h)]

/-! ## Pairs apart -/

/-- **The points of a collection are apart**, given the consolidations so far,
the latest first: each was stored by one of them, and of two the younger one
scores below the threshold against the other. -/
structure Apart (c : Consolidator) (a : Arithmetic) (points : List Point) (past : List Ended) :
    Prop where
  /-- There is one point per id. -/
  keyed : Collection.Keyed points
  /-- Every point was stored. -/
  stored : ∀ p ∈ points, ∃ n, ageIn past p.id = some n
  /-- Younger ones score below the threshold against older ones. -/
  below : ∀ p ∈ points, ∀ q ∈ points, ∀ i j, ageIn past p.id = some i → ageIn past q.id = some j →
    i < j → Embedding.cosine a p.vector q.vector < c.settings.duplicateThreshold

/-- No points are apart. -/
theorem Apart.nil (c : Consolidator) (a : Arithmetic) : c.Apart a [] [] where
  keyed := List.Pairwise.nil
  stored := fun _ h => absurd h List.not_mem_nil
  below := fun _ h => absurd h List.not_mem_nil

variable {c : Consolidator} {a : Arithmetic} {points : List Point} {past : List Ended}

/-- **A consolidation that stores nothing keeps points apart.** -/
theorem Apart.skip (h : c.Apart a points past) {ended : Ended} (hnone : storedId? ended = none) :
    c.Apart a points (ended :: past) := by
  have hage : ∀ id, ageIn (ended :: past) id = (ageIn past id).map (· + 1) := by
    intro id
    rw [ageIn_cons, hnone, if_neg (by simp)]
  refine ⟨h.keyed, fun p hp => ?_, fun p hp q hq i j hi hj hij => ?_⟩
  · obtain ⟨n, hn⟩ := h.stored p hp
    exact ⟨n + 1, by rw [hage, hn]; rfl⟩
  · rw [hage, Option.map_eq_some_iff] at hi hj
    obtain ⟨i', hi', rfl⟩ := hi
    obtain ⟨j', hj', rfl⟩ := hj
    exact h.below p hp q hq i' j' hi' hj' (Nat.lt_of_succ_lt_succ hij)

/-- **A consolidation that stores a point which scores below the threshold
against all others keeps points apart.** -/
theorem Apart.store (h : c.Apart a points past) {new : Point} {ended : Ended}
    (hstored : storedId? ended = some new.id)
    (hbelow : ∀ q ∈ points,
      Embedding.cosine a new.vector q.vector < c.settings.duplicateThreshold) :
    c.Apart a (Collection.insertPoint new points) (ended :: past) := by
  have hnew : ageIn (ended :: past) new.id = some 0 := by
    rw [ageIn_cons, if_pos hstored]
  have hold : ∀ id, id ≠ new.id → ageIn (ended :: past) id = (ageIn past id).map (· + 1) := by
    intro id hne
    rw [ageIn_cons, hstored, if_neg (by simpa using Ne.symm hne)]
  refine ⟨Collection.keyed_insertPoint new h.keyed, fun p hp => ?_,
    fun p hp q hq i j hi hj hij => ?_⟩
  · rcases (Collection.mem_insertPoint h.keyed).mp hp with rfl | ⟨hp, hne⟩
    · exact ⟨0, hnew⟩
    · obtain ⟨n, hn⟩ := h.stored p hp
      exact ⟨n + 1, by rw [hold p.id hne, hn]; rfl⟩
  · rcases (Collection.mem_insertPoint h.keyed).mp hq with rfl | ⟨hq', hqne⟩
    · -- nothing is younger than the point just stored
      rw [hnew] at hj
      obtain rfl := Option.some.inj hj
      exact absurd hij (Nat.not_lt_zero i)
    · rcases (Collection.mem_insertPoint h.keyed).mp hp with rfl | ⟨hp', hpne⟩
      · exact hbelow q hq'
      · rw [hold _ hpne, Option.map_eq_some_iff] at hi
        rw [hold _ hqne, Option.map_eq_some_iff] at hj
        obtain ⟨i', hi', rfl⟩ := hi
        obtain ⟨j', hj', rfl⟩ := hj
        exact h.below p hp' q hq' i' j' hi' hj' (Nat.lt_of_succ_lt_succ hij)

/-! ## One consolidation, and all of them -/

/-- A store whose current collection compares by cosine and holds points that
are apart. -/
def KeepsApart (c : Consolidator) (a : Arithmetic) (w : World) (past : List Ended) : Prop :=
  ∃ s col, w.store = .inMemory s ∧ s.machine.arithmetic = a ∧ s.current = .ok col
    ∧ col.distance = .cosine ∧ c.Apart a col.points past

/-- **One consolidation keeps stored memories apart.** -/
theorem KeepsApart.take {w : World} (h : c.KeepsApart a w past) (d : Delivery)
    (hthr : c.settings.duplicateThreshold.isNaN = false)
    (hnum : ∀ x ∈ c.scoresFor w d, x.isNaN = false) :
    c.KeepsApart a (c.take w d).1 ((c.take w d).2 :: past) := by
  obtain ⟨s, col, hs, rfl, hcol, hcos, hapart⟩ := h
  obtain ⟨hstore, hended⟩ := c.take_leaves hs d
  rw [hended]
  rcases c.effect_cases hcol d.resolution d.today (d.embedder.behaviour d.resolution.rawLog) with
    ⟨hsame, hnone⟩ | ⟨e, hanswer, hlog, hdims, hlen, hnear, heffect⟩
  · refine ⟨s, col, ?_, rfl, hcol, hcos, hapart.skip hnone⟩
    rw [hstore, hsame]
  · rw [heffect] at hstore ⊢
    refine ⟨_, _, hstore, rfl, Collections.current_withCurrent hcol _, hcos, hapart.store ?_ ?_⟩
    · rw [recordOf_toPoint_id]
      rfl
    · -- the scores are those of the search, so none of them is not a number
      have hscores : c.scoresFor w d = col.scores s.machine e := by
        unfold scoresFor
        rw [hs, hanswer]
        simp only [hlog, hdims, and_self, if_true, Collections.scores, hcol, ← hlen]
      rw [hscores] at hnum
      rw [recordOf_toPoint_vector]
      intro q hq
      rw [← Collection.scoreOf_of_cosine hcos]
      exact hnear.forall_lt hthr hnum q hq

/-- Consolidations one after another keep stored memories apart. -/
theorem KeepsApart.takeAll {w : World} (h : c.KeepsApart a w past) (ds : List Delivery)
    (hthr : c.settings.duplicateThreshold.isNaN = false)
    (hnum : ∀ x ∈ c.allScores w ds, x.isNaN = false) :
    c.KeepsApart a (c.takeAll w ds).1 ((c.takeAll w ds).2.reverse ++ past) := by
  induction ds generalizing w past with
  | nil => exact h
  | cons d ds ih =>
    rw [allScores] at hnum
    have hfirst := h.take d hthr fun x hx => hnum x (List.mem_append_left _ hx)
    have hrest := ih hfirst fun x hx => hnum x (List.mem_append_right _ hx)
    rw [takeAll, List.reverse_cons, List.append_assoc]
    exact hrest

/-- **Stored memories stay apart.** However many resolutions a consolidator
takes, one after another, into a collection that was empty, and whatever the
embedder does with their logs: of any two records that are stored then, the
one stored later scores below the duplicate threshold against the other,
provided that the threshold and all scores computed on the way are numbers. -/
theorem takeAll_apart (c : Consolidator) (w : World) {s : Collections} {dims : Nat}
    (hs : w.store = .inMemory s) (hempty : s.current = .ok ⟨dims, .cosine, []⟩)
    (hthr : c.settings.duplicateThreshold.isNaN = false) (ds : List Delivery)
    (hnum : ∀ x ∈ c.allScores w ds, x.isNaN = false) :
    ∃ s' col, (c.takeAll w ds).1.store = .inMemory s' ∧ s'.current = .ok col
      ∧ ∀ p ∈ col.points, ∀ q ∈ col.points, p.id ≠ q.id →
        ∃ i j, age? (c.takeAll w ds).2 p.id = some i ∧ age? (c.takeAll w ds).2 q.id = some j
          ∧ i ≠ j
          ∧ (i < j → Embedding.cosine s.machine.arithmetic p.vector q.vector
              < c.settings.duplicateThreshold) := by
  have hstart : c.KeepsApart s.machine.arithmetic w [] :=
    ⟨s, _, hs, rfl, hempty, rfl, Apart.nil c _⟩
  obtain ⟨s', col, hs', -, hcol, -, hapart⟩ := hstart.takeAll ds hthr hnum
  rw [List.append_nil] at hapart
  refine ⟨s', col, hs', hcol, fun p hp q hq hne => ?_⟩
  obtain ⟨i, hi⟩ := hapart.stored p hp
  obtain ⟨j, hj⟩ := hapart.stored q hq
  refine ⟨i, j, hi, hj, ?_, hapart.below p hp q hq i j hi hj⟩
  rintro rfl
  exact hne (eq_of_ageIn hi hj)

/-- A consolidator that takes vectors of two dimensions, with 0.95 as its
threshold. -/
def inThePlane : Consolidator where
  settings := ⟨⟨0x3F733333⟩, 2, false⟩
  collection := "memories"

/-- A world with an empty collection for vectors of two dimensions. -/
def emptyPlane : World :=
  { World.bare with
    store := .inMemory ⟨.usual, "memories", 2, [("memories", ⟨2, .cosine, []⟩)]⟩ }

/-- The resolution of an incident, whose log has the given embedding. -/
def delivered (incidentId : String) (e : Embedding) : Delivery where
  resolution := ⟨incidentId, "cluster", "namespace", "oom killed", "raise the limit"⟩
  embedder := { otherwise := .answers e }
  today := ⟨0, 0⟩

/-- Two resolutions with embeddings at right angles, and then the first
incident again, with an embedding between them. -/
def crossing : List Delivery :=
  [delivered "a" [.one, .zero], delivered "b" [.zero, .one],
    delivered "a" [⟨0x40400000⟩, ⟨0x40800000⟩]]

/-- All three are stored, the last in place of the first, and apart. -/
theorem takeAll_apart_crossing :
    inThePlane.settings.duplicateThreshold.isNaN = false
      ∧ (∀ x ∈ inThePlane.allScores emptyPlane crossing, x.isNaN = false)
      ∧ ∃ s' col, (inThePlane.takeAll emptyPlane crossing).1.store = .inMemory s'
        ∧ s'.current = .ok col
        ∧ ∀ p ∈ col.points, ∀ q ∈ col.points, p.id ≠ q.id →
          ∃ i j, age? (inThePlane.takeAll emptyPlane crossing).2 p.id = some i
            ∧ age? (inThePlane.takeAll emptyPlane crossing).2 q.id = some j ∧ i ≠ j
            ∧ (i < j → Embedding.cosine .usual p.vector q.vector
                < inThePlane.settings.duplicateThreshold) :=
  ⟨by decide, by decide +kernel,
    takeAll_apart inThePlane emptyPlane rfl rfl (by decide) crossing (by decide +kernel)⟩

end Consolidator

end IncidentMemory
