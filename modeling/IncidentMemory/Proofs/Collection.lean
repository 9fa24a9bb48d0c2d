import IncidentMemory.Memory.Collections
import IncidentMemory.Proofs.Selection

/-!
# What a collection holds and what a search of it finds

A collection keeps one point per id: putting a point in replaces the one of
its id and leaves all others where they are. A search for the single most
similar point sorts the scores of all of them by the total order, so the one
hit it answers with bounds every point there is (`Collection.search_one`). Which
one it is among points that score alike depends on the order in which they were
gone through; how it scores does not (`Collection.IsNearest.scoreOf_eq`).
-/

namespace IncidentMemory

namespace Collection

/-! ## One point per id -/

/-- **No two points have the same id.** -/
def Keyed (points : List Point) : Prop :=
  points.Pairwise (·.id ≠ ·.id)

/-- Whatever is there after a point was put in is that point or was there
before. -/
theorem eq_or_mem_of_mem_insertPoint {p q : Point} {points : List Point}
    (h : q ∈ insertPoint p points) : q = p ∨ q ∈ points := by
  induction points with
  | nil => exact Or.inl (by simpa [insertPoint] using h)
  | cons o os ih =>
    rw [insertPoint] at h
    split at h
    · exact (List.mem_cons.mp h).imp_right (List.mem_cons_of_mem o)
    · rcases List.mem_cons.mp h with rfl | h
      · exact Or.inr List.mem_cons_self
      · exact (ih h).imp_right (List.mem_cons_of_mem o)

/-- **A point put in takes the place of the one with its id**: whatever else
is there has another id. -/
theorem mem_insertPoint {p q : Point} {points : List Point} (hk : Keyed points) :
    q ∈ insertPoint p points ↔ q = p ∨ (q ∈ points ∧ q.id ≠ p.id) := by
  induction points with
  | nil => simp [insertPoint]
  | cons o os ih =>
    obtain ⟨ho, hos⟩ := List.pairwise_cons.mp hk
    rw [insertPoint]
    by_cases h : o.id = p.id
    · -- the point of the same id is the first one, and no other has that id
      rw [if_pos h, List.mem_cons, List.mem_cons]
      refine or_congr_right ⟨fun hq => ⟨Or.inr hq, ?_⟩, ?_⟩
      · rw [← h]
        exact (ho q hq).symm
      · rintro ⟨rfl | hq, hne⟩
        · exact absurd h hne
        · exact hq
    · rw [if_neg h, List.mem_cons, List.mem_cons, ih hos]
      constructor
      · rintro (rfl | rfl | ⟨hq, hne⟩)
        · exact Or.inr ⟨Or.inl rfl, h⟩
        · exact Or.inl rfl
        · exact Or.inr ⟨Or.inr hq, hne⟩
      · rintro (rfl | ⟨rfl | hq, hne⟩)
        · exact Or.inr (Or.inl rfl)
        · exact Or.inl rfl
        · exact Or.inr (Or.inr ⟨hq, hne⟩)

/-- Putting a point in keeps ids apart. -/
theorem keyed_insertPoint (p : Point) {points : List Point} (hk : Keyed points) :
    Keyed (insertPoint p points) := by
  induction points with
  | nil => exact List.pairwise_singleton _ p
  | cons o os ih =>
    obtain ⟨ho, hos⟩ := List.pairwise_cons.mp hk
    rw [insertPoint]
    by_cases h : o.id = p.id
    · rw [if_pos h]
      exact List.pairwise_cons.mpr ⟨fun q hq => h ▸ ho q hq, hos⟩
    · rw [if_neg h]
      refine List.pairwise_cons.mpr ⟨fun q hq => ?_, ih hos⟩
      rcases eq_or_mem_of_mem_insertPoint hq with rfl | hq
      · exact h
      · exact ho q hq

/-- **What is found under an id after a point was put in.** -/
theorem find?_insertPoint (p : Point) (points : List Point) (id : String) :
    (insertPoint p points).find? (·.id == id)
      = if p.id = id then some p else points.find? (·.id == id) := by
  induction points with
  | nil =>
    rw [insertPoint, List.find?_singleton]
    simp only [beq_iff_eq, List.find?_nil]
  | cons q qs ih =>
    rw [insertPoint]
    by_cases hp : p.id = id
    · rw [if_pos hp] at ih ⊢
      split
      · rw [List.find?_cons_of_pos (by simpa using hp)]
      · next hq => rw [List.find?_cons_of_neg (by simpa [← hp] using hq), ih]
    · rw [if_neg hp] at ih ⊢
      split
      · next hq =>
        -- the point that is replaced has the same id, so neither is found
        rw [List.find?_cons_of_neg (by simpa using hp),
          List.find?_cons_of_neg (by simpa [hq] using hp)]
      · rw [List.find?_cons, List.find?_cons, ih]

/-- One point alone is put in if its vector has the right length. -/
theorem upsert_one (c : Collection) (p : Point) :
    c.upsert [p]
      = if p.vector.length = c.dims then .ok { c with points := insertPoint p c.points }
        else .error (.dimensions c.dims p.vector.length) := by
  show (do (do c.checkDims p.vector; pure ⟨⟩); .ok _) = _
  unfold checkDims
  by_cases h : p.vector.length = c.dims
  · rw [if_pos h, if_pos h]
    rfl
  · rw [if_neg h, if_neg h]
    rfl

/-! ## The nearest point -/

/-- **A search goes through the points that there are**, in some order. -/
theorem gone_perm (m : Machine) (c : Collection) : (c.gone m).Perm c.points :=
  List.mergeSort_perm _ _

variable {m : Machine} {c : Collection} {query : Embedding}

theorem mem_gone {p : Point} : p ∈ c.gone m ↔ p ∈ c.points :=
  (gone_perm m c).mem_iff

/-- How a point scores. -/
def scoreOf (m : Machine) (c : Collection) (query : Embedding) (p : Point) : Single :=
  c.distance.score m.arithmetic query p.vector

theorem scoreOf_of_cosine (h : c.distance = .cosine) (p : Point) :
    c.scoreOf m query p = Embedding.cosine m.arithmetic query p.vector := by
  unfold scoreOf
  rw [h]
  rfl

/-- **The scores of all points** for a query. -/
def scores (m : Machine) (c : Collection) (query : Embedding) : List Single :=
  c.points.map (c.scoreOf m query)

theorem score_mem_scores {p : Point} (query : Embedding) (hp : p ∈ c.points) :
    c.scoreOf m query p ∈ c.scores m query :=
  List.mem_map_of_mem hp

/-- A query of the right length is answered with the best hits. -/
theorem search_of_length (m : Machine) (h : query.length = c.dims) (limit : Nat)
    (least : Option Single) :
    c.search m query limit least
      = .ok ((((((c.gone m).map (c.hit m query)).filter fun h => reaches least h.score).mergeSort
          fun a b => b.score.totalLe a.score)).take limit) := by
  unfold search checkDims
  rw [if_pos h]
  rfl

/-- A query of another length is refused. -/
theorem search_of_length_ne (m : Machine) (h : query.length ≠ c.dims) (limit : Nat)
    (least : Option Single) :
    c.search m query limit least = .error (.dimensions c.dims query.length) := by
  unfold search checkDims
  rw [if_neg h]
  rfl

/-- The first of a list sorted by score is ahead of all others. -/
theorem totalLe_head_mergeSort {hits rest : List Hit} {best : Hit}
    (h : (hits.mergeSort fun a b => b.score.totalLe a.score) = best :: rest) :
    ∀ o ∈ hits, o.score.totalLe best.score = true := by
  have hsorted := pairwise_mergeSort_totalLe (·.score) hits
  rw [h] at hsorted
  intro o ho
  have hmem : o ∈ best :: rest := h ▸ List.mem_mergeSort.mpr ho
  rcases List.mem_cons.mp hmem with rfl | hmem
  · exact (Bool.or_self _).symm.trans (Single.totalLe_total o.score o.score)
  · exact (List.pairwise_cons.mp hsorted).1 o hmem

/-- **A point that no other is ahead of** in the total order. -/
structure IsNearest (m : Machine) (c : Collection) (query : Embedding) (p : Point) : Prop where
  /-- It is there. -/
  mem : p ∈ c.points
  /-- No score is ahead of its own. -/
  ahead : ∀ x ∈ c.scores m query, x.totalLe (c.scoreOf m query p) = true

/-- All nearest points score alike. -/
theorem IsNearest.scoreOf_eq {p q : Point} (hp : c.IsNearest m query p)
    (hq : c.IsNearest m query q) : c.scoreOf m query p = c.scoreOf m query q :=
  Single.eq_of_totalLe (hq.ahead _ (score_mem_scores query hp.mem))
    (hp.ahead _ (score_mem_scores query hq.mem))

/-- **A search for one point finds a nearest one**, if there are any points. -/
theorem search_one (m : Machine) (h : query.length = c.dims) :
    (c.points = [] ∧ c.search m query 1 none = .ok [])
      ∨ ∃ p, c.IsNearest m query p ∧ c.search m query 1 none = .ok [c.hit m query p] := by
  rw [search_of_length m h]
  have hall : ((c.gone m).map (c.hit m query)).filter (fun o => reaches none o.score)
      = (c.gone m).map (c.hit m query) :=
    List.filter_eq_self.mpr fun _ _ => rfl
  rw [hall]
  cases hsort : ((c.gone m).map (c.hit m query)).mergeSort fun a b => b.score.totalLe a.score with
  | nil =>
    refine Or.inl ⟨?_, rfl⟩
    have hlen := congrArg List.length hsort
    rw [List.length_mergeSort, List.length_map, (gone_perm m c).length_eq] at hlen
    exact List.eq_nil_of_length_eq_zero hlen
  | cons best rest =>
    have hbest : best ∈ (c.gone m).map (c.hit m query) :=
      List.mem_mergeSort.mp (hsort ▸ List.mem_cons_self)
    obtain ⟨p, hp, rfl⟩ := List.mem_map.mp hbest
    refine Or.inr ⟨p, ⟨mem_gone.mp hp, fun x hx => ?_⟩, rfl⟩
    obtain ⟨q, hq, rfl⟩ := List.mem_map.mp hx
    exact totalLe_head_mergeSort hsort _ (List.mem_map_of_mem (mem_gone.mpr hq))

end Collection

end IncidentMemory
