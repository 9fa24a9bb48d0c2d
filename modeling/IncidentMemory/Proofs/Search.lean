import IncidentMemory.Proofs.Consolidation

/-!
# What a search in memory answers with

A search filters, sorts and takes, and the filter and the sort do not go by the
same order. A score qualifies if it is not below the least one asked for by
value, where zeros of either sign are equal and a not-a-number never qualifies;
what qualifies is put in the total order, in which nothing is equal to anything
else. Taken together they give the best of the points that qualify
(`Collections.search_best`), for every similarity and whatever the scores are.
-/

namespace IncidentMemory

namespace Collection

/-- **A score qualifies** if it is not below the least one asked for. -/
def Qualifies (least : Option Single) (score : Single) : Prop :=
  ∀ m ∈ least, m ≤ score

instance (least : Option Single) (score : Single) : Decidable (Qualifies least score) :=
  inferInstanceAs (Decidable (∀ m ∈ least, m ≤ score))

theorem reaches_iff {least : Option Single} {score : Single} :
    reaches least score = true ↔ Qualifies least score := by
  cases least with
  | none => simp [reaches, Qualifies]
  | some m => simp [reaches, Qualifies]

/-- **The points that qualify.** -/
def qualifying (m : Machine) (c : Collection) (query : Embedding) (least : Option Single) :
    List Point :=
  c.points.filter fun p => Qualifies least (c.scoreOf m query p)

/-- A search that is not refused sorts the points that qualify, as it goes through them, and
takes from the front. -/
theorem search_eq (m : Machine) {c : Collection} {query : Embedding} (h : query.length = c.dims)
    (limit : Nat) (least : Option Single) :
    c.search m query limit least
      = .ok (((((c.gone m).filter fun p => Qualifies least (c.scoreOf m query p)).mergeSort
          fun p q => (c.scoreOf m query q).totalLe (c.scoreOf m query p)).take limit).map
            (c.hit m query)) := by
  have hfilter : ((c.gone m).map (c.hit m query)).filter (fun o => reaches least o.score)
      = ((c.gone m).filter fun p => Qualifies least (c.scoreOf m query p)).map (c.hit m query) := by
    rw [List.filter_map]
    refine congrArg (List.map _) (List.filter_congr fun p _ => ?_)
    rw [Bool.eq_iff_iff, decide_eq_true_iff]
    exact reaches_iff
  rw [search_of_length m h, hfilter, List.map_take, List.map_mergeSort]
  exact fun _ _ _ _ => rfl

/-- **What a search lists are the best points that qualify**, whatever the order in which it
goes through them. -/
theorem isBest_qualifying (m : Machine) (c : Collection) (query : Embedding) (limit : Nat)
    (least : Option Single) :
    ∃ others, IsBest (c.scoreOf m query) limit (c.qualifying m query least)
      ((((c.gone m).filter fun p => Qualifies least (c.scoreOf m query p)).mergeSort
          fun p q => (c.scoreOf m query q).totalLe (c.scoreOf m query p)).take limit) others :=
  ⟨_, (isBest_take_mergeSort (c.scoreOf m query) limit _).of_perm ((gone_perm m c).filter _)⟩

end Collection

/-- **A search in memory answers with the best points that qualify.** In a store
whose current collection has one point per id, let a query have the dimensions
of the collection. Then the answer lists points of the collection, no two with
the same id, each with its own id and payload and with its score for the query.
They are as many as qualify and may be listed, none scores higher than one
before it, and none that qualifies and is left out scores higher than one that
is listed. -/
theorem Collections.search_best {s : Collections} {col : Collection} (hcol : s.current = .ok col)
    (hkeyed : Collection.Keyed col.points) {query : Embedding} (hlen : query.length = col.dims)
    (limit : Nat) (least : Option Single) :
    ∃ listed others : List Point,
      s.search query limit least
          = .ok (listed.map fun p =>
            ⟨p.id, col.distance.score s.machine.arithmetic query p.vector, p.payload⟩)
        ∧ listed.Pairwise (·.id ≠ ·.id)
        ∧ IsBest (fun p : Point => col.distance.score s.machine.arithmetic query p.vector) limit
          (col.points.filter fun p => Collection.Qualifies least
            (col.distance.score s.machine.arithmetic query p.vector)) listed others := by
  obtain ⟨others, hbest⟩ := Collection.isBest_qualifying s.machine col query limit least
  refine ⟨_, others, ?_, hbest.pairwise Ne.symm (hkeyed.filter _), hbest⟩
  rw [search_of_current hcol, Collection.search_eq s.machine hlen]
  rfl

/-- Four points whose dot products with one are a positive not-a-number, the
negative zero, one and two, in this order. -/
def Collection.fourScores : Collection where
  dims := 1
  distance := .dotProduct
  points := [⟨"not-a-number", [⟨0x7FC00000⟩], []⟩, ⟨"zero", [.negZero], []⟩,
    ⟨"one", [.one], []⟩, ⟨"two", [⟨0x40000000⟩], []⟩]

/-- The two best are taken of the three that are not below zero. -/
theorem Collections.search_best_fourScores :
    Collection.Keyed Collection.fourScores.points
      ∧ [Single.one].length = Collection.fourScores.dims
      ∧ (Collection.fourScores.points.filter fun p => Collection.Qualifies (some .zero)
          (Collection.fourScores.distance.score .usual [.one] p.vector)).map (·.id)
        = ["zero", "one", "two"]
      ∧ ∃ listed others : List Point,
        (Collections.mk .usual "memories" 1 [("memories", Collection.fourScores)]).search [.one] 2
            (some .zero) = .ok (listed.map fun p =>
              ⟨p.id, Collection.fourScores.distance.score .usual [.one] p.vector, p.payload⟩)
          ∧ listed.Pairwise (·.id ≠ ·.id)
          ∧ IsBest (fun p : Point => Collection.fourScores.distance.score .usual [.one] p.vector) 2
            (Collection.fourScores.points.filter fun p => Collection.Qualifies (some .zero)
              (Collection.fourScores.distance.score .usual [.one] p.vector)) listed others := by
  have hkeyed : Collection.Keyed Collection.fourScores.points := by
    unfold Collection.Keyed
    decide
  exact ⟨hkeyed, rfl, by decide +kernel, Collections.search_best rfl hkeyed rfl 2 (some .zero)⟩

end IncidentMemory
