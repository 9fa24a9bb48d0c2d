import IncidentMemory.Proofs.Rounds
import IncidentMemory.Proofs.Views

/-!
# Endings that agree

Two stores that look alike may go through their points in different orders. Where
several points are equally near, a log then is a duplicate of one of them here and
of another one there (`Consolidator.Ties`), with one score. Consolidations of the
same deliveries go on like this, one after another: they end item by item in the
same way but for that (`Consolidator.Agree`), since what they store, what they count
and whether they go on does not depend on it. If both stores go through their points
in one order there is no difference at all (`Consolidator.Agree.eq`).
-/

namespace IncidentMemory

open Simulation

namespace Consolidator

variable {c : Consolidator} {w : World} {s : Collections} {rank : List String → String → Nat}

/-! ## One ending -/

section

variable {b : Behaviour Embedding} {x y : Ended}

/-- Both are counted as the same, -/
theorem Ties.counter?_eq (h : Ties s rank b x y) : Upshot.counter? y = Upshot.counter? x := by
  cases h <;> rfl

/-- both are abandoned or none is, -/
theorem Ties.isAbandoned_eq (h : Ties s rank b x y) :
    Upshot.isAbandoned y = Upshot.isAbandoned x := by
  cases h <;> rfl

/-- and both store the same. -/
theorem Ties.storedId?_eq (h : Ties s rank b x y) : storedId? y = storedId? x := by
  cases h <;> rfl

theorem Ties.settle_eq (h : Ties s rank b x y) (k : Counters) : k.settle y = k.settle x := by
  unfold Counters.settle
  rw [h.counter?_eq]

end

/-! ## All of them -/

/-- **Endings that agree with those of consolidations one after another**, which start
in the given world. They are those of the same deliveries where points are gone through in
the given order. -/
inductive Agree (c : Consolidator) (rank : List String → String → Nat) :
    World → List Delivery → List Ended → Prop
  /-- Of no deliveries. -/
  | nil (w : World) : Agree c rank w [] []
  /-- The first one ends in the same way but for ties, and the others agree with what follows. -/
  | cons {w : World} {s : Collections} {d : Delivery} {ds : List Delivery} {y : Ended}
      {ys : List Ended} (hs : w.store = .inMemory s)
      (first : Ties s rank (d.embedder.behaviour d.resolution.rawLog) (c.take w d).2 y)
      (rest : Agree c rank (c.take w d).1 ds ys) : Agree c rank w (d :: ds) (y :: ys)

section

variable {ds : List Delivery} {ys : List Ended}

/-- **Endings that agree count the same.** -/
theorem Agree.counters_eq (h : c.Agree rank w ds ys) (k : Counters) :
    ys.foldl Counters.settle k = (c.takeAll w ds).2.foldl Counters.settle k := by
  induction h generalizing k with
  | nil => rfl
  | cons hs first rest ih =>
    rw [takeAll_cons, List.foldl_cons, List.foldl_cons, ih, first.settle_eq]

/-- **They are the same** if the points are gone through in one order. -/
theorem Agree.eq (h : c.Agree rank w ds ys) (hs : w.store = .inMemory s)
    (hrank : rank = s.machine.rank) : ys = (c.takeAll w ds).2 := by
  induction h generalizing s with
  | nil => rfl
  | @cons w s' d ds y ys hs' first rest ih =>
    obtain rfl : s' = s := VectorStore.inMemory.inj (hs'.symm.trans hs)
    have hrest : rank = (c.effect s' d.resolution d.today
        (d.embedder.behaviour d.resolution.rawLog)).1.machine.rank := by
      rw [machine_effect, hrank]
    rw [takeAll_cons, first.eq hrank, ih (c.take_spec hs d).1 hrest]

end

/-- **One delivery in two stores that look alike.** -/
theorem take_alike {f : Payload → Payload} (c₁ c₂ : Consolidator) {w₁ w₂ : World}
    {s₁ s₂ : Collections}
    (hthreshold : c₁.settings.duplicateThreshold = c₂.settings.duplicateThreshold)
    (hdims : c₁.settings.dims = c₂.settings.dims) (h₁ : w₁.store = .inMemory s₁)
    (h₂ : w₂.store = .inMemory s₂) (hs : s₁.Alike f s₂) (d : Delivery) (now : Timestamp)
    (hpoint : ∀ e, (c₁.recordOf d.resolution e d.today).toPoint.view f
      = (c₂.recordOf d.resolution e now).toPoint.view f) :
    ∃ s₁' s₂', (c₁.take w₁ d).1.store = .inMemory s₁'
      ∧ (c₂.take w₂ { d with today := now }).1.store = .inMemory s₂'
      ∧ s₁'.Alike f s₂' ∧ s₂'.machine.rank = s₂.machine.rank
      ∧ Ties s₁ s₂.machine.rank (d.embedder.behaviour d.resolution.rawLog) (c₁.take w₁ d).2
        (c₂.take w₂ { d with today := now }).2 := by
  obtain ⟨hstore₁, hended₁, -⟩ := c₁.take_spec h₁ d
  obtain ⟨hstore₂, hended₂, -⟩ := c₂.take_spec h₂ { d with today := now }
  obtain ⟨halike, hties⟩ := effect_alike hthreshold hdims hs hpoint
    (d.embedder.behaviour d.resolution.rawLog)
  refine ⟨_, _, hstore₁, hstore₂, halike, ?_, ?_⟩
  · rw [machine_effect]
  · rw [hended₁, hended₂]
    exact hties

/-! ## Two points of one vector -/

/-- A collection with two points of one vector. -/
def tied : Collection where
  dims := 2
  distance := .cosine
  points := [⟨"a", [.one, .zero], []⟩, ⟨"b", [.one, .zero], []⟩]

/-- The store with these two, gone through in the given order. -/
def tiedStore (rank : List String → String → Nat) : Collections :=
  ⟨⟨.usual, rank⟩, "memories", 2, [("memories", tied)]⟩

/-- The world with this store. -/
def tiedPlane (rank : List String → String → Nat) : World :=
  { World.bare with store := .inMemory (tiedStore rank) }

/-- An order in which the one that came in last is the first. -/
def lastFirst (_ : List String) (id : String) : Nat :=
  if id = "b" then 0 else 1

theorem mergeSort_pair {α : Type} (le : α → α → Bool) (x y : α) :
    [x, y].mergeSort le = if le x y then [x, y] else [y, x] := by
  simp [List.mergeSort, List.merge]

/-- The search finds the one that comes first. -/
theorem search_tied (rank : List String → String → Nat) :
    tied.search ⟨.usual, rank⟩ [.one, .zero] 1 none
      = .ok [⟨if rank ["a", "b"] "a" ≤ rank ["a", "b"] "b" then "a" else "b", .one, []⟩] := by
  have hscore : Embedding.cosine .usual [.one, .zero] [.one, .zero] = .one := by decide +kernel
  have hgone : tied.gone ⟨.usual, rank⟩
      = if rank ["a", "b"] "a" ≤ rank ["a", "b"] "b" then tied.points else tied.points.reverse := by
    refine (mergeSort_pair _ _ _).trans ?_
    simp only [decide_eq_true_eq]
    rfl
  have hfirst : ∀ x y : String, ([tied.hit ⟨.usual, rank⟩ [.one, .zero] ⟨x, [.one, .zero], []⟩,
      tied.hit ⟨.usual, rank⟩ [.one, .zero] ⟨y, [.one, .zero], []⟩].mergeSort
        fun h k => k.score.totalLe h.score).take 1 = [⟨x, .one, []⟩] := by
    intro x y
    show (List.mergeSort [(⟨x, Embedding.cosine .usual _ _, []⟩ : Hit),
      ⟨y, Embedding.cosine .usual _ _, []⟩] _).take 1 = _
    rw [hscore, mergeSort_pair]
    rfl
  rw [Collection.search_of_length ⟨.usual, rank⟩ rfl, hgone]
  split
  · exact congrArg Except.ok (hfirst "a" "b")
  · exact congrArg Except.ok (hfirst "b" "a")

/-- **A log with this vector repeats the one that comes first in the order.** -/
theorem take_tied (hdims : c.settings.dims = 2) (hthreshold : c.settings.duplicateThreshold ≤ .one)
    (rank : List String → String → Nat) (id : String) :
    (c.take (tiedPlane rank) (delivered id [.one, .zero])).2
      = some (.done (.ok (.duplicate
          (if rank ["a", "b"] "a" ≤ rank ["a", "b"] "b" then "a" else "b") .one))) := by
  have hcol : (tiedStore rank).current = .ok tied := rfl
  have hlen : ([.one, .zero] : Embedding).length = c.settings.dims := hdims.symm
  have hlog : (delivered id [.one, .zero]).resolution.hasLog = true := by
    show (delivered "" []).resolution.hasLog = true
    decide +kernel
  rw [(c.take_leaves (s := tiedStore rank) rfl _).2]
  show (c.effect _ _ _ (.answers [.one, .zero])).2 = _
  rw [c.effect_answers _ _ hlog hlen]
  unfold remember repeated
  rw [Collections.search_of_current hcol, show (tiedStore rank).machine = ⟨.usual, rank⟩ from rfl,
    search_tied]
  simp only [bind, Except.bind, List.head?_cons, if_pos hthreshold]
  rfl

end Consolidator

end IncidentMemory
