import IncidentMemory.Proofs.Consolidation

/-!
# Stores as they are seen through their payloads

A search scores vectors and hands out ids, and a point is put in by its id. What
its payload says is nowhere looked at. To say so, a *view* replaces every payload
by something made from it, and a search finds the same before and after
(`Collection.search_view`).

So two stores that look alike are treated alike. The same resolution becomes of a
log in both of them, and they go on to look alike if what is written does
(`Consolidator.effect_alike`). They need not go through their points in the same
order. Then, where several points are equally near, a duplicate may be named after
another one of them in each, and this is the only difference (`Consolidator.Ties`).
The strongest view, which drops all payloads, leaves ids, vectors and their order.
-/

namespace IncidentMemory

open Simulation

section

variable (f : Payload → Payload)

/-- A point, its payload seen through a view. -/
def Point.view (p : Point) : Point :=
  { p with payload := f p.payload }

/-- A hit, its payload seen through a view. -/
def Hit.view (h : Hit) : Hit :=
  { h with payload := f h.payload }

/-- A collection, all payloads seen through a view. -/
def Collection.view (c : Collection) : Collection :=
  { c with points := c.points.map (Point.view f) }

/-- **Collections, all payloads seen through a view.** -/
def Collections.view (s : Collections) : Collections :=
  { s with all := s.all.map fun (name, c) => (name, c.view f) }

end

/-- **The same collections, gone through in another order.** -/
def Collections.reordered (rank : List String → String → Nat) (s : Collections) : Collections :=
  { s with machine := { s.machine with rank := rank } }

/-- **Two stores look alike**: seen through a view they are the same, but for the
order in which they are gone through. -/
def Collections.Alike (f : Payload → Payload) (s₁ s₂ : Collections) : Prop :=
  s₂.view f = (s₁.view f).reordered s₂.machine.rank

variable {f : Payload → Payload}

namespace Collection

variable {c₁ c₂ : Collection} {e : Embedding}

theorem insertPoint_view (p : Point) (points : List Point) :
    insertPoint (p.view f) (points.map (Point.view f))
      = (insertPoint p points).map (Point.view f) := by
  induction points with
  | nil => rfl
  | cons q qs ih =>
    rw [List.map_cons, insertPoint, insertPoint, ih]
    show (if q.id = p.id then _ else _) = _
    split <;> rfl

theorem scores_view (m : Machine) (c : Collection) (e : Embedding) :
    (c.view f).scores m e = c.scores m e :=
  List.map_map

/-- **The points are gone through in the same order.** -/
theorem gone_view (m : Machine) (c : Collection) :
    (c.view f).gone m = (c.gone m).map (Point.view f) := by
  have hids : (c.view f).points.map (·.id) = c.points.map (·.id) := List.map_map
  unfold gone
  rw [hids]
  exact Eq.symm <| List.map_mergeSort (f := Point.view f) fun _ _ _ _ => rfl

/-- **A search finds the same hits.** -/
theorem search_view (m : Machine) (c : Collection) (query : Embedding) (limit : Nat)
    (least : Option Single) :
    (c.view f).search m query limit least
      = (c.search m query limit least).map (List.map (Hit.view f)) := by
  by_cases h : query.length = c.dims
  · have h' : query.length = (c.view f).dims := h
    have hhits : (((c.view f).gone m).map ((c.view f).hit m query))
        = ((c.gone m).map (c.hit m query)).map (Hit.view f) := by
      rw [gone_view, List.map_map, List.map_map]
      rfl
    have hsort : ∀ hits : List Hit,
        (hits.map (Hit.view f)).mergeSort (fun a b => b.score.totalLe a.score)
          = (hits.mergeSort fun a b => b.score.totalLe a.score).map (Hit.view f) :=
      fun hits => Eq.symm <| List.map_mergeSort (r := fun (a b : Hit) => b.score.totalLe a.score)
        (s := fun (a b : Hit) => b.score.totalLe a.score) (f := Hit.view f) fun _ _ _ _ => rfl
    rw [search_of_length m h, search_of_length m h', hhits, List.filter_map, hsort, ← List.map_take]
    rfl
  · have h' : query.length ≠ (c.view f).dims := h
    rw [search_of_length_ne m h, search_of_length_ne m h']
    rfl

/-- If two searches find one point each, in collections that look the same, it is of one id. -/
theorem id_eq_of_search {m₁ m₂ : Machine} {p q : Point} (hm : m₂ = m₁)
    (h : c₂.view f = c₁.view f) (h₁ : c₁.search m₁ e 1 none = .ok [c₁.hit m₁ e p])
    (h₂ : c₂.search m₂ e 1 none = .ok [c₂.hit m₂ e q]) : p.id = q.id := by
  have hview₁ := search_view (f := f) m₁ c₁ e 1 none
  have hview₂ := search_view (f := f) m₂ c₂ e 1 none
  rw [h₁] at hview₁
  rw [h₂, hm, h, hview₁] at hview₂
  exact congrArg Hit.id (List.cons.inj (Except.ok.inj hview₂)).1

/-- How points score does not depend on the order in which they are gone through. -/
theorem scoreOf_congr {m₁ m₂ : Machine} (hm : m₂.arithmetic = m₁.arithmetic) (c : Collection)
    (e : Embedding) (p : Point) : c.scoreOf m₂ e p = c.scoreOf m₁ e p := by
  unfold scoreOf
  rw [hm]

/-- **A nearest point is one in every collection that looks the same**, whatever the order. -/
theorem IsNearest.of_view {m₁ m₂ : Machine} {q : Point} (hm : m₂.arithmetic = m₁.arithmetic)
    (h : c₂.view f = c₁.view f) (hq : c₂.IsNearest m₂ e q) :
    ∃ p, c₁.IsNearest m₁ e p ∧ p.id = q.id ∧ c₁.scoreOf m₁ e p = c₂.scoreOf m₂ e q := by
  have hmem : q.view f ∈ (c₁.view f).points := h ▸ List.mem_map_of_mem hq.mem
  obtain ⟨p, hp, hpq⟩ := List.mem_map.mp hmem
  have hview : ∀ (c : Collection) (p : Point),
      (c.view f).scoreOf m₂ e (p.view f) = c.scoreOf m₂ e p := fun _ _ => rfl
  have hid : (p.view f).id = (q.view f).id := by rw [hpq]
  have hscore : c₁.scoreOf m₁ e p = c₂.scoreOf m₂ e q := by
    rw [← scoreOf_congr hm, ← hview, ← hview c₂, hpq, h]
  have hscores : c₁.scores m₁ e = c₂.scores m₂ e := by
    rw [← scores_view (f := f) m₂, h, scores_view]
    exact List.map_congr_left fun p _ => (scoreOf_congr hm c₁ e p).symm
  refine ⟨p, ⟨hp, fun x hx => ?_⟩, hid, hscore⟩
  rw [hscore]
  exact hq.ahead x (hscores ▸ hx)

end Collection

namespace Collections

variable {s s₁ s₂ : Collections} {c c₁ c₂ : Collection}

theorem current_view (s : Collections) :
    (s.view f).current = s.current.map (Collection.view f) := by
  have hlookup : (s.view f).all.lookup s.bound
      = (s.all.lookup s.bound).map (Collection.view f) := by
    unfold view
    dsimp only
    induction s.all with
    | nil => rfl
    | cons entry rest ih =>
      rw [List.map_cons, List.lookup_cons, List.lookup_cons, ih]
      split <;> rfl
  unfold current
  rw [show (s.view f).bound = s.bound from rfl, hlookup]
  cases s.all.lookup s.bound <;> rfl

theorem withCurrent_view (s : Collections) (c : Collection) :
    (s.view f).withCurrent (c.view f) = (s.withCurrent c).view f := by
  unfold withCurrent view
  dsimp only
  rw [List.map_map, List.map_map]
  congr 1
  refine List.map_congr_left fun entry _ => ?_
  dsimp only [Function.comp]
  split <;> rfl

/-- A store looks like itself in another order. -/
theorem alike_reordered (f : Payload → Payload) (rank : List String → String → Nat)
    (s : Collections) : s.Alike f (s.reordered rank) :=
  rfl

/-- Stores that look alike compute the same scores, -/
theorem Alike.arithmetic (h : s₁.Alike f s₂) : s₂.machine.arithmetic = s₁.machine.arithmetic :=
  congrArg (fun s => s.machine.arithmetic) h

/-- and are on one machine, if they are gone through in one order. -/
theorem Alike.machine (h : s₁.Alike f s₂) (hrank : s₂.machine.rank = s₁.machine.rank) :
    s₂.machine = s₁.machine := by
  have hmachine : s₂.machine = { s₁.machine with rank := s₂.machine.rank } :=
    congrArg Collections.machine h
  rw [hmachine, hrank]

/-- **Their current collections look the same**, if there are any. -/
theorem Alike.current (h : s₁.Alike f s₂) :
    s₂.current.map (Collection.view f) = s₁.current.map (Collection.view f) := by
  rw [← current_view, ← current_view, h]
  rfl

theorem Alike.current_ok (h : s₁.Alike f s₂) (h₁ : s₁.current = .ok c₁) :
    ∃ c₂, s₂.current = .ok c₂ ∧ c₂.view f = c₁.view f := by
  have hcurrent := h.current
  rw [h₁] at hcurrent
  cases h₂ : s₂.current with
  | error failure =>
    rw [h₂] at hcurrent
    exact nomatch hcurrent
  | ok c₂ =>
    rw [h₂] at hcurrent
    exact ⟨c₂, rfl, Except.ok.inj hcurrent⟩

theorem Alike.current_error {failure : Failure} (h : s₁.Alike f s₂)
    (h₁ : s₁.current = .error failure) : s₂.current = .error failure := by
  have hcurrent := h.current
  rw [h₁] at hcurrent
  cases h₂ : s₂.current with
  | error failure' =>
    rw [h₂] at hcurrent
    exact congrArg _ (Except.error.inj hcurrent)
  | ok c₂ =>
    rw [h₂] at hcurrent
    exact nomatch hcurrent

/-- **They go on to look alike** when points that look alike are put in. -/
theorem Alike.insertPoint (h : s₁.Alike f s₂) (hc : c₂.view f = c₁.view f) {p₁ p₂ : Point}
    (hp : p₁.view f = p₂.view f) :
    (s₁.withCurrent { c₁ with points := Collection.insertPoint p₁ c₁.points }).Alike f
      (s₂.withCurrent { c₂ with points := Collection.insertPoint p₂ c₂.points }) := by
  have hput : ∀ (p : Point) (c : Collection),
      Collection.view f { c with points := Collection.insertPoint p c.points }
        = { c.view f with points := Collection.insertPoint (p.view f) (c.view f).points } :=
    fun p c =>
      congrArg (Collection.mk c.dims c.distance) (Collection.insertPoint_view p c.points).symm
  unfold Alike
  rw [← withCurrent_view, ← withCurrent_view, hput, hput, hp, hc, h]
  rfl

end Collections

namespace Consolidator

/-- **Endings that say the same**, but for which of several records a log repeats:
where several are equally near, each may name another one of them. If the points
are gone through in one order, it is the same one. The first ending is that of a
consolidation in the given store, the second that of one in a store that looks
alike and is gone through in the given order. -/
inductive Ties (s : Collections) (rank : List String → String → Nat) (b : Behaviour Embedding) :
    Option (Attempt (Outcome Consolidated)) → Option (Attempt (Outcome Consolidated)) → Prop
  /-- They are the same. -/
  | same (ended : Option (Attempt (Outcome Consolidated))) : Ties s rank b ended ended
  /-- Each names a nearest point. -/
  | duplicates {col : Collection} {e : Embedding} {p q : Point} (hcol : s.current = .ok col)
      (he : b = .answers e) (hp : col.IsNearest s.machine e p) (hq : col.IsNearest s.machine e q)
      (hrank : rank = s.machine.rank → p.id = q.id) :
      Ties s rank b (some (.done (.ok (.duplicate p.id (col.scoreOf s.machine e p)))))
        (some (.done (.ok (.duplicate q.id (col.scoreOf s.machine e p)))))

variable {s s₁ s₂ : Collections} {c₁ c₂ : Consolidator}

/-- Endings are the same if the points are gone through in one order. -/
theorem Ties.eq {rank : List String → String → Nat} {b : Behaviour Embedding}
    {x y : Option (Attempt (Outcome Consolidated))} (h : Ties s rank b x y)
    (hrank : rank = s.machine.rank) : y = x := by
  cases h with
  | same => rfl
  | duplicates hcol he hp hq hsame => rw [hsame hrank]

/-- **Two stores that look alike are treated alike**, once a log has been embedded. -/
theorem remember_alike
    (hthreshold : c₁.settings.duplicateThreshold = c₂.settings.duplicateThreshold)
    (hs : s₁.Alike f s₂) {r : Resolution} {now₁ now₂ : Timestamp} {e : Embedding}
    (hpoint : (c₁.recordOf r e now₁).toPoint.view f = (c₂.recordOf r e now₂).toPoint.view f) :
    (settled s₁ (c₁.remember s₁ r now₁ e)).1.Alike f (settled s₂ (c₂.remember s₂ r now₂ e)).1
      ∧ Ties s₁ s₂.machine.rank (.answers e) (settled s₁ (c₁.remember s₁ r now₁ e)).2
        (settled s₂ (c₂.remember s₂ r now₂ e)).2 := by
  cases h₁ : s₁.current with
  | error failure =>
    rw [c₁.remember_of_current_error h₁, c₂.remember_of_current_error (hs.current_error h₁)]
    exact ⟨hs, .same _⟩
  | ok col₁ =>
  obtain ⟨col₂, h₂, hview⟩ := hs.current_ok h₁
  have hdims : (col₂.view f).dims = (col₁.view f).dims := by rw [hview]
  by_cases hlen : e.length = col₁.dims
  · rcases c₁.remember_cases h₁ r now₁ hlen with ⟨p, hp, hsearch₁, hreach₁, hrem₁⟩ | ⟨hnone₁, hrem₁⟩
      <;> rcases c₂.remember_cases h₂ r now₂ (hlen.trans hdims.symm) with
        ⟨q, hq, hsearch₂, hreach₂, hrem₂⟩ | ⟨hnone₂, hrem₂⟩
      <;> rw [hrem₁, hrem₂]
    · obtain ⟨q', hq', hid, hscore⟩ := hq.of_view hs.arithmetic hview
      rw [← hscore, ← hp.scoreOf_eq hq', ← hid]
      refine ⟨hs, .duplicates h₁ rfl hp hq' fun hrank => ?_⟩
      exact (Collection.id_eq_of_search (hs.machine hrank) hview hsearch₁ hsearch₂).trans hid.symm
    · -- the nearest point that was found is there in the other store, too
      obtain ⟨p', hp', -, hscore⟩ := hp.of_view hs.arithmetic.symm hview.symm
      exact absurd (hthreshold ▸ hscore ▸ hreach₁) (hnone₂.not_reaches hp')
    · obtain ⟨q', hq', -, hscore⟩ := hq.of_view hs.arithmetic hview
      exact absurd (hthreshold ▸ hscore ▸ hreach₂) (hnone₁.not_reaches hq')
    · exact ⟨hs.insertPoint hview hpoint, .same _⟩
  · rw [c₁.remember_of_length_ne h₁ r now₁ hlen,
      c₂.remember_of_length_ne h₂ r now₂ (fun h => hlen (h.trans hdims)),
      show col₂.dims = _ from hdims]
    exact ⟨hs, .same _⟩

/-- **Two stores that look alike are treated alike**: a consolidation of the same
resolution ends in the same way, and the stores look alike afterwards, if what is
written would look alike. -/
theorem effect_alike (hthreshold : c₁.settings.duplicateThreshold = c₂.settings.duplicateThreshold)
    (hdims : c₁.settings.dims = c₂.settings.dims) (hs : s₁.Alike f s₂) {r : Resolution}
    {now₁ now₂ : Timestamp}
    (hpoint : ∀ e, (c₁.recordOf r e now₁).toPoint.view f = (c₂.recordOf r e now₂).toPoint.view f)
    (b : Behaviour Embedding) :
    (c₁.effect s₁ r now₁ b).1.Alike f (c₂.effect s₂ r now₂ b).1
      ∧ Ties s₁ s₂.machine.rank b (c₁.effect s₁ r now₁ b).2 (c₂.effect s₂ r now₂ b).2 := by
  unfold effect
  rw [hdims]
  split
  · exact ⟨hs, .same _⟩
  · cases b with
    | answers e =>
      dsimp only
      split
      · exact remember_alike hthreshold hs (hpoint e)
      · exact ⟨hs, .same _⟩
    | fails failure => exact ⟨hs, .same _⟩
    | breaksOff text => exact ⟨hs, .same _⟩
    | hangs => exact ⟨hs, .same _⟩
    | cancels => exact ⟨hs, .same _⟩

end Consolidator

end IncidentMemory
