import IncidentMemory.Proofs.DuplicateCheck

/-!
# A log that comes again

The duplicate threshold is there so that a log is not stored a second time.
Whether it is comes down to the score of its embedding with itself, since after
the first time there is a point that scores so, and to nothing hiding that point
(`Consolidator.Ranks.take_again`).

By `Embedding.nineteenTwentieths_le_cosine` the score is high enough for every
threshold up to `0.95`, if the norm of the embedding is above `epsilon` and has
not become infinite. A log with the zero vector for its embedding is stored as
often as it comes, and so is any log that comes where a score is a positive
not-a-number (`Consolidator.take_twice_zeroOrHugeOrHidden`). On a processor that
makes no such scores `Consolidator.takeAll_repeated` says of every embedding
whether its log is stored again.
-/

namespace IncidentMemory

open Simulation

namespace Consolidator

variable {c : Consolidator} {w : World} {m : Machine} {s : Collections} {col : Collection}
  {e : Embedding}

/-! ## Collections that compare by cosine -/

/-- A store on a machine whose current collection compares by cosine and has one
point per id. -/
def Ranks (m : Machine) (w : World) (s : Collections) (col : Collection) : Prop :=
  w.store = .inMemory s ∧ s.machine = m ∧ s.current = .ok col ∧ col.distance = .cosine
    ∧ Collection.Keyed col.points

/-- **What a consolidation leaves of such a store.** -/
theorem Ranks.take (h : Ranks m w s col) (d : Delivery) :
    ∃ s' col', Ranks m (c.take w d).1 s' col' := by
  obtain ⟨hs, hm, hcol, hcos, hkeyed⟩ := h
  obtain ⟨hstore, -⟩ := c.take_leaves hs d
  rcases c.effect_cases hcol d.resolution d.today (d.embedder.behaviour d.resolution.rawLog) with
    ⟨hsame, -⟩ | ⟨e, -, -, -, -, -, heffect⟩
  · exact ⟨s, col, hstore.trans (congrArg _ hsame), hm, hcol, hcos, hkeyed⟩
  · exact ⟨_, _, hstore.trans (congrArg _ (congrArg Prod.fst heffect)), hm,
      Collections.current_withCurrent hcol _, hcos, Collection.keyed_insertPoint _ hkeyed⟩

/-- What consolidations one after another leave of it. -/
theorem Ranks.takeAll (h : Ranks m w s col) (ds : List Delivery) :
    ∃ s' col', Ranks m (c.takeAll w ds).1 s' col' := by
  induction ds generalizing w s col with
  | nil => exact ⟨s, col, h⟩
  | cons d ds ih =>
    obtain ⟨s', col', h'⟩ := h.take (c := c) d
    exact ih h'

/-! ## The same log twice -/

theorem storedId?_eq_some_iff {ended : Ended} {id : String} :
    storedId? ended = some id ↔ ended = some (.done (.ok (.stored id))) := by
  unfold storedId?
  constructor
  · intro h
    split at h
    · rw [Option.some.inj h]
    · exact nomatch h
  · rintro rfl
    rfl

/-- The collection with a resolution put in. -/
def putIn (c : Consolidator) (col : Collection) (d : Delivery) (e : Embedding) : Collection :=
  { col with
    points := Collection.insertPoint (c.recordOf d.resolution e d.today).toPoint col.points }

/-- **A resolution that was stored** fits and had none near it that was seen. -/
theorem Ranks.take_stored (h : Ranks m w s col) {d : Delivery} {id : String}
    (hd : d.embedder.behaviour d.resolution.rawLog = .answers e)
    (hstored : (c.take w d).2 = some (.done (.ok (.stored id)))) :
    Ranks m (c.take w d).1 (c.withStored s col d.resolution d.today e) (c.putIn col d e)
      ∧ d.resolution.hasLog = true ∧ e.length = c.settings.dims ∧ e.length = col.dims
      ∧ ¬ c.SeesNear m col e := by
  obtain ⟨hs, rfl, hcol, hcos, hkeyed⟩ := h
  obtain ⟨hstore, hended⟩ := c.take_leaves hs d
  rw [hended] at hstored
  rcases c.effect_cases hcol d.resolution d.today (d.embedder.behaviour d.resolution.rawLog) with
    ⟨-, hnone⟩ | ⟨e', he', hhas, hdims, hlen, hnear, heffect⟩
  · rw [hstored] at hnone
    exact nomatch hnone
  · obtain rfl : e = e' := by
      rw [hd] at he'
      exact Behaviour.answers.inj he'
    refine ⟨⟨hstore.trans (congrArg _ (congrArg Prod.fst heffect)), rfl,
      Collections.current_withCurrent hcol _, hcos, Collection.keyed_insertPoint _ hkeyed⟩, hhas,
      hdims, hlen, hnear.not_seesNear⟩

/-- **What two resolutions with one log come to**, if the first is stored: the second is a
duplicate exactly if a near point is seen then. If there was one that would have been seen before,
it is gone. -/
structure Again (c : Consolidator) (m : Machine) (w : World) (d d' : Delivery) (e : Embedding)
    (col : Collection) : Prop where
  /-- The points that there are after the first. -/
  store : ∃ s, (c.take w d).1.store = .inMemory s ∧ s.current = .ok col
  /-- One of them has the embedding of the log. -/
  self : ∃ p ∈ col.points, p.vector = e
  /-- Of the others none is near, or something hides it. -/
  others : (∀ p : Point, (col.scoreOf m e p).NotAhead) → ∀ p ∈ col.points,
    c.settings.duplicateThreshold ≤ col.scoreOf m e p → p.vector = e
  /-- They are compared by cosine. -/
  distance : col.distance = .cosine
  /-- The second is a duplicate, and leaves the store as it is. -/
  iff : ((∃ id score, (c.take (c.take w d).1 d').2 = some (.done (.ok (.duplicate id score))))
      ∧ (c.take (c.take w d).1 d').1.store = (c.take w d).1.store) ↔ c.SeesNear m col e

/-- **Taking the same log again.** -/
theorem Ranks.take_again (h : Ranks m w s col) {d d' : Delivery} {id : String}
    (hd : d.embedder.behaviour d.resolution.rawLog = .answers e)
    (hd' : d'.embedder.behaviour d'.resolution.rawLog = .answers e)
    (hlog : d'.resolution.rawLog = d.resolution.rawLog)
    (hstored : (c.take w d).2 = some (.done (.ok (.stored id)))) :
    ∃ col', c.Again m w d d' e col' := by
  obtain ⟨⟨hs, hm, hcol, hcos, -⟩, hhas, hdims, hlen, hunseen⟩ := h.take_stored hd hstored
  have hhas' : d'.resolution.hasLog = true := by
    rw [← hhas, Resolution.hasLog, hlog]
    rfl
  have hmem := @Collection.mem_insertPoint (c.recordOf d.resolution e d.today).toPoint
  have hkeyed := h.2.2.2.2
  refine ⟨_, ⟨_, hs, hcol⟩, ⟨_, (hmem hkeyed).mpr (.inl rfl), recordOf_toPoint_vector ..⟩,
    fun hclear p hp hreach => ?_, hcos, ?_⟩
  · rcases (hmem hkeyed).mp hp with rfl | ⟨hp, -⟩
    · exact recordOf_toPoint_vector ..
    · -- it was there before, and would have been seen
      exact absurd ⟨⟨p, hp, hreach⟩, fun q _ => hclear q⟩ hunseen
  · obtain ⟨hstore', hended'⟩ := c.take_leaves hs d'
    rw [hstore', hended', hd', effect_answers c _ _ hhas' hdims, hs]
    rcases c.remember_seesNear hcol d'.resolution d'.today hlen with
      ⟨hsees, id, score, hrem⟩ | ⟨hnone, hrem⟩
    · rw [hrem]
      exact iff_of_true ⟨⟨id, score, rfl⟩, rfl⟩ (hm ▸ hsees)
    · rw [hrem]
      exact iff_of_false (fun ⟨⟨_, _, h⟩, _⟩ => nomatch h) (hm ▸ hnone)

/-- **A vector reaches a threshold of `0.95` or less with itself** if its norm is
above `epsilon`, and otherwise only if zero reaches it. -/
theorem reaches_self_iff {a : Arithmetic} {t : Single} (hhigh : t ≤ Single.nineteenTwentieths)
    (hfinite : Embedding.norm a e ≠ .infinity false) :
    t ≤ Embedding.cosine a e e ↔ Embedding.epsilon < Embedding.norm a e ∨ t ≤ .zero := by
  by_cases hnorm : Embedding.epsilon < Embedding.norm a e
  · have hself := Embedding.nineteenTwentieths_le_cosine hnorm hfinite
    exact iff_of_true (Single.le_trans hhigh hself) (.inl hnorm)
  · rw [Embedding.cosine_self_of_not_lt hnorm]
    exact (or_iff_right hnorm).symm

/-- It does not if its norm is infinite. -/
theorem not_reaches_self {a : Arithmetic} (t : Single)
    (hinfinite : Embedding.norm a e = .infinity false) : ¬ t ≤ Embedding.cosine a e e := by
  intro hreach
  have hnan := Embedding.isNaN_cosine_self hinfinite
  rw [(Single.le_iff.mp hreach).2.1] at hnan
  exact Bool.false_ne_true hnan

/-- Where the norm is not above `epsilon`, every score is zero. -/
theorem cosine_of_not_lt {a : Arithmetic} (hnorm : ¬ Embedding.epsilon < Embedding.norm a e)
    (u : Embedding) : Embedding.cosine a e u = .zero := by
  unfold Embedding.cosine
  split
  · rfl
  · exact if_neg fun h => hnorm h.1

/-- **Whether a near point is seen then**, if the norm has not become infinite. -/
theorem Again.seesNear_iff {d d' : Delivery} (h : c.Again m w d d' e col)
    (hhigh : c.settings.duplicateThreshold ≤ Single.nineteenTwentieths)
    (hfinite : Embedding.norm m.arithmetic e ≠ .infinity false) :
    c.SeesNear m col e
      ↔ (Embedding.epsilon < Embedding.norm m.arithmetic e ∨ c.settings.duplicateThreshold ≤ .zero)
        ∧ ∀ p ∈ col.points, (Embedding.cosine m.arithmetic e p.vector).NotAhead := by
  rw [Consolidator.seesNear_iff h.distance]
  refine and_congr_left fun _ => ⟨?_, fun hsimilar => ?_⟩
  · rintro ⟨p, -, hreach⟩
    by_cases hnorm : Embedding.epsilon < Embedding.norm m.arithmetic e
    · exact .inl hnorm
    · rw [cosine_of_not_lt hnorm] at hreach
      exact .inr hreach
  · obtain ⟨p, hp, hvector⟩ := h.self
    refine ⟨p, hp, ?_⟩
    rw [hvector]
    exact (reaches_self_iff hhigh hfinite).mpr hsimilar

/-- **If nothing ever hides one**, it is not seen where the norm is infinite, and otherwise comes
down to the norm. -/
theorem Again.seesNear_iff_of_staysBehind {d d' : Delivery} (h : c.Again m w d d' e col)
    (hhigh : c.settings.duplicateThreshold ≤ Single.nineteenTwentieths)
    (hbehind : m.arithmetic.StaysBehind) :
    c.SeesNear m col e
      ↔ Embedding.norm m.arithmetic e ≠ .infinity false
        ∧ (Embedding.epsilon < Embedding.norm m.arithmetic e
          ∨ c.settings.duplicateThreshold ≤ .zero) := by
  have hclear : ∀ p : Point, (Embedding.cosine m.arithmetic e p.vector).NotAhead :=
    fun p => Embedding.notAhead_cosine hbehind e p.vector
  by_cases hfinite : Embedding.norm m.arithmetic e = .infinity false
  · refine iff_of_false ?_ fun h => h.1 hfinite
    rintro ⟨⟨p, hp, hreach⟩, -⟩
    have hself :=
      h.others (fun q => Collection.scoreOf_of_cosine h.distance q ▸ hclear q) p hp hreach
    rw [Collection.scoreOf_of_cosine h.distance, hself] at hreach
    exact not_reaches_self _ hfinite hreach
  · rw [h.seesNear_iff hhigh hfinite, and_iff_left fun p _ => hclear p]
    exact (and_iff_right hfinite).symm

/-- **A log that comes again adds no memory.** Whatever a consolidator has taken
before, into a collection that was empty and compares by cosine, with an
embedder that answers the same log with the same vector: let a resolution be
stored, and let the norm of its embedding not have become infinite. Then the next
one with that log, under whatever id, is a duplicate and leaves the store as it is
exactly if the norm is above `epsilon` or the threshold is not above zero, and no
point that there is by then scores a positive not-a-number. On a processor that
makes nothing ahead of all numbers no point does, and an infinite norm is the
one other way to be stored again. -/
theorem takeAll_repeated (c : Consolidator) (embed : String → Embedding)
    (hhigh : c.settings.duplicateThreshold ≤ Single.nineteenTwentieths)
    (w : World) {s : Collections} {dims : Nat} (hs : w.store = .inMemory s)
    (hempty : s.current = .ok ⟨dims, .cosine, []⟩) (ds : List Delivery) (d d' : Delivery)
    (hembed : ∀ o ∈ d :: d' :: ds,
      o.embedder.behaviour o.resolution.rawLog = .answers (embed o.resolution.rawLog))
    (hlog : d'.resolution.rawLog = d.resolution.rawLog)
    (hstored : (c.take (c.takeAll w ds).1 d).2
      = some (.done (.ok (.stored d.resolution.incidentId)))) :
    let a := s.machine.arithmetic
    let e := embed d.resolution.rawLog
    let first := (c.take (c.takeAll w ds).1 d).1
    let repeated := (∃ id score, (c.take first d').2 = some (.done (.ok (.duplicate id score))))
      ∧ (c.take first d').1.store = first.store
    let similar := Embedding.epsilon < Embedding.norm a e ∨ c.settings.duplicateThreshold ≤ .zero
    ∃ s' col, first.store = .inMemory s' ∧ s'.current = .ok col
      ∧ (Embedding.norm a e ≠ .infinity false →
        (repeated ↔ similar ∧ ∀ p ∈ col.points, (Embedding.cosine a e p.vector).NotAhead))
      ∧ (a.StaysBehind → (repeated ↔ Embedding.norm a e ≠ .infinity false ∧ similar)) := by
  intro a e first repeated similar
  have hstart : Ranks s.machine w s ⟨dims, .cosine, []⟩ :=
    ⟨hs, rfl, hempty, rfl, List.Pairwise.nil⟩
  obtain ⟨_, _, hranks⟩ := hstart.takeAll (c := c) ds
  have hd' := hembed d' (by simp)
  rw [hlog] at hd'
  obtain ⟨col, hagain⟩ := hranks.take_again (hembed d (by simp)) (hlog ▸ hd') hlog hstored
  obtain ⟨s', hs', hcol⟩ := hagain.store
  exact ⟨s', col, hs', hcol, fun hfinite => hagain.iff.trans (hagain.seesNear_iff hhigh hfinite),
    fun hbehind => hagain.iff.trans (hagain.seesNear_iff_of_staysBehind hhigh hbehind)⟩

/-- A resolution whose log was stored before, with an embedding of the norm
five, is a duplicate. -/
theorem takeAll_repeated_normFive :
    inThePlane.settings.duplicateThreshold ≤ Single.nineteenTwentieths
      ∧ Embedding.norm .usual [⟨0x40400000⟩, ⟨0x40800000⟩] = ⟨0x40A00000⟩
      ∧ storedId? (inThePlane.take emptyPlane (delivered "a" [⟨0x40400000⟩, ⟨0x40800000⟩])).2
          = some "a"
      ∧ (∃ id score, (inThePlane.take (inThePlane.take emptyPlane
            (delivered "a" [⟨0x40400000⟩, ⟨0x40800000⟩])).1
            (delivered "b" [⟨0x40400000⟩, ⟨0x40800000⟩])).2
          = some (.done (.ok (.duplicate id score)))) := by
  refine ⟨by decide, by decide +kernel, by decide +kernel, ?_⟩
  obtain ⟨_, _, -, -, -, hiff⟩ :=
    takeAll_repeated inThePlane (fun _ => [⟨0x40400000⟩, ⟨0x40800000⟩]) (by decide) emptyPlane rfl
      rfl [] (delivered "a" [⟨0x40400000⟩, ⟨0x40800000⟩])
      (delivered "b" [⟨0x40400000⟩, ⟨0x40800000⟩])
      (by simp [delivered, Rules.behaviour]) rfl (storedId?_eq_some_iff.mp (by decide +kernel))
  exact ((hiff Arithmetic.staysBehind_usual).mpr
    ⟨by decide +kernel, .inl (by decide +kernel)⟩).1

/-- The empty collection on a machine that makes positive not-a-numbers. -/
def emptyPositive : World :=
  { World.bare with
    store := .inMemory ⟨positive, "memories", 2, [("memories", ⟨2, .cosine, []⟩)]⟩ }

/-- **What a point hides is stored**, however near it is to another. -/
theorem Ranks.take_hidden (h : Ranks m w s col) {d : Delivery} {p : Point} (hp : p ∈ col.points)
    (hnan : ¬ (Embedding.cosine m.arithmetic e p.vector).NotAhead)
    (hd : d.embedder.behaviour d.resolution.rawLog = .answers e) (hlog : d.resolution.hasLog = true)
    (hdims : e.length = c.settings.dims) (hlen : e.length = col.dims) :
    (c.take w d).2 = some (.done (.ok (.stored d.resolution.incidentId))) := by
  obtain ⟨hs, rfl, hcol, hcos, -⟩ := h
  refine (c.consolidate_seesNear (w := { w with embedder := d.embedder, today := d.today }) hs hcol
    (.background .worker) hlog hd hdims hlen).2.mpr fun hsees => hnan ?_
  exact Collection.scoreOf_of_cosine hcos p ▸ hsees.clear p hp

/-- An embedding that is so long that its norm is infinite. -/
def long : Embedding := [⟨0x7F61B1E6⟩, ⟨0x7F61B1E6⟩]

/-- An embedding of the norm two. -/
def short : Embedding := [⟨0x40000000⟩, .zero]

/-- **Some logs are stored again**: one whose embedding is zero, which is not
similar even to itself; one whose embedding is so long that its norm becomes
infinite; and an ordinary one that comes after such a long one, on a machine where
the score of the two is a positive not-a-number. -/
theorem take_twice_zeroOrHugeOrHidden :
    .zero ≤ inThePlane.settings.duplicateThreshold
      ∧ inThePlane.settings.duplicateThreshold ≤ Single.nineteenTwentieths
      ∧ (∀ e ∈ ([[.zero, .zero], [⟨0x7149F2CA⟩, .zero]] : List Embedding),
        (∀ x ∈ e, x.IsFinite) ∧ e.length = inThePlane.settings.dims
          ∧ storedId? (inThePlane.take emptyPlane (delivered "a" e)).2 = some "a"
          ∧ storedId? (inThePlane.take (inThePlane.take emptyPlane (delivered "a" e)).1
              (delivered "b" e)).2 = some "b")
      ∧ (∀ x ∈ long ++ short, x.IsFinite)
      ∧ Embedding.norm positive.arithmetic short = ⟨0x40000000⟩
      ∧ (inThePlane.takeAll emptyPositive
          [delivered "a" long, delivered "b" short, delivered "c" short]).2.map storedId?
        = [some "a", some "b", some "c"] := by
  refine ⟨by decide +kernel, by decide +kernel, by decide +kernel, by decide +kernel,
    by decide +kernel, ?_⟩
  have hempty : Ranks positive emptyPositive _ ⟨2, .cosine, []⟩ :=
    ⟨rfl, rfl, rfl, rfl, List.Pairwise.nil⟩
  have ha : storedId? (inThePlane.take emptyPositive (delivered "a" long)).2 = some "a" := by
    decide +kernel
  obtain ⟨hlong, -⟩ := hempty.take_stored (d := delivered "a" long) rfl
    (storedId?_eq_some_iff.mp ha)
  have hb : storedId? (inThePlane.take (inThePlane.take emptyPositive (delivered "a" long)).1
      (delivered "b" short)).2 = some "b" := by
    decide +kernel
  obtain ⟨hshort, -⟩ := hlong.take_stored (d := delivered "b" short) rfl
    (storedId?_eq_some_iff.mp hb)
  -- the first of the two points that there are hides the second one
  have hmem : (inThePlane.recordOf (delivered "a" long).resolution long
        (delivered "a" long).today).toPoint
      ∈ (inThePlane.putIn (inThePlane.putIn ⟨2, .cosine, []⟩ (delivered "a" long) long)
          (delivered "b" short) short).points := by
    simp [putIn, Collection.insertPoint, delivered]
  have hc := hshort.take_hidden (c := inThePlane) (d := delivered "c" short) hmem
    (by decide +kernel) rfl (by decide +kernel) rfl rfl
  simp only [takeAll, List.map_cons, List.map_nil, ha, hb, storedId?_eq_some_iff.mpr hc]
  rfl

end Consolidator

end IncidentMemory
