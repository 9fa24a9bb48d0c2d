import IncidentMemory.Proofs.SelfSimilarity
import IncidentMemory.Proofs.Separation

/-!
# What hides a stored vector from the duplicate check

A consolidation looks at a single point, one that the total order puts first, and
asks by value whether it reaches the duplicate threshold. A positive
not-a-number is first, reaches no threshold, and hides every point behind it. So
a log is reported as a duplicate exactly if some point reaches the threshold and
no point has such a score (`Consolidator.consolidate_duplicate_iff`).

Scores that are not numbers come about: vectors can hold infinities and
components with squares that overflow. Whether they are positive is up to the
processor. With one that makes negative ones nothing is hidden; with another one
a single such vector blinds the check to all others
(`Consolidator.not_duplicate_blinded`).
-/

namespace IncidentMemory

open Simulation

namespace Consolidator

variable {c : Consolidator} {w : World} {s : Collections} {m : Machine} {col : Collection}
  {e : Embedding}

/-- **A point is seen to be near**: one reaches the threshold, and no score is ahead of all
numbers. -/
structure SeesNear (c : Consolidator) (m : Machine) (col : Collection) (e : Embedding) : Prop where
  /-- A point reaches the threshold. -/
  near : ∃ p ∈ col.points, c.settings.duplicateThreshold ≤ col.scoreOf m e p
  /-- Nothing hides it. -/
  clear : ∀ p ∈ col.points, (col.scoreOf m e p).NotAhead

/-- If a nearest point reaches the threshold, it is seen, -/
theorem seesNear_of_isNearest {p : Point} (hp : col.IsNearest m e p)
    (hreach : c.settings.duplicateThreshold ≤ col.scoreOf m e p) : c.SeesNear m col e where
  near := ⟨p, hp.mem, hreach⟩
  clear _ hq := Single.notAhead_of_totalLe (Single.le_iff.mp hreach).2.1
    (hp.ahead _ (Collection.score_mem_scores e hq))

/-- and if none is near, none is seen. -/
theorem NoneNear.not_seesNear (h : c.NoneNear m col e) : ¬ c.SeesNear m col e := by
  rintro ⟨⟨p, hp, hreach⟩, hclear⟩
  rcases h with hnil | ⟨best, hbest, hbelow⟩
  · rw [hnil] at hp
    exact List.not_mem_nil hp
  · -- no number is ahead of the best, and the best is a number like the one that reaches
    have hle := (hclear best hbest.mem).le_of_totalLe (Single.le_iff.mp hreach).2.1
      (hbest.ahead _ (Collection.score_mem_scores e hp))
    exact hbelow (Single.le_trans hreach hle)

/-- **An embedding that fits is a duplicate or remembered**, as a near point is seen or not. -/
theorem remember_seesNear (c : Consolidator) (hcol : s.current = .ok col) (r : Resolution)
    (now : Timestamp) (hlen : e.length = col.dims) :
    (c.SeesNear s.machine col e
        ∧ ∃ id score, c.remember s r now e = .ok (s, .duplicate id score))
      ∨ (¬ c.SeesNear s.machine col e
        ∧ c.remember s r now e = .ok (c.withStored s col r now e, .stored r.incidentId)) := by
  rcases c.remember_cases hcol r now hlen with
    ⟨p, hp, -, hreach, hrem⟩ | ⟨hnear, hrem⟩
  · exact .inl ⟨seesNear_of_isNearest hp hreach, p.id, _, hrem⟩
  · exact .inr ⟨hnear.not_seesNear, hrem⟩

/-- In a collection that compares by cosine. -/
theorem seesNear_iff (hcos : col.distance = .cosine) :
    c.SeesNear m col e
      ↔ (∃ p ∈ col.points,
          c.settings.duplicateThreshold ≤ Embedding.cosine m.arithmetic e p.vector)
        ∧ ∀ p ∈ col.points, (Embedding.cosine m.arithmetic e p.vector).NotAhead := by
  constructor
  · rintro ⟨⟨p, hp, hreach⟩, hclear⟩
    rw [Collection.scoreOf_of_cosine hcos] at hreach
    refine ⟨⟨p, hp, hreach⟩, fun q hq => ?_⟩
    rw [← Collection.scoreOf_of_cosine hcos]
    exact hclear q hq
  · rintro ⟨⟨p, hp, hreach⟩, hclear⟩
    rw [← Collection.scoreOf_of_cosine hcos] at hreach
    refine ⟨⟨p, hp, hreach⟩, fun q hq => ?_⟩
    rw [Collection.scoreOf_of_cosine hcos]
    exact hclear q hq

/-- **A consolidation of a log with an embedding that fits** ends as a duplicate if a near point is
seen, and as stored if none is. -/
theorem consolidate_seesNear (c : Consolidator) (hs : w.store = .inMemory s)
    (hcol : s.current = .ok col) (t : TaskId) {r : Resolution} (hlog : r.hasLog = true)
    (he : w.embedder.behaviour r.rawLog = .answers e) (hdims : e.length = c.settings.dims)
    (hlen : e.length = col.dims) :
    ((∃ id score, (w.carryOut t (c.consolidate r).run).2
          = some (.done (.ok (.duplicate id score))))
        ↔ c.SeesNear s.machine col e)
      ∧ ((w.carryOut t (c.consolidate r).run).2 = some (.done (.ok (.stored r.incidentId)))
        ↔ ¬ c.SeesNear s.machine col e) := by
  rw [(c.carryOut_consolidate r hs).2, he, effect_answers c s w.today hlog hdims]
  rcases c.remember_seesNear hcol r w.today hlen with ⟨hsees, id, score, hrem⟩ | ⟨hnone, hrem⟩
  · rw [hrem]
    exact ⟨iff_of_true ⟨id, score, rfl⟩ hsees, iff_of_false nofun (not_not_intro hsees)⟩
  · rw [hrem]
    exact ⟨iff_of_false nofun hnone, iff_of_true rfl hnone⟩

/-- **When the duplicate check sees a duplicate.** In a store that compares by
cosine, whatever it holds, let a resolution have a log, and its log an embedding
of the right length, whatever is in that. Then the consolidation ends: as a
duplicate if some stored point scores at or above the threshold and none scores a
positive not-a-number, and as stored otherwise. On a processor that makes nothing
ahead of all numbers no stored vector blinds the check: it sees a duplicate
exactly if some stored point scores at or above the threshold. -/
theorem consolidate_duplicate_iff (c : Consolidator) (hs : w.store = .inMemory s)
    (hcol : s.current = .ok col) (hcos : col.distance = .cosine) (t : TaskId) {r : Resolution}
    (hlog : r.hasLog = true) (he : w.embedder.behaviour r.rawLog = .answers e)
    (hdims : e.length = c.settings.dims) (hlen : e.length = col.dims) :
    let score := fun p : Point => Embedding.cosine s.machine.arithmetic e p.vector
    let near := ∃ p ∈ col.points, c.settings.duplicateThreshold ≤ score p
    let ended := (w.carryOut t (c.consolidate r).run).2
    ((∃ id score, ended = some (.done (.ok (.duplicate id score))))
        ↔ near ∧ ∀ p ∈ col.points, (score p).NotAhead)
      ∧ (ended = some (.done (.ok (.stored r.incidentId)))
        ↔ ¬ (near ∧ ∀ p ∈ col.points, (score p).NotAhead))
      ∧ (s.machine.arithmetic.StaysBehind →
        ((∃ id score, ended = some (.done (.ok (.duplicate id score)))) ↔ near)) := by
  intro score near ended
  have hended := c.consolidate_seesNear hs hcol t hlog he hdims hlen
  rw [seesNear_iff hcos] at hended
  refine ⟨hended.1, hended.2, fun hbehind => hended.1.trans (and_iff_left ?_)⟩
  exact fun p _ => Embedding.notAhead_cosine hbehind e p.vector

/-- Points whose vectors are infinite, too long for their norm, or not numbers, and one like the
others that come. -/
def extremes : Collection where
  dims := 2
  distance := .cosine
  points := [⟨"infinite", [.infinity false, .zero], []⟩, ⟨"huge", [⟨0x7F7FFFFF⟩, .zero], []⟩,
    ⟨"not-a-number", [.nan false, .zero], []⟩, ⟨"ordinary", [.one, .zero], []⟩]

/-- The world with these points on a machine, in which every log has the embedding of the last
one. -/
def extremePlane (m : Machine) : World :=
  { World.bare with
    embedder := ⟨[], .answers [.one, .zero]⟩
    store := .inMemory ⟨m, "memories", 2, [("memories", extremes)]⟩ }

/-- The point that is like the new one is not missed, though the score of another one is not a
number: that one is negative. -/
theorem consolidate_duplicate_iff_extremes :
    (delivered "a" [.one, .zero]).resolution.hasLog = true
      ∧ (extremePlane .usual).embedder.behaviour (delivered "a" [.one, .zero]).resolution.rawLog
        = .answers [.one, .zero]
      ∧ [Single.one, .zero].length = inThePlane.settings.dims
      ∧ [Single.one, .zero].length = extremes.dims
      ∧ (Embedding.cosine .usual [.one, .zero] [.infinity false, .zero]).isNaN = true
      ∧ ∃ id score, ((extremePlane .usual).carryOut (.step 0)
          (inThePlane.consolidate (delivered "a" [.one, .zero]).resolution).run).2
        = some (.done (.ok (.duplicate id score))) := by
  have hlog : (delivered "a" [.one, .zero]).resolution.hasLog = true := by decide +kernel
  have hcol : (Collections.mk .usual "memories" 2 [("memories", extremes)]).current
      = .ok extremes := rfl
  refine ⟨hlog, rfl, rfl, rfl, by decide +kernel, ?_⟩
  refine ((consolidate_duplicate_iff inThePlane (w := extremePlane .usual) rfl hcol rfl (.step 0)
    hlog rfl rfl rfl).2.2 Arithmetic.staysBehind_usual).mpr
    ⟨⟨"ordinary", [.one, .zero], []⟩, ?_, by decide +kernel⟩
  simp [extremes]

/-- A machine on which all operations without a number for a result come to the positive
not-a-number. -/
def positive : Machine where
  arithmetic := ⟨fun _ _ => .nan false, fun _ _ => rfl⟩
  rank _ _ := 0

/-- **There the same point is missed**: the score of the infinite one is ahead of its score, and
the log is stored as if nothing were like it. -/
theorem not_duplicate_blinded :
    (delivered "a" [.one, .zero]).resolution.hasLog = true
      ∧ [Single.one, .zero].length = inThePlane.settings.dims
      ∧ [Single.one, .zero].length = extremes.dims
      ∧ (∃ p ∈ extremes.points, inThePlane.settings.duplicateThreshold
          ≤ Embedding.cosine positive.arithmetic [.one, .zero] p.vector)
      ∧ ((extremePlane positive).carryOut (.step 0)
          (inThePlane.consolidate (delivered "a" [.one, .zero]).resolution).run).2
        = some (.done (.ok (.stored "a"))) := by
  have hlog : (delivered "a" [.one, .zero]).resolution.hasLog = true := by decide +kernel
  have hcol : (Collections.mk positive "memories" 2 [("memories", extremes)]).current
      = .ok extremes := rfl
  refine ⟨hlog, rfl, rfl, by decide +kernel, ?_⟩
  refine (inThePlane.consolidate_seesNear (w := extremePlane positive) rfl hcol (.step 0) hlog rfl
    rfl rfl).2.mpr fun hsees => ?_
  have hinfinite := hsees.clear _ List.mem_cons_self
  exact absurd hinfinite (by decide +kernel)

end Consolidator

end IncidentMemory
