import IncidentMemory.Consolidation.Basic
import IncidentMemory.Proofs.Collections
import IncidentMemory.Proofs.Routine
import IncidentMemory.Proofs.World

/-!
# What a consolidation does to a vector store in memory

`Consolidator.consolidate` is a routine: it asks an embedder, searches, puts a
point in, and reports on the way. Over a vector store in memory all of this
comes down to one function of the collections, the resolution, the time and
the embedder's answer, `Consolidator.effect`
(`Consolidator.carryOut_consolidate`). What holds of consolidations in a row
is proved of that function.

The one case in which a consolidation changes the store is singled out by
`Consolidator.effect_cases`: it then puts a single point in, whose vector no
point of the collection scores at or above the threshold for.
-/

namespace IncidentMemory

open Simulation

namespace Consolidator

/-! ## The effect of a consolidation -/

/-- **What becomes of a resolution whose log has been embedded**: the
collections afterwards, and the outcome. -/
def remember (c : Consolidator) (s : Collections) (r : Resolution) (now : Timestamp)
    (e : Embedding) : Outcome (Collections × Consolidated) := do
  let hits ← s.search e 1 none
  match (c.repeated r.incidentId hits).value with
  | some hit => .ok (s, .duplicate hit.id hit.score)
  | none => .ok (← s.upsert [(c.recordOf r e now).toPoint], .stored r.incidentId)

/-- The collections and the result of an attempt that leaves the collections
as they are if it fails. -/
def settled (s : Collections) :
    Outcome (Collections × Consolidated) → Collections × Option (Attempt (Outcome Consolidated))
  | .ok (s', o) => (s', some (.done (.ok o)))
  | .error f => (s, some (.done (.error f)))

/-- **What becomes of a resolution**, by what the embedder does with its log:
the collections afterwards, and how the consolidation ended, if it has. -/
def effect (c : Consolidator) (s : Collections) (r : Resolution) (now : Timestamp)
    (b : Behaviour Embedding) : Collections × Option (Attempt (Outcome Consolidated)) :=
  if !r.hasLog then (s, some (.done (.ok .skipped)))
  else
    match b with
    | .answers e =>
      if e.length = c.settings.dims then settled s (c.remember s r now e)
      else (s, some (.done (.error (.dimensions c.settings.dims e.length))))
    | .fails f => (s, some (.done (.error f)))
    | .breaksOff text => (s, some (.brokenOff text))
    | .hangs | .cancels => (s, none)

/-- The record of a resolution has its id and the embedding of its log,
whether or not it is redacted. -/
@[simp] theorem recordOf_toPoint_id (c : Consolidator) (r : Resolution) (e : Embedding)
    (now : Timestamp) : (c.recordOf r e now).toPoint.id = r.incidentId := by
  unfold recordOf
  split <;> rfl

@[simp] theorem recordOf_toPoint_vector (c : Consolidator) (r : Resolution) (e : Embedding)
    (now : Timestamp) : (c.recordOf r e now).toPoint.vector = e := by
  unfold recordOf
  split <;> rfl

/-- **No point is near**: there is none, or not even a nearest one scores at or above the
threshold. -/
def NoneNear (c : Consolidator) (m : Machine) (col : Collection) (e : Embedding) : Prop :=
  col.points = [] ∨ ∃ p, col.IsNearest m e p
    ∧ ¬ c.settings.duplicateThreshold ≤ col.scoreOf m e p

/-- No nearest point does then. -/
theorem NoneNear.not_reaches {c : Consolidator} {m : Machine} {col : Collection} {e : Embedding}
    {p : Point} (h : c.NoneNear m col e) (hp : col.IsNearest m e p) :
    ¬ c.settings.duplicateThreshold ≤ col.scoreOf m e p := by
  rcases h with hnil | ⟨q, hq, hbelow⟩
  · exact absurd hp.mem (by rw [hnil]; exact List.not_mem_nil)
  · rwa [hp.scoreOf_eq hq]

/-- The collections with a resolution stored in the current one. -/
def withStored (c : Consolidator) (s : Collections) (col : Collection) (r : Resolution)
    (now : Timestamp) (e : Embedding) : Collections :=
  s.withCurrent
    { col with points := Collection.insertPoint (c.recordOf r e now).toPoint col.points }

/-- **A resolution is remembered only if no point is near**, and otherwise
reported as a duplicate of the nearest one that the search finds. -/
theorem remember_cases (c : Consolidator) {s : Collections} {col : Collection}
    (hcol : s.current = .ok col) (r : Resolution) (now : Timestamp) {e : Embedding}
    (hlen : e.length = col.dims) :
    (∃ p, col.IsNearest s.machine e p
        ∧ col.search s.machine e 1 none = .ok [col.hit s.machine e p]
        ∧ c.settings.duplicateThreshold ≤ col.scoreOf s.machine e p
        ∧ c.remember s r now e = .ok (s, .duplicate p.id (col.scoreOf s.machine e p)))
      ∨ (c.NoneNear s.machine col e
        ∧ c.remember s r now e = .ok (c.withStored s col r now e, .stored r.incidentId)) := by
  have hup : s.upsert [(c.recordOf r e now).toPoint] = .ok (c.withStored s col r now e) := by
    rw [Collections.upsert_one hcol, recordOf_toPoint_vector, if_pos hlen]
    rfl
  unfold remember repeated
  rw [Collections.search_of_current hcol]
  rcases Collection.search_one s.machine hlen with ⟨hnil, hsearch⟩ | ⟨p, hp, hsearch⟩
  · refine Or.inr ⟨Or.inl hnil, ?_⟩
    rw [hsearch, hup]
    rfl
  · rw [hsearch, hup]
    have hscore : (col.hit s.machine e p).score = col.scoreOf s.machine e p := rfl
    by_cases hnear : c.settings.duplicateThreshold ≤ col.scoreOf s.machine e p
    · refine Or.inl ⟨p, hp, rfl, hnear, ?_⟩
      simp only [bind, Except.bind, List.head?_cons, hscore, if_pos hnear]
      rfl
    · refine Or.inr ⟨Or.inr ⟨p, hp, hnear⟩, ?_⟩
      simp only [bind, Except.bind, List.head?_cons, hscore, if_neg hnear]

/-- An embedding that does not fit the collection is not remembered. -/
theorem remember_of_length_ne (c : Consolidator) {s : Collections} {col : Collection}
    (hcol : s.current = .ok col) (r : Resolution) (now : Timestamp) {e : Embedding}
    (hlen : e.length ≠ col.dims) :
    c.remember s r now e = .error (.dimensions col.dims e.length) := by
  unfold remember
  rw [Collections.search_of_current hcol, Collection.search_of_length_ne s.machine hlen]
  rfl

/-- Without a collection nothing is remembered. -/
theorem remember_of_current_error (c : Consolidator) {s : Collections} {f : Failure}
    (h : s.current = .error f) (r : Resolution) (now : Timestamp) (e : Embedding) :
    c.remember s r now e = .error f := by
  unfold remember Collections.search
  rw [h]
  rfl

/-- What a consolidation that ended as stored has stored. -/
def storedId? : Option (Attempt (Outcome Consolidated)) → Option String
  | some (.done (.ok (.stored id))) => some id
  | _ => none

/-- With a log, and an embedding that fits, the effect is that of remembering. -/
theorem effect_answers (c : Consolidator) (s : Collections) {r : Resolution} (now : Timestamp)
    {e : Embedding} (hlog : r.hasLog = true) (hdims : e.length = c.settings.dims) :
    c.effect s r now (.answers e) = settled s (c.remember s r now e) := by
  unfold effect
  rw [if_neg (by simp [hlog])]
  simp only [if_pos hdims]

/-- **A consolidation changes nothing unless it stores the resolution**, and
it stores it only if its log has an embedding that fits the collection and no
point is near. -/
theorem effect_cases (c : Consolidator) {s : Collections} {col : Collection}
    (hcol : s.current = .ok col) (r : Resolution) (now : Timestamp) (b : Behaviour Embedding) :
    ((c.effect s r now b).1 = s ∧ storedId? (c.effect s r now b).2 = none)
      ∨ ∃ e, b = .answers e ∧ r.hasLog = true ∧ e.length = c.settings.dims ∧ e.length = col.dims
        ∧ c.NoneNear s.machine col e
        ∧ c.effect s r now b
          = (c.withStored s col r now e, some (.done (.ok (.stored r.incidentId)))) := by
  unfold effect
  by_cases hlog : (!r.hasLog) = true
  · rw [if_pos hlog]
    exact Or.inl ⟨rfl, rfl⟩
  rw [if_neg hlog]
  cases b with
  | answers e =>
    by_cases hdims : e.length = c.settings.dims
    · simp only [if_pos hdims]
      by_cases hlen : e.length = col.dims
      · rcases c.remember_cases hcol r now hlen with ⟨p, -, -, -, hrem⟩ | ⟨hnear, hrem⟩
        · rw [hrem]
          exact Or.inl ⟨rfl, rfl⟩
        · rw [hrem]
          exact Or.inr ⟨e, rfl, by simpa using hlog, hdims, hlen, hnear, rfl⟩
      · rw [c.remember_of_length_ne hcol r now hlen]
        exact Or.inl ⟨rfl, rfl⟩
    · simp only [if_neg hdims]
      exact Or.inl ⟨trivial, rfl⟩
  | fails f => exact Or.inl ⟨rfl, rfl⟩
  | breaksOff text => exact Or.inl ⟨rfl, rfl⟩
  | hangs => exact Or.inl ⟨rfl, rfl⟩
  | cancels => exact Or.inl ⟨rfl, rfl⟩

/-- Without a collection nothing is stored. -/
theorem effect_of_current_error (c : Consolidator) {s : Collections} {f : Failure}
    (h : s.current = .error f) (r : Resolution) (now : Timestamp) (b : Behaviour Embedding) :
    (c.effect s r now b).1 = s ∧ storedId? (c.effect s r now b).2 = none := by
  unfold effect
  split
  · exact ⟨rfl, rfl⟩
  · cases b with
    | answers e =>
      simp only [c.remember_of_current_error h]
      split
      · exact ⟨rfl, rfl⟩
      · exact ⟨rfl, rfl⟩
    | fails f => exact ⟨rfl, rfl⟩
    | breaksOff text => exact ⟨rfl, rfl⟩
    | hangs => exact ⟨rfl, rfl⟩
    | cancels => exact ⟨rfl, rfl⟩

/-- A consolidation leaves the machine as it is. -/
theorem machine_effect (c : Consolidator) (s : Collections) (r : Resolution) (now : Timestamp)
    (b : Behaviour Embedding) : (c.effect s r now b).1.machine = s.machine := by
  cases hcol : s.current with
  | error f => rw [(c.effect_of_current_error hcol r now b).1]
  | ok col =>
    rcases c.effect_cases hcol r now b with ⟨hsame, -⟩ | ⟨e, -, -, -, -, -, heffect⟩
    · rw [hsame]
    · rw [heffect]
      rfl

/-- **If no score is not a number, one score bounds them all**: with no point
near, every point scores below the threshold. -/
theorem NoneNear.forall_lt {c : Consolidator} {m : Machine} {col : Collection} {e : Embedding}
    (h : c.NoneNear m col e) (hthr : c.settings.duplicateThreshold.isNaN = false)
    (hnum : ∀ x ∈ col.scores m e, x.isNaN = false) :
    ∀ p ∈ col.points, col.scoreOf m e p < c.settings.duplicateThreshold := by
  rcases h with hnil | ⟨best, hbest, hbelow⟩
  · rw [hnil]
    exact fun p hp => absurd hp List.not_mem_nil
  · intro p hp
    have hx := Collection.score_mem_scores (m := m) e hp
    have hy := hnum _ (Collection.score_mem_scores e hbest.mem)
    exact Single.lt_of_le_of_lt (Single.le_of_totalLe (hnum _ hx) hy (hbest.ahead _ hx))
      (Single.lt_of_not_le hthr hy hbelow)

/-! ## The routine has that effect -/

/-- What is carried out in a world leaves collections in memory, and comes to
a result. -/
def Leaves {α : Type} (x : World × Option (Attempt α)) (y : Collections × Option (Attempt α)) :
    Prop :=
  x.1.store = .inMemory y.1 ∧ x.2 = y.2

/-- The consolidation from the search on. -/
def searchOn (c : Consolidator) (r : Resolution) (e : Embedding) : Procedure Consolidated := do
  let known := c.repeated r.incidentId (← Procedure.search e 1 none)
  known.events.forM fun e => Routine.report e
  match known.value with
  | some hit => return .duplicate hit.id hit.score
  | none =>
    let now ← Routine.perform .now
    Procedure.upsert [(c.recordOf r e now).toPoint]
    Routine.report (event .info "Memory stored" r.incidentId [("collection", .str c.collection)])
    return .stored r.incidentId

variable {w : World} {s : Collections} {t : TaskId}

/-- Over collections in memory a search is answered at once. -/
theorem carryOut_search (hs : w.store = .inMemory s) (e : Embedding) (limit : Nat)
    (least : Option Single) :
    w.carryOut t (Procedure.search e limit least).run
      = (w, some (.done (s.search e limit least))) := by
  refine (World.carryOut_ask w t (.search e limit least)).trans ?_
  show World.tried (w.search e limit least) = _
  unfold World.search
  rw [hs]
  rfl

/-- Over collections in memory points are put in at once, or refused. -/
theorem carryOut_upsert_ok {s' : Collections} {points : List Point} (hs : w.store = .inMemory s)
    (h : s.upsert points = .ok s') :
    w.carryOut t (Procedure.upsert points).run
      = ({ w with store := .inMemory s' }, some (.done (.ok ()))) := by
  refine (World.carryOut_ask w t (.upsert points)).trans ?_
  show World.tried (w.upsert points) = _
  unfold World.upsert
  rw [hs]
  simp only [h]
  rfl

theorem carryOut_upsert_error {f : Failure} {points : List Point} (hs : w.store = .inMemory s)
    (h : s.upsert points = .error f) :
    w.carryOut t (Procedure.upsert points).run = (w, some (.done (.error f))) := by
  refine (World.carryOut_ask w t (.upsert points)).trans ?_
  show World.tried (w.upsert points) = _
  unfold World.upsert
  rw [hs]
  simp only [h]
  rfl

/-- From the search on, a consolidation has the effect of remembering. -/
theorem carryOut_searchOn (c : Consolidator) (r : Resolution) (e : Embedding)
    (hs : w.store = .inMemory s) :
    Leaves (w.carryOut t (c.searchOn r e).run) (settled s (c.remember s r w.today e)) := by
  unfold searchOn remember
  rw [World.carryOut_run_bind, carryOut_search hs]
  cases s.search e 1 none with
  | error f => exact ⟨hs, rfl⟩
  | ok hits =>
    show Leaves (w.carryOut t (ExceptT.run (List.forM _ _ >>= _)))
      (settled s (match (c.repeated r.incidentId hits).value with
        | some hit => .ok (s, .duplicate hit.id hit.score)
        | none => do .ok (← s.upsert [(c.recordOf r e w.today).toPoint], .stored r.incidentId)))
    rw [World.carryOut_run_report_bind]
    cases (c.repeated r.incidentId hits).value with
    | some hit => exact ⟨hs, rfl⟩
    | none =>
      have hs' : (w.logged (c.repeated r.incidentId hits).events).store = .inMemory s := hs
      rw [World.carryOut_run_lift_bind, World.carryOut_now, World.andThen_done,
        World.carryOut_run_bind, World.logged_today]
      cases hup : s.upsert [(c.recordOf r e w.today).toPoint] with
      | error f =>
        rw [carryOut_upsert_error hs' hup]
        exact ⟨hs, rfl⟩
      | ok s' =>
        rw [carryOut_upsert_ok hs' hup]
        exact ⟨rfl, rfl⟩

/-- **Over a vector store in memory a consolidation has its effect**, and
nothing else becomes of the store. -/
theorem carryOut_consolidate (c : Consolidator) (r : Resolution) (hs : w.store = .inMemory s) :
    Leaves (w.carryOut t (c.consolidate r).run)
      (c.effect s r w.today (w.embedder.behaviour r.rawLog)) := by
  unfold consolidate effect
  by_cases hlog : (!r.hasLog) = true
  · rw [if_pos hlog, if_pos hlog, World.carryOut_run_lift_bind, World.carryOut_report]
    exact ⟨hs, rfl⟩
  rw [if_neg hlog, if_neg hlog]
  show Leaves (w.carryOut t ((Procedure.embedAs c.settings.dims r.rawLog >>= c.searchOn r).run)) _
  unfold Procedure.embedAs
  rw [bind_assoc, World.carryOut_run_bind, World.carryOut_embed]
  have hs' : (w.traced (.embed r.rawLog)).store = .inMemory s := hs
  cases w.embedder.behaviour r.rawLog with
  | answers e =>
    by_cases hlen : e.length = c.settings.dims
    · simp only [if_pos hlen]
      show Leaves (World.carryOut _ t (ExceptT.run ((if _ then pure e else _) >>= _))) _
      rw [if_pos hlen, pure_bind]
      exact carryOut_searchOn c r e hs'
    · simp only [if_neg hlen]
      show Leaves (World.carryOut _ t (ExceptT.run ((if _ then _ else throw _) >>= _))) _
      rw [if_neg hlen]
      exact ⟨hs, rfl⟩
  | fails f => exact ⟨hs, rfl⟩
  | breaksOff text => exact ⟨hs, rfl⟩
  | hangs => exact ⟨hs, rfl⟩
  | cancels => exact ⟨(World.fire_store _).trans hs', rfl⟩

end Consolidator

end IncidentMemory
