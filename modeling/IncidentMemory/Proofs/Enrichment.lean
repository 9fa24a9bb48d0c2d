import IncidentMemory.Proofs.Persistence
import IncidentMemory.Proofs.Selection
import IncidentMemory.Proofs.Storage
import IncidentMemory.Retrieval.Search
import Mathlib.Data.List.Basic

/-!
# From stored memories to an enriched goal

What a consolidator has stored in memory, a retriever can read again: a record is
written with the time of day, and a time of the years with four digits is read as
it was written. So of what the store answers a search with, nothing is dropped
afterwards, and since the store has sorted it and taken as much as the retriever
uses, filtering, sorting and taking again change nothing. A goal is enriched by
just the records that score best, or stays as it is (`Retriever.enrich_takeAll`).
-/

namespace IncidentMemory

open Simulation

/-- A collection with other records in it. -/
def Collection.withRecords (col : Collection) (records : List MemoryRecord) : Collection :=
  { col with points := records.map (·.toPoint) }

namespace Consolidator

/-! ## What consolidations have stored -/

/-- **Records that consolidations can have stored**: each is that of a resolution
which was delivered and whose log was embedded, and no two have the same id. -/
structure Stored (c : Consolidator) (ds : List Delivery) (records : List MemoryRecord) :
    Prop where
  /-- Ids differ. -/
  keyed : records.Pairwise (·.id ≠ ·.id)
  /-- Each record was delivered. -/
  delivered : ∀ m ∈ records, ∃ d ∈ ds, ∃ e,
    d.embedder.behaviour d.resolution.rawLog = .answers e
      ∧ m = c.recordOf d.resolution e d.today

/-- A record put in among others as a point. -/
theorem insertPoint_toPoint (m : MemoryRecord) (records : List MemoryRecord) :
    ∃ records' : List MemoryRecord,
      Collection.insertPoint m.toPoint (records.map (·.toPoint)) = records'.map (·.toPoint)
        ∧ ∀ m' ∈ records', m' = m ∨ m' ∈ records := by
  induction records with
  | nil => exact ⟨[m], rfl, by simp⟩
  | cons o os ih =>
    obtain ⟨os', heq, hmem⟩ := ih
    rw [List.map_cons, Collection.insertPoint]
    by_cases hid : o.toPoint.id = m.toPoint.id
    · rw [if_pos hid]
      refine ⟨m :: os, rfl, fun m' hm' => ?_⟩
      exact (List.mem_cons.mp hm').imp_right (List.mem_cons_of_mem o)
    · rw [if_neg hid, heq]
      refine ⟨o :: os', rfl, fun m' hm' => ?_⟩
      rcases List.mem_cons.mp hm' with rfl | hm'
      · exact Or.inr List.mem_cons_self
      · exact (hmem m' hm').imp_right (List.mem_cons_of_mem o)

variable {c : Consolidator} {past : List Delivery} {records : List MemoryRecord}

theorem Stored.nil (c : Consolidator) : c.Stored [] [] :=
  ⟨List.Pairwise.nil, fun _ hm => absurd hm List.not_mem_nil⟩

/-- Records stay stored when others are delivered. -/
theorem Stored.append (h : c.Stored past records) (ds : List Delivery) :
    c.Stored (past ++ ds) records := by
  refine ⟨h.keyed, fun m hm => ?_⟩
  obtain ⟨d, hd, e, hstored⟩ := h.delivered m hm
  exact ⟨d, List.mem_append_left ds hd, e, hstored⟩

/-- **The record of a delivery joins those that are stored.** -/
theorem Stored.store (h : c.Stored past records) {d : Delivery} {e : Embedding}
    (hanswer : d.embedder.behaviour d.resolution.rawLog = .answers e) :
    ∃ records', c.Stored (past ++ [d]) records'
      ∧ Collection.insertPoint (c.recordOf d.resolution e d.today).toPoint
          (records.map (·.toPoint)) = records'.map (·.toPoint) := by
  obtain ⟨records', heq, hmem⟩ := insertPoint_toPoint (c.recordOf d.resolution e d.today) records
  refine ⟨records', ⟨?_, fun m hm => ?_⟩, heq⟩
  · have hkeyed : Collection.Keyed (records.map (·.toPoint)) := List.pairwise_map.mpr h.keyed
    have hkeyed' := Collection.keyed_insertPoint (c.recordOf d.resolution e d.today).toPoint hkeyed
    rw [heq, Collection.Keyed, List.pairwise_map] at hkeyed'
    exact hkeyed'
  · rcases hmem m hm with rfl | hm
    · exact ⟨d, List.mem_append_right past List.mem_cons_self, e, hanswer, rfl⟩
    · exact (h.append [d]).delivered m hm

/-- **One consolidation** puts at most its own record into a collection, and leaves
the rest of it as it is. -/
theorem Stored.take (h : c.Stored past records) {w : World} {s₀ s : Collections}
    (hs : w.store = .inMemory s) (hcur : s.current = s₀.current.map (·.withRecords records))
    (d : Delivery) :
    ∃ s' records', (c.take w d).1.store = .inMemory s' ∧ s'.machine = s.machine
      ∧ s'.current = s₀.current.map (·.withRecords records') ∧ c.Stored (past ++ [d]) records' := by
  obtain ⟨hstore, -⟩ := c.take_leaves hs d
  cases hcol : s₀.current with
  | error f =>
    rw [hcol] at hcur
    have hsame := (c.effect_of_current_error hcur d.resolution d.today
      (d.embedder.behaviour d.resolution.rawLog)).1
    exact ⟨s, records, by rw [hstore, hsame], rfl, hcur, h.append [d]⟩
  | ok col =>
    rw [hcol] at hcur
    rcases c.effect_cases hcur d.resolution d.today (d.embedder.behaviour d.resolution.rawLog) with
      ⟨hsame, -⟩ | ⟨e, hanswer, -, -, -, -, heffect⟩
    · exact ⟨s, records, by rw [hstore, hsame], rfl, hcur, h.append [d]⟩
    · obtain ⟨records', hstored, heq⟩ := h.store hanswer
      refine ⟨_, records', hstore, c.machine_effect .., ?_, hstored⟩
      rw [heffect, withStored, Collections.current_withCurrent hcur]
      show Except.ok { col with points := _ } = Except.ok { col with points := _ }
      rw [← heq]
      rfl

/-- **Consolidations one after another** leave a collection in which just records of
theirs are. -/
theorem Stored.takeAll (h : c.Stored past records) {w : World} {s₀ s : Collections}
    (hs : w.store = .inMemory s) (hcur : s.current = s₀.current.map (·.withRecords records))
    (ds : List Delivery) :
    ∃ s' records', (c.takeAll w ds).1.store = .inMemory s' ∧ s'.machine = s.machine
      ∧ s'.current = s₀.current.map (·.withRecords records') ∧ c.Stored (past ++ ds) records' := by
  induction ds generalizing w s past records with
  | nil => exact ⟨s, records, hs, rfl, hcur, h.append []⟩
  | cons d ds ih =>
    obtain ⟨s₁, records₁, hs₁, hm₁, hcur₁, h₁⟩ := h.take hs hcur d
    obtain ⟨s₂, records₂, hs₂, hm₂, hcur₂, h₂⟩ := ih h₁ hs₁ hcur₁
    rw [List.append_assoc] at h₂
    exact ⟨s₂, records₂, hs₂, hm₂.trans hm₁, hcur₂, h₂⟩

/-- The time in a record is that of its delivery. -/
@[simp] theorem recordOf_createdAt (c : Consolidator) (r : Resolution) (e : Embedding)
    (now : Timestamp) : (c.recordOf r e now).createdAt = now := by
  unfold recordOf
  split <;> rfl

/-- **What was stored in a year of four digits can be read.** -/
theorem Stored.readable (h : c.Stored past records)
    (hclock : ∀ d ∈ past, d.today.IsInstant ∧ 0 ≤ d.today.year ∧ d.today.year ≤ 9999) :
    ∀ m ∈ records, ∀ id embedding, MemoryRecord.ofPayload id embedding m.toPoint.payload
      = .ok { m with id := id, embedding := embedding } := by
  intro m hm id embedding
  obtain ⟨d, hd, e, -, rfl⟩ := h.delivered m hm
  have htime := (Timestamp.parse_render_iff .offset).mpr (hclock d hd)
  rw [MemoryRecord.ofPayload_toPoint, recordOf_createdAt, htime]

end Consolidator

namespace Retriever

/-! ## What a retriever comes to -/

/-- **The memories that a retriever finds** in collections, by what the embedder replies. -/
def recollect (r : Retriever) (s : Collections) (reply : Outcome Embedding) :
    Outcome (List ScoredMemory) := do
  let e ← reply
  if e.length = r.settings.dims then
    .ok (r.select (← s.search e r.settings.limit (some r.settings.relevanceThreshold)))
  else .error (.dimensions r.settings.dims e.length)

/-- **A goal with the memories that were found**, if there are any. -/
def goalWith (goal : String) : Outcome (List ScoredMemory) → String
  | .ok (best :: others) => goal ++ Retrieval.contextBlock ((best :: others).map (·.record))
  | _ => goal

variable {w : World} {s : Collections} {t : TaskId}

/-- Once the goal is embedded, a retriever searches and chooses. -/
def recollectOn (r : Retriever) (e : Embedding) : Procedure (List ScoredMemory) := do
  let hits ← Procedure.search e r.settings.limit (some r.settings.relevanceThreshold)
  (unreadable (r.relevantHits hits)).forM fun e => Routine.report e
  return r.select hits

/-- Once a search has ended, it remains to choose of what was found. -/
theorem carryOut_recollectOn_of_search (r : Retriever) {e : Embedding} {w' : World}
    {answer : Outcome (List Hit)}
    (hsearch : w.carryOut t (Procedure.search e r.settings.limit
      (some r.settings.relevanceThreshold)).run = (w', some (.done answer))) :
    (w.carryOut t (r.recollectOn e).run).1.store = w'.store
      ∧ (w.carryOut t (r.recollectOn e).run).2
        = some (.done (do .ok (r.select (← answer)))) := by
  unfold recollectOn
  rw [World.carryOut_run_bind, hsearch, World.andThen_done]
  cases answer with
  | error f => exact ⟨rfl, rfl⟩
  | ok hits =>
    dsimp only
    rw [World.carryOut_run_report_bind]
    exact ⟨rfl, rfl⟩

theorem carryOut_recollectOn (r : Retriever) (hs : w.store = .inMemory s) (e : Embedding) :
    Consolidator.Leaves (w.carryOut t (r.recollectOn e).run)
      (s, some (.done (do
        .ok (r.select (← s.search e r.settings.limit (some r.settings.relevanceThreshold)))))) := by
  obtain ⟨hstore, hended⟩ := r.carryOut_recollectOn_of_search
    (Consolidator.carryOut_search (t := t) hs e r.settings.limit _)
  exact ⟨hstore.trans hs, hended⟩

/-- **Over a vector store in memory a retriever finds memories**, and leaves the store as it
is. -/
theorem carryOut_relevantMemories (r : Retriever) (hs : w.store = .inMemory s) {i : Incident}
    {reply : Outcome Embedding} (hreply : w.embedder.behaviour i.searchQuery = .ofOutcome reply) :
    Consolidator.Leaves (w.carryOut t (r.relevantMemories i).run)
      (s, some (.done (r.recollect s reply))) := by
  show Consolidator.Leaves
    (w.carryOut t ((Procedure.embedAs r.settings.dims i.searchQuery >>= r.recollectOn).run)) _
  unfold recollect
  rw [World.carryOut_run_bind, World.carryOut_embedAs hreply]
  cases reply with
  | error f => exact ⟨hs, rfl⟩
  | ok e =>
    show Consolidator.Leaves (World.andThen t _ (_, some (.done (if _ then _ else _))))
      (s, some (.done (if e.length = r.settings.dims then _ else _)))
    by_cases hlen : e.length = r.settings.dims
    · rw [if_pos hlen, if_pos hlen]
      exact carryOut_recollectOn r (w := w.traced (.embed i.searchQuery)) hs e
    · rw [if_neg hlen, if_neg hlen]
      exact ⟨hs, rfl⟩

/-- **Enrichment never fails**: it ends with the goal and what was found. -/
theorem carryOut_enrich (r : Retriever) (hs : w.store = .inMemory s) {i : Incident}
    {reply : Outcome Embedding} (hreply : w.embedder.behaviour i.searchQuery = .ofOutcome reply)
    (goal : String) :
    Consolidator.Leaves (w.carryOut t (r.enrich i goal))
      (s, some (.done (goalWith goal (r.recollect s reply)))) := by
  unfold enrich
  rw [World.carryOut_bind]
  obtain ⟨hstore, hended⟩ := carryOut_relevantMemories r (t := t) hs hreply
  cases hout : w.carryOut t (r.relevantMemories i).run with
  | mk w' ended =>
    rw [hout] at hstore hended
    obtain rfl : ended = _ := hended
    rw [World.andThen_done]
    cases r.recollect s reply with
    | error f => exact ⟨hstore, rfl⟩
    | ok memories =>
      cases memories with
      | nil => exact ⟨hstore, rfl⟩
      | cons best others => exact ⟨hstore, rfl⟩

/-! ## What is found -/

/-- How a record scores for an embedding. -/
def scoreOf (a : Arithmetic) (distance : Distance) (e : Embedding) (m : MemoryRecord) : Single :=
  distance.score a e m.embedding

/-- **The records that qualify**: those that score at or above the threshold. -/
def qualifying (r : Retriever) (a : Arithmetic) (distance : Distance) (e : Embedding)
    (records : List MemoryRecord) : List MemoryRecord :=
  records.filter fun m => r.settings.relevanceThreshold ≤ scoreOf a distance e m

variable {r : Retriever} {a : Arithmetic} {machine : Machine} {col : Collection} {e : Embedding}
  {records : List MemoryRecord}

theorem le_of_mem_qualifying {distance : Distance} {m : MemoryRecord}
    (h : m ∈ r.qualifying a distance e records) :
    r.settings.relevanceThreshold ≤ scoreOf a distance e m :=
  of_decide_eq_true (List.mem_filter.mp h).2

/-- A search goes through records in some order. -/
theorem gone_withRecords (machine : Machine) (col : Collection) (records : List MemoryRecord) :
    ∃ gone : List MemoryRecord, gone.Perm records
      ∧ (col.withRecords records).gone machine = gone.map (·.toPoint) := by
  exact ⟨_, List.mergeSort_perm _ _, Eq.symm <|
    List.map_mergeSort (f := MemoryRecord.toPoint) fun _ _ _ _ => rfl⟩

/-- **A search over records is answered with the best of those that qualify.** -/
theorem search_withRecords (machine : Machine) (records : List MemoryRecord)
    (hlen : e.length = col.dims) :
    ∃ listed others, IsBest (scoreOf machine.arithmetic col.distance e) r.settings.limit
        (r.qualifying machine.arithmetic col.distance e records) listed others
      ∧ (col.withRecords records).search machine e r.settings.limit
          (some r.settings.relevanceThreshold)
        = .ok (listed.map fun m => col.hit machine e m.toPoint) := by
  obtain ⟨gone, hperm, hgone⟩ := gone_withRecords machine col records
  have hbest := isBest_take_mergeSort (scoreOf machine.arithmetic col.distance e) r.settings.limit
    (r.qualifying machine.arithmetic col.distance e gone)
  refine ⟨_, _, hbest.of_perm (hperm.filter _), ?_⟩
  rw [Collection.search_of_length machine (c := col.withRecords records) hlen, hgone, List.map_take]
  congr 2
  rw [List.map_mergeSort]
  · congr 1
    show ((gone.map (·.toPoint)).map (col.hit machine e)).filter _ = _
    rw [List.map_map, List.filter_map]
    rfl
  · exact fun _ _ _ _ => rfl

/-- A record as it is found. -/
def found (a : Arithmetic) (distance : Distance) (e : Embedding) (m : MemoryRecord) :
    ScoredMemory :=
  ⟨{ m with embedding := [] }, scoreOf a distance e m⟩

theorem ofHit_hit {m : MemoryRecord}
    (hread : ∀ id embedding, MemoryRecord.ofPayload id embedding m.toPoint.payload
      = .ok { m with id := id, embedding := embedding }) :
    ScoredMemory.ofHit (col.hit machine e m.toPoint)
      = .ok (found machine.arithmetic col.distance e m) := by
  have hrecord : MemoryRecord.ofPayload (col.hit machine e m.toPoint).id []
      (col.hit machine e m.toPoint).payload = .ok { m with embedding := [] } := hread m.id []
  unfold ScoredMemory.ofHit
  rw [hrecord]
  rfl

/-- **What is answered is what is used**: of the best records that qualify, none is left
out, and they stay in order. -/
theorem select_hits {listed others : List MemoryRecord}
    (hbest : IsBest (scoreOf machine.arithmetic col.distance e) r.settings.limit
      (r.qualifying machine.arithmetic col.distance e records) listed others)
    (hread : ∀ m ∈ records, ∀ id embedding, MemoryRecord.ofPayload id embedding m.toPoint.payload
      = .ok { m with id := id, embedding := embedding }) :
    r.select (listed.map fun m => col.hit machine e m.toPoint)
      = listed.map (found machine.arithmetic col.distance e) := by
  have hrelevant : r.relevantHits (listed.map fun m => col.hit machine e m.toPoint)
      = listed.map fun m => col.hit machine e m.toPoint := by
    refine List.filter_eq_self.mpr fun h hh => ?_
    obtain ⟨m, hm, rfl⟩ := List.mem_map.mp hh
    exact decide_eq_true (le_of_mem_qualifying (hbest.mem_of_mem hm))
  have hreadable : readable (listed.map fun m => col.hit machine e m.toPoint)
      = listed.map (found machine.arithmetic col.distance e) := by
    unfold readable
    rw [List.filterMap_map, List.filterMap_eq_map_iff_forall_eq_some]
    intro m hm
    have hm' : m ∈ records := List.mem_of_mem_filter (hbest.mem_of_mem hm)
    rw [Function.comp_apply, ofHit_hit (hread m hm'), Except.toOption]
  unfold select
  rw [hrelevant, hreadable, ← List.map_mergeSort, ← List.map_take, hbest.take_mergeSort]
  exact fun _ _ _ _ => rfl

/-! ## The enriched goal -/

/-- **What a retriever lists** of records for an embedding, and what it leaves out of those
that qualify. -/
structure Lists (r : Retriever) (a : Arithmetic) (distance : Distance) (e : Embedding)
    (records listed others : List MemoryRecord) : Prop where
  /-- Every record that qualifies is listed or left out, and no other is. -/
  parts : (listed ++ others).Perm (r.qualifying a distance e records)
  /-- As many are listed as qualify and may be used. -/
  length : listed.length = min r.settings.limit (r.qualifying a distance e records).length
  /-- They differ. -/
  distinct : listed.Pairwise (·.id ≠ ·.id)
  /-- None scores higher than one before it. -/
  sorted : listed.Pairwise fun m n => scoreOf a distance e n ≤ scoreOf a distance e m
  /-- None that is left out scores higher than one that is listed. -/
  best : ∀ m ∈ listed, ∀ n ∈ others, scoreOf a distance e n ≤ scoreOf a distance e m

/-- **How a goal is enriched**, given the collection, the records in it and what the embedder
replies. -/
structure Enriches (r : Retriever) (a : Arithmetic) (current : Outcome Collection)
    (records : List MemoryRecord) (reply : Outcome Embedding) (goal text : String) : Prop where
  /-- Without an embedding it stays as it is, -/
  unembedded : ∀ f, reply = .error f → text = goal
  /-- with one of the wrong length, -/
  misfit : ∀ e, reply = .ok e → e.length ≠ r.settings.dims → text = goal
  /-- without a collection, -/
  missing : ∀ f, current = .error f → text = goal
  /-- with one of another number of dimensions, -/
  otherDims : ∀ e col, reply = .ok e → current = .ok col → e.length ≠ col.dims → text = goal
  /-- and if no record qualifies. -/
  irrelevant : ∀ e col, reply = .ok e → current = .ok col →
    r.qualifying a col.distance e records = [] → text = goal
  /-- Otherwise the records that qualify are listed after it. -/
  relevant : ∀ e col, reply = .ok e → current = .ok col → e.length = r.settings.dims →
    e.length = col.dims → r.qualifying a col.distance e records ≠ [] →
      ∃ listed others, r.Lists a col.distance e records listed others
        ∧ text = goal ++ ("\n\n--- Relevant Historical Context ---\n"
          ++ String.join (listed.map fun m => "- Past Incident/Runbook: " ++ m.describe ++ "\n")
          ++ "--- End of Context ---\n")

/-- The block in full. Embeddings are not in it. -/
theorem contextBlock_found (a : Arithmetic) (distance : Distance) (e : Embedding)
    (listed : List MemoryRecord) :
    Retrieval.contextBlock ((listed.map (found a distance e)).map (·.record))
      = "\n\n--- Relevant Historical Context ---\n"
        ++ String.join (listed.map fun m => "- Past Incident/Runbook: " ++ m.describe ++ "\n")
        ++ "--- End of Context ---\n" := by
  unfold Retrieval.contextBlock
  rw [List.map_map, List.map_map, String.append_assoc]
  rfl

/-- The best of the records that qualify are what is listed: they score above the threshold, so
their scores are numbers. -/
theorem lists_of_isBest {distance : Distance} {listed others : List MemoryRecord}
    (hbest : IsBest (scoreOf a distance e) r.settings.limit (r.qualifying a distance e records)
      listed others)
    (hkeyed : records.Pairwise (·.id ≠ ·.id)) : r.Lists a distance e records listed others := by
  have hnum : ∀ m ∈ r.qualifying a distance e records, (scoreOf a distance e m).isNaN = false :=
    fun m hm => (Single.le_iff.mp (le_of_mem_qualifying hm)).2.1
  exact ⟨hbest.parts, hbest.length, hbest.pairwise Ne.symm (hkeyed.filter _),
    hbest.sorted_le hnum, hbest.ahead_le hnum⟩

/-- **A retriever that uses one record lists the one that scores best**, if no other scores as
much. -/
theorem Lists.eq_singleton {distance : Distance} {listed others : List MemoryRecord}
    (h : r.Lists a distance e records listed others) (hlimit : r.settings.limit = 1)
    {m : MemoryRecord} (hm : m ∈ r.qualifying a distance e records)
    (hbest : ∀ n ∈ r.qualifying a distance e records, n ≠ m →
      ¬ scoreOf a distance e m ≤ scoreOf a distance e n) : listed = [m] := by
  have hlength : listed.length = 1 := by
    rw [h.length, hlimit]
    exact Nat.min_eq_left (List.length_pos_of_mem hm)
  obtain ⟨n, rfl⟩ := List.length_eq_one_iff.mp hlength
  by_cases hne : n = m
  · rw [hne]
  · -- it would be left out, and scores higher
    have hn := h.parts.mem_iff.mp List.mem_cons_self
    have hleft := (List.mem_cons.mp (h.parts.mem_iff.mpr hm)).resolve_left (Ne.symm hne)
    exact absurd (h.best n List.mem_cons_self m hleft) (hbest n hn hne)

/-- A goal stays as it is if the embedding is not of the right length, -/
theorem goalWith_recollect_of_misfit (hlen : e.length ≠ r.settings.dims) (s : Collections)
    (goal : String) : goalWith goal (r.recollect s (.ok e)) = goal := by
  show goalWith goal (if e.length = r.settings.dims then _ else _) = goal
  rw [if_neg hlen]
  rfl

/-- or if the search fails. -/
theorem goalWith_recollect_of_search_error {s : Collections} {f : Failure}
    (hsearch : s.search e r.settings.limit (some r.settings.relevanceThreshold) = .error f)
    (goal : String) : goalWith goal (r.recollect s (.ok e)) = goal := by
  by_cases hlen : e.length = r.settings.dims
  · show goalWith goal (if e.length = r.settings.dims then _ else _) = goal
    rw [if_pos hlen, hsearch]
    rfl
  · exact goalWith_recollect_of_misfit hlen s goal

theorem goalWith_recollect_of_otherDims {s : Collections}
    (hcur : s.current = .ok (col.withRecords records)) (hlen : e.length ≠ col.dims)
    (goal : String) : goalWith goal (r.recollect s (.ok e)) = goal := by
  refine goalWith_recollect_of_search_error (f := .dimensions col.dims e.length) ?_ goal
  rw [Collections.search_of_current hcur]
  exact Collection.search_of_length_ne s.machine (c := col.withRecords records) hlen _ _

/-- **What is found if the embedding fits**: the best of the records that qualify. -/
theorem recollect_of_fits {s : Collections} (hcur : s.current = .ok (col.withRecords records))
    (hread : ∀ m ∈ records, ∀ id embedding, MemoryRecord.ofPayload id embedding m.toPoint.payload
      = .ok { m with id := id, embedding := embedding })
    (hdims : e.length = r.settings.dims) (hlen : e.length = col.dims) :
    ∃ listed others, IsBest (scoreOf s.machine.arithmetic col.distance e) r.settings.limit
        (r.qualifying s.machine.arithmetic col.distance e records) listed others
      ∧ r.recollect s (.ok e)
        = .ok (listed.map (found s.machine.arithmetic col.distance e)) := by
  obtain ⟨listed, others, hbest, hsearch⟩ := search_withRecords (r := r) s.machine records hlen
  refine ⟨listed, others, hbest, ?_⟩
  show (if e.length = r.settings.dims then _ else _) = _
  rw [if_pos hdims, Collections.search_of_current hcur, hsearch]
  exact congrArg Except.ok (select_hits hbest hread)

/-- **A goal is enriched by the records that score best**, if what is stored can be read. -/
theorem enriches_recollect {s : Collections} {current : Outcome Collection}
    (hcur : s.current = current.map (·.withRecords records))
    (hkeyed : records.Pairwise (·.id ≠ ·.id))
    (hread : ∀ m ∈ records, ∀ id embedding, MemoryRecord.ofPayload id embedding m.toPoint.payload
      = .ok { m with id := id, embedding := embedding })
    (hlimit : 1 ≤ r.settings.limit) (reply : Outcome Embedding) (goal : String) :
    r.Enriches s.machine.arithmetic current records reply goal
      (goalWith goal (r.recollect s reply)) where
  unembedded := by
    rintro f rfl
    rfl
  misfit := by
    rintro e rfl hlen
    exact goalWith_recollect_of_misfit hlen s goal
  missing := by
    rintro f rfl
    cases reply with
    | error f => rfl
    | ok e =>
      refine goalWith_recollect_of_search_error (f := f) ?_ goal
      unfold Collections.search
      rw [hcur]
      rfl
  otherDims := by
    rintro e col rfl rfl hlen
    exact goalWith_recollect_of_otherDims hcur hlen goal
  irrelevant := by
    rintro e col rfl rfl hnone
    by_cases hdims : e.length = r.settings.dims
    · by_cases hlen : e.length = col.dims
      · obtain ⟨listed, others, hbest, hfound⟩ := recollect_of_fits hcur hread hdims hlen
        have hnil : listed = [] := List.eq_nil_of_length_eq_zero (by simp [hbest.length, hnone])
        rw [hfound, hnil]
        rfl
      · exact goalWith_recollect_of_otherDims hcur hlen goal
    · exact goalWith_recollect_of_misfit hdims s goal
  relevant := by
    rintro e col rfl rfl hdims hlen hsome
    obtain ⟨listed, others, hbest, hfound⟩ := recollect_of_fits hcur hread hdims hlen
    refine ⟨listed, others, lists_of_isBest hbest hkeyed, ?_⟩
    rw [hfound, ← contextBlock_found s.machine.arithmetic col.distance e]
    -- something qualifies and may be used, so something is listed
    cases listed with
    | nil =>
      have hlength := hbest.length
      have := List.length_pos_of_ne_nil hsome
      rw [List.length_nil] at hlength
      omega
    | cons first rest => rfl

/-- **From deliveries to an enriched goal.** A consolidator takes resolutions, one after another
and in years of four digits, into a collection that was empty, or finds no collection; then a goal
is enriched for an incident, whatever the embedder replies. Enrichment ends, with the store as it
was. Without an embedding of the right length, without a collection for that length, and if none of
the records stored scores at or above the threshold, the goal is as it was. Otherwise it is followed
by a block that lists just as many of those records as there are and may be used, best first, and
none that is left out scores higher than one of them. The collection is the one that was created
under the name which the store is bound to. -/
theorem enrich_takeAll (c : Consolidator) (w : World) {s : Collections}
    (hs : w.store = .inMemory s) (hempty : ∀ col, s.current = .ok col → col.points = [])
    (ds : List Delivery)
    (hclock : ∀ d ∈ ds, d.today.IsInstant ∧ 0 ≤ d.today.year ∧ d.today.year ≤ 9999)
    (r : Retriever) (hlimit : 1 ≤ r.settings.limit) (t : TaskId) (i : Incident) (goal : String)
    (embedder : Rules Embedding) (reply : Outcome Embedding)
    (hreply : embedder.behaviour i.searchQuery = .ofOutcome reply) :
    ∃ s' records text, c.Stored ds records
      ∧ (c.takeAll w ds).1.store = .inMemory s'
      ∧ s.FindsCreated
      ∧ s'.current = s.current.map (·.withRecords records)
      ∧ Consolidator.Leaves
        (({ (c.takeAll w ds).1 with embedder := embedder } : World).carryOut t (r.enrich i goal))
        (s', some (.done text))
      ∧ r.Enriches s.machine.arithmetic s.current records reply goal text := by
  have hstart : s.current = s.current.map (·.withRecords []) := by
    cases hcol : s.current with
    | error f => rfl
    | ok col =>
      have hpoints := hempty col hcol
      obtain ⟨dims, distance, points⟩ := col
      obtain rfl : points = [] := hpoints
      rfl
  obtain ⟨s', records, hs', hmachine, hcur, hstored⟩ :=
    (Consolidator.Stored.nil c).takeAll hs hstart ds
  rw [List.nil_append] at hstored
  refine ⟨s', records, _, hstored, hs', s.findsCreated, hcur, carryOut_enrich
    (w := { (c.takeAll w ds).1 with embedder := embedder }) r hs' hreply goal, ?_⟩
  rw [← hmachine]
  exact enriches_recollect hcur hstored.keyed (hstored.readable hclock) hlimit reply goal

/-- A retriever that takes vectors of two dimensions and uses one memory that scores 0.75 or
more. -/
def inThePlane : Retriever where
  settings := ⟨⟨0x3F400000⟩, 1, 2⟩

/-- An incident like those whose resolutions are delivered. -/
def recurrence : Incident :=
  .minimal "c" "namespace" "OOMKilled" "oom killed"

/-- The collection that they are stored in. -/
def plane : Collections :=
  ⟨.usual, "memories", 2, [("memories", ⟨2, .cosine, []⟩)]⟩

/-- A resolution, delivered with the embedding of its log. -/
def remedy (incidentId log remedy : String) (e : Embedding) : Delivery where
  resolution := ⟨incidentId, "cluster", "namespace", log, remedy⟩
  embedder := { otherwise := .answers e }
  today := ⟨0, 0⟩

/-- Two resolutions, the second of which is more like what is asked for. -/
def remedies : List Delivery :=
  [remedy "a" "oom killed" "raise the limit" [⟨0x40400000⟩, ⟨0x40800000⟩],
    remedy "b" "pod evicted" "drain the node" [.zero, .one]]

/-- The ids in the current collection of a store in memory. -/
def storedIn (w : World) : List String :=
  match w.store with
  | .inMemory s =>
    match s.current with
    | .ok col => col.points.map (·.id)
    | .error _ => []
  | .scripted _ => []

theorem storedIn_eq {w : World} {s : Collections} (hs : w.store = .inMemory s)
    (hcur : s.current = .ok (col.withRecords records)) : storedIn w = records.map (·.id) := by
  unfold storedIn
  rw [hs]
  dsimp only
  rw [hcur]
  show (records.map (·.toPoint)).map (·.id) = _
  rw [List.map_map]
  rfl

/-- What is stored of one of them. -/
theorem eq_of_stored (h : Consolidator.inThePlane.Stored remedies records) {m : MemoryRecord}
    (hm : m ∈ records) : (m.id = "a" → m.embedding = [⟨0x40400000⟩, ⟨0x40800000⟩])
      ∧ (m.id = "b" → m.embedding = [.zero, .one]
        ∧ m.describe = "[cluster/namespace] pod evicted -> Resolution: drain the node") := by
  obtain ⟨d, hd, e, he, rfl⟩ := h.delivered m hm
  rcases List.mem_cons.mp hd with rfl | hd
  · obtain rfl := Behaviour.answers.inj he
    exact ⟨fun _ => rfl, fun hid => absurd hid (by decide)⟩
  · obtain rfl := List.mem_singleton.mp hd
    obtain rfl := Behaviour.answers.inj he
    exact ⟨fun hid => absurd hid (by decide), fun _ => ⟨rfl, by decide +kernel⟩⟩

/-- Both are stored. -/
theorem stored_remedies (h : Consolidator.inThePlane.Stored remedies records)
    (hids : records.map (·.id) = ["a", "b"]) : ∃ m n, records = [m, n]
      ∧ m.embedding = [⟨0x40400000⟩, ⟨0x40800000⟩] ∧ n.embedding = [.zero, .one]
      ∧ n.describe = "[cluster/namespace] pod evicted -> Resolution: drain the node" := by
  obtain ⟨m, n, rfl⟩ : ∃ m n, records = [m, n] := by
    have hlength := congrArg List.length hids
    rw [List.length_map] at hlength
    exact List.length_eq_two.mp hlength
  obtain ⟨hm, hn⟩ : m.id = "a" ∧ n.id = "b" := by simpa using hids
  exact ⟨m, n, rfl, (eq_of_stored h List.mem_cons_self).1 hm,
    (eq_of_stored h (List.mem_cons_of_mem m List.mem_cons_self)).2 hn⟩

/-- Both qualify, and the second one scores higher. -/
theorem qualifying_remedies {m n : MemoryRecord}
    (hm : m.embedding = [⟨0x40400000⟩, ⟨0x40800000⟩]) (hn : n.embedding = [.zero, .one]) :
    inThePlane.qualifying .usual .cosine [.zero, .one] [m, n] = [m, n]
      ∧ ¬ scoreOf .usual .cosine [.zero, .one] n ≤ scoreOf .usual .cosine [.zero, .one] m := by
  have hscore : ∀ x : MemoryRecord, scoreOf .usual .cosine [.zero, .one] x
      = Embedding.cosine .usual [.zero, .one] x.embedding := fun _ => rfl
  have hall : ∀ x ∈ [m, n],
      x.embedding = [⟨0x40400000⟩, ⟨0x40800000⟩] ∨ x.embedding = [.zero, .one] := by
    simp [hm, hn]
  refine ⟨List.filter_eq_self.mpr fun x hx => decide_eq_true ?_, ?_⟩
  · rw [hscore]
    rcases hall x hx with h | h <;> rw [h] <;> decide +kernel
  · rw [hscore, hscore, hm, hn]
    decide +kernel

/-- Both are stored, and both qualify. The nearer one is listed. -/
theorem enrich_takeAll_remedies :
    (∀ col, plane.current = .ok col → col.points = [])
      ∧ (∀ d ∈ remedies, d.today.IsInstant ∧ 0 ≤ d.today.year ∧ d.today.year ≤ 9999)
      ∧ 1 ≤ inThePlane.settings.limit
      ∧ (⟨[], .answers [.zero, .one]⟩ : Rules Embedding).behaviour recurrence.searchQuery
        = .ofOutcome (.ok [.zero, .one])
      ∧ ∃ s' records text, Consolidator.inThePlane.Stored remedies records
        ∧ records.map (·.id) = ["a", "b"]
        ∧ inThePlane.qualifying .usual .cosine [.zero, .one] records = records
        ∧ (Consolidator.inThePlane.takeAll Consolidator.emptyPlane remedies).1.store = .inMemory s'
        ∧ s'.current = plane.current.map (·.withRecords records)
        ∧ Consolidator.Leaves
          (({ (Consolidator.inThePlane.takeAll Consolidator.emptyPlane remedies).1 with
              embedder := ⟨[], .answers [.zero, .one]⟩ } : World).carryOut (.step 0)
            (inThePlane.enrich recurrence "Find the cause."))
          (s', some (.done text))
        ∧ text = "Find the cause." ++ ("\n\n--- Relevant Historical Context ---\n"
          ++ ("- Past Incident/Runbook: [cluster/namespace] pod evicted -> Resolution: drain the node\n"
            ++ "--- End of Context ---\n")) := by
  have hempty : ∀ col, plane.current = .ok col → col.points = [] := by
    intro col h
    obtain rfl := Except.ok.inj h
    rfl
  have hclock : ∀ d ∈ remedies, d.today.IsInstant ∧ 0 ≤ d.today.year ∧ d.today.year ≤ 9999 := by
    decide
  obtain ⟨s', records, text, hstored, hs', -, hcur, hleaves, henriches⟩ :=
    enrich_takeAll Consolidator.inThePlane Consolidator.emptyPlane (s := plane) rfl hempty remedies
      hclock inThePlane (by decide) (.step 0) recurrence "Find the cause."
      ⟨[], .answers [.zero, .one]⟩ (.ok [.zero, .one]) rfl
  have hids : records.map (·.id) = ["a", "b"] :=
    (storedIn_eq hs' hcur).symm.trans (by decide +kernel)
  obtain ⟨m, n, rfl, hm, hn, hdescribe⟩ := stored_remedies hstored hids
  obtain ⟨hqualify, hfarther⟩ := qualifying_remedies hm hn
  refine ⟨hempty, hclock, by decide, rfl, s', [m, n], text, hstored, hids, hqualify, hs', hcur,
    hleaves, ?_⟩
  have hsome : inThePlane.qualifying .usual .cosine [.zero, .one] [m, n] ≠ [] := by
    rw [hqualify]
    exact List.cons_ne_nil m [n]
  obtain ⟨listed, others, hlists, rfl⟩ :=
    henriches.relevant [.zero, .one] ⟨2, .cosine, []⟩ rfl rfl rfl rfl hsome
  have hall : ∀ x,
      x ∈ inThePlane.qualifying .usual .cosine [.zero, .one] [m, n] ↔ x = m ∨ x = n := by
    intro x
    rw [hqualify, List.mem_cons, List.mem_singleton]
  have hnearer : listed = [n] := by
    refine hlists.eq_singleton rfl ((hall n).mpr (Or.inr rfl)) fun x hx hne => ?_
    rw [((hall x).mp hx).resolve_right hne]
    exact hfarther
  rw [hnearer, List.map_cons, List.map_nil, hdescribe]
  rfl

end Retriever

end IncidentMemory
