import IncidentMemory.Proofs.Enrichment

/-!
# What a retriever makes of an answer

A vector store is asked for the best memories above a threshold, and a retriever
trusts it with none of that. An answer can have its hits in any order, as many
as it likes and with any scores, and payloads that no record was ever written
as. The retriever reads what it can (`Hit.Remembers`), and of the hits that can
be read and score high enough it takes the best, those that score alike in the
order in which the store had them (`Retriever.Recalls`). A hit that cannot be
read is as good as absent: without it the retriever ends with the same memories
(`Retriever.relevantMemories_recalls`).
-/

namespace IncidentMemory

open Simulation

/-! ## Hits that can be read -/

/-- **A hit is read as a memory.** Its payload has the texts of the record, and in
one of them a time. What else the payload has does not matter. -/
structure Hit.Remembers (h : Hit) (m : ScoredMemory) : Prop where
  /-- The id is that of the hit, whatever the payload says. -/
  id : m.record.id = h.id
  /-- So is the score. -/
  score : m.score = h.score
  /-- A search does not return vectors. -/
  embedding : m.record.embedding = []
  /-- The time can be parsed. -/
  createdAt : (h.payload.text? "created_at").bind Timestamp.parse = some m.record.createdAt
  /-- The cluster is a text, -/
  clusterId : h.payload.text? "cluster_id" = some m.record.clusterId
  /-- and so is the namespace, -/
  namespaceName : h.payload.text? "namespace" = some m.record.namespaceName
  /-- the log, -/
  rawLog : h.payload.text? "raw_log" = some m.record.rawLog
  /-- and the action. -/
  resolutionAction : h.payload.text? "resolution_action" = some m.record.resolutionAction

theorem MemoryRecord.neededText_eq_ok_iff {id key text : String} {payload : Payload} :
    neededText id payload key = .ok text ↔ payload.text? key = some text := by
  unfold neededText
  cases payload.text? key with
  | none => simp
  | some s => simp

theorem Outcome.bind_eq_ok_iff {α β : Type} {x : Outcome α} {f : α → Outcome β} {b : β} :
    (x >>= f) = .ok b ↔ ∃ a, x = .ok a ∧ f a = .ok b := by
  cases x with
  | error e => exact ⟨nofun, nofun⟩
  | ok a => exact ⟨fun h => ⟨a, rfl, h⟩, fun ⟨_, h, hf⟩ => Except.ok.inj h ▸ hf⟩

/-- **A hit is read exactly as the memory that its payload has.** -/
theorem ScoredMemory.ofHit_eq_ok_iff {h : Hit} {m : ScoredMemory} :
    ofHit h = .ok m ↔ h.Remembers m := by
  unfold ofHit MemoryRecord.ofPayload
  constructor
  · intro hread
    obtain ⟨record, hrecord, hm⟩ := Outcome.bind_eq_ok_iff.mp hread
    obtain ⟨time, htime, hrest⟩ := Outcome.bind_eq_ok_iff.mp hrecord
    obtain rfl := Except.ok.inj hm
    rw [MemoryRecord.neededText_eq_ok_iff] at htime
    cases hparse : Timestamp.parse time with
    | none =>
      rw [hparse] at hrest
      exact nomatch hrest
    | some t =>
      simp only [hparse, Outcome.bind_eq_ok_iff, MemoryRecord.neededText_eq_ok_iff] at hrest
      obtain ⟨_, ht, cluster, hcluster, ns, hns, log, hlog, action, haction, hmade⟩ := hrest
      obtain rfl := Except.ok.inj ht
      obtain rfl := Except.ok.inj hmade
      exact ⟨rfl, rfl, rfl, by rw [htime, Option.bind_some, hparse], hcluster, hns, hlog, haction⟩
  · rintro ⟨hid, hscore, hembedding, htime, hcluster, hns, hlog, haction⟩
    obtain ⟨time, htext, hparse⟩ := Option.bind_eq_some_iff.mp htime
    obtain ⟨⟨id, cluster, ns, log, action, embedding, createdAt⟩, score⟩ := m
    obtain rfl : id = h.id := hid
    obtain rfl : score = h.score := hscore
    obtain rfl : embedding = [] := hembedding
    have hneeded : ∀ {key text : String}, h.payload.text? key = some text →
        MemoryRecord.neededText h.id h.payload key = .ok text :=
      MemoryRecord.neededText_eq_ok_iff.mpr
    simp only [hneeded htext, hparse, hneeded hcluster, hneeded hns, hneeded hlog, hneeded haction,
      bind, Except.bind]

/-- **A hit can be read** as a memory. -/
def Hit.IsMemory (h : Hit) : Prop :=
  ∃ m, h.Remembers m

theorem Hit.isMemory_iff {h : Hit} : (ScoredMemory.ofHit h).toOption.isSome ↔ h.IsMemory := by
  unfold Hit.IsMemory
  simp only [← ScoredMemory.ofHit_eq_ok_iff]
  cases ScoredMemory.ofHit h with
  | error f => simp [Except.toOption]
  | ok m => simp [Except.toOption]

instance : DecidablePred Hit.IsMemory := fun _ =>
  decidable_of_iff _ Hit.isMemory_iff

/-! ## Stores that answer as they like -/

/-- A world with a vector store that answers the next search with these hits. -/
def Simulation.World.answering (w : World) (script : StoreScript) (hits : List Hit) : World :=
  { w with store := .scripted { script with search := ⟨.answers hits, script.search.later⟩ } }

/-- Whatever is searched for, that is the answer. -/
theorem Simulation.World.carryOut_search_answering (w : World) (script : StoreScript)
    (hits : List Hit) (t : TaskId) (e : Embedding) (limit : Nat) (least : Option Single) :
    ((w.answering script hits).carryOut t (Procedure.search e limit least).run).2
      = some (.done (.ok hits)) :=
  congrArg Prod.snd (World.carryOut_ask (w.answering script hits) t (.search e limit least))

namespace Retriever

/-- What can be read of hits is read, and in their order. -/
theorem forall₂_readable (hits : List Hit) :
    List.Forall₂ Hit.Remembers (hits.filter fun h => h.IsMemory) (readable hits) := by
  induction hits with
  | nil => exact .nil
  | cons h hits ih =>
    unfold readable
    cases hread : ScoredMemory.ofHit h with
    | error f =>
      have hnot : ¬ h.IsMemory := by
        rw [← Hit.isMemory_iff, hread]
        exact Bool.false_ne_true
      rw [List.filter_cons_of_neg (by simpa using hnot),
        List.filterMap_cons_none (by rw [hread]; rfl)]
      exact ih
    | ok m =>
      have hm : h.Remembers m := ScoredMemory.ofHit_eq_ok_iff.mp hread
      rw [List.filter_cons_of_pos (by simpa using ⟨m, hm⟩),
        List.filterMap_cons_some (by rw [hread]; rfl)]
      exact .cons hm ih

/-- What cannot be read is not missed. -/
theorem readable_filter_isMemory (hits : List Hit) :
    readable (hits.filter fun h => h.IsMemory) = readable hits := by
  unfold readable
  rw [List.filterMap_filter]
  refine List.filterMap_congr fun h _ => ?_
  simp only [decide_eq_true_iff, ← Hit.isMemory_iff]
  split_ifs with hread
  · rfl
  · rw [Option.not_isSome_iff_eq_none] at hread
    exact hread.symm

/-! ## What is recalled -/

/-- **The hits that can be used**: they can be read, and score at or above the
threshold. -/
def usable (r : Retriever) (hits : List Hit) : List Hit :=
  hits.filter fun h => r.settings.relevanceThreshold ≤ h.score ∧ h.IsMemory

/-- **What a retriever recalls of an answer**, given which hits are listed and which
others could be used. -/
structure Recalls (r : Retriever) (hits listed others : List Hit)
    (memories : List ScoredMemory) : Prop where
  /-- The listed hits are the best that can be used. -/
  best : IsBest (·.score) r.settings.limit (r.usable hits) listed others
  /-- Hits that score alike come in the order of the answer, the listed ones first. -/
  ties : ∀ x, (listed ++ others).filter (·.score = x) = (r.usable hits).filter (·.score = x)
  /-- The memories are those of the listed hits. -/
  read : List.Forall₂ Hit.Remembers listed memories

/-- **A retriever recalls what it selects.** -/
theorem recalls_select (r : Retriever) (hits : List Hit) :
    ∃ listed others, r.Recalls hits listed others (r.select hits) := by
  have husable : (r.relevantHits hits).filter (fun h => h.IsMemory) = r.usable hits := by
    unfold relevantHits usable
    rw [List.filter_filter]
    exact List.filter_congr fun h _ => by rw [Bool.decide_and, Bool.and_comm]
  have hread := forall₂_readable (r.relevantHits hits)
  rw [husable] at hread
  have hbest := isBest_take_mergeSort (·.score) r.settings.limit (r.usable hits)
  refine ⟨_, _, hbest, fun x => ?_, ?_⟩
  · rw [List.take_append_drop]
    exact filter_mergeSort_totalLe _ _ x
  · exact List.forall₂_take _ (forall₂_mergeSort_totalLe (fun _ _ h => h.score) hread)

theorem select_filter_isMemory (r : Retriever) (hits : List Hit) :
    r.select (hits.filter fun h => h.IsMemory) = r.select hits := by
  have hcomm : r.relevantHits (hits.filter fun h => h.IsMemory)
      = (r.relevantHits hits).filter fun h => h.IsMemory := by
    unfold relevantHits
    rw [List.filter_filter, List.filter_filter]
    exact List.filter_congr fun h _ => Bool.and_comm _ _
  unfold select
  rw [hcomm, readable_filter_isMemory]

/-- With an embedding that fits, a retriever ends with what it selects of the answer. -/
theorem carryOut_relevantMemories_answering (r : Retriever) (w : World) (script : StoreScript)
    (hits : List Hit) (t : TaskId) {i : Incident} {e : Embedding}
    (hanswer : w.embedder.behaviour i.searchQuery = .answers e)
    (hlen : e.length = r.settings.dims) :
    ((w.answering script hits).carryOut t (r.relevantMemories i).run).2
      = some (.done (.ok (r.select hits))) := by
  have hreply : (w.answering script hits).embedder.behaviour i.searchQuery
      = .ofOutcome (.ok e) := hanswer
  have hsearch := (w.traced (.embed i.searchQuery)).carryOut_search_answering script hits t e
    r.settings.limit (some r.settings.relevanceThreshold)
  show (World.carryOut _ t ((Procedure.embedAs _ i.searchQuery >>= r.recollectOn).run)).2 = _
  rw [World.carryOut_run_bind, World.carryOut_embedAs hreply]
  show (World.andThen t _ (_, some (.done (if e.length = r.settings.dims then _ else _)))).2 = _
  rw [if_pos hlen]
  exact (r.carryOut_recollectOn_of_search (Prod.ext rfl hsearch)).2

/-- **A retriever relies on nothing that a store answers.** Let the incident have an embedding of
the right length, and let the store answer the search with any hits: in any order, with any scores
and ids, and with any payloads. Then the retriever does not fail. It ends with memories read from
hits that have a memory's payload and score at or above the threshold; they are as many as there
are and may be used, best first and otherwise in the order of the answer, and no such hit that is
left out is ahead of one of them. Hits that cannot be read make no difference: the memories are the
same without them. -/
theorem relevantMemories_recalls (r : Retriever) (w : World) (script : StoreScript)
    (hits : List Hit) (t : TaskId) (i : Incident) {e : Embedding}
    (hanswer : w.embedder.behaviour i.searchQuery = .answers e)
    (hlen : e.length = r.settings.dims) :
    ∃ listed others memories, r.Recalls hits listed others memories
      ∧ ((w.answering script hits).carryOut t (r.relevantMemories i).run).2
        = some (.done (.ok memories))
      ∧ ((w.answering script (hits.filter fun h => h.IsMemory)).carryOut t
          (r.relevantMemories i).run).2 = some (.done (.ok memories)) := by
  obtain ⟨listed, others, hrecalls⟩ := r.recalls_select hits
  refine ⟨listed, others, r.select hits, hrecalls,
    r.carryOut_relevantMemories_answering w script hits t hanswer hlen, ?_⟩
  rw [r.carryOut_relevantMemories_answering w script _ t hanswer hlen, select_filter_isMemory]

/-- A retriever that uses two memories that score 0.75 or more. -/
def twoInThePlane : Retriever where
  settings := { inThePlane.settings with limit := 2 }

/-- A payload with the texts of a record, and its time. -/
def payloadAt (time : Json) : Payload :=
  [("cluster_id", .str "c"), ("namespace", .str "n"), ("raw_log", .str "oom killed"),
    ("resolution_action", .str "restart"), ("created_at", time)]

/-- An answer in no order. One score is too low and one is not a number, the highest one belongs to
a payload without a time, and two that are alike have the same id. -/
def disorder : List Hit :=
  let written := payloadAt (.str "2024-05-01T00:00:00Z")
  [⟨"low", ⟨0x3F000000⟩, written⟩, ⟨"again", ⟨0x3F400000⟩, written⟩,
    ⟨"timeless", ⟨0x40000000⟩, payloadAt .null⟩, ⟨"not-a-number", ⟨0x7FC00000⟩, written⟩,
    ⟨"again", ⟨0x3F400000⟩, written⟩, ⟨"best", .one, written⟩]

/-- A store that never answers, unless it is told to. -/
def silent : StoreScript :=
  ⟨⟨.hangs, []⟩, ⟨.hangs, []⟩, ⟨.hangs, []⟩, ⟨.hangs, []⟩, ⟨.hangs, []⟩⟩

/-- A world in which every text has the same embedding in the plane. -/
def inThePlaneOnly : World :=
  { World.bare with embedder := ⟨[], .answers [.zero, .one]⟩ }

/-- Of the six hits three can be used. -/
theorem relevantMemories_recalls_disorder :
    inThePlaneOnly.embedder.behaviour recurrence.searchQuery = .answers [.zero, .one]
      ∧ [Single.zero, .one].length = twoInThePlane.settings.dims
      ∧ (twoInThePlane.usable disorder).map (·.id) = ["again", "again", "best"]
      ∧ ∃ listed others memories, twoInThePlane.Recalls disorder listed others memories
        ∧ ((inThePlaneOnly.answering silent disorder).carryOut (.step 0)
            (twoInThePlane.relevantMemories recurrence).run).2 = some (.done (.ok memories))
        ∧ ((inThePlaneOnly.answering silent (disorder.filter fun h => h.IsMemory)).carryOut
            (.step 0) (twoInThePlane.relevantMemories recurrence).run).2
          = some (.done (.ok memories)) :=
  ⟨rfl, rfl, by decide +kernel,
    relevantMemories_recalls twoInThePlane inThePlaneOnly silent disorder (.step 0) recurrence
      rfl rfl⟩

end Retriever

end IncidentMemory
