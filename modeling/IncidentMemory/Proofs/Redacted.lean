import IncidentMemory.Proofs.Persistence
import IncidentMemory.Proofs.Ties

/-!
# Redaction changes what is stored, and nothing else

A consolidator that redacts masks secrets in the log and the action of a record as
it writes it. What it compares are vectors, and what it asks the embedder for is the
log as it came. So with redaction and without it a consolidator decides alike, not
only about the next resolution but about all that follow, although they are compared
with records that differ: the embedder is asked for the same texts, every resolution
ends in the same way, and of what is stored only the masked texts differ
(`Consolidator.redacting_onlyMasks`).
-/

namespace IncidentMemory

open Simulation

/-! ## Masked payloads -/

/-- A value with the secrets in its text masked. -/
def Json.masked : Json → Json
  | .str text => .str (Redaction.redact text)
  | v => v

/-- **A payload with the secrets in the log and the action masked.** -/
def Payload.masked (payload : Payload) : Payload :=
  payload.map fun (key, v) =>
    (key, if key = "raw_log" ∨ key = "resolution_action" then v.masked else v)

/-- No payload at all. -/
def Payload.none (_ : Payload) : Payload :=
  []

theorem Point.view_masked_none (p : Point) :
    (p.view Payload.masked).view Payload.none = p.view Payload.none :=
  rfl

/-- **Collections that differ by masking alone**, and by the order in which they are
gone through: the same ids and vectors are in the same places, and what is found under
an id is the same, or the same masked if the id is one of those given. -/
structure Collections.Masks (ids : List String) (s₁ s₂ : Collections) : Prop where
  /-- The ids and vectors. -/
  bare : s₁.Alike Payload.none s₂
  /-- What is found. -/
  found : ∀ id, s₂.get id
    = (s₁.get id).map fun p => if id ∈ ids then p.map (Point.view Payload.masked) else p

/-- Collections in another order differ by no masking. -/
theorem Collections.masks_reordered (rank : List String → String → Nat) (s : Collections) :
    s.Masks [] (s.reordered rank) where
  bare := s.alike_reordered _ rank
  found id := by
    simp only [List.not_mem_nil, if_false]
    exact (congrFun Except.map_id _).symm

namespace Consolidator

/-- A consolidator with redaction on or off. -/
def redacting (c : Consolidator) (redacts : Bool) : Consolidator :=
  { c with settings := { c.settings with redactLogs := redacts } }

/-- The ids under which consolidations have stored something. -/
def storedIds (ended : List Ended) : List String :=
  ended.filterMap storedId?

/-- **What is written with redaction is what is written without it, masked.** -/
theorem recordOf_redacting (c : Consolidator) (r : Resolution) (e : Embedding) (now : Timestamp) :
    ((c.redacting true).recordOf r e now).toPoint
      = ((c.redacting false).recordOf r e now).toPoint.view Payload.masked := by
  simp [recordOf, redacting, MemoryRecord.toPoint, MemoryRecord.redacted, Point.view,
    Payload.masked, Json.masked, MemoryRecord.ofResolution]

/-! ## One consolidation -/

variable {w w₁ w₂ : World} {s s₁ s₂ : Collections} {ids : List String}
  {rank : List String → String → Nat}

theorem mem_storedIds_singleton {id : String} {ended : Ended} :
    id ∈ storedIds [ended] ↔ stores id ended = true := by
  unfold stores storedIds
  rw [List.filterMap_cons, List.filterMap_nil, beq_iff_eq]
  cases storedId? ended with
  | none => exact iff_of_false List.not_mem_nil nofun
  | some stored => rw [List.mem_singleton, Option.some.injEq, eq_comm]

/-- What is said to be stored under an id has been written there. -/
theorem written?_ne_none (c : Consolidator) (hs : w.store = .inMemory s) (d : Delivery)
    (id : String) (h : stores id (c.take w d).2 = true) :
    c.written? id d (c.take w d).2 ≠ none := by
  have hended := (c.take_spec hs d).2.1
  have hstored : storedId? (c.effect s d.resolution d.today
      (d.embedder.behaviour d.resolution.rawLog)).2 ≠ none := by
    intro hnone
    rw [hended, stores, hnone] at h
    exact Bool.false_ne_true h
  have hanswers : ∃ e, d.embedder.behaviour d.resolution.rawLog = .answers e := by
    cases hcol : s.current with
    | error f => exact absurd (c.effect_of_current_error hcol _ _ _).2 hstored
    | ok col =>
      rcases c.effect_cases hcol d.resolution d.today
          (d.embedder.behaviour d.resolution.rawLog) with ⟨-, hnone⟩ | ⟨e, he, -⟩
      · exact absurd hnone hstored
      · exact ⟨e, he⟩
  obtain ⟨e, he⟩ := hanswers
  unfold written? memoryOf
  rw [if_pos h, he]
  exact Option.some_ne_none _

/-- What is written is masked by redaction. -/
theorem written?_redacting (c : Consolidator) (id : String) (d : Delivery) (ended : Ended) :
    (c.redacting true).written? id d ended
      = ((c.redacting false).written? id d ended).map (Point.view Payload.masked) := by
  unfold written? memoryOf
  split
  · split
    · rw [recordOf_redacting]
      rfl
    · rfl
  · rfl

/-- **One consolidation with redaction and without it**, over stores that differ by
masking alone, ends in the same way but for ties, and they differ by masking alone
afterwards. -/
theorem take_redacting (c : Consolidator) (h₁ : w₁.store = .inMemory s₁)
    (h₂ : w₂.store = .inMemory s₂) (hm : s₁.Masks ids s₂) (d : Delivery) :
    Ties s₁ s₂.machine.rank (d.embedder.behaviour d.resolution.rawLog)
        ((c.redacting false).take w₁ d).2 ((c.redacting true).take w₂ d).2
      ∧ ∃ s₁' s₂', ((c.redacting false).take w₁ d).1.store = .inMemory s₁'
        ∧ ((c.redacting true).take w₂ d).1.store = .inMemory s₂'
        ∧ s₁'.Masks (ids ++ storedIds [((c.redacting false).take w₁ d).2]) s₂'
        ∧ s₂'.machine.rank = s₂.machine.rank := by
  obtain ⟨s₁', s₂', hs₁', hs₂', hbare, hrank, hties⟩ := take_alike (c.redacting false)
    (c.redacting true) rfl rfl h₁ h₂ hm.bare d d.today fun e => by
      rw [recordOf_redacting, Point.view_masked_none]
  refine ⟨hties, s₁', s₂', hs₁', hs₂', ⟨hbare, fun id => ?_⟩, hrank⟩
  obtain ⟨s, hs, hfound₁⟩ := (c.redacting false).get_take h₁ d
  obtain rfl : s₁' = s := VectorStore.inMemory.inj (hs₁'.symm.trans hs)
  obtain ⟨s', hs', hfound₂⟩ := (c.redacting true).get_take h₂ d
  obtain rfl : s₂' = s' := VectorStore.inMemory.inj (hs₂'.symm.trans hs')
  have hstores : stores id ((c.redacting true).take w₂ d).2
      = stores id ((c.redacting false).take w₁ d).2 := by
    unfold stores
    rw [hties.storedId?_eq]
  rw [hfound₂, hfound₁, hm.found, written?_redacting]
  have hwritten := (c.redacting false).written?_ne_none h₁ d id
  unfold written? at hwritten ⊢
  rw [hstores]
  cases s₁.get id with
  | error f => rfl
  | ok old =>
    show Except.ok _ = Except.ok _
    congr 1
    simp only [List.mem_append, mem_storedIds_singleton]
    cases h : stores id ((c.redacting false).take w₁ d).2 with
    | true =>
      obtain ⟨p, hp⟩ := Option.ne_none_iff_exists'.mp (hwritten h)
      rw [if_pos h] at hp
      simp [hp]
    | false => simp

/-! ## All of them -/

theorem storedIds_cons (ended : Ended) (others : List Ended) :
    storedIds (ended :: others) = storedIds [ended] ++ storedIds others := by
  unfold storedIds
  rw [← List.filterMap_append]
  rfl

/-- Consolidations one after another differ by masking alone, too, and by ties. -/
theorem takeAll_redacting (c : Consolidator) (h₁ : w₁.store = .inMemory s₁)
    (h₂ : w₂.store = .inMemory s₂) (hm : s₁.Masks ids s₂) (ds : List Delivery) :
    (c.redacting false).Agree s₂.machine.rank w₁ ds ((c.redacting true).takeAll w₂ ds).2
      ∧ (c.redacting true).reached w₂ ds = (c.redacting false).reached w₁ ds
      ∧ ∃ s₁' s₂', ((c.redacting false).takeAll w₁ ds).1.store = .inMemory s₁'
        ∧ ((c.redacting true).takeAll w₂ ds).1.store = .inMemory s₂'
        ∧ s₁'.Masks (ids ++ storedIds ((c.redacting false).takeAll w₁ ds).2) s₂' := by
  induction ds generalizing w₁ w₂ s₁ s₂ ids with
  | nil =>
    refine ⟨.nil _, rfl, s₁, s₂, h₁, h₂, ?_⟩
    rw [show storedIds _ = [] from rfl, List.append_nil]
    exact hm
  | cons d ds ih =>
    obtain ⟨hties, s₁', s₂', h₁', h₂', hm', hrank⟩ := c.take_redacting h₁ h₂ hm d
    obtain ⟨hagree, hreached, s₁'', s₂'', h₁'', h₂'', hm''⟩ := ih h₁' h₂' hm'
    rw [List.append_assoc, ← storedIds_cons] at hm''
    rw [hrank] at hagree
    refine ⟨.cons h₁ hties hagree, ?_, s₁'', s₂'', h₁'', h₂'', hm''⟩
    rw [reached, reached, hties.isAbandoned_eq, hreached]

/-- What the embedder was asked by consolidations one after another, which count
nothing. -/
theorem takeAll_besides (c : Consolidator) (hs : w.store = .inMemory s) (ds : List Delivery) :
    (c.takeAll w ds).1.trace = w.trace ++ (ds.flatMap fun d => d.resolution.asked)
      ∧ (c.takeAll w ds).1.counters = w.counters := by
  induction ds generalizing w s with
  | nil => exact ⟨(List.append_nil _).symm, rfl⟩
  | cons d ds ih =>
    obtain ⟨hstore, -, htrace, hcounters⟩ := c.take_spec hs d
    obtain ⟨htraces, hcounts⟩ := ih hstore
    rw [takeAll_cons, List.flatMap_cons, ← List.append_assoc, ← htrace, ← hcounters]
    exact ⟨htraces, hcounts⟩

/-- **Two worlds that differ by what redaction has masked** under some ids, and in
which the embedder was asked the same and the same was counted. -/
structure OnlyMasked (ids : List String) (w₁ w₂ : World) : Prop where
  /-- The embedder was asked the same. -/
  trace : w₂.trace = w₁.trace
  /-- The same was counted. -/
  counters : w₂.counters = w₁.counters
  /-- The stores differ by masking alone. -/
  store : ∃ s₁ s₂, w₁.store = .inMemory s₁ ∧ w₂.store = .inMemory s₂ ∧ s₁.Masks ids s₂

theorem onlyMasked_takeAll (c : Consolidator) (h₁ : w₁.store = .inMemory s)
    (h₂ : w₂ = { w₁ with store := .inMemory (s.reordered rank) }) (ds : List Delivery) :
    (c.redacting false).Agree rank w₁ ds ((c.redacting true).takeAll w₂ ds).2
      ∧ OnlyMasked (storedIds ((c.redacting false).takeAll w₁ ds).2)
        ((c.redacting false).takeAll w₁ ds).1 ((c.redacting true).takeAll w₂ ds).1 := by
  have h₂' : w₂.store = .inMemory (s.reordered rank) := by rw [h₂]
  obtain ⟨hagree, -, s₁, s₂, hs₁, hs₂, hm⟩ := c.takeAll_redacting h₁ h₂' (s.masks_reordered rank) ds
  obtain ⟨htrace₁, hcounters₁⟩ := (c.redacting false).takeAll_besides h₁ ds
  obtain ⟨htrace₂, hcounters₂⟩ := (c.redacting true).takeAll_besides h₂' ds
  rw [h₂] at htrace₂ hcounters₂
  refine ⟨hagree, ?_, ?_, s₁, s₂, hs₁, hs₂, hm⟩
  · rw [htrace₁, h₂, htrace₂]
  · rw [hcounters₁, h₂, hcounters₂]

/-- **Redaction has no influence on decisions.** A consolidator that starts with any
store in memory takes any resolutions, whatever the embedder does with their logs, with
redaction and without it. The two stores that it starts with are the same, and may go
through their points in different orders. Then

- consolidations one after another end in the same way, item by item, but that a log
  which repeats several records that are equally near may be said to repeat another
  one of them, with the same score; if the order is the same, so are all endings;
- the worker gets to the same items, and counts the same;
- the embedder is asked for the same texts;
- the same ids with the same vectors are stored, in the same places, and the payloads
  differ by the masking of the log and the action in what was written. -/
theorem redacting_onlyMasks (c : Consolidator) (w : World) (s : Collections)
    (rank : List String → String → Nat) (most : Nat) (ds : List Delivery) :
    let start : World := { w with store := .inMemory s, stopping := false }
    let start' : World := { start with store := .inMemory (s.reordered rank) }
    let plain := c.redacting false
    let masking := c.redacting true
    let ended := (plain.takeAll start ds).2
    let ended' := (masking.takeAll start' ds).2
    let items := plain.reached start (ds.take most)
    (plain.Agree rank start ds ended' ∧ (rank = s.machine.rank → ended' = ended)
      ∧ OnlyMasked (storedIds ended) (plain.takeAll start ds).1 (masking.takeAll start' ds).1)
    ∧ (masking.reached start' (ds.take most) = items
      ∧ OnlyMasked (storedIds (plain.takeAll start items).2)
        (Round.run ⟨start, ds⟩ (plain.work most)).1.world
        (Round.run ⟨start', ds⟩ (masking.work most)).1.world) := by
  intro start start' plain masking ended ended' items
  have hs : start.store = .inMemory s := rfl
  have hs' : start'.store = .inMemory (s.reordered rank) := rfl
  have hstart' : start' = { start with store := .inMemory (s.reordered rank) } := rfl
  obtain ⟨hagree, honly⟩ := c.onlyMasked_takeAll hs hstart' ds
  have hreached := (c.takeAll_redacting hs hs' (s.masks_reordered rank) (ds.take most)).2.1
  refine ⟨⟨hagree, fun hrank => hagree.eq hs hrank, honly⟩, hreached, ?_⟩
  -- a round is consolidations one after another, of the same items
  have hplain := plain.run_work most hs rfl ds
  have hmasking := masking.run_work most hs' rfl ds
  rw [hreached] at hmasking
  obtain ⟨hends, htrace, -, hstore⟩ := c.onlyMasked_takeAll hs hstart' items
  refine ⟨?_, ?_, ?_⟩
  · rw [hplain.trace, hmasking.trace, htrace]
  · rw [hplain.counters, hmasking.counters, hends.counters_eq]
  · rw [hplain.store, hmasking.store]
    exact hstore

/-- **Endings need not be the same if the orders differ**: with two records of one
vector, a log that repeats both is said to repeat either. -/
theorem redacting_otherTie :
    tiedStore lastFirst = (tiedStore fun _ _ => 0).reordered lastFirst
      ∧ ((inThePlane.redacting false).takeAll (tiedPlane fun _ _ => 0)
        [delivered "c" [.one, .zero]]).2 = [some (.done (.ok (.duplicate "a" .one)))]
      ∧ ((inThePlane.redacting true).takeAll (tiedPlane lastFirst)
        [delivered "c" [.one, .zero]]).2 = [some (.done (.ok (.duplicate "b" .one)))] :=
  ⟨rfl, congrArg ([·]) (take_tied rfl (by decide) (fun _ _ => 0) "c"),
    congrArg ([·]) (take_tied rfl (by decide) lastFirst "c")⟩

end Consolidator

end IncidentMemory
