import IncidentMemory.Proofs.Ties

/-!
# A failing item leaves the others alone

The worker consolidates what it takes one after another, and goes on after an item
whose log could not be embedded: the embedder failed or broke off, or its answer has
the wrong length. Such an item comes to nothing before the store is asked, so to the
others it is as if it had not been there. `Consolidator.work_isolates` compares a
round with the round in which any number of such items were never written: every
other item ends in the same way, but for ties if points are gone through in another
order there; the stores are the same but for the times of records; and the failing
items are counted as received and as failed, once each.

An item with a blank log does not even get as far as the embedder.
-/

namespace IncidentMemory

open Simulation

/-! ## Items that cannot be embedded -/

/-- **A delivery whose log cannot be embedded**: the embedder fails, other than by
being cancelled, or breaks off, or its answer has the wrong length. -/
def Consolidator.cannotEmbed (c : Consolidator) (d : Delivery) : Bool :=
  d.resolution.hasLog &&
    match d.embedder.behaviour d.resolution.rawLog with
    | .answers e => e.length ≠ c.settings.dims
    | .fails f => !f.isCancellation
    | .breaksOff _ => true
    | .hangs | .cancels => false

/-- **Its consolidation leaves the store as it is**, and counts as failed. -/
theorem Consolidator.effect_of_cannotEmbed {c : Consolidator} {d : Delivery}
    (h : c.cannotEmbed d = true) (s : Collections) :
    (c.effect s d.resolution d.today (d.embedder.behaviour d.resolution.rawLog)).1 = s
      ∧ Upshot.counter?
          (c.effect s d.resolution d.today (d.embedder.behaviour d.resolution.rawLog)).2
        = some .failed := by
  unfold cannotEmbed at h
  obtain ⟨hlog, hcannot⟩ := Bool.and_eq_true_iff.mp h
  unfold effect
  rw [if_neg (by simp [hlog])]
  cases hb : d.embedder.behaviour d.resolution.rawLog with
  | answers e =>
    rw [hb] at hcannot
    simp only [if_neg (of_decide_eq_true hcannot)]
    exact ⟨trivial, rfl⟩
  | fails f =>
    rw [hb, Bool.not_eq_true'] at hcannot
    exact ⟨rfl, if_neg (by simp [hcannot])⟩
  | breaksOff text => exact ⟨rfl, rfl⟩
  | hangs =>
    rw [hb] at hcannot
    exact nomatch hcannot
  | cancels =>
    rw [hb] at hcannot
    exact nomatch hcannot

/-- **A delivery that is in two queues, or in one**: unless it is left out of the
other queue, it is met there at a time of its own. -/
structure Queued where
  /-- The delivery. -/
  delivery : Delivery
  /-- When it is met in the other queue, if it is there. -/
  elsewhere : Option Timestamp

namespace Queued

/-- The delivery in the other queue. -/
def other? (i : Queued) : Option Delivery :=
  i.elsewhere.map fun now => { i.delivery with today := now }

/-- Whether it is left out of the other queue. -/
def isLeftOut (i : Queued) : Bool :=
  i.elsewhere.isNone

end Queued

/-- How those ended that are in both queues. -/
def spared (items : List Queued) (ended : List Consolidator.Ended) : List Consolidator.Ended :=
  ((items.zip ended).filter fun x => !x.1.isLeftOut).map Prod.snd

/-- How many of those that have ended are left out of the other queue. -/
def countLeftOut (items : List Queued) (ended : List Consolidator.Ended) : Nat :=
  (items.zip ended).countP fun x => x.1.isLeftOut

theorem countLeftOut_cons (i : Queued) (items : List Queued) (x : Consolidator.Ended)
    (xs : List Consolidator.Ended) :
    countLeftOut (i :: items) (x :: xs)
      = countLeftOut items xs + if i.isLeftOut = true then 1 else 0 :=
  List.countP_cons

/-- If all have ended, these are all that are left out. -/
theorem countLeftOut_of_length {items : List Queued} {ended : List Consolidator.Ended}
    (h : items.length ≤ ended.length) : countLeftOut items ended = items.countP (·.isLeftOut) := by
  have hfst : (items.zip ended).map Prod.fst = items := List.map_fst_zip h
  calc countLeftOut items ended
      = ((items.zip ended).map Prod.fst).countP (·.isLeftOut) := by rw [List.countP_map]; rfl
    _ = items.countP (·.isLeftOut) := by rw [hfst]

/-- A payload without the time at which its record was made. -/
def Payload.untimed (payload : Payload) : Payload :=
  payload.map fun (key, v) => (key, if key = "created_at" then .null else v)

/-! ## Counters -/

namespace Counters

/-- The counters with so many more failed items. -/
def withFailed (k : Counters) (n : Nat) : Counters :=
  { k with received := k.received + n, failed := k.failed + n }

theorem settle_of_failed (k : Counters) {x : Upshot} (h : x.counter? = some .failed) :
    k.settle x = k.withFailed 1 := by
  rw [k.settle_of_counted h]
  rfl

theorem withFailed_withFailed (k : Counters) (m n : Nat) :
    (k.withFailed m).withFailed n = k.withFailed (m + n) := by
  simp [withFailed, Nat.add_assoc]

/-- Failed items are counted beside the others. -/
theorem settle_withFailed (k : Counters) (n : Nat) (x : Upshot) :
    (k.withFailed n).settle x = (k.settle x).withFailed n := by
  unfold settle
  cases x.counter? with
  | none => simp [withFailed, add, Nat.add_right_comm]
  | some counter => cases counter <;> simp [withFailed, add, Nat.add_right_comm]

theorem foldl_settle_withFailed (k : Counters) (n : Nat) (ended : List Upshot) :
    ended.foldl settle (k.withFailed n) = (ended.foldl settle k).withFailed n := by
  induction ended generalizing k with
  | nil => rfl
  | cons x xs ih => rw [List.foldl_cons, List.foldl_cons, settle_withFailed, ih]

end Counters

namespace Consolidator

variable {w₁ w₂ : World} {s₁ s₂ : Collections}

/-- The time at which a record is made is all that depends on the time. -/
theorem recordOf_untimed (c : Consolidator) (r : Resolution) (e : Embedding)
    (now later : Timestamp) :
    ((c.recordOf r e now).toPoint).view Payload.untimed
      = ((c.recordOf r e later).toPoint).view Payload.untimed := by
  unfold recordOf
  split <;> simp [MemoryRecord.toPoint, MemoryRecord.redacted, MemoryRecord.ofResolution,
    Point.view, Payload.untimed]

/-- **What two rounds have in common**, if items that cannot be embedded are left out
of the second: the others end in the same way but for ties, the stores are the same but
for the times of records, and those left out count as received and as failed. -/
structure Isolates (c : Consolidator) (rank : List String → String → Nat) (w₁ w₂ : World)
    (items : List Queued) (ds₁ ds₂ : List Delivery) : Prop where
  /-- How the others end. -/
  ended : c.Agree rank w₂ ds₂ (spared items (c.takeAll w₁ ds₁).2)
  /-- What is stored. -/
  store : ∃ s₁ s₂, (c.takeAll w₁ ds₁).1.store = .inMemory s₁
    ∧ (c.takeAll w₂ ds₂).1.store = .inMemory s₂ ∧ s₂.Alike Payload.untimed s₁
  /-- What is counted. -/
  counters : ∀ k, (c.takeAll w₁ ds₁).2.foldl Counters.settle k
    = ((c.takeAll w₂ ds₂).2.foldl Counters.settle k).withFailed
      (countLeftOut items (c.takeAll w₁ ds₁).2)

variable {c : Consolidator} {rank : List String → String → Nat} {items : List Queued}
  {d d' : Delivery} {ds₁ ds₂ : List Delivery}

/-- No consolidations have that in common, over stores that are the same but for the
times of records. -/
theorem isolates_nil (h₁ : w₁.store = .inMemory s₁) (h₂ : w₂.store = .inMemory s₂)
    (hs : s₂.Alike Payload.untimed s₁) (items : List Queued) :
    c.Isolates rank w₁ w₂ items [] [] where
  ended := by simpa [spared, takeAll] using Agree.nil w₂
  store := ⟨s₁, s₂, h₁, h₂, hs⟩
  counters k := by simp [countLeftOut, takeAll, Counters.withFailed]

/-- A failed item that is left out of the second round comes first. -/
theorem Isolates.leftOut (h : c.Isolates rank (c.take w₁ d).1 w₂ items ds₁ ds₂)
    (hfailed : Upshot.counter? (c.take w₁ d).2 = some .failed) :
    c.Isolates rank w₁ w₂ (⟨d, none⟩ :: items) (d :: ds₁) ds₂ where
  ended := h.ended
  store := h.store
  counters k := by
    rw [takeAll_cons, List.foldl_cons, h.counters, Counters.settle_of_failed k hfailed,
      Counters.foldl_settle_withFailed, Counters.withFailed_withFailed, countLeftOut_cons,
      Nat.add_comm 1]
    rfl

/-- An item that is in both rounds comes first, and ends in the same way but for ties. -/
theorem Isolates.both (h : c.Isolates rank (c.take w₁ d).1 (c.take w₂ d').1 items ds₁ ds₂)
    (h₂ : w₂.store = .inMemory s₂)
    (hties : Ties s₂ rank (d'.embedder.behaviour d'.resolution.rawLog) (c.take w₂ d').2
      (c.take w₁ d).2) (now : Timestamp) :
    c.Isolates rank w₁ w₂ (⟨d, some now⟩ :: items) (d :: ds₁) (d' :: ds₂) where
  ended := .cons h₂ hties h.ended
  store := h.store
  counters k := by
    rw [takeAll_cons, takeAll_cons, List.foldl_cons, List.foldl_cons, hties.settle_eq, h.counters,
      countLeftOut_cons]
    rfl

/-- **Consolidations one after another have that in common**, by induction on the
items. One that is left out does not change the first store, and one that is in both
queues changes stores that look alike in the same way. -/
theorem isolates_reached (c : Consolidator) (h₁ : w₁.store = .inMemory s₁)
    (h₂ : w₂.store = .inMemory s₂) (hs : s₂.Alike Payload.untimed s₁)
    (hitems : ∀ i ∈ items, i.isLeftOut = true → c.cannotEmbed i.delivery = true) :
    c.Isolates s₁.machine.rank w₁ w₂ items (c.reached w₁ (items.map (·.delivery)))
      (c.reached w₂ (items.filterMap (·.other?))) := by
  induction items generalizing w₁ w₂ s₁ s₂ with
  | nil => exact isolates_nil h₁ h₂ hs []
  | cons i items ih =>
    obtain ⟨d, elsewhere⟩ := i
    have hrest : ∀ i ∈ items, i.isLeftOut = true → c.cannotEmbed i.delivery = true :=
      fun i hi => hitems i (List.mem_cons_of_mem _ hi)
    cases elsewhere with
    | none =>
      obtain ⟨hstore₁, hended₁, -, -⟩ := c.take_spec h₁ d
      obtain ⟨hsame, hfailed⟩ := effect_of_cannotEmbed (hitems _ List.mem_cons_self rfl) s₁
      rw [hsame] at hstore₁
      rw [← hended₁] at hfailed
      have hgoes : Upshot.isAbandoned (c.take w₁ d).2 = false := by
        refine Bool.eq_false_iff.mpr fun habandoned => ?_
        rw [← Upshot.counter?_eq_none_iff, hfailed] at habandoned
        exact nomatch habandoned
      rw [List.map_cons, List.filterMap_cons_none rfl, reached, hgoes, if_neg Bool.false_ne_true]
      exact (ih hstore₁ h₂ hs hrest).leftOut hfailed
    | some now =>
      let d' : Delivery := { d with today := now }
      obtain ⟨s₂', s₁', hstore₂, hstore₁, halike, hrank, hties⟩ := take_alike c c rfl rfl h₂ h₁
        hs d' d.today fun e => c.recordOf_untimed d.resolution e now d.today
      have hothers : (⟨d, some now⟩ :: items).filterMap (·.other?)
          = d' :: items.filterMap (·.other?) := rfl
      rw [List.map_cons, hothers, reached, reached, hties.isAbandoned_eq]
      cases Upshot.isAbandoned (c.take w₂ d').2 with
      | true => exact (isolates_nil hstore₁ hstore₂ halike items).both h₂ hties now
      | false =>
        have hothers := ih hstore₁ hstore₂ halike hrest
        rw [hrank] at hothers
        exact hothers.both h₂ hties now

end Consolidator

/-! ## Blank logs -/

/-- The call that an entry of a journal is about. -/
def Entry.call? : Entry → Option Call
  | .heard q _ => some q
  | .gaveUp q => some q
  | _ => none

namespace Consolidator

open Routine

/-- **An item with a blank log makes no call**, whatever could have been answered. -/
theorem calls_handle_of_blank (c : Consolidator) {r : Resolution} (hlog : r.hasLog = false)
    {j : List Entry} {o : Attempt Bool} (h : (c.handle r).Runs j o) :
    j.filterMap Entry.call? = [] := by
  have hblank : ∀ {told : List Entry} {o : Attempt Upshot},
      (watching (c.consolidate r).run.caught).Runs told o →
        (told = [.looked true] ∧ o = .done none)
          ∨ told = [.looked false] ∧ o = .done (some (.done (.ok .skipped))) := by
    intro told o htold
    refine htold.watching.imp_right fun ⟨rest, htold, hrest⟩ => ?_
    unfold consolidate at hrest
    rw [if_pos (by simp [hlog])] at hrest
    obtain ⟨⟨⟩, rest, rfl, rfl, ho⟩ := hrest
    exact ⟨htold, ho⟩
  obtain ⟨⟨⟩, rest, rfl, hrest⟩ := Runs.perform_bind h
  rcases hrest.bind with ⟨told, after, x, rfl, htold, hafter⟩ | ⟨text, htold, -⟩
  · rcases hblank htold with ⟨rfl, hx⟩ | ⟨rfl, hx⟩
    · obtain rfl := Attempt.done.inj hx
      obtain ⟨⟨⟩, rest, rfl, rfl, -⟩ := hafter
      rfl
    · obtain rfl := Attempt.done.inj hx
      obtain ⟨⟨⟩, rest, rfl, rfl, -⟩ := hafter
      rfl
  · rcases hblank htold with ⟨-, hx⟩ | ⟨-, hx⟩ <;> exact nomatch hx

/-! ## Rounds -/

/-- **A failing item leaves the others alone.** The worker starts with any store in
memory, and resolutions are delivered to it, whatever the embedder does with their
logs. Any number of those that cannot be embedded are left out of another round, in
which the rest may be met at other times, and the points of the store gone through in
another order. Then

- the items that are in both rounds end in the same way, but that a log which repeats
  several records that are equally near may be said to repeat another one of them, with
  the same score; if the order is the same, so are all endings;
- the stores are the same but for the times of records;
- every item left out, if the worker gets to it, counts as received and as failed, and
  nothing else is counted differently; it gets to all of them if it abandons none;
- an item with a blank log makes no call, of the embedder or of the store. -/
theorem work_isolates (c : Consolidator) (w : World) (s : Collections)
    (rank : List String → String → Nat) (items : List Queued)
    (most : Nat) (hmost : items.length ≤ most)
    (hitems : ∀ i ∈ items, i.isLeftOut = true → c.cannotEmbed i.delivery = true) :
    let start : World := { w with store := .inMemory (s.reordered rank), stopping := false }
    let start' : World := { start with store := .inMemory s }
    let all := items.map (·.delivery)
    let others := items.filterMap (·.other?)
    let ended := (c.takeAll start (c.reached start all)).2
    let ended' := (c.takeAll start' (c.reached start' others)).2
    let world := (Round.run ⟨start, all⟩ (c.work most)).1.world
    let world' := (Round.run ⟨start', others⟩ (c.work most)).1.world
    (c.Agree rank start' (c.reached start' others) (spared items ended)
        ∧ (rank = s.machine.rank → spared items ended = ended'))
      ∧ (∃ s₁ s₂, world.store = .inMemory s₁ ∧ world'.store = .inMemory s₂
        ∧ s₂.Alike Payload.untimed s₁)
      ∧ world.counters = world'.counters.withFailed (countLeftOut items ended)
      ∧ ((∀ x ∈ ended, Upshot.isAbandoned x = false) →
        countLeftOut items ended = items.countP (·.isLeftOut))
      ∧ ∀ r : Resolution, r.hasLog = false → ∀ j o, (c.handle r).Runs j o →
        j.filterMap Entry.call? = [] := by
  intro start start' all others ended ended' world world'
  have hs : start.store = .inMemory (s.reordered rank) := rfl
  have hs' : start'.store = .inMemory s := rfl
  obtain ⟨hended, hstore, hcounters⟩ :=
    c.isolates_reached hs hs' (s.alike_reordered Payload.untimed rank) hitems
  have hall : all.take most = all := List.take_of_length_le (by simpa [all] using hmost)
  have hothers : others.take most = others :=
    List.take_of_length_le (Nat.le_trans (List.length_filterMap_le _ _) hmost)
  have hworld := c.run_work most hs rfl all
  have hworld' := c.run_work most hs' rfl others
  rw [hall] at hworld
  rw [hothers] at hworld'
  refine ⟨⟨hended, fun hrank => hended.eq hs' hrank⟩, ?_, ?_,
    fun hsettled => countLeftOut_of_length ?_, fun r hlog j o h => c.calls_handle_of_blank hlog h⟩
  · rw [hworld.store, hworld'.store]
    exact hstore
  · rw [hworld.counters, hworld'.counters]
    exact hcounters start.counters
  · refine Nat.le_of_eq ?_
    rw [length_takeAll, c.reached_of_settled hsettled, List.length_map]

/-- Five deliveries. The second, whose embedder breaks off, and the fourth, whose
embedding is too short, are left out of the other queue. Of the rest the first two are
stored and the last is like the first. -/
def withFailing : List Queued :=
  [⟨delivered "a" [.one, .zero], some ⟨0, 0⟩⟩,
    ⟨{ delivered "b" [] with embedder := { otherwise := .breaksOff "out of memory" } }, none⟩,
    ⟨delivered "c" [.zero, .one], some ⟨60, 0⟩⟩,
    ⟨delivered "d" [.one], none⟩,
    ⟨delivered "e" [.one, .zero], some ⟨120, 0⟩⟩]

/-- Without those two, two items less are received, and two less have failed. -/
theorem work_isolates_withFailing :
    withFailing.length ≤ 5
      ∧ (∀ i ∈ withFailing, i.isLeftOut = true → inThePlane.cannotEmbed i.delivery = true)
      ∧ (Round.run ⟨emptyPlane, withFailing.map (·.delivery)⟩ (inThePlane.work 5)).1.world.counters
        = (Round.run ⟨emptyPlane, withFailing.filterMap (·.other?)⟩
            (inThePlane.work 5)).1.world.counters.withFailed 2 :=
  have hfailing : ∀ i ∈ withFailing,
      i.isLeftOut = true → inThePlane.cannotEmbed i.delivery = true := by decide +kernel
  have hisolates := work_isolates inThePlane emptyPlane
    ⟨.usual, "memories", 2, [("memories", ⟨2, .cosine, []⟩)]⟩ (fun _ _ => 0) withFailing 5
    (by decide) hfailing
  ⟨by decide, hfailing, hisolates.2.2.1.trans (congrArg _ (by decide +kernel))⟩

/-- A delivery with two records like it, and one whose embedding is too short. -/
def tiedThenFailing : List Queued :=
  [⟨delivered "c" [.one, .zero], some ⟨0, 0⟩⟩, ⟨delivered "d" [.one], none⟩]

/-- **Endings need not be the same if the orders differ**: the first one repeats one of
the records in one round, and the other one in the other. -/
theorem work_isolates_otherTie :
    tiedStore lastFirst = (tiedStore fun _ _ => 0).reordered lastFirst
      ∧ (∀ i ∈ tiedThenFailing, i.isLeftOut = true → inThePlane.cannotEmbed i.delivery = true)
      ∧ spared tiedThenFailing (inThePlane.takeAll (tiedPlane lastFirst)
          (inThePlane.reached (tiedPlane lastFirst) (tiedThenFailing.map (·.delivery)))).2
        = [some (.done (.ok (.duplicate "b" .one)))]
      ∧ (inThePlane.takeAll (tiedPlane fun _ _ => 0)
          (inThePlane.reached (tiedPlane fun _ _ => 0) (tiedThenFailing.filterMap (·.other?)))).2
        = [some (.done (.ok (.duplicate "a" .one)))] := by
  have hlast := take_tied (c := inThePlane) rfl (by decide) lastFirst "c"
  have hfirst := take_tied (c := inThePlane) rfl (by decide) (fun _ _ => 0) "c"
  refine ⟨rfl, by decide +kernel, ?_, ?_⟩
  · show spared tiedThenFailing (inThePlane.takeAll _ (inThePlane.reached _
      [delivered "c" [.one, .zero], delivered "d" [.one]])).2 = _
    rw [reached, hlast, reached_singleton]
    show [(inThePlane.take (tiedPlane lastFirst) (delivered "c" [.one, .zero])).2] = _
    rw [hlast]
    rfl
  · show (inThePlane.takeAll _ (inThePlane.reached _ [delivered "c" [.one, .zero]])).2 = _
    rw [reached_singleton]
    exact congrArg ([·]) hfirst

end Consolidator

end IncidentMemory
