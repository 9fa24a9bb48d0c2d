import IncidentMemory.Consolidation.Worker
import IncidentMemory.Proofs.Journal

/-!
# What becomes of the items that the worker takes

The journal of the worker is made of one piece for every resolution it takes
from the buffer, and of one about its end. `Consolidator.Tale` lists what a
consolidation can come to, by the calls that were answered: there is one way for
each of its exits, and each call has three setbacks. `Consolidator.Drained` puts
the pieces together as the loop does, and `Consolidator.runs_work` says that the
worker has no other journals.

Everything else is read off the pieces: what is counted, what is put in, and that
nothing comes after a shutdown was noticed.
-/

namespace IncidentMemory

open Routine

/-! ## One consolidation -/

/-- **What a consolidation comes to**; nothing if it was given up. -/
abbrev Upshot := Option (Attempt (Outcome Consolidated))

namespace Upshot

/-- **That an item was abandoned**: its consolidation was given up because the
token had fired, or reported a cancellation. -/
def isAbandoned : Upshot → Bool
  | none => true
  | some (.done (.error f)) => f.isCancellation
  | _ => false

/-- What is counted then. -/
def counter? : Upshot → Option Counter
  | none => none
  | some (.done (.ok result)) => some result.counter
  | some (.done (.error f)) => if f.isCancellation then none else some .failed
  | some (.brokenOff _) => some .failed

/-- An item is abandoned exactly if it is not counted at its end. -/
theorem counter?_eq_none_iff (x : Upshot) : x.counter? = none ↔ x.isAbandoned = true := by
  unfold counter? isAbandoned
  rcases x with _ | ((f | result) | text)
  · exact iff_of_true rfl rfl
  · cases hf : f.isCancellation with
    | true => exact iff_of_true (by simp [hf]) hf
    | false => exact iff_of_false (by simp [hf]) (by simp [hf])
  · exact iff_of_false (Option.some_ne_none _) Bool.false_ne_true
  · exact iff_of_false (Option.some_ne_none _) Bool.false_ne_true

theorem counter?_cases (x : Upshot) :
    x.counter? = some .stored ∨ x.counter? = some .duplicates ∨ x.counter? = some .skipped
      ∨ x.counter? = some .failed ∨ x.counter? = none := by
  unfold counter?
  rcases x with _ | ((f | result) | text)
  · simp
  · cases hf : f.isCancellation <;> simp [hf]
  · cases result <;> simp [Consolidated.counter]
  · simp

end Upshot

namespace Routine.Setback

variable {q : Call} {entry : Entry}

/-- Nothing is put in by a call with a setback. -/
theorem put?_eq_none {α : Type} {x : Option (Attempt (Outcome α))} (h : Setback q entry x) :
    entry.put? = none := by
  cases h with
  | gaveUp => rfl
  | brokenOff text => cases q <;> rfl
  | @failed reply f h =>
    cases q with
    | upsert points =>
      rcases reply with f | ⟨⟩
      · rfl
      · exact nomatch h
    | _ => rfl

/-- So nothing is stored. -/
theorem not_stored {x : Upshot} (h : Setback q entry x) : x.counter? ≠ some .stored := by
  unfold Upshot.counter?
  cases h with
  | gaveUp => exact (Option.some_ne_none _).symm
  | brokenOff text => exact fun h => nomatch h
  | failed h =>
    dsimp only
    split <;> exact fun h => nomatch h

/-- **A setback tells of a shutdown exactly if the item is abandoned for it.** -/
theorem tellsStop {x : Upshot} (h : Setback q entry x) : entry.tellsStop = x.isAbandoned := by
  cases h with
  | gaveUp => rfl
  | brokenOff text => rfl
  | @failed reply f h =>
    show (q.failure? reply).any Failure.isCancellation = f.isCancellation
    rw [h]
    rfl

/-- What a setback means after calm entries. -/
theorem stops {x : Upshot} (h : Setback q entry x) {calm : List Entry} (hcalm : Calm calm) :
    (x.isAbandoned = false ∧ Calm (calm ++ [entry]))
      ∨ x.isAbandoned = true ∧ EndsStopped (calm ++ [entry]) := by
  rw [← h.tellsStop]
  cases hentry : entry.tellsStop with
  | false => exact Or.inl ⟨rfl, calm_append.mpr ⟨hcalm, calm_cons.mpr ⟨hentry, calm_nil⟩⟩⟩
  | true => exact Or.inr ⟨rfl, calm, entry, rfl, hcalm, hentry⟩

end Routine.Setback

namespace Consolidator

variable {c : Consolidator} {r : Resolution}

/-- **What a consolidation comes to**, by what was heard in its course. -/
inductive Tale (c : Consolidator) (r : Resolution) : List Entry → Upshot → Prop
  /-- The log is blank, and nothing was asked. -/
  | blank (h : r.hasLog = false) : Tale c r [] (some (.done (.ok .skipped)))
  /-- There is no embedding. -/
  | unembedded {entry : Entry} {x : Upshot}
    (h : Setback (.embed r.rawLog) entry x) : Tale c r [entry] x
  /-- The embedding has the wrong length. -/
  | misfit {e : Embedding} (h : e.length ≠ c.settings.dims) :
    Tale c r [.heard (.embed r.rawLog) (.done (.ok e))]
      (some (.done (.error (.dimensions c.settings.dims e.length))))
  /-- There is no result of the search. -/
  | unsearched {e : Embedding} {entry : Entry} {x : Upshot}
    (h : Setback (.search e 1 none) entry x) :
    Tale c r [.heard (.embed r.rawLog) (.done (.ok e)), entry] x
  /-- A memory like it was found. -/
  | duplicate {e : Embedding} {hits : List Hit} {hit : Hit}
    (h : (c.repeated r.incidentId hits).value = some hit) :
    Tale c r [.heard (.embed r.rawLog) (.done (.ok e)),
        .heard (.search e 1 none) (.done (.ok hits))]
      (some (.done (.ok (.duplicate hit.id hit.score))))
  /-- It was not put in. -/
  | unwritten {e : Embedding} {hits : List Hit} {now : Timestamp} {entry : Entry} {x : Upshot}
    (hnew : (c.repeated r.incidentId hits).value = none)
    (h : Setback (.upsert [(c.recordOf r e now).toPoint]) entry x) :
    Tale c r [.heard (.embed r.rawLog) (.done (.ok e)),
      .heard (.search e 1 none) (.done (.ok hits)), entry] x
  /-- It was put in. -/
  | stored {e : Embedding} {hits : List Hit} {now : Timestamp}
    (hnew : (c.repeated r.incidentId hits).value = none) :
    Tale c r [.heard (.embed r.rawLog) (.done (.ok e)),
        .heard (.search e 1 none) (.done (.ok hits)),
        .heard (.upsert [(c.recordOf r e now).toPoint]) (.done (.ok ()))]
      (some (.done (.ok (.stored r.incidentId))))

/-- **A consolidation that is watched comes to nothing else.** -/
theorem tale_of_runs {j : List Entry} {x : Upshot}
    (h : (c.consolidate r).run.caught.guarded.Runs j (.done x)) : Tale c r j x := by
  unfold consolidate Procedure.embedAs at h
  by_cases hlog : (!r.hasLog) = true
  · rw [if_pos hlog] at h
    obtain ⟨⟨⟩, rest, rfl, rfl, hx⟩ := h
    obtain rfl := Attempt.done.inj hx
    exact .blank (by simpa using hlog)
  rw [if_neg hlog, bind_assoc, ExceptT.run_bind] at h
  rcases Runs.ask_bind (q := .embed r.rawLog) h with ⟨entry, rfl, hback⟩ | ⟨f | e, rest, rfl, hrest⟩
  · exact .unembedded hback
  · obtain ⟨rfl, rfl⟩ := hrest.of_done
    exact .unembedded (.failed rfl)
  clear h
  dsimp only at hrest
  by_cases hdims : e.length = c.settings.dims
  · rw [if_pos hdims, pure_bind, ExceptT.run_bind] at hrest
    rcases Runs.ask_bind (q := .search e 1 none) hrest with
      ⟨entry, rfl, hback⟩ | ⟨f | hits, told, rfl, htold⟩
    · exact .unsearched hback
    · obtain ⟨rfl, rfl⟩ := htold.of_done
      exact .unsearched (.failed rfl)
    have hon := Runs.reports_bind htold
    cases hknown : (c.repeated r.incidentId hits).value with
    | some hit =>
      rw [hknown] at hon
      obtain ⟨rfl, rfl⟩ := hon.of_done
      exact .duplicate hknown
    | none =>
      rw [hknown] at hon
      obtain ⟨now, stored, rfl, hstored⟩ := hon
      rcases Runs.ask_bind (q := .upsert [(c.recordOf r e now).toPoint]) hstored with
        ⟨entry, rfl, hback⟩ | ⟨f | ⟨⟩, last, rfl, hlast⟩
      · exact .unwritten hknown hback
      · obtain ⟨rfl, rfl⟩ := hlast.of_done
        exact .unwritten hknown (.failed rfl)
      · obtain ⟨⟨⟩, none, rfl, rfl, hx⟩ := hlast
        obtain rfl := Attempt.done.inj hx
        exact .stored hknown
  · rw [if_neg hdims] at hrest
    obtain ⟨rfl, rfl⟩ := hrest.of_done
    exact .misfit hdims

/-- **What a consolidation comes to that looks at the token first.** -/
inductive Told (c : Consolidator) (r : Resolution) : List Entry → Upshot → Prop
  /-- The token had fired before it began. -/
  | late : Told c r [.looked true] none
  /-- It began. -/
  | begun {j : List Entry} {x : Upshot} (h : Tale c r j x) :
    Told c r (.looked false :: j) x

theorem told_of_runs {j : List Entry} {o : Attempt Upshot}
    (h : (watching (c.consolidate r).run.caught).Runs j o) : ∃ x, o = .done x ∧ Told c r j x := by
  rcases h.watching with ⟨rfl, rfl⟩ | ⟨rest, rfl, hrest⟩
  · exact ⟨none, rfl, .late⟩
  · obtain ⟨x, rfl⟩ := hrest.of_caught
    exact ⟨x, rfl, .begun (tale_of_runs hrest)⟩

/-! ## What one consolidation leaves -/

/-- A consolidation neither counts nor receives anything. -/
theorem Told.aside {j : List Entry} {x : Upshot} (h : c.Told r j x) (k : Counter) :
    j.countP (Entry.counts k) = 0 ∧ j.filterMap Entry.received? = [] := by
  cases h with
  | late => exact ⟨rfl, rfl⟩
  | begun h =>
    cases h with
    | unembedded h => cases h <;> exact ⟨rfl, rfl⟩
    | unsearched h => cases h <;> exact ⟨rfl, rfl⟩
    | unwritten hnew h => cases h <;> exact ⟨rfl, rfl⟩
    | _ => exact ⟨rfl, rfl⟩

/-- **What a consolidation puts in**: nothing, or the record of the resolution and
then it counts as stored, or nothing is known because it was given up while its
record was put in. -/
theorem Told.stores {j : List Entry} {x : Upshot} (h : c.Told r j x) :
    (j.filterMap Entry.put? = [] ∧ j.filterMap Entry.loose? = [] ∧ x.counter? ≠ some .stored)
      ∨ (∃ e now, j.filterMap Entry.put? = [[(c.recordOf r e now).toPoint]]
        ∧ j.filterMap Entry.loose? = [] ∧ x.counter? = some .stored)
      ∨ ∃ e now, j.filterMap Entry.put? = []
        ∧ j.filterMap Entry.loose? = [[(c.recordOf r e now).toPoint]] ∧ x = none := by
  cases h with
  | late => exact Or.inl ⟨rfl, rfl, fun h => nomatch h⟩
  | begun h =>
    cases h with
    | unembedded h => refine Or.inl ⟨?_, ?_, h.not_stored⟩ <;> cases h <;> rfl
    | unsearched h => refine Or.inl ⟨?_, ?_, h.not_stored⟩ <;> cases h <;> rfl
    | @unwritten e hits now entry x hnew h =>
      have hput : entry.put? = none := h.put?_eq_none
      have hstored := h.not_stored
      cases h with
      | gaveUp => exact Or.inr (Or.inr ⟨e, now, rfl, rfl, rfl⟩)
      | brokenOff text => exact Or.inl ⟨List.filterMap_cons_none hput, rfl, hstored⟩
      | failed h => exact Or.inl ⟨List.filterMap_cons_none hput, rfl, hstored⟩
    | @stored e hits now hnew => exact Or.inr (Or.inl ⟨e, now, rfl, rfl, rfl⟩)
    | _ => exact Or.inl ⟨rfl, rfl, fun h => nomatch h⟩

/-- **An item is abandoned exactly if a shutdown was noticed** during its
consolidation, which is then over. -/
theorem Told.stops {j : List Entry} {x : Upshot} (h : c.Told r j x) :
    (x.isAbandoned = false ∧ Calm j) ∨ x.isAbandoned = true ∧ EndsStopped j := by
  have hlook : Calm [.looked false] := calm_cons.mpr ⟨rfl, calm_nil⟩
  have hembed : ∀ e, Calm [.looked false, .heard (.embed r.rawLog) (.done (.ok e))] :=
    fun e => calm_cons.mpr ⟨rfl, calm_cons.mpr ⟨rfl, calm_nil⟩⟩
  have hsearch : ∀ e hits, Calm [.looked false, .heard (.embed r.rawLog) (.done (.ok e)),
      .heard (.search e 1 none) (.done (.ok hits))] :=
    fun e hits => calm_append.mpr ⟨hembed e, calm_cons.mpr ⟨rfl, calm_nil⟩⟩
  cases h with
  | late => exact Or.inr ⟨rfl, [], _, rfl, calm_nil, rfl⟩
  | begun h =>
    cases h with
    | blank h => exact Or.inl ⟨rfl, hlook⟩
    | unembedded h => exact h.stops hlook
    | misfit h => exact Or.inl ⟨rfl, hembed _⟩
    | unsearched h => exact h.stops (hembed _)
    | duplicate h => exact Or.inl ⟨rfl, hsearch _ _⟩
    | unwritten hnew h => exact h.stops (hsearch _ _)
    | stored hnew =>
      exact Or.inl ⟨rfl, calm_append.mpr ⟨hsearch _ _, calm_cons.mpr ⟨rfl, calm_nil⟩⟩⟩

end Consolidator

/-! ## Items -/

/-- **A resolution that the worker took**, and what became of it. -/
structure Item (c : Consolidator) where
  /-- The resolution. -/
  resolution : Resolution
  /-- What was written down during its consolidation. -/
  told : List Entry
  /-- What that came to. -/
  upshot : Upshot
  /-- It can have come to that. -/
  isTold : c.Told resolution told upshot

namespace Item

variable {c : Consolidator}

/-- What is written down from the time at which an item has been received. -/
def handled (i : Item c) : List Entry :=
  .counted .received :: i.told ++ i.upshot.counter?.toList.map .counted

/-- All that is written down about an item. -/
def journal (i : Item c) : List Entry :=
  .looked false :: .heard .receive (.done (some i.resolution)) :: i.handled

/-- What was put in for an item. -/
def puts (i : Item c) : List (List Point) :=
  i.told.filterMap Entry.put?

/-- An item is counted when it is received, and once more unless it is
abandoned. -/
theorem countP_journal (i : Item c) (k : Counter) :
    i.journal.countP (Entry.counts k)
      = (if k = .received then 1 else 0) + if i.upshot.counter? = some k then 1 else 0 := by
  show List.countP _ (.looked false :: .heard .receive _ :: .counted .received :: (i.told ++ _)) = _
  rw [List.countP_cons_of_neg Bool.false_ne_true, List.countP_cons_of_neg Bool.false_ne_true,
    List.countP_cons, List.countP_append, (i.isTold.aside k).1, Nat.zero_add, Nat.add_comm]
  congr 1
  · simp only [Entry.counts, decide_eq_true_eq, @eq_comm _ Counter.received]
  · cases i.upshot.counter? with
    | none => rfl
    | some l => simp [Entry.counts]

/-- What is gathered from the entries about an item, where looks and counts do not
matter. -/
theorem filterMap_journal (i : Item c) {β : Type} {f : Entry → Option β}
    (hlooked : f (.looked false) = none) (hcounted : ∀ k, f (.counted k) = none) :
    i.journal.filterMap f
      = (f (.heard .receive (.done (some i.resolution)))).toList ++ i.told.filterMap f := by
  have hlast : (i.upshot.counter?.toList.map Entry.counted).filterMap f = [] := by
    refine List.filterMap_eq_nil_iff.mpr fun e he => ?_
    obtain ⟨k, -, rfl⟩ := List.mem_map.mp he
    exact hcounted k
  show List.filterMap f (.looked false :: .heard .receive _ :: .counted .received :: (i.told ++ _))
    = _
  rw [List.filterMap_cons_none hlooked, List.filterMap_cons, List.filterMap_cons_none (hcounted _),
    List.filterMap_append, hlast, List.append_nil]
  cases f (.heard .receive (.done (some i.resolution))) <;> rfl

/-- The whole journal of an item is calm, or ends when a shutdown was noticed. -/
theorem stops (i : Item c) : (i.upshot.isAbandoned = false ∧ Calm i.journal)
    ∨ i.upshot.isAbandoned = true ∧ EndsStopped i.journal := by
  have hbegin : Calm [.looked false, .heard .receive (.done (some i.resolution)),
      .counted .received] :=
    calm_cons.mpr ⟨rfl, calm_cons.mpr ⟨rfl, calm_cons.mpr ⟨rfl, calm_nil⟩⟩⟩
  have hjournal : i.journal
      = [.looked false, .heard .receive (.done (some i.resolution)), .counted .received]
        ++ (i.told ++ i.upshot.counter?.toList.map .counted) := rfl
  rw [hjournal]
  rcases i.isTold.stops with ⟨hsettled, hcalm⟩ | ⟨habandoned, hstops⟩
  · refine Or.inl ⟨hsettled, calm_append.mpr ⟨hbegin, calm_append.mpr ⟨hcalm, fun e he => ?_⟩⟩⟩
    obtain ⟨k, -, rfl⟩ := List.mem_map.mp he
    rfl
  · -- it is not counted any more
    refine Or.inr ⟨habandoned, ?_⟩
    rw [i.upshot.counter?_eq_none_iff.mpr habandoned, Option.toList_none, List.map_nil,
      List.append_nil]
    exact hstops.append hbegin

/-- An item with points of which it is not known whether they were put in. -/
theorem gaveUp_mem_told {i : Item c} {points : List Point}
    (h : i.told.filterMap Entry.loose? = [points]) : .gaveUp (.upsert points) ∈ i.told := by
  have hmem : points ∈ i.told.filterMap Entry.loose? := h ▸ List.mem_cons_self
  obtain ⟨e, he, hloose⟩ := List.mem_filterMap.mp hmem
  rwa [Entry.eq_of_loose hloose] at he

end Item

/-! ## The loop -/

namespace Consolidator

variable {c : Consolidator} {j : List Entry}

/-- **A resolution that is handled becomes an item**, and the worker goes on
unless that was abandoned. -/
theorem runs_handle {r : Resolution} {o : Attempt Bool} (h : (c.handle r).Runs j o) :
    ∃ i : Item c, i.resolution = r ∧ j = i.handled ∧ o = .done !i.upshot.isAbandoned := by
  obtain ⟨⟨⟩, rest, rfl, hrest⟩ := Runs.perform_bind h
  rcases hrest.bind with ⟨told, after, x, rfl, htold, hafter⟩ | ⟨text, htold, -⟩
  · obtain ⟨x, hx, htold⟩ := told_of_runs htold
    obtain rfl := Attempt.done.inj hx
    refine ⟨⟨r, told, x, htold⟩, rfl, ?_⟩
    unfold Item.handled Upshot.counter? Upshot.isAbandoned
    -- one case for each way in which the worker goes on
    rcases x with _ | ((f | result) | text)
    · obtain ⟨⟨⟩, rest, rfl, rfl, ho⟩ := hafter
      exact ⟨rfl, ho⟩
    · cases hf : f.isCancellation with
      | true =>
        simp only [hf] at hafter ⊢
        obtain ⟨⟨⟩, rest, rfl, rfl, ho⟩ := hafter
        exact ⟨rfl, ho⟩
      | false =>
        simp only [hf] at hafter ⊢
        obtain ⟨⟨⟩, rest, rfl, ⟨⟨⟩, rest, rfl, rfl, ho⟩⟩ := hafter
        exact ⟨rfl, ho⟩
    · obtain ⟨⟨⟩, rest, rfl, rfl, ho⟩ := hafter
      exact ⟨rfl, ho⟩
    · obtain ⟨⟨⟩, rest, rfl, ⟨⟨⟩, rest, rfl, rfl, ho⟩⟩ := hafter
      exact ⟨rfl, ho⟩
  · -- the consolidation itself does not break off
    obtain ⟨x, hx, -⟩ := told_of_runs htold
    exact nomatch hx

/-- **A wait for an item** is given up before it begins or while it goes on, or
it has an answer. -/
theorem runs_receive {o : Attempt (Option (Option Resolution))}
    (h : (watching (ask .receive)).Runs j o) (hj : Honest j) :
    (j = [.looked true] ∧ o = .done none) ∨ (j = [.looked false, .gaveUp .receive] ∧ o = .done none)
      ∨ ∃ item, j = [.looked false, .heard .receive (.done item)] ∧ o = .done (some item) := by
  rcases h.watching with ⟨rfl, rfl⟩
    | ⟨rest, rfl, ⟨item | text, rest, rfl, hrest⟩ | ⟨rest, rfl, hrest⟩⟩
  · exact Or.inl ⟨rfl, rfl⟩
  · obtain ⟨rfl, rfl⟩ := hrest
    exact Or.inr (Or.inr ⟨item, rfl, rfl⟩)
  · exact absurd (List.mem_cons_of_mem _ List.mem_cons_self) (hj text)
  · obtain ⟨rfl, rfl⟩ := hrest
    exact Or.inr (Or.inl ⟨rfl, rfl⟩)

/-- How the worker may end between two items. -/
inductive Closes : List Entry → Prop
  /-- The token had fired when it was looked at. -/
  | stopped : Closes [.looked true]
  /-- It fired while the worker waited for an item. -/
  | gaveUp : Closes [.looked false, .gaveUp .receive]
  /-- There are no items any more. -/
  | exhausted : Closes [.looked false, .heard .receive (.done none)]

/-- **What the loop makes of the items it takes**, up to a number of them, and
how it ends. -/
inductive Drained (c : Consolidator) : Nat → List (Item c) → List Entry → Prop
  /-- No more may be taken. -/
  | full : Drained c 0 [] []
  /-- No more was taken. -/
  | closed {most : Nat} {closing : List Entry} (h : Closes closing) :
    Drained c (most + 1) [] closing
  /-- An item was abandoned, and it was the last. -/
  | abandoned {most : Nat} {i : Item c} (h : i.upshot.isAbandoned = true) :
    Drained c (most + 1) [i] []
  /-- An item was settled, and others may have followed. -/
  | settled {most : Nat} {i : Item c} {items : List (Item c)} {closing : List Entry}
    (h : i.upshot.isAbandoned = false) (rest : Drained c most items closing) :
    Drained c (most + 1) (i :: items) closing

/-- What is written down about items, and about the end. -/
def journalOf (items : List (Item c)) (closing : List Entry) : List Entry :=
  items.flatMap Item.journal ++ closing

theorem journalOf_cons (i : Item c) (items : List (Item c)) (closing : List Entry) :
    journalOf (i :: items) closing = i.journal ++ journalOf items closing :=
  List.append_assoc ..

/-- **The loop makes nothing else of them**, by induction on the number of items
that it may take. -/
theorem runs_drain {most : Nat} {o : Attempt Unit} (h : (c.drain most).Runs j o)
    (hj : Honest j) : o = .done () ∧ ∃ items closing, Drained c most items closing
      ∧ j = journalOf items closing := by
  induction most generalizing j with
  | zero => exact ⟨h.2, [], [], .full, h.1⟩
  | succ most ih =>
    rcases Runs.bind h with ⟨received, after, item, rfl, hreceived, hafter⟩ | ⟨text, hbroken, -⟩
    · obtain ⟨hj₁, hj₂⟩ := honest_append.mp hj
      rcases runs_receive hreceived hj₁ with ⟨rfl, ha⟩ | ⟨rfl, ha⟩ | ⟨item, rfl, ha⟩
      · obtain rfl := Attempt.done.inj ha
        exact ⟨hafter.2, [], _, .closed .stopped, congrArg _ hafter.1⟩
      · obtain rfl := Attempt.done.inj ha
        exact ⟨hafter.2, [], _, .closed .gaveUp, congrArg _ hafter.1⟩
      obtain rfl := Attempt.done.inj ha
      rcases item with _ | r
      · obtain ⟨⟨⟩, rest, rfl, rfl, ho⟩ := hafter
        exact ⟨ho, [], _, .closed .exhausted, rfl⟩
      rcases Runs.bind hafter with ⟨handled, rest, on, rfl, hhandled, hrest⟩ | ⟨text, hhandled, -⟩
      · obtain ⟨i, rfl, rfl, hon⟩ := runs_handle hhandled
        obtain rfl := Attempt.done.inj hon
        -- whether the loop is entered again
        cases habandoned : i.upshot.isAbandoned with
        | true =>
          rw [habandoned] at hrest
          obtain ⟨rfl, ho⟩ := hrest
          exact ⟨ho, [i], [], .abandoned habandoned, (journalOf_cons i [] []).symm⟩
        | false =>
          rw [habandoned] at hrest
          obtain ⟨ho, items, closing, hdrained, rfl⟩ := ih hrest (honest_append.mp hj₂).2
          exact ⟨ho, i :: items, closing, .settled habandoned hdrained,
            (journalOf_cons i items closing).symm⟩
      · obtain ⟨i, -, -, hon⟩ := runs_handle hhandled
        exact nomatch hon
    · rcases runs_receive hbroken hj with ⟨-, ha⟩ | ⟨-, ha⟩ | ⟨item, -, ha⟩ <;> exact nomatch ha

/-- **The worker drains the buffer**, and leaves no other entries. -/
theorem runs_work {most : Nat} {o : Attempt Unit} (h : (c.work most).Runs j o) (hj : Honest j) :
    o = .done () ∧ ∃ items closing, Drained c most items closing
      ∧ j = journalOf items closing := by
  unfold work at h
  rcases Runs.bind h.report_bind with ⟨drained, after, ⟨⟩, rfl, hdrained, hafter⟩
    | ⟨text, hdrained, -⟩
  · obtain ⟨-, hrest⟩ := runs_drain hdrained (honest_append.mp hj).1
    obtain ⟨⟨⟩, rest, rfl, ⟨⟩, rest, rfl, rfl, ho⟩ := hafter
    refine ⟨ho, ?_⟩
    rw [show drained ++ _ = drained from List.append_nil drained]
    exact hrest
  · exact nomatch (runs_drain hdrained hj).1

/-! ## What the loop leaves -/

variable {most : Nat} {items : List (Item c)} {closing : List Entry}

/-- **The counters**: each item is counted when it is received, and as what it was
settled. -/
theorem Drained.countP_journal (h : Drained c most items closing) (k : Counter) :
    (journalOf items closing).countP (Entry.counts k)
      = (if k = .received then items.length else 0)
        + items.countP (·.upshot.counter? = some k) := by
  induction h with
  | full => simp [journalOf]
  | closed h => cases h <;> simp [journalOf, Entry.counts]
  | abandoned h =>
    rw [journalOf_cons, List.countP_append, Item.countP_journal]
    simp [journalOf]
  | settled h rest ih =>
    rw [journalOf_cons, List.countP_append, Item.countP_journal, ih, List.countP_cons]
    simp only [decide_eq_true_eq, List.length_cons]
    split <;> omega

/-- No item is settled by being received. -/
theorem countP_received (items : List (Item c)) :
    items.countP (·.upshot.counter? = some .received) = 0 := by
  refine List.countP_eq_zero.mpr fun i _ hi => ?_
  rcases i.upshot.counter?_cases with h | h | h | h | h <;> simp [h] at hi

/-- **Every item is settled in one of four ways or abandoned.** -/
theorem length_eq_add (items : List (Item c)) :
    items.length = items.countP (·.upshot.counter? = some .stored)
      + items.countP (·.upshot.counter? = some .duplicates)
      + items.countP (·.upshot.counter? = some .skipped)
      + items.countP (·.upshot.counter? = some .failed)
      + items.countP (·.upshot.isAbandoned) := by
  induction items with
  | nil => rfl
  | cons i items ih =>
    have habandoned : i.upshot.isAbandoned = decide (i.upshot.counter? = none) := by
      rw [Bool.eq_iff_iff, decide_eq_true_eq, i.upshot.counter?_eq_none_iff]
    simp only [List.length_cons, List.countP_cons, habandoned]
    rcases i.upshot.counter?_cases with hi | hi | hi | hi | hi <;> simp [hi] <;> omega

/-- **Only the last item may be abandoned.** -/
theorem Drained.countP_isAbandoned (h : Drained c most items closing) :
    items.countP (·.upshot.isAbandoned) ≤ 1
      ∧ ∀ i ∈ items.dropLast, i.upshot.isAbandoned = false := by
  induction h with
  | full => exact ⟨Nat.zero_le 1, fun _ hi => nomatch hi⟩
  | closed h => exact ⟨Nat.zero_le 1, fun _ hi => nomatch hi⟩
  | abandoned h => exact ⟨List.countP_le_length, fun _ hi => nomatch hi⟩
  | @settled most i items closing h rest ih =>
    refine ⟨?_, fun x hx => ?_⟩
    · rw [List.countP_cons_of_neg (by rw [h]; exact Bool.false_ne_true)]
      exact ih.1
    · cases items with
      | nil => exact nomatch hx
      | cons next items =>
        rcases List.mem_cons.mp hx with rfl | hx
        · exact h
        · exact ih.2 x hx

/-- **What is gathered from the whole journal**, where looks, counts and the end do
not matter, is gathered from the items. -/
theorem Drained.filterMap_journal (h : Drained c most items closing) {β : Type}
    {f : Entry → Option β} (hlooked : ∀ fired, f (.looked fired) = none)
    (hcounted : ∀ k, f (.counted k) = none) (hgaveUp : f (.gaveUp .receive) = none)
    (hnone : f (.heard .receive (.done none)) = none) :
    (journalOf items closing).filterMap f = items.flatMap fun i =>
      (f (.heard .receive (.done (some i.resolution)))).toList ++ i.told.filterMap f := by
  induction h with
  | full => rfl
  | closed h =>
    cases h with
    | stopped => exact List.filterMap_cons_none (hlooked true)
    | gaveUp =>
      exact (List.filterMap_cons_none (hlooked false)).trans (List.filterMap_cons_none hgaveUp)
    | exhausted =>
      exact (List.filterMap_cons_none (hlooked false)).trans (List.filterMap_cons_none hnone)
  | @abandoned most i h =>
    rw [journalOf_cons, List.filterMap_append, i.filterMap_journal (hlooked false) hcounted]
    rfl
  | @settled most i items closing h rest ih =>
    rw [journalOf_cons, List.filterMap_append, i.filterMap_journal (hlooked false) hcounted, ih]
    rfl

/-- What is received are the resolutions of the items, in order. -/
theorem Drained.received (h : Drained c most items closing) :
    (journalOf items closing).filterMap Entry.received? = items.map Item.resolution := by
  rw [h.filterMap_journal (fun _ => rfl) (fun _ => rfl) rfl rfl]
  simp only [(Item.isTold _).aside .received, List.append_nil]
  exact List.map_eq_flatMap.symm

/-- What is put in is what is put in for the items, in order. -/
theorem Drained.put (h : Drained c most items closing) :
    (journalOf items closing).filterMap Entry.put? = items.flatMap Item.puts :=
  h.filterMap_journal (fun _ => rfl) (fun _ => rfl) rfl rfl

/-- **What is not known to have been put in** is the record of the last item, if
that was abandoned meanwhile. -/
theorem Drained.loose (h : Drained c most items closing) :
    (journalOf items closing).filterMap Entry.loose? = []
      ∨ ∃ i e now, items.getLast? = some i ∧ i.upshot = none
        ∧ .gaveUp (.upsert [(c.recordOf i.resolution e now).toPoint]) ∈ i.told
        ∧ (journalOf items closing).filterMap Entry.loose?
          = [[(c.recordOf i.resolution e now).toPoint]] := by
  rw [h.filterMap_journal (fun _ => rfl) (fun _ => rfl) rfl rfl]
  induction h with
  | full => exact Or.inl rfl
  | closed h => exact Or.inl rfl
  | @abandoned most i h =>
    rw [List.flatMap_cons, List.flatMap_nil, List.append_nil]
    rcases i.isTold.stores with ⟨-, hloose, -⟩ | ⟨e, now, -, hloose, -⟩
      | ⟨e, now, -, hloose, hnone⟩
    · exact Or.inl hloose
    · exact Or.inl hloose
    · exact Or.inr ⟨i, e, now, rfl, hnone, Item.gaveUp_mem_told hloose, hloose⟩
  | @settled most i items closing h rest ih =>
    have hloose : i.told.filterMap Entry.loose? = [] := by
      rcases i.isTold.stores with ⟨-, hloose, -⟩ | ⟨e, now, -, hloose, -⟩ | ⟨e, now, -, -, hnone⟩
      · exact hloose
      · exact hloose
      · rw [hnone] at h
        exact nomatch h
    rw [List.flatMap_cons, hloose]
    refine ih.imp id fun ⟨last, e, now, hlast, hrest⟩ => ⟨last, e, now, ?_, hrest⟩
    rw [List.getLast?_cons, hlast]
    rfl

/-- **As many records are put in as items count as stored.** -/
theorem length_flatMap_puts (items : List (Item c)) :
    (items.flatMap Item.puts).length = items.countP (·.upshot.counter? = some .stored) := by
  induction items with
  | nil => rfl
  | cons i items ih =>
    have hone : i.puts.length = if i.upshot.counter? = some .stored then 1 else 0 := by
      rcases i.isTold.stores with ⟨hputs, -, hcounter⟩ | ⟨e, now, hputs, -, hcounter⟩
        | ⟨e, now, hputs, -, hnone⟩
      · rw [if_neg hcounter]
        exact congrArg List.length hputs
      · rw [if_pos hcounter]
        exact congrArg List.length hputs
      · rw [hnone]
        exact congrArg List.length hputs
    rw [List.flatMap_cons, List.length_append, ih, List.countP_cons, hone, Nat.add_comm]
    simp only [decide_eq_true_eq]

/-- **A shutdown is the last thing that the worker notices.** If it notices none,
it has taken as many items as it may, or there are none any more. -/
theorem Drained.stops (h : Drained c most items closing) :
    EndsStopped (journalOf items closing)
      ∨ Calm (journalOf items closing) ∧ (items.length = most
        ∨ .heard .receive (.done none) ∈ journalOf items closing) := by
  induction h with
  | full => exact Or.inr ⟨calm_nil, Or.inl rfl⟩
  | closed h =>
    cases h with
    | stopped => exact Or.inl ⟨[], _, rfl, calm_nil, rfl⟩
    | gaveUp => exact Or.inl ⟨[_], _, rfl, calm_cons.mpr ⟨rfl, calm_nil⟩, rfl⟩
    | exhausted =>
      exact Or.inr ⟨calm_cons.mpr ⟨rfl, calm_cons.mpr ⟨rfl, calm_nil⟩⟩,
        Or.inr (List.mem_cons_of_mem _ List.mem_cons_self)⟩
  | @abandoned most i h =>
    rw [journalOf_cons]
    rcases i.stops with ⟨hsettled, -⟩ | ⟨-, hstops⟩
    · exact absurd (h.symm.trans hsettled) Bool.true_eq_false.mp
    · rw [show i.journal ++ journalOf [] [] = i.journal from List.append_nil _]
      exact Or.inl hstops
  | @settled most i items closing h rest ih =>
    rw [journalOf_cons]
    rcases i.stops with ⟨-, hcalm⟩ | ⟨habandoned, -⟩
    · rcases ih with hstops | ⟨hrest, hlength | hmem⟩
      · exact Or.inl (hstops.append hcalm)
      · exact Or.inr ⟨calm_append.mpr ⟨hcalm, hrest⟩, Or.inl (congrArg (· + 1) hlength)⟩
      · exact Or.inr ⟨calm_append.mpr ⟨hcalm, hrest⟩, Or.inr (List.mem_append_right _ hmem)⟩
    · exact absurd (h.symm.trans habandoned) Bool.false_ne_true

end Consolidator

end IncidentMemory
