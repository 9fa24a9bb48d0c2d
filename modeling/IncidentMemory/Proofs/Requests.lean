import IncidentMemory.Proofs.Holdings
import IncidentMemory.Proofs.Persistence
import Mathlib.Data.List.Nodup

/-!
# A vector store in memory, whatever it is asked

A store in memory starts without collections and is then asked to create them,
to put points in, to search and to find points, in any order. Whatever it is
asked, a collection holds one point per id, found under that id, with a vector
of the collection's dimensions; what is refused leaves every collection as it
was; and a point is found as it was last put in (`Collections.serve_answers`).

The requests are carried out one after another as the procedures that they are.
What they come to is a function of the collections, `Collections.answer`
(`StoreRequest.leaves_procedure`), and of that function the invariants are
proved, one request at a time.
-/

namespace IncidentMemory

open Simulation

/-- **What a vector store is asked to do.** -/
inductive StoreRequest where
  /-- To create a collection. -/
  | create (name : String) (dims : Nat) (distance : Distance)
  /-- To create a collection if there is none of that name. -/
  | ensure (name : String) (dims : Nat) (distance : Distance)
  /-- To say whether there is a collection. -/
  | has (name : String)
  /-- To put points in. -/
  | upsert (points : List Point)
  /-- To look for similar points. -/
  | search (query : Embedding) (limit : Nat) (least : Option Single)
  /-- To find the point of an id. -/
  | get (id : String)

/-- **What it answers**, if it does not refuse. -/
inductive StoreAnswer where
  /-- It is done. -/
  | done
  /-- Whether there is a collection, or whether one was created. -/
  | flag (value : Bool)
  /-- What a search has found. -/
  | hits (found : List Hit)
  /-- The point of an id. -/
  | point (found : Option Point)

/-- What became of a request, if it has ended. -/
abbrev Answered := Option (Attempt (Outcome StoreAnswer))

namespace StoreRequest

/-- A request as a procedure. -/
def procedure : StoreRequest → Procedure StoreAnswer
  | .create name dims distance => do
    Procedure.createCollection name dims distance
    return .done
  | .ensure name dims distance => do
    return .flag (← Procedure.ensureCollection name dims distance)
  | .has name => do
    return .flag (← Procedure.hasCollection name)
  | .upsert points => do
    Procedure.upsert points
    return .done
  | .search query limit least => do
    return .hits (← Procedure.search query limit least)
  | .get id => do
    return .point (← Procedure.get id)

/-- **Requests one after another**, and what became of each. -/
def serve (t : TaskId) (w : World) : List StoreRequest → World × List (StoreRequest × Answered)
  | [] => (w, [])
  | q :: qs =>
    let (w', ended) := w.carryOut t q.procedure.run
    let (w'', others) := serve t w' qs
    (w'', (q, ended) :: others)

/-- The collections that a request has created: one, unless it was refused or there was one
of that name. -/
def created : StoreRequest × Answered → List (String × Nat × Distance)
  | (.create name dims distance, some (.done (.ok _))) => [(name, dims, distance)]
  | (.ensure name dims distance, some (.done (.ok (.flag true)))) => [(name, dims, distance)]
  | _ => []

/-- The points that a request has put in: all of them, unless it was refused. -/
def accepted : StoreRequest × Answered → List Point
  | (.upsert points, some (.done (.ok _))) => points
  | _ => []

end StoreRequest

/-! ## What a request comes to -/

namespace Collections

/-- The collections after an operation, which leaves them as they are if it
fails. -/
def after (s : Collections) : Outcome Collections → Collections
  | .ok s' => s'
  | .error _ => s

/-- The collections after one was created if it was missing, and whether it
was. -/
def ensure (s : Collections) (name : String) (dims : Nat) (distance : Distance) :
    Collections × Outcome Bool :=
  if s.has name then (s, .ok false)
  else (s.after (s.create name dims distance), (s.create name dims distance).map fun _ => true)

/-- **What a request comes to**: the collections afterwards, and the answer. -/
def answer (s : Collections) : StoreRequest → Collections × Outcome StoreAnswer
  | .create name dims distance =>
    (s.after (s.create name dims distance), (s.create name dims distance).map fun _ => .done)
  | .ensure name dims distance =>
    ((s.ensure name dims distance).1, (s.ensure name dims distance).2.map .flag)
  | .has name => (s, .ok (.flag (s.has name)))
  | .upsert points => (s.after (s.upsert points), (s.upsert points).map fun _ => .done)
  | .search query limit least => (s, (s.search query limit least).map .hits)
  | .get id => (s, (s.get id).map .point)

end Collections

namespace StoreRequest

variable {α β : Type} {w : World} {s s' : Collections} {t : TaskId}

/-- What is returned of a result is returned of its failure as well. -/
theorem leaves_map {p : Procedure α} {o : Outcome α} (f : α → β)
    (h : Consolidator.Leaves (w.carryOut t p.run) (s', some (.done o))) :
    Consolidator.Leaves (w.carryOut t (do return f (← p) : Procedure β).run)
      (s', some (.done (o.map f))) := by
  obtain ⟨hstore, hended⟩ := h
  rw [World.carryOut_run_bind]
  cases hout : w.carryOut t p.run with
  | mk w' ended =>
    rw [hout] at hstore hended
    obtain rfl : ended = _ := hended
    cases o with
    | ok a => exact ⟨hstore, rfl⟩
    | error e => exact ⟨hstore, rfl⟩

/-- What changes nothing leaves the collections as they are. -/
theorem leaves_of_eq {x : World × Option (Attempt (Outcome α))} {o : Outcome α}
    (hs : w.store = .inMemory s) (h : x = (w, some (.done o))) :
    Consolidator.Leaves x (s, some (.done o)) := by
  rw [h]
  exact ⟨hs, rfl⟩

/-- Where nothing is answered, something is returned in its place. -/
theorem map_done (o : Outcome α) (b : β) :
    (o.map fun _ => ()).map (fun _ => b) = o.map fun _ => b := by
  cases o <;> rfl

/-- A collection is created at once, or refused. -/
theorem leaves_createCollection (hs : w.store = .inMemory s) (name : String) (dims : Nat)
    (distance : Distance) :
    Consolidator.Leaves (w.carryOut t (Procedure.createCollection name dims distance).run)
      (s.after (s.create name dims distance),
        some (.done ((s.create name dims distance).map fun _ => ()))) := by
  have hcall : w.carryOut t (Procedure.createCollection name dims distance).run
      = World.tried (w.createCollection name dims distance) :=
    World.carryOut_ask w t (.createCollection name dims distance)
  rw [hcall]
  unfold World.createCollection
  rw [hs]
  cases hcreate : s.create name dims distance with
  | ok s' =>
    simp only [hcreate]
    exact ⟨rfl, rfl⟩
  | error f =>
    simp only [hcreate]
    exact ⟨hs, rfl⟩

theorem carryOut_hasCollection (hs : w.store = .inMemory s) (name : String) :
    w.carryOut t (Procedure.hasCollection name).run = (w, some (.done (.ok (s.has name)))) := by
  refine (World.carryOut_ask w t (.hasCollection name)).trans ?_
  show World.tried (w.hasCollection name) = _
  unfold World.hasCollection
  rw [hs]
  rfl

/-- It is looked for first, and created if it is not there. -/
theorem leaves_ensureCollection (hs : w.store = .inMemory s) (name : String) (dims : Nat)
    (distance : Distance) :
    Consolidator.Leaves (w.carryOut t (Procedure.ensureCollection name dims distance).run)
      ((s.ensure name dims distance).1, some (.done (s.ensure name dims distance).2)) := by
  unfold Procedure.ensureCollection Collections.ensure
  rw [World.carryOut_run_bind, carryOut_hasCollection hs, World.andThen_done]
  dsimp only
  cases s.has name with
  | true => exact ⟨hs, rfl⟩
  | false =>
    rw [if_neg Bool.false_ne_true, if_neg Bool.false_ne_true]
    have h := leaves_map (fun _ => true) (leaves_createCollection (t := t) hs name dims distance)
    rwa [map_done] at h

theorem leaves_upsert (hs : w.store = .inMemory s) (points : List Point) :
    Consolidator.Leaves (w.carryOut t (Procedure.upsert points).run)
      (s.after (s.upsert points), some (.done ((s.upsert points).map fun _ => ()))) := by
  cases hup : s.upsert points with
  | ok s' =>
    rw [Consolidator.carryOut_upsert_ok hs hup]
    exact ⟨rfl, rfl⟩
  | error f =>
    rw [Consolidator.carryOut_upsert_error hs hup]
    exact ⟨hs, rfl⟩

theorem carryOut_get (hs : w.store = .inMemory s) (id : String) :
    w.carryOut t (Procedure.get id).run = (w, some (.done (s.get id))) := by
  refine (World.carryOut_ask w t (.get id)).trans ?_
  show World.tried (w.get id) = _
  unfold World.get
  rw [hs]
  rfl

/-- **Over a vector store in memory a request has its answer at once**, and
leaves the collections that belong to it. -/
theorem leaves_procedure (hs : w.store = .inMemory s) (q : StoreRequest) :
    Consolidator.Leaves (w.carryOut t q.procedure.run)
      ((s.answer q).1, some (.done (s.answer q).2)) := by
  cases q with
  | create name dims distance =>
    have h := leaves_map (fun _ => StoreAnswer.done)
      (leaves_createCollection (t := t) hs name dims distance)
    rwa [map_done] at h
  | ensure name dims distance =>
    exact leaves_map StoreAnswer.flag (leaves_ensureCollection hs name dims distance)
  | has name =>
    exact leaves_map StoreAnswer.flag (leaves_of_eq hs (carryOut_hasCollection hs name))
  | upsert points =>
    have h := leaves_map (fun _ => StoreAnswer.done) (leaves_upsert (t := t) hs points)
    rwa [map_done] at h
  | search query limit least =>
    exact leaves_map StoreAnswer.hits
      (leaves_of_eq hs (Consolidator.carryOut_search hs query limit least))
  | get id => exact leaves_map StoreAnswer.point (leaves_of_eq hs (carryOut_get hs id))

end StoreRequest

/-! ## One point per id, and vectors that fit -/

namespace Collection

/-- Putting points in keeps ids apart. -/
theorem keyed_insertAll {points : List Point} (hk : Keyed points) (new : List Point) :
    Keyed (insertAll points new) := by
  induction new generalizing points with
  | nil => exact hk
  | cons p new ih => exact ih (keyed_insertPoint p hk)

/-- Whatever is there after points were put in is one of them or was there
before. -/
theorem mem_or_mem_of_mem_insertAll {q : Point} {points new : List Point}
    (h : q ∈ insertAll points new) : q ∈ new ∨ q ∈ points := by
  induction new generalizing points with
  | nil => exact Or.inr h
  | cons p new ih =>
    rcases ih h with hq | hq
    · exact Or.inl (List.mem_cons_of_mem p hq)
    · rcases eq_or_mem_of_mem_insertPoint hq with rfl | hq
      · exact Or.inl List.mem_cons_self
      · exact Or.inr hq

/-- Each point is found under its id, where no two have the same. -/
theorem get?_of_mem {c : Collection} (hk : Keyed c.points) {p : Point} (hp : p ∈ c.points) :
    c.get? p.id = some p := by
  obtain ⟨before, after, heq⟩ := List.append_of_mem hp
  unfold get?
  rw [heq] at hk ⊢
  refine List.find?_eq_some_iff_append.mpr
    ⟨beq_self_eq_true p.id, before, after, rfl, fun q hq => ?_⟩
  have hne : q.id ≠ p.id := (List.pairwise_append.mp hk).2.2 q hq p List.mem_cons_self
  simpa using hne

/-- **One point that does not fit** keeps all of them out. -/
theorem upsert_of_misfit {c : Collection} {points : List Point}
    (h : ∃ p ∈ points, p.vector.length ≠ c.dims) : ∃ f, c.upsert points = .error f := by
  have hcheck : ∃ f, points.forM (fun p => c.checkDims p.vector) = .error f := by
    induction points with
    | nil => exact absurd h (by simp)
    | cons p points ih =>
      show ∃ f, (c.checkDims p.vector >>= fun _ => points.forM _) = .error f
      by_cases hp : p.vector.length = c.dims
      · obtain ⟨q, hq, hne⟩ := h
        have hq' : q ∈ points := (List.mem_cons.mp hq).resolve_left fun heq => hne (heq ▸ hp)
        obtain ⟨f, hf⟩ := ih ⟨q, hq', hne⟩
        rw [hf]
        unfold checkDims
        rw [if_pos hp]
        exact ⟨f, rfl⟩
      · unfold checkDims
        rw [if_neg hp]
        exact ⟨_, rfl⟩
  obtain ⟨f, hf⟩ := hcheck
  unfold upsert
  rw [hf]
  exact ⟨f, rfl⟩

end Collection

namespace Collections

/-- **What collections are like**, whatever has been asked of them. -/
structure Sound (s : Collections) : Prop where
  /-- Their names differ. -/
  named : s.all.Pairwise (·.1 ≠ ·.1)
  /-- A collection has one point per id. -/
  keyed : ∀ entry ∈ s.all, Collection.Keyed entry.2.points
  /-- Its vectors have its dimensions. -/
  fits : ∀ entry ∈ s.all, ∀ p ∈ entry.2.points, p.vector.length = entry.2.dims

/-- **What collections have become**, given all the points that were put in. -/
structure Keeps (s : Collections) (put : List Point) : Prop extends s.Sound where
  /-- A point is found as it was last put in. -/
  found : ∀ col, s.current = .ok col → ∀ id, col.get? id = lastUnder put id
  /-- Without a collection to put them in, there are none. -/
  missing : ∀ f, s.current = .error f → put = []

variable {s s' : Collections} {put : List Point}

/-- **Points are put in, all of them or none**: none if there is no collection
for them, or one of them does not fit it. -/
theorem upsert_cases (s : Collections) (points : List Point) :
    (∃ f, s.current = .error f ∧ s.upsert points = .error f)
      ∨ ∃ col, s.current = .ok col
        ∧ (((∃ p ∈ points, p.vector.length ≠ col.dims) ∧ ∃ f, s.upsert points = .error f)
          ∨ (∀ p ∈ points, p.vector.length = col.dims)
            ∧ s.upsert points
              = .ok (s.withCurrent
                { col with points := Collection.insertAll col.points points })) := by
  cases hcol : s.current with
  | error f =>
    refine Or.inl ⟨f, rfl, ?_⟩
    unfold upsert
    rw [hcol]
    rfl
  | ok col =>
    refine Or.inr ⟨col, rfl, ?_⟩
    by_cases hfits : ∀ p ∈ points, p.vector.length = col.dims
    · exact Or.inr ⟨hfits, upsert_of_fits hcol hfits⟩
    · have hmisfit : ∃ p ∈ points, p.vector.length ≠ col.dims := by
        simpa only [not_forall, exists_prop] using hfits
      obtain ⟨f, hf⟩ := Collection.upsert_of_misfit hmisfit
      refine Or.inl ⟨hmisfit, f, ?_⟩
      unfold upsert
      rw [hcol]
      show (col.upsert points >>= fun col' => .ok (s.withCurrent col')) = _
      rw [hf]
      rfl

/-! ## What a request leaves -/

theorem Sound.created (h : s.Sound) {name : String} (hnew : s.has name = false) (dims : Nat)
    (distance : Distance) :
    ({ s with all := s.all ++ [(name, ⟨dims, distance, []⟩)] } : Collections).Sound where
  named := by
    refine List.pairwise_append.mpr ⟨h.named, List.pairwise_singleton _ _, fun entry he o ho => ?_⟩
    obtain rfl := List.mem_singleton.mp ho
    intro heq
    have hnone : s.all.lookup name = none := by simpa [has] using hnew
    exact absurd heq.symm (bne_iff_ne.mp (List.lookup_eq_none_iff.mp hnone entry he))
  keyed := by
    intro entry he
    rcases List.mem_append.mp he with he | he
    · exact h.keyed entry he
    · obtain rfl := List.mem_singleton.mp he
      exact List.Pairwise.nil
  fits := by
    intro entry he p hp
    rcases List.mem_append.mp he with he | he
    · exact h.fits entry he p hp
    · obtain rfl := List.mem_singleton.mp he
      exact absurd hp List.not_mem_nil

/-- Another collection in the place of the current one. -/
theorem Sound.withCurrent (h : s.Sound) {col : Collection} (hkeyed : Collection.Keyed col.points)
    (hfits : ∀ p ∈ col.points, p.vector.length = col.dims) : (s.withCurrent col).Sound where
  named := List.pairwise_map.mpr h.named
  keyed := by
    intro entry he
    obtain ⟨old, hold, rfl⟩ := List.mem_map.mp he
    dsimp only
    split
    · exact hkeyed
    · exact h.keyed old hold
  fits := by
    intro entry he
    obtain ⟨old, hold, rfl⟩ := List.mem_map.mp he
    dsimp only
    split
    · exact hfits
    · exact h.fits old hold

/-- **A collection that was created** holds nothing, and nothing was put in
before if it is the one that points go to. -/
theorem Keeps.created (h : s.Keeps put) {name : String} (hnew : s.has name = false) (dims : Nat)
    (distance : Distance) :
    ({ s with all := s.all ++ [(name, ⟨dims, distance, []⟩)] } : Collections).Keeps put where
  toSound := h.toSound.created hnew dims distance
  found := by
    intro col hcol id
    rw [current_created hnew] at hcol
    split at hcol
    · next hbound =>
      obtain rfl := Except.ok.inj hcol
      have hmissing : ∃ f, s.current = .error f := by
        have hnone : s.all.lookup s.bound = none := by simpa [has, hbound] using hnew
        unfold current
        rw [hnone]
        exact ⟨_, rfl⟩
      obtain ⟨f, hf⟩ := hmissing
      rw [h.missing f hf]
      rfl
    · exact h.found col hcol id
  missing := by
    intro f hf
    rw [current_created hnew] at hf
    split at hf
    · cases hf
    · exact h.missing f hf

/-- **Points that were put in** are found from then on, the last of them first. -/
theorem Keeps.inserted (h : s.Keeps put) {col : Collection} (hcol : s.current = .ok col)
    {points : List Point} (hfits : ∀ p ∈ points, p.vector.length = col.dims) :
    (s.withCurrent { col with points := Collection.insertAll col.points points }).Keeps
      (put ++ points) where
  toSound := by
    have hmem := mem_of_current hcol
    refine h.toSound.withCurrent (Collection.keyed_insertAll (h.keyed _ hmem) points) fun p hp => ?_
    rcases Collection.mem_or_mem_of_mem_insertAll hp with hp | hp
    · exact hfits p hp
    · exact h.fits _ hmem p hp
  found := by
    intro col' hcol' id
    rw [current_withCurrent hcol] at hcol'
    obtain rfl := Except.ok.inj hcol'
    show (Collection.insertAll col.points points).find? (·.id == id) = _
    rw [Collection.find?_insertAll, lastUnder_append, ← h.found col hcol id]
    rfl
  missing := by
    intro f hf
    rw [current_withCurrent hcol] at hf
    cases hf

/-! ## Answers -/

/-- **What a request is answered with**, given the points that were put in
before, and what it leaves. -/
def Meets (s : Collections) (put : List Point) (s' : Collections) (a : Outcome StoreAnswer) :
    StoreRequest → Prop
  | .create name dims distance =>
    if s.has name then ∃ f, a = .error f
    else a = .ok .done ∧ s'.all.lookup name = some ⟨dims, distance, []⟩
  | .ensure name dims distance =>
    if s.has name then a = .ok (.flag false) ∧ s' = s
    else a = .ok (.flag true) ∧ s'.all.lookup name = some ⟨dims, distance, []⟩
  | .has name => a = .ok (.flag (s.has name)) ∧ s' = s
  | .upsert points =>
    (∃ f, a = .error f) ↔ ∀ col, s.current = .ok col → ∃ p ∈ points, p.vector.length ≠ col.dims
  | .search query limit least => a = (s.search query limit least).map .hits ∧ s' = s
  | .get id => a = (s.current.map fun _ => .point (lastUnder put id)) ∧ s' = s

/-- No collection goes, and none gets other dimensions or another similarity. -/
def Stays (s s' : Collections) : Prop :=
  ∀ name col, s.all.lookup name = some col → ∃ col', s'.all.lookup name = some col'
    ∧ col'.dims = col.dims ∧ col'.distance = col.distance

theorem Stays.refl (s : Collections) : s.Stays s :=
  fun _ col h => ⟨col, h, rfl, rfl⟩

theorem stays_created {name : String} (hnew : s.has name = false) (col : Collection) :
    s.Stays { s with all := s.all ++ [(name, col)] } := by
  intro other old hold
  refine ⟨old, ?_, rfl, rfl⟩
  show (s.all ++ [(name, col)]).lookup other = some old
  have hne : other ≠ name := by
    rintro rfl
    rw [has, hold] at hnew
    cases hnew
  rw [lookup_created hnew, if_neg hne, hold]

theorem stays_withCurrent {col : Collection} (hcol : s.current = .ok col) (points : List Point) :
    s.Stays (s.withCurrent { col with points }) := by
  intro name old hold
  have hlookup : (s.withCurrent { col with points }).all.lookup name
      = some (if name = s.bound then { col with points } else old) := by
    show (s.all.map _).lookup name = _
    rw [lookup_map_replace, hold, Option.map_some]
  refine ⟨_, hlookup, ?_⟩
  by_cases h : name = s.bound
  · subst h
    obtain rfl : old = col := by
      rw [current_eq_ok_iff.mp hcol] at hold
      exact (Option.some.inj hold).symm
    rw [if_pos rfl]
    exact ⟨rfl, rfl⟩
  · rw [if_neg h]
    exact ⟨rfl, rfl⟩

/-- **How a request is answered**, given the points that were put in before. -/
structure Answers (s : Collections) (put : List Point) (q : StoreRequest) (s' : Collections)
    (a : Outcome StoreAnswer) : Prop where
  /-- What is refused leaves every collection as it was. -/
  refused : ∀ f, a = .error f → s' = s
  /-- Collections stay. -/
  stays : s.Stays s'
  /-- The answer is the one that the request is for. -/
  meets : s.Meets put s' a q

/-- **What a request that changes nothing keeps**, whether it is refused or
not. -/
theorem Keeps.unchanged (h : s.Keeps put) {q : StoreRequest} {a : Outcome StoreAnswer}
    (hnone : StoreRequest.accepted (q, some (.done a)) = []) (hmeets : s.Meets put s a q) :
    s.Keeps (put ++ StoreRequest.accepted (q, some (.done a))) ∧ s.Answers put q s a := by
  rw [hnone, List.append_nil]
  exact ⟨h, fun _ _ => rfl, Stays.refl s, hmeets⟩

/-- **What a request that has created a collection keeps.** -/
theorem Keeps.creates (h : s.Keeps put) {name : String} (hnew : s.has name = false) {dims : Nat}
    {distance : Distance} {q : StoreRequest} {answer : StoreAnswer}
    (hs' : s.create name dims distance = .ok s')
    (hnone : StoreRequest.accepted (q, some (.done (.ok answer))) = [])
    (hmeets : s'.all.lookup name = some ⟨dims, distance, []⟩ → s.Meets put s' (.ok answer) q) :
    s'.Keeps (put ++ StoreRequest.accepted (q, some (.done (.ok answer))))
      ∧ s.Answers put q s' (.ok answer) := by
  obtain rfl : { s with all := s.all ++ [(name, ⟨dims, distance, []⟩)] } = s' := by
    unfold create at hs'
    rw [if_neg (by simp [hnew])] at hs'
    exact Except.ok.inj hs'
  have hlookup : (s.all ++ [(name, Collection.mk dims distance [])]).lookup name
      = some ⟨dims, distance, []⟩ := by
    rw [lookup_created hnew, if_pos rfl]
  rw [hnone, List.append_nil]
  exact ⟨h.created hnew dims distance,
    { refused := fun _ hf => by cases hf
      stays := stays_created hnew _
      meets := hmeets hlookup }⟩

/-- **One request** keeps collections as they are to be, and is answered as it
is meant. -/
theorem Keeps.answer (h : s.Keeps put) (q : StoreRequest) :
    (s.answer q).1.Keeps (put ++ StoreRequest.accepted (q, some (.done (s.answer q).2)))
      ∧ s.Answers put q (s.answer q).1 (s.answer q).2 := by
  cases q with
  | create name dims distance =>
    have hanswer : s.answer (.create name dims distance) = (s.after (s.create name dims distance),
      (s.create name dims distance).map fun _ => .done) := rfl
    rcases s.create_cases name dims distance with ⟨hhas, f, hf⟩ | ⟨hnew, hok⟩
    · rw [hanswer, hf]
      refine h.unchanged rfl ?_
      rw [Meets, if_pos hhas]
      exact ⟨f, rfl⟩
    · rw [hanswer, hok]
      refine h.creates hnew hok rfl fun hlookup => ?_
      rw [Meets, if_neg (by simp [hnew])]
      exact ⟨rfl, hlookup⟩
  | ensure name dims distance =>
    have hanswer : s.answer (.ensure name dims distance)
      = ((s.ensure name dims distance).1, (s.ensure name dims distance).2.map .flag) := rfl
    rw [hanswer]
    unfold ensure
    rcases s.create_cases name dims distance with ⟨hhas, -⟩ | ⟨hnew, hok⟩
    · rw [if_pos hhas]
      refine h.unchanged rfl ?_
      rw [Meets, if_pos hhas]
      exact ⟨rfl, rfl⟩
    · rw [if_neg (by simp [hnew]), hok]
      refine h.creates hnew hok rfl fun hlookup => ?_
      rw [Meets, if_neg (by simp [hnew])]
      exact ⟨rfl, hlookup⟩
  | has name => exact h.unchanged rfl ⟨rfl, rfl⟩
  | upsert points =>
    have hanswer : s.answer (.upsert points)
      = (s.after (s.upsert points), (s.upsert points).map fun _ => .done) := rfl
    rcases s.upsert_cases points with
      ⟨f, hcol, hf⟩ | ⟨col, hcol, ⟨hmisfit, f, hf⟩ | ⟨hfits, hok⟩⟩
    · rw [hanswer, hf]
      refine h.unchanged rfl ⟨fun _ col hcol' => ?_, fun _ => ⟨f, rfl⟩⟩
      rw [hcol] at hcol'
      cases hcol'
    · rw [hanswer, hf]
      refine h.unchanged rfl ⟨fun _ col' hcol' => ?_, fun _ => ⟨f, rfl⟩⟩
      rw [hcol] at hcol'
      obtain rfl := Except.ok.inj hcol'
      exact hmisfit
    · rw [hanswer, hok]
      have hmeets : s.Meets put
          (s.withCurrent { col with points := Collection.insertAll col.points points })
          (.ok .done) (.upsert points) := by
        constructor
        · rintro ⟨f, hf⟩
          cases hf
        · intro hall
          obtain ⟨p, hp, hne⟩ := hall col hcol
          exact absurd (hfits p hp) hne
      exact ⟨h.inserted hcol hfits,
        { refused := fun _ hf => by cases hf
          stays := stays_withCurrent hcol _
          meets := hmeets }⟩
  | search query limit least => exact h.unchanged rfl ⟨rfl, rfl⟩
  | get id =>
    refine h.unchanged rfl ⟨?_, rfl⟩
    show (s.get id).map _ = _
    cases hcol : s.current with
    | error f =>
      unfold get
      rw [hcol]
      rfl
    | ok col =>
      rw [get_of_current hcol, h.found col hcol]
      rfl

/-! ## Which collections there are -/

/-- The name, the dimensions and the similarity of each collection. -/
def made (s : Collections) : List (String × Nat × Distance) :=
  s.all.map fun entry => (entry.1, entry.2.dims, entry.2.distance)

theorem made_created (s : Collections) (name : String) (dims : Nat) (distance : Distance) :
    ({ s with all := s.all ++ [(name, ⟨dims, distance, []⟩)] } : Collections).made
      = s.made ++ [(name, dims, distance)] :=
  List.map_append

/-- Other points in the current collection make no other collection of it. -/
theorem Sound.made_withCurrent (h : s.Sound) {col : Collection} (hcol : s.current = .ok col)
    (points : List Point) : (s.withCurrent { col with points }).made = s.made := by
  have hnodup : (s.all.map (·.1)).Nodup := List.pairwise_map.mpr h.named
  show (s.all.map _).map _ = s.all.map _
  rw [List.map_map]
  refine List.map_congr_left fun entry he => ?_
  dsimp only [Function.comp]
  split
  · next hname =>
    -- no other one has the name of the current one
    obtain rfl := List.inj_on_of_nodup_map hnodup he (mem_of_current hcol) hname
    rfl
  · rfl

/-- **One request** adds to the collections the one that it has created. -/
theorem Sound.made_answer (h : s.Sound) (q : StoreRequest) :
    (s.answer q).1.made = s.made ++ StoreRequest.created (q, some (.done (s.answer q).2))
      ∧ (s.answer q).1.bound = s.bound := by
  cases q with
  | create name dims distance =>
    have hanswer : s.answer (.create name dims distance) = (s.after (s.create name dims distance),
      (s.create name dims distance).map fun _ => .done) := rfl
    rcases s.create_cases name dims distance with ⟨-, f, hf⟩ | ⟨-, hok⟩
    · rw [hanswer, hf]
      exact ⟨(List.append_nil _).symm, rfl⟩
    · rw [hanswer, hok]
      exact ⟨s.made_created name dims distance, rfl⟩
  | ensure name dims distance =>
    have hanswer : s.answer (.ensure name dims distance)
      = ((s.ensure name dims distance).1, (s.ensure name dims distance).2.map .flag) := rfl
    rw [hanswer]
    unfold ensure
    rcases s.create_cases name dims distance with ⟨hhas, -⟩ | ⟨hnew, hok⟩
    · rw [if_pos hhas]
      exact ⟨(List.append_nil _).symm, rfl⟩
    · rw [if_neg (by simp [hnew]), hok]
      exact ⟨s.made_created name dims distance, rfl⟩
  | has name => exact ⟨(List.append_nil _).symm, rfl⟩
  | upsert points =>
    have hanswer : s.answer (.upsert points)
      = (s.after (s.upsert points), (s.upsert points).map fun _ => .done) := rfl
    have hnone : ∀ a, StoreRequest.created (.upsert points, some (.done a)) = [] := fun _ => rfl
    rw [hnone, List.append_nil, hanswer]
    rcases s.upsert_cases points with ⟨f, -, hf⟩ | ⟨col, hcol, ⟨-, f, hf⟩ | ⟨-, hok⟩⟩
    · rw [hf]
      exact ⟨rfl, rfl⟩
    · rw [hf]
      exact ⟨rfl, rfl⟩
    · rw [hok]
      exact ⟨h.made_withCurrent hcol _, rfl⟩
  | search query limit least => exact ⟨(List.append_nil _).symm, rfl⟩
  | get id => exact ⟨(List.append_nil _).symm, rfl⟩

/-- A store without collections keeps nothing. -/
theorem keeps_nil (m : Machine) (bound : String) (dims : Nat) :
    (Collections.mk m bound dims []).Keeps [] where
  named := List.Pairwise.nil
  keyed := fun _ h => absurd h List.not_mem_nil
  fits := fun _ h => absurd h List.not_mem_nil
  found := fun _ h => nomatch h
  missing := fun _ _ => rfl

/-- **Requests one after another** keep collections as they are to be, and add to them those that
they have created. -/
theorem Keeps.serve (h : s.Keeps put) {w : World} (hs : w.store = .inMemory s) (t : TaskId)
    (qs : List StoreRequest) :
    ∃ s', (StoreRequest.serve t w qs).1.store = .inMemory s'
      ∧ s'.Keeps (put ++ (StoreRequest.serve t w qs).2.flatMap StoreRequest.accepted)
      ∧ s'.made = s.made ++ (StoreRequest.serve t w qs).2.flatMap StoreRequest.created
      ∧ s'.bound = s.bound := by
  induction qs generalizing s w put with
  | nil =>
    rw [StoreRequest.serve, List.flatMap_nil, List.flatMap_nil, List.append_nil]
    exact ⟨s, hs, h, (List.append_nil _).symm, rfl⟩
  | cons q qs ih =>
    obtain ⟨hstore, hended⟩ := StoreRequest.leaves_procedure (t := t) hs q
    obtain ⟨s', hs', h', hmade, hbound⟩ := ih (h.answer q).1 hstore
    obtain ⟨hmade₁, hbound₁⟩ := h.toSound.made_answer q
    rw [List.append_assoc] at h'
    rw [hmade₁, List.append_assoc] at hmade
    rw [StoreRequest.serve, List.flatMap_cons, List.flatMap_cons, hended]
    exact ⟨s', hs', h', hmade, hbound.trans hbound₁⟩

/-- **Whatever a store in memory is asked**, from when it has no collections:
each collection has its own name, one point per id and only vectors of its own
dimensions, and each point is found under its id. The collections are those that
were created, with the dimensions and the similarity that they were created with, and
are found by the names that they were created under. And whatever is asked next is
answered at once, as it is meant: what is refused leaves every collection as it
was, points are put in all or none, and a point is found as it was last put in
by a request that was not refused. -/
theorem serve_answers (w : World) (t : TaskId) (m : Machine) (bound : String) (dims : Nat)
    (past : List StoreRequest) (next : StoreRequest) :
    let start : World := { w with store := .inMemory ⟨m, bound, dims, []⟩ }
    let served := (StoreRequest.serve t start past).2
    ∃ s s' a, (StoreRequest.serve t start past).1.store = .inMemory s
      ∧ s.Sound
      ∧ (∀ entry ∈ s.all, ∀ p ∈ entry.2.points, entry.2.get? p.id = some p)
      ∧ s.bound = bound
      ∧ s.made = served.flatMap StoreRequest.created
      ∧ s.FindsCreated
      ∧ Consolidator.Leaves
        ((StoreRequest.serve t start past).1.carryOut t next.procedure.run) (s', some (.done a))
      ∧ s.Answers (served.flatMap StoreRequest.accepted) next s' a := by
  intro start served
  obtain ⟨s, hs, h, hmade, hbound⟩ := (keeps_nil m bound dims).serve (w := start) rfl t past
  rw [List.nil_append] at h
  exact ⟨s, _, _, hs, h.toSound, fun entry he p hp => Collection.get?_of_mem (h.keyed entry he) hp,
    hbound, hmade, s.findsCreated, StoreRequest.leaves_procedure hs next, (h.answer next).2⟩

end Collections

end IncidentMemory
