import IncidentMemory.Memory.Preparation
import IncidentMemory.Proofs.Journal
import IncidentMemory.Proofs.Requests

/-!
# A collection that several prepare at once

Whoever prepares a collection looks for it, and creates it if it is not there. Over a
store in memory each of these is done at once, but between the two anything can happen:
others look for the collection, create it, put points in or search. `Preparations.run`
lets any number of them take turns, in any order.

What is meant to come of it mostly does. One creation takes effect if the collection was
missing and none if it was there, and no point that was put in gets lost. But those who
were told that the collection is missing all go on to create it, and for all but one of
them it is there by then. They are refused and report that the preparation has failed,
although the refusal itself says that the collection exists. So everybody succeeds
exactly if at most one was told that it is missing (`Preparations.run_prepared`).
-/

namespace IncidentMemory

open Simulation

/-! ## What those who prepare a collection do -/

namespace Memory

/-- What is left when it is known what came of it: to report that. -/
def telling (event : Log.Event) (known : Bool) : Routine Bool :=
  .act (.log event) fun _ => .done known

/-- What is reported of a failure. -/
def failedEvent (name : String) (f : Failure) : Log.Event :=
  preparationEvent .error "Failed to initialize memory collection" name [("error", .str f.message)]

/-- What is left when the collection was not found: to create it. -/
def creating (name : String) (dims : Nat) : Routine Bool :=
  .call (.createCollection name dims .cosine) fun
    | .done (.ok _) =>
      telling (preparationEvent .info "Created memory collection" name
        [("dimension", .ofNat dims)]) true
    | .done (.error f) => telling (failedEvent name f) false
    | .brokenOff text => .brokenOff text

theorem prepareCollection_eq (name : String) (dims : Nat) : prepareCollection name dims
    = .call (.hasCollection name) fun
      | .done (.ok true) =>
        telling (preparationEvent .info "Memory collection already exists" name) true
      | .done (.ok false) => creating name dims
      | .done (.error f) => telling (failedEvent name f) false
      | .brokenOff text => .brokenOff text := by
  refine congrArg (Routine.call _) (funext fun reply => ?_)
  rcases reply with (f | there) | text
  · rfl
  · cases there with
    | true => rfl
    | false =>
      refine congrArg (Routine.call _) (funext fun reply => ?_)
      rcases reply with (f | ⟨⟩) | text <;> rfl
  · rfl

end Memory

namespace Entry

/-- That a collection was not found. -/
def misses : Entry → Bool
  | .heard (.hasCollection _) (.done (.ok there)) => !there
  | _ => false

/-- That a collection was created. -/
def creates : Entry → Bool
  | .heard (.createCollection ..) (.done (.ok _)) => true
  | _ => false

/-- **That there is a collection**: it was found or created, or it could not be created. -/
def confirms : Entry → Bool
  | .heard (.hasCollection _) (.done (.ok there)) => there
  | .heard (.createCollection ..) (.done _) => true
  | _ => false

end Entry

/-- **Someone who prepares a collection.** -/
structure Preparation where
  /-- What is left to do. -/
  routine : Routine Bool
  /-- What was learnt so far. -/
  journal : List Entry := []
  /-- How many turns there have been. -/
  turns : Nat := 0

namespace Preparation

/-- Goes on with the answer to a call, if there is one. -/
def hear (p : Preparation) (q : Call) (next : Attempt q.Reply → Routine Bool) :
    Option (Attempt q.Reply) → Preparation
  | some reply => ⟨next reply, p.journal ++ [.heard q reply], p.turns + 1⟩
  | none => { p with turns := p.turns + 1 }

/-- **Takes a turn**: goes on by one action or one call. -/
def go (p : Preparation) (w : World) (t : TaskId) : World × Preparation :=
  match p.routine with
  | .done _ | .brokenOff _ => (w, { p with turns := p.turns + 1 })
  | .act a next =>
    ((w.act a).1, ⟨next (w.act a).2, p.journal ++ a.entries (w.act a).2, p.turns + 1⟩)
  | .call q next | .watch q next _ =>
    ((World.tried (w.attempt t q)).1, p.hear q next (World.tried (w.attempt t q)).2)

/-- What it came to, if it has ended. -/
def result? (p : Preparation) : Option Bool :=
  match p.routine with
  | .done known => some known
  | _ => none

/-- Whether it was told that the collection is missing. -/
def missed (p : Preparation) : Bool :=
  p.journal.any Entry.misses

/-- Whether it has created the collection. -/
def created (p : Preparation) : Bool :=
  p.journal.any Entry.creates

/-- Whether it has been told, in one way or another, that there is the collection. -/
def confirmed (p : Preparation) : Bool :=
  p.journal.any Entry.confirms

end Preparation

/-- That a request does not ask for a collection to be created. -/
def StoreRequest.IsUse : StoreRequest → Prop
  | .create .. | .ensure .. => False
  | _ => True

/-- **A collection that is prepared**, and the store that it is prepared in. -/
structure Preparations where
  /-- The world with the store. -/
  world : World
  /-- Those who prepare the collection, in the order in which they came. -/
  all : List Preparation := []
  /-- What others have asked of the store, and what became of it. -/
  others : List (StoreRequest × Answered) := []

namespace Preparations

/-- What may happen next. -/
inductive Move where
  /-- Somebody comes to prepare the collection, for vectors of so many dimensions. -/
  | begins (dims : Nat)
  /-- One of them takes a turn. -/
  | goes (number : Nat)
  /-- Others use the store. -/
  | uses (t : TaskId) (q : StoreRequest) (h : q.IsUse)

/-- **Makes a move**; the collection has the given name. -/
def move (name : String) (r : Preparations) : Move → Preparations
  | .begins dims => { r with all := r.all ++ [{ routine := Memory.prepareCollection name dims }] }
  | .goes k =>
    match r.all[k]? with
    | none => r
    | some p =>
      { r with
        world := (p.go r.world (.step k)).1
        all := r.all.set k (p.go r.world (.step k)).2 }
  | .uses t q _ =>
    { r with
      world := (r.world.carryOut t q.procedure.run).1
      others := r.others ++ [(q, (r.world.carryOut t q.procedure.run).2)] }

theorem move_goes {name : String} {r : Preparations} {k : Nat} {p : Preparation}
    (hk : r.all[k]? = some p) :
    r.move name (.goes k)
      = { r with
          world := (p.go r.world (.step k)).1
          all := r.all.set k (p.go r.world (.step k)).2 } := by
  simp only [move, hk]

/-- **Makes moves one after another.** -/
def run (name : String) (r : Preparations) : List Move → Preparations
  | [] => r
  | m :: ms => run name (r.move name m) ms

/-- Nobody prepares a collection yet, and a store in memory was asked some things before. -/
def start (machine : Machine) (w : World) (t : TaskId) (bound : String) (dims : Nat)
    (past : List StoreRequest) : Preparations where
  world := (StoreRequest.serve t { w with store := .inMemory ⟨machine, bound, dims, []⟩ } past).1
  others := (StoreRequest.serve t { w with store := .inMemory ⟨machine, bound, dims, []⟩ } past).2

/-- The points that others have put in. -/
def put (r : Preparations) : List Point :=
  r.others.flatMap StoreRequest.accepted

end Preparations

/-! ## One turn -/

/-- That somebody was answered that a collection was created. -/
abbrev Entry.creation (name : String) (dims : Nat) : Entry :=
  .heard (.createCollection name dims .cosine) (.done (.ok ()))

/-- The store in which a collection was created. -/
abbrev Collections.created (s : Collections) (name : String) (dims : Nat) : Collections :=
  { s with all := s.all ++ [(name, ⟨dims, .cosine, []⟩)] }

/-- **What can be learnt from a store in one turn**, and what becomes of the store. -/
inductive Collections.Tells (name : String) (s : Collections) : List Entry → Collections → Prop
  /-- It was not asked. -/
  | nothing : Tells name s [] s
  /-- The collection was found. -/
  | found (h : s.has name = true) : Tells name s [.heard (.hasCollection name) (.done (.ok true))] s
  /-- It was not found. -/
  | missing (h : s.has name = false) :
    Tells name s [.heard (.hasCollection name) (.done (.ok false))] s
  /-- It was created. -/
  | created (h : s.has name = false) (dims : Nat) :
    Tells name s [.creation name dims] (s.created name dims)
  /-- It was there already. -/
  | refused (h : s.has name = true) (dims : Nat) (f : Failure) :
    Tells name s [.heard (.createCollection name dims .cosine) (.done (.error f))] s

namespace Preparation

variable {name : String} {w : World} {s : Collections} {p : Preparation} {j : List Entry} {b : Bool}

/-- **What is known of the collection at the end**, by what was learnt, and what that
comes to. -/
inductive Finding (name : String) : List Entry → Bool → Prop
  /-- The collection was found. -/
  | found : Finding name [.heard (.hasCollection name) (.done (.ok true))] true
  /-- It was missing, and was created. -/
  | created (dims : Nat) :
    Finding name [.heard (.hasCollection name) (.done (.ok false)), .creation name dims] true
  /-- It was missing, and could not be created. -/
  | refused (dims : Nat) (f : Failure) :
    Finding name [.heard (.hasCollection name) (.done (.ok false)),
      .heard (.createCollection name dims .cosine) (.done (.error f))] false

/-- Whoever has found out has been told that there is the collection. -/
theorem Finding.confirms (h : Finding name j b) : j.any Entry.confirms = true := by
  cases h <;> rfl

/-- It comes to a failure exactly for those who were told that the collection is missing
and have not created it. -/
theorem Finding.eq (h : Finding name j b) :
    b = (!j.any Entry.misses || j.any Entry.creates) := by
  cases h <;> rfl

theorem Finding.length_le (h : Finding name j b) : j.length ≤ 2 := by
  cases h with
  | found => exact Nat.le_succ 1
  | created dims => exact Nat.le_refl 2
  | refused dims f => exact Nat.le_refl 2

/-- Nobody creates the collection who was not told that it is missing. -/
theorem Finding.misses (h : Finding name j b) (hcreates : j.any Entry.creates = true) :
    j.any Entry.misses = true := by
  cases h with
  | found => cases hcreates
  | created dims => rfl
  | refused dims f => rfl

/-- **How far somebody may have come** over a store in memory. -/
inductive Course (name : String) : Preparation → Prop
  /-- Nothing was done. -/
  | fresh (dims : Nat) : Course name { routine := Memory.prepareCollection name dims }
  /-- The collection was not found, and is to be created. -/
  | missing (dims : Nat) :
    Course name ⟨Memory.creating name dims, [.heard (.hasCollection name) (.done (.ok false))], 1⟩
  /-- What has come of it is to be reported. -/
  | telling {j : List Entry} {b : Bool} (h : Finding name j b) (event : Log.Event) :
    Course name ⟨Memory.telling event b, j, j.length⟩
  /-- It has ended. -/
  | ended {j : List Entry} {b : Bool} (h : Finding name j b) {n : Nat} (hn : j.length < n) :
    Course name ⟨.done b, j, n⟩

/-- What it came to follows from what was learnt. -/
theorem Course.result (h : Course name p) (hresult : p.result? = some b) :
    Finding name p.journal b := by
  cases h with
  | fresh dims => rw [Memory.prepareCollection_eq] at hresult; cases hresult
  | missing dims => cases hresult
  | telling h event => cases hresult
  | ended h hn =>
    obtain rfl := Option.some.inj hresult
    exact h

/-- **Three turns are enough.** -/
theorem Course.isSome_result? (h : Course name p) (hturns : 3 ≤ p.turns) :
    p.result?.isSome = true := by
  cases h with
  | fresh dims => exact absurd hturns (Nat.not_succ_le_zero 2)
  | missing dims => exact absurd (show 3 ≤ 1 from hturns) (by decide)
  | telling h event => exact absurd (hturns.trans h.length_le) (by decide)
  | ended h hn => rfl

theorem Course.missed (h : Course name p) (hcreated : p.created = true) : p.missed = true := by
  cases h with
  | fresh dims => cases hcreated
  | missing dims => cases hcreated
  | telling h event => exact h.misses hcreated
  | ended h hn => exact h.misses hcreated

/-- **A turn in which a call is made** goes on with the answer. -/
theorem go_call {q : Call} {next : Attempt q.Reply → Routine Bool}
    (hp : p.routine = .call q next) {t : TaskId} {w' : World} {reply : Attempt q.Reply}
    (h : World.tried (w.attempt t q) = (w', some reply)) :
    p.go w t = (w', ⟨next reply, p.journal ++ [.heard q reply], p.turns + 1⟩) := by
  unfold go
  rw [hp]
  dsimp only
  rw [h]
  rfl

/-- **What one turn can do**, over a store in memory. -/
theorem Course.turn (h : Course name p) (hw : w.store = .inMemory s) (t : TaskId) :
    ∃ s' new, (p.go w t).1.store = .inMemory s' ∧ Course name (p.go w t).2
      ∧ (p.go w t).2.journal = p.journal ++ new ∧ s.Tells name new s' := by
  cases h with
  | fresh dims =>
    have hasked : World.tried (w.attempt t (.hasCollection name))
        = (w, some (.done (.ok (s.has name)))) :=
      (World.carryOut_ask w t _).symm.trans (StoreRequest.carryOut_hasCollection hw name)
    rw [go_call (Memory.prepareCollection_eq name dims) hasked]
    cases hhas : s.has name with
    | true => exact ⟨s, _, hw, .telling .found _, rfl, .found hhas⟩
    | false => exact ⟨s, _, hw, .missing dims, rfl, .missing hhas⟩
  | missing dims =>
    obtain ⟨hstore, hended⟩ := StoreRequest.leaves_createCollection (t := t) hw name dims .cosine
    have hasked : World.tried (w.attempt t (.createCollection name dims .cosine))
        = (_, some (.done ((s.create name dims .cosine).map fun _ => ()))) :=
      (World.carryOut_ask w t _).symm.trans (Prod.ext rfl hended)
    rw [go_call rfl hasked]
    rcases s.create_cases name dims .cosine with ⟨hhas, f, hf⟩ | ⟨hnew, hok⟩
    · rw [hf] at hstore ⊢
      exact ⟨s, _, hstore, .telling (.refused dims f) _, rfl, .refused hhas dims f⟩
    · rw [hok] at hstore ⊢
      exact ⟨_, _, hstore, .telling (.created dims) _, rfl, .created hnew dims⟩
  | @telling j b h event =>
    have hended : Course name ⟨.done b, j, j.length + 1⟩ := .ended h (Nat.lt_succ_self _)
    refine ⟨s, [], hw, ?_, rfl, .nothing⟩
    show Course name ⟨.done b, j ++ [], j.length + 1⟩
    rwa [List.append_nil]
  | ended h hn => exact ⟨s, [], hw, .ended h (Nat.lt_succ_of_lt hn), (List.append_nil _).symm, .nothing⟩

end Preparation

/-! ## The store -/

namespace Collections

variable {name : String} {s s' s'' : Collections} {put : List Point} {new : List Entry}

theorem Stays.trans (h : s.Stays s') (h' : s'.Stays s'') : s.Stays s'' := by
  intro other col hcol
  obtain ⟨col', hcol', hdims', hdistance'⟩ := h other col hcol
  obtain ⟨col'', hcol'', hdims'', hdistance''⟩ := h' other col' hcol'
  exact ⟨col'', hcol'', hdims''.trans hdims', hdistance''.trans hdistance'⟩

/-- A collection that was there is there. -/
theorem Stays.has (h : s.Stays s') (hhas : s.has name = true) : s'.has name = true := by
  obtain ⟨col, hcol⟩ := Option.isSome_iff_exists.mp hhas
  obtain ⟨col', hcol', -⟩ := h name col hcol
  exact Option.isSome_iff_exists.mpr ⟨col', hcol'⟩

theorem has_withCurrent (s : Collections) (col : Collection) (name : String) :
    (s.withCurrent col).has name = s.has name := by
  show ((s.all.map _).lookup name).isSome = _
  rw [lookup_map_replace, Option.isSome_map]
  rfl

theorem has_created (s : Collections) (name : String) (dims : Nat) :
    (s.created name dims).has name = true := by
  show ((s.all ++ [(name, _)]).lookup name).isSome = true
  rw [List.lookup_append, List.lookup_cons_self]
  cases s.all.lookup name <;> rfl

/-- **Whoever uses a store neither makes nor removes a collection.** -/
theorem has_answer {q : StoreRequest} (hq : q.IsUse) (s : Collections) (name : String) :
    (s.answer q).1.has name = s.has name := by
  cases q with
  | create other dims distance => exact hq.elim
  | ensure other dims distance => exact hq.elim
  | has other => rfl
  | search query limit least => rfl
  | get id => rfl
  | upsert points =>
    show (s.after (s.upsert points)).has name = _
    rcases s.upsert_cases points with ⟨f, -, hf⟩ | ⟨col, -, ⟨-, f, hf⟩ | ⟨-, hok⟩⟩
    · rw [hf]
      rfl
    · rw [hf]
      rfl
    · rw [hok]
      exact s.has_withCurrent _ name

namespace Tells

variable (h : s.Tells name new s')

include h

/-- A turn leaves the points as they are. -/
theorem keeps (hkeeps : s.Keeps put) : s'.Keeps put := by
  cases h with
  | created hnew dims => exact hkeeps.created hnew dims .cosine
  | _ => exact hkeeps

theorem stays : s.Stays s' := by
  cases h with
  | created hnew dims => exact stays_created hnew _
  | _ => exact Stays.refl s

/-- Whoever is told that there is the collection is told the truth. -/
theorem confirms (hnew : new.any Entry.confirms = true) : s'.has name = true := by
  cases h with
  | nothing => cases hnew
  | found hhas => exact hhas
  | missing hhas => cases hnew
  | created hhas dims => exact s.has_created name dims
  | refused hhas dims f => exact hhas

/-- So is whoever is told that it is missing. -/
theorem misses (hnew : new.any Entry.misses = true) : s.has name = false := by
  cases h with
  | missing hhas => exact hhas
  | _ => cases hnew

/-- **The collection is created exactly if it was missing and is not any more.** -/
theorem creates : (new.any Entry.creates).toNat + (s.has name).toNat = (s'.has name).toNat := by
  cases h with
  | created hhas dims =>
    rw [hhas, s.has_created name dims]
    rfl
  | _ => exact Nat.zero_add _

/-- What was created is there. -/
theorem made {dims : Nat} {distance : Distance}
    (hnew : .heard (.createCollection name dims distance) (.done (.ok ())) ∈ new) :
    s'.all.lookup name = some ⟨dims, distance, []⟩ := by
  cases h with
  | created hhas dims' =>
    cases List.mem_singleton.mp hnew
    rw [lookup_created hhas, if_pos rfl]
  | _ => simp at hnew

end Tells

end Collections

/-! ## Any number of moves -/

namespace Preparations

variable {name : String} {s₀ s : Collections} {r : Preparations}

/-- **What is true of a collection that is prepared**, if `s₀` was in the store when
nobody had begun and `s` is in it now. -/
structure Sound (name : String) (s₀ s : Collections) (r : Preparations) : Prop where
  /-- Everybody has come as far as one may. -/
  courses : ∀ p ∈ r.all, Preparation.Course name p
  /-- Nobody was told that there is the collection if there is not. -/
  confirmed : ∀ p ∈ r.all, p.confirmed = true → s.has name = true
  /-- Nobody was told that it is missing if it was there from the beginning. -/
  missed : ∀ p ∈ r.all, p.missed = true → s₀.has name = false
  /-- It was created once if it was missing and is there now. -/
  creates : r.all.countP (·.created) + (s₀.has name).toNat = (s.has name).toNat
  /-- It is as it was created. -/
  made : ∀ p ∈ r.all, ∀ dims distance,
    .heard (.createCollection name dims distance) (.done (.ok ())) ∈ p.journal →
      ∃ col, s.all.lookup name = some col ∧ col.dims = dims ∧ col.distance = distance
  /-- No collection has gone, or changed its kind. -/
  stays : s₀.Stays s
  /-- Points are found as they were last put in. -/
  keeps : s.Keeps r.put

/-- What was created stays as it is when the store changes. -/
theorem Sound.made_of_stays (h : Sound name s₀ s r) {s' : Collections} (hs : s.Stays s')
    {p : Preparation} (hp : p ∈ r.all) {dims : Nat} {distance : Distance}
    (hmade : .heard (.createCollection name dims distance) (.done (.ok ())) ∈ p.journal) :
    ∃ col, s'.all.lookup name = some col ∧ col.dims = dims ∧ col.distance = distance := by
  obtain ⟨col, hcol, hdims, hdistance⟩ := h.made p hp dims distance hmade
  obtain ⟨col', hcol', hdims', hdistance'⟩ := hs name col hcol
  exact ⟨col', hcol', hdims'.trans hdims, hdistance'.trans hdistance⟩

/-- **Somebody comes**, and has learnt nothing yet. -/
theorem Sound.begins (h : Sound name s₀ s r) (dims : Nat) :
    Sound name s₀ s (r.move name (.begins dims)) := by
  -- what is true of the others and of somebody who has learnt nothing is true of all
  have hall : ∀ P : Preparation → Prop, (∀ p ∈ r.all, P p) →
      P { routine := Memory.prepareCollection name dims } →
        ∀ p ∈ (r.move name (.begins dims)).all, P p := by
    intro P hold hnew p hp
    rcases List.mem_append.mp hp with hp | hp
    · exact hold p hp
    · exact List.mem_singleton.mp hp ▸ hnew
  refine ⟨hall _ h.courses (.fresh dims), hall _ h.confirmed nofun, hall _ h.missed nofun, ?_,
    hall _ h.made (fun _ _ hmem => absurd hmem List.not_mem_nil), h.stays, h.keeps⟩
  refine Eq.trans ?_ h.creates
  show (r.all ++ [_]).countP _ + _ = _
  rw [List.countP_append]
  rfl

/-- **Others use the store.** -/
theorem Sound.uses (h : Sound name s₀ s r) (hw : r.world.store = .inMemory s) (t : TaskId)
    (q : StoreRequest) (hq : q.IsUse) :
    ∃ s', (r.move name (.uses t q hq)).world.store = .inMemory s'
      ∧ Sound name s₀ s' (r.move name (.uses t q hq)) := by
  obtain ⟨hstore, hended⟩ := StoreRequest.leaves_procedure (t := t) hw q
  obtain ⟨hkeeps, hanswers⟩ := h.keeps.answer q
  refine ⟨_, hstore, h.courses, ?_, h.missed, ?_,
    fun p hp dims distance => h.made_of_stays hanswers.stays hp, h.stays.trans hanswers.stays, ?_⟩
  · intro p hp hconfirmed
    exact hanswers.stays.has (h.confirmed p hp hconfirmed)
  · rw [Collections.has_answer hq]
    exact h.creates
  · show Collections.Keeps _ ((r.others ++ [_]).flatMap StoreRequest.accepted)
    rw [List.flatMap_append, List.flatMap_singleton, hended]
    exact hkeeps

/-- **The collection is created once**, also if somebody has created it in this turn. -/
theorem Sound.creates_turn (h : Sound name s₀ s r) {s' : Collections} {k : Nat}
    {p p' : Preparation} {new : List Entry} (hk : r.all[k]? = some p)
    (hcreated : p'.created = (p.created || new.any Entry.creates)) (ht : s.Tells name new s') :
    (r.all.set k p').countP (·.created) + (s₀.has name).toNat = (s'.has name).toNat := by
  obtain ⟨hlt, hget⟩ := List.getElem?_eq_some_iff.mp hk
  have hcount := h.creates
  have hcreates := ht.creates
  rw [List.countP_set hlt, hget, hcreated]
  cases hold : p.created with
  | false =>
    rw [Bool.false_or, if_neg Bool.false_ne_true, ← Bool.cond_eq_ite]
    show r.all.countP (·.created) - 0 + (new.any Entry.creates).toNat + _ = _
    omega
  | true =>
    -- it has been there since, so that nobody creates it now
    have hpos : 0 < r.all.countP (·.created) :=
      List.countP_pos_iff.mpr ⟨p, List.mem_of_getElem? hk, hold⟩
    have hle := Bool.toNat_le (s'.has name)
    rw [Bool.true_or, if_pos rfl]
    omega

/-- **One of those who prepare the collection takes a turn.** -/
theorem Sound.turn (h : Sound name s₀ s r) {s' : Collections} {k : Nat} {p p' : Preparation}
    {new : List Entry} (hk : r.all[k]? = some p) (hcourse : Preparation.Course name p')
    (hjournal : p'.journal = p.journal ++ new) (ht : s.Tells name new s') (w : World) :
    Sound name s₀ s' { r with world := w, all := r.all.set k p' } := by
  have hp : p ∈ r.all := List.mem_of_getElem? hk
  have hall : ∀ P : Preparation → Prop, (∀ p ∈ r.all, P p) → P p' →
      ∀ p ∈ r.all.set k p', P p := by
    intro P hold hnew q hq
    rcases List.mem_or_eq_of_mem_set hq with hq | rfl
    · exact hold q hq
    · exact hnew
  have hconfirmed : p'.confirmed = (p.confirmed || new.any Entry.confirms) := by
    unfold Preparation.confirmed
    rw [hjournal, List.any_append]
  have hmissed : p'.missed = (p.missed || new.any Entry.misses) := by
    unfold Preparation.missed
    rw [hjournal, List.any_append]
  have hcreated : p'.created = (p.created || new.any Entry.creates) := by
    unfold Preparation.created
    rw [hjournal, List.any_append]
  refine ⟨hall _ h.courses hcourse, hall _ ?_ ?_, hall _ h.missed ?_, ?_, hall _ ?_ ?_,
    h.stays.trans ht.stays, ht.keeps h.keeps⟩
  · exact fun q hq hq' => ht.stays.has (h.confirmed q hq hq')
  · rw [hconfirmed, Bool.or_eq_true]
    rintro (hold | hnew)
    · exact ht.stays.has (h.confirmed p hp hold)
    · exact ht.confirms hnew
  · rw [hmissed, Bool.or_eq_true]
    rintro (hold | hnew)
    · exact h.missed p hp hold
    · refine Bool.eq_false_iff.mpr fun hhas => ?_
      exact Bool.false_ne_true ((ht.misses hnew).symm.trans (h.stays.has hhas))
  · exact h.creates_turn hk hcreated ht
  · exact fun q hq dims distance => h.made_of_stays ht.stays hq
  · intro dims distance hmem
    rw [hjournal] at hmem
    rcases List.mem_append.mp hmem with hold | hnew
    · exact h.made_of_stays ht.stays hp hold
    · exact ⟨_, ht.made hnew, rfl, rfl⟩

/-- **Every move keeps all this.** -/
theorem Sound.move (h : Sound name s₀ s r) (hw : r.world.store = .inMemory s) (m : Move) :
    ∃ s', (r.move name m).world.store = .inMemory s' ∧ Sound name s₀ s' (r.move name m) := by
  cases m with
  | begins dims => exact ⟨s, hw, h.begins dims⟩
  | uses t q hq => exact h.uses hw t q hq
  | goes k =>
    cases hk : r.all[k]? with
    | none =>
      rw [show r.move name (.goes k) = r by simp only [Preparations.move, hk]]
      exact ⟨s, hw, h⟩
    | some p =>
      obtain ⟨s', new, hstore, hcourse, hjournal, ht⟩ :=
        (h.courses p (List.mem_of_getElem? hk)).turn hw (.step k)
      rw [move_goes hk]
      exact ⟨s', hstore, h.turn hk hcourse hjournal ht _⟩

/-- **So do any number of moves.** -/
theorem Sound.run (h : Sound name s₀ s r) (hw : r.world.store = .inMemory s) (ms : List Move) :
    ∃ s', (Preparations.run name r ms).world.store = .inMemory s'
      ∧ Sound name s₀ s' (Preparations.run name r ms) := by
  induction ms generalizing s r with
  | nil => exact ⟨s, hw, h⟩
  | cons m ms ih =>
    obtain ⟨s', hw', h'⟩ := h.move hw m
    exact ih h' hw'

/-- When nobody has begun, all this is true of what a store has come to. -/
theorem sound_start (machine : Machine) (w : World) (t : TaskId) (bound : String) (dims : Nat)
    (past : List StoreRequest) (name : String) :
    ∃ s, (start machine w t bound dims past).world.store = .inMemory s
      ∧ Sound name s s (start machine w t bound dims past) := by
  obtain ⟨s, hs, hkeeps, -⟩ := (Collections.keeps_nil machine bound dims).serve
    (w := { w with store := .inMemory ⟨machine, bound, dims, []⟩ }) rfl t past
  exact ⟨s, hs, nofun, nofun, nofun, Nat.zero_add _, nofun, Collections.Stays.refl s, hkeeps⟩

/-! ## What it comes to -/

/-- **What comes of a collection that is prepared**, if `s₀` was in the store when nobody
had begun and `s` is in it now. -/
structure Prepared (name : String) (s₀ s : Collections) (r : Preparations) : Prop where
  /-- Whoever has had three turns has ended. -/
  ends : ∀ p ∈ r.all, 3 ≤ p.turns → p.result?.isSome = true
  /-- It comes to a failure for those who were told that the collection is missing and
  have not created it. -/
  returns : ∀ p ∈ r.all, ∀ known, p.result? = some known → known = (!p.missed || p.created)
  /-- Where anybody has ended, with or without a failure, there is the collection. -/
  present : ∀ p ∈ r.all, p.result?.isSome = true → s.has name = true
  /-- Nobody has created it if it was there, and one has if it was missing and is there
  now. -/
  creates : r.all.countP (·.created)
    = if s₀.has name then 0 else if s.has name then 1 else 0
  /-- What was created is there, and is of the kind that it was to be. -/
  made : ∀ p ∈ r.all, ∀ dims distance,
    .heard (.createCollection name dims distance) (.done (.ok ())) ∈ p.journal →
      ∃ col, s.all.lookup name = some col ∧ col.dims = dims ∧ col.distance = distance
  /-- No collection has gone, or changed its kind. -/
  stays : s₀.Stays s
  /-- Every point is found as it was last put in. -/
  keeps : s.Keeps r.put
  /-- When all have ended, nobody has failed exactly if at most one was told that the
  collection is missing. -/
  all_iff : (∀ p ∈ r.all, p.result?.isSome = true) →
    ((∀ p ∈ r.all, p.result? = some true) ↔ r.all.countP (·.missed) ≤ 1)

theorem Sound.returns (h : Sound name s₀ s r) {p : Preparation} (hp : p ∈ r.all) {known : Bool}
    (hresult : p.result? = some known) : known = (!p.missed || p.created) :=
  ((h.courses p hp).result hresult).eq

theorem Sound.present (h : Sound name s₀ s r) {p : Preparation} (hp : p ∈ r.all)
    (hended : p.result?.isSome = true) : s.has name = true := by
  obtain ⟨known, hresult⟩ := Option.isSome_iff_exists.mp hended
  exact h.confirmed p hp ((h.courses p hp).result hresult).confirms

theorem Sound.countP_created (h : Sound name s₀ s r) :
    r.all.countP (·.created) = if s₀.has name then 0 else if s.has name then 1 else 0 := by
  have hcount := h.creates
  cases hbefore : s₀.has name with
  | true =>
    rw [hbefore, h.stays.has hbefore] at hcount
    exact Nat.succ.inj hcount
  | false =>
    rw [hbefore] at hcount
    cases hafter : s.has name with
    | true => rw [hafter] at hcount; exact hcount
    | false => rw [hafter] at hcount; exact hcount

/-- **Those who were told that the collection is missing** are those who have created it
and those who have not. -/
theorem Sound.countP_missed (h : Sound name s₀ s r) :
    r.all.countP (·.missed)
      = r.all.countP (·.created) + r.all.countP fun p => p.missed && !p.created := by
  rw [List.countP_eq_countP_filter_add r.all (·.missed) (·.created), List.countP_filter,
    List.countP_filter]
  refine congrArg (· + _) (List.countP_congr fun p hp => ?_)
  rw [Bool.and_eq_true]
  exact and_iff_right_of_imp (h.courses p hp).missed

/-- **If all have ended, all have succeeded exactly if at most one was told that the
collection is missing.** -/
theorem Sound.all_iff (h : Sound name s₀ s r)
    (hended : ∀ p ∈ r.all, p.result?.isSome = true) :
    (∀ p ∈ r.all, p.result? = some true) ↔ r.all.countP (·.missed) ≤ 1 := by
  have hfails : (∀ p ∈ r.all, p.result? = some true)
      ↔ r.all.countP (fun p => p.missed && !p.created) = 0 := by
    rw [List.countP_eq_zero]
    refine forall₂_congr fun p hp => ?_
    obtain ⟨known, hresult⟩ := Option.isSome_iff_exists.mp (hended p hp)
    rw [hresult, h.returns hp hresult]
    cases p.missed <;> cases p.created <;> decide
  rw [hfails, h.countP_missed, h.countP_created]
  constructor
  · intro hnone
    rw [hnone]
    split
    · exact Nat.zero_le 1
    · split <;> decide
  · intro hle
    by_contra hsome
    obtain ⟨p, hp, hmissed⟩ := List.countP_pos_iff.mp (Nat.pos_of_ne_zero hsome)
    -- somebody has failed, so the collection was missing and somebody else has created it
    have hbefore := h.missed p hp (Bool.and_eq_true_iff.mp hmissed).1
    rw [hbefore, h.present hp (hended p hp)] at hle
    simp only [Bool.false_eq_true, if_false, if_true] at hle
    omega

theorem Sound.prepared (h : Sound name s₀ s r) : Prepared name s₀ s r where
  ends := fun p hp => (h.courses p hp).isSome_result?
  returns := fun _ hp _ => h.returns hp
  present := fun _ hp => h.present hp
  creates := h.countP_created
  made := h.made
  stays := h.stays
  keeps := h.keeps
  all_iff := h.all_iff

/-- **However many prepare a collection at once**, over a store in memory that was asked
anything before and is used by others at the same time, and in whatever order they take
their turns: three turns are enough for everybody, and then there is the collection; it
was created once if it was missing and not at all if it was there; nothing that was put
in is lost. But those who were told that it is missing and did not create it have failed,
so that all succeed exactly if at most one was told so. -/
theorem run_prepared (machine : Machine) (w : World) (t : TaskId) (bound : String) (dims : Nat)
    (past : List StoreRequest) (name : String) (moves : List Move) :
    ∃ s₀ s, (start machine w t bound dims past).world.store = .inMemory s₀
      ∧ (run name (start machine w t bound dims past) moves).world.store = .inMemory s
      ∧ Prepared name s₀ s (run name (start machine w t bound dims past) moves) := by
  obtain ⟨s₀, hs₀, hstart⟩ := sound_start machine w t bound dims past name
  obtain ⟨s, hs, hsound⟩ := hstart.run hs₀ moves
  exact ⟨s₀, s, hs₀, hs, hsound.prepared⟩

/-- Two look for the collection, one after the other, and then create it. -/
def sideBySide : List Move :=
  [.begins 2, .begins 2, .goes 0, .goes 1, .goes 0, .goes 1, .goes 0, .goes 1]

/-- **The second of them fails**, although the collection was missing and is there. -/
theorem not_all_sideBySide :
    (start .usual World.bare (.background .worker) "memories" 2 []).world.store
        = .inMemory ⟨.usual, "memories", 2, []⟩
      ∧ (run "memories" (start .usual World.bare (.background .worker) "memories" 2 [])
          sideBySide).world.store
        = .inMemory ⟨.usual, "memories", 2, [("memories", ⟨2, .cosine, []⟩)]⟩
      ∧ (run "memories" (start .usual World.bare (.background .worker) "memories" 2 [])
          sideBySide).all.map (·.result?) = [some true, some false] :=
  ⟨rfl, rfl, rfl⟩

end Preparations

end IncidentMemory
