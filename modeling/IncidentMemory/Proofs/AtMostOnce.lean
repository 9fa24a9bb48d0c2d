import IncidentMemory.Proofs.Markers
import IncidentMemory.Proofs.Traffic

/-!
# At most once

However incidents get in each other's way, and wherever they are cancelled, one
that is called by the same name is not reasoned about twice within the window of
the gate (`Traffic.atMostOnce_run`). It does not matter what became of the first
of the two: the claim it made at the gate lasts.

Two things are shared and have to be followed through all moves. The markers
record the claims that the decisions of the gate have made, which keeps decisions
for one name apart (`Traffic.Spaced`). Of every incident the decisions and the
gains of the queue are those that its course tells of (`Traffic.Kept`), and what
courses there are is known from `Pipeline.always_handle`.
-/

namespace IncidentMemory

open Simulation

/-! ## One incident -/

namespace Handling

variable {p : Pipeline} {h h' : Handling} {w w' : World}

/-- **An incident handled as it should be**: what is ahead is as it always is,
and the queue has gained what the buffer is said to have taken. -/
structure Sound (p : Pipeline) (h : Handling) : Prop where
  /-- What is ahead. -/
  ahead : h.Ahead p
  /-- A token that had fired before the beginning has fired. -/
  early : h.early = true → h.fired = true
  /-- What the queue has gained. -/
  put : h.put = h.course.accepted

/-- The handling of an incident that has only just come. -/
theorem sound_start (p : Pipeline) (i : Incident) (goal : String) (early : Bool) :
    Sound p { incident := i, early, fired := early, routine := (p.handle i goal).run } where
  ahead := p.always_handle i early goal
  early := id
  put := rfl

/-- A step keeps it so, once the gains of the queue are noted. -/
theorem Goes.sound (hg : Goes p w w' h h') (hs : h.Sound p) :
    Sound p (h'.gaining w w') where
  ahead := hg.ahead
  early := fun he => hg.fired.trans (hs.early (hg.early.symm.trans he))
  put := by
    obtain ⟨gained, haccepted, hqueue⟩ := hg.shares.gained
    show h'.put ++ w'.buffer.queue.drop w.buffer.queue.length = h'.course.accepted
    rw [hg.put, hs.put, haccepted, hqueue, List.drop_left]

theorem Sound.passage (hs : h.Sound p) : Pipeline.Passage p h.incident h.course := by
  have hahead := hs.ahead
  unfold Ahead at hahead
  split at hahead
  · exact hahead.waits.passage
  · exact hahead.now.1

/-- While it waits the buffer has taken nothing of it. -/
theorem Sound.put_of_waiting (hs : h.Sound p) (hw : h.waiting = true) : h.put = [] := by
  have hahead := hs.ahead
  unfold Ahead at hahead
  rw [if_pos hw] at hahead
  exact hs.put.trans hahead.waits.accepted

/-- What is ahead of an incident that does not wait. -/
theorem Sound.isLeft (hs : h.Sound p) (hw : ¬ h.waiting = true) :
    h.IsLeft p h.routine h.course := by
  have hahead := hs.ahead
  unfold Ahead at hahead
  rwa [if_neg hw] at hahead

/-- One that has ended does not wait, and means what it says. -/
theorem Sound.settled (hs : h.Sound p) {o : Outcome Handled} (hr : h.routine = .done o) :
    Pipeline.Settled p h.incident h.course (.done o) := by
  have hahead := hs.ahead
  unfold Ahead at hahead
  rw [hr] at hahead
  split at hahead
  · exact hahead.elim
  · exact hahead.2

theorem Sound.put_of_brokenOff (hs : h.Sound p) {text : String} (hr : h.routine = .brokenOff text) :
    h.put = [] := by
  have hahead := hs.ahead
  unfold Ahead at hahead
  rw [hr] at hahead
  split at hahead
  · exact hahead.elim
  · exact hs.put.trans hahead.2.accepted

/-- **Once the queue has gained something** the end is certain: nothing can come
in between, and the result says what the queue has gained. -/
theorem Sound.certain (hs : h.Sound p) (hput : h.put ≠ []) :
    h.waiting = false ∧ ∀ w t, ∃ d,
      (World.carryOut w t h.routine).2
          = some (.done (.ok (.resolved d (p.resolution h.incident d))))
        ∧ h.put = [p.resolution h.incident d] := by
  have hwaiting : ¬ h.waiting = true := fun hw => hput (hs.put_of_waiting hw)
  refine ⟨eq_false_of_ne_true hwaiting, fun w t => ?_⟩
  have hleft := hs.isLeft hwaiting
  have hlate : h.early = false := by
    cases he : h.early with
    | false => rfl
    | true =>
      have hbegun := hleft.now.2 he
      exact absurd (hs.put.trans (hs.passage.accepted_of_begun_nil hbegun)) hput
  unfold IsLeft at hleft
  rw [hlate] at hleft
  -- any further call would have to wait with the buffer still having taken nothing
  obtain ⟨o, ho, hsettled⟩ := hleft.carryOut
    (fun q hq => hput (hs.put.trans hq.accepted)) w t
  have hrecorded : h.put = Pipeline.recorded o := hs.put.trans hsettled.accepted
  rcases o with (f | (_ | _ | ⟨d, r⟩)) | text
  · exact absurd hrecorded hput
  · exact absurd hrecorded hput
  · exact absurd hrecorded hput
  · obtain rfl := hsettled.resolution d r rfl
    exact ⟨d, ho, hrecorded⟩
  · exact absurd hrecorded hput

end Handling

/-! ## The decisions of the gate -/

/-- Whether an incident passed. -/
def Decision.passes (d : Decision) : Bool :=
  match d.verdict with
  | .done (.ok fresh) => fresh
  | _ => false

namespace Traffic

variable {p : Pipeline} {s : Traffic} {claims : List Markers.Claim}

/-- The decisions about one incident. -/
def decisionsOf (s : Traffic) (k : Nat) : List Decision :=
  s.decisions.filter fun d => d.handling = k

/-- The claims that decisions have made. -/
def claimsOf (p : Pipeline) (decisions : List Decision) : List Markers.Claim :=
  (decisions.filter Decision.passes).map fun d =>
    (Markers.keyOf d.incidentId, d.time + p.gate.window.nanos)

/-- **The markers record what was decided**, and those decisions by which
incidents of one name passed are apart. -/
structure Spaced (p : Pipeline) (claims : List Markers.Claim) (w : World)
    (decisions : List Decision) : Prop where
  /-- The markers record the claims of the beginning and those that were decided
  on. -/
  keeps : ∃ m, w.dedup = .inMemory m ∧ m.Records w.clock (claims ++ claimsOf p decisions)
  /-- Every verdict says whether the incident passed. -/
  answered : ∀ d ∈ decisions, ∃ fresh, d.verdict = .done (.ok fresh)
  /-- Incidents of one name do not pass within the window. -/
  apart : (decisions.filter Decision.passes).Pairwise fun d e =>
    d.incidentId = e.incidentId → d.time + p.gate.window.nanos ≤ e.time

theorem claimsOf_append (p : Pipeline) (ds es : List Decision) :
    claimsOf p (ds ++ es) = claimsOf p ds ++ claimsOf p es := by
  unfold claimsOf
  rw [List.filter_append, List.map_append]

/-- What is held at a time is not over: a decision that is free of all claims is
apart from those that made them. -/
theorem le_of_not_held {now : Instant} {decisions : List Decision} {name : String}
    (hfree : ¬ Markers.Held (claims ++ claimsOf p decisions) now (Markers.keyOf name))
    {d : Decision} (hd : d ∈ decisions.filter Decision.passes) (hname : d.incidentId = name) :
    d.time + p.gate.window.nanos ≤ now := by
  refine Nat.le_of_not_lt fun hlt => hfree ⟨_, List.mem_append_right _ (List.mem_map_of_mem hd), ?_,
    hlt⟩
  exact congrArg Markers.keyOf hname

/-- **One more decision**, at the time of the world: it is apart from all others
if the incident passes by it. -/
theorem Spaced.decide {w w' : World} {decisions : List Decision}
    (hs : Spaced p claims w decisions) (k : Nat) (name : String) {m m' : Markers}
    {v : Attempt (Outcome Bool)} (hw : w.dedup = .inMemory m)
    (hset : m.setIfAbsent w.clock (Markers.keyOf name) Markers.sentinel p.gate.window = (m', v))
    (hw' : w'.dedup = .inMemory m') (hclock : w'.clock = w.clock)
    (hroom : w.clock + p.gate.window.nanos < Instant.limit) :
    Spaced p claims w' (decisions ++ [⟨k, name, w.clock, v⟩]) := by
  obtain ⟨m₀, hm₀, hrec⟩ := hs.keeps
  obtain rfl : m₀ = m := by simpa using hm₀.symm.trans hw
  have hanswered : ∀ fresh, v = .done (.ok fresh) →
      ∀ d ∈ decisions ++ [⟨k, name, w.clock, v⟩], ∃ fresh, d.verdict = .done (.ok fresh) := by
    intro fresh hv d hd
    rcases List.mem_append.mp hd with hd | hd
    · exact hs.answered d hd
    · obtain rfl := List.mem_singleton.mp hd
      exact ⟨fresh, hv⟩
  by_cases hheld : Markers.Held (claims ++ claimsOf p decisions) w.clock (Markers.keyOf name)
  · -- a repetition makes no claim, and is not among those that passed
    obtain ⟨m₁, hrefuse, hrec', -⟩ := hrec.refuse Markers.sentinel p.gate.window
      (Nat.le_refl _) hheld
    obtain ⟨rfl, rfl⟩ := Prod.mk.inj (hset.symm.trans hrefuse)
    refine ⟨⟨m', hw', ?_⟩, hanswered false rfl, ?_⟩
    · rw [hclock, claimsOf_append, show claimsOf p [_] = [] from rfl, List.append_nil]
      exact hrec'
    · rw [List.filter_append, show [_].filter Decision.passes = [] from rfl, List.append_nil]
      exact hs.apart
  · obtain ⟨m₁, hgrant, hrec', -⟩ := hrec.grant Markers.sentinel (Nat.le_refl _) hheld hroom
    obtain ⟨rfl, rfl⟩ := Prod.mk.inj (hset.symm.trans hgrant)
    refine ⟨⟨m', hw', ?_⟩, hanswered true rfl, ?_⟩
    · rw [hclock, claimsOf_append, ← List.append_assoc]
      exact hrec'
    · rw [List.filter_append]
      refine List.pairwise_append.mpr ⟨hs.apart, List.pairwise_singleton _ _, ?_⟩
      intro d hd e he hname
      obtain rfl := List.mem_singleton.mp he
      exact le_of_not_held hheld hd hname

/-- Decisions remain apart while others go on and time goes by. -/
theorem Spaced.later {w w' : World} {decisions : List Decision} (hs : Spaced p claims w decisions)
    (hdedup : w'.dedup = w.dedup) (hclock : w.clock ≤ w'.clock) :
    Spaced p claims w' decisions := by
  obtain ⟨m, hm, hrec⟩ := hs.keeps
  exact ⟨⟨m, hdedup.trans hm, hrec.mono hclock⟩, hs.answered, hs.apart⟩

/-! ## All incidents -/

/-- **Everything that was seen of incidents fits their courses.** -/
structure Kept (p : Pipeline) (s : Traffic) : Prop where
  /-- Each is handled as it should be. -/
  each : ∀ {k : Nat} {h : Handling}, s.handlings[k]? = some h → h.Sound p
  /-- The decisions about each are those of its course. -/
  decided : ∀ {k : Nat} {h : Handling}, s.handlings[k]? = some h →
    (s.decisionsOf k).map (·.verdict) = h.course.verdicts
  /-- The decisions have the names of those they are about. -/
  named : ∀ d ∈ s.decisions, ∃ h, s.handlings[d.handling]? = some h
    ∧ h.incident.id = d.incidentId

/-- Verdicts about one incident as decisions. -/
def decisionsFor (k : Nat) (name : String) (time : Instant) (vs : List (Attempt (Outcome Bool))) :
    List Decision :=
  vs.map fun v => ⟨k, name, time, v⟩

theorem filter_decisionsFor (j k : Nat) (name : String) (time : Instant)
    (vs : List (Attempt (Outcome Bool))) :
    ((decisionsFor k name time vs).filter fun d => d.handling = j).map (·.verdict)
      = if k = j then vs else [] := by
  unfold decisionsFor
  induction vs with
  | nil => split <;> rfl
  | cons v vs ih =>
    rw [List.map_cons, List.filter_cons]
    by_cases hkj : k = j
    · rw [if_pos hkj] at ih ⊢
      rw [if_pos (decide_eq_true hkj), List.map_cons, ih]
    · rw [if_neg hkj] at ih ⊢
      rw [if_neg (by simpa using hkj), ih]

/-- **One incident goes on**, with new verdicts. -/
theorem Kept.set (hs : Kept p s) {k : Nat} {h h' : Handling} (hk : s.handlings[k]? = some h)
    (hsound : h'.Sound p) (hincident : h'.incident = h.incident) (world : World) (time : Instant)
    {vs : List (Attempt (Outcome Bool))}
    (hvs : h'.course.verdicts = h.course.verdicts ++ vs) :
    Kept p ⟨world, s.handlings.set k h',
      s.decisions ++ decisionsFor k h.incident.id time vs⟩ := by
  have hlt : k < s.handlings.length := (List.getElem?_eq_some_iff.mp hk).1
  have hget : ∀ {j g}, (s.handlings.set k h')[j]? = some g →
      k = j ∧ g = h' ∨ k ≠ j ∧ s.handlings[j]? = some g := by
    intro j g hj
    by_cases hkj : k = j
    · rw [← hkj, List.getElem?_set_self hlt] at hj
      exact Or.inl ⟨hkj, (Option.some.inj hj).symm⟩
    · rw [List.getElem?_set_ne hkj] at hj
      exact Or.inr ⟨hkj, hj⟩
  refine ⟨fun hj => ?_, fun {j g} hj => ?_, fun d hd => ?_⟩
  · rcases hget hj with ⟨-, rfl⟩ | ⟨-, hj⟩
    · exact hsound
    · exact hs.each hj
  · unfold decisionsOf
    rw [List.filter_append, List.map_append, filter_decisionsFor]
    rcases hget hj with ⟨rfl, rfl⟩ | ⟨hkj, hj⟩
    · rw [if_pos rfl, hvs]
      exact congrArg (· ++ vs) (hs.decided hk)
    · rw [if_neg hkj, List.append_nil]
      exact hs.decided hj
  · have hsame : ∀ {j : Nat} {g : Handling}, s.handlings[j]? = some g →
        ∃ g' : Handling, (s.handlings.set k h')[j]? = some g' ∧ g'.incident.id = g.incident.id := by
      intro j g hj
      by_cases hkj : k = j
      · subst hkj
        obtain rfl := Option.some.inj (hk.symm.trans hj)
        exact ⟨h', List.getElem?_set_self hlt, congrArg _ hincident⟩
      · exact ⟨g, (List.getElem?_set_ne hkj).trans hj, rfl⟩
    rcases List.mem_append.mp hd with hd | hd
    · obtain ⟨g, hg, hname⟩ := hs.named d hd
      obtain ⟨g', hg', hid⟩ := hsame hg
      exact ⟨g', hg', hid.trans hname⟩
    · obtain ⟨v, -, rfl⟩ := List.mem_map.mp hd
      exact hsame hk

/-- **An incident comes.** -/
theorem Kept.arrive (hs : Kept p s) (i : Incident) (goal : String) (early : Bool) :
    Kept p (s.move p (.arrive i goal early)) := by
  have hdecisions : s.decisionsOf s.handlings.length = [] := by
    refine List.filter_eq_nil_iff.mpr fun d hd hk => ?_
    obtain ⟨h, hh, -⟩ := hs.named d hd
    rw [of_decide_eq_true hk, List.getElem?_eq_none (Nat.le_refl _)] at hh
    exact nomatch hh
  have hget : ∀ {k : Nat} {h : Handling}, (s.move p (.arrive i goal early)).handlings[k]? = some h →
      s.handlings[k]? = some h ∨ k = s.handlings.length
        ∧ h = { incident := i, early, fired := early, routine := (p.handle i goal).run } := by
    intro k h hk
    rcases Nat.lt_trichotomy k s.handlings.length with hlt | rfl | hgt
    · exact Or.inl ((List.getElem?_append_left hlt).symm.trans hk)
    · exact Or.inr ⟨rfl, (Option.some.inj (List.getElem?_concat_length.symm.trans hk)).symm⟩
    · have hnone : (s.move p (.arrive i goal early)).handlings[k]? = none :=
        List.getElem?_eq_none (by
          show (s.handlings ++ [_]).length ≤ k
          rw [List.length_append, List.length_singleton]
          exact hgt)
      exact absurd (hnone.symm.trans hk) (Option.some_ne_none h).symm
  refine ⟨fun hk => ?_, fun {k h} hk => ?_, fun d hd => ?_⟩
  · rcases hget hk with hk | ⟨-, rfl⟩
    · exact hs.each hk
    · exact Handling.sound_start p i goal early
  · rcases hget hk with hk | ⟨rfl, rfl⟩
    · exact hs.decided hk
    · exact congrArg (List.map (·.verdict)) hdecisions
  · obtain ⟨h, hh, hname⟩ := hs.named d hd
    refine ⟨h, ?_, hname⟩
    show (s.handlings ++ [_])[d.handling]? = some h
    rw [List.getElem?_append_left (List.getElem?_eq_some_iff.mp hh).1]
    exact hh

/-- **A token fires.** -/
theorem Kept.cancel (hs : Kept p s) (k : Nat) : Kept p (s.move p (.cancel k)) := by
  have hget : ∀ j : Nat, (s.move p (.cancel k)).handlings[j]?
      = (s.handlings[j]?).map fun h => if k = j then { h with fired := true } else h := by
    intro j
    show (s.handlings.modify k _)[j]? = _
    rw [List.getElem?_modify, Option.map_eq_map]
  refine ⟨fun {j h} hj => ?_, fun {j h} hj => ?_, fun d hd => ?_⟩
  · rw [hget] at hj
    obtain ⟨g, hg, rfl⟩ := Option.map_eq_some_iff.mp hj
    have hsound := hs.each hg
    split
    · exact ⟨hsound.ahead, fun _ => rfl, hsound.put⟩
    · exact hsound
  · rw [hget] at hj
    obtain ⟨g, hg, rfl⟩ := Option.map_eq_some_iff.mp hj
    refine (hs.decided hg).trans ?_
    split <;> rfl
  · obtain ⟨g, hg, hname⟩ := hs.named d hd
    refine ⟨_, (hget d.handling).trans (congrArg _ hg), ?_⟩
    split <;> exact hname

/-- **All is in order.** -/
structure Sound (p : Pipeline) (claims : List Markers.Claim) (s : Traffic) : Prop where
  /-- The decisions are apart. -/
  spaced : Spaced p claims s.world s.decisions
  /-- The incidents are handled as they should be. -/
  kept : Kept p s

theorem turn_eq (s : Traffic) (k : Nat) (h : Handling) (outside : Outside)
    {vs : List (Attempt (Outcome Bool))}
    (hvs : (h.go s.world (.step k) outside).2.course.verdicts = h.course.verdicts ++ vs) :
    s.turn k h outside = ⟨(h.go s.world (.step k) outside).1,
      s.handlings.set k ((h.go s.world (.step k) outside).2.gaining s.world
        (h.go s.world (.step k) outside).1),
      s.decisions ++ decisionsFor k h.incident.id s.world.clock vs⟩ := by
  show Traffic.mk _ _ (s.decisions
    ++ decisionsFor k h.incident.id s.world.clock (List.drop h.course.verdicts.length _)) = _
  rw [hvs, List.drop_left]

/-- **An incident goes on.** -/
theorem Sound.turn (hs : Sound p claims s) {k : Nat} {h : Handling}
    (hk : s.handlings[k]? = some h) (outside : Outside)
    (hroom : s.world.clock + p.gate.window.nanos < Instant.limit) :
    Sound p claims (s.turn k h outside) := by
  obtain ⟨m, hm, -⟩ := hs.spaced.keeps
  have hsound := hs.kept.each hk
  have hgoes := Handling.goes hm hsound.ahead hsound.early (.step k) outside
  have hkept : ∀ vs, (h.go s.world (.step k) outside).2.course.verdicts = h.course.verdicts ++ vs →
      Kept p (s.turn k h outside) := by
    intro vs hvs
    rw [s.turn_eq k h outside hvs]
    exact hs.kept.set hk (hgoes.sound hsound) hgoes.incident _ _ hvs
  rcases hgoes.shares.verdict with ⟨hdedup, hverdicts⟩
    | ⟨m₀, m', key, value, ttl, v, hcall, hm₀, hset, hdedup, hverdicts⟩
  · have hnone := hverdicts.trans (List.append_nil _).symm
    refine ⟨?_, hkept [] hnone⟩
    rw [s.turn_eq k h outside hnone]
    show Spaced p claims _ (s.decisions ++ [])
    rw [List.append_nil]
    exact hs.spaced.later hdedup (Nat.le_of_eq hgoes.shares.clock.symm)
  · -- the only question to the markers is that of the gate
    obtain ⟨rfl, rfl, rfl⟩ := Call.setIfAbsent.inj hcall
    refine ⟨?_, hkept [v] hverdicts⟩
    rw [s.turn_eq k h outside hverdicts]
    exact hs.spaced.decide k h.incident.id hm₀ hset hdedup hgoes.shares.clock hroom

end Traffic

/-- How much time goes by in a move. -/
def Move.nanos : Move → Nat
  | .pass nanos => nanos
  | _ => 0

namespace Traffic

variable {p : Pipeline} {s : Traffic} {claims : List Markers.Claim}

/-- How much time goes by in moves. -/
def elapsed : List Move → Nat
  | [] => 0
  | m :: ms => m.nanos + elapsed ms

/-- **Every move keeps all in order**, and the clock shows how much time has gone
by. -/
theorem Sound.move (hs : Sound p claims s) (m : Move)
    (hroom : s.world.clock + p.gate.window.nanos < Instant.limit) :
    Sound p claims (s.move p m) ∧ (s.move p m).world.clock = s.world.clock + m.nanos := by
  cases m with
  | arrive i goal early => exact ⟨⟨hs.spaced, hs.kept.arrive i goal early⟩, rfl⟩
  | cancel k => exact ⟨⟨hs.spaced, hs.kept.cancel k⟩, rfl⟩
  | go k outside =>
    cases hk : s.handlings[k]? with
    | none =>
      rw [show s.move p (.go k outside) = s by simp only [Traffic.move, hk]]
      exact ⟨hs, rfl⟩
    | some h =>
      rw [move_go hk]
      obtain ⟨m, hm, -⟩ := hs.spaced.keeps
      have hsound := hs.kept.each hk
      have hgoes := Handling.goes hm hsound.ahead hsound.early (.step k) outside
      exact ⟨hs.turn hk outside hroom, hgoes.shares.clock⟩
  | pass nanos =>
    exact ⟨⟨hs.spaced.later rfl (Nat.le_add_right _ _), hs.kept.each, hs.kept.decided,
      hs.kept.named⟩, rfl⟩
  | elsewhere buffer =>
    exact ⟨⟨hs.spaced.later rfl (Nat.le_refl _), hs.kept.each, hs.kept.decided,
      hs.kept.named⟩, rfl⟩

/-- **Every run keeps all in order.** -/
theorem Sound.run (hs : Sound p claims s) (ms : List Move)
    (hroom : s.world.clock + elapsed ms + p.gate.window.nanos < Instant.limit) :
    Sound p claims (s.run p ms) := by
  induction ms generalizing s with
  | nil => exact hs
  | cons m ms ih =>
    have hnow : s.world.clock ≤ s.world.clock + elapsed (m :: ms) := Nat.le_add_right _ _
    obtain ⟨hmoved, hclock⟩ :=
      hs.move m (Nat.lt_of_le_of_lt (Nat.add_le_add_right hnow _) hroom)
    refine ih hmoved ?_
    rw [hclock, Nat.add_assoc s.world.clock]
    exact hroom

/-! ## What follows -/

/-- **Incidents are handled at most once** in every window, and what became of
them is what their results say. -/
structure AtMostOnce (p : Pipeline) (s : Traffic) : Prop where
  /-- A diagnosis is looked for once at most in handling an incident. -/
  invocations : ∀ (k : Nat) (h : Handling), s.handlings[k]? = some h → h.course.invocations ≤ 1
  /-- If that was done for two incidents of one name, the gate decided once about
  each, and these decisions are at least a window apart. -/
  apart : ∀ (j k : Nat) (g h : Handling), s.handlings[j]? = some g → s.handlings[k]? = some h →
    j ≠ k → g.incident.id = h.incident.id → 0 < g.course.invocations → 0 < h.course.invocations →
      ∃ d e, s.decisionsOf j = [d] ∧ s.decisionsOf k = [e]
        ∧ (d.time + p.gate.window.nanos ≤ e.time ∨ e.time + p.gate.window.nanos ≤ d.time)
  /-- A repetition has made no call but that to the gate. -/
  duplicate : ∀ (k : Nat) (h : Handling), s.handlings[k]? = some h →
    h.routine = .done (.ok .duplicate) → h.course.begun = [p.gateCall h.incident]
  /-- The queue has gained the resolution that the result says, and nothing if it
  says none; that resolution is the one that the diagnosis makes. -/
  recorded : ∀ (k : Nat) (h : Handling), s.handlings[k]? = some h → ∀ o, h.routine = .done o →
    h.put = Pipeline.recorded (.done o)
      ∧ ∀ d r, o = .ok (.resolved d r) → r = p.resolution h.incident d
  /-- It has gained nothing if the handling broke off. -/
  brokenOff : ∀ (k : Nat) (h : Handling), s.handlings[k]? = some h →
    ∀ text, h.routine = .brokenOff text → h.put = []
  /-- If it has gained anything, that is one resolution, and the handling ends with
  it without waiting, wherever it goes on. -/
  certain : ∀ (k : Nat) (h : Handling), s.handlings[k]? = some h → h.put ≠ [] →
    h.waiting = false ∧ ∀ w t, ∃ d,
      (World.carryOut w t h.routine).2
          = some (.done (.ok (.resolved d (p.resolution h.incident d))))
        ∧ h.put = [p.resolution h.incident d]
  /-- An incident whose token had fired before the beginning touches neither the
  markers nor the buffer. -/
  untouched : ∀ (k : Nat) (h : Handling) outside, s.handlings[k]? = some h → h.early = true →
    (s.move p (.go k outside)).world.dedup = s.world.dedup
      ∧ (s.move p (.go k outside)).world.buffer = s.world.buffer

/-- An incident that a diagnosis was looked for has passed, by the one decision
about it. -/
theorem Sound.passed (hs : Sound p claims s) {k : Nat} {h : Handling}
    (hk : s.handlings[k]? = some h) (hinvoked : 0 < h.course.invocations) :
    ∃ d ∈ s.decisions.filter Decision.passes, s.decisionsOf k = [d] ∧ d.handling = k
      ∧ d.incidentId = h.incident.id := by
  rcases (hs.kept.each hk).passage.invocations with hnone | ⟨-, v, hverdicts, hadmits⟩
  · exact absurd hnone (Nat.ne_of_gt hinvoked)
  · have hdecided := (hs.kept.decided hk).trans hverdicts
    obtain ⟨d, hd, rfl⟩ := List.map_eq_singleton_iff.mp hdecided
    have hmem : d ∈ s.decisionsOf k := hd ▸ List.mem_cons_self
    obtain ⟨hdecision, hhandling⟩ := List.mem_filter.mp hmem
    have hk' : d.handling = k := of_decide_eq_true hhandling
    obtain ⟨fresh, hfresh⟩ := hs.spaced.answered d hdecision
    have hpasses : d.passes = true := by
      unfold Decision.passes
      rw [hfresh] at hadmits ⊢
      exact hadmits
    obtain ⟨g, hg, hname⟩ := hs.kept.named d hdecision
    obtain rfl := Option.some.inj (hk.symm.trans (hk' ▸ hg))
    exact ⟨d, List.mem_filter.mpr ⟨hdecision, hpasses⟩, hd, hk', hname.symm⟩

/-- Two decisions by which incidents of one name passed are apart, whichever was
the first. -/
theorem Spaced.apart_or {w : World} {decisions : List Decision}
    (hs : Spaced p claims w decisions) {d e : Decision}
    (hd : d ∈ decisions.filter Decision.passes) (he : e ∈ decisions.filter Decision.passes)
    (hne : d.handling ≠ e.handling) (hname : d.incidentId = e.incidentId) :
    d.time + p.gate.window.nanos ≤ e.time ∨ e.time + p.gate.window.nanos ≤ d.time := by
  have hboth := List.Pairwise.forall_of_forall_of_flip
    (R := fun d e : Decision => d.handling ≠ e.handling → d.incidentId = e.incidentId →
      d.time + p.gate.window.nanos ≤ e.time ∨ e.time + p.gate.window.nanos ≤ d.time)
    (fun _ _ hne => absurd rfl hne) (hs.apart.imp fun h _ hname => Or.inl (h hname))
    (hs.apart.imp fun h _ hname => Or.inr (h hname.symm))
  exact hboth hd he hne hname

theorem Sound.atMostOnce (hs : Sound p claims s) : AtMostOnce p s where
  invocations := fun k h hk => by
    rcases (hs.kept.each hk).passage.invocations with hnone | ⟨hone, -⟩
    · exact hnone ▸ Nat.zero_le 1
    · exact Nat.le_of_eq hone
  apart := by
    intro j k g h hj hk hne hid hg hh
    obtain ⟨d, hd, hdj, hj', hdname⟩ := hs.passed hj hg
    obtain ⟨e, he, hek, hk', hename⟩ := hs.passed hk hh
    refine ⟨d, e, hdj, hek, hs.spaced.apart_or hd he ?_ ?_⟩
    · rw [hj', hk']
      exact hne
    · rw [hdname, hename]
      exact hid
  duplicate := fun k h hk hr => ((hs.kept.each hk).settled hr).duplicate rfl
  recorded := by
    intro k h hk o hr
    have hsound := hs.kept.each hk
    have hsettled := hsound.settled hr
    exact ⟨hsound.put.trans hsettled.accepted,
      fun d r ho => hsettled.resolution d r (congrArg Attempt.done ho)⟩
  brokenOff := fun k h hk text hr => (hs.kept.each hk).put_of_brokenOff hr
  certain := fun k h hk hput => (hs.kept.each hk).certain hput
  untouched := by
    intro k h outside hk hearly
    obtain ⟨m, hm, -⟩ := hs.spaced.keeps
    have hsound := hs.kept.each hk
    rw [move_go hk]
    exact (Handling.goes hm hsound.ahead hsound.early (.step k) outside).untouched hearly

/-- A world in which nothing has been decided yet. -/
theorem sound_start (p : Pipeline) {w : World} {m : Markers} (hw : w.dedup = .inMemory m)
    (hm : m.broken = false) : Sound p (m.entries.map fun e => (e.key, e.expiry)) ⟨w, [], []⟩ where
  spaced := by
    refine ⟨⟨m, hw, hm, fun e he => ?_, fun c hc _ => ?_⟩, fun _ hd => absurd hd List.not_mem_nil,
      List.Pairwise.nil⟩
    · exact List.mem_append_left _ (List.mem_map_of_mem he)
    · rw [show claimsOf p [] = [] from rfl, List.append_nil] at hc
      exact List.mem_map.mp hc
  kept := by
    refine ⟨fun hk => ?_, fun hk => ?_, fun _ hd => absurd hd List.not_mem_nil⟩
    · exact nomatch hk
    · exact nomatch hk

/-- **At most once.** However the incidents that come get in each other's way,
wherever they are cancelled and whatever else happens to the buffer, they are
handled at most once in every window of the gate – as long as the clock lasts. -/
theorem atMostOnce_run (p : Pipeline) (w : World) (m : Markers) (hw : w.dedup = .inMemory m)
    (hm : m.broken = false) (moves : List Move)
    (hroom : w.clock + elapsed moves + p.gate.window.nanos < Instant.limit) :
    AtMostOnce p (run p ⟨w, [], []⟩ moves) :=
  ((sound_start p hw hm).run moves hroom).atMostOnce

/-- A pipeline with a window of five minutes. -/
def samplePipeline : Pipeline where
  gate := ⟨.ofSeconds 300, .failOpen, "memory"⟩
  retriever := ⟨⟨.zero, 1, 2⟩⟩
  clusterId := "prod"

/-- No memories, and a diagnosis if there is one. -/
def sampleOutside (diagnosis : Option Diagnosis) : Outside
  | .embed _ => some (.done (.error .emptyJson))
  | .resolve .. => diagnosis.map fun d => .done (.ok (some d))
  | _ => none

/-- An incident is cancelled while a diagnosis is looked for. Five minutes later it
comes again, and is resolved. -/
def cancelledThenResolved : List Move :=
  [.arrive (.minimal "a" "default" "OOMKilled" "") "" false]
    ++ List.replicate 9 (.go 0 (sampleOutside none)) ++ [.cancel 0, .go 0 (sampleOutside none)]
    ++ [.pass (Duration.ofSeconds 300).nanos,
      .arrive (.minimal "a" "default" "OOMKilled" "") "" false]
    ++ List.replicate 14 (.go 1 (sampleOutside (some ⟨"", .high, "", ""⟩)))

/-- Both times a diagnosis is looked for, and once the buffer gains a
resolution. -/
theorem atMostOnce_run_cancelledThenResolved :
    samplePipeline.gate.window.nanos + elapsed cancelledThenResolved < Instant.limit
      ∧ AtMostOnce samplePipeline (run samplePipeline ⟨World.bare, [], []⟩ cancelledThenResolved)
      ∧ (run samplePipeline ⟨World.bare, [], []⟩ cancelledThenResolved).handlings.map
        (fun h => (h.course.invocations, h.put.length)) = [(1, 0), (1, 1)] :=
  ⟨by decide,
    atMostOnce_run samplePipeline World.bare {} rfl rfl cancelledThenResolved (by decide), by rfl⟩

end Traffic

end IncidentMemory
