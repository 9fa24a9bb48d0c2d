import IncidentMemory.Pipeline
import IncidentMemory.Proofs.Course

/-!
# The passage of an incident through the pipeline

A pipeline that handles an incident makes its calls in one order: it asks the
dedup store once; if the incident passes it looks for memories, then for a
diagnosis, and if there is one it sends the resolution to the buffer. `Passage`
lists the courses that come about in this way, complete or broken off at any
point, and `Pipeline.always_handle` says that there are no others. With it goes
what a result means: a repetition has got no further than the gate, and the
buffer has a resolution exactly if the result says so.
-/

namespace IncidentMemory

open Routine

/-- A call that looks for memories. -/
def Call.IsLookup : Call → Prop
  | .embed _ | .search .. => True
  | _ => False

theorem Call.IsLookup.isOutside {q : Call} (hq : q.IsLookup) : q.IsOutside := by
  cases q with
  | embed text => trivial
  | search query limit least => trivial
  | _ => exact hq.elim

namespace Retriever

variable {P : Course → Prop} (r : Retriever)

theorem staysIn_lookup (hP : ∀ c q, q.IsLookup → P c → P (c.asked q)) {q : Call}
    (hq : q.IsLookup) : (ask q).StaysIn P :=
  staysIn_ask (fun c hc => hP c q hq hc) fun c reply hc =>
    (c.told_of_isOutside hq.isOutside reply).symm ▸ hc

/-- **Looking for memories** makes no calls but lookups. -/
theorem staysIn_relevantMemories (hP : ∀ c q, q.IsLookup → P c → P (c.asked q)) (i : Incident) :
    (r.relevantMemories i).run.StaysIn P := by
  unfold relevantMemories Procedure.embedAs
  refine StaysIn.run_bind (StaysIn.run_bind (staysIn_lookup hP trivial) fun e => ?_) fun e => ?_
  · split
    · exact staysIn_done _
    · exact staysIn_done _
  · refine StaysIn.run_bind (staysIn_lookup hP trivial) fun hits => ?_
    refine StaysIn.run_bind ?_ fun _ => staysIn_done _
    rw [List.forM_eq_forM]
    induction unreadable (r.relevantHits hits) with
    | nil => exact staysIn_done _
    | cons e es ih =>
      rw [List.forM_cons]
      exact StaysIn.run_lift_bind (staysIn_report e) fun _ => ih

/-- **Enrichment** makes no calls but lookups. -/
theorem staysIn_enrich (hP : ∀ c q, q.IsLookup → P c → P (c.asked q)) (i : Incident)
    (goal : String) : (r.enrich i goal).StaysIn P := by
  unfold enrich
  refine (r.staysIn_relevantMemories hP i).bind fun o => ?_
  rcases o with f | (_ | ⟨best, others⟩)
  · exact (staysIn_report _).bind fun _ => staysIn_done _
  · exact (staysIn_report _).bind fun _ => staysIn_done _
  · exact (staysIn_report _).bind fun _ => staysIn_done _

end Retriever

/-- Whether a call looks for a diagnosis. -/
def Call.isReasoning : Call → Bool
  | .resolve .. => true
  | _ => false

/-- How often a diagnosis was looked for. -/
def Course.invocations (c : Course) : Nat :=
  c.begun.countP Call.isReasoning

theorem countP_isReasoning_lookups {lookups : List Call} (h : ∀ q ∈ lookups, q.IsLookup) :
    lookups.countP Call.isReasoning = 0 := by
  refine List.countP_eq_zero.mpr fun q hq hreasoning => ?_
  have hlookup := h q hq
  cases q with
  | resolve incident goal => exact hlookup.elim
  | _ => exact absurd hreasoning Bool.false_ne_true

/-- The verdicts with which a gate may let an incident pass. -/
def Gate.Admits (g : Gate) : Attempt (Outcome Bool) → Prop
  | .done (.ok fresh) => fresh = true
  | .done (.error _) => g.policy = .failOpen
  | .brokenOff _ => False

namespace Pipeline

/-- The call by which a pipeline asks whether an incident is new. -/
def gateCall (p : Pipeline) (i : Incident) : Call :=
  .setIfAbsent (Markers.keyOf i.id) Markers.sentinel p.gate.window

/-- The resolution that a diagnosis of an incident makes. -/
def resolution (p : Pipeline) (i : Incident) (d : Diagnosis) : Resolution :=
  .ofDiagnosis i p.clusterId d

variable {p : Pipeline} {i : Incident}

/-! ## The courses -/

/-- **The courses of an incident through a pipeline.** -/
inductive Passage (p : Pipeline) (i : Incident) : Course → Prop
  /-- It has not come to the gate. -/
  | outside : Passage p i {}
  /-- It is at the gate, or has been turned back there. -/
  | atGate (verdicts : List (Attempt (Outcome Bool))) (h : verdicts.length ≤ 1) :
    Passage p i ⟨[p.gateCall i], verdicts, []⟩
  /-- It has passed, and memories are looked for. -/
  | inside {verdict : Attempt (Outcome Bool)} {lookups : List Call}
    (hpassed : p.gate.Admits verdict) (hlookups : ∀ q ∈ lookups, q.IsLookup) :
    Passage p i ⟨p.gateCall i :: lookups, [verdict], []⟩
  /-- A diagnosis is looked for. -/
  | reasoning {verdict : Attempt (Outcome Bool)} {lookups : List Call} {goal : String}
    (hpassed : p.gate.Admits verdict) (hlookups : ∀ q ∈ lookups, q.IsLookup) :
    Passage p i ⟨p.gateCall i :: (lookups ++ [.resolve i goal]), [verdict], []⟩
  /-- The resolution goes to the buffer. -/
  | recording {verdict : Attempt (Outcome Bool)} {lookups : List Call} {goal : String}
    {d : Diagnosis} {accepted : List Resolution} (hpassed : p.gate.Admits verdict)
    (hlookups : ∀ q ∈ lookups, q.IsLookup) (haccepted : accepted <+: [p.resolution i d]) :
    Passage p i ⟨p.gateCall i :: (lookups ++ [.resolve i goal]) ++ [.send (p.resolution i d)],
      [verdict], accepted⟩

/-- **Every call on the way** is the one to the gate, a lookup, one for a
diagnosis, or the sending of a resolution. -/
theorem Passage.mem {c : Course} (h : Passage p i c) {q : Call} (hq : q ∈ c.begun) :
    q = p.gateCall i ∨ q.IsLookup ∨ (∃ goal, q = .resolve i goal)
      ∨ ∃ d, q = .send (p.resolution i d) := by
  cases h with
  | outside => exact absurd hq List.not_mem_nil
  | atGate verdicts => exact Or.inl (List.mem_singleton.mp hq)
  | inside hpassed hlookups =>
    rcases List.mem_cons.mp hq with rfl | hq
    · exact Or.inl rfl
    · exact Or.inr (Or.inl (hlookups q hq))
  | reasoning hpassed hlookups =>
    simp only [List.mem_cons, List.mem_append, List.not_mem_nil, or_false] at hq
    rcases hq with rfl | hq | rfl
    · exact Or.inl rfl
    · exact Or.inr (Or.inl (hlookups q hq))
    · exact Or.inr (Or.inr (Or.inl ⟨_, rfl⟩))
  | recording hpassed hlookups =>
    simp only [List.mem_cons, List.mem_append, List.not_mem_nil, or_false] at hq
    rcases hq with (rfl | hq | rfl) | rfl
    · exact Or.inl rfl
    · exact Or.inr (Or.inl (hlookups q hq))
    · exact Or.inr (Or.inr (Or.inl ⟨_, rfl⟩))
    · exact Or.inr (Or.inr (Or.inr ⟨_, rfl⟩))

/-- The only question to the dedup store is that of the gate. -/
theorem Passage.eq_gateCall {c : Course} (h : Passage p i c) {key value : String} {ttl : Duration}
    (hq : .setIfAbsent key value ttl ∈ c.begun) : .setIfAbsent key value ttl = p.gateCall i := by
  rcases h.mem hq with hgate | hlookup | ⟨goal, hgoal⟩ | ⟨d, hd⟩
  · exact hgate
  · exact hlookup.elim
  · exact nomatch hgoal
  · exact nomatch hd

/-- **A diagnosis is looked for once** at most, and only if the incident has
passed. -/
theorem Passage.invocations {c : Course} (h : Passage p i c) :
    c.invocations = 0
      ∨ c.invocations = 1 ∧ ∃ verdict, c.verdicts = [verdict] ∧ p.gate.Admits verdict := by
  have hgate : ¬ (p.gateCall i).isReasoning = true := Bool.false_ne_true
  cases h with
  | outside => exact Or.inl rfl
  | atGate verdicts => exact Or.inl rfl
  | inside hpassed hlookups =>
    refine Or.inl ?_
    unfold Course.invocations
    rw [List.countP_cons_of_neg hgate, countP_isReasoning_lookups hlookups]
  | reasoning hpassed hlookups =>
    refine Or.inr ⟨?_, _, rfl, hpassed⟩
    unfold Course.invocations
    rw [List.countP_cons_of_neg hgate, List.countP_append, countP_isReasoning_lookups hlookups]
    rfl
  | recording hpassed hlookups =>
    refine Or.inr ⟨?_, _, rfl, hpassed⟩
    unfold Course.invocations
    rw [List.countP_append, List.countP_cons_of_neg hgate, List.countP_append,
      countP_isReasoning_lookups hlookups]
    rfl

/-- The buffer takes nothing of an incident that has not begun. -/
theorem Passage.accepted_of_begun_nil {c : Course} (h : Passage p i c) (hc : c.begun = []) :
    c.accepted = [] := by
  cases h with
  | outside => rfl
  | atGate verdicts => rfl
  | inside => rfl
  | reasoning => rfl
  | recording => exact absurd hc (List.cons_ne_nil _ _)

/-- The resolution that a result says is in the buffer. -/
def recorded : Attempt (Outcome Handled) → List Resolution
  | .done (.ok (.resolved _ r)) => [r]
  | _ => []

/-- **What a result means** for the course that has led to it. -/
structure Settled (p : Pipeline) (i : Incident) (c : Course) (o : Attempt (Outcome Handled)) :
    Prop where
  /-- The buffer took what the result says. -/
  accepted : c.accepted = recorded o
  /-- That is the resolution of this incident by the diagnosis. -/
  resolution : ∀ d r, o = .done (.ok (.resolved d r)) → r = p.resolution i d
  /-- A repetition has only been at the gate. -/
  duplicate : o = .done (.ok .duplicate) → c.begun = [p.gateCall i]

/-- A result without a resolution, from a course without one. -/
theorem settled_nil {c : Course} {o : Attempt (Outcome Handled)} (hc : c.accepted = [])
    (ho : recorded o = []) (hdup : o ≠ .done (.ok .duplicate)) : Settled p i c o where
  accepted := hc.trans ho.symm
  resolution := fun d r hr => by
    rw [hr] at ho
    exact nomatch ho
  duplicate := fun h => absurd h hdup

/-- A course of an incident, which has not begun if the token had fired before. -/
def Within (early : Bool) (p : Pipeline) (i : Incident) (c : Course) : Prop :=
  Passage p i c ∧ (early = true → c.begun = [])

theorem Passage.within {c : Course} (h : Passage p i c) : Within false p i c :=
  ⟨h, fun he => absurd he Bool.false_ne_true⟩

/-- A course while a call waits: it has begun, and the buffer has taken nothing
yet. -/
structure Unsent (early : Bool) (p : Pipeline) (i : Incident) (c : Course) : Prop where
  /-- It is a course of the incident. -/
  passage : Passage p i c
  /-- The token had not fired before. -/
  late : early = false
  /-- The buffer has taken nothing. -/
  accepted : c.accepted = []

theorem Unsent.within {c : Course} (h : Unsent false p i c) : Within false p i c :=
  h.passage.within

/-! ## The parts -/

/-- What the gate says, and the course that has led to it. -/
def Judged (p : Pipeline) (i : Incident) (c : Course) : Attempt (Outcome Bool) → Prop
  | .done (.ok true) => c.begun = [p.gateCall i] ∧ c.accepted = []
  | .done (.ok false) => ∃ verdict, p.gate.Admits verdict ∧ c = ⟨[p.gateCall i], [verdict], []⟩
  | _ => c.accepted = []

/-- **At the gate** the dedup store is asked once. -/
theorem always_isDuplicate :
    (p.gate.isDuplicate i.id).run.Always false (Within false p i) (Unsent false p i) (Judged p i)
      {} := by
  have hasked : Unsent false p i ⟨[p.gateCall i], [], []⟩ :=
    ⟨.atGate [] (Nat.zero_le 1), rfl, rfl⟩
  have htold : ∀ reply, Within false p i ⟨[p.gateCall i], [reply], []⟩ :=
    fun reply => (Passage.atGate [reply] (Nat.le_refl 1)).within
  unfold Gate.isDuplicate Procedure.outcome
  refine always_run_lift_bind (always_ask (q := p.gateCall i) Passage.outside.within hasked htold
    fun reply => ?_)
  rcases reply with (f | fresh) | text
  · dsimp only
    split
    · next hpolicy => exact always_run_report_bind ⟨htold _, .done (.error f), hpolicy, rfl⟩
    · exact ⟨htold _, rfl⟩
  · cases fresh with
    | true => exact always_run_report_bind ⟨htold _, .done (.ok true), rfl, rfl⟩
    | false => exact always_run_report_bind ⟨htold _, rfl, rfl⟩
  · exact rfl

/-- What letting an incident in came to, and the course that has led to it. -/
def Entered (p : Pipeline) (i : Incident) (c : Course) : Attempt (Outcome Admission) → Prop
  | .done (.ok .duplicate) => c.begun = [p.gateCall i] ∧ c.accepted = []
  | .done (.ok (.accepted _)) => ∃ verdict lookups, p.gate.Admits verdict
    ∧ (∀ q ∈ lookups, q.IsLookup) ∧ c = ⟨p.gateCall i :: lookups, [verdict], []⟩
  | _ => c.accepted = []

/-- Inside, and nothing but memories looked for. -/
def Inside (p : Pipeline) (i : Incident) (verdict : Attempt (Outcome Bool)) (c : Course) : Prop :=
  ∃ lookups, (∀ q ∈ lookups, q.IsLookup) ∧ c = ⟨p.gateCall i :: lookups, [verdict], []⟩

theorem Inside.asked {verdict : Attempt (Outcome Bool)} {c : Course} {q : Call}
    (hq : q.IsLookup) (h : Inside p i verdict c) : Inside p i verdict (c.asked q) := by
  obtain ⟨lookups, hlookups, rfl⟩ := h
  refine ⟨lookups ++ [q], fun o ho => ?_, rfl⟩
  rcases List.mem_append.mp ho with ho | ho
  · exact hlookups o ho
  · exact List.mem_singleton.mp ho ▸ hq

theorem Inside.unsent {verdict : Attempt (Outcome Bool)} {c : Course}
    (hpassed : p.gate.Admits verdict) (h : Inside p i verdict c) : Unsent false p i c := by
  obtain ⟨lookups, hlookups, rfl⟩ := h
  exact ⟨.inside hpassed hlookups, rfl, rfl⟩

/-- **Enrichment** under the token, inside. -/
theorem always_enrich {verdict : Attempt (Outcome Bool)} (hpassed : p.gate.Admits verdict)
    (goal operation : String) {c : Course} (hc : Inside p i verdict c) :
    ((Procedure.ofRoutine (p.retriever.enrich i goal)).cancellable operation).run.Always false
      (Within false p i) (Unsent false p i) (fun c _ => Inside p i verdict c) c := by
  refine always_cancellable (hc.unsent hpassed).within hc fun _ => ?_
  show Always _ _ _ _ (p.retriever.enrich i goal >>= fun goal =>
    (.done (.ok goal) : Routine (Outcome String))) _
  have hstays := p.retriever.staysIn_enrich (fun _ _ => Inside.asked) i goal c false hc
  refine always_bind (hstays.mono (fun c hc => (hc.unsent hpassed).within)
    (fun c hc => ⟨hc.unsent hpassed, (hc.unsent hpassed).within, hc⟩) fun c o _ hc => ?_)
  cases o with
  | done goal => exact ⟨(hc.unsent hpassed).within, hc⟩
  | brokenOff text => exact hc

/-- **On the way in** the gate comes first, and lookups after it. -/
theorem always_letIn (early : Bool) (goal : String) :
    (p.letIn i goal).run.Always early (Within early p i) (Unsent early p i) (Entered p i) {} := by
  have houtside : Within early p i {} := ⟨.outside, fun _ => rfl⟩
  unfold letIn
  refine always_run_report_bind (always_run_bind (always_cancellable houtside rfl fun hlate => ?_))
  subst hlate
  refine always_isDuplicate.mono (fun _ => id) (fun c hc => ⟨hc, hc.within, hc.accepted⟩)
    fun c o hwithin hc => ?_
  rcases o with (f | duplicate) | text
  · exact hc
  · cases duplicate with
    | true => exact ⟨hwithin, hc⟩
    | false =>
      obtain ⟨verdict, hpassed, rfl⟩ := hc
      have hinside : Inside p i verdict ⟨[p.gateCall i], [verdict], []⟩ :=
        ⟨[], fun _ hq => absurd hq List.not_mem_nil, rfl⟩
      refine always_run_bind ((always_enrich hpassed goal _ hinside).mono (fun _ => id)
        (fun _ => id) fun c o hwithin hc => ?_)
      have hunsent := hc.unsent hpassed
      obtain ⟨lookups, hlookups, rfl⟩ := hc
      rcases o with (f | goal) | text
      · exact rfl
      · exact ⟨hunsent.within, verdict, lookups, hpassed, hlookups, rfl⟩
      · exact rfl
  · exact hc

/-- The resolution that is in the buffer after an attempt to put it there. -/
def written (r : Resolution) : Attempt (Outcome Unit) → List Resolution
  | .done (.ok ()) => [r]
  | _ => []

/-- The course of an incident that a diagnosis is looked for. -/
def reasoningCourse (p : Pipeline) (i : Incident) (verdict : Attempt (Outcome Bool))
    (lookups : List Call) (goal : String) : Course :=
  ⟨p.gateCall i :: (lookups ++ [.resolve i goal]), [verdict], []⟩

/-- The course of an incident whose resolution goes to the buffer. -/
def recordingCourse (p : Pipeline) (i : Incident) (verdict : Attempt (Outcome Bool))
    (lookups : List Call) (goal : String) (d : Diagnosis) (accepted : List Resolution) : Course :=
  ⟨p.gateCall i :: (lookups ++ [.resolve i goal]) ++ [.send (p.resolution i d)], [verdict],
    accepted⟩

section Recording

variable {verdict : Attempt (Outcome Bool)} {lookups : List Call}
  (hpassed : p.gate.Admits verdict) (hlookups : ∀ q ∈ lookups, q.IsLookup)

include hpassed hlookups

theorem within_reasoning (goal : String) :
    Within false p i (p.reasoningCourse i verdict lookups goal) :=
  (Passage.reasoning hpassed hlookups).within

theorem within_recording (goal : String) (d : Diagnosis) {accepted : List Resolution}
    (haccepted : accepted <+: [p.resolution i d]) :
    Within false p i (p.recordingCourse i verdict lookups goal d accepted) :=
  (Passage.recording hpassed hlookups haccepted).within

/-- **Recording** leaves the resolution in the buffer exactly if it does not
fail. -/
theorem always_record (goal : String) (d : Diagnosis) :
    (record (p.resolution i d)).run.Always false (Within false p i) (Unsent false p i)
      (fun c o => c.accepted = written (p.resolution i d) o)
      (p.reasoningCourse i verdict lookups goal) := by
  have hbefore := within_reasoning (i := i) hpassed hlookups goal
  have hsending := within_recording (i := i) hpassed hlookups goal d List.nil_prefix
  have hsent := within_recording (i := i) hpassed hlookups goal d (List.prefix_refl _)
  unfold record
  refine always_run_lift_bind (always_watching hbefore ?_ fun _ => ?_)
  · exact always_run_report_bind ⟨hbefore, rfl⟩
  · refine always_ask (q := .send (p.resolution i d)) hbefore
      ⟨⟨hsending.1, rfl, rfl⟩, hsending, ?_⟩
      (fun reply => ?_) fun reply => ?_
    · exact always_run_report_bind ⟨hsending, rfl⟩
    · rcases reply with (f | ⟨⟩) | text
      · exact hsending
      · exact hsent
      · exact hsending
    · rcases reply with (f | ⟨⟩) | text
      · exact ⟨hsending, rfl⟩
      · refine always_run_lift_bind (always_perform hsent trivial fun size _ => ?_)
        exact ⟨hsent, trivial, fun _ _ => ⟨hsent, rfl⟩⟩
      · exact rfl

end Recording

/-- **The whole way of an incident**: its course is a passage at every moment,
and what it ends with means what it says. -/
theorem always_handle (p : Pipeline) (i : Incident) (early : Bool) (goal : String) :
    (p.handle i goal).run.Always early (Within early p i) (Unsent early p i) (Settled p i) {} := by
  unfold handle
  refine always_run_bind ((always_letIn early goal).mono (fun _ => id) (fun _ => id)
    fun c o hwithin hc => ?_)
  rcases o with (f | (_ | goal)) | text
  · exact settled_nil hc rfl (by simp)
  · exact ⟨hwithin, hc.2, fun _ _ h => absurd h (by simp), fun _ => hc.1⟩
  · obtain ⟨verdict, lookups, hpassed, hlookups, rfl⟩ := hc
    -- what has passed the gate has begun
    have hlate : early = false := by
      cases early with
      | false => rfl
      | true => exact absurd (hwithin.2 rfl) (List.cons_ne_nil _ _)
    subst hlate
    have hreasoning := within_reasoning (i := i) hpassed hlookups goal
    have hnothing : ∀ {o}, recorded o = [] → o ≠ .done (.ok .duplicate) →
        Settled p i (p.reasoningCourse i verdict lookups goal) o :=
      fun ho hdup => settled_nil rfl ho hdup
    refine always_run_bind (always_cancellable hwithin (settled_nil rfl rfl (by simp)) fun _ => ?_)
    refine always_ask (q := .resolve i goal) hwithin
      ⟨⟨hreasoning.1, rfl, rfl⟩, hreasoning, hnothing rfl (by simp)⟩ (fun _ => hreasoning)
      fun reply => ?_
    rcases reply with (f | (_ | d)) | text
    · exact hnothing rfl (by simp)
    · exact always_run_report_bind ⟨hreasoning, hnothing rfl (by simp)⟩
    · refine always_run_report_bind (always_run_bind
        ((always_record hpassed hlookups goal d).mono (fun _ => id) (fun _ => id)
          fun c o hwithin hc => ?_))
      rcases o with (f | ⟨⟩) | text
      · exact settled_nil hc rfl (by simp)
      · refine ⟨hwithin, hc, fun d' r h => ?_, fun h => nomatch h⟩
        obtain ⟨rfl, rfl⟩ := Handled.resolved.inj (Except.ok.inj (Attempt.done.inj h))
        rfl
      · exact settled_nil hc rfl (by simp)
    · exact hnothing rfl (by simp)
  · exact settled_nil hc rfl (by simp)

end Pipeline

end IncidentMemory
