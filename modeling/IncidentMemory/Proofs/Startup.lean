import IncidentMemory.Config.Environment
import IncidentMemory.Proofs.Journal
import IncidentMemory.Service.Startup

/-!
# What a start can break off at

Settings are there for every configuration and every environment: what makes no
sense is replaced. One of them is not looked at closely enough. A capacity of
zero is replaced, but one that is too large for a buffer is handed on, and the
buffer cannot be made. `Startup.start_brokenOff_iff` says that this is the only
value at which a start breaks off by itself.

A routine that breaks off only where one of its calls does is called firm. All
parts of a start are, but for the check of the buffer.
-/

namespace IncidentMemory

namespace Routine

variable {α β ε : Type}

/-- **That a routine breaks off only where one of its calls does.** -/
def Firm (r : Routine α) : Prop :=
  ∀ j text, r.Runs j (.brokenOff text) → ∃ q, Entry.heard q (.brokenOff text) ∈ j

theorem firm_done (a : α) : (done a).Firm :=
  fun _ _ h => nomatch h.2

theorem firm_perform (a : Action) : (perform a).Firm := by
  rintro j text ⟨res, rest, -, -, hbroken⟩
  exact nomatch hbroken

theorem firm_ask (q : Call) : (ask q).Firm := by
  rintro j text ⟨reply | reason, rest, rfl, -, hbroken⟩
  · exact nomatch hbroken
  · obtain rfl := Attempt.brokenOff.inj hbroken
    exact ⟨q, List.mem_cons_self⟩

theorem Firm.bind {r : Routine α} {f : α → Routine β} (hr : r.Firm) (hf : ∀ a, (f a).Firm) :
    (r >>= f).Firm := by
  intro j text h
  rcases Runs.bind h with ⟨j₁, j₂, a, rfl, -, hsecond⟩ | ⟨reason, hfirst, hsame⟩
  · obtain ⟨q, hq⟩ := hf a j₂ text hsecond
    exact ⟨q, List.mem_append_right _ hq⟩
  · obtain rfl := Attempt.brokenOff.inj hsame
    exact hr j text hfirst

/-- A composition of routines that may fail. -/
theorem Firm.run_bind {p : ExceptT ε Routine α} {f : α → ExceptT ε Routine β} (hp : p.run.Firm)
    (hf : ∀ a, (f a).run.Firm) : (p >>= f).run.Firm := by
  rw [ExceptT.run_bind]
  refine hp.bind fun o => ?_
  cases o with
  | ok a => exact hf a
  | error e => exact firm_done _

/-- A routine in one that may fail. -/
theorem Firm.run_lift_bind {r : Routine α} {f : α → ExceptT ε Routine β} (hr : r.Firm)
    (hf : ∀ a, (f a).run.Firm) : ((ExceptT.lift r : ExceptT ε Routine α) >>= f).run.Firm := by
  rw [ExceptT.run_bind_lift]
  exact hr.bind hf

/-- A firm routine has a result if no call breaks off. -/
theorem Firm.exists_done {r : Routine α} (hr : r.Firm) {j : List Entry} {o : Attempt α}
    (h : r.Runs j o) (hj : ∀ q text, Entry.heard q (.brokenOff text) ∉ j) : ∃ a, o = .done a := by
  cases o with
  | done a => exact ⟨a, rfl⟩
  | brokenOff text =>
    obtain ⟨q, hq⟩ := hr j text h
    exact absurd hq (hj q text)

end Routine

open Routine

theorem Memory.firm_prepareCollection (collection : String) (dims : Nat) :
    (prepareCollection collection dims).Firm := by
  unfold prepareCollection Procedure.ensureCollection
  refine Firm.bind ?_ fun o => ?_
  · refine Firm.run_bind (firm_ask (.hasCollection collection)) fun there => ?_
    split
    · exact firm_done _
    · refine Firm.run_bind (firm_ask (.createCollection collection dims .cosine)) fun _ => ?_
      exact firm_done _
  · split <;> exact (firm_perform (.log _)).bind fun _ => firm_done _

theorem Background.firm_start : Background.start.run.Firm := by
  unfold Background.start
  refine Firm.run_lift_bind (firm_perform .takeReader) fun free => ?_
  split
  · exact firm_done _
  · refine Firm.run_lift_bind (firm_perform (.spawn .worker)) fun _ => ?_
    refine Firm.run_lift_bind (firm_perform (.setWorkerState .running)) fun _ => ?_
    refine Firm.run_lift_bind (firm_perform (.spawn .supervisor)) fun _ => ?_
    exact (firm_perform (.log _)).bind fun _ => firm_done _

namespace Settings

/-- A capacity that can be used is. -/
theorem positiveOr_le_iff {default bound : Nat} (hdefault : default ≤ bound) (complaint : String)
    (n : Nat) : (positiveOr default complaint n).value ≤ bound ↔ n ≤ bound := by
  unfold positiveOr
  split
  · next hzero => exact iff_of_true hdefault (by omega)
  · exact Iff.rfl

end Settings

/-- **A buffer can be made exactly if its capacity is not too large.** -/
theorem Buffer.exists_create_iff {α : Type} (capacity : Nat) :
    (∃ b : Buffer α, (create capacity).value = .done b) ↔ capacity ≤ maxCapacity := by
  unfold create
  split
  · next hzero => exact iff_of_true ⟨_, rfl⟩ (hzero ▸ Nat.zero_le _)
  · split
    · next hlarge => exact iff_of_false (fun ⟨_, h⟩ => nomatch h) (Nat.not_le.mpr hlarge)
    · next hfits => exact iff_of_true ⟨_, rfl⟩ (Nat.not_lt.mp hfits)

namespace Startup

variable {p : Plan}

/-- The check of the buffer is passed if the buffer can be made. -/
theorem Plan.checkBuffer_of_le (h : p.settings.bufferCapacity ≤ Buffer.maxCapacity) :
    p.checkBuffer = .done () := by
  obtain ⟨b, hb⟩ := (Buffer.exists_create_iff (α := Resolution) _).mpr h
  simp only [checkBuffer, hb]
  rfl

/-- Otherwise the check breaks off. -/
theorem Plan.checkBuffer_of_lt (h : Buffer.maxCapacity < p.settings.bufferCapacity) :
    ∃ text, p.checkBuffer = .brokenOff text := by
  cases hmade : (Buffer.create (α := Resolution) p.settings.bufferCapacity).value with
  | done b => exact absurd ((Buffer.exists_create_iff _).mp ⟨b, hmade⟩) (Nat.not_le.mpr h)
  | brokenOff text =>
    refine ⟨text, ?_⟩
    simp only [checkBuffer, hmade]

/-- The start from the worker on. -/
def Plan.startWorker (p : Plan) (listen : SocketAddress → Except String Unit) :
    Starting SocketAddress := do
  decided ((← always Background.start.run).mapError .part)
  always (Routine.report p.workerStartedEvent)
  always (Routine.report (← decided p.checkKey))
  let address ← decided p.address
  always (Routine.report (event "Starting kubemind-server" [("addr", .str address.text)]))
  decided ((listen address).mapError .listening)
  return address

theorem Plan.firm_startWorker (p : Plan) (listen : SocketAddress → Except String Unit) :
    (p.startWorker listen).run.Firm := by
  have hdecided : ∀ {α : Type} (e : Except Fault α), (decided e).run.Firm := fun e => firm_done e
  have hreport : ∀ event, (Routine.report event).Firm := fun event => firm_perform (.log event)
  unfold startWorker
  refine Firm.run_lift_bind Background.firm_start fun o => ?_
  refine Firm.run_bind (hdecided _) fun _ => ?_
  refine Firm.run_lift_bind (hreport _) fun _ => ?_
  refine Firm.run_bind (hdecided _) fun key => ?_
  refine Firm.run_lift_bind (hreport key) fun _ => ?_
  refine Firm.run_bind (hdecided _) fun address => ?_
  refine Firm.run_lift_bind (hreport _) fun _ => ?_
  refine Firm.run_bind (hdecided _) fun _ => ?_
  exact firm_done _

/-- A start prepares the collection, checks the buffer, and then starts the
worker. -/
theorem Plan.start_run (p : Plan) (listen : SocketAddress → Except String Unit) :
    (p.start listen).run
      = Memory.prepareCollection p.service.collection p.settings.dims >>= fun _ =>
          p.checkBuffer >>= fun _ => (p.startWorker listen).run := by
  unfold start always
  rw [ExceptT.run_bind_lift]
  refine congrArg (_ >>= ·) (funext fun _ => ?_)
  exact ExceptT.run_bind_lift _ _

/-- **A start breaks off exactly if the buffer is too large.** For every
configuration and every environment laid over it, the buffer can be made for the
settings exactly if the capacity they were derived from is not too large. Whatever
else was said, and whatever the store answers, a start with these settings breaks
off exactly if it is, provided that no backend breaks off. -/
theorem start_brokenOff_iff (c : Config) (env : Environment) {p : Plan}
    (hp : p.settings = (c.overlay env).value.settings.value)
    (listen : SocketAddress → Except String Unit) {j : List Entry}
    {o : Attempt (Except Fault SocketAddress)} (h : (p.start listen).run.Runs j o)
    (hj : ∀ q text, Entry.heard q (.brokenOff text) ∉ j) :
    ((∃ b : Buffer Resolution, (Buffer.create p.settings.bufferCapacity).value = .done b)
        ↔ (c.overlay env).value.bufferCapacity ≤ Buffer.maxCapacity)
      ∧ ((∃ text, o = .brokenOff text)
        ↔ Buffer.maxCapacity < (c.overlay env).value.bufferCapacity) := by
  have hcapacity : p.settings.bufferCapacity ≤ Buffer.maxCapacity
      ↔ (c.overlay env).value.bufferCapacity ≤ Buffer.maxCapacity := by
    rw [hp]
    exact Settings.positiveOr_le_iff (by decide) _ _
  refine ⟨(Buffer.exists_create_iff _).trans hcapacity, ?_⟩
  rw [← Nat.not_le, ← hcapacity]
  rw [Plan.start_run] at h
  have hprepare := Memory.firm_prepareCollection p.service.collection p.settings.dims
  by_cases hfits : p.settings.bufferCapacity ≤ Buffer.maxCapacity
  · rw [Plan.checkBuffer_of_le hfits] at h
    obtain ⟨a, rfl⟩ := (hprepare.bind fun _ => (firm_done ()).bind fun _ =>
      p.firm_startWorker listen).exists_done h hj
    exact iff_of_false (fun ⟨_, hbroken⟩ => nomatch hbroken) (fun hlarge => hlarge hfits)
  · obtain ⟨text, htext⟩ := Plan.checkBuffer_of_lt (Nat.not_le.mp hfits)
    rw [htext] at h
    refine iff_of_true ?_ hfits
    rcases Runs.bind h with ⟨j₁, j₂, a, rfl, -, -, ho⟩ | ⟨reason, -, ho⟩
    · exact ⟨text, ho⟩
    · exact ⟨reason, ho⟩

/-- An environment that asks for as many slots as can be counted. -/
def greedyEnvironment : Environment := fun name =>
  if name = "KUBEMIND_BUFFER_CAPACITY" then some "18446744073709551615" else none

/-- A plan for that environment, where everything is kept in memory. -/
def greedyPlan : Plan where
  settings := (({} : Config).overlay greedyEnvironment).value.settings.value
  backends := ⟨⟨.ollama, "nomic-embed-text", 768, "http://localhost:11434/api/embed", none⟩,
    { provider := .memory }, .memory⟩
  host := "127.0.0.1"
  port := 8080
  keyRequired := false
  apiKey := none

/-- The collection is there, and then the start breaks off. -/
theorem start_brokenOff_iff_greedy :
    greedyPlan.settings = (({} : Config).overlay greedyEnvironment).value.settings.value
      ∧ ∃ j o, (greedyPlan.start fun _ => .ok ()).run.Runs j o
        ∧ (∀ q text, Entry.heard q (.brokenOff text) ∉ j) ∧ ∃ text, o = .brokenOff text := by
  have hruns : (greedyPlan.start fun _ => .ok ()).run.Runs
      [.heard (.hasCollection "k8s_incidents") (.done (.ok true))]
      (.brokenOff
        "a semaphore may not have more than MAX_PERMITS permits (2305843009213693951)") :=
    ⟨.done (.ok true), [], rfl, (), [], rfl, rfl, rfl⟩
  have hfirm : ∀ q text, Entry.heard q (.brokenOff text)
      ∉ [Entry.heard (.hasCollection "k8s_incidents") (.done (.ok true))] :=
    fun q text hmem => nomatch List.mem_singleton.mp hmem
  exact ⟨rfl, _, _, hruns, hfirm,
    (start_brokenOff_iff {} greedyEnvironment rfl _ hruns hfirm).2.mpr (by decide +kernel)⟩

/-- **A capacity that the settings let pass and that is too large for a buffer.** -/
theorem create_settings_oneTooMany :
    (Buffer.create (α := Resolution)
        (({ bufferCapacity := 2305843009213693952 } : Config).overlay
          fun _ => none).value.settings.value.bufferCapacity).value
      = .brokenOff
        "a semaphore may not have more than MAX_PERMITS permits (2305843009213693951)" := by
  show (Buffer.create 2305843009213693952).value = _
  unfold Buffer.create
  rw [if_neg (by decide), if_pos (by decide)]
  exact congrArg Attempt.brokenOff (by decide +kernel)

end Startup

end IncidentMemory
