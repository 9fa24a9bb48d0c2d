import IncidentMemory.LogWriter
import Mathlib.Data.List.Induction

/-!
# What a sink is offered by the log writer

A writer is used in steps: pieces of a line are written, and now and then it is flushed
or dropped. What a piece is and where a line ends are two matters. The bytes written
between two ends make up an *event*, and a run offers the text of each event that is
not empty once, whatever pieces it came in and whatever the sink refuses
(`LogWriter.offers_run`). So it is enough to know the bytes that are held back when an
event ends, and these are read off the steps from the end, without running anything.
-/

namespace IncidentMemory

/-- The text of a write. -/
def SinkCall.text? : SinkCall → Option String
  | .write text => some text
  | .flush => none

namespace LogWriter

/-- **What is done with a writer.** When one is dropped the next one is made. -/
inductive Step where
  /-- Bytes are written. -/
  | write (bytes : List UInt8)
  /-- The writer is flushed. -/
  | flush
  /-- The writer is dropped. -/
  | drop
  deriving DecidableEq

/-- What a step is answered with. -/
inductive Reply (ε : Type) where
  /-- So many bytes were taken. -/
  | taken (count : Nat)
  /-- The sink was flushed, or failed. -/
  | flushed (answer : Except ε Unit)
  /-- A drop has no answer. -/
  | dropped

/-- A writer, and the calls that were made of its sink. -/
structure Logging where
  /-- The writer. -/
  writer : LogWriter := {}
  /-- The calls, in order. -/
  calls : List SinkCall := []

variable {ε : Type}

/-- **One step**, and its answer. -/
def Logging.step (sink : Sink ε) (l : Logging) : Step → Logging × Reply ε
  | .write bytes =>
    let (writer, count) := l.writer.write bytes
    (⟨writer, l.calls⟩, .taken count)
  | .flush =>
    let (writer, calls, answer) := l.writer.flushInto sink l.calls
    (⟨writer, l.calls ++ calls⟩, .flushed answer)
  | .drop => (⟨{}, l.calls ++ l.writer.drop⟩, .dropped)

/-- **Steps one after another**, with a sink. -/
def Logging.after (sink : Sink ε) (l : Logging) (steps : List Step) : Logging :=
  steps.foldl (fun l s => (l.step sink s).1) l

/-- Steps from the first on. -/
def run (sink : Sink ε) (steps : List Step) : Logging :=
  Logging.after sink {} steps

/-! ## Events -/

namespace Step

/-- The bytes that are written by a step. -/
def bytes : Step → List UInt8
  | .write bytes => bytes
  | _ => []

/-- Whether a step is a write. -/
def isWrite : Step → Bool
  | .write _ => true
  | _ => false

end Step

/-- **The bytes held back after steps**: those written after the last one that is no write. -/
def heldBack (steps : List Step) : List UInt8 :=
  (steps.reverse.takeWhile Step.isWrite).reverse.flatMap Step.bytes

/-- The events that end in steps, if some bytes were held back before. -/
def eventsFrom (held : List UInt8) : List Step → List (List UInt8)
  | [] => []
  | .write bytes :: steps => eventsFrom (held ++ bytes) steps
  | _ :: steps => held :: eventsFrom [] steps

/-- **The events that end in steps**: at every flush and every drop, the bytes that were
written since the one before. -/
def events (steps : List Step) : List (List UInt8) :=
  eventsFrom [] steps

theorem heldBack_concat (past : List Step) (s : Step) :
    heldBack (past ++ [s]) = if s.isWrite then heldBack past ++ s.bytes else [] := by
  unfold heldBack
  rw [List.reverse_append, List.reverse_singleton, List.singleton_append, List.takeWhile_cons]
  split
  · rw [List.reverse_cons, List.flatMap_append, List.flatMap_singleton]
  · rfl

/-! ## Single steps -/

theorem flushInto_nil (sink : Sink ε) (made : List SinkCall) :
    (⟨[]⟩ : LogWriter).flushInto sink made = (⟨[]⟩, [.flush], sink made .flush) := by
  show ((⟨[]⟩ : LogWriter), [SinkCall.flush], sink (made ++ []) .flush) = _
  rw [List.append_nil]

theorem due_of_ne_nil {held : List UInt8} (h : held ≠ []) :
    (⟨held⟩ : LogWriter).due = [.write (Redaction.redact (Text.decodeLossy held))] := by
  unfold due
  rw [if_neg (by simpa using h)]
  rfl

theorem flushInto_of_ok {sink : Sink ε} {made : List SinkCall} {held : List UInt8} (h : held ≠ [])
    (taken : sink made (.write (Redaction.redact (Text.decodeLossy held))) = .ok ()) :
    (⟨held⟩ : LogWriter).flushInto sink made
      = (⟨[]⟩, [.write (Redaction.redact (Text.decodeLossy held)), .flush],
          sink (made ++ [.write (Redaction.redact (Text.decodeLossy held))]) .flush) := by
  unfold flushInto offer
  rw [due_of_ne_nil h]
  simp only [taken]
  rfl

theorem flushInto_of_error {sink : Sink ε} {made : List SinkCall} {held : List UInt8}
    (h : held ≠ []) {e : ε}
    (failed : sink made (.write (Redaction.redact (Text.decodeLossy held))) = .error e) :
    (⟨held⟩ : LogWriter).flushInto sink made
      = (⟨[]⟩, [.write (Redaction.redact (Text.decodeLossy held))], .error e) := by
  unfold flushInto offer
  rw [due_of_ne_nil h]
  simp only [failed]

/-- **What a step comes to**, by the bytes that are held back and the calls that were made
before: the calls that it makes, and its answer. -/
inductive ComesTo (sink : Sink ε) (made : List SinkCall) (held : List UInt8) :
    Step → List SinkCall → Reply ε → Prop where
  /-- A write makes no call, and all its bytes are taken. -/
  | write (bytes : List UInt8) : ComesTo sink made held (.write bytes) [] (.taken bytes.length)
  /-- If nothing is held back, a flush flushes the sink. -/
  | flushNothing (h : held = []) :
    ComesTo sink made held .flush [.flush] (.flushed (sink made .flush))
  /-- If the sink takes what is held back, it is flushed afterwards. -/
  | flush (h : held ≠ [])
    (taken : sink made (.write (Redaction.redact (Text.decodeLossy held))) = .ok ()) :
    ComesTo sink made held .flush [.write (Redaction.redact (Text.decodeLossy held)), .flush]
      (.flushed (sink (made ++ [.write (Redaction.redact (Text.decodeLossy held))]) .flush))
  /-- If the sink fails to take it, its error is the answer, and it is not flushed. -/
  | fail (h : held ≠ []) (e : ε)
    (failed : sink made (.write (Redaction.redact (Text.decodeLossy held))) = .error e) :
    ComesTo sink made held .flush [.write (Redaction.redact (Text.decodeLossy held))]
      (.flushed (.error e))
  /-- If nothing is held back, a drop makes no call. -/
  | dropNothing (h : held = []) : ComesTo sink made held .drop [] .dropped
  /-- A drop offers what is held back, and does not ask what became of it. -/
  | drop (h : held ≠ []) :
    ComesTo sink made held .drop [.write (Redaction.redact (Text.decodeLossy held))] .dropped

namespace Logging

/-- What is held back after a step. -/
theorem step_pending (sink : Sink ε) (l : Logging) (s : Step) :
    (l.step sink s).1.writer.pending = if s.isWrite then l.writer.pending ++ s.bytes else [] := by
  cases s with
  | write bytes => rfl
  | flush =>
    rw [if_neg (by simp [Step.isWrite])]
    show (l.writer.flushInto sink l.calls).1.pending = []
    unfold flushInto
    split <;> rfl
  | drop => rfl

/-- **A step adds its calls to those made before.** -/
theorem step_comesTo (sink : Sink ε) (l : Logging) (s : Step) :
    ∃ calls, (l.step sink s).1.calls = l.calls ++ calls
      ∧ ComesTo sink l.calls l.writer.pending s calls (l.step sink s).2 := by
  obtain ⟨⟨held⟩, made⟩ := l
  cases s with
  | write bytes => exact ⟨[], (List.append_nil made).symm, .write bytes⟩
  | flush =>
    refine ⟨((⟨held⟩ : LogWriter).flushInto sink made).2.1, rfl, ?_⟩
    show ComesTo sink made held .flush _ (.flushed ((⟨held⟩ : LogWriter).flushInto sink made).2.2)
    by_cases h : held = []
    · subst h
      rw [flushInto_nil]
      exact .flushNothing rfl
    · cases hanswer : sink made (.write (Redaction.redact (Text.decodeLossy held))) with
      | ok u =>
        rw [flushInto_of_ok h hanswer]
        exact .flush h hanswer
      | error e =>
        rw [flushInto_of_error h hanswer]
        exact .fail h e hanswer
  | drop =>
    refine ⟨_, rfl, ?_⟩
    show ComesTo sink made held .drop (⟨held⟩ : LogWriter).due .dropped
    by_cases h : held = []
    · subst h
      exact .dropNothing rfl
    · rw [due_of_ne_nil h]
      exact .drop h

/-- The texts that a step offers. -/
theorem step_texts (sink : Sink ε) (l : Logging) (s : Step) :
    (l.step sink s).1.calls.filterMap SinkCall.text? = l.calls.filterMap SinkCall.text?
      ++ ((eventsFrom l.writer.pending [s]).filter (· ≠ [])).map fun bytes =>
          Redaction.redact (Text.decodeLossy bytes) := by
  obtain ⟨calls, hcalls, hcomes⟩ := l.step_comesTo sink s
  rw [hcalls, List.filterMap_append]
  congr 1
  generalize l.writer.pending = held at hcomes
  generalize (l.step sink s).2 = reply at hcomes
  cases hcomes with
  | write bytes => rfl
  | flushNothing h => rw [h]; rfl
  | flush h taken => simp [eventsFrom, SinkCall.text?, h]
  | fail h e failed => simp [eventsFrom, SinkCall.text?, h]
  | dropNothing h => rw [h]; rfl
  | drop h => simp [eventsFrom, SinkCall.text?, h]

/-! ## Runs -/

theorem after_cons (sink : Sink ε) (l : Logging) (s : Step) (steps : List Step) :
    l.after sink (s :: steps) = (l.step sink s).1.after sink steps :=
  rfl

theorem after_append (sink : Sink ε) (l : Logging) (past steps : List Step) :
    l.after sink (past ++ steps) = (l.after sink past).after sink steps :=
  List.foldl_append

/-- **Pieces may be put together.** -/
theorem after_writes (sink : Sink ε) (l : Logging) (pieces : List (List UInt8)) :
    l.after sink (pieces.map .write) = l.after sink [.write pieces.flatten] := by
  induction pieces generalizing l with
  | nil =>
    obtain ⟨⟨held⟩, made⟩ := l
    show (⟨⟨held⟩, made⟩ : Logging) = ⟨⟨held ++ []⟩, made⟩
    rw [List.append_nil]
  | cons piece pieces ih =>
    rw [List.map_cons, after_cons, ih]
    show (⟨⟨(l.writer.pending ++ piece) ++ pieces.flatten⟩, l.calls⟩ : Logging)
      = ⟨⟨l.writer.pending ++ (piece :: pieces).flatten⟩, l.calls⟩
    rw [List.flatten_cons, List.append_assoc]

/-- A step may end an event; the events of the steps after it go on from what it leaves. -/
theorem eventsFrom_cons (held : List UInt8) (s : Step) (steps : List Step) :
    eventsFrom held (s :: steps)
      = eventsFrom held [s] ++ eventsFrom (if s.isWrite then held ++ s.bytes else []) steps := by
  cases s <;> rfl

/-- Each event is offered, as it ends. -/
theorem after_texts (sink : Sink ε) (l : Logging) (steps : List Step) :
    (l.after sink steps).calls.filterMap SinkCall.text? = l.calls.filterMap SinkCall.text?
      ++ ((eventsFrom l.writer.pending steps).filter (· ≠ [])).map fun bytes =>
          Redaction.redact (Text.decodeLossy bytes) := by
  induction steps generalizing l with
  | nil => exact (List.append_nil _).symm
  | cons s steps ih =>
    rw [after_cons, ih, step_texts, step_pending, eventsFrom_cons _ s steps, List.filter_append,
      List.map_append, List.append_assoc]

/-- Every byte that is written is held back, until the event ends that it belongs to. -/
theorem after_bytes (sink : Sink ε) (l : Logging) (steps : List Step) :
    (eventsFrom l.writer.pending steps).flatten ++ (l.after sink steps).writer.pending
      = l.writer.pending ++ steps.flatMap Step.bytes := by
  induction steps generalizing l with
  | nil => exact (List.append_nil _).symm
  | cons s steps ih =>
    have hrest := ih (l.step sink s).1
    rw [step_pending] at hrest
    rw [eventsFrom_cons, List.flatten_append, List.append_assoc, after_cons, hrest,
      List.flatMap_cons, ← List.append_assoc, ← List.append_assoc]
    congr 1
    cases s <;> simp [eventsFrom, Step.isWrite, Step.bytes]

end Logging

/-- What is held back is known without a run. -/
theorem run_pending (sink : Sink ε) (steps : List Step) :
    (run sink steps).writer.pending = heldBack steps := by
  induction steps using List.reverseRecOn with
  | nil => rfl
  | append_singleton past s ih =>
    have hstep := (run sink past).step_pending sink s
    rw [ih, ← heldBack_concat] at hstep
    rw [run, Logging.after_append]
    exact hstep

/-- **A sink is offered the text of every event once, and nothing else.** Whatever steps are taken
and whatever the sink refuses, the texts of the writes it is offered are, in order, those of the
events that are not empty: their bytes, in one piece, as text and with the secrets masked. Every
byte written belongs to one event or is held back still, so none is offered twice. What a single
step comes to depends on the bytes held back and on the sink's answers only: all bytes of a write
are taken, a flush that cannot write reports the sink's error and does not flush it, and a drop
is silent. The pieces in which bytes are written make no difference to what is offered or held
back. -/
theorem offers_run (sink : Sink ε) :
    (∀ steps, (run sink steps).calls.filterMap SinkCall.text?
          = ((events steps).filter (· ≠ [])).map fun bytes =>
              Redaction.redact (Text.decodeLossy bytes))
      ∧ (∀ steps, (events steps).flatten ++ heldBack steps = steps.flatMap Step.bytes)
      ∧ (∀ past s, ∃ calls, run sink (past ++ [s]) = ((run sink past).step sink s).1
          ∧ (run sink (past ++ [s])).calls = (run sink past).calls ++ calls
          ∧ ComesTo sink (run sink past).calls (heldBack past) s calls
              ((run sink past).step sink s).2)
      ∧ ∀ past (pieces : List (List UInt8)) rest, run sink (past ++ pieces.map .write ++ rest)
          = run sink (past ++ .write pieces.flatten :: rest) := by
  refine ⟨fun steps => ?_, fun steps => ?_, fun past s => ?_, fun past pieces rest => ?_⟩
  · exact Logging.after_texts sink {} steps
  · rw [← run_pending sink]
    exact Logging.after_bytes sink {} steps
  · obtain ⟨calls, hcalls, hcomes⟩ := (run sink past).step_comesTo sink s
    have hrun : run sink (past ++ [s]) = ((run sink past).step sink s).1 :=
      Logging.after_append sink {} past [s]
    rw [run_pending] at hcomes
    exact ⟨calls, hrun, hrun ▸ hcalls, hcomes⟩
  · rw [run, run, Logging.after_append, Logging.after_append, Logging.after_writes,
      ← Logging.after_append, ← Logging.after_append]
    rfl

end LogWriter

end IncidentMemory
