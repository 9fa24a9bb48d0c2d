import IncidentMemory.Redaction
import IncidentMemory.Text.Utf8

/-!
# The redacting log writer

A log line reaches the writer in pieces. They are held back until the line is complete, because a
secret may be cut between two pieces; then the whole text is redacted and offered to the sink in one
write. Bytes that are no text are replaced. What the sink does not take is lost, so that no byte is
offered twice.
-/

namespace IncidentMemory

/-- What a sink is offered. -/
inductive SinkCall where
  /-- A text to write. -/
  | write (text : String)
  /-- A request to flush. -/
  | flush
  deriving DecidableEq, Repr

/-- **A sink**, by what it answers a call with after the calls that were made before. It may fail
whenever it likes, with errors of any type. -/
abbrev Sink (ε : Type) := List SinkCall → SinkCall → Except ε Unit

/-- A sink that takes either every write or none, and can always be flushed. -/
def Sink.steady (accepts : Bool) : Sink Unit := fun _ call =>
  match call with
  | .write _ => if accepts then .ok () else .error ()
  | .flush => .ok ()

/-- A writer, with the bytes it holds back. -/
structure LogWriter where
  /-- The bytes written since the last flush. -/
  pending : List UInt8 := []
  deriving DecidableEq, Repr

namespace LogWriter

/-- The text that a byte string is logged as. -/
def rendered (bytes : List UInt8) : String :=
  Redaction.redact (Text.decodeLossy bytes)

/-- Takes all bytes of a write, and says how many they are. -/
def write (w : LogWriter) (bytes : List UInt8) : LogWriter × Nat :=
  (⟨w.pending ++ bytes⟩, bytes.length)

/-- The write that is due when the line is complete; none if nothing is held back. -/
def due (w : LogWriter) : List SinkCall :=
  if w.pending.isEmpty then [] else [.write (rendered w.pending)]

/-- Offers what is held back to a sink of which the calls `made` were made before: the call that is
made, if there is one, and its answer. -/
def offer {ε : Type} (w : LogWriter) (sink : Sink ε) (made : List SinkCall) :
    List SinkCall × Except ε Unit :=
  (w.due, match w.due with
    | [] => .ok ()
    | call :: _ => sink made call)

/-- **Flushes**: offers what is held back, and then, unless the sink refused that write, flushes the
sink. The calls made are returned, and the answer to the last of them. Nothing is held back any
more, whatever the sink answered. -/
def flushInto {ε : Type} (w : LogWriter) (sink : Sink ε) (made : List SinkCall) :
    LogWriter × List SinkCall × Except ε Unit :=
  match w.offer sink made with
  | (calls, .error e) => (⟨[]⟩, calls, .error e)
  | (calls, .ok ()) => (⟨[]⟩, calls ++ [.flush], sink (made ++ calls) .flush)

/-- Flushes into a steady sink; whether all calls succeeded. -/
def flush (w : LogWriter) (accepts : Bool) : LogWriter × List SinkCall × Bool :=
  let (w', calls, answer) := w.flushInto (.steady accepts) []
  (w', calls, answer.isOk)

/-- Drops the writer: what is held back is offered, and a refusal goes unnoticed. -/
def drop (w : LogWriter) : List SinkCall :=
  w.due

end LogWriter

end IncidentMemory
