import IncidentMemory.Dedup.Markers
import IncidentMemory.Incident.Basic
import IncidentMemory.Memory.Collections

/-!
# Stand-ins

In a rehearsal the services around the pipeline are replaced by stand-ins that do as they are told:
answer, fail, break off, never answer, or make the shutdown token fire and then never answer. What
they do depends on the text they are given, or comes from a list that is gone through in order.
-/

namespace IncidentMemory.Simulation

/-- **What a stand-in does.** -/
inductive Behaviour (α : Type) where
  /-- It answers. -/
  | answers (a : α)
  /-- It fails. -/
  | fails (f : Failure)
  /-- It breaks off. -/
  | breaksOff (text : String)
  /-- It never answers. -/
  | hangs
  /-- It makes the token fire, and never answers. -/
  | cancels

/-- A stand-in that always has the same outcome. -/
def Behaviour.ofOutcome {α : Type} : Outcome α → Behaviour α
  | .ok a => .answers a
  | .error f => .fails f

/-! ## Rules -/

/-- The texts that a rule is for. -/
inductive Pattern where
  /-- Those with something in them. -/
  | contains (part : String)
  /-- One text alone. -/
  | equals (text : String)

/-- Whether a rule is for a text. -/
def Pattern.fits : Pattern → String → Bool
  | .contains part, text => Text.contains part text
  | .equals other, text => other = text

/-- **What a stand-in does with a text**: what the first rule for it says. -/
structure Rules (α : Type) where
  /-- The rules. -/
  rules : List (Pattern × Behaviour α) := []
  /-- What is done without a rule. -/
  otherwise : Behaviour α

/-- What is done with a text. -/
def Rules.behaviour {α : Type} (r : Rules α) (text : String) : Behaviour α :=
  match r.rules.find? fun rule => rule.1.fits text with
  | some rule => rule.2
  | none => r.otherwise

/-! ## Replies in order -/

/-- **What a stand-in does in turn**; the last is done again and again. -/
structure Replies (α : Type) where
  /-- What is done next. -/
  next : Behaviour α
  /-- What is done after that. -/
  later : List (Behaviour α) := []

namespace Replies

variable {α : Type}

/-- Replies from a list, or always the same answer if it is empty. -/
def ofList (default : α) : List (Behaviour α) → Replies α
  | [] => ⟨.answers default, []⟩
  | b :: bs => ⟨b, bs⟩

/-- The replies after the next one. -/
def rest (r : Replies α) : Replies α :=
  match r.later with
  | [] => r
  | b :: bs => ⟨b, bs⟩

end Replies

/-! ## Stores -/

/-- A vector store that does as it is told. -/
structure StoreScript where
  /-- What searches are answered with. -/
  search : Replies (List Hit)
  /-- What becomes of points put in. -/
  upsert : Replies Unit
  /-- What is there when a point is asked for. -/
  get : Replies (Option Point)
  /-- Whether there is a collection. -/
  has : Replies Bool
  /-- What becomes of collections to create. -/
  create : Replies Unit

/-- A vector store in a rehearsal. -/
inductive VectorStore where
  /-- One that keeps its collections in memory. -/
  | inMemory (collections : Collections)
  /-- One that does as it is told. -/
  | scripted (script : StoreScript)

/-- A dedup store in a rehearsal. -/
inductive DedupStore where
  /-- One that keeps its markers in memory. -/
  | inMemory (markers : Markers)
  /-- One that does as it is told. -/
  | scripted (replies : Replies Bool)

end IncidentMemory.Simulation
