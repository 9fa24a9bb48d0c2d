import IncidentMemory.Log
import IncidentMemory.Number.Decimal
import IncidentMemory.Text.Blank

/-!
# Which events are shown

A filter is a list of directives separated by commas, such as `warn,kubemind_core=debug`. A
directive names a level, or the parts it is about and up to which level they are shown, or both. Of
the directives that are about an event the most specific one decides; without one the event is not
shown.

A directive may also be about what happens inside a span, in brackets. Nothing here does, so these
show nothing; a directive about a field without a value, though, is about every event with that
field.
-/

namespace IncidentMemory.Log

/-- **A directive of a filter.** -/
structure Directive where
  /-- What the target of a part must start with, if it is only about some parts. -/
  target : Option String := none
  /-- The field that an event must have, if it is only about some events. -/
  field : Option String := none
  /-- Whether it is only about what happens inside a span. -/
  insideSpan : Bool := false
  /-- Up to which level events are shown, if any are. -/
  most : Option Level := some .trace
  deriving DecidableEq

/-- The levels by name and by number, and how to show nothing. -/
def thresholds : List (String × Option Level) :=
  [("off", none), ("error", some .error), ("warn", some .warn), ("info", some .info),
    ("debug", some .debug), ("trace", some .trace)]

/-- Up to which level a text says events are shown. -/
def threshold? (text : String) : Option (Option Level) :=
  match Number.readWord text.toList with
  | some n => (thresholds[n]?).map (·.2)
  | none => (thresholds.find? fun (name, _) => Text.eqIgnoringCase name text).map (·.2)

namespace Directive

/-! ## Reading -/

/-- A directive that ends with a text: nothing, or an equals sign and a level, which may be missing
too. -/
def ended? (d : Directive) : List Char → Option Directive
  | [] => some d
  | ['='] => some d
  | '=' :: level => (threshold? (String.ofList level)).map fun most => { d with most }
  | _ => none

/-- A directive about a span or a field, from what follows the opening bracket. -/
def scoped? (target : Option String) (cs : List Char) : Option Directive :=
  let (_, rest) := cs.span fun c => c ≠ ']' && c ≠ '{'
  let named := rest.length < cs.length
  match rest with
  | ']' :: rest => ended? { target, insideSpan := true } rest
  | '{' :: rest =>
    let (field, rest) := rest.span (· ≠ '}')
    match rest with
    | '}' :: ']' :: rest =>
      if field.isEmpty then none
      else ended? { target
                    field := some (String.ofList (field.takeWhile (· ≠ '=')))
                    insideSpan := named || field.contains '=' } rest
    | _ => none
  | _ => none

/-- Whether a directive may start with a character. -/
def isStart (c : Char) : Bool :=
  c.isAlphanum || 0x80 ≤ c.toNat || c = '-' || c = ':' || c = '_'

/-- **Reads a directive.** -/
def parse? (cs : List Char) : Option Directive :=
  match Text.trimChars cs with
  | [] => none
  | '[' :: rest => scoped? none rest
  | c :: rest =>
    if !isStart c then none
    else
      let (word, rest) := (c :: rest).span fun c => c ≠ '=' && c ≠ '['
      let word := String.ofList word
      match rest with
      | [] =>
        match threshold? word with
        | some most => some { most }
        | none => some { target := some word }
      | '[' :: rest => scoped? (some word) rest
      | rest => ended? { target := some word } rest

/-! ## Deciding -/

/-- Whether a directive is about an event. -/
def isAbout (d : Directive) (e : Event) : Bool :=
  !d.insideSpan
    && (match d.target with | some t => e.part.target.startsWith t | none => true)
    && (match d.field with | some f => f = "message" || (e.fields.lookup f).isSome | none => true)

/-- Whether a directive is at least as specific as another: its target is longer, or it asks for a
field, or for one that comes later in the alphabet. -/
def outranks (d e : Directive) : Bool :=
  let size := fun (d : Directive) => (d.target.map fun t => t.utf8ByteSize + 1).getD 0
  size e < size d
    || (size d = size e && (match d.field, e.field with
      | some f, some g => g ≤ f
      | some _, none => true
      | none, some _ => false
      | none, none => true))

/-- Whether events of a level are shown. -/
def shows (d : Directive) (level : Level) : Bool :=
  match d.most with
  | some most => level.rank ≤ most.rank
  | none => false

end Directive

/-- **A filter.** -/
structure Filter where
  /-- Its directives. -/
  directives : List Directive
  deriving DecidableEq

namespace Filter

/-- **Reads a filter.** Without any directive it shows errors. -/
def parse? (text : String) : Option Filter := do
  let parts := (Text.splitAt ',' text.toList).filter (!·.isEmpty)
  let directives ← parts.mapM Directive.parse?
  return ⟨if directives.isEmpty then [{ most := some .error }] else directives⟩

/-- The directive that decides on an event: the most specific one, and of two that are equally
specific the later. -/
def deciding? (f : Filter) (e : Event) : Option Directive :=
  (f.directives.filter (·.isAbout e)).foldl (fun best d =>
    match best with
    | some b => if d.outranks b then some d else some b
    | none => some d) none

/-- **Whether an event is shown.** -/
def shows (f : Filter) (e : Event) : Bool :=
  match f.deciding? e with
  | some d => d.shows e.level
  | none => false

/-- What is shown if nothing is said: what happens, and the details of the interface. -/
def standard : Filter :=
  ⟨[{ most := some .info }, { target := some "kubemind_server", most := some .debug }]⟩

end Filter

/-- **How a log is written.** -/
structure Layout where
  /-- Which events are shown. -/
  filter : Filter
  /-- Whether each is a JSON object. -/
  json : Bool

namespace Layout

/-- **How the environment says a log is written.** A filter that cannot be read is ignored. -/
def ofEnvironment (lookup : String → Option String) : Layout where
  filter := ((lookup "RUST_LOG").bind Filter.parse?).getD .standard
  json := (lookup "KUBEMIND_LOG_FORMAT").any fun s => Text.eqIgnoringCase s "json"

/-- The line for an event; none if it is not shown. -/
def line? (l : Layout) (e : Event) : Option String :=
  if !l.filter.shows e then none
  else if l.json then some e.line
  else some (Redaction.redact (e.level.name ++ " " ++ e.part.target ++ ": " ++ e.message))

/-- **The lines of a log.** -/
def lines (l : Layout) (events : List Event) : List String :=
  events.filterMap l.line?

end Layout

end IncidentMemory.Log
