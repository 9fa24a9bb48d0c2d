import IncidentMemory.Config.Environment
import IncidentMemory.Text.Utf8

/-!
# Files of environment variables

A file may set variables that the environment does not have. It is a list of lines `NAME=value`; a
value may be put into quotes, which may hold line ends, and may mention other variables. The lines
take effect one after another, up to the first that cannot be read.
-/

namespace IncidentMemory.EnvironmentFile

/-! ## Lines -/

/-- Where the search for the end of a line stands. -/
inductive LineState where
  /-- Outside quotes. -/
  | plain
  /-- After a blank outside quotes, where a comment may begin. -/
  | blank
  /-- After a backslash outside quotes. -/
  | escaped
  /-- Inside single quotes. -/
  | single
  /-- After a backslash inside single quotes. -/
  | singleEscaped
  /-- Inside double quotes. -/
  | double
  /-- After a backslash inside double quotes. -/
  | doubleEscaped
  deriving DecidableEq

/-- Where a character outside quotes leads. -/
def LineState.opened (c : Char) : LineState :=
  if c = '\\' then .escaped else if c = '"' then .double else if c = '\'' then .single else .plain

/-- Where a character leads; nowhere if it begins a comment. -/
def LineState.next (c : Char) : LineState → Option LineState
  | .blank => if c = '#' then none else some (.opened c)
  | .escaped => some .plain
  | .plain =>
    some (if Text.isBlank c && c ≠ '\n' && c ≠ '\r' then .blank else .opened c)
  | .double => some (if c = '\\' then .doubleEscaped else if c = '"' then .plain else .double)
  | .doubleEscaped => some .double
  | .single => some (if c = '\\' then .singleEscaped else if c = '\'' then .plain else .single)
  | .singleEscaped => some .single

/-- Goes through the characters of a physical line. What stands before a comment is kept, and the
state at the end is none if there is a comment. -/
def scanLine : LineState → List Char → List Char × Option LineState
  | state, [] => ([], some state)
  | state, c :: cs =>
    match state.next c with
    | none => ([], none)
    | some state =>
      let (kept, ending) := scanLine state cs
      (c :: kept, ending)

/-- A text without the line end at its end. -/
def dropLineEnd (cs : List Char) : List Char :=
  match cs.reverse with
  | '\n' :: '\r' :: rest => rest.reverse
  | '\n' :: rest => rest.reverse
  | _ => cs

/-- **The lines of a file**, from its physical lines; a line goes on while a quote is open. The last
is none if it cannot be read. -/
def joinLines (before : List Char) (state : LineState) :
    List (Option (List Char)) → List (Option (List Char))
  | [] => if state = .plain then [] else [none]
  | none :: _ => [none]
  | some line :: rest =>
    if ((before ++ line).dropWhile Text.isBlank).head? = some '#' then
      some [] :: joinLines [] .plain rest
    else
      let (kept, ending) := scanLine state line
      match ending with
      | none => some (before ++ kept) :: joinLines [] .plain rest
      | some .plain => some (dropLineEnd (before ++ kept)) :: joinLines [] .plain rest
      | some state => joinLines (before ++ kept) state rest

/-- Splits bytes after every line end. -/
def physicalLines : List UInt8 → List (List UInt8)
  | [] => []
  | b :: rest =>
    match physicalLines rest with
    | [] => [[b]]
    | line :: lines => if b = 10 then [b] :: line :: lines else (b :: line) :: lines

/-- The bytes without a mark that they are UTF-8. -/
def dropMark : List UInt8 → List UInt8
  | 0xEF :: 0xBB :: 0xBF :: rest => rest
  | bytes => bytes

/-! ## Values -/

/-- Where the reading of a value stands. -/
inductive ValueState where
  /-- Outside single quotes; inside double quotes or not. -/
  | plain (quoted : Bool)
  /-- After a backslash. -/
  | escaped (quoted : Bool)
  /-- Inside single quotes. -/
  | single
  /-- In the name of a variable. -/
  | name (quoted : Bool) (read : List Char)
  /-- In the name of a variable, in braces. -/
  | braced (quoted : Bool) (read : List Char)
  /-- After the value. -/
  | ended

/-- Whether a character belongs to the name of a mentioned variable. -/
def isNameChar (c : Char) : Bool :=
  c.isAlphanum || 0x80 ≤ c.toNat

/-- The text of a mentioned variable. -/
def mentioned (env : Environment) (name : List Char) : List Char :=
  ((env (String.ofList name)).getD "").toList

/-- Reads a character of a value outside quotes and inside double ones: what it adds to the value,
and what it leads to. -/
def plainStep (quoted : Bool) (c : Char) : List Char × ValueState :=
  if c = '$' then ([], .name quoted [])
  else if c = '"' then ([], .plain (!quoted))
  else if c = '\\' then ([], .escaped quoted)
  else if quoted then ([c], .plain true)
  else if c = '\'' then ([], .single)
  else if c = ' ' || c = '\t' then ([], .ended)
  else ([c], .plain false)

/-- Reads a character of a value; none if the value makes no sense. -/
def valueStep (env : Environment) (c : Char) : ValueState → Option (List Char × ValueState)
  | .plain quoted => some (plainStep quoted c)
  | .escaped quoted =>
    if ['\\', '\'', '"', '$', ' '].contains c then some ([c], .plain quoted)
    else if c = 'n' then some (['\n'], .plain quoted)
    else none
  | .single => some (if c = '\'' then ([], .plain false) else ([c], .single))
  | .name quoted read =>
    if isNameChar c then some ([], .name quoted (read ++ [c]))
    else if c = '{' && read.isEmpty then some ([], .braced quoted [])
    else if c = '$' then some (mentioned env read, .name quoted [])
    else some (mentioned env read ++ [c], .plain quoted)
  | .braced quoted read =>
    some (if c = '}' then (mentioned env read, .plain quoted)
      else ([], .braced quoted (read ++ [c])))
  | .ended => if c = ' ' || c = '\t' then some ([], .ended) else none

/-- **Reads a value.** Blanks end it, and only a comment may follow them. -/
def readValue (env : Environment) : ValueState → List Char → Option (List Char)
  | .plain true, [] | .escaped true, [] | .single, [] | .braced .., [] | .name true _, [] => none
  | .plain false, [] | .escaped false, [] | .ended, [] => some []
  | .name false read, [] => some (mentioned env read)
  | state, c :: cs =>
    match state, c with
    | .ended, '#' => some []
    | state, c => do
      let (added, state) ← valueStep env c state
      return added ++ (← readValue env state cs)

/-! ## Assignments -/

/-- Reads the name of a variable, and what follows it and blanks. -/
def readName (cs : List Char) : Option (List Char × List Char) :=
  let isFirst := fun (c : Char) => c.isAlpha || c = '_'
  match cs with
  | c :: _ =>
    if isFirst c then
      let (name, rest) := cs.span fun c => c.isAlphanum || c = '_' || c = '.'
      some (name, rest.dropWhile Text.isBlank)
    else none
  | [] => none

/-- Reads the name that is assigned to, and what follows the equals sign. The word `export` may come
first. -/
def readTarget (cs : List Char) : Option (String × List Char) := do
  let (name, rest) ← readName cs
  match rest with
  | '=' :: rest => return (String.ofList name, rest)
  | rest =>
    if String.ofList name = "export" then
      let (name, rest) ← readName rest
      match rest with
      | '=' :: rest => return (String.ofList name, rest)
      | _ => none
    else none

/-- **Reads a line**: none if it makes no sense, and no assignment if it is empty or a comment. -/
def readLine (env : Environment) (cs : List Char) : Option (Option (String × String)) :=
  match Text.trimChars cs with
  | [] | '#' :: _ => some none
  | cs => do
    let (name, rest) ← readTarget cs
    match rest.dropWhile Text.isBlank with
    | [] | '#' :: _ => return some (name, "")
    | rest => return some (name, String.ofList (← readValue env (.plain false) rest))

/-- Sets a variable that the environment does not have. -/
def assign (env : Environment) (name value : String) : Environment := fun asked =>
  if asked = name then env name <|> some value else env asked

/-- Lets lines take effect up to the first that cannot be read. -/
def applyLines (env : Environment) : List (Option (List Char)) → Environment
  | [] | none :: _ => env
  | some line :: rest =>
    match readLine env line with
    | none => env
    | some none => applyLines env rest
    | some (some (name, value)) => applyLines (assign env name value) rest

/-- **The environment with the variables of a file**, given its contents. -/
def apply (env : Environment) (contents : List UInt8) : Environment :=
  let lines := (physicalLines (dropMark contents)).map fun line =>
    (Text.decode? line).map String.toList
  applyLines env (joinLines [] .plain lines)

end IncidentMemory.EnvironmentFile
