import IncidentMemory.Text.Blank
import IncidentMemory.Yaml.Scalar

/-!
# Reading YAML

One document of YAML: block collections told apart by indentation, flow collections in brackets,
the five styles of scalars, anchors and aliases, tags.

A block function starts at the beginning of a line and leaves the characters from the beginning of
a later line. Where a collection starts in the middle of a line, after `- `, `? ` or `: `, that mark
is replaced by a blank, so that the indentation again says all. An inline function starts in the
middle of a line and also leaves the beginning of a line; a flow function stops right behind what it
has read.

The functions nest by way of `fuel`, which bounds their depth and the number of items; a few units
for every character are enough.
-/

namespace IncidentMemory.Yaml

/-- What is left to read, and the values that have been given names. -/
structure State where
  /-- The characters that are left. -/
  rest : List Char
  /-- The named values, the newest first. -/
  anchors : List (String × Document) := []

/-- A function that reads. -/
abbrev Parse := StateT State Option

/-- The characters that are left. -/
def rest : Parse (List Char) := do return (← get).rest

/-- Goes on at other characters. -/
def goTo (cs : List Char) : Parse Unit := modify fun s => { s with rest := cs }

/-! ## Layout -/

/-- Whether a character separates words on a line. -/
def isSpace (c : Char) : Bool := c = ' ' || c = '\t'

/-- Whether the characters are at the end of a word: a blank, a line's end, or the text's end. -/
def atGap : List Char → Bool
  | [] => true
  | c :: _ => isSpace c || c = '\n'

/-- Drops the rest of a line and its end. -/
def nextLine (cs : List Char) : List Char :=
  (cs.dropWhile (· ≠ '\n')).drop 1

/-- The rest of a line. -/
def lineText (cs : List Char) : List Char :=
  cs.takeWhile (· ≠ '\n')

/-- Whether nothing is left on a line but blanks and perhaps a comment. -/
def lineIsDone (cs : List Char) : Bool :=
  match cs.dropWhile isSpace with
  | [] => true
  | c :: _ => c = '\n' || c = '#'

/-- Drops lines with nothing on them. -/
def dropEmptyLines : Nat → List Char → List Char
  | 0, cs => cs
  | fuel + 1, cs =>
    if cs.isEmpty then cs
    else if lineIsDone cs then dropEmptyLines fuel (nextLine cs)
    else cs

/-- Drops lines with nothing on them. -/
def toContent (cs : List Char) : List Char :=
  dropEmptyLines (cs.length + 1) cs

/-- The number of blanks a line starts with. -/
def indentOf (cs : List Char) : Nat :=
  (cs.takeWhile (· = ' ')).length

/-- Whether a line is a mark between documents. -/
def atMark (mark : String) (cs : List Char) : Bool :=
  match Text.dropLiteral? mark.toList cs with
  | some r => atGap r
  | none => false

/-- Whether the document ends at this line. -/
def atDocumentEnd (cs : List Char) : Bool :=
  cs.isEmpty || atMark "---" cs || atMark "..." cs

/-- Whether an indicator stands here, that is, a character that is followed by a gap. -/
def atIndicator (c : Char) : List Char → Bool
  | d :: r => c = d && atGap r
  | [] => false

/-- Ends a line that holds no more; fails if it does. -/
def endLine : Parse Unit := do
  let cs ← rest
  if atGap cs && lineIsDone cs then goTo (nextLine cs) else failure

/-- Drops blanks, comments and line ends. -/
def dropFlowGap : Nat → List Char → List Char
  | 0, cs => cs
  | fuel + 1, cs =>
    match cs with
    | c :: r =>
      if isSpace c || c = '\n' then
        let r := r.dropWhile fun c => isSpace c || c = '\n'
        match r with
        | '#' :: _ => dropFlowGap fuel (r.dropWhile (· ≠ '\n'))
        | r => r
      else c :: r
    | [] => []

/-- Drops blanks, comments and line ends. -/
def flowGap : Parse Unit := do
  let cs ← rest
  goTo (dropFlowGap (cs.length + 1) cs)

/-! ## Folded lines -/

/-- How many line ends a run of white space holds, and what follows it. -/
def lineEnds (cs : List Char) : Nat × List Char :=
  let (gap, r) := cs.span fun c => isSpace c || c = '\n'
  ((gap.filter (· = '\n')).length, r)

/-- What a run of line ends reads as: a blank for one, a line end less for more. -/
def fold (ends : Nat) : List Char :=
  if ends ≤ 1 then [' '] else List.replicate (ends - 1) '\n'

/-! ## Quoted scalars -/

/-- The rest of a scalar between apostrophes, its text so far in reverse. -/
def singleQuoted : Nat → List Char → List Char → Option (String × List Char)
  | 0, _, _ => none
  | fuel + 1, acc, cs =>
    match cs with
    | '\'' :: '\'' :: r => singleQuoted fuel ('\'' :: acc) r
    | '\'' :: r => some (String.ofList acc.reverse, r)
    | '\n' :: _ =>
      let (ends, r) := lineEnds cs
      singleQuoted fuel ((fold ends).reverse ++ acc.dropWhile isSpace) r
    | c :: r => singleQuoted fuel (c :: acc) r
    | [] => none

/-- The characters of the short escapes. -/
def escapes : List (Char × Char) :=
  [('0', '\x00'), ('a', '\x07'), ('b', '\x08'), ('t', '\t'), ('\t', '\t'), ('n', '\n'),
    ('v', '\x0b'), ('f', '\x0c'), ('r', '\r'), ('e', '\x1b'), (' ', ' '), ('"', '"'), ('/', '/'),
    ('\\', '\\'), ('N', '\u0085'), ('_', '\u00a0'), ('L', '\u2028'), ('P', '\u2029')]

/-- The character of so many hexadecimal digits. -/
def coded (width : Nat) (cs : List Char) : Option (Char × List Char) := do
  if cs.length < width then none
  else
    let n ← Number.readBase 16 (cs.take width)
    if n < 0xD800 || (0xE000 ≤ n && n < 0x110000) then some (Char.ofNat n, cs.drop width) else none

/-- The character of an escape, given what follows the reverse solidus. -/
def escaped : List Char → Option (Char × List Char)
  | 'x' :: r => coded 2 r
  | 'u' :: r => coded 4 r
  | 'U' :: r => coded 8 r
  | e :: r => (escapes.lookup e).map fun c => (c, r)
  | [] => none

/-- The rest of a scalar between quotation marks, its text so far in reverse. Blanks before a line
end are dropped unless they are escaped; `solid` counts the characters that are kept. -/
def doubleQuoted : Nat → (solid : List Char) → (blanks : List Char) → List Char →
    Option (String × List Char)
  | 0, _, _, _ => none
  | fuel + 1, solid, blanks, cs =>
    match cs with
    | '"' :: r => some (String.ofList (blanks ++ solid).reverse, r)
    | '\\' :: '\n' :: r =>
      doubleQuoted fuel (blanks ++ solid) [] (r.dropWhile isSpace)
    | '\\' :: r =>
      match escaped r with
      | some (c, r) => doubleQuoted fuel (c :: (blanks ++ solid)) [] r
      | none => none
    | '\n' :: _ =>
      let (ends, r) := lineEnds cs
      doubleQuoted fuel ((fold ends).reverse ++ solid) [] r
    | c :: r =>
      if isSpace c then doubleQuoted fuel solid (c :: blanks) r
      else doubleQuoted fuel (c :: (blanks ++ solid)) [] r
    | [] => none

/-- A quoted scalar. -/
def quoted : List Char → Option (String × List Char)
  | '\'' :: r => singleQuoted (r.length + 1) [] r
  | '"' :: r => doubleQuoted (r.length + 1) [] [] r
  | _ => none

/-! ## Names -/

/-- Whether a character may belong to an anchor's name. -/
def isNameChar (c : Char) : Bool :=
  c.isAlphanum || c = '-' || c = '_'

/-- The name after an anchor's or alias's mark. -/
def name (cs : List Char) : Option (String × List Char) :=
  let (word, r) := cs.span isNameChar
  if word.isEmpty then none else some (String.ofList word, r)

/-- The value that an alias stands for. -/
def aliased : Parse Document := do
  let some (n, r) := name ((← rest).drop 1) | failure
  let some d := (← get).anchors.lookup n | failure
  goTo r
  return d

/-- What may precede a value: a tag and an anchor. -/
structure Properties where
  /-- The tag, mark included. -/
  tag : Option String := none
  /-- The anchor. -/
  anchor : Option String := none

/-- Whether there is neither. -/
def Properties.isEmpty (p : Properties) : Bool :=
  p.tag.isNone && p.anchor.isNone

/-- The properties at the start of a value, and the blanks behind them. -/
def properties : Nat → Properties → List Char → Option (Properties × List Char)
  | 0, p, cs => some (p, cs)
  | fuel + 1, p, cs =>
    match cs with
    | '&' :: r =>
      match name r with
      | some (n, r) =>
        if p.anchor.isSome || !atGap r then none
        else properties fuel { p with anchor := some n } (r.dropWhile isSpace)
      | none => none
    | '!' :: r =>
      let (word, r) := r.span fun c =>
        !(isSpace c || c = '\n' || [',', '[', ']', '\x7b', '\x7d'].contains c)
      if p.tag.isSome then none
      else properties fuel { p with tag := some (String.ofList ('!' :: word)) } (r.dropWhile isSpace)
    | cs => some (p, cs)

/-- A value with a tag. Tags of YAML itself only matter where they make text of something else. -/
def tag (t : String) (d : Document) : Document :=
  match t.toList, d with
  | ['!'], .scalar _ (some s) => .ofText s
  | ['!'], d => d
  | '!' :: '!' :: kind, .scalar _ (some s) => if kind = "str".toList then .ofText s else d
  | '!' :: '!' :: _, d => d
  | '!' :: local', d => .tagged (String.ofList local') d
  | _, d => d

/-- Gives a value the properties that precede it. -/
def decorate (p : Properties) (d : Document) : Parse Document := do
  let d := match p.tag with
    | some t => tag t d
    | none => d
  match p.anchor with
  | some a => modify fun s => { s with anchors := (a, d) :: s.anchors }
  | none => pure ()
  return d

/-! ## Unquoted scalars -/

/-- The characters that mark something other than an unquoted scalar. -/
def reserved : List Char :=
  [',', '[', ']', '\x7b', '\x7d', '#', '&', '*', '!', '|', '>', '\'', '"', '%', '@', '\x60']

/-- Whether an unquoted scalar can start here. -/
def startsPlain : List Char → Bool
  | [] => false
  | c :: r =>
    if c = '-' || c = '?' || c = ':' then !atGap r else !reserved.contains c && !atGap [c]

/-- The characters that separate the items of flow collections. -/
def isFlowMark (c : Char) : Bool :=
  [',', '[', ']', '\x7b', '\x7d'].contains c

/-- The part of an unquoted scalar that stands on one line, without the blanks that follow it. In a
flow collection it also ends at a separator. -/
def plainLine (flow : Bool) : (afterGap : Bool) → List Char → List Char
  | _, [] => []
  | afterGap, c :: r =>
    if c = '\n' then []
    else if c = '#' && afterGap then []
    else if c = ':' && (atGap r || (flow && (r.head?.map isFlowMark).getD true)) then []
    else if flow && isFlowMark c then []
    else c :: plainLine flow (isSpace c) r

/-- Without the blanks at the end. -/
def trimEnd (cs : List Char) : List Char :=
  (cs.reverse.dropWhile isSpace).reverse

/-- One line of an unquoted scalar, and what follows it. -/
def plainPart (flow : Bool) (cs : List Char) : List Char × List Char :=
  let part := trimEnd (plainLine flow false cs)
  (part, cs.drop part.length)

/-- The further lines of an unquoted scalar in a block: those indented more than `parent`. -/
def plainMore (parent : Int) : Nat → List Char → Option (List Char × List Char)
  | 0, _ => none
  | fuel + 1, cs =>
    -- a comment or a mark ends the scalar on its line
    match cs.dropWhile isSpace with
    | [] => some ([], [])
    | '#' :: _ => some ([], nextLine cs)
    | '\n' :: _ =>
      let (ends, r) := lineEnds cs
      let lineStart := (cs.dropWhile fun c => isSpace c || c = '\n')
      let column := indentOf ((cs.take (cs.length - lineStart.length)).reverse.takeWhile (· ≠ '\n'))
      if r.isEmpty || (column : Int) ≤ parent || r.head? == some '#'
          || (column = 0 && atDocumentEnd r) then
        some ([], nextLine cs)
      else
        let (part, r) := plainPart false r
        if part.isEmpty then none
        else (plainMore parent fuel r).map fun (more, r) => (fold ends ++ part ++ more, r)
    | _ => none

/-- An unquoted scalar in a block, up to the end of its last line. -/
def plainBlock (parent : Int) (cs : List Char) : Option (String × List Char) :=
  if startsPlain cs then
    let (part, r) := plainPart false cs
    (plainMore parent (cs.length + 1) r).map fun (more, r) => (String.ofList (part ++ more), r)
  else none

/-- An unquoted scalar in a flow collection. -/
def plainFlow : Nat → List Char → Option (List Char × List Char)
  | 0, _ => none
  | fuel + 1, cs =>
    let (part, r) := plainPart true cs
    match r.dropWhile isSpace with
    | '\n' :: _ =>
      let (ends, after) := lineEnds r
      match after with
      | c :: _ =>
        if isFlowMark c || c = '#' || atIndicator ':' after then some (part, r)
        else (plainFlow fuel after).map fun (more, r) => (part ++ fold ends ++ more, r)
      | [] => some (part, r)
    | _ => some (part, r)

/-! ## Block scalars -/

/-- What becomes of the line ends at the end of a block scalar. -/
inductive Chomping where
  /-- All are dropped. -/
  | strip
  /-- One is kept. -/
  | clip
  /-- All are kept. -/
  | keep

/-- The header of a block scalar after its mark: an indentation, a chomping, both or neither. -/
def blockHeader (cs : List Char) : Option (Option Nat × Chomping × List Char) :=
  let chomping : Char → Option Chomping := fun c =>
    if c = '-' then some .strip else if c = '+' then some .keep else none
  let digit : Char → Option Nat := fun c =>
    if '1' ≤ c && c ≤ '9' then some (Number.digitValue c) else none
  let (found, r) : (Option Nat × Chomping) × List Char :=
    match cs with
    | a :: b :: r =>
      match chomping a, digit a, chomping b, digit b with
      | some k, _, _, some n => ((some n, k), r)
      | _, some n, some k, _ => ((some n, k), r)
      | some k, _, _, _ => ((none, k), b :: r)
      | _, some n, _, _ => ((some n, .clip), b :: r)
      | _, _, _, _ => ((none, .clip), a :: b :: r)
    | r => ((none, .clip), r)
  if atGap r && lineIsDone r then some (found.1, found.2, nextLine r) else none

/-- The lines of a block scalar: for each, how many empty lines precede it, and its text. Also the
number of empty lines at the end, and what follows. -/
def blockLines (indent : Nat) : Nat → (empty : Nat) → List Char →
    List (Nat × List Char) × Nat × List Char
  | 0, empty, cs => ([], empty, cs)
  | fuel + 1, empty, cs =>
    if cs.isEmpty then ([], empty, cs)
    else
      let n := indentOf cs
      let text := lineText cs
      if n < indent then
        if text.all (· = ' ') then blockLines indent fuel (empty + 1) (nextLine cs)
        else ([], empty, cs)
      else if text.length = indent then blockLines indent fuel (empty + 1) (nextLine cs)
      else
        let (more, last, r) := blockLines indent fuel 0 (nextLine cs)
        ((empty, text.drop indent) :: more, last, r)

/-- Joins the lines of a literal block scalar. -/
def literalText : List (Nat × List Char) → List Char
  | [] => []
  | [(n, text)] => List.replicate n '\n' ++ text
  | (n, text) :: more => List.replicate n '\n' ++ text ++ '\n' :: literalText more

/-- Whether a line is indented beyond its block. -/
def isIndented : List Char → Bool
  | c :: _ => isSpace c
  | [] => false

/-- Joins the further lines of a folded block scalar; a line end next to an indented line stays. -/
def foldedMore (afterIndented : Bool) : List (Nat × List Char) → List Char
  | [] => []
  | (n, text) :: more =>
    let indented := isIndented text
    let gap :=
      if afterIndented || indented then '\n' :: List.replicate n '\n'
      else if n = 0 then [' ']
      else List.replicate n '\n'
    gap ++ text ++ foldedMore indented more

/-- Joins the lines of a folded block scalar. -/
def foldedText : List (Nat × List Char) → List Char
  | [] => []
  | (n, text) :: more =>
    List.replicate n '\n' ++ text ++ foldedMore (isIndented text) more

/-- A block scalar after its mark. -/
def blockScalar (literal : Bool) (parent : Int) : Parse Document := do
  let some (indent?, chomping, cs) := blockHeader (← rest) | failure
  let least := (max 1 (parent + 1)).toNat
  let first := cs.dropWhile (fun c => c = ' ' || c = '\n')
  let lineStart := (cs.take (cs.length - first.length)).reverse.takeWhile (· ≠ '\n')
  let indent := match indent? with
    | some k => (max 0 parent).toNat + k
    | none => max least lineStart.length
  let (lines, last, r) := blockLines indent (cs.length + 1) 0 cs
  goTo r
  let text := if literal then literalText lines else foldedText lines
  let closing := match chomping with
    | .strip => []
    | .clip => if lines.isEmpty then [] else ['\n']
    | .keep => (if lines.isEmpty then [] else ['\n']) ++ List.replicate last '\n'
  return .ofText (String.ofList (text ++ closing))

/-! ## Flow collections -/

/-- The text that a key is known by. -/
def keyText : Document → Option String
  | .scalar _ text => text
  | .tagged _ (.scalar _ text) => text
  | _ => none

/-- Whether a colon stands here that makes a key of what precedes it. After a key that is set off by
quotation marks or brackets nothing need follow it. -/
def flowColon : Parse Bool := do
  flowGap
  match ← rest with
  | ':' :: r => goTo r; return true
  | _ => return false

/-- Whether a value is left out here. -/
def atFlowEnd : Parse Bool := do
  match ← rest with
  | c :: _ => return c = ',' || c = ']' || c = '\x7d'
  | [] => return true

mutual

/-- A value inside a flow collection. -/
def flowValue : Nat → Parse Document
  | 0 => failure
  | fuel + 1 => do
    flowGap
    let cs ← rest
    let some (p, cs) := properties cs.length {} cs | failure
    goTo cs
    flowGap
    let d ← match ← rest with
      | '[' :: r => do goTo r; flowItems fuel []
      | '\x7b' :: r => do goTo r; flowEntries fuel []
      | '*' :: _ => aliased
      | cs =>
        match quoted cs with
        | some (s, r) => do goTo r; pure (Document.ofText s)
        | none =>
          if (← atFlowEnd) || atIndicator ':' cs then pure nothing
          else if startsPlain cs then
            match plainFlow cs.length cs with
            | some (s, r) => do goTo r; pure (plainScalar (String.ofList s))
            | none => failure
          else failure
    decorate p d

/-- The rest of a flow sequence. -/
def flowItems : Nat → List Document → Parse Document
  | 0, _ => failure
  | fuel + 1, acc => do
    flowGap
    match ← rest with
    | ']' :: r => do goTo r; return .seq acc.reverse true
    | _ => do
      let (k, isPair, v) ← flowPair fuel
      let item ←
        if isPair then
          match keyText k with
          | some key => pure (Document.map [(key, v)] true)
          | none => failure
        else pure k
      flowGap
      match ← rest with
      | ',' :: r => do goTo r; flowItems fuel (item :: acc)
      | ']' :: r => do goTo r; return .seq (item :: acc).reverse true
      | _ => failure

/-- The rest of a flow mapping. -/
def flowEntries : Nat → List (String × Document) → Parse Document
  | 0, _ => failure
  | fuel + 1, acc => do
    flowGap
    match ← rest with
    | '\x7d' :: r => do goTo r; return .map acc.reverse true
    | _ => do
      let (k, _, v) ← flowPair fuel
      let some key := keyText k | failure
      flowGap
      match ← rest with
      | ',' :: r => do goTo r; flowEntries fuel ((key, v) :: acc)
      | '\x7d' :: r => do goTo r; return .map ((key, v) :: acc).reverse true
      | _ => failure

/-- A key and its value, or a value alone. -/
def flowPair : Nat → Parse (Document × Bool × Document)
  | 0 => failure
  | fuel + 1 => do
    let cs ← rest
    let explicit := atIndicator '?' cs
    if explicit then goTo (cs.drop 1)
    let k ← flowValue fuel
    if ← flowColon then
      flowGap
      let v ← if ← atFlowEnd then pure nothing else flowValue fuel
      return (k, true, v)
    else return (k, explicit, nothing)

end

/-! ## Block collections -/

/-- A key on one line, and what follows its colon. -/
def implicitKey (fuel : Nat) : Parse (Option String) := do
  let saved ← get
  let give : Parse (Option String) := do set saved; return none
  let line := lineText saved.rest
  let some (p, cs) := properties line.length {} line | give
  let after := saved.rest.drop line.length
  let read : Parse Document := match cs with
    | '[' :: _ | '\x7b' :: _ => do goTo cs; flowValue fuel
    | '*' :: _ => do goTo cs; aliased
    | cs =>
      match quoted cs with
      | some (s, r) => do goTo r; return .ofText s
      | none =>
        if startsPlain cs then do
          let (part, r) := plainPart false cs
          goTo r
          return plainScalar (String.ofList part)
        else if atIndicator ':' cs then do goTo cs; return nothing
        else failure
  match (do let d ← read; decorate p d : Parse Document).run { saved with rest := [] } with
  | none => give
  | some (d, s) =>
    match s.rest.dropWhile isSpace, keyText d with
    | ':' :: r, some key =>
      if atGap r then do
        set { s with rest := r ++ after }
        return some key
      else give
    | _, _ => give

mutual

/-- A value at the start of a line, indented more than `parent`; `listed` admits a sequence that is
indented just as much. Where there is none, the value is left out. -/
def block : Nat → (parent : Int) → (listed : Bool) → Parse Document
  | 0, _, _ => failure
  | fuel + 1, parent, listed => do
    let cs := toContent (← rest)
    goTo cs
    let indent := indentOf cs
    let text := cs.drop indent
    if indent = 0 && atDocumentEnd cs then return nothing
    else if (indent : Int) ≤ parent then
      if listed && (indent : Int) = parent && atIndicator '-' text then
        sequence fuel indent []
      else return nothing
    else if text.head? == some '\t' then failure
    else if atIndicator '-' text then sequence fuel indent []
    else if atIndicator '?' text then mapping fuel indent []
    else do
      goTo text
      let after ← implicitKey fuel
      if after.isSome then do
        goTo cs
        mapping fuel indent []
      else do
        goTo text
        inline fuel parent listed

/-- A value that starts in the middle of a line. -/
def inline : Nat → (parent : Int) → (listed : Bool) → Parse Document
  | 0, _, _ => failure
  | fuel + 1, parent, listed => do
    let cs ← rest
    let some (p, cs) := properties cs.length {} cs | failure
    goTo cs
    let d ←
      if !p.isEmpty && lineIsDone cs then do
        goTo (nextLine cs)
        block fuel parent listed
      else
        match cs with
        | '|' :: r => do goTo r; blockScalar true parent
        | '>' :: r => do goTo r; blockScalar false parent
        | '[' :: _ | '\x7b' :: _ => flowValue fuel <* endLine
        | '*' :: _ => aliased <* endLine
        | cs =>
          match quoted cs with
          | some (s, r) => do
            goTo r
            endLine
            pure (Document.ofText s)
          | none =>
            match plainBlock parent cs with
            | some (s, r) => do goTo r; pure (plainScalar s)
            | none => failure
    decorate p d

/-- The items of a block sequence from here on. -/
def sequence : Nat → (indent : Nat) → List Document → Parse Document
  | 0, _, _ => failure
  | fuel + 1, indent, acc => do
    let cs := toContent (← rest)
    goTo cs
    if cs.isEmpty || (indent = 0 && atDocumentEnd cs) || indentOf cs < indent then
      return .seq acc.reverse true
    else if indentOf cs = indent then
      if atIndicator '-' (cs.drop indent) then do
        goTo (List.replicate (indent + 1) ' ' ++ cs.drop (indent + 1))
        let d ← block fuel indent false
        sequence fuel indent (d :: acc)
      else return .seq acc.reverse true
    else failure

/-- The entries of a block mapping from here on. -/
def mapping : Nat → (indent : Nat) → List (String × Document) → Parse Document
  | 0, _, _ => failure
  | fuel + 1, indent, acc => do
    let cs := toContent (← rest)
    goTo cs
    if cs.isEmpty || (indent = 0 && atDocumentEnd cs) || indentOf cs < indent then
      return .map acc.reverse true
    else if indentOf cs = indent then
      if atIndicator '?' (cs.drop indent) then do
        goTo (List.replicate (indent + 1) ' ' ++ cs.drop (indent + 1))
        let k ← block fuel indent false
        let some key := keyText k | failure
        let cs := toContent (← rest)
        if indentOf cs = indent && atIndicator ':' (cs.drop indent) then do
          goTo (List.replicate (indent + 1) ' ' ++ cs.drop (indent + 1))
          let v ← block fuel indent false
          mapping fuel indent ((key, v) :: acc)
        else mapping fuel indent ((key, nothing) :: acc)
      else do
        goTo (cs.drop indent)
        let some key ← implicitKey fuel | failure
        let r ← rest
        let v ←
          if lineIsDone r then do
            goTo (nextLine r)
            block fuel indent true
          else do
            goTo (r.dropWhile isSpace)
            inline fuel indent true
        mapping fuel indent ((key, v) :: acc)
    else failure

end

/-! ## The text -/

/-- Whether a character may stand in a text. -/
def isAllowed (c : Char) : Bool :=
  let n := c.toNat
  n = 0x09 || n = 0x0A || (0x20 ≤ n && n ≤ 0x7E) || n = 0x85
    || (0xA0 ≤ n && n ≠ 0xFEFF && n ≠ 0xFFFE && n ≠ 0xFFFF)

/-- The text with every line end written as a line feed. -/
def unifyLineEnds : List Char → List Char
  | '\r' :: '\n' :: r => '\n' :: unifyLineEnds r
  | '\r' :: r => '\n' :: unifyLineEnds r
  | c :: r => c :: unifyLineEnds r
  | [] => []

/-- Drops the directives in front of a document. -/
def dropDirectives : Nat → List Char → List Char
  | 0, cs => cs
  | fuel + 1, cs =>
    let cs := toContent cs
    match cs with
    | '%' :: _ => dropDirectives fuel (nextLine cs)
    | cs => cs

/-- The text's only document. -/
def document (fuel : Nat) : Parse Document := do
  let cs := dropDirectives fuel (← rest)
  let d ←
    if atMark "---" cs then
      let r := cs.drop 3
      if lineIsDone r then do
        goTo (nextLine r)
        block fuel (-1) false
      else do
        goTo (r.dropWhile isSpace)
        inline fuel (-1) false
    else do
      goTo cs
      block fuel (-1) false
  let cs := toContent (← rest)
  if cs.isEmpty then return d
  else if atMark "..." cs && (toContent (nextLine cs)).isEmpty then return d
  else failure

/-- **The document of a YAML text**; broken if the text is not well formed or holds several. -/
def read (text : String) : Document :=
  let cs := unifyLineEnds (match text.toList with
    | '\uFEFF' :: r => r
    | cs => cs)
  if cs.all isAllowed then
    match (document (8 * cs.length + 8)).run ⟨cs, []⟩ with
    | some (d, _) => d
    | none => .broken
  else .broken

end IncidentMemory.Yaml
