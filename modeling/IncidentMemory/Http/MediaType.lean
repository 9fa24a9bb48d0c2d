import IncidentMemory.Text.Blank
import IncidentMemory.Number.Decimal

/-!
# Media types

The value of a `Content-Type` header: a type, a subtype and parameters. Only whether a type stands
for JSON matters here, but a value with malformed parameters stands for nothing.
-/

namespace IncidentMemory.Http

/-- Whether a character may stand in a token. -/
def isTokenChar (c : Char) : Bool :=
  ('a' ≤ c && c ≤ 'z') || ('A' ≤ c && c ≤ 'Z') || Number.isDigit c
    || "!#$%&'*+-.^_\x60|~".toList.contains c

/-- What follows the quotation mark that closes a quoted value of at least one character. -/
def afterQuoted (cs : List Char) : Option (List Char) :=
  match cs.span fun c => c ≠ '"' && 0x20 ≤ c.toNat && c.toNat < 0x7F with
  | (_ :: _, '"' :: rest) => some rest
  | _ => none

/-- What follows a parameter's value: nothing, or a semicolon and more parameters. -/
def afterValue (cs : List Char) : Option (List Char) :=
  match cs with
  | '"' :: rest => do
    match (← afterQuoted rest).dropWhile (· = ' ') with
    | [] => some []
    | ';' :: more => some more
    | _ => none
  | cs =>
    match cs.span isTokenChar with
    | (_, []) => some []
    | (_ :: _, ';' :: more) => some more
    | _ => none

/-- Whether parameters are well formed; there are at most `most` of them. -/
def areParameters : (most : Nat) → List Char → Bool
  | 0, cs => cs.isEmpty
  | most + 1, cs =>
    match cs.dropWhile (· = ' ') with
    | [] => true
    | cs =>
      match cs.span isTokenChar with
      | (_ :: _, '=' :: value) =>
        match afterValue value with
        | some more => areParameters most more
        | none => false
      | _ => false

/-- A subtype without its suffix, and the suffix, which follows the last plus sign unless that
comes first. -/
def splitSuffix (subtype : List Char) : List Char × Option (List Char) :=
  match Text.splitOnce '+' subtype.reverse with
  | some (suffix, base) =>
    if base.isEmpty then (subtype, none) else (base.reverse, some suffix.reverse)
  | none => (subtype, none)

/-- **Whether a media type stands for JSON**: `application/json`, or a subtype that ends in
`+json`. -/
def isJsonType (value : String) : Bool :=
  let (kind, rest) := value.toList.span isTokenChar
  match rest with
  | '/' :: rest =>
    let (subtype, rest) := rest.span isTokenChar
    let wellFormed := match rest with
      | [] => true
      | ';' :: parameters => !subtype.isEmpty && areParameters (parameters.length + 1) parameters
      | _ => false
    let (base, suffix) := splitSuffix subtype
    let isJson := fun (cs : List Char) => Text.eqIgnoringCase "json" (String.ofList cs)
    wellFormed && Text.eqIgnoringCase "application" (String.ofList kind)
      && (isJson base || (suffix.map isJson).getD false)
  | _ => false

end IncidentMemory.Http
