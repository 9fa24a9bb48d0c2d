import IncidentMemory.Http.Message
import IncidentMemory.Number.Decimal

/-!
# Messages on a connection

Requests and responses as the bytes of version 1.1 of the protocol. A connection carries one request
and its response; how long a body is must be said in front.
-/

namespace IncidentMemory.Http

/-- What the bytes that have arrived so far are. -/
inductive Arrival where
  /-- The beginning of a request. -/
  | incomplete
  /-- No request. -/
  | malformed
  /-- A request. -/
  | complete (request : Request)

namespace Arrival

/-- Splits bytes at the first empty line. -/
def splitHead : List UInt8 → Option (List UInt8 × List UInt8)
  | [] => none
  | b :: rest =>
    match b :: rest with
    | 13 :: 10 :: 13 :: 10 :: body => some ([], body)
    | _ => (splitHead rest).map fun (head, body) => (b :: head, body)

/-- The lines of a head. -/
def lines (head : List Char) : List (List Char) :=
  (Text.splitAt '\n' head).map fun line =>
    if line.getLast? = some '\r' then line.dropLast else line

/-- A header's name and value. -/
def header? (line : List Char) : Option (String × List UInt8) := do
  let (name, value) ← Text.splitOnce ':' line
  if name.isEmpty || name.any Text.isBlank then none
  else some (String.ofList name, Text.encode (String.ofList (Text.trimChars value)))

/-- A request without its body, from the lines of its head. -/
def request? : List (List Char) → Option Request
  | [] => none
  | first :: rest =>
    match Text.splitAt ' ' first with
    | [method, target, _] => do
      if method.isEmpty || target.isEmpty then none
      else
        let headers ← rest.mapM header?
        some { method := String.ofList method, target := String.ofList target, headers }
    | _ => none

/-- How long the body of a request is. -/
def bodyLength? (r : Request) : Option Nat :=
  match r.headerText? "content-length" with
  | some text => Number.readDigits Number.maxWord text.toList
  | none => if (r.header? "transfer-encoding").isSome then none else some 0

/-- **What the bytes that have arrived are.** -/
def ofBytes (bytes : List UInt8) : Arrival :=
  match splitHead bytes with
  | none => .incomplete
  | some (head, body) =>
    let read := do
      let r ← request? (lines (← Text.decode? head).toList)
      let length ← bodyLength? r
      return (r, length)
    match read with
    | none => .malformed
    | some (r, length) =>
      if body.length < length then .incomplete else .complete { r with body := body.take length }

end Arrival

/-- The body as text. -/
def Body.render : Body → String
  | .json value => value.render
  | .text s => s

/-- **A response as it is sent.** -/
def Response.render (r : Response) : String :=
  let body := r.body.render
  let headers := r.headers
    ++ [("content-length", toString body.utf8ByteSize), ("connection", "close")]
  "HTTP/1.1 " ++ Status.line r.status ++ "\r\n"
    ++ String.join (headers.map fun (name, value) => name ++ ": " ++ value ++ "\r\n")
    ++ "\r\n" ++ body

end IncidentMemory.Http
