import ComicCatalog.Json.Writer
import ComicCatalog.Text.Bytes
import ComicCatalog.Text.Fold

/-! # Web requests and answers

A request names a method and a target, and carries header fields. An answer has a
status, header fields and a body, which may break off. The names of header fields
are compared without regard to ASCII case, and of several fields with one name the
first counts.
-/

namespace ComicCatalog

/-! ## Header fields -/

/-- Header fields in the order in which they were sent. -/
abbrev Headers := List (String × Bytes)

namespace Headers

/-- Bytes that a field may hold: everything but controls, the tab excepted. -/
def isValueByte (b : UInt8) : Bool :=
  (32 ≤ b.toNat && b.toNat != 127) || b.toNat == 9

/-- Whether a text can be sent as a field. -/
def isValue (s : String) : Bool :=
  (Bytes.ofText s).all isValueByte

/-- The text of a field that holds visible ASCII, spaces and tabs only. -/
def visible? (value : Bytes) : Option String :=
  if value.all fun b => isValueByte b && b.toNat < 128 then Bytes.text? value else none

/-- The first field of a name. -/
def get? (headers : Headers) (name : String) : Option Bytes :=
  (headers.find? fun field => Text.asciiFold field.1 = Text.asciiFold name).map Prod.snd

end Headers

/-! ## Requests and answers -/

/-- A request to the service. -/
structure WebRequest where
  method : String
  path : String
  /-- What follows the question mark of the target, as it was sent. -/
  query : String
  headers : Headers
  deriving Inhabited

namespace WebRequest

/-- The part of a target that names a path: what follows the host, if a target
names one. -/
def pathOf (target : List Char) : List Char :=
  match target.dropWhile Char.isAlpha with
  | ':' :: '/' :: '/' :: rest =>
      match rest.dropWhile fun c => c != '/' && c != '?' && c != '#' with
      | '/' :: path => '/' :: path
      | rest => '/' :: rest
  | _ => target

/-- A request for a target. A fragment is not sent. -/
def ofTarget (method target : String) (headers : Headers) : WebRequest :=
  let cs := (pathOf target.toList).takeWhile (· != '#')
  { method
    path := String.ofList (cs.takeWhile (· != '?'))
    query := String.ofList ((cs.dropWhile (· != '?')).drop 1)
    headers }

end WebRequest

/-- An answer of the service. -/
structure WebAnswer where
  status : Nat
  headers : Headers
  /-- The body; none when it breaks off. -/
  body : Option Bytes
  /-- Whether the body is sent on as it comes in, so that nobody knows its length before. -/
  isStreamed : Bool := false
  deriving Inhabited

namespace WebAnswer

/-- An answer without a body. -/
def empty (status : Nat) : WebAnswer :=
  { status, headers := [], body := some [] }

/-- An answer with a body of some type. -/
def ofText (status : Nat) (contentType body : String) : WebAnswer :=
  { status
    headers := [("content-type", Bytes.ofText contentType)]
    body := some (Bytes.ofText body) }

/-- An answer in plain text. -/
def plain (status : Nat) (body : String) : WebAnswer :=
  ofText status "text/plain; charset=utf-8" body

/-- An answer in JSON. -/
def json (status : Nat) (body : Json) : WebAnswer :=
  ofText status "application/json" body.render

/-- An answer that something went wrong inside. -/
def failure (message : String) : WebAnswer :=
  json 500 (.object [("error", .text message)])

/-- The answer with one more header field. -/
def withHeader (answer : WebAnswer) (name : String) (value : Bytes) : WebAnswer :=
  { answer with headers := answer.headers ++ [(name, value)] }

/-- The answer with the length of its body, where that is known and not told. -/
def withLength (answer : WebAnswer) : WebAnswer :=
  match Headers.get? answer.headers "content-length", answer.body, answer.isStreamed with
  | none, some body, false =>
      answer.withHeader "content-length" (Bytes.ofText (toString body.length))
  | _, _, _ => answer

/-- The answer without its body. -/
def withoutBody (answer : WebAnswer) : WebAnswer :=
  { answer with body := some [] }

end WebAnswer

end ComicCatalog
