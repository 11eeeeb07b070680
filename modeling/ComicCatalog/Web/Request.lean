import ComicCatalog.Net.Message
import ComicCatalog.Url.Escape

/-! # What requests ask for

A request asks for one of five pages, with named texts in its query, and perhaps
on behalf of a page of some other origin.
-/

/-! ## Routes

Any path but the five that are answered is labelled alike, so that requests for
unknown paths are counted together. -/

namespace ComicCatalog

/-- The pages of the service. -/
inductive Route
  | listing
  | search
  | image
  | health
  | metrics
  deriving DecidableEq, Repr, Inhabited

namespace Route

def all : List Route :=
  [.listing, .search, .image, .health, .metrics]

def path : Route → String
  | .listing => "/"
  | .search => "/search"
  | .image => "/proxy-image"
  | .health => "/health"
  | .metrics => "/metrics"

/-- The page at a path. -/
def atPath? (path : String) : Option Route :=
  all.find? fun route => route.path = path

/-- The label under which requests for a path are counted. -/
def label (path : String) : String :=
  (atPath? path).elim "\x7bother\x7d" Route.path

/-- The methods that pages are asked with. -/
def methods : List String :=
  ["GET", "HEAD"]

end Route

end ComicCatalog

/-! ## Parameters

The query of a request is a list of named texts. Names and values are escaped,
and a plus sign stands for a space. Bytes that spell no text are replaced. -/

namespace ComicCatalog.Params

/-- A name or value as it stands in a query, read. -/
def component (cs : List Char) : String :=
  Bytes.text (Escape.decode (cs.map fun c => if c = '+' then ' ' else c))

/-- One named value; a name alone has the empty value. -/
def pair (cs : List Char) : String × String :=
  (component (cs.takeWhile (· != '=')), component ((cs.dropWhile (· != '=')).drop 1))

/-- The named values of a query. -/
def ofQuery (query : String) : List (String × String) :=
  ((query.toList.splitOn '&').filter (!·.isEmpty)).map pair

/-- Characters that a name or value holds unescaped. -/
def isSafe (c : Char) : Bool :=
  c.isAlphanum || c = '-' || c = '.' || c = '_' || c = '*'

/-- A name or value, written. -/
def escaped (s : String) : String :=
  Escape.encode (!isSafe ·) s.toList

/-- One named value, written. -/
def written (name value : String) : String :=
  escaped name ++ "=" ++ escaped value

/-- The first name that comes again among those that may come once; `seen` are
the ones that have come. -/
def repeated? (names seen : List String) : List (String × String) → Option String
  | [] => none
  | (name, _) :: rest =>
      if name ∈ seen then some name
      else repeated? names (if name ∈ names then name :: seen else seen) rest

/-- The named values of a query, in which each of `names` comes at most once. The
failure is the name that comes again. -/
def read (names : List String) (query : String) : Except String (List (String × String)) :=
  match repeated? names [] (ofQuery query) with
  | some name => .error name
  | none => .ok (ofQuery query)

end ComicCatalog.Params

/-! ## Cross-origin grants

An answer tells a browser which origin may read it. With no origins listed every
origin may; otherwise only a listed one that the request names byte for byte. -/

namespace ComicCatalog.Cors

/-- The origin that a grant names; none when nothing is granted. Listed origins
that cannot be sent are never granted. -/
def grant? (allowed : List String) (request : WebRequest) : Option Bytes :=
  if allowed.isEmpty then some (Bytes.ofText "*")
  else
    match Headers.get? request.headers "origin" with
    | some origin =>
        if origin ∈ (allowed.filter Headers.isValue).map Bytes.ofText then some origin else none
    | none => none

/-- What answers depend on besides the target. -/
def variation : String :=
  "origin, access-control-request-method, access-control-request-headers"

/-- The answer with its grant. -/
def granted (allowed : List String) (request : WebRequest) (answer : WebAnswer) : WebAnswer :=
  let answer := answer.withHeader "vary" (Bytes.ofText variation)
  match grant? allowed request with
  | some origin => answer.withHeader "access-control-allow-origin" origin
  | none => answer

/-- Whether a request asks what it may ask. -/
def isPreflight (request : WebRequest) : Bool :=
  request.method = "OPTIONS"

/-- The answer to a request that asks what it may ask. -/
def preflight : WebAnswer :=
  ((WebAnswer.empty 200).withHeader "access-control-allow-methods" (Bytes.ofText "GET")).withHeader
    "access-control-allow-headers" (Bytes.ofText "*")

end ComicCatalog.Cors
