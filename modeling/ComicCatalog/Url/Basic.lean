import ComicCatalog.Url.Host

/-! # Web addresses

A web address in normal form: scheme, host, a port other than the scheme's own,
a path of escaped segments, and perhaps a query and a fragment.
-/

namespace ComicCatalog

/-- The schemes of the web. -/
inductive WebScheme
  | http
  | https
  deriving DecidableEq, Repr, Inhabited

def WebScheme.name : WebScheme → String
  | .http => "http"
  | .https => "https"

/-- The port that an address without a port means. -/
def WebScheme.port : WebScheme → Nat
  | .http => 80
  | .https => 443

/-- A web address in normal form. -/
structure Url where
  scheme : WebScheme
  user : String := ""
  password : Option String := none
  host : Host
  port : Option Nat := none
  /-- At least one segment; the last is empty behind a final slash. -/
  segments : List String := [""]
  query : Option String := none
  fragment : Option String := none
  deriving DecidableEq, Repr, Inhabited

namespace Url

/-- User and password before the host. -/
def userText (url : Url) : String :=
  if url.user.isEmpty && url.password.isNone then ""
  else url.user ++ url.password.elim "" (":" ++ ·) ++ "@"

/-- The host, with the port if it has one. -/
def hostText (url : Url) : String :=
  url.host.text ++ url.port.elim "" fun port => ":" ++ toString port

/-- The address without its fragment. -/
def target (url : Url) : String :=
  url.scheme.name ++ "://" ++ url.userText ++ url.hostText ++ "/" ++
    String.intercalate "/" url.segments ++ url.query.elim "" ("?" ++ ·)

/-- The whole address. -/
def text (url : Url) : String :=
  url.target ++ url.fragment.elim "" ("#" ++ ·)

/-- The address without user and password. They stay when they spell no text. -/
def withoutUser (url : Url) : Url :=
  let spelled := fun (s : String) => Bytes.text? (Escape.decode s.toList)
  match spelled url.user with
  | none => url
  | some user =>
      if !user.isEmpty || (url.password.bind spelled).isSome then
        { url with user := "", password := none }
      else url

end Url

end ComicCatalog
