import ComicCatalog.Text.Basic
import ComicCatalog.Url.Basic

/-! # Reading web addresses

Addresses are read leniently: backslashes count as slashes, tabs and line ends
are dropped, dot segments are resolved, and whatever may not stand in a part is
escaped. An address may be read relative to another one. Of addresses with other
schemes only the scheme is kept.
-/

namespace ComicCatalog

/-- What a text leads to. -/
inductive Location
  | web (url : Url)
  | foreign (scheme : String)
  deriving DecidableEq, Repr, Inhabited

namespace Url

/-! ## Scheme -/

def isSchemeChar (c : Char) : Bool :=
  c.isAlphanum || c = '+' || c = '-' || c = '.'

/-- The scheme in lower case, and what follows its colon. -/
def cutScheme? (cs : List Char) : Option (String × List Char) :=
  if cs.head?.any Char.isAlpha then
    match cs.dropWhile isSchemeChar with
    | ':' :: rest => some (String.ofList ((cs.takeWhile isSchemeChar).map Char.toLower), rest)
    | _ => none
  else none

/-! ## Authority -/

def isSlash (c : Char) : Bool :=
  c = '/' || c = '\\'

/-- What ends the authority of a web address. -/
def endsAuthority (c : Char) : Bool :=
  isSlash c || c = '?' || c = '#'

/-- The authority cut at its last at sign: what stands before it, if there is
one, and what stands behind. -/
def cutUser (cs : List Char) : Option (List Char) × List Char :=
  if cs.contains '@' then
    let behind := (cs.reverse.takeWhile (· != '@')).reverse
    (some (cs.take (cs.length - behind.length - 1)), behind)
  else (none, cs)

/-- Host and port cut at the first colon outside brackets. -/
def cutPort (bracketed : Bool) : List Char → List Char × Option (List Char)
  | [] => ([], none)
  | c :: rest =>
      if c = ':' ∧ !bracketed then ([], some rest)
      else
        let (host, port) := cutPort (if c = '[' then true else if c = ']' then false else bracketed) rest
        (c :: host, port)

/-- The port that digits spell; none for no digits. -/
def portOf (digits : List Char) : Except UrlError (Option Nat) :=
  if !digits.all Char.isDigit || 65535 < Text.digitsValue digits then .error .port
  else .ok (if digits.isEmpty then none else some (Text.digitsValue digits))

/-- User and password before an at sign. -/
def userOf (cs : List Char) : String × Option String :=
  let user := cs.takeWhile (· != ':')
  let password := (cs.dropWhile (· != ':')).drop 1
  (Escape.encode Escape.inUser user,
    if password.isEmpty then none else some (Escape.encode Escape.inUser password))

/-- The address of an authority, with the root as its path. -/
def ofAuthority [HostNames] (scheme : WebScheme) (authority : List Char) : Except UrlError Url := do
  let (before, behind) := cutUser authority
  let (user, password) := (before.map userOf).getD ("", none)
  let (host, digits) := cutPort false behind
  if host.isEmpty then throw .emptyHost
  let host ← Host.ofChars host
  let port ← (digits.map portOf).getD (.ok none)
  return { scheme, user, password, host, port := port.filter (· != scheme.port) }

/-! ## Path, query and fragment -/

/-- The parts of a path between slashes. -/
def pathParts (cs : List Char) : List (List Char) :=
  (cs.map fun c => if c = '\\' then '/' else c).splitOn '/'

/-- Drive letters are never left by going up. -/
def isDrive (segment : String) : Bool :=
  match segment.toList with
  | [letter, mark] => letter.isAlpha && (mark = ':' || mark = '|')
  | _ => false

/-- Leave the last segment, which comes first here. -/
def goUp : List String → List String
  | [] => []
  | segment :: rest => if isDrive segment then segment :: rest else rest

/-- Walk down a path from segments, the last first. -/
def walk (done : List String) : List (List Char) → List String
  | [] => done
  | part :: rest =>
      let name := Text.asciiFold (String.ofList part)
      let done :=
        if name ∈ [".", "%2e"] then done
        else if name ∈ ["..", ".%2e", "%2e.", "%2e%2e"] then goUp done
        else Escape.encode Escape.inPath part :: done
      let isDot := name ∈ [".", "%2e", "..", ".%2e", "%2e.", "%2e%2e"]
      walk (if isDot ∧ rest.isEmpty then "" :: done else done) rest

/-- The address with fragment as in the rest of a text, at its number sign. -/
def withFragment (url : Url) : List Char → Url
  | '#' :: rest => { url with fragment := some (Escape.encode Escape.inFragment rest) }
  | _ => { url with fragment := none }

/-- The address with query and fragment as in the rest of a text, at its question
mark. -/
def withQuery (url : Url) (cs : List Char) : Url :=
  match cs with
  | '?' :: rest =>
      let query := rest.takeWhile (· != '#')
      withFragment { url with query := some (Escape.encode Escape.inQuery query) }
        (rest.dropWhile (· != '#'))
  | rest => withFragment { url with query := none } rest

/-- The address whose path goes on from segments, the last first, as a text
says, with its query and fragment. -/
def withPath (url : Url) (done : List String) (cs : List Char) : Url :=
  let endsPath := fun c => c = '?' || c = '#'
  let parts := pathParts (cs.takeWhile (!endsPath ·))
  withQuery { url with segments := (walk done parts).reverse } (cs.dropWhile (!endsPath ·))

/-- The address behind the slashes of a scheme. -/
def absolute [HostNames] (scheme : WebScheme) (cs : List Char) : Except UrlError Url := do
  let url ← ofAuthority scheme (cs.takeWhile (!endsAuthority ·))
  let rest := cs.dropWhile (!endsAuthority ·)
  return url.withPath [] (if rest.head?.any isSlash then rest.drop 1 else rest)

/-- An address relative to another. -/
def relative [HostNames] (base : Url) (cs : List Char) : Except UrlError Url :=
  match cs.takeWhile isSlash, cs with
  | [], [] => .ok { base with fragment := none }
  | [], '?' :: _ => .ok (base.withQuery cs)
  | [], '#' :: _ => .ok (base.withFragment cs)
  | [], cs => .ok (base.withPath (base.segments.dropLast.reverse) cs)
  | [_], cs => .ok (base.withPath [] (cs.drop 1))
  | _, cs => absolute base.scheme (cs.dropWhile isSlash)

/-! ## Other schemes -/

/-- The fault in the authority of an address with a scheme of its own kind. -/
def foreignFault? (authority : List Char) : Option UrlError :=
  let (before, behind) := cutUser authority
  let (host, digits) := cutPort false behind
  let named := before.any fun user => user != [] && user != [':']
  match Host.foreignFault? host with
  | some fault => some fault
  | none =>
      if host.isEmpty && (digits.isSome || named) then some .emptyHost
      else
        match (digits.map fun ds => portOf (ds.takeWhile (· != '\\'))).getD (.ok none) with
        | .error fault => some fault
        | .ok _ => none

/-- The fault in the host of a file's address. A drive letter is no host. -/
def fileFault? [HostNames] (cs : List Char) : Option UrlError :=
  match cs with
  | first :: second :: rest =>
      let host := rest.takeWhile (!endsAuthority ·)
      if !isSlash first || !isSlash second || host.isEmpty || isDrive (String.ofList host) then none
      else
        match Host.ofChars host with
        | .error fault => some fault
        | .ok _ => none
  | _ => none

/-- Whether a scheme that is not the web's names hosts as the web does. -/
def isWebLike (scheme : String) : Bool :=
  scheme ∈ ["ws", "wss", "ftp"]

/-- The fault in what follows a scheme that is not the web's. -/
def otherFault? [HostNames] (scheme : String) (cs : List Char) : Option UrlError :=
  if scheme = "file" then fileFault? cs
  else if isWebLike scheme then
    match ofAuthority .http ((cs.dropWhile isSlash).takeWhile (!endsAuthority ·)) with
    | .error fault => some fault
    | .ok _ => none
  else
    match cs with
    | '/' :: '/' :: rest =>
        foreignFault? (rest.takeWhile fun c => c != '/' && c != '?' && c != '#')
    | _ => none

/-! ## Whole addresses -/

/-- The text that counts: without controls and spaces around it, and without tabs
and line ends. -/
def meant (cs : List Char) : List Char :=
  (Text.strip (·.toNat ≤ 32) cs).filter fun c => c != '\t' && c != '\n' && c != '\r'

/-- Where a text leads, seen from a base if there is one. -/
def read [HostNames] (base : Option Url) (cs : List Char) : Except UrlError Location :=
  let cs := meant cs
  let web := fun (scheme : WebScheme) (rest : List Char) =>
    match base with
    | some base =>
        if base.scheme = scheme ∧ (rest.takeWhile isSlash).length < 2 then base.relative rest
        else absolute scheme (rest.dropWhile isSlash)
    | none => absolute scheme (rest.dropWhile isSlash)
  match cutScheme? cs with
  | some ("http", rest) => Location.web <$> web .http rest
  | some ("https", rest) => Location.web <$> web .https rest
  | some (scheme, rest) =>
      match otherFault? scheme rest with
      | some fault => .error fault
      | none => .ok (.foreign scheme)
  | none =>
      match base with
      | some base => Location.web <$> base.relative cs
      | none => .error .relative

/-- Where a text leads by itself. -/
def ofText [HostNames] (s : String) : Except UrlError Location :=
  read none s.toList

/-- Where a text leads, seen from an address. -/
def join [HostNames] (base : Url) (s : String) : Except UrlError Location :=
  read (some base) s.toList

end Url

end ComicCatalog
