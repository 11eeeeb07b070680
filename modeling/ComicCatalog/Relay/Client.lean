import ComicCatalog.Lookup.Counter
import ComicCatalog.Relay.Peer
import ComicCatalog.Settings.Basic
import ComicCatalog.Url.Reading

/-! # Relaying images

An image is fetched from a web address and handed on with its status, type and
length, whatever the status. Redirects are followed up to a bound. A fetch that
is sent is counted once, by how it ended; one that is refused beforehand is not.
-/

namespace ComicCatalog

/-- Why no relay can be set up. -/
inductive RelayFault
  | referer
  | userAgent
  deriving DecidableEq, Repr

/-- Why a request got no final reply. -/
inductive RequestFault
  /-- The address cannot be asked for. -/
  | unfit
  /-- Nobody answered. -/
  | unanswered
  /-- Nobody answered in time. -/
  | late
  /-- The redirects did not end. -/
  | redirects
  deriving DecidableEq, Repr

/-- Why an image is not relayed. -/
inductive RelayError
  | unreadableUrl (raw : String) (fault : UrlError)
  | foreignScheme (scheme : String)
  | request (fault : RequestFault) (url : Url)
  deriving DecidableEq, Repr

def RelayFault.message (fault : RelayFault) : String :=
  "Failed to build HTTP client: " ++
    match fault with
    | .referer => "failed to parse header value"
    | .userAgent => "builder error"

/-- What went wrong with a request for an address. -/
def RequestFault.message (url : Url) : RequestFault → String
  | .unfit => failed "builder error"
  | .unanswered => failed "error sending request"
  | .late => "Upstream request timed out"
  | .redirects => failed "error following redirect"
where
  failed (cause : String) : String :=
    "Upstream request failed: " ++ cause ++ " for url (" ++ url.text ++ ")"

/-- Why an address is refused. -/
def RelayError.reason? : RelayError → Option String
  | .unreadableUrl raw fault => some (raw ++ ": " ++ fault.message)
  | .foreignScheme scheme => some ("unsupported scheme " ++ Text.quoted scheme)
  | .request _ _ => none

def RelayError.message (error : RelayError) : String :=
  match error with
  | .request fault url => fault.message url
  | error => "Invalid URL: " ++ error.reason?.getD ""

/-- An image on its way. -/
structure RelayedImage where
  status : Nat
  contentType : Option String
  contentLength : Option Nat
  /-- The body; none when it breaks off. -/
  body : Option Bytes
  deriving DecidableEq, Repr, Inhabited

namespace RelayedImage

/-- The image of a reply. -/
def ofReply (reply : PeerReply) : RelayedImage where
  status := reply.status
  contentType := (Headers.get? reply.headers "content-type").bind Headers.visible?
  contentLength := reply.length?
  body := reply.delivered?

def isSuccess (image : RelayedImage) : Bool :=
  200 ≤ image.status && image.status < 300

/-- How the fetch of an image is counted. -/
def outcome (image : RelayedImage) : FetchOutcome :=
  if image.isSuccess then .success else .unsuccessful

end RelayedImage

/-- A body that breaks off. -/
def brokenBodyMessage : String :=
  "Upstream stream failed: error decoding response body"

/-- What every request of a relay carries. -/
structure RelayClient where
  userAgent : String
  referer : Option String
  deriving DecidableEq, Repr, Inhabited

/-- What a fetch leaves behind. -/
structure RelayRun where
  result : Except RelayError RelayedImage
  /-- The requests that the peer got, in order. -/
  seen : List PeerRequest
  counted : Tally
  peer : Peer

namespace RelayClient

/-- The relay of the given settings. The referer is looked at first. -/
def ofSettings (settings : ProxySettings) : Except RelayFault RelayClient :=
  if !settings.referer.all Headers.isValue then .error .referer
  else if !Headers.isValue settings.userAgent then .error .userAgent
  else .ok ⟨settings.userAgent, settings.referer⟩

/-- The most redirects that are followed. -/
def maxRedirects : Nat := 10

/-- The longest address that is asked for, in bytes. -/
def maxTargetSize : Nat := 65534

/-- Whether an address can be asked for: some characters of host names cannot be
sent, and neither can very long addresses. -/
def canAsk (url : Url) : Bool :=
  url.hostText.toList.all (fun c => c.toNat != 96 && !"\"\x7b\x7d".toList.contains c) &&
    url.text.utf8ByteSize ≤ maxTargetSize

/-- Where a reply redirects to, if it does. -/
def redirect? [HostNames] (url : Url) (reply : PeerReply) : Option (Except String Url) :=
  if reply.status ∈ [301, 302, 303, 307, 308] then
    match ((Headers.get? reply.headers "location").bind Bytes.text?).map url.join with
    | some (.ok (.web next)) => if canAsk next then some (.ok next) else none
    | some (.ok (.foreign scheme)) => some (.error scheme)
    | _ => none
  else none

/-- The referer on the way from one address to the next. It is withheld where the
next one is less secure. -/
def refererFor (url next : Url) (referer : Option String) : Option String :=
  if url.scheme = .https ∧ next.scheme = .http then referer
  else some { url with user := "", password := none }.target

/-- The request for an address. -/
def requestFor (client : RelayClient) (url : Url) (referer : Option String) : PeerRequest :=
  ⟨"GET", url.target, client.userAgent, referer⟩

/-- The reply that a request gets, or why it gets none. -/
def heard : PeerAnswer → Except RequestFault PeerReply
  | .reply reply => if reply.isFinal then .ok reply else .error .unanswered
  | .hangUp => .error .unanswered
  | .delay => .error .late

/-- Ask for an address, and follow at most `redirects` redirects. -/
def follow [HostNames] (client : RelayClient) (redirects : Nat) (url : Url) (referer : Option String)
    (peer : Peer) :
    Except RelayError RelayedImage × List PeerRequest × Peer :=
  if !canAsk url then (.error (.request .unfit url), [], peer)
  else
    let seen := peer.sees (client.requestFor url referer)
    let (answer, after) := peer.next
    match heard answer with
    | .error fault => (.error (.request fault url), seen, after)
    | .ok reply =>
        match redirect? url reply with
        | none => (.ok (.ofReply reply), seen, after)
        | some (.error _) => (.error (.request .unfit url), seen, after)
        | some (.ok next) =>
            match redirects with
            | 0 => (.error (.request .redirects url), seen, after)
            | redirects + 1 =>
                let (result, more, after) :=
                  client.follow redirects next (refererFor url next referer) after
                (result, seen ++ more, after)

/-- The web address of a text, as a relay takes it. -/
def urlOf [HostNames] (raw : String) : Except RelayError Url :=
  match Url.ofText (Text.trim raw) with
  | .ok (.web url) => .ok url.withoutUser
  | .ok (.foreign scheme) => .error (.foreignScheme scheme)
  | .error fault => .error (.unreadableUrl raw fault)

/-- How a fetch is counted. -/
def outcome : Except RelayError RelayedImage → FetchOutcome
  | .ok image => image.outcome
  | .error _ => .failed

/-- Fetch the image at an address. -/
def fetch [HostNames] (client : RelayClient) (raw : String) (peer : Peer) : RelayRun :=
  match urlOf raw with
  | .error error => ⟨.error error, [], [], peer⟩
  | .ok url =>
      let (result, seen, after) := client.follow maxRedirects url client.referer peer
      ⟨result, seen, [.fetch (outcome result)], after⟩

end RelayClient

end ComicCatalog
