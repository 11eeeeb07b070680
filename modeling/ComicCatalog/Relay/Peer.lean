import ComicCatalog.Net.Message

/-! # Peers

Whoever serves the images that are relayed. What becomes of the requests is told by a
script: the first request meets what comes first in it, and so on. Where the script
ends, the peer hangs up.
-/

namespace ComicCatalog

/-- How a peer marks the end of a body. -/
inductive Framing
  /-- A length told beforehand. -/
  | length (declared : Nat)
  | chunked
  /-- The end of the connection. -/
  | close
  deriving DecidableEq, Repr, Inhabited

/-- Why no more bytes of a body come. -/
inductive BodyEnd
  /-- The end is marked as the framing has it. -/
  | marked
  /-- The connection breaks. -/
  | broken
  /-- Nothing comes for longer than a read may take. -/
  | late
  deriving DecidableEq, Repr, Inhabited

/-- A reply of a peer. -/
structure PeerReply where
  status : Nat
  headers : Headers
  /-- The bytes of the body that come. -/
  body : Bytes
  framing : Framing
  bodyEnd : BodyEnd := .marked
  deriving Inhabited

namespace PeerReply

/-- Whether a reply is one to be waited for. Replies that only tell of progress are passed
over, and what has no status is no reply. -/
def isFinal (reply : PeerReply) : Bool :=
  reply.status = 101 || (200 ≤ reply.status && reply.status ≤ 999)

/-- Replies of these kinds never have a body. -/
def isBodiless (reply : PeerReply) : Bool :=
  reply.status = 101 || reply.status = 204 || reply.status = 304

/-- The length of the body, where it is known before the body is read. -/
def length? (reply : PeerReply) : Option Nat :=
  if reply.isBodiless then some 0
  else
    match reply.framing with
    | .length declared => some declared
    | .chunked => none
    | .close => none

/-- The bytes of the body; none when it breaks off. A body of a known length is whole as soon
as so many bytes have come, and any other one at its marked end. -/
def delivered? (reply : PeerReply) : Option Bytes :=
  match reply.length? with
  | some length =>
      if length ≤ reply.body.length then some (reply.body.take length) else none
  | none => if reply.bodyEnd = .marked then some reply.body else none

end PeerReply

/-- A request as a peer gets it. -/
structure PeerRequest where
  method : String
  target : String
  userAgent : String
  referer : Option String
  deriving DecidableEq, Repr, Inhabited

/-- What a request meets. -/
inductive PeerAnswer
  | reply (reply : PeerReply)
  /-- The peer hangs up. -/
  | hangUp
  /-- Nothing comes for longer than a read may take. -/
  | delay
  deriving Inhabited

/-- A peer. -/
inductive Peer
  /-- Connections to it fail. -/
  | unreachable
  /-- Connections to it are not made in time. -/
  | unresponsive
  | script (answers : List PeerAnswer)
  deriving Inhabited

namespace Peer

/-- What the next request meets, and the peer after it. -/
def next : Peer → PeerAnswer × Peer
  | .unreachable => (.hangUp, .unreachable)
  | .unresponsive => (.delay, .unresponsive)
  | .script [] => (.hangUp, .script [])
  | .script (answer :: rest) => (answer, .script rest)

/-- What a peer gets to see of a request. -/
def sees (request : PeerRequest) : Peer → List PeerRequest
  | .unreachable => []
  | .unresponsive => []
  | .script _ => [request]

end Peer

end ComicCatalog
