import ComicCatalog.Relay.Client

/-! # Chains of redirects

A fetch asks for one address after the other for as long as it is redirected. Such a chain
ends in a reply, or nowhere: when nobody answers, when it leads to an address that cannot be
asked for, or when it is too long.
-/

namespace ComicCatalog

namespace RelayClient

variable [HostNames]

/-- Asking for an address ends in a reply, after at most so many redirects. -/
inductive EndsIn : Nat → Url → Peer → PeerReply → Prop
  | final {redirects : Nat} {url : Url} {peer after : Peer} {sent : PeerAnswer}
      {reply : PeerReply} (hask : canAsk url = true) (hsent : peer.next = (sent, after))
      (hreply : heard sent = .ok reply) (hend : redirect? url reply = none) :
      EndsIn redirects url peer reply
  | redirected {redirects : Nat} {url next : Url} {peer after : Peer} {sent : PeerAnswer}
      {reply last : PeerReply} (hask : canAsk url = true) (hsent : peer.next = (sent, after))
      (hreply : heard sent = .ok reply) (hnext : redirect? url reply = some (.ok next))
      (hrest : EndsIn redirects next after last) : EndsIn (redirects + 1) url peer last

theorem EndsIn.canAsk {redirects : Nat} {url : Url} {peer : Peer} {last : PeerReply}
    (hends : EndsIn redirects url peer last) : canAsk url = true := by
  cases hends with
  | final hask => exact hask
  | redirected hask => exact hask

/-- A chain ends in its first reply, or goes on from there. -/
theorem EndsIn.after_first {redirects : Nat} {url : Url} {peer after : Peer}
    {sent : PeerAnswer} {first last : PeerReply} (hends : EndsIn redirects url peer last)
    (hsent : peer.next = (sent, after)) (hfirst : heard sent = .ok first) :
    redirect? url first = none ∧ last = first ∨ ∃ fewer next, redirects = fewer + 1 ∧
      redirect? url first = some (.ok next) ∧ EndsIn fewer next after last := by
  cases hends with
  | final _ hsent' hreply hend =>
      cases hsent.symm.trans hsent'
      cases hfirst.symm.trans hreply
      exact Or.inl ⟨hend, rfl⟩
  | redirected _ hsent' hreply hnext hrest =>
      cases hsent.symm.trans hsent'
      cases hfirst.symm.trans hreply
      exact Or.inr ⟨_, _, rfl, hnext, hrest⟩

/-- What following redirects leads to: the image of the one reply that the chain ends in, or
a failure where it ends in none. -/
inductive Leads (redirects : Nat) (url : Url) (peer : Peer) : Except RelayError RelayedImage → Prop
  | image {reply : PeerReply} (hends : EndsIn redirects url peer reply)
      (honly : ∀ other, EndsIn redirects url peer other → other = reply) :
      Leads redirects url peer (.ok (.ofReply reply))
  | nowhere (fault : RequestFault) (last : Url) (hnone : ∀ reply, ¬EndsIn redirects url peer reply) :
      Leads redirects url peer (.error (.request fault last))

/-- A redirect is followed, and what is behind it is what the chain leads to. -/
theorem Leads.redirected {redirects : Nat} {url next : Url} {peer after : Peer}
    {sent : PeerAnswer} {reply : PeerReply} (hask : RelayClient.canAsk url = true)
    (hsent : peer.next = (sent, after)) (hreply : heard sent = .ok reply)
    (hnext : redirect? url reply = some (.ok next)) {result : Except RelayError RelayedImage}
    (hleads : Leads redirects next after result) : Leads (redirects + 1) url peer result := by
  have hrest : ∀ last, EndsIn (redirects + 1) url peer last → EndsIn redirects next after last := by
    intro last hends
    rcases hends.after_first hsent hreply with ⟨hend, -⟩ | ⟨fewer, other, hfewer, hother, hrest⟩
    · rw [hnext] at hend
      cases hend
    · cases hfewer
      rw [hnext] at hother
      cases hother
      exact hrest
  cases hleads with
  | image hends honly =>
      exact .image (.redirected hask hsent hreply hnext hends) fun other hother =>
        honly other (hrest other hother)
  | nowhere fault last hnone => exact .nowhere fault last fun reply hends => hnone reply (hrest reply hends)

end RelayClient

end ComicCatalog
