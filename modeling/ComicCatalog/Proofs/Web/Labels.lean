import ComicCatalog.Proofs.Web.Requests
import Mathlib

/-! # The labels of requests

The metrics keep a series for each method, path and status that a request was counted
under. Paths are labelled by a fixed list and statuses have three digits, but methods are
labelled as they are sent. So the series of a service stay within a fixed finite set exactly
as far as the methods do that it is asked with.
-/

namespace ComicCatalog

variable {σ : Type}

/-! ## Statuses -/

/-- The statuses that answers can have. -/
def IsStatus (status : Nat) : Prop :=
  100 ≤ status ∧ status ≤ 999

instance (status : Nat) : Decidable (IsStatus status) :=
  inferInstanceAs (Decidable (_ ∧ _))

namespace Peer

/-- The reply in an answer, if there is one. -/
def reply? : PeerAnswer → Option PeerReply
  | .reply reply => some reply
  | .hangUp => none
  | .delay => none

/-- The replies that are left. -/
def replies : Peer → List PeerReply
  | .unreachable => []
  | .unresponsive => []
  | .script answers => answers.filterMap reply?

/-- The peer replies with statuses that answers can have. -/
def HasStatuses (peer : Peer) : Prop :=
  ∀ reply ∈ peer.replies, IsStatus reply.status

theorem HasStatuses.next {peer after : Peer} {answer : PeerAnswer} (hpeer : peer.HasStatuses)
    (hnext : peer.next = (answer, after)) :
    (∀ reply, reply? answer = some reply → IsStatus reply.status) ∧ after.HasStatuses := by
  cases peer with
  | unreachable =>
      cases hnext
      exact ⟨nofun, hpeer⟩
  | unresponsive =>
      cases hnext
      exact ⟨nofun, hpeer⟩
  | script answers =>
      cases answers with
      | nil =>
          cases hnext
          exact ⟨nofun, hpeer⟩
      | cons first rest =>
          cases hnext
          constructor
          · intro reply hreply
            exact hpeer reply (List.mem_filterMap.mpr ⟨answer, List.mem_cons_self, hreply⟩)
          · intro reply hreply
            obtain ⟨other, hother, hreply⟩ := List.mem_filterMap.mp hreply
            exact hpeer reply (List.mem_filterMap.mpr ⟨other, List.mem_cons_of_mem _ hother, hreply⟩)

end Peer

namespace RelayClient

/-- What is heard is the reply in the answer. -/
theorem reply?_of_heard {answer : PeerAnswer} {reply : PeerReply} (hheard : heard answer = .ok reply) :
    Peer.reply? answer = some reply := by
  cases answer with
  | reply other =>
      rw [heard] at hheard
      split at hheard
      · cases hheard
        rfl
      · cases hheard
  | hangUp => cases hheard
  | delay => cases hheard

variable [HostNames] (client : RelayClient)

/-- An image has the status of a reply. -/
theorem isStatus_follow (redirects : Nat) (url : Url) (referer : Option String) {peer : Peer}
    (hpeer : peer.HasStatuses) :
    (∀ image, (client.follow redirects url referer peer).1 = .ok image → IsStatus image.status) ∧
      (client.follow redirects url referer peer).2.2.HasStatuses := by
  fun_induction RelayClient.follow client redirects url referer peer with
  | case1 => exact ⟨nofun, hpeer⟩
  | case2 _ _ _ _ _ _ _ _ hnext => exact ⟨nofun, (hpeer.next hnext).2⟩
  | case3 _ _ _ _ _ _ _ _ hnext reply hreply =>
      obtain ⟨hstatus, hafter⟩ := hpeer.next hnext
      refine ⟨?_, hafter⟩
      rintro image ⟨⟩
      exact hstatus reply (reply?_of_heard hreply)
  | case4 _ _ _ _ _ _ _ _ hnext => exact ⟨nofun, (hpeer.next hnext).2⟩
  | case5 _ _ _ _ _ _ _ hnext => exact ⟨nofun, (hpeer.next hnext).2⟩
  | case6 _ _ _ _ _ _ _ hnext _ _ _ _ _ _ _ _ hfollow ih =>
      have hrest := ih (hpeer.next hnext).2
      rwa [hfollow] at hrest

theorem isStatus_fetch (raw : String) {peer : Peer} (hpeer : peer.HasStatuses) :
    (∀ image, (client.fetch raw peer).result = .ok image → IsStatus image.status) ∧
      (client.fetch raw peer).peer.HasStatuses := by
  unfold fetch
  split
  · exact ⟨nofun, hpeer⟩
  · exact client.isStatus_follow maxRedirects _ client.referer hpeer

end RelayClient

namespace Service

theorem isStatus_entriesAnswer (found : Except CatalogError (List Entry)) :
    IsStatus (entriesAnswer found).status := by
  cases found with
  | error error => exact (by decide : IsStatus 500)
  | ok entries => exact (by decide : IsStatus 200)

theorem isStatus_relayAnswer {found : Except RelayError RelayedImage}
    (hfound : ∀ image, found = .ok image → IsStatus image.status) :
    IsStatus (relayAnswer found).status := by
  cases found with
  | error error =>
      unfold relayAnswer
      dsimp only
      split
      · exact (by decide : IsStatus 400)
      · exact (by decide : IsStatus 500)
  | ok image => exact hfound image rfl

/-- The answer has a status, and the peer goes on replying with statuses. -/
def KeepsStatuses (run : ServiceRun σ) : Prop :=
  IsStatus run.answer.status ∧ run.state.peer.HasStatuses

theorem keepsStatuses_ofAnswer {status : Nat} (hstatus : IsStatus status) {answer : WebAnswer}
    (hanswer : answer.status = status) {state : ServiceState σ} (hpeer : state.peer.HasStatuses) :
    KeepsStatuses (.ofAnswer answer state) :=
  ⟨hanswer ▸ hstatus, hpeer⟩

section

variable (responder : Responder σ) (request : WebRequest) {state : ServiceState σ}

theorem keepsStatuses_listing (service : Service) (hpeer : state.peer.HasStatuses) :
    KeepsStatuses (service.listing responder request state) := by
  unfold listing
  split
  · exact keepsStatuses_ofAnswer (by decide : IsStatus 400) rfl hpeer
  · exact ⟨isStatus_entriesAnswer _, hpeer⟩

theorem keepsStatuses_search (hpeer : state.peer.HasStatuses) :
    KeepsStatuses (search responder request state) := by
  unfold search
  split
  · exact keepsStatuses_ofAnswer (by decide : IsStatus 400) rfl hpeer
  · split
    · exact keepsStatuses_ofAnswer (by decide : IsStatus 400) rfl hpeer
    · exact ⟨isStatus_entriesAnswer _, hpeer⟩

end

variable [HostNames] (service : Service) (responder : Responder σ) (request : WebRequest)
  {state : ServiceState σ}

theorem keepsStatuses_image (hpeer : state.peer.HasStatuses) :
    KeepsStatuses (service.image request state) := by
  unfold image
  split
  · exact keepsStatuses_ofAnswer (by decide : IsStatus 400) rfl hpeer
  · split
    · exact keepsStatuses_ofAnswer (by decide : IsStatus 400) rfl hpeer
    next url _ =>
      obtain ⟨hstatus, hafter⟩ := service.relay.isStatus_fetch url hpeer
      generalize service.relay.fetch url state.peer = run at hstatus hafter ⊢
      exact ⟨isStatus_relayAnswer hstatus, hafter⟩

theorem keepsStatuses_page (route : Route) (hpeer : state.peer.HasStatuses) :
    KeepsStatuses (service.page responder route request state) := by
  cases route with
  | listing => exact service.keepsStatuses_listing responder request hpeer
  | search => exact keepsStatuses_search responder request hpeer
  | image => exact service.keepsStatuses_image request hpeer
  | health => exact keepsStatuses_ofAnswer (by decide : IsStatus 200) rfl hpeer
  | metrics => exact keepsStatuses_ofAnswer (by decide : IsStatus 200) rfl hpeer

theorem keepsStatuses_dispatch (hpeer : state.peer.HasStatuses) :
    KeepsStatuses (service.dispatch responder request state) := by
  unfold dispatch
  split
  · exact keepsStatuses_ofAnswer (by decide : IsStatus 404) rfl hpeer
  · split
    · exact service.keepsStatuses_page responder request _ hpeer
    · exact keepsStatuses_ofAnswer (by decide : IsStatus 405) rfl hpeer

theorem keepsStatuses_handle (hpeer : state.peer.HasStatuses) :
    KeepsStatuses (service.handle responder request state) := by
  by_cases hmethod : request.method = "OPTIONS"
  · refine ⟨?_, by rwa [(service.handle_of_preflight responder state hmethod).2]⟩
    rw [service.status_of_preflight responder state hmethod]
    decide
  · have hkeeps : KeepsStatuses
        (service.dispatch responder request { state with inFlight := state.inFlight + 1 }) :=
      service.keepsStatuses_dispatch responder request hpeer
    constructor
    · rw [service.status_handle responder state hmethod]
      exact hkeeps.1
    · rw [service.handle_of_measured responder state hmethod]
      exact hkeeps.2

theorem isStatus_answers (requests : List WebRequest) (hpeer : state.peer.HasStatuses) :
    ∀ answer ∈ service.answers responder requests state, IsStatus answer.status := by
  induction requests generalizing state with
  | nil => exact nofun
  | cons request rest ih =>
      obtain ⟨hstatus, hafter⟩ := service.keepsStatuses_handle responder request hpeer
      rw [answers, List.forall_mem_cons]
      exact ⟨hstatus, ih hafter⟩

end Service

/-! ## Series -/

namespace Metrics

/-- The labels of all series of requests that the metrics show: those of the counter of
requests and those of their durations. -/
def requestSeries (tally : Tally) : List (List String) :=
  ((families 0 tally).filter fun family => family.labelNames = ["method", "path", "status"]).flatMap
    fun family => family.samples.map Sample.labels

theorem labels_counted {labels : List (List String)} {values : List String} :
    values ∈ (counted labels).map Sample.labels ↔ values ∈ labels := by
  simp [counted, Function.comp_def]

theorem mem_requestSeries {tally : Tally} {values : List String} :
    values ∈ requestSeries tally ↔ ∃ method path status,
      Counter.request method path status ∈ tally ∧ values = [method, path, toString status] := by
  have hseries : requestSeries tally =
      (counted (tally.filterMap requestLabels)).map Sample.labels ++
        (counted (tally.filterMap requestLabels)).map Sample.labels := by
    simp [requestSeries, families]
  rw [hseries, List.mem_append, or_self, labels_counted, List.mem_filterMap]
  constructor
  · rintro ⟨counter, hcounter, hlabels⟩
    cases counter with
    | request method path status =>
        cases hlabels
        exact ⟨method, path, status, hcounter, rfl⟩
    | _ => cases hlabels
  · rintro ⟨method, path, status, hcounter, rfl⟩
    exact ⟨_, hcounter, rfl⟩

end Metrics

namespace Route

/-- The labels of paths. -/
def labels : List String :=
  "\x7bother\x7d" :: all.map path

theorem label_mem_labels (path : String) : label path ∈ labels := by
  unfold label
  cases hroute : atPath? path with
  | none => exact List.mem_cons_self
  | some route =>
      exact List.mem_cons_of_mem _ (List.mem_map_of_mem (List.mem_of_find?_eq_some hroute))

end Route

namespace Service

/-- The methods that are counted, each with every label of a path and every status. -/
def labelSpace (methods : Set String) : Set (List String) :=
  {values | ∃ method ∈ methods \ {"OPTIONS"}, ∃ path ∈ Route.labels, ∃ status, IsStatus status ∧
    values = [method, path, toString status]}

theorem labelSpace_finite {methods : Set String} (hmethods : (methods \ {"OPTIONS"}).Finite) :
    (labelSpace methods).Finite := by
  have hstatuses : {status | IsStatus status}.Finite :=
    (Set.finite_le_nat 999).subset fun status hstatus => hstatus.2
  refine ((hmethods.prod (Route.labels.finite_toSet.prod hstatuses)).image
    fun labels => [labels.1, labels.2.1, toString labels.2.2]).subset ?_
  rintro values ⟨method, hmethod, path, hpath, status, hstatus, rfl⟩
  exact ⟨(method, path, status), ⟨hmethod, hpath, hstatus⟩, rfl⟩

variable [HostNames] (service : Service) (responder : Responder σ)

/-- A counted request was answered and not one that asks what it may ask. -/
theorem served_of_mem_tally {requests : List WebRequest} {source : σ} {peer : Peer}
    {method path : String} {status : Nat}
    (hcounted : Counter.request method path status ∈
      (service.after responder requests (.fresh source peer)).tally) :
    ∃ request ∈ requests, ∃ answer ∈ service.answers responder requests (.fresh source peer),
      request.method ≠ "OPTIONS" ∧ method = request.method ∧ path = Route.label request.path ∧
        status = answer.status := by
  have hcount := List.count_pos_iff.mpr hcounted
  rw [service.count_after responder] at hcount
  obtain ⟨⟨request, answer⟩, hserved, hcounter⟩ :=
    List.countP_pos_iff.mp (hcount.trans_eq (Nat.zero_add _))
  obtain ⟨hrequest, hanswer⟩ := List.of_mem_zip hserved
  refine ⟨request, hrequest, answer, hanswer, ?_⟩
  by_cases hmethod : request.method = "OPTIONS"
  · simp [counterOf?, hmethod] at hcounter
  · simp only [counterOf?, if_neg hmethod, decide_eq_true_eq, Option.some.injEq,
      Counter.request.injEq] at hcounter
    obtain ⟨rfl, rfl, rfl⟩ := hcounter
    exact ⟨hmethod, rfl, rfl, rfl⟩

/-- The series of requests that services create, whoever stands behind them, when they are
asked with some methods only. -/
def series (methods : Set String) : Set (List String) :=
  {values | ∃ (σ : Type) (service : Service) (responder : Responder σ) (source : σ) (peer : Peer)
    (requests : List WebRequest), peer.HasStatuses ∧
      (∀ request ∈ requests, request.method ∈ methods) ∧
      values ∈ Metrics.requestSeries
        (service.after responder requests (.fresh source peer)).tally}

theorem series_subset_labelSpace (methods : Set String) : series methods ⊆ labelSpace methods := by
  rintro values ⟨σ, service, responder, source, peer, requests, hpeer, hmethods, hvalues⟩
  obtain ⟨method, path, status, hcounted, rfl⟩ := Metrics.mem_requestSeries.mp hvalues
  obtain ⟨request, hrequest, answer, hanswer, hmethod, rfl, rfl, rfl⟩ :=
    service.served_of_mem_tally responder hcounted
  exact ⟨_, ⟨hmethods request hrequest, hmethod⟩, _, Route.label_mem_labels request.path, _,
    service.isStatus_answers responder requests hpeer answer hanswer, rfl⟩

/-- Each method that is counted has a series, as any path can be asked for. -/
theorem unknown_mem_series {methods : Set String} {method : String}
    (hmethod : method ∈ methods \ {"OPTIONS"}) :
    [method, "\x7bother\x7d", "404"] ∈ series methods := by
  let request : WebRequest := { (default : WebRequest) with method := method }
  refine ⟨Unit, default, fun _ state => (.ok [], state), (), .unreachable, [request], nofun, ?_, ?_⟩
  · simpa using hmethod.1
  · refine Metrics.mem_requestSeries.mpr ⟨method, _, 404, ?_, rfl⟩
    have hoptions : request.method ≠ "OPTIONS" := hmethod.2
    rw [after, after, handle_of_measured _ _ _ hoptions]
    exact List.mem_append_right _ List.mem_cons_self

theorem series_finite_iff (methods : Set String) :
    (series methods).Finite ↔ (methods \ {"OPTIONS"}).Finite := by
  constructor
  · intro hseries
    refine Set.Finite.of_finite_image
      (hseries.subset (Set.image_subset_iff.mpr fun method => unknown_mem_series)) ?_
    exact fun _ _ _ _ hlabels => (List.cons.inj hlabels).1
  · intro hmethods
    exact (labelSpace_finite hmethods).subset (series_subset_labelSpace methods)

end Service

/-- The methods that are words of capital letters. -/
def capitalMethods : Set String :=
  {method | method.toList ≠ [] ∧ ∀ letter ∈ method.toList, letter.isUpper}

theorem capitalMethods_infinite : (capitalMethods \ {"OPTIONS"}).Infinite := by
  refine Set.Infinite.sdiff ?_ (Set.finite_singleton _)
  refine Set.infinite_of_injective_forall_mem
    (f := fun length => String.ofList (List.replicate (length + 1) 'A')) ?_ ?_
  · intro first second hequal
    simpa using congrArg String.length hequal
  · intro length
    simp [capitalMethods, List.mem_replicate]

/-- The series of requests stay among the methods that the service is asked with, five paths
and one label for all others, and the statuses. So they are finitely many exactly when the
methods are, and methods of capital letters alone make them infinitely many. -/
theorem request_series_finite_iff_methods [HostNames] (methods : Set String) :
    Service.series methods ⊆ Service.labelSpace methods ∧
      ((Service.series methods).Finite ↔ (methods \ {"OPTIONS"}).Finite) ∧
      (capitalMethods ⊆ methods → (Service.series methods).Infinite) := by
  refine ⟨Service.series_subset_labelSpace methods, Service.series_finite_iff methods, ?_⟩
  intro hcapitals hseries
  have hmethods := (Service.series_finite_iff methods).mp hseries
  exact capitalMethods_infinite (hmethods.subset (Set.sdiff_subset_sdiff_left hcapitals))

end ComicCatalog
