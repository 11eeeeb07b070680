import ComicCatalog.Proofs.Catalog.Accounting
import ComicCatalog.Web.Service

/-! # How requests are counted

A request is counted once and behind all that its page counts, under its method, the label
of its path and the status that is sent; one that asks what it may ask is not counted at
all. Between requests none is in flight, and the page of the metrics sees itself as the only
one.
-/

namespace ComicCatalog

open Lookup

variable {σ : Type}

/-! ## What pages count -/

/-- The run has added to the tally what it counted, which is no request, and has left the
number of requests in flight alone. -/
structure ServiceRun.LeavesRequests (before : ServiceState σ) (run : ServiceRun σ) : Prop where
  tally : run.state.tally = before.tally ++ run.counted
  inFlight : run.state.inFlight = before.inFlight
  requests : ∀ method path status, Counter.request method path status ∉ run.counted

namespace ServiceRun.LeavesRequests

theorem ofAnswer (answer : WebAnswer) (state : ServiceState σ) :
    LeavesRequests state (.ofAnswer answer state) :=
  ⟨(List.append_nil _).symm, rfl, fun _ _ _ => List.not_mem_nil⟩

theorem ofRun {ε α : Type} {run : Run σ ε α} (answer : Except ε α → WebAnswer)
    (state : ServiceState σ)
    (hrequests : ∀ method path status, Counter.request method path status ∉ run.counted) :
    LeavesRequests state (.ofRun run answer state) :=
  ⟨rfl, rfl, hrequests⟩

end ServiceRun.LeavesRequests

theorem ListingRequest.countsWithin_entries (request : ListingRequest) (pageSize : Nat) :
    CountsWithin [] (request.entries pageSize) := by
  apply CountsWithin.mapError
  apply (CountsWithin.fetch _).bind
  intro rows
  apply (countsWithin_annotate rows).bind
  intro entries
  apply CountsWithin.pure

theorem ListingRequest.request_notMem_counted (request : ListingRequest) (pageSize : Nat)
    (responder : Responder σ) (state : σ) (method path : String) (status : Nat) :
    Counter.request method path status ∉
      ((request.entries pageSize).run responder state).counted := by
  rw [List.sublist_nil.mp ((request.countsWithin_entries pageSize).counted responder state)]
  exact List.not_mem_nil

namespace Search

theorem request_notMem_counted (responder : Responder σ) (query : String) (state : σ)
    (method path : String) (status : Nat) :
    Counter.request method path status ∉ (search responder query state).counted := by
  obtain ⟨counted, hcounted, hsearch⟩ := counted_search responder query state
  rw [hsearch, List.mem_append, not_or]
  refine ⟨?_, by simp⟩
  intro hmem
  have hfacet := hcounted.subset hmem
  simp at hfacet

end Search

theorem RelayClient.request_notMem_counted [HostNames] (client : RelayClient) (raw : String) (peer : Peer)
    (method path : String) (status : Nat) :
    Counter.request method path status ∉ (client.fetch raw peer).counted := by
  unfold fetch
  split <;> simp

namespace Service

/-! ## Layers -/

@[simp]
theorem status_withLength (answer : WebAnswer) : answer.withLength.status = answer.status := by
  unfold WebAnswer.withLength
  split <;> rfl

@[simp]
theorem status_finished (request : WebRequest) (answer : WebAnswer) :
    (finished request answer).status = answer.status := by
  unfold finished
  extract_lets sent
  split <;> exact status_withLength answer

@[simp]
theorem status_granted (allowed : List String) (request : WebRequest) (answer : WebAnswer) :
    (Cors.granted allowed request answer).status = answer.status := by
  unfold Cors.granted
  extract_lets varied
  split <;> rfl

@[simp]
theorem body_withLength (answer : WebAnswer) : answer.withLength.body = answer.body := by
  unfold WebAnswer.withLength
  split <;> rfl

@[simp]
theorem body_granted (allowed : List String) (request : WebRequest) (answer : WebAnswer) :
    (Cors.granted allowed request answer).body = answer.body := by
  unfold Cors.granted
  extract_lets varied
  split <;> rfl

/-! ## Pages -/

section

variable (responder : Responder σ) (request : WebRequest) (state : ServiceState σ)

theorem leavesRequests_listing (service : Service) :
    (service.listing responder request state).LeavesRequests state := by
  unfold listing
  split
  · exact .ofAnswer _ state
  · exact .ofRun _ state (ListingRequest.request_notMem_counted _ service.pageSize responder _)

theorem leavesRequests_search : (search responder request state).LeavesRequests state := by
  unfold search
  split
  · exact .ofAnswer _ state
  · split
    · exact .ofAnswer _ state
    · exact .ofRun _ state (Search.request_notMem_counted responder _ _)

end

variable [HostNames] (service : Service) (responder : Responder σ) (request : WebRequest)
  (state : ServiceState σ)

theorem leavesRequests_image : (service.image request state).LeavesRequests state := by
  unfold image
  split
  · exact .ofAnswer _ state
  · split
    · exact .ofAnswer _ state
    next url _ =>
      have hrequests := service.relay.request_notMem_counted url state.peer
      generalize service.relay.fetch url state.peer = run at hrequests ⊢
      exact ⟨rfl, rfl, hrequests⟩

theorem leavesRequests_page (route : Route) :
    (service.page responder route request state).LeavesRequests state := by
  cases route with
  | listing => exact service.leavesRequests_listing responder request state
  | search => exact leavesRequests_search responder request state
  | image => exact service.leavesRequests_image request state
  | health => exact .ofAnswer _ state
  | metrics => exact .ofAnswer _ state

theorem leavesRequests_dispatch :
    (service.dispatch responder request state).LeavesRequests state := by
  unfold dispatch
  split
  · exact .ofAnswer _ state
  · split
    · exact service.leavesRequests_page responder request state _
    · exact .ofAnswer _ state

/-! ## Requests -/

variable {request}

theorem handle_of_preflight (hmethod : request.method = "OPTIONS") :
    (service.handle responder request state).counted = [] ∧
      (service.handle responder request state).state = state := by
  have hpreflight : Cors.isPreflight request = true := by simp [Cors.isPreflight, hmethod]
  unfold handle
  rw [if_pos hpreflight]
  exact ⟨rfl, rfl⟩

theorem status_of_preflight (hmethod : request.method = "OPTIONS") :
    (service.handle responder request state).answer.status = 200 := by
  have hpreflight : Cors.isPreflight request = true := by simp [Cors.isPreflight, hmethod]
  unfold handle
  rw [if_pos hpreflight]
  show (finished request (Cors.granted service.allowedOrigins request _)).status = _
  rw [status_finished, status_granted]
  show (preflightAnswer request).status = 200
  unfold preflightAnswer
  split <;> rfl

theorem handle_of_measured (hmethod : request.method ≠ "OPTIONS") :
    service.handle responder request state =
      (service.measured responder request state).mapAnswer fun answer =>
        finished request (Cors.granted service.allowedOrigins request answer) := by
  have hpreflight : ¬Cors.isPreflight request = true := by simp [Cors.isPreflight, hmethod]
  unfold handle
  rw [if_neg hpreflight]

theorem status_handle (hmethod : request.method ≠ "OPTIONS") :
    (service.handle responder request state).answer.status =
      (service.dispatch responder request { state with inFlight := state.inFlight + 1 }).answer.status := by
  rw [service.handle_of_measured responder state hmethod]
  show (finished request (Cors.granted service.allowedOrigins request _)).status = _
  rw [status_finished, status_granted]
  rfl

/-- A request is counted behind what its page counts, under the status that is sent. -/
theorem tally_handle (hmethod : request.method ≠ "OPTIONS") : ∃ counted : Tally,
    (∀ method path status, Counter.request method path status ∉ counted) ∧
    (service.handle responder request state).state.tally =
      state.tally ++ counted ++ [.request request.method (Route.label request.path)
        (service.handle responder request state).answer.status] := by
  have hleaves := service.leavesRequests_dispatch responder request
    { state with inFlight := state.inFlight + 1 }
  refine ⟨_, hleaves.requests, ?_⟩
  rw [service.status_handle responder state hmethod, service.handle_of_measured responder state hmethod]
  show (service.dispatch responder request _).state.tally ++ _ = _
  rw [hleaves.tally]

theorem inFlight_handle (request : WebRequest) :
    (service.handle responder request state).state.inFlight = state.inFlight := by
  by_cases hmethod : request.method = "OPTIONS"
  · rw [(service.handle_of_preflight responder state hmethod).2]
  · have hleaves := service.leavesRequests_dispatch responder request
      { state with inFlight := state.inFlight + 1 }
    rw [service.handle_of_measured responder state hmethod]
    show (service.dispatch responder request _).state.inFlight - 1 = _
    rw [hleaves.inFlight, Nat.add_sub_cancel]

end Service

/-! ## The gauge -/

namespace Metrics

/-- The name under which the requests in flight are reported. -/
def gaugeName : String := "mangashelf_http_requests_in_flight"

/-- The text has one line for the requests in flight, which tells their number. -/
def Reports (inFlight : Nat) (text : String) : Prop :=
  ∃ lines : List String, text = String.join (lines.map (· ++ "\n")) ∧
    ∀ line, line ∈ lines ∧ gaugeName.toList <+: line.toList ↔
      line = gaugeName ++ " " ++ toString inFlight

/-- The requests in flight, as they are shown. -/
def gauge (inFlight : Nat) : Family where
  name := gaugeName
  help := "Number of HTTP requests currently being processed"
  kind := "gauge"
  sampleSuffix := ""
  labelNames := []
  samples := [⟨[], inFlight⟩]

theorem gauge_mem_families (inFlight : Nat) (tally : Tally) :
    gauge inFlight ∈ families inFlight tally := by
  simp [families, gauge, gaugeName]

/-- Names of which none begins with the other. -/
def Apart (first second : String) : Prop :=
  ¬first.toList <+: second.toList ∧ ¬second.toList <+: first.toList

instance (first second : String) : Decidable (Apart first second) :=
  inferInstanceAs (Decidable (_ ∧ _))

theorem Apart.not_prefix {first second : String} (happart : Apart first second) {line : List Char}
    (hsecond : second.toList <+: line) : ¬first.toList <+: line := by
  intro hfirst
  rcases List.prefix_or_prefix_of_prefix hfirst hsecond with hprefix | hprefix
  · exact happart.1 hprefix
  · exact happart.2 hprefix

theorem families_cases {inFlight : Nat} {tally : Tally} {family : Family}
    (hfamily : family ∈ families inFlight tally) :
    family = gauge inFlight ∨ Apart gaugeName family.name := by
  simp only [families, List.mem_cons, List.not_mem_nil, or_false] at hfamily
  rcases hfamily with rfl | rfl | rfl | rfl | rfl | rfl | rfl
  case inr.inl => exact Or.inl rfl
  all_goals
    right
    dsimp only
    decide

/-- Lines begin with a mark or with the name of their family. -/
theorem line_cases {family : Family} {line : String} (hline : line ∈ family.lines) :
    "#".toList <+: line.toList ∨ family.name.toList <+: line.toList := by
  unfold Family.lines at hline
  split at hline
  · cases hline
  · rcases List.mem_append.mp hline with hheading | hsample
    · left
      simp only [List.mem_cons, List.not_mem_nil, or_false] at hheading
      rcases hheading with rfl | rfl <;> simp [String.toList_append]
    · right
      obtain ⟨sample, -, rfl⟩ := List.mem_map.mp hsample
      simp [String.toList_append]

theorem reports_text (inFlight : Nat) (tally : Tally) : Reports inFlight (text inFlight tally) := by
  refine ⟨_, rfl, ?_⟩
  intro line
  have hmark : Apart gaugeName "#" := by decide
  have hlines : (gauge inFlight).lines = [
      "# HELP " ++ gaugeName ++ " " ++ "Number of HTTP requests currently being processed",
      "# TYPE " ++ gaugeName ++ " " ++ "gauge",
      gaugeName ++ " " ++ toString inFlight] := by
    simp [Family.lines, gauge, labelsText]
  constructor
  · rintro ⟨hline, hprefix⟩
    obtain ⟨family, hfamily, hline⟩ := List.mem_flatMap.mp hline
    rcases line_cases hline with hhash | hname
    · exact absurd hprefix (hmark.not_prefix hhash)
    rcases families_cases hfamily with rfl | happart
    · rw [hlines] at hline
      simp only [List.mem_cons, List.not_mem_nil, or_false] at hline
      rcases hline with rfl | rfl | rfl
      · exact absurd hprefix (hmark.not_prefix (by simp [String.toList_append]))
      · exact absurd hprefix (hmark.not_prefix (by simp [String.toList_append]))
      · rfl
    · exact absurd hprefix (happart.not_prefix hname)
  · rintro rfl
    refine ⟨List.mem_flatMap.mpr ⟨_, gauge_mem_families inFlight tally, ?_⟩, ?_⟩
    · simp [hlines]
    · simp [String.toList_append]

end Metrics

/-! ## Runs of requests -/

/-- The state of a service that has not handled any request. -/
def ServiceState.fresh (source : σ) (peer : Peer) : ServiceState σ :=
  ⟨source, peer, [], 0⟩

namespace Service

variable [HostNames] (service : Service) (responder : Responder σ)

/-- The state after requests that are handled one after the other. -/
def after : List WebRequest → ServiceState σ → ServiceState σ
  | [], state => state
  | request :: rest, state => after rest (service.handle responder request state).state

/-- The answers to requests that are handled one after the other. -/
def answers : List WebRequest → ServiceState σ → List WebAnswer
  | [], _ => []
  | request :: rest, state =>
      (service.handle responder request state).answer ::
        answers rest (service.handle responder request state).state

/-- What a request is counted as by its answer, if it is counted. -/
def counterOf? (request : WebRequest) (answer : WebAnswer) : Option Counter :=
  if request.method = "OPTIONS" then none
  else some (.request request.method (Route.label request.path) answer.status)

/-- What a request does to the counters of requests and to the requests in flight, of which
there was none before. -/
structure Accounted (before : ServiceState σ) (request : WebRequest) (run : ServiceRun σ) : Prop where
  /-- The counter of the request grows by one, and no other counter of requests. -/
  counted : request.method ≠ "OPTIONS" → ∀ method path status,
    run.state.tally.count (.request method path status) =
      before.tally.count (.request method path status) +
        if method = request.method ∧ path = Route.label request.path ∧ status = run.answer.status
        then 1 else 0
  uncounted : request.method = "OPTIONS" → ∀ method path status,
    run.state.tally.count (.request method path status) =
      before.tally.count (.request method path status)
  idle : run.state.inFlight = 0
  /-- The text of the metrics shows the request itself in flight. -/
  reported : request.method = "GET" → request.path = "/metrics" →
    run.answer.status = 200 ∧ ∃ text, run.answer.body = some (Bytes.ofText text) ∧
      Metrics.Reports 1 text

theorem count_handle (request : WebRequest) (state : ServiceState σ) (method path : String)
    (status : Nat) :
    (service.handle responder request state).state.tally.count (.request method path status) =
      state.tally.count (.request method path status) +
        if counterOf? request (service.handle responder request state).answer =
          some (.request method path status) then 1 else 0 := by
  by_cases hmethod : request.method = "OPTIONS"
  · rw [(service.handle_of_preflight responder state hmethod).2, counterOf?, if_pos hmethod]
    simp
  · obtain ⟨counted, hcounted, htally⟩ := service.tally_handle responder state hmethod
    rw [htally, counterOf?, if_neg hmethod, List.count_append, List.count_append,
      List.count_eq_zero.mpr (hcounted method path status), List.count_singleton]
    simp only [Nat.add_zero, beq_iff_eq, Option.some.injEq]

theorem inFlight_after (requests : List WebRequest) (state : ServiceState σ) :
    (service.after responder requests state).inFlight = state.inFlight := by
  induction requests generalizing state with
  | nil => rfl
  | cons request rest ih => rw [after, ih, inFlight_handle]

theorem count_after (requests : List WebRequest) (state : ServiceState σ) (method path : String)
    (status : Nat) :
    (service.after responder requests state).tally.count (.request method path status) =
      state.tally.count (.request method path status) +
        (requests.zip (service.answers responder requests state)).countP fun served =>
          counterOf? served.1 served.2 = some (.request method path status) := by
  induction requests generalizing state with
  | nil => rfl
  | cons request rest ih =>
      rw [after, ih, count_handle, answers, List.zip_cons_cons, List.countP_cons]
      simp only [decide_eq_true_eq]
      omega

/-- The page of the metrics is made while its own request is in flight. -/
theorem handle_metrics {request : WebRequest} (state : ServiceState σ)
    (hmethod : request.method = "GET") (hpath : request.path = "/metrics") :
    (service.handle responder request state).answer.status = 200 ∧
      (service.handle responder request state).answer.body =
        some (Bytes.ofText (Metrics.text (state.inFlight + 1) state.tally)) := by
  have hroute : Route.atPath? request.path = some .metrics := by rw [hpath]; decide
  have hoptions : request.method ≠ "OPTIONS" := by rw [hmethod]; decide
  have hdispatch : service.dispatch responder request { state with inFlight := state.inFlight + 1 } =
      .ofAnswer (metrics { state with inFlight := state.inFlight + 1 })
        { state with inFlight := state.inFlight + 1 } := by
    unfold dispatch
    simp only [hroute, hmethod, Route.methods, List.mem_cons, true_or, if_true, page]
  constructor
  · rw [service.status_handle responder state hoptions, hdispatch]
    rfl
  · rw [service.handle_of_measured responder state hoptions]
    show (finished request (Cors.granted service.allowedOrigins request
      (service.dispatch responder request _).answer)).body = _
    rw [hdispatch, finished, if_neg (by rw [hmethod]; decide), body_withLength, body_granted]
    rfl

theorem accounted {state : ServiceState σ} (hidle : state.inFlight = 0) (request : WebRequest) :
    Accounted state request (service.handle responder request state) := by
  constructor
  · intro hmethod method path status
    rw [service.count_handle responder, counterOf?, if_neg hmethod]
    simp only [Option.some.injEq, Counter.request.injEq, @eq_comm _ request.method,
      @eq_comm _ (Route.label request.path), @eq_comm _ _ status]
  · intro hmethod method path status
    rw [service.count_handle responder, counterOf?, if_pos hmethod]
    simp
  · rw [inFlight_handle, hidle]
  · intro hmethod hpath
    obtain ⟨hstatus, hbody⟩ := service.handle_metrics responder state hmethod hpath
    rw [hidle] at hbody
    exact ⟨hstatus, _, hbody, Metrics.reports_text 1 state.tally⟩

end Service

/-- Every request that is handled after others, from the start of the service on, grows the
counter of its method, the label of its path and its status by one and no other counter of
requests; one that asks what it may ask grows none. None is in flight afterwards, and the
text of the metrics shows one. So after a run of requests each counter is the number of
requests that it is the counter of. -/
theorem requests_accounted [HostNames] (service : Service) (responder : Responder σ) (source : σ) (peer : Peer) :
    (∀ served request,
      Service.Accounted (service.after responder served (.fresh source peer)) request
        (service.handle responder request (service.after responder served (.fresh source peer)))) ∧
    ∀ served method path status,
      (service.after responder served (.fresh source peer)).tally.count
          (.request method path status) =
        (served.zip (service.answers responder served (.fresh source peer))).countP
          fun served => Service.counterOf? served.1 served.2 = some (.request method path status) := by
  constructor
  · intro served request
    exact service.accounted responder (service.inFlight_after responder served _) request
  · intro served method path status
    rw [service.count_after responder]
    exact Nat.zero_add _

end ComicCatalog
