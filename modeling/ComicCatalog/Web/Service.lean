import ComicCatalog.Catalog.Listing
import ComicCatalog.Catalog.Search
import ComicCatalog.Relay.Client
import ComicCatalog.Web.Metrics
import ComicCatalog.Web.Request

/-! # The web service

Requests are answered one after the other. Those that ask what they may ask are
answered at once; every other one is counted, under its method, the label of its
path and the status of its answer.
-/

namespace ComicCatalog

/-- What does not change while the service runs. -/
structure Service where
  allowedOrigins : List String
  pageSize : Nat
  relay : RelayClient
  deriving Inhabited

/-- What requests may change: who answers selects, who serves images, what has
been counted, and how many requests are being answered. -/
structure ServiceState (σ : Type) where
  source : σ
  peer : Peer
  tally : Tally
  inFlight : Nat

/-- What a request leaves behind. -/
structure ServiceRun (σ : Type) where
  answer : WebAnswer
  /-- The selects that were asked, in order. -/
  asked : List Select
  /-- The requests that the peer got, in order. -/
  seen : List PeerRequest
  counted : Tally
  state : ServiceState σ

namespace ServiceRun

variable {σ : Type}

/-- An answer for which nothing was asked. -/
def ofAnswer (answer : WebAnswer) (state : ServiceState σ) : ServiceRun σ :=
  ⟨answer, [], [], [], state⟩

/-- The answer of a run against the source. -/
def ofRun {ε α : Type} (run : Run σ ε α) (answer : Except ε α → WebAnswer)
    (state : ServiceState σ) : ServiceRun σ where
  answer := answer run.result
  asked := run.asked
  seen := []
  counted := run.counted
  state := { state with source := run.state, tally := state.tally ++ run.counted }

/-- Change the answer of a run. -/
def mapAnswer (f : WebAnswer → WebAnswer) (run : ServiceRun σ) : ServiceRun σ :=
  { run with answer := f run.answer }

/-- Count something more. -/
def count (counter : Counter) (run : ServiceRun σ) : ServiceRun σ :=
  { run with
    counted := run.counted ++ [counter]
    state := { run.state with tally := run.state.tally ++ [counter] } }

end ServiceRun

namespace Service

variable {σ : Type}

/-! ## Pages -/

/-- The answer that shows entries, or tells why there are none. -/
def entriesAnswer : Except CatalogError (List Entry) → WebAnswer
  | .ok entries => .json 200 (.array (entries.map Entry.toJson))
  | .error error => .failure error.message

/-- The answer to a query that names a parameter twice. -/
def repeatedAnswer (name : String) : WebAnswer :=
  .plain 400 ("Failed to deserialize query string: duplicate field `" ++ name ++ "`")

/-- The listing. -/
def listing (service : Service) (responder : Responder σ) (request : WebRequest)
    (state : ServiceState σ) : ServiceRun σ :=
  match Params.read ["sortBy", "order", "language"] request.query with
  | .error name => .ofAnswer (repeatedAnswer name) state
  | .ok params =>
      let listing := ListingRequest.ofParams (params.lookup "sortBy") (params.lookup "order")
        (params.lookup "language")
      .ofRun ((listing.entries service.pageSize).run responder state.source) entriesAnswer state

/-- A parameter that is there and not blank. -/
def filled? (params : List (String × String)) (name : String) : Option String :=
  (params.lookup name).filter (!Text.blank ·)

/-- A search. -/
def search (responder : Responder σ) (request : WebRequest) (state : ServiceState σ) :
    ServiceRun σ :=
  match Params.read ["q"] request.query with
  | .error name => .ofAnswer (repeatedAnswer name) state
  | .ok params =>
      match filled? params "q" with
      | none => .ofAnswer (.plain 400 "Missing query") state
      | some query =>
          .ofRun (ComicCatalog.search responder query state.source) entriesAnswer state

/-- The answer that hands an image on. -/
def imageAnswer (image : RelayedImage) : WebAnswer where
  status := image.status
  headers :=
    (image.contentType.map fun type => ("content-type", Bytes.ofText type)).toList ++
      (image.contentLength.map fun length =>
        ("content-length", Bytes.ofText (toString length))).toList
  body := image.body
  isStreamed := true

/-- The answer to a request for an image. -/
def relayAnswer : Except RelayError RelayedImage → WebAnswer
  | .ok image => imageAnswer image
  | .error error =>
      match error.reason? with
      | some reason => .plain 400 ("Invalid Url: " ++ reason)
      | none => .failure error.message

/-- A relayed image. -/
def image [HostNames] (service : Service) (request : WebRequest) (state : ServiceState σ) : ServiceRun σ :=
  match Params.read ["url"] request.query with
  | .error name => .ofAnswer (repeatedAnswer name) state
  | .ok params =>
      match filled? params "url" with
      | none => .ofAnswer (.plain 400 "Missing Url") state
      | some url =>
          let run := service.relay.fetch url state.peer
          { answer := relayAnswer run.result
            asked := []
            seen := run.seen
            counted := run.counted
            state :=
              { state with peer := run.peer, tally := state.tally ++ run.counted } }

/-- That the service is alive. -/
def health : WebAnswer :=
  .json 200 (.object [("status", .text "ok")])

/-- What has been counted. -/
def metrics (state : ServiceState σ) : WebAnswer :=
  .ofText 200 "text/plain; version=0.0.4" (Metrics.text state.inFlight state.tally)

/-- The page of a route. -/
def page [HostNames] (service : Service) (responder : Responder σ) (route : Route) (request : WebRequest)
    (state : ServiceState σ) : ServiceRun σ :=
  match route with
  | .listing => service.listing responder request state
  | .search => search responder request state
  | .image => service.image request state
  | .health => .ofAnswer health state
  | .metrics => .ofAnswer (metrics state) state

/-! ## Requests -/

/-- The methods of a page, told where another one was used. -/
def withMethods (answer : WebAnswer) : WebAnswer :=
  answer.withHeader "allow" (Bytes.ofText (String.intercalate "," Route.methods))

/-- The answer of a path to a method. A page asked with `HEAD` tells its length
and keeps its body. -/
def dispatch [HostNames] (service : Service) (responder : Responder σ) (request : WebRequest)
    (state : ServiceState σ) : ServiceRun σ :=
  match Route.atPath? request.path with
  | none => .ofAnswer (WebAnswer.empty 404) state
  | some route =>
      if request.method ∈ Route.methods then service.page responder route request state
      else .ofAnswer (withMethods (.empty 405)) state

/-- Answer a request and count it. The request itself is in flight meanwhile, and
is not counted before it is answered. -/
def measured [HostNames] (service : Service) (responder : Responder σ) (request : WebRequest)
    (state : ServiceState σ) : ServiceRun σ :=
  let run := service.dispatch responder request { state with inFlight := state.inFlight + 1 }
  let run := run.count (.request request.method (Route.label request.path) run.answer.status)
  { run with state := { run.state with inFlight := run.state.inFlight - 1 } }

/-- What is sent of an answer. -/
def finished (request : WebRequest) (answer : WebAnswer) : WebAnswer :=
  let answer := answer.withLength
  if request.method = "HEAD" then answer.withoutBody else answer

/-- The answer to a request that asks what it may ask. -/
def preflightAnswer (request : WebRequest) : WebAnswer :=
  if (Route.atPath? request.path).isSome then withMethods Cors.preflight else Cors.preflight

/-- Handle a request. -/
def handle [HostNames] (service : Service) (responder : Responder σ) (request : WebRequest)
    (state : ServiceState σ) : ServiceRun σ :=
  let run :=
    if Cors.isPreflight request then .ofAnswer (preflightAnswer request) state
    else service.measured responder request state
  run.mapAnswer fun answer => finished request (Cors.granted service.allowedOrigins request answer)

end Service

end ComicCatalog
