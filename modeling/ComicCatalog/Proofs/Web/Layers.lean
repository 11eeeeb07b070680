import ComicCatalog.Proofs.Net.Header
import ComicCatalog.Proofs.Web.Parameters
import ComicCatalog.Proofs.Web.Requests

/-! # What the layers around a page keep

Between a page and its client the answer gets a few more header fields and is counted.
Everything else that the page did reaches the client as it was.
-/

namespace ComicCatalog

variable {σ : Type}

theorem WebAnswer.values_withHeader_of_ne (answer : WebAnswer) {name other : String} (value : Bytes)
    (hname : Text.asciiFold name ≠ Text.asciiFold other) :
    Headers.values (answer.withHeader name value).headers other =
      Headers.values answer.headers other := by
  have hnone : Headers.values [(name, value)] other = [] :=
    Headers.values_eq_nil (by simpa using hname)
  rw [withHeader, Headers.values_append, hnone, List.append_nil]

theorem WebAnswer.withLength_of_isStreamed {answer : WebAnswer} (hstreamed : answer.isStreamed = true) :
    answer.withLength = answer := by
  unfold withLength
  rw [hstreamed]
  split
  next hother => cases hother
  next => rfl

theorem WebAnswer.values_withLength_of_ne (answer : WebAnswer) {name : String}
    (hname : Text.asciiFold "content-length" ≠ Text.asciiFold name) :
    Headers.values answer.withLength.headers name = Headers.values answer.headers name := by
  unfold withLength
  split
  · exact answer.values_withHeader_of_ne _ hname
  · rfl

/-- The names of the fields that grants add to an answer. -/
def Cors.fieldNames : List String :=
  ["vary", "access-control-allow-origin"]

namespace Service

theorem values_granted_of_ne (allowed : List String) (request : WebRequest) (answer : WebAnswer)
    {name : String}
    (hname : ∀ added ∈ Cors.fieldNames, Text.asciiFold added ≠ Text.asciiFold name) :
    Headers.values (Cors.granted allowed request answer).headers name =
      Headers.values answer.headers name := by
  have hvary := answer.values_withHeader_of_ne (Bytes.ofText Cors.variation) (hname "vary" (by simp [Cors.fieldNames]))
  unfold Cors.granted
  extract_lets varied
  split
  · rw [WebAnswer.values_withHeader_of_ne _ _ (hname _ (by simp [Cors.fieldNames])), hvary]
  · exact hvary

theorem isStreamed_granted (allowed : List String) (request : WebRequest) (answer : WebAnswer) :
    (Cors.granted allowed request answer).isStreamed = answer.isStreamed := by
  unfold Cors.granted
  extract_lets varied
  split <;> rfl

/-- A request keeps all that its page did, but for a few fields that are added to the answer,
and is counted behind it. -/
structure Keeps (request : WebRequest) (page run : ServiceRun σ) : Prop where
  status : run.answer.status = page.answer.status
  body : run.answer.body = page.answer.body
  /-- The length of a body is only told where it is known. -/
  values : ∀ name, (∀ added ∈ Cors.fieldNames, Text.asciiFold added ≠ Text.asciiFold name) →
    Text.asciiFold "content-length" ≠ Text.asciiFold name ∨ page.answer.isStreamed = true →
      Headers.values run.answer.headers name = Headers.values page.answer.headers name
  asked : run.asked = page.asked
  seen : run.seen = page.seen
  tally : run.state.tally =
    page.state.tally ++ [.request request.method (Route.label request.path) page.answer.status]
  source : run.state.source = page.state.source
  peer : run.state.peer = page.state.peer

variable [HostNames] (service : Service) (responder : Responder σ)

theorem keeps_page {request : WebRequest} {route : Route} (hmethod : request.method = "GET")
    (hroute : Route.atPath? request.path = some route) (state : ServiceState σ) :
    Keeps request (service.page responder route request { state with inFlight := state.inFlight + 1 })
      (service.handle responder request state) := by
  have hoptions : request.method ≠ "OPTIONS" := by rw [hmethod]; decide
  have hhead : request.method ≠ "HEAD" := by rw [hmethod]; decide
  have hdispatch : service.dispatch responder request { state with inFlight := state.inFlight + 1 } =
      service.page responder route request { state with inFlight := state.inFlight + 1 } := by
    have hasked : request.method ∈ Route.methods := by rw [hmethod]; decide
    unfold dispatch
    simp only [hroute, if_pos hasked]
  rw [service.handle_of_measured responder state hoptions, measured, hdispatch]
  generalize service.page responder route request _ = page
  constructor
  · show (finished request _).status = _
    rw [status_finished, status_granted]
    rfl
  · show (finished request _).body = _
    rw [finished, if_neg hhead, body_withLength, body_granted]
    rfl
  · intro name hadded hlength
    show Headers.values (finished request (Cors.granted service.allowedOrigins request
      page.answer)).headers name = _
    rw [finished, if_neg hhead, ← values_granted_of_ne service.allowedOrigins request page.answer hadded]
    rcases hlength with hother | hstreamed
    · exact WebAnswer.values_withLength_of_ne _ hother
    · rw [WebAnswer.withLength_of_isStreamed]
      rw [isStreamed_granted, hstreamed]
  · rfl
  · rfl
  · rfl
  · rfl
  · rfl

/-- The page that a target names is asked with the values that the target gives. -/
theorem keeps_target (route : Route) {target : String} {params : List (String × String)}
    (htarget : WebRequest.Targets target route.path params) (headers : Headers)
    (state : ServiceState σ) : ∃ request : WebRequest, Params.Gives request.query params ∧
      Keeps request (service.page responder route request { state with inFlight := state.inFlight + 1 })
        (service.handle responder (.ofTarget "GET" target headers) state) := by
  have hroot : route.path.toList.head? = some '/' := by cases route <;> decide
  have hpath : '?' ∉ route.path.toList ∧ '#' ∉ route.path.toList := by cases route <;> decide
  have hroute : Route.atPath? route.path = some route := by cases route <;> decide
  obtain ⟨query, hgives, hrequest⟩ := htarget.ofTarget_eq hroot hpath "GET" headers
  refine ⟨⟨"GET", route.path, query, headers⟩, hgives, ?_⟩
  rw [hrequest]
  exact service.keeps_page responder rfl hroute state

end Service

end ComicCatalog
