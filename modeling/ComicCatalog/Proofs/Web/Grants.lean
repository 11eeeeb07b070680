import ComicCatalog.Proofs.Web.Layers
import ComicCatalog.Url.Names

/-! # Which origins may read answers

No page says which origin may read it: only the layer around all pages does, and it also
stands around the answers to unknown paths, to wrong methods, and to requests that ask what
they may ask. So an answer carries the grant of its request and nothing else.
-/

namespace ComicCatalog

variable {σ : Type}

/-- The origins that an answer lets read it. -/
def WebAnswer.grants (answer : WebAnswer) : List Bytes :=
  Headers.values answer.headers "access-control-allow-origin"

/-- The origins that a request names. -/
def WebRequest.origins (request : WebRequest) : List Bytes :=
  Headers.values request.headers "origin"

namespace WebAnswer

theorem grants_withHeader (answer : WebAnswer) {name : String} (value : Bytes)
    (hname : Text.asciiFold name ≠ Text.asciiFold "access-control-allow-origin") :
    (answer.withHeader name value).grants = answer.grants :=
  answer.values_withHeader_of_ne value hname

@[simp]
theorem grants_withHeader_grant (answer : WebAnswer) (value : Bytes) :
    (answer.withHeader "access-control-allow-origin" value).grants = answer.grants ++ [value] := by
  rw [grants, withHeader, Headers.values_append, Headers.values_single value rfl, grants]

@[simp]
theorem grants_withLength (answer : WebAnswer) : answer.withLength.grants = answer.grants :=
  answer.values_withLength_of_ne (by decide)

@[simp]
theorem grants_ofText (status : Nat) (contentType body : String) :
    (ofText status contentType body).grants = [] := by
  have hother : Text.asciiFold "content-type" ≠ Text.asciiFold "access-control-allow-origin" := by
    decide
  exact Headers.values_eq_nil (by simpa [ofText] using hother)

@[simp]
theorem grants_empty (status : Nat) : (empty status).grants = [] := rfl

end WebAnswer

namespace Service

/-! ## Pages -/

theorem grants_entriesAnswer (found : Except CatalogError (List Entry)) :
    (entriesAnswer found).grants = [] := by
  cases found <;> exact WebAnswer.grants_ofText _ _ _

theorem grants_imageAnswer (image : RelayedImage) : (imageAnswer image).grants = [] := by
  have htype : Text.asciiFold "content-type" ≠ Text.asciiFold "access-control-allow-origin" := by
    decide
  have hlength : Text.asciiFold "content-length" ≠ Text.asciiFold "access-control-allow-origin" := by
    decide
  apply Headers.values_eq_nil
  intro field hfield
  simp only [imageAnswer, List.mem_append, Option.mem_toList, Option.map_eq_some_iff] at hfield
  obtain ⟨type, -, rfl⟩ | ⟨length, -, rfl⟩ := hfield
  · exact htype
  · exact hlength

theorem grants_relayAnswer (found : Except RelayError RelayedImage) :
    (relayAnswer found).grants = [] := by
  cases found with
  | ok image => exact grants_imageAnswer image
  | error error =>
      unfold relayAnswer
      dsimp only
      split <;> exact WebAnswer.grants_ofText _ _ _

theorem grants_withMethods (answer : WebAnswer) : (withMethods answer).grants = answer.grants :=
  answer.grants_withHeader _ (by decide)

theorem grants_preflightAnswer (request : WebRequest) :
    (preflightAnswer request).grants = [] := by
  have hpreflight : Cors.preflight.grants = [] := by
    unfold Cors.preflight
    rw [WebAnswer.grants_withHeader _ _ (by decide), WebAnswer.grants_withHeader _ _ (by decide),
      WebAnswer.grants_empty]
  unfold preflightAnswer
  split
  · exact (grants_withMethods _).trans hpreflight
  · exact hpreflight

/-! ## Layers -/

@[simp]
theorem grants_finished (request : WebRequest) (answer : WebAnswer) : (finished request answer).grants = answer.grants := by
  unfold finished
  extract_lets sent
  split <;> exact answer.grants_withLength

theorem grants_granted (allowed : List String) (request : WebRequest) (answer : WebAnswer) :
    (Cors.granted allowed request answer).grants =
      answer.grants ++ (Cors.grant? allowed request).toList := by
  have hvary : ∀ value, (answer.withHeader "vary" value).grants = answer.grants :=
    fun value => answer.grants_withHeader value (by decide)
  unfold Cors.granted
  extract_lets varied
  split
  next origin hgrant => rw [WebAnswer.grants_withHeader_grant, hvary, hgrant, Option.toList_some]
  next hgrant => rw [hvary, hgrant, Option.toList_none, List.append_nil]

/-! ## Requests -/

section

variable (responder : Responder σ) (request : WebRequest) (state : ServiceState σ)

theorem grants_listing (service : Service) :
    (service.listing responder request state).answer.grants = [] := by
  unfold listing
  split
  · exact WebAnswer.grants_ofText _ _ _
  · exact grants_entriesAnswer _

theorem grants_search : (search responder request state).answer.grants = [] := by
  unfold search
  split
  · exact WebAnswer.grants_ofText _ _ _
  · split
    · exact WebAnswer.grants_ofText _ _ _
    · exact grants_entriesAnswer _

end

variable [HostNames] (service : Service) (responder : Responder σ) (request : WebRequest)
  (state : ServiceState σ)

theorem grants_image : (service.image request state).answer.grants = [] := by
  unfold image
  split
  · exact WebAnswer.grants_ofText _ _ _
  · split
    · exact WebAnswer.grants_ofText _ _ _
    next url _ =>
      generalize service.relay.fetch url state.peer = run
      exact grants_relayAnswer run.result

theorem grants_page (route : Route) :
    (service.page responder route request state).answer.grants = [] := by
  cases route with
  | listing => exact service.grants_listing responder request state
  | search => exact grants_search responder request state
  | image => exact service.grants_image request state
  | health => exact WebAnswer.grants_ofText _ _ _
  | metrics => exact WebAnswer.grants_ofText _ _ _

theorem grants_dispatch : (service.dispatch responder request state).answer.grants = [] := by
  unfold dispatch
  split
  · exact WebAnswer.grants_empty 404
  · split
    · exact service.grants_page responder request state _
    · exact (grants_withMethods _).trans (WebAnswer.grants_empty 405)

/-- Every answer carries the grant of its request and no other. -/
theorem grants_handle : (service.handle responder request state).answer.grants =
    (Cors.grant? service.allowedOrigins request).toList := by
  by_cases hmethod : Cors.isPreflight request = true
  · unfold handle
    rw [if_pos hmethod]
    show (finished request (Cors.granted service.allowedOrigins request _)).grants = _
    rw [grants_finished, grants_granted]
    exact congrArg (· ++ _) (grants_preflightAnswer request)
  · unfold handle
    rw [if_neg hmethod]
    show (finished request (Cors.granted service.allowedOrigins request _)).grants = _
    rw [grants_finished, grants_granted]
    exact congrArg (· ++ _) (service.grants_dispatch responder request _)

end Service

namespace Cors

/-- An origin is listed when its bytes are those of a listed text that can be sent. -/
def Lists (allowed : List String) (origin : Bytes) : Prop :=
  ∃ listed ∈ allowed, Headers.isValue listed = true ∧ Bytes.ofText listed = origin

theorem grant?_eq_some_iff {allowed : List String} (hallowed : allowed ≠ []) {request : WebRequest}
    {origin : Bytes} :
    grant? allowed request = some origin ↔
      request.origins.head? = some origin ∧ Lists allowed origin := by
  have hlists : ∀ named,
      named ∈ (allowed.filter Headers.isValue).map Bytes.ofText ↔ Lists allowed named := by
    intro named
    simp [Lists, List.mem_filter, and_assoc]
  unfold grant? WebRequest.origins
  rw [if_neg (by simpa using hallowed), Headers.get?_eq_head?]
  cases (Headers.values request.headers "origin").head? with
  | none => simp
  | some named =>
      simp only [hlists, Option.ite_none_right_eq_some, Option.some.injEq]
      constructor
      · rintro ⟨hnamed, rfl⟩
        exact ⟨rfl, hnamed⟩
      · rintro ⟨rfl, hnamed⟩
        exact ⟨hnamed, rfl⟩

end Cors

/-- Origins of sane settings are no wildcard. -/
theorem Settings.not_lists_wildcard {settings : Settings} (hsane : settings.check = .ok ()) :
    ¬Cors.Lists settings.cors.allowedOrigins (Bytes.ofText "*") := by
  rintro ⟨listed, hlisted, -, hbytes⟩
  have hfaults : settings.faults = [] := by
    unfold check at hsane
    split at hsane
    next hnone => exact hnone
    next => cases hsane
  have hstart : startsAsWebAddress listed = true := by
    simp only [faults, List.append_eq_nil_iff, List.map_eq_nil_iff, List.filter_eq_nil_iff] at hfaults
    simpa using hfaults.2 listed hlisted
  -- Both schemes start with one byte, and it is not that of the wildcard.
  obtain ⟨rest, hrest⟩ : ∃ rest, listed.toList = 'h' :: rest := by
    simp only [startsAsWebAddress, Bool.or_eq_true, List.isPrefixOf_iff_prefix] at hstart
    rcases hstart with ⟨rest, hrest⟩ | ⟨rest, hrest⟩
    · exact ⟨_, hrest.symm⟩
    · exact ⟨_, hrest.symm⟩
  have hfirst : (Bytes.ofText listed).head? = some 104 := by
    have hascii : String.utf8EncodeChar 'h' = [104] := Bytes.utf8EncodeChar_of_ascii (by decide)
    rw [← String.ofList_toList (s := listed), hrest, Bytes.ofText_ofList, List.flatMap_cons, hascii]
    rfl
  have hwildcard : (Bytes.ofText "*").head? = some 42 := by
    have hascii : String.utf8EncodeChar '*' = [42] := Bytes.utf8EncodeChar_of_ascii (by decide)
    rw [← String.ofList_toList (s := "*"), Bytes.ofText_ofList]
    simp [hascii]
  rw [hbytes, hwildcard] at hfirst
  exact absurd hfirst (by decide)

/-- With no origins listed, every answer lets every origin read it. With some listed, an answer
lets an origin read it exactly if the request names this origin, first if it names several,
and it is listed and can be sent; so where no listed origin can be sent, none may read
anything, and a list never means every origin. This holds of every answer: of pages and their
failures, of unknown paths and wrong methods, and of requests that ask what they may ask. -/
theorem grants_only_listed [HostNames] (settings : Settings) (hsane : settings.check = .ok ()) (pageSize : Nat)
    (relay : RelayClient) (responder : Responder σ) (request : WebRequest)
    (state : ServiceState σ) :
    let service : Service := ⟨settings.cors.allowedOrigins, pageSize, relay⟩
    let grants := (service.handle responder request state).answer.grants
    (settings.cors.allowedOrigins = [] → grants = [Bytes.ofText "*"]) ∧
    (settings.cors.allowedOrigins ≠ [] →
      (∀ origin, grants = [origin] ↔
        request.origins.head? = some origin ∧ Cors.Lists settings.cors.allowedOrigins origin) ∧
      (grants = [] ∨ ∃ origin, grants = [origin]) ∧
      (request.origins.length ≤ 1 → ∀ origin, origin ∈ grants ↔
        origin ∈ request.origins ∧ Cors.Lists settings.cors.allowedOrigins origin) ∧
      Bytes.ofText "*" ∉ grants ∧
      ((∀ listed ∈ settings.cors.allowedOrigins, Headers.isValue listed = false) → grants = [])) := by
  intro service grants
  have hgrants : grants = (Cors.grant? settings.cors.allowedOrigins request).toList :=
    service.grants_handle responder request state
  rw [hgrants]
  constructor
  · intro hempty
    simp [Cors.grant?, hempty]
  intro hallowed
  -- The grant is an option, so the grants are one at most.
  have hmem : ∀ origin, Cors.grant? settings.cors.allowedOrigins request = some origin ↔
      request.origins.head? = some origin ∧ Cors.Lists settings.cors.allowedOrigins origin :=
    fun origin => Cors.grant?_eq_some_iff hallowed
  refine ⟨?_, ?_, ?_, ?_, ?_⟩
  · intro origin
    rw [← hmem, Option.toList_eq_singleton_iff]
  · cases Cors.grant? settings.cors.allowedOrigins request with
    | none => exact Or.inl rfl
    | some origin => exact Or.inr ⟨origin, rfl⟩
  · intro hsingle origin
    rw [Option.mem_toList, hmem]
    have hhead : request.origins.head? = some origin ↔ origin ∈ request.origins := by
      rcases horigins : request.origins with _ | ⟨first, _ | ⟨second, rest⟩⟩
      · simp
      · simp [eq_comm]
      · simp [horigins] at hsingle
    rw [hhead]
  · rw [Option.mem_toList, hmem]
    -- Checked settings list web addresses, and the wildcard is none.
    exact fun hwildcard => Settings.not_lists_wildcard hsane hwildcard.2
  · intro hunusable
    rw [Option.toList_eq_nil_iff, Option.eq_none_iff_forall_ne_some]
    intro origin hgrant
    obtain ⟨listed, hlisted, hvalue, -⟩ := ((hmem origin).mp hgrant).2
    rw [hunusable listed hlisted] at hvalue
    cases hvalue

theorem grants_only_listed_preflight :
    let settings : Settings := { cors := ⟨["http://bad\nvalue", "http://ok.example"]⟩ }
    let request : WebRequest :=
      ⟨"OPTIONS", "/nowhere", "", [("Origin", Bytes.ofText "http://ok.example")]⟩
    settings.check = .ok () ∧ settings.cors.allowedOrigins ≠ [] ∧ request.origins.length ≤ 1 ∧
      ((⟨settings.cors.allowedOrigins, settings.catalog.pageSize.toNat, default⟩ : Service).handle
        (fun _ state => (.ok [], state)) request (.fresh () .unreachable)).answer.grants =
          [Bytes.ofText "http://ok.example"] := by
  intro settings request
  have hsane : settings.check = .ok () := by cbv
  have horigins : request.origins = [Bytes.ofText "http://ok.example"] :=
    Headers.values_single _ (by decide)
  have hlists : Cors.Lists settings.cors.allowedOrigins (Bytes.ofText "http://ok.example") :=
    ⟨"http://ok.example", by decide, by cbv, rfl⟩
  refine ⟨hsane, List.cons_ne_nil _ _, by rw [horigins]; decide, ?_⟩
  obtain ⟨hgranted, -⟩ := (grants_only_listed settings hsane settings.catalog.pageSize.toNat default
    (fun _ state => (.ok [], state)) request (.fresh () .unreachable)).2 (List.cons_ne_nil _ _)
  exact (hgranted _).mpr ⟨by rw [horigins]; rfl, hlists⟩

end ComicCatalog
