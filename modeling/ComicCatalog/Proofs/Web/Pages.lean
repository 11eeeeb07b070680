import ComicCatalog.Proofs.Catalog.Items
import ComicCatalog.Proofs.Named
import ComicCatalog.Proofs.Web.Layers
import ComicCatalog.Proofs.Web.Parameters
import ComicCatalog.Url.Names

/-! # Pages of the catalog

The two pages of the catalog show what a listing or a search finds: every entry in its place,
or the message of the failure. However a text is written in the target of a request, it is
the text that is searched for.
-/

namespace ComicCatalog

open Lookup

variable {σ : Type}

/-- An answer with this status and a body of this one type and text. -/
structure WebAnswer.Says (answer : WebAnswer) (status : Nat) (contentType body : String) : Prop where
  status : answer.status = status
  contentType : Headers.values answer.headers "content-type" = [Bytes.ofText contentType]
  body : answer.body = some (Bytes.ofText body)

/-- The body of the answer is the text of a JSON value, for a reader of numbers. -/
def WebAnswer.Reads (answer : WebAnswer) (real? : Json.RealReading) (value : Json) : Prop :=
  (answer.body.bind Bytes.text?).bind (Json.read? real?) = some value

theorem WebAnswer.Says.reads {answer : WebAnswer} {status : Nat} {contentType : String} {value : Json}
    (hsaid : answer.Says status contentType value.render) {real? : Json.RealReading}
    (hmade : value.IsMadeOf (·.IsReadBack real?)) : answer.Reads real? value := by
  rw [WebAnswer.Reads, hsaid.body, Option.bind_some, Bytes.text?_ofText, Option.bind_some]
  exact Json.read?_render hmade

theorem WebAnswer.says_ofText (status : Nat) (contentType body : String) :
    (WebAnswer.ofText status contentType body).Says status contentType body where
  status := rfl
  contentType := Headers.values_single _ rfl
  body := rfl

namespace Service

theorem Keeps.tells {request : WebRequest} {page run : ServiceRun σ} (hkeeps : Keeps request page run)
    {status : Nat} {contentType body : String} (hpage : page.answer.Says status contentType body) :
    run.answer.Says status contentType body where
  status := hkeeps.status.trans hpage.status
  contentType := (hkeeps.values _ (by decide) (Or.inl (by decide))).trans hpage.contentType
  body := hkeeps.body.trans hpage.body

/-- The run shows what was found, from rows that were answered, or tells the failure. It asks
what was asked and nothing else. Whoever reads the rows back reads what is shown of them. -/
structure Serves (responder : Responder σ) (source : σ)
    (found : Run σ CatalogError (List Entry)) (run : ServiceRun σ) : Prop where
  shown : ∀ entries, found.result = .ok entries →
    run.answer.Says 200 "application/json" (Json.array (entries.map Entry.toJson)).render
  failed : ∀ error, found.result = .error error →
    run.answer.Says 500 "application/json" (Json.object [("error", .text error.message)]).render
  asked : run.asked = found.asked
  after : run.state.source = found.state
  made : ∀ entries, found.result = .ok entries →
    MadeFrom (responder.exchanges run.asked source) entries
  read : ∀ real?, (∀ row, Answered (responder.exchanges run.asked source) row →
      (Json.object row).IsMadeOf (·.IsReadBack real?)) →
    ∀ entries, found.result = .ok entries →
      run.answer.Reads real? (.array (entries.map Entry.toJson))
  readFailure : ∀ real? error, found.result = .error error →
    run.answer.Reads real? (.object [("error", .text error.message)])

/-- What is read follows from what is written. -/
theorem Serves.of_written {responder : Responder σ} {source : σ}
    {found : Run σ CatalogError (List Entry)} {run : ServiceRun σ}
    (shown : ∀ entries, found.result = .ok entries →
      run.answer.Says 200 "application/json" (Json.array (entries.map Entry.toJson)).render)
    (failed : ∀ error, found.result = .error error →
      run.answer.Says 500 "application/json" (Json.object [("error", .text error.message)]).render)
    (asked : run.asked = found.asked) (after : run.state.source = found.state)
    (made : ∀ entries, found.result = .ok entries →
      MadeFrom (responder.exchanges run.asked source) entries) :
    Serves responder source found run where
  shown := shown
  failed := failed
  asked := asked
  after := after
  made := made
  read := by
    intro real? hrows entries hresult
    exact (shown entries hresult).reads ((made entries hresult).isMadeOf hrows)
  readFailure := by
    intro real? error hresult
    refine (failed error hresult).reads (.object (List.nodup_singleton "error") ?_)
    exact List.forall_mem_singleton.mpr (.text error.message)

theorem serves_ofRun {responder : Responder σ} {source : σ} {found : Run σ CatalogError (List Entry)}
    (state : ServiceState σ) (hmade : ∀ entries, found.result = .ok entries →
      MadeFrom (responder.exchanges found.asked source) entries) :
    Serves responder source found (.ofRun found entriesAnswer state) := by
  refine .of_written ?_ ?_ rfl rfl hmade
  · intro entries hresult
    show (entriesAnswer found.result).Says _ _ _
    rw [hresult]
    exact WebAnswer.says_ofText _ _ _
  · intro error hresult
    show (entriesAnswer found.result).Says _ _ _
    rw [hresult]
    exact WebAnswer.says_ofText _ _ _

theorem Keeps.serves {request : WebRequest} {page run : ServiceRun σ} (hkeeps : Keeps request page run)
    {responder : Responder σ} {source : σ} {found : Run σ CatalogError (List Entry)}
    (hpage : Serves responder source found page) : Serves responder source found run := by
  refine .of_written (fun entries hresult => hkeeps.tells (hpage.shown entries hresult))
    (fun error hresult => hkeeps.tells (hpage.failed error hresult))
    (hkeeps.asked.trans hpage.asked) (hkeeps.source.trans hpage.after) ?_
  intro entries hresult
  rw [hkeeps.asked]
  exact hpage.made entries hresult

/-! ## Parameters of the pages -/

theorem filled?_single (name value : String) :
    filled? [(name, value)] name = if Text.blank value then none else some value := by
  cases hblank : Text.blank value <;> simp [filled?, Option.filter, hblank]

theorem search_of_gives (responder : Responder σ) {request : WebRequest} {query : String}
    (hgives : Params.Gives request.query [("q", query)]) (state : ServiceState σ) :
    search responder request state =
      if Text.blank query then .ofAnswer (.plain 400 "Missing query") state
      else .ofRun (ComicCatalog.search responder query state.source) entriesAnswer state := by
  have hread := Params.read_of_gives hgives ((List.nodup_singleton "q").filter (· ∈ ["q"]))
  have hfilled := filled?_single "q" query
  unfold search
  simp only [hread, hfilled]
  cases Text.blank query <;> rfl

/-- The parameters of a listing that are there. -/
def listingParams (sortBy order language : Option String) : List (String × String) :=
  (sortBy.map ("sortBy", ·)).toList ++ (order.map ("order", ·)).toList ++
    (language.map ("language", ·)).toList

theorem nodup_listingParams (sortBy order language : Option String) :
    ((listingParams sortBy order language).map Prod.fst).Nodup := by
  cases sortBy <;> cases order <;> cases language <;> simp [listingParams]

theorem listing_of_gives (service : Service) (responder : Responder σ) {request : WebRequest}
    {sortBy order language : Option String} {params : List (String × String)}
    (hparams : params.Perm (listingParams sortBy order language))
    (hgives : Params.Gives request.query params) (state : ServiceState σ) :
    service.listing responder request state =
      .ofRun (((ListingRequest.ofParams sortBy order language).entries service.pageSize).run responder
        state.source) entriesAnswer state := by
  have hdistinct := nodup_listingParams sortBy order language
  have hread := Params.read_of_gives hgives
    (((hparams.map Prod.fst).nodup_iff.mpr hdistinct).filter (· ∈ ["sortBy", "order", "language"]))
  have hlookup := lookup_perm hparams hdistinct
  have hsort : params.lookup "sortBy" = sortBy := by
    rw [hlookup]
    cases sortBy <;> cases order <;> cases language <;> rfl
  have horder : params.lookup "order" = order := by
    rw [hlookup]
    cases sortBy <;> cases order <;> cases language <;> rfl
  have hlanguage : params.lookup "language" = language := by
    rw [hlookup]
    cases sortBy <;> cases order <;> cases language <;> rfl
  unfold listing
  simp only [hread, hsort, horder, hlanguage]

variable [HostNames] (service : Service) (responder : Responder σ)

/-! ## Searches -/

/-- Searching for a blank text is refused, and for any other text the search is served. -/
theorem search_served {target query : String}
    (htarget : WebRequest.Targets target "/search" [("q", query)]) (headers : Headers)
    (state : ServiceState σ) :
    let run := service.handle responder (.ofTarget "GET" target headers) state
    (run.answer.Says 400 "text/plain; charset=utf-8" "Missing query" ↔ Text.trim query = "") ∧
    (Text.trim query ≠ "" →
      Serves responder state.source (ComicCatalog.search responder query state.source) run) := by
  intro run
  obtain ⟨request, hgives, hkeeps⟩ :=
    service.keeps_target responder .search htarget headers state
  replace hkeeps : Keeps request _ run := hkeeps
  rw [page, search_of_gives responder hgives] at hkeeps
  rw [Text.trim_eq_empty]
  cases hblank : Text.blank query with
  | true =>
      rw [hblank, if_pos rfl] at hkeeps
      exact ⟨⟨fun _ => rfl, fun _ => hkeeps.tells (WebAnswer.says_ofText _ _ _)⟩,
        fun htrim => absurd (Text.trim_eq_empty.mpr hblank) htrim⟩
  | false =>
      rw [hblank, if_neg Bool.false_ne_true] at hkeeps
      have hserves : Serves responder state.source (ComicCatalog.search responder query state.source) run :=
        hkeeps.serves (serves_ofRun _ fun entries => search_madeFrom responder query state.source)
      refine ⟨⟨fun hmissing => ?_, fun htrue => absurd htrue Bool.false_ne_true⟩, fun _ => hserves⟩
      -- What is served has one of two other statuses.
      cases hfound : (ComicCatalog.search responder query state.source).result with
      | ok entries =>
          have hstatus := (hserves.shown entries hfound).status
          rw [hmissing.status] at hstatus
          cases hstatus
      | error error =>
          have hstatus := (hserves.failed error hfound).status
          rw [hmissing.status] at hstatus
          cases hstatus

/-! ## Listings -/

/-- Whatever parameters there are, in whatever order, the listing that they ask for is
served. -/
theorem listing_served {target : String} {sortBy order language : Option String}
    {params : List (String × String)} (hparams : params.Perm (listingParams sortBy order language))
    (htarget : WebRequest.Targets target "/" params) (headers : Headers) (state : ServiceState σ) :
    Serves responder state.source
      (((ListingRequest.ofParams sortBy order language).entries service.pageSize).run responder
        state.source)
      (service.handle responder (.ofTarget "GET" target headers) state) := by
  obtain ⟨request, hgives, hkeeps⟩ :=
    service.keeps_target responder .listing htarget headers state
  rw [page, service.listing_of_gives responder hparams hgives] at hkeeps
  exact hkeeps.serves (serves_ofRun _ fun entries =>
    ListingRequest.madeFrom _ service.pageSize responder state.source)

end Service

/-- The pages and the catalog agree, for every source. A search for a blank text is refused, and
any other search and every listing answer with the items that the catalog finds, in its order,
or with the message of its failure; however the texts are written in the target, and whatever
else the request holds. Each item is a row of works that was answered, unchanged but for one
list of tags and one of artists, and the body is read back as the items wherever the rows are. -/
theorem pages_serve_catalog [HostNames] (service : Service) (responder : Responder σ) (headers : Headers)
    (state : ServiceState σ) :
    (∀ query target, WebRequest.Targets target "/search" [("q", query)] →
      let run := service.handle responder (.ofTarget "GET" target headers) state
      (run.answer.Says 400 "text/plain; charset=utf-8" "Missing query" ↔ Text.trim query = "") ∧
      (Text.trim query ≠ "" → Service.Serves responder state.source
        (search responder query state.source) run)) ∧
    (∀ sortBy order language params target,
      params.Perm (Service.listingParams sortBy order language) →
      WebRequest.Targets target "/" params →
      Service.Serves responder state.source
        (((ListingRequest.ofParams sortBy order language).entries service.pageSize).run responder
          state.source)
        (service.handle responder (.ofTarget "GET" target headers) state)) ∧
    (∀ path params, (∀ param ∈ params, ∀ c ∈ param.1.toList, c.isAlphanum = true) →
      ∃ target, WebRequest.Targets target path params) :=
  ⟨fun _ _ htarget => service.search_served responder htarget headers state,
    fun _ _ _ _ _ hparams htarget => service.listing_served responder hparams htarget headers state,
    fun path _ hnames => ⟨_, WebRequest.targets_written path hnames⟩⟩

theorem pages_serve_catalog_sample :
    let query := "tag:\"big dog\" 50% & +ü"
    let target := "/search" ++ "?" ++ "&".intercalate [Params.written "q" query]
    let params := [("language", "EN, jp"), ("sortBy", "Artist")]
    let listed := "/" ++ "?" ++
      "&".intercalate [Params.written "language" "EN, jp", Params.written "sortBy" "Artist"]
    let service : Service := ⟨[], 5, default⟩
    let state := ServiceState.fresh (Source.database .sample) .unreachable
    (WebRequest.Targets target "/search" [("q", query)] ∧ Text.trim query ≠ "" ∧
      Service.Serves Source.respond state.source (search Source.respond query state.source)
        (service.handle Source.respond (.ofTarget "GET" target []) state)) ∧
    (∀ entries, (search Source.respond query state.source).result = .ok entries →
      (service.handle Source.respond (.ofTarget "GET" target []) state).answer.Reads Json.nearest?
        (.array (entries.map Entry.toJson))) ∧
    params.Perm (Service.listingParams (some "Artist") none (some "EN, jp")) ∧
    WebRequest.Targets listed "/" params ∧
    Service.Serves Source.respond state.source
      (((ListingRequest.ofParams (some "Artist") none (some "EN, jp")).entries 5).run Source.respond
        state.source)
      (service.handle Source.respond (.ofTarget "GET" listed []) state) := by
  intro query target params listed service state
  obtain ⟨hsearch, hlisting, -⟩ := pages_serve_catalog service Source.respond [] state
  have hnames : ∀ name ∈ ["q", "language", "sortBy"], ∀ c ∈ name.toList, c.isAlphanum = true := by
    simp
  have htarget : WebRequest.Targets target "/search" [("q", query)] :=
    WebRequest.targets_written "/search" (List.forall_mem_singleton.mpr (hnames "q" (by simp)))
  have hlisted : WebRequest.Targets listed "/" params := by
    apply WebRequest.targets_written "/"
    rintro param hparam
    rcases List.mem_pair.mp hparam with rfl | rfl
    · exact hnames "language" (by simp)
    · exact hnames "sortBy" (by simp)
  have hquery : Text.trim query ≠ "" := by
    rw [Ne, Text.trim_eq_empty]
    decide
  have hparams : params.Perm (Service.listingParams (some "Artist") none (some "EN, jp")) :=
    List.Perm.swap _ _ []
  have hserves := (hsearch query target htarget).2 hquery
  exact ⟨⟨htarget, hquery, hserves⟩,
    hserves.read Json.nearest? fun _ hrow => Database.sample_sound.isMadeOf_answered hrow,
    hparams, hlisted, hlisting _ _ _ params listed hparams hlisted⟩

end ComicCatalog
