import ComicCatalog.Proofs.Catalog.Listing
import ComicCatalog.Proofs.Store.Sorting
import ComicCatalog.Proofs.Store.Statements

/-! # Pages of works

A listing wants the works of some languages, or all works, and shows as many of them as
fit on a page. They are cut off in the order of a stored column or, without one, of their
numbers, so that nothing that is left out belongs ahead of what is shown. An order by
artists only rearranges the page.
-/

namespace ComicCatalog

open Lookup

/-! ## Pages -/

/-- Some of the wanted rows, each once and in order: all of them or as many as fit, and
none of those that are left out belongs ahead of one that is shown. -/
structure IsPage (ahead : Row → Row → Prop) (wanted page : List Row) (size : Nat) : Prop where
  length : page.length = min size wanted.length
  nodup : page.Nodup
  mem : ∀ work ∈ page, work ∈ wanted
  sorted : page.Pairwise fun a b => ¬ ahead b a
  cut : ∀ shown ∈ page, ∀ omitted ∈ wanted, omitted ∉ page → ¬ ahead omitted shown

/-- What stands first in a list that is in order is a page. -/
theorem isPage_take {ahead : Row → Row → Prop} {wanted list : List Row} (hperm : list.Perm wanted)
    (hnodup : wanted.Nodup) (hsorted : list.Pairwise fun a b => ¬ ahead b a) (size : Nat) :
    IsPage ahead wanted (list.take size) size where
  length := by rw [List.length_take, hperm.length_eq]
  nodup := (hperm.nodup_iff.mpr hnodup).sublist (List.take_sublist size list)
  mem := fun _ hwork => hperm.mem_iff.mp (List.mem_of_mem_take hwork)
  sorted := hsorted.sublist (List.take_sublist size list)
  cut := by
    intro shown hshown omitted homitted hout
    rw [← List.take_append_drop size list] at hsorted
    have hdrop : omitted ∈ list.drop size := by
      have hmem := hperm.mem_iff.mpr homitted
      rw [← List.take_append_drop size list] at hmem
      exact (List.mem_append.mp hmem).resolve_left hout
    exact (List.pairwise_append.mp hsorted).2.2 shown hshown omitted hdrop

/-! ## Languages -/

/-- The code is one of those that a parameter lists: what stands between its commas, without
blanks around it and in lowercase, unless nothing is left. -/
def IsCode (language : Option String) (code : String) : Prop :=
  code ≠ "" ∧ ∃ codes ∈ language, ∃ part ∈ codes.toList.splitOn ',',
    code = Text.fold (Text.trim (String.ofList part))

/-- The language of the work is among those that are asked for; without any, it does not
matter. -/
def Row.isIn (languages : List String) (work : Row) : Bool :=
  languages.isEmpty ||
    match work.cell (.column 1) with
    | .text bytes => languages.contains (Text.fold (Bytes.text bytes))
    | _ => false

theorem Row.isIn_congr {languages others : List String} (hsame : ∀ code, code ∈ others ↔ code ∈ languages)
    (work : Row) : work.isIn others = work.isIn languages := by
  have hempty : others.isEmpty = languages.isEmpty := by
    rw [Bool.eq_iff_iff, List.isEmpty_iff, List.isEmpty_iff, List.eq_nil_iff_forall_not_mem,
      List.eq_nil_iff_forall_not_mem]
    exact forall_congr' fun code => not_congr (hsame code)
  have hcontains : ∀ code, others.contains code = languages.contains code := by
    intro code
    rw [Bool.eq_iff_iff, List.contains_iff_mem, List.contains_iff_mem, hsame]
  simp only [isIn, hempty, hcontains]

variable {db : Database}

namespace ListingRequest

theorem mem_languagesOfParam {language : Option String} {code : String} :
    code ∈ languagesOfParam language ↔ IsCode language code := by
  cases language with
  | none => simp [languagesOfParam, IsCode]
  | some codes =>
      have hnormal : ∀ part : List Char,
          Criteria.normal part = Text.fold (Text.trim (String.ofList part)) := by
        intro part
        rw [Criteria.normal, Text.fold, Text.trim, String.toList_ofList, String.toList_ofList]
      simp only [languagesOfParam, IsCode, List.mem_filter, List.mem_map, hnormal, Bool.not_eq_true',
        String.isEmpty_eq_false_iff, Option.mem_some_iff, exists_eq_left']
      constructor
      · rintro ⟨⟨part, hpart, rfl⟩, hne⟩
        exact ⟨hne, part, hpart, rfl⟩
      · rintro ⟨hne, part, hpart, rfl⟩
        exact ⟨⟨part, hpart, rfl⟩, hne⟩

/-- The codes of a parameter are in lowercase. -/
theorem map_fold_languagesOfParam (language : Option String) :
    (languagesOfParam language).map Text.fold = languagesOfParam language := by
  refine (List.map_congr_left fun code hcode => ?_).trans (List.map_id _)
  obtain ⟨-, codes, -, part, -, rfl⟩ := mem_languagesOfParam.mp hcode
  exact Text.fold_fold _

/-! ## The page of a listing -/

/-- The works that a listing wants to show. -/
def wanted (request : ListingRequest) (db : Database) : List Row :=
  (db.rows .works).filter (Row.isIn request.languages)

theorem wanted_of_no_language {request : ListingRequest} (hlanguages : request.languages = []) :
    request.wanted db = db.rows .works := by
  rw [wanted, List.filter_eq_self]
  intro work _
  rw [Row.isIn, hlanguages, List.isEmpty_nil, Bool.true_or]

/-- What belongs ahead of what: by the stored column that is asked for, else by number. -/
def Ahead (request : ListingRequest) (a b : Row) : Prop :=
  match request.sortKey with
  | some (.column name) =>
      ∃ slot, Table.works.slot? name = some slot ∧ request.direction.Ahead (a.cell slot) (b.cell slot)
  | _ => a.key < b.key

/-- The works on the page of a listing. -/
def page (request : ListingRequest) (db : Database) (pageSize : Nat) : List Row :=
  (Database.sorted .works (request.select pageSize) (request.wanted db)).take pageSize

/-- The condition of a listing lets the works through that it wants. -/
theorem selected_select (hsound : db.Sound) {request : ListingRequest}
    (hfolded : request.languages.map Text.fold = request.languages) {pageSize : Nat}
    (hpage : pageSize ≠ 0) :
    db.selected .works (request.select pageSize) = .ok (request.wanted db) := by
  have hlimit : (request.select pageSize).limit ≠ some 0 := by
    rw [limit_select]
    simpa using hpage
  have hconditions := request.conditions_select pageSize
  by_cases hlanguages : request.languages = []
  · rw [if_pos hlanguages] at hconditions
    simp [Database.selected, Select.keepsNothing, hconditions, hlimit, Database.decided,
      Database.rowTests, Database.filtered_nil, wanted_of_no_language hlanguages]
  · rw [if_neg hlanguages] at hconditions
    have hslot : Table.works.slot? "language" = some (.column 1) := by decide
    have hrowTest : Database.rowTest .works (.oneOfFolded "language" request.languages) =
        ⟨.column 1, .oneOfFolded request.languages⟩ := by
      simp [Database.rowTest, Condition.oneOfFolded, hslot, Matcher.ofTest, hfolded]
    have hempty : (Condition.oneOfFolded "language" request.languages).test ≠ .oneOf [] := by
      simpa [Condition.oneOfFolded] using hlanguages
    have htest : ∀ work ∈ db.rows .works,
        (Matcher.oneOfFolded request.languages).test (work.cell (.column 1)) =
          .ok (work.isIn request.languages) := by
      intro work hwork
      have hheld : (work.cell (.column 1)).IsHeld .text := hsound.held _ work hwork 1 _ rfl
      rcases hheld.text_cases with hcell | ⟨bytes, hcell⟩ | ⟨bytes, hcell⟩ <;>
        simp [Matcher.test, Row.isIn, hcell, hlanguages, Cell.folded?]
    rw [Database.selected_singleton hconditions hlimit hempty, hrowTest,
      Database.filtered_single htest, wanted]

/-- The works on the page of an orderable listing are those that belong ahead. -/
theorem isPage_page (hsound : db.Sound) {request : ListingRequest} (horderable : request.IsOrderable)
    (pageSize : Nat) : IsPage request.Ahead (request.wanted db) (request.page db pageSize) pageSize := by
  have hnumbered : (request.wanted db).Pairwise fun a b => ¬ b.key < a.key :=
    ((hsound.ascending .works).filter _).imp fun hlt => not_lt.mpr hlt.le
  refine isPage_take (Database.perm_sorted _ _) ((hsound.nodup_rows _).filter _) ?_ pageSize
  have horder := request.order_select pageSize
  rcases hkey : request.sortKey with _ | name | _
  case some.column =>
    obtain ⟨slot, hslot⟩ := Option.isSome_iff_exists.mp (horderable name hkey).2
    rw [hkey] at horder
    have hsorted := Database.pairwise_sorted horder hslot (request.wanted db)
    refine hsorted.imp fun {a b} hahead => ?_
    simp only [Ahead, hkey]
    rintro ⟨other, hother, hbefore⟩
    rw [hslot, Option.some.injEq] at hother
    exact hahead (hother ▸ hbefore)
  all_goals
    rw [hkey] at horder
    rw [Database.sorted_of_no_order horder]
    simp only [Ahead, hkey]
    exact hnumbered

theorem mem_rows_of_mem_page {request : ListingRequest} {pageSize : Nat} {work : Row}
    (hwork : work ∈ request.page db pageSize) : work ∈ db.rows .works :=
  (List.mem_filter.mp ((Database.perm_sorted _ _).mem_iff.mp (List.mem_of_mem_take hwork))).1

/-- Everything that an orderable listing is answered with. -/
theorem resultOn_page (hsound : db.Sound) {request : ListingRequest}
    (hfolded : request.languages.map Text.fold = request.languages) (horderable : request.IsOrderable)
    (hfew : request.languages.length ≤ Statement.maxValues) (pageSize : Nat) :
    (request.entries pageSize).resultOn db =
      .ok (request.arrange ((request.page db pageSize).map db.entry)) := by
  have hpage := isPage_page hsound horderable pageSize
  refine resultOn_entries hsound (fun work => mem_rows_of_mem_page) hpage.nodup ?_
  rw [Database.answer_eq (asks_select horderable hfew pageSize), limit_select, asked_select, page]
  cases pageSize with
  | zero =>
      have hselected : db.selected .works (request.select 0) = .ok [] := by
        rw [Database.selected, limit_select]
        simp
      simp only [hselected, List.take_zero]
  | succ size => simp only [selected_select hsound hfolded size.succ_ne_zero]

/-- A listing of every language with room for all works shows each of them. -/
theorem exists_listed (hsound : db.Sound) {request : ListingRequest}
    (hlanguages : request.languages = []) (horderable : request.IsOrderable) {pageSize : Nat}
    (hpage : (db.rows .works).length ≤ pageSize) :
    ∃ listed, ((request.entries pageSize).run Source.respond (.database db)).result = .ok listed ∧
      listed.Perm ((db.rows .works).map db.entry) := by
  have hfolded : request.languages.map Text.fold = request.languages := by rw [hlanguages, List.map_nil]
  have hfew : request.languages.length ≤ Statement.maxValues := by simp [hlanguages]
  have hwanted : request.wanted db = db.rows .works := wanted_of_no_language hlanguages
  have hsorted : (Database.sorted .works (request.select pageSize) (db.rows .works)).Perm
      (db.rows .works) := Database.perm_sorted _ _
  have hall : (request.page db pageSize).Perm (db.rows .works) := by
    rwa [page, hwanted, List.take_of_length_le (hsorted.length_eq.trans_le hpage)]
  exact ⟨_, (run_database db _).1.trans (resultOn_page hsound hfolded horderable hfew pageSize),
    (request.perm_arrange _).trans (hall.map db.entry)⟩

/-- The select of a listing that is answered is answered. -/
theorem answer_of_resultOn {request : ListingRequest} {pageSize : Nat} {entries : List Entry}
    (hlisted : (request.entries pageSize).resultOn db = .ok entries) :
    ∃ shown, db.answer (request.select pageSize) = .ok shown := by
  rw [ListingRequest.entries, resultOn_mapError_eq_ok, resultOn_bind_eq_ok] at hlisted
  obtain ⟨shown, hshown, -⟩ := hlisted
  rw [resultOn_fetch] at hshown
  exact ⟨shown, hshown⟩

/-- A listing that is answered is orderable. -/
theorem isOrderable_of_resultOn {request : ListingRequest} {pageSize : Nat} {entries : List Entry}
    (hlisted : (request.entries pageSize).resultOn db = .ok entries) : request.IsOrderable := by
  obtain ⟨shown, hshown⟩ := answer_of_resultOn hlisted
  have htable : Table.named? (request.select pageSize).table = some .works := by
    rw [table_select, Table.named?_works]
  intro name hkey
  have horder : (request.select pageSize).order = some ⟨name, request.direction⟩ := by
    rw [order_select, hkey]
  unfold Database.answer at hshown
  split at hshown
  next => cases hshown
  next statement hstatement =>
    simp only [htable] at hshown
    split at hshown
    next => cases hshown
    next =>
      split at hshown
      next => cases hshown
      next hunknown =>
        have hname : name ∈ (request.select pageSize).names :=
          Select.mem_names_of_columnNames (Select.mem_columnNames_of_order horder)
        have hknown := Select.known_order hunknown horder
        exact ⟨isIdentifier_iff.mpr (Select.plain_of_statement hstatement name hname), hknown⟩

/-- A listing that is answered has no more languages than a statement binds. -/
theorem length_languages_of_resultOn {request : ListingRequest} {pageSize : Nat} {entries : List Entry}
    (hlisted : (request.entries pageSize).resultOn db = .ok entries) :
    request.languages.length ≤ Statement.maxValues := by
  obtain ⟨shown, hshown⟩ := answer_of_resultOn hlisted
  have hfits := Database.fitsStatement_of_answer hshown
  rw [Select.FitsStatement, conditions_select] at hfits
  split at hfits
  next hnone => simp [hnone]
  next => simpa [Condition.oneOfFolded, Condition.bound] using hfits

/-- The page depends on the order that the store is asked for and on what is wanted. -/
theorem page_congr {first second : ListingRequest} {pageSize : Nat}
    (horder : (first.select pageSize).order = (second.select pageSize).order)
    (hlanguages : ∀ code, code ∈ first.languages ↔ code ∈ second.languages) :
    first.page db pageSize = second.page db pageSize := by
  have hwanted : first.wanted db = second.wanted db :=
    List.filter_congr fun work _ => Row.isIn_congr hlanguages work
  have hfolds : (first.select pageSize).conditions.all Condition.folds =
      (second.select pageSize).conditions.all Condition.folds := by
    rw [folds_select, folds_select]
  rw [page, page, Database.sorted_congr horder hfolds, hwanted]

/-- Everything that the listing of some parameters is answered with. -/
theorem result_ofParams (hsound : db.Sound) {sortBy : Option String} (order language : Option String)
    (pageSize : Nat) (horderable : (ofParams sortBy order language).IsOrderable)
    (hfew : (languagesOfParam language).length ≤ Statement.maxValues) :
    (((ofParams sortBy order language).entries pageSize).run Source.respond (.database db)).result =
      .ok ((ofParams sortBy order language).arrange
        (((ofParams sortBy order language).page db pageSize).map db.entry)) := by
  rw [(run_database db _).1]
  exact resultOn_page hsound (map_fold_languagesOfParam language) horderable hfew pageSize

/-- A listing shows a page of the works that are wanted: as many as fit, each once, and none
that is left out belongs ahead of one that is shown. The page is in the order of the stored
column that is asked for or, without one, of the numbers. An order by artists rearranges what
is shown without one. Of the languages only the codes matter that the parameter lists: another
parameter that lists the same is answered with the same entries, or not at all, which happens
exactly if it lists them so often that a statement cannot bind them all. -/
theorem listing_shows_page (hsound : db.Sound) {sortBy order language : Option String}
    {pageSize : Nat} {entries : List Entry}
    (hlisted : (((ofParams sortBy order language).entries pageSize).run Source.respond
      (.database db)).result = .ok entries) :
    let request := ofParams sortBy order language
    entries.length = min pageSize (request.wanted db).length ∧
    (entries.map Entry.id?).Nodup ∧
    (∃ page, IsPage request.Ahead (request.wanted db) page pageSize ∧
      entries.Perm (page.map db.entry) ∧
      (request.sortKey ≠ some .artist → entries = page.map db.entry) ∧
      (request.sortKey = some .artist →
        (((ofParams none order language).entries pageSize).run Source.respond
          (.database db)).result = .ok (page.map db.entry))) ∧
    ∀ other, (∀ code, IsCode other code ↔ IsCode language code) →
      let found := (((ofParams sortBy order other).entries pageSize).run Source.respond
        (.database db)).result
      (∀ others, found = .ok others → others = entries) ∧
        (found = .ok entries ↔ (languagesOfParam other).length ≤ Statement.maxValues) := by
  intro request
  -- That the listing succeeded says that its column exists and its codes are few enough.
  have hresult := hlisted
  rw [(run_database db _).1] at hresult
  have horderable : request.IsOrderable := isOrderable_of_resultOn hresult
  have hfew : (languagesOfParam language).length ≤ Statement.maxValues :=
    length_languages_of_resultOn hresult
  have hshown := result_ofParams hsound order language pageSize horderable hfew
  have hentries : entries = request.arrange ((request.page db pageSize).map db.entry) :=
    Except.ok.inj (hlisted.symm.trans hshown)
  have hperm : entries.Perm ((request.page db pageSize).map db.entry) := by
    rw [hentries]
    exact request.perm_arrange _
  have hpage := isPage_page hsound horderable pageSize
  refine ⟨?_, ?_, ⟨request.page db pageSize, hpage, hperm, ?_, ?_⟩, ?_⟩
  · rw [hperm.length_eq, List.length_map, hpage.length]
  · rw [(hperm.map Entry.id?).nodup_iff]
    exact nodup_shown_ids (hsound.nodup_keys hpage.nodup fun work => mem_rows_of_mem_page)
  · intro hkey
    rw [hentries, arrange_of_ne hkey]
  · intro hkey
    -- No order by artists is sent, so the page is that of the listing without a key.
    have hplain : (ofParams none order language).IsOrderable := by rintro name ⟨⟩
    have hsame : (ofParams none order language).page db pageSize = request.page db pageSize := by
      refine page_congr ?_ fun code => Iff.rfl
      rw [order_select, order_select, hkey]
      rfl
    rw [result_ofParams hsound order language pageSize hplain hfew, hsame]
    rfl
  · intro other hcodes found
    have hsame : (ofParams sortBy order other).page db pageSize = request.page db pageSize := by
      refine page_congr ?_ fun code => ?_
      · rw [order_select, order_select]
        rfl
      · exact mem_languagesOfParam.trans ((hcodes code).trans mem_languagesOfParam.symm)
    have hfound : (languagesOfParam other).length ≤ Statement.maxValues → found = .ok entries := by
      intro hbound
      show (((ofParams sortBy order other).entries pageSize).run _ _).result = _
      rw [result_ofParams hsound order other pageSize horderable hbound, hsame, hentries]
      rfl
    -- Conversely, a listing that succeeds had room for its codes.
    have hbound : ∀ others, found = .ok others → (languagesOfParam other).length ≤ Statement.maxValues := by
      intro others hothers
      replace hothers := (run_database db _).1.symm.trans hothers
      exact length_languages_of_resultOn hothers
    refine ⟨fun others hothers => ?_, hbound entries, hfound⟩
    exact Except.ok.inj (hothers.symm.trans (hfound (hbound others hothers)))

/-- Two works fit on the page, and it is the same one however the codes are written. -/
theorem listing_shows_page_sample : ∃ entries,
    (((ofParams (some "pages") (some "desc") (some " EN, fr")).entries 2).run Source.respond
      (.database .sample)).result = .ok entries ∧ entries.length = 2 ∧ (entries.map Entry.id?).Nodup ∧
    (((ofParams (some "pages") (some "desc") (some "fr,en,,Fr")).entries 2).run Source.respond
      (.database .sample)).result = .ok entries := by
  have horderable : (ofParams (some "pages") (some "desc") (some " EN, fr")).IsOrderable := by
    intro name hkey
    have hname : SortKey.ofParam? (some "pages") = some (.column "pages") := by decide
    cases hname.symm.trans hkey
    decide
  have hfirst : languagesOfParam (some "fr,en,,Fr") = ["fr", "en", "fr"] := by cbv
  have hsecond : languagesOfParam (some " EN, fr") = ["en", "fr"] := by cbv
  have hcodes : ∀ code, IsCode (some "fr,en,,Fr") code ↔ IsCode (some " EN, fr") code := by
    intro code
    rw [← mem_languagesOfParam, ← mem_languagesOfParam, hfirst, hsecond]
    simp only [List.mem_cons, List.not_mem_nil]
    tauto
  have hwanted : ((ofParams (some "pages") (some "desc") (some " EN, fr")).wanted .sample).length = 4 := by
    cbv
  have hfew : (languagesOfParam (some " EN, fr")).length ≤ Statement.maxValues := by
    rw [hsecond]
    decide
  have hlisted := result_ofParams Database.sample_sound (some "desc") (some " EN, fr") 2 horderable hfew
  obtain ⟨hlength, hnodup, -, hsame⟩ := listing_shows_page Database.sample_sound hlisted
  rw [hwanted] at hlength
  refine ⟨_, hlisted, hlength, hnodup, (hsame _ hcodes).2.mpr ?_⟩
  rw [hfirst]
  decide

end ListingRequest

end ComicCatalog
