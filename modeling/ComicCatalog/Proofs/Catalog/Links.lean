import ComicCatalog.Proofs.Catalog.Annotation

/-! # What links tie

A link ties a work to a name: it holds the number of the work, and the database finds its
second cell equal to the number of the name. A search goes by these ties. A work is shown
with the names that it is tied to by whole numbers: a floating-point number may equal the
number of a row, but it points at no name when names are attached.
-/

namespace ComicCatalog

theorem Cell.text?_toJson {cell : Cell} {shown : String} :
    cell.toJson.text? = some shown ↔ ∃ bytes, cell = .text bytes ∧ Bytes.text bytes = shown := by
  cases cell with
  | real x =>
      simp only [Cell.toJson]
      split <;> simp [Json.text?]
  | _ => simp [Cell.toJson, Json.text?, Json.ofInt]

/-! ## One link -/

namespace Row

/-- The link holds the number of the work and what equals the number of the name. -/
structure Ties (link work name : Row) : Prop where
  work : link.cell (.column 0) = .integer work.key
  name : (link.cell (.column 1)).equals (.integer name.key) = true

/-- The link points by a floating-point number. -/
def IsFloating (link : Row) : Prop :=
  ∃ x, link.cell (.column 1) = .real x

/-- A link that does not float holds both numbers themselves. -/
theorem ties_and_not_floating_iff {link work name : Row} :
    link.Ties work name ∧ ¬link.IsFloating ↔
      link.cell (.column 0) = .integer work.key ∧ link.cell (.column 1) = .integer name.key := by
  constructor
  · rintro ⟨⟨hwork, hname⟩, hwhole⟩
    exact ⟨hwork, (Cell.eq_or_real_of_equals hname).resolve_right hwhole⟩
  · rintro ⟨hwork, hname⟩
    refine ⟨⟨hwork, ?_⟩, ?_⟩
    · rw [hname]
      exact Cell.equals_integer.mpr rfl
    · rintro ⟨x, hx⟩
      rw [hname] at hx
      cases hx

end Row

namespace Database

/-! ## Ties by value and by name -/

/-- A name of the facet equals the value up to case, and a link ties the work to it. -/
def Tied (db : Database) (facet : Facet) (value : String) (work : Row) : Prop :=
  ∃ name ∈ db.rows (.names facet), (name.cell (.column 0)).folded? = some (Text.fold value) ∧
    ∃ link ∈ db.rows (.links facet), link.Ties work name

/-- A link ties the work to a name of the given lowercase form by a floating-point number. -/
def Misfiled (db : Database) (facet : Facet) (folded : String) (work : Row) : Prop :=
  ∃ name ∈ db.rows (.names facet), (name.cell (.column 0)).folded? = some folded ∧
    ∃ link ∈ db.rows (.links facet), link.Ties work name ∧ link.IsFloating

/-- The names that some links tie a work to by whole numbers. -/
inductive NamesAlong (db : Database) (facet : Facet) (work : Row) : List Row → List String → Prop
  | nil : NamesAlong db facet work [] []
  | named {link : Row} {rest : List Row} {names : List String} (name : Row) (bytes : Bytes)
      (hname : name ∈ db.rows (.names facet)) (hties : link.Ties work name)
      (hwhole : ¬link.IsFloating) (htext : name.cell (.column 0) = .text bytes)
      (hrest : NamesAlong db facet work rest names) :
      NamesAlong db facet work (link :: rest) (Bytes.text bytes :: names)
  /-- The link ties the work to no row, or to one without a text. -/
  | nameless {link : Row} {rest : List Row} {names : List String}
      (hnone : ∀ name ∈ db.rows (.names facet), link.Ties work name → ¬link.IsFloating →
        ∀ bytes, name.cell (.column 0) ≠ .text bytes)
      (hrest : NamesAlong db facet work rest names) :
      NamesAlong db facet work (link :: rest) names

variable {db : Database}

/-! ## What is shown -/

theorem shownName?_eq_some (hsound : db.Sound) {facet : Facet} {link : Row} {shown : String} :
    db.shownName? facet link = some shown ↔
      ∃ name ∈ db.rows (.names facet), link.cell (.column 1) = .integer name.key ∧
        ∃ bytes, name.cell (.column 0) = .text bytes ∧ Bytes.text bytes = shown := by
  constructor
  · intro hshown
    unfold shownName? at hshown
    split at hshown
    next key hcell =>
      obtain ⟨name, hfind, htext⟩ := Option.bind_eq_some_iff.mp hshown
      have hkey : name.key = key := by simpa using List.find?_some hfind
      refine ⟨name, List.mem_of_find?_eq_some hfind, ?_, Cell.text?_toJson.mp htext⟩
      rw [hcell, hkey]
    next => cases hshown
  · rintro ⟨name, hname, hcell, htext⟩
    simp only [shownName?, hcell, hsound.find?_key hname, Option.bind_some]
    exact Cell.text?_toJson.mpr htext

/-- The name that a link of a work is shown with is the text that it ties the work to. -/
theorem shownName?_eq_some_iff_ties (hsound : db.Sound) {facet : Facet} {link work : Row}
    (hlink : link.cell (.column 0) = .integer work.key) {shown : String} :
    db.shownName? facet link = some shown ↔
      ∃ name ∈ db.rows (.names facet), (link.Ties work name ∧ ¬link.IsFloating) ∧
        ∃ bytes, name.cell (.column 0) = .text bytes ∧ Bytes.text bytes = shown := by
  simp only [shownName?_eq_some hsound, Row.ties_and_not_floating_iff, hlink, true_and]

theorem namesAlong_filterMap (hsound : db.Sound) (facet : Facet) (work : Row) (links : List Row) :
    db.NamesAlong facet work links (links.filterMap fun link =>
      if link.cell (.column 0) = .integer work.key then db.shownName? facet link else none) := by
  induction links with
  | nil => exact .nil
  | cons link rest ih =>
      by_cases hlink : link.cell (.column 0) = .integer work.key
      · cases hshown : db.shownName? facet link with
        | none =>
            rw [List.filterMap_cons_none (by rw [if_pos hlink, hshown])]
            refine .nameless ?_ ih
            intro name hname hties hwhole bytes htext
            have hsome := (shownName?_eq_some_iff_ties hsound hlink).mpr
              ⟨name, hname, ⟨hties, hwhole⟩, bytes, htext, rfl⟩
            rw [hshown] at hsome
            cases hsome
        | some shown =>
            obtain ⟨name, hname, ⟨hties, hwhole⟩, bytes, htext, rfl⟩ :=
              (shownName?_eq_some_iff_ties hsound hlink).mp hshown
            rw [List.filterMap_cons_some (by rw [if_pos hlink, hshown])]
            exact .named name bytes hname hties hwhole htext ih
      · rw [List.filterMap_cons_none (by rw [if_neg hlink])]
        exact .nameless (fun name _ hties => absurd hties.work hlink) ih

theorem mem_shownNames (hsound : db.Sound) {facet : Facet} {work : Row} {shown : String} :
    shown ∈ db.shownNames facet work ↔ ∃ name ∈ db.rows (.names facet),
      ∃ link ∈ db.rows (.links facet), (link.Ties work name ∧ ¬link.IsFloating) ∧
        ∃ bytes, name.cell (.column 0) = .text bytes ∧ Bytes.text bytes = shown := by
  rw [shownNames, linkedNames, List.mem_filterMap]
  constructor
  · rintro ⟨link, hlink, hshown⟩
    split at hshown
    next hwork =>
      obtain ⟨name, hname, hrest⟩ := (shownName?_eq_some_iff_ties hsound hwork).mp hshown
      exact ⟨name, hname, link, hlink, hrest⟩
    next => cases hshown
  · rintro ⟨name, hname, link, hlink, hties, htext⟩
    refine ⟨link, hlink, ?_⟩
    rw [if_pos hties.1.work]
    exact (shownName?_eq_some_iff_ties hsound hties.1.work).mpr ⟨name, hname, hties, htext⟩

/-- A name that has a lowercase form is a text. -/
theorem folded?_eq_some_iff (hsound : db.Sound) {facet : Facet} {name : Row}
    (hname : name ∈ db.rows (.names facet)) {folded : String} :
    (name.cell (.column 0)).folded? = some folded ↔
      ∃ bytes, name.cell (.column 0) = .text bytes ∧ Text.fold (Bytes.text bytes) = folded := by
  have hheld : (name.cell (.column 0)).IsHeld .text := hsound.held _ name hname 0 _ rfl
  rcases hheld.text_cases with hcell | ⟨bytes, hcell⟩ | ⟨bytes, hcell⟩
  · simp [hcell, Cell.folded?]
  · simp [hcell, Cell.folded?]
  · simp [hcell, Cell.folded?]

/-- The work is tied to a value by the names that it is shown with, or by a misfiled
link. -/
theorem tied_iff_shown (hsound : db.Sound) (facet : Facet) (value : String) (work : Row) :
    db.Tied facet value work ↔
      (∃ shown ∈ db.shownNames facet work, Text.fold shown = Text.fold value) ∨
        db.Misfiled facet (Text.fold value) work := by
  constructor
  · rintro ⟨name, hname, hfolded, link, hlink, hties⟩
    by_cases hfloating : link.IsFloating
    · exact Or.inr ⟨name, hname, hfolded, link, hlink, hties, hfloating⟩
    · obtain ⟨bytes, htext, hsame⟩ := (folded?_eq_some_iff hsound hname).mp hfolded
      refine Or.inl ⟨Bytes.text bytes, (mem_shownNames hsound).mpr ?_, hsame⟩
      exact ⟨name, hname, link, hlink, ⟨hties, hfloating⟩, bytes, htext, rfl⟩
  · rintro (⟨shown, hshown, hsame⟩ | ⟨name, hname, hfolded, link, hlink, hties, -⟩)
    · obtain ⟨name, hname, link, hlink, ⟨hties, -⟩, bytes, htext, rfl⟩ :=
        (mem_shownNames hsound).mp hshown
      exact ⟨name, hname, (folded?_eq_some_iff hsound hname).mpr ⟨bytes, htext, hsame⟩,
        link, hlink, hties⟩
    · exact ⟨name, hname, hfolded, link, hlink, hties⟩

end Database

end ComicCatalog
