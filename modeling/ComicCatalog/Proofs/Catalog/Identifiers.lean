import ComicCatalog.Proofs.Catalog.Semantics
import ComicCatalog.Proofs.Number.ReadBack
import ComicCatalog.Proofs.Query.Normal
import ComicCatalog.Proofs.Query.Writing
import ComicCatalog.Proofs.Work.Candidates
import ComicCatalog.Proofs.Work.Numerals
import Mathlib

/-! # Asking for an identifier

A store hands identifiers out as they are. One that a user types is read in lowercase, and a whole
number among them in one spelling. So a quotation of an identifier asks for it exactly if it is
read as itself. All numbers are; of the texts those that are in lowercase and are no other spelling
of a whole number.
-/

namespace ComicCatalog

/-- The number is one that JSON can write. -/
def JsonNumber.IsFinite : JsonNumber → Prop
  | .whole _ => True
  | .real x => x.isFinite = true

/-- The value is a number, or a text that can stand in a quotation and has no blanks around it. -/
def Json.IsWritable : Json → Prop
  | .number n => n.IsFinite
  | .text s => Criteria.IsQuotable s ∧ Text.trim s = s
  | _ => False

/-- The identifier is in lowercase and, if it spells a whole number, spells it in the shortest
way. -/
structure Ident.IsCanonical (id : Ident) : Prop where
  folded : Text.fold id.text = id.text
  numeral : ∀ n, Ident.Spells id.text n → id.text = toString n

/-! ## Texts of numbers -/

namespace Cell

theorem isLiteralChar_of_isChar {c : Char} (hchar : NumberLiteral.IsChar c) :
    isLiteralChar c = true := by
  rcases hchar with hdigit | rfl | rfl | rfl | rfl
  · exact isLiteralChar_of_isDigit hdigit
  all_goals decide

theorem isFolded_of_isChar {c : Char} (hchar : NumberLiteral.IsChar c) : Text.IsFolded c := by
  refine Text.isFolded_of_ascii (ascii_of_isLiteralChar (isLiteralChar_of_isChar hchar)) ?_
  rcases hchar with hdigit | rfl | rfl | rfl | rfl
  · have hhigh : c.toNat ≤ 57 := (Char.isDigit_iff_toNat.mp hdigit).2
    have hall : ∀ code ≤ 57, (Char.ofNat code).toLower = Char.ofNat code := by decide
    simpa using hall c.toNat hhigh
  all_goals decide

theorem not_blank_of_isChar {c : Char} (hchar : NumberLiteral.IsChar c) : Text.isBlank c = false := by
  have hliteral := isLiteralChar_of_isChar hchar
  have hascii := ascii_of_isLiteralChar hliteral
  simp only [Text.isBlank, not_blank_of_isLiteralChar hliteral, Bool.false_or,
    Bool.or_eq_false_iff, beq_eq_false_iff_ne, Bool.and_eq_false_iff, decide_eq_false_iff_not]
  omega

end Cell

namespace JsonNumber

variable {n : JsonNumber}

theorem isChar_text (hfinite : n.IsFinite) : ∀ c ∈ n.text.toList, NumberLiteral.IsChar c := by
  intro c hc
  cases n with
  | whole n =>
      rcases Cell.toString_chars n c hc with rfl | hdigit
      · exact Or.inr (Or.inr (Or.inr (Or.inl rfl)))
      · exact Or.inl hdigit
  | real x => exact Binary64.isChar_jsonText hfinite c hc

theorem text_ne_empty (hfinite : n.IsFinite) : n.text ≠ "" := by
  intro hempty
  cases n with
  | whole n =>
      have hchars := Cell.toList_toString n
      rw [show toString n = "" from hempty] at hchars
      exact NumberLiteral.toDigits_ne_nil _ (List.append_eq_nil_iff.mp hchars.symm).2
  | real x =>
      have hmark := Binary64.jsonText_mark hfinite
      rw [show x.jsonText = "" from hempty] at hmark
      rcases hmark with hmark | hmark <;> cases hmark

theorem isQuotable_text (hfinite : n.IsFinite) : Criteria.IsQuotable n.text where
  nonempty := text_ne_empty hfinite
  unquoted hquote := by simpa [NumberLiteral.IsChar] using isChar_text hfinite _ hquote
  whole hpercent := by simpa [NumberLiteral.IsChar] using isChar_text hfinite _ hpercent

theorem strip_text (hfinite : n.IsFinite) :
    Text.strip Text.isBlank n.text.toList = n.text.toList :=
  Text.strip_eq_self fun c hc => Cell.not_blank_of_isChar (isChar_text hfinite c hc)

theorem fold_text (hfinite : n.IsFinite) : Text.fold n.text = n.text := by
  have hfolded : Text.foldList n.text.toList = n.text.toList :=
    Text.foldAfter_of_isFolded fun c hc =>
      Cell.isFolded_of_isChar (isChar_text hfinite c hc)
  rw [Text.fold, hfolded, String.ofList_toList]

/-- The text of a number is canonical. -/
theorem isCanonical_text (hfinite : n.IsFinite) : (Ident.mk n.text).IsCanonical where
  folded := fold_text hfinite
  numeral := by
    intro m hspells
    rw [Ident.Spells, strip_text hfinite, Ident.integer?_eq_some_iff] at hspells
    cases n with
    | whole n =>
        rw [hspells.1.unique (Ident.isNumeral_toString n)]
        rfl
    | real x =>
        have hchars := hspells.1.chars
        rcases Binary64.jsonText_mark hfinite with hmark | hmark
        · simpa using hchars _ hmark
        · simpa using hchars _ hmark

end JsonNumber

/-! ## Quotations of identifiers -/

/-- Lowercasing leaves no blanks around a text that has none. -/
theorem Text.trim_fold {text : String} (htrim : trim text = text) : trim (fold text) = fold text := by
  by_cases hempty : fold text = ""
  · rw [hempty]
    rfl
  · have hnormal : Criteria.normal text.toList = fold text := by
      rw [Criteria.normal_toList, htrim]
    have hends := Criteria.isNormal_normal (hnormal ▸ hempty)
    rw [hnormal] at hends
    rw [trim, strip_eq_self_of_ends hends.opens hends.closes, String.ofList_toList]

/-- The identifier of such a value can stand in a quotation and has no blanks around it. -/
theorem Json.IsWritable.of_ofJson? {value : Json} (hvalue : value.IsWritable) {id : Ident}
    (hid : Ident.ofJson? value = some id) :
    Criteria.IsQuotable id.text ∧ Text.trim id.text = id.text := by
  cases value with
  | number n =>
      cases hid
      refine ⟨JsonNumber.isQuotable_text hvalue, ?_⟩
      rw [Text.trim, JsonNumber.strip_text hvalue, String.ofList_toList]
  | text s =>
      cases hid
      exact hvalue
  | _ => cases hid

namespace Ident

theorem ofText_of_not_spells {text : String} (hnone : ∀ n, ¬Spells text n) :
    ofText text = ⟨Text.trim text⟩ := by
  have hinteger : integer? (Text.strip Text.isBlank text.toList) = none :=
    Option.eq_none_iff_forall_ne_some.mpr hnone
  simp only [ofText, hinteger, Text.trim]

/-- The lowercase form is read as the identifier itself exactly if that is canonical. -/
theorem ofText_fold_eq_iff {id : Ident} (htrim : Text.trim id.text = id.text) :
    ofText (Text.fold id.text) = id ↔ id.IsCanonical := by
  constructor
  · intro hread
    by_cases hspells : ∃ n, Spells (Text.fold id.text) n
    · obtain ⟨n, hn⟩ := hspells
      rw [Database.ofText_of_spells hn] at hread
      rw [← hread]
      exact @JsonNumber.isCanonical_text (.whole n) trivial
    · rw [not_exists] at hspells
      rw [ofText_of_not_spells hspells, Text.trim_fold htrim] at hread
      have hfolded : Text.fold id.text = id.text := congrArg Ident.text hread
      exact ⟨hfolded, fun n hn => absurd (hfolded.symm ▸ hn) (hspells n)⟩
  · rintro ⟨hfolded, hnumeral⟩
    rw [hfolded]
    by_cases hspells : ∃ n, Spells id.text n
    · obtain ⟨n, hn⟩ := hspells
      rw [Database.ofText_of_spells hn, ← hnumeral n hn]
    · rw [not_exists] at hspells
      rw [ofText_of_not_spells hspells, htrim]

end Ident

/-- What is asked of the identifier by a quotation of one. -/
theorem values_id_quotation {s : String} (hquotable : Criteria.IsQuotable s)
    (htrim : Text.trim s = s) :
    (Criteria.ofQuery ("id:\"" ++ s ++ "\"")).values .id = [Text.fold s] := by
  have hquoted : Criteria.quoted .id [s] = "id:\"" ++ s ++ "\"" := rfl
  have hvalues := @Criteria.values_ofQuery_quoted .id _ (List.forall_mem_singleton.mpr hquotable) .id
  have hnonempty : Text.fold s ≠ "" := mt Text.fold_eq_empty.mp hquotable.nonempty
  rw [hquoted, if_pos rfl, List.map_singleton, htrim] at hvalues
  rw [hvalues]
  simp [hnonempty]

/-- A quotation of the identifier of a number, or of a text without quotes, percent signs and
blanks around it, asks for one identifier. It is the one quoted exactly if that is canonical, as
those of numbers are. Then, and only then, a set that has the quoted identifier keeps it where it
meets what is asked for. -/
theorem Ident.quotation_asks_for {value : Json} {id : Ident} (hid : Ident.ofJson? value = some id)
    (hvalue : value.IsWritable) :
    let criteria := Criteria.ofQuery ("id:\"" ++ id.text ++ "\"")
    let asked : Candidates := ⟨[Ident.ofText (Text.fold id.text)]⟩
    Field.id.candidates (criteria.values .id) = pure (some asked) ∧
      (asked = ⟨[id]⟩ ↔ id.IsCanonical) ∧
      (∀ n, value = .number n → id.IsCanonical) ∧
      ∀ set : Candidates, id ∈ (asked.inter set).ids ↔ id.IsCanonical ∧ id ∈ set.ids := by
  obtain ⟨hquotable, htrim⟩ := hvalue.of_ofJson? hid
  intro criteria asked
  have hiff := Ident.ofText_fold_eq_iff htrim
  refine ⟨?_, ?_, ?_, ?_⟩
  · have hset : Candidates.ofList [Ident.ofText (Text.fold id.text)] = asked := by
      rw [Candidates.ofList, List.mergeSort_singleton]
      rfl
    rw [values_id_quotation hquotable htrim, ← hset]
    rfl
  · rw [← hiff, Candidates.mk.injEq, List.cons.injEq, and_iff_left rfl]
  · rintro n rfl
    cases hid
    exact JsonNumber.isCanonical_text hvalue
  · intro set
    rw [Candidates.mem_inter, List.mem_singleton, eq_comm, hiff]

/-- A text with a capital letter is stored as it is and asked for in lowercase, and a number beyond
64 bits with sign is asked for as it is stored. -/
theorem Ident.quotation_asks_for_capital :
    Field.id.candidates ((Criteria.ofQuery "id:\"Abc\"").values .id) =
        pure (some ⟨[Ident.ofText "abc"]⟩) ∧
      (∀ set : Candidates, ⟨"Abc"⟩ ∉ ((⟨[Ident.ofText "abc"]⟩ : Candidates).inter set).ids) ∧
      Field.id.candidates ((Criteria.ofQuery "id:\"18446744073709551615\"").values .id) =
        pure (some ⟨[⟨"18446744073709551615"⟩]⟩) := by
  have hcapital : (Json.text "Abc").IsWritable := ⟨by decide, by decide⟩
  have hfold : Text.fold "Abc" = "abc" := by decide
  obtain ⟨hasked, -, -, hmeets⟩ := Ident.quotation_asks_for rfl hcapital
  obtain ⟨hasked', hsame, hnumber, -⟩ :=
    @Ident.quotation_asks_for (.ofNat 18446744073709551615) _ rfl trivial
  refine ⟨?_, ?_, ?_⟩
  · rw [← hfold]
    exact hasked
  · intro set hmem
    rw [← hfold, hmeets] at hmem
    exact absurd hmem.1.folded (by decide)
  · rw [hsame.mpr (hnumber _ rfl)] at hasked'
    exact hasked'

end ComicCatalog
