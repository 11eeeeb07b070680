import ComicCatalog.Proofs.Catalog.Display
import ComicCatalog.Proofs.Catalog.Semantics
import ComicCatalog.Proofs.Query.Casing
import ComicCatalog.Proofs.Query.Seams
import ComicCatalog.Proofs.Query.Writing

/-! # Searching for a title

A title that is typed into the search is cut into its words, each of them is put into
lowercase, and the words are joined again. Since a space ends a word, this is the lowercase
form of the whole title, which the database finds in the title. What is lost on the way
are blanks other than single spaces, and characters that mean something to the search.
-/

namespace ComicCatalog

namespace Criteria

/-! ## Queries of words -/

/-- A word that a query takes for title text as it is. -/
structure IsTitleWord (word : String) : Prop extends IsQuotable word where
  trimmed : Text.trim word = word
  unbroken : word.toList.any Text.isAsciiBlank = false
  unscoped : ':' ∉ word.toList

instance (word : String) : Decidable (IsTitleWord word) :=
  decidable_of_iff (IsQuotable word ∧ Text.trim word = word ∧
      word.toList.any Text.isAsciiBlank = false ∧ ':' ∉ word.toList)
    ⟨fun ⟨hquotable, htrimmed, hunbroken, hunscoped⟩ => ⟨hquotable, htrimmed, hunbroken, hunscoped⟩,
      fun hword => ⟨hword.toIsQuotable, hword.trimmed, hword.unbroken, hword.unscoped⟩⟩

variable {word : String}

theorem IsTitleWord.lexemes_eq (hword : IsTitleWord word) :
    Term.lexemes word.toList = [⟨word.toList, false⟩] := by
  have hnonempty : word.toList ≠ [] := fun hnil => hword.nonempty (String.toList_eq_nil_iff.mp hnil)
  have hquote := hword.unquoted
  have hunbroken : ∀ c ∈ word.toList, Text.isAsciiBlank c = false := by
    simpa using hword.unbroken
  obtain ⟨c, rest, hsplit⟩ := List.exists_cons_of_ne_nil hnonempty
  rw [hsplit] at hquote hunbroken ⊢
  have hrun : ∀ d ∈ rest, Term.isRunChar d = true := by
    intro d hd
    rw [Term.isRunChar, hunbroken d (List.mem_cons_of_mem c hd)]
    rfl
  rw [Term.lexemes_cons_of_not_blank rest (hunbroken c List.mem_cons_self),
    Term.lexeme_of_unquoted_alone hquote, List.takeWhile_eq_self_iff.mpr hrun,
    List.dropWhile_eq_nil_iff.mpr hrun, Term.lexemes_nil]

/-- A word asks for itself in the title, in lowercase. -/
theorem IsTitleWord.entries_eq (hword : IsTitleWord word) :
    (ofQuery word).entries = [(.title, Text.fold word)] := by
  have hcolon : word.toList.dropWhile (· != ':') = [] := by
    rw [List.dropWhile_eq_nil_iff]
    intro c hc
    simpa using fun heq : c = ':' => hword.unscoped (heq ▸ hc)
  have hquote : Text.strip (· == '"') word.toList = word.toList := by
    apply Text.strip_eq_self
    intro c hc
    simpa using fun heq : c = '"' => hword.unquoted (heq ▸ hc)
  have hparts : parts word = [Text.fold word] := by
    rw [parts, hquote, List.splitOn_eq_singleton hword.whole, List.map_singleton, normal_toList,
      hword.trimmed]
  have hterm : Term.ofLexeme ⟨word.toList, false⟩ = ⟨word, none, word⟩ := by
    simp [Term.ofLexeme, hcolon]
  have hkept : (Text.fold word).isEmpty = false := by
    simpa [Text.fold_eq_empty] using hword.nonempty
  simp [ofQuery, ofTerms, Term.scan, hword.lexemes_eq, hterm, ofTerm, hparts, hkept]

/-- Words with spaces between them ask for one after the other in the title. -/
theorem entries_ofQuery_words {words : List String} (hwords : ∀ word ∈ words, IsTitleWord word) :
    (ofQuery (" ".intercalate words)).entries = words.map fun word => (.title, Text.fold word) := by
  induction words with
  | nil => simp [ofQuery, ofTerms, Term.scan, Term.lexemes_nil]
  | cons word rest ih =>
      have hword := hwords word List.mem_cons_self
      have hrest := ih fun other hother => hwords other (List.mem_cons_of_mem word hother)
      cases rest with
      | nil => simpa using hword.entries_eq
      | cons next others =>
          rw [String.intercalate_cons_cons, entries_append (Or.inl hword.unquoted),
            hword.entries_eq, hrest]
          rfl

/-- Such a query asks for the lowercase words in the title, and for nothing else. -/
theorem values_ofQuery_words {words : List String} (hwords : ∀ word ∈ words, IsTitleWord word)
    (field : Field) :
    (ofQuery (" ".intercalate words)).values field =
      if field = .title then words.map Text.fold else [] := by
  rw [values, entries_ofQuery_words hwords, List.filter_map]
  split
  next htitle => simp [htitle, Function.comp_def]
  next hother =>
    have hne : (Field.title == field) = false := by simp [Ne.symm hother]
    simp [hne, Function.comp_def]

end Criteria

/-- The lowercase words, joined, are the lowercase form of the words joined. -/
theorem Text.fold_intercalate (words : List String) :
    fold (" ".intercalate words) = " ".intercalate (words.map fold) := by
  rw [← String.toList_inj, toList_fold, String.toList_intercalate, String.toList_intercalate]
  have hspace : " ".toList = [' '] := rfl
  rw [hspace, foldList_intercalate, List.map_map, List.map_map]
  congr 1
  exact List.map_congr_left fun word _ => (toList_fold word).symm

/-! ## Works and their titles -/

variable {db : Database} {work : Row}

namespace Database

theorem get?_title_entry (db : Database) (work : Row) :
    (db.entry work).fields.get? "title" = some (work.cell (.column 0)).toJson := by
  rw [fields_entry]
  rfl

/-- The title that is shown of a work has itself as a phrase. -/
theorem titleFinds_fold {title : String} (htitle : (work.cell (.column 0)).toJson = .text title) :
    TitleFinds (Text.fold title) work := by
  have hshown : (work.cell (.column 0)).toJson.text? = some title := by
    rw [htitle]
    rfl
  obtain ⟨bytes, hcell, rfl⟩ := Cell.text?_toJson.mp hshown
  refine ⟨Text.fold (Bytes.text bytes), ?_, ?_⟩
  · rw [hcell, Cell.folded?]
  · rw [Text.toList_fold, Text.foldList_foldList]
    exact Pattern.finds_self _

/-- A work matches the words of its title. -/
theorem matches_own_title {words : List String} (hwords : ∀ word ∈ words, Criteria.IsTitleWord word)
    (htitle : (work.cell (.column 0)).toJson = .text (" ".intercalate words)) :
    db.Matches (Criteria.ofQuery (" ".intercalate words)) work := by
  refine ⟨?_, ?_, ?_⟩
  · intro facet value hvalue
    rw [Criteria.values_ofQuery_words hwords, if_neg (by simp)] at hvalue
    cases hvalue
  · intro _
    rw [Criteria.values_ofQuery_words hwords, if_pos rfl, ← Text.fold_intercalate]
    exact titleFinds_fold htitle
  · intro value hvalue
    rw [Criteria.values_ofQuery_words hwords, if_neg (by simp)] at hvalue
    cases hvalue

end Database

/-- A search for the title of a work, in any ASCII case, succeeds and shows the work, if the
title is made of words that the search takes as they are, with single spaces between them,
and is not too long. -/
theorem search_finds_own_title (hsound : db.Sound) (hwork : work ∈ db.rows .works)
    {words : List String} (hwords : ∀ word ∈ words, Criteria.IsTitleWord word) (hsome : words ≠ [])
    (htitle : (db.entry work).fields.get? "title" = some (.text (" ".intercalate words)))
    (hshort : Pattern.IsShort (" ".intercalate words)) {query : String}
    (hcase : Text.asciiFold query = Text.asciiFold (" ".intercalate words)) :
    ∃ entries, (search Source.respond query (.database db)).result = .ok entries ∧
      db.entry work ∈ entries := by
  have hcriteria : Criteria.ofQuery query = Criteria.ofQuery (" ".intercalate words) := by
    rw [← Criteria.ofQuery_asciiFold, hcase, Criteria.ofQuery_asciiFold]
  have hpresent : (Criteria.ofQuery query).isEmpty = false := by
    rw [hcriteria, Criteria.isEmpty, Criteria.entries_ofQuery_words hwords]
    simpa using hsome
  have hphrase : (Criteria.ofQuery query).HasShortPhrase := by
    intro _
    rwa [hcriteria, Criteria.values_ofQuery_words hwords, if_pos rfl, ← Text.fold_intercalate,
      Pattern.isShort_fold]
  have hids : ∀ value ∈ (Criteria.ofQuery query).values .id, ∃ n, Ident.Spells value n := by
    intro value hvalue
    rw [hcriteria, Criteria.values_ofQuery_words hwords, if_neg (by simp)] at hvalue
    cases hvalue
  have hmatches : db.Matches (Criteria.ofQuery query) work := by
    rw [hcriteria]
    rw [db.get?_title_entry work, Option.some.injEq] at htitle
    exact Database.matches_own_title hwords htitle
  obtain ⟨entries, hresult⟩ := exists_search_result (search_answered hsound hphrase)
  obtain ⟨works, -, hmem, rfl⟩ := search_works hsound hresult
  refine ⟨works.map db.entry, hresult, List.mem_map_of_mem ((hmem work).mpr ⟨hwork, hpresent, ?_⟩)⟩
  exact (Database.yields_iff_matches hsound hpresent hwork hids).mpr hmatches

/-- A title with a wildcard, a backslash and a final sigma, in another case. -/
theorem search_finds_own_title_sigma :
    ∃ entries, (search Source.respond "cAT_\\ ΟΔΟΣ 7" (.database (.ofTitle "Cat_\\ ΟΔΟΣ 7"))).result =
        .ok entries ∧
      (Database.ofTitle "Cat_\\ ΟΔΟΣ 7").entry (Database.sampleWork 1 "Cat_\\ ΟΔΟΣ 7" "el" 20 0 none) ∈
        entries := by
  have hsound : (Database.ofTitle "Cat_\\ ΟΔΟΣ 7").Sound :=
    Database.sound_of_areSound (by decide +kernel)
  have hwords : ∀ word ∈ ["Cat_\\", "ΟΔΟΣ", "7"], Criteria.IsTitleWord word := by
    decide
  have hjoined : " ".intercalate ["Cat_\\", "ΟΔΟΣ", "7"] = "Cat_\\ ΟΔΟΣ 7" := by decide
  have hshort : Pattern.IsShort "Cat_\\ ΟΔΟΣ 7" := by
    unfold Pattern.IsShort
    decide +kernel
  have hcase : Text.asciiFold "cAT_\\ ΟΔΟΣ 7" = Text.asciiFold "Cat_\\ ΟΔΟΣ 7" := by decide
  rw [← hjoined] at hshort hcase
  have hcell : ((Database.sampleWork 1 "Cat_\\ ΟΔΟΣ 7" "el" 20 0 none).cell (.column 0)).toJson =
      .text (Bytes.text (Bytes.ofText "Cat_\\ ΟΔΟΣ 7")) := rfl
  refine search_finds_own_title hsound List.mem_cons_self hwords (by simp) ?_ hshort hcase
  rw [Database.get?_title_entry, hcell, Bytes.text_ofText, hjoined]

end ComicCatalog
