import ComicCatalog.Proofs.Query.Terms
import ComicCatalog.Proofs.Text.Folding
import ComicCatalog.Query.Criteria

/-! # Writing criteria as a query

Values can be written in groups, each a field with the values behind it between
percent signs, as in `tag:"big cat%dog"`. Reading such a query gives back the normal
form of every value under its field, in order, however the values were grouped.
-/

namespace ComicCatalog

namespace Criteria

/-- A value that can stand in a quotation. -/
structure IsQuotable (value : String) : Prop where
  nonempty : value ≠ ""
  unquoted : '"' ∉ value.toList
  whole : '%' ∉ value.toList

/-- A value that reads as itself in a quotation. -/
structure IsPlain (value : String) : Prop extends IsQuotable value where
  trimmed : Text.trim value = value
  folded : Text.fold value = value

instance (value : String) : Decidable (IsQuotable value) :=
  decidable_of_iff (value ≠ "" ∧ '"' ∉ value.toList ∧ '%' ∉ value.toList)
    ⟨fun ⟨hnonempty, hunquoted, hwhole⟩ => ⟨hnonempty, hunquoted, hwhole⟩,
      fun hquotable => ⟨hquotable.nonempty, hquotable.unquoted, hquotable.whole⟩⟩

instance (value : String) : Decidable (IsPlain value) :=
  decidable_of_iff (IsQuotable value ∧ Text.trim value = value ∧ Text.fold value = value)
    ⟨fun ⟨hquotable, htrimmed, hfolded⟩ => ⟨hquotable, htrimmed, hfolded⟩,
      fun hplain => ⟨hplain.toIsQuotable, hplain.trimmed, hplain.folded⟩⟩

theorem normal_toList (value : String) : normal value.toList = Text.fold (Text.trim value) := by
  rw [normal, Text.fold, Text.trim, String.toList_ofList]

theorem IsPlain.normal_eq {value : String} (hplain : IsPlain value) :
    normal value.toList = value := by
  rw [normal_toList, hplain.trimmed, hplain.folded]

/-- Some values of one field that are written as one term. -/
structure Group where
  field : Field
  values : List String
  nonempty : values ≠ []
  quotable : ∀ value ∈ values, IsQuotable value

namespace Group

/-- The values between percent signs. -/
def body (group : Group) : List Char :=
  ['%'].intercalate (group.values.map String.toList)

/-- The term of a group: its field, and its values between quotes. -/
def text (group : Group) : String :=
  group.field.key ++ ":\"" ++ "%".intercalate group.values ++ "\""

theorem toList_text (group : Group) :
    group.text.toList = group.field.key.toList ++ ':' :: '"' :: (group.body ++ ['"']) := by
  simp [text, body]

theorem splitOn_body (group : Group) :
    group.body.splitOn '%' = group.values.map String.toList := by
  apply List.splitOn_intercalate
  · intro cs hcs
    obtain ⟨value, hvalue, rfl⟩ := List.mem_map.mp hcs
    exact (group.quotable value hvalue).whole
  · simpa using group.nonempty

theorem mem_intercalate {α : Type} {separator a : α} {lists : List (List α)}
    (hmem : a ∈ [separator].intercalate lists) : a = separator ∨ ∃ list ∈ lists, a ∈ list := by
  induction lists with
  | nil => simp at hmem
  | cons first rest ih =>
      cases rest with
      | nil => exact Or.inr ⟨first, by simp, by simpa using hmem⟩
      | cons second others =>
          rw [List.intercalate_cons_cons, List.append_assoc, List.mem_append] at hmem
          rcases hmem with hfirst | hrest
          · exact Or.inr ⟨first, by simp, hfirst⟩
          · rcases List.mem_cons.mp hrest with heq | hlater
            · exact Or.inl heq
            · exact (ih hlater).imp_right fun ⟨list, hlist, ha⟩ =>
                ⟨list, List.mem_cons_of_mem first hlist, ha⟩

theorem quote_notMem_body (group : Group) : '"' ∉ group.body := by
  intro hmem
  rcases mem_intercalate hmem with hpercent | ⟨cs, hcs, hquote⟩
  · simp at hpercent
  · obtain ⟨value, hvalue, rfl⟩ := List.mem_map.mp hcs
    exact (group.quotable value hvalue).unquoted hquote

theorem body_ne_nil (group : Group) : group.body ≠ [] := by
  intro hnil
  have hsplit := group.splitOn_body
  rw [hnil, List.splitOn_nil] at hsplit
  have hmem : [] ∈ group.values.map String.toList := hsplit ▸ List.mem_cons_self
  obtain ⟨value, hvalue, hempty⟩ := List.mem_map.mp hmem
  exact (group.quotable value hvalue).nonempty (String.toList_eq_nil_iff.mp hempty)

/-- Every field name is made of word characters, holds no colon and names its field. -/
theorem key_spells (field : Field) :
    field.key.toList ≠ [] ∧ (∀ c ∈ field.key.toList, Term.isWordChar c = true) ∧
      ':' ∉ field.key.toList ∧ Field.named? field.key = some field := by
  have hall : field.key.toList.all Term.isWordChar = true := by
    obtain facet | _ | _ := field
    · cases facet <;> decide
    · decide
    · decide
  refine ⟨?_, List.all_eq_true.mp hall, ?_, ?_⟩
  all_goals
    obtain facet | _ | _ := field
    · cases facet <;> decide
    · decide
    · decide

/-- A query that starts with a group's term has it as its first term. -/
theorem lexemes_text_append (group : Group) (rest : List Char) :
    Term.lexemes (group.text.toList ++ rest) =
      ⟨group.text.toList, false⟩ :: Term.lexemes rest := by
  have hread := Term.lexemes_keyedQuotation (key_spells group.field).1
    (key_spells group.field).2.1 group.body_ne_nil group.quote_notMem_body rest
  rw [toList_text]
  simpa using hread

/-- The quotes around a text without quotes are stripped, and nothing else. -/
theorem strip_quoted {body : List Char} (hquote : '"' ∉ body) :
    Text.strip (· == '"') ('"' :: (body ++ ['"'])) = body := by
  have hkept : ∀ c ∈ body, (c == '"') = false := by
    intro c hc
    rw [beq_eq_false_iff_ne]
    rintro rfl
    exact hquote hc
  exact @Text.strip_between (· == '"') ['"'] body ['"'] (by simp) (by simp)
    (fun c hc => hkept c (List.mem_of_mem_head? hc))
    fun c hc => hkept c (List.mem_of_mem_getLast? hc)

/-- The normal forms of the values of a group, each under its field. -/
def entries (group : Group) : List (Field × String) :=
  group.values.map fun value => (group.field, normal value.toList)

/-- The term of a group reads as the normal forms of its values. -/
theorem ofTerm_text (group : Group) :
    ofTerm (Term.ofLexeme ⟨group.text.toList, false⟩) = group.entries := by
  obtain ⟨-, -, hcolon, hnamed⟩ := key_spells group.field
  have hkey : ∀ c ∈ group.field.key.toList, (c != ':') = true := by
    intro c hc
    simpa using fun heq : c = ':' => hcolon (heq ▸ hc)
  have htake : group.text.toList.takeWhile (· != ':') = group.field.key.toList := by
    rw [toList_text, List.takeWhile_append_of_pos hkey]
    simp
  have hdrop : group.text.toList.dropWhile (· != ':') = ':' :: '"' :: (group.body ++ ['"']) := by
    rw [toList_text, List.dropWhile_append_of_pos hkey]
    simp
  have hterm : Term.ofLexeme ⟨group.text.toList, false⟩ =
      ⟨group.text, some group.field.key, String.ofList ('"' :: (group.body ++ ['"']))⟩ := by
    simp [Term.ofLexeme, htake, hdrop]
  have hparts : parts (String.ofList ('"' :: (group.body ++ ['"']))) =
      group.values.map fun value => normal value.toList := by
    rw [parts, String.toList_ofList, strip_quoted group.quote_notMem_body, splitOn_body,
      List.map_map]
    rfl
  rw [hterm]
  simp only [ofTerm, hnamed, hparts, List.map_map]
  rfl

end Group

/-- The terms of groups with single spaces between them. -/
def queryOf (groups : List Group) : String :=
  " ".intercalate (groups.map Group.text)

/-- The values that groups spell for one field, in order. -/
def spelled (groups : List Group) (field : Field) : List String :=
  (groups.filter fun group => group.field == field).flatMap Group.values

theorem lexemes_queryOf (groups : List Group) :
    Term.lexemes (queryOf groups).toList =
      groups.map fun group => ⟨group.text.toList, false⟩ := by
  induction groups with
  | nil => exact Term.lexemes_nil
  | cons group rest ih =>
      cases rest with
      | nil =>
          have hread := group.lexemes_text_append []
          rw [Term.lexemes_nil, List.append_nil] at hread
          simpa [queryOf] using hread
      | cons next others =>
          have hquery : (queryOf (group :: next :: others)).toList =
              group.text.toList ++ ' ' :: (queryOf (next :: others)).toList := by
            simp [queryOf]
          rw [hquery, group.lexemes_text_append, Term.lexemes_cons_of_blank _ (by decide), ih]
          rfl

/-- A written query reads as the normal forms of the values, those left out that are
empty. -/
theorem entries_ofQuery_queryOf (groups : List Group) :
    (ofQuery (queryOf groups)).entries =
      (groups.flatMap Group.entries).filter fun entry => !entry.2.isEmpty := by
  have hterms : (Term.scan (queryOf groups)).flatMap ofTerm = groups.flatMap Group.entries := by
    rw [Term.scan, lexemes_queryOf, List.map_map, List.flatMap_map]
    exact List.flatMap_congr fun group _ => group.ofTerm_text
  rw [ofQuery, ofTerms, hterms]

theorem values_ofQuery_queryOf (groups : List Group) (field : Field) :
    (ofQuery (queryOf groups)).values field =
      ((spelled groups field).map fun value => normal value.toList).filter fun value =>
        !value.isEmpty := by
  rw [values, entries_ofQuery_queryOf, spelled]
  induction groups with
  | nil => rfl
  | cons group rest ih =>
      rw [List.flatMap_cons, List.filter_append, List.filter_append, List.map_append, ih]
      by_cases hfield : group.field = field
      · simp [Group.entries, List.filter_map, Function.comp_def, hfield]
      · simp [Group.entries, List.filter_map, Function.comp_def, hfield]

/-- Values in normal form are read as they are written. -/
theorem values_ofQuery_of_plain {groups : List Group}
    (hplain : ∀ group ∈ groups, ∀ value ∈ group.values, IsPlain value) (field : Field) :
    (ofQuery (queryOf groups)).values field = spelled groups field := by
  have hspelled : ∀ value ∈ spelled groups field, IsPlain value := by
    intro value hvalue
    obtain ⟨group, hgroup, hmem⟩ := List.mem_flatMap.mp hvalue
    exact hplain group (List.mem_filter.mp hgroup).1 value hmem
  have hnormal : (spelled groups field).map (fun value => normal value.toList) =
      spelled groups field := by
    calc (spelled groups field).map (fun value => normal value.toList)
        = (spelled groups field).map id :=
          List.map_congr_left fun value hvalue => (hspelled value hvalue).normal_eq
      _ = spelled groups field := List.map_id _
  rw [values_ofQuery_queryOf, hnormal, List.filter_eq_self]
  intro value hvalue
  simpa using (hspelled value hvalue).nonempty

/-- Reading a written query gives each field exactly the values of its groups, so
that grouping the values of the fields in another way changes nothing. -/
theorem query_of_groups_reads_back {groups : List Group}
    (hplain : ∀ group ∈ groups, ∀ value ∈ group.values, IsPlain value) :
    (∀ field, (ofQuery (queryOf groups)).values field = spelled groups field) ∧
      ∀ others : List Group, (∀ group ∈ others, ∀ value ∈ group.values, IsPlain value) →
        (∀ field, spelled others field = spelled groups field) →
          ∀ field, (ofQuery (queryOf others)).values field =
            (ofQuery (queryOf groups)).values field := by
  refine ⟨values_ofQuery_of_plain hplain, ?_⟩
  intro others hothers hsame field
  rw [values_ofQuery_of_plain hothers, values_ofQuery_of_plain hplain, hsame field]

/-- Two values with a blank and a colon in them, and a later term of the same field. -/
theorem query_of_groups_reads_back_colon :
    (ofQuery "tag:\"big cat%a:b\" id:\"7\" tag:\"dog\"").values (.facet .tag) =
      ["big cat", "a:b", "dog"] := by
  have hcat : IsPlain "big cat" := by decide
  have hcolon : IsPlain "a:b" := by decide
  have hseven : IsPlain "7" := by decide
  have hdog : IsPlain "dog" := by decide
  have hread := @query_of_groups_reads_back
    [⟨.facet .tag, ["big cat", "a:b"], by decide, by decide⟩, ⟨.id, ["7"], by decide, by decide⟩,
      ⟨.facet .tag, ["dog"], by decide, by decide⟩]
    (by simp [hcat, hcolon, hseven, hdog])
  exact hread.1 (.facet .tag)

/-! ## Quotations of single values -/

/-- The query that asks for values of one field, each in a quotation of its own. -/
def quoted (field : Field) (values : List String) : String :=
  " ".intercalate (values.map fun value => field.key ++ ":\"" ++ value ++ "\"")

/-- One value that is written as one term. -/
def Group.single (field : Field) (value : String) (hquotable : IsQuotable value) : Group where
  field := field
  values := [value]
  nonempty := List.cons_ne_nil value []
  quotable := by
    intro other hother
    rwa [List.mem_singleton.mp hother]

theorem Group.text_single (field : Field) (value : String) (hquotable : IsQuotable value) :
    (single field value hquotable).text = field.key ++ ":\"" ++ value ++ "\"" := by
  simp [text, single]

/-- What is asked of the fields by a query of quotations. -/
theorem values_ofQuery_quoted {field : Field} {values : List String}
    (hquotable : ∀ value ∈ values, IsQuotable value) (other : Field) :
    (ofQuery (quoted field values)).values other =
      if other = field then (values.map fun value => Text.fold (Text.trim value)).filter fun value =>
        !value.isEmpty
      else [] := by
  have hquery : quoted field values = queryOf (values.pmap (Group.single field) hquotable) := by
    rw [quoted, queryOf, List.map_pmap]
    simp only [Group.text_single, List.pmap_eq_map]
  have hspelled : spelled (values.pmap (Group.single field) hquotable) other =
      if other = field then values else [] := by
    clear hquery
    unfold spelled
    induction values with
    | nil => simp
    | cons value rest ih =>
        have hrest := ih fun value hvalue => hquotable value (List.mem_cons_of_mem _ hvalue)
        rw [List.pmap_cons, List.filter_cons]
        by_cases hother : other = field
        · subst hother
          simpa [Group.single] using hrest
        · have hne : (field == other) = false := by simp [Ne.symm hother]
          simpa [Group.single, hne, hother] using hrest
  rw [hquery, values_ofQuery_queryOf, hspelled]
  -- Values are read in normal form, and the empty ones are dropped.
  split
  · simp only [normal_toList]
  · rfl

/-- Quotations of which one is not blank ask for something. -/
theorem isEmpty_ofQuery_quoted {field : Field} {values : List String}
    (hquotable : ∀ value ∈ values, IsQuotable value) (hsome : ∃ value ∈ values, Text.trim value ≠ "") :
    (ofQuery (quoted field values)).isEmpty = false := by
  obtain ⟨value, hvalue, htrim⟩ := hsome
  have hown : Text.fold (Text.trim value) ∈ (ofQuery (quoted field values)).values field := by
    rw [values_ofQuery_quoted hquotable, if_pos rfl, List.mem_filter]
    refine ⟨List.mem_map_of_mem hvalue, ?_⟩
    simpa [Text.fold_eq_empty] using htrim
  rw [Bool.eq_false_iff]
  intro hempty
  rw [isEmpty, List.isEmpty_iff] at hempty
  simp [Criteria.values, hempty] at hown

end Criteria

end ComicCatalog
