import ComicCatalog.Proofs.Query.Segments
import ComicCatalog.Query.Criteria

/-! # Queries put together

A blank ends every term but a quotation, and a quotation ends at a quote. So two texts with
a blank between them fall into the terms of the first and then those of the second, as long
as no quotation can open in one of them and close in the other. It is enough that one of
the two has no quotes.
-/

namespace ComicCatalog

namespace Term

variable {left tail : List Char}

/-! ## Quotations before a seam -/

theorem IsQuotation.getLast?_eq {cs : List Char} (hcs : IsQuotation cs) :
    cs.getLast? = some '"' := by
  obtain ⟨body, -, -, rfl⟩ := hcs
  rw [← List.cons_append, List.getLast?_concat]

theorem IsKeyedQuotation.getLast?_eq {cs : List Char} (hcs : IsKeyedQuotation cs) :
    cs.getLast? = some '"' := by
  obtain ⟨word, quotation, -, -, hquotation, rfl⟩ := hcs
  rw [List.getLast?_append, List.getLast?_cons, hquotation.getLast?_eq]
  rfl

/-- What ends with a quote ends before a text without quotes. -/
theorem prefix_of_unquoted {front : List Char} (hquote : '"' ∉ tail)
    (hlast : front.getLast? = some '"') (hfront : front <+: left ++ tail) : front <+: left := by
  obtain ⟨rest, hsplit⟩ := hfront
  rcases List.append_eq_append_iff.mp hsplit with ⟨behind, rfl, -⟩ | ⟨behind, rfl, rfl⟩
  · exact List.prefix_append front behind
  · cases hend : behind.getLast? with
    | none => rw [List.getLast?_eq_none_iff.mp hend, List.append_nil]
    | some last =>
        rw [List.getLast?_append, hend, Option.some_or] at hlast
        cases hlast
        exact absurd (List.mem_append_left rest (List.mem_of_getLast? hend)) hquote

/-- A reader of forms that end with a quote reads the same where a text without quotes
follows, and leaves that text behind what it left. -/
theorem read_append {read : List Char → Option (List Char × List Char)} {IsForm : List Char → Prop}
    (hread : ∀ cs found, read cs = some found ↔ IsForm found.1 ∧ cs = found.1 ++ found.2)
    (hlast : ∀ front, IsForm front → front.getLast? = some '"') (hquote : '"' ∉ tail) :
    read (left ++ tail) = (read left).map fun found => (found.1, found.2 ++ tail) := by
  cases hleft : read left with
  | some found =>
      obtain ⟨hform, hsplit⟩ := (hread left found).mp hleft
      refine (hread _ (found.1, found.2 ++ tail)).mpr ⟨hform, ?_⟩
      rw [hsplit, List.append_assoc]
  | none =>
      rw [Option.map_none, Option.eq_none_iff_forall_ne_some]
      intro found hfound
      obtain ⟨hform, hsplit⟩ := (hread _ found).mp hfound
      obtain ⟨rest, hrest⟩ := prefix_of_unquoted hquote (hlast found.1 hform) ⟨found.2, hsplit.symm⟩
      have halone := (hread left (found.1, rest)).mpr ⟨hform, hrest.symm⟩
      rw [hleft] at halone
      cases halone

/-! ## Terms before a seam -/

/-- The term at the front does not depend on what follows a blank, if no quotation can close
behind it. -/
theorem lexeme_append {c : Char} (hquote : '"' ∉ c :: left ∨ '"' ∉ tail)
    (htail : ∀ d ∈ tail.head?, Text.isAsciiBlank d = true) :
    lexeme c (left ++ tail) = ((lexeme c left).1, (lexeme c left).2 ++ tail) := by
  rcases hquote with hquote | hquote
  · rw [lexeme_of_unquoted hquote htail, lexeme_of_unquoted_alone hquote]
  · have hkeyed : keyedQuotation? (c :: left ++ tail) =
        (keyedQuotation? (c :: left)).map fun found => (found.1, found.2 ++ tail) :=
      read_append (fun _ _ => keyedQuotation?_eq_some) (fun _ => IsKeyedQuotation.getLast?_eq) hquote
    have hbare : bareQuotation? (c :: left ++ tail) =
        (bareQuotation? (c :: left)).map fun found => (found.1, found.2 ++ tail) :=
      read_append (fun _ _ => bareQuotation?_eq_some) (fun _ => IsQuotation.getLast?_eq) hquote
    rw [List.cons_append] at hkeyed hbare
    have hstop : ∀ d ∈ tail.head?, isRunChar d = false := by
      intro d hd
      simp [isRunChar, htail d hd]
    unfold lexeme
    rw [hkeyed, hbare]
    cases keyedQuotation? (c :: left) with
    | some found => rfl
    | none =>
        cases bareQuotation? (c :: left) with
        | some found => rfl
        | none =>
            simp only [Option.map_none, Text.takeWhile_append_of_stop hstop,
              Text.dropWhile_append_of_stop hstop]

/-- The terms before a blank and those behind it, if no quotation can span the blank. -/
theorem lexemes_append (hquote : '"' ∉ left ∨ '"' ∉ tail)
    (htail : ∀ d ∈ tail.head?, Text.isAsciiBlank d = true) :
    lexemes (left ++ tail) = lexemes left ++ lexemes tail := by
  fun_induction lexemes left with
  | case1 left hnil =>
      exact lexemes_blanks_append (fun c hc => List.dropWhile_eq_nil_iff.mp hnil c hc) tail
  | case2 left c rest hcons ih =>
      have hblank : Text.isAsciiBlank c = false := by
        have hhead := List.head?_dropWhile_not Text.isAsciiBlank left
        rw [hcons] at hhead
        simpa using hhead
      have hsplit : left = left.takeWhile Text.isAsciiBlank ++ c :: rest := by
        rw [← hcons, List.takeWhile_append_dropWhile]
      have hfront : '"' ∉ c :: rest ∨ '"' ∉ tail :=
        hquote.imp_left fun hleft hmem => hleft (hsplit ▸ List.mem_append_right _ hmem)
      obtain ⟨term, -, hrest, -, -⟩ := lexeme_ends hblank rest
      have hbehind : '"' ∉ (lexeme c rest).2 ∨ '"' ∉ tail :=
        hfront.imp_left fun hleft hmem =>
          hleft (List.mem_cons_of_mem c (hrest ▸ List.mem_append_right term hmem))
      rw [hsplit, List.append_assoc,
        lexemes_blanks_append (fun d hd => List.mem_takeWhile_imp hd), List.cons_append,
        lexemes_cons_of_not_blank _ hblank, lexeme_append hfront htail, ih hbehind,
        List.cons_append]

/-- A blank between two texts separates their terms, if one of them has no quotes. -/
theorem scan_append {left right : String} (hquote : '"' ∉ left.toList ∨ '"' ∉ right.toList) :
    scan (left ++ " " ++ right) = scan left ++ scan right := by
  have hblank : Text.isAsciiBlank ' ' = true := by decide
  have hquote' : '"' ∉ left.toList ∨ '"' ∉ ' ' :: right.toList := by
    simpa using hquote
  have hsplit : lexemes (left.toList ++ ' ' :: right.toList) =
      lexemes left.toList ++ lexemes (' ' :: right.toList) :=
    lexemes_append hquote' (by simp [hblank])
  rw [lexemes_cons_of_blank _ hblank] at hsplit
  simp [scan, hsplit]

end Term

/-! ## What two queries ask for -/

namespace Criteria

theorem ofTerms_append (first second : List Term) :
    (ofTerms (first ++ second)).entries = (ofTerms first).entries ++ (ofTerms second).entries := by
  simp [ofTerms]

theorem entries_append {left right : String} (hquote : '"' ∉ left.toList ∨ '"' ∉ right.toList) :
    (ofQuery (left ++ " " ++ right)).entries = (ofQuery left).entries ++ (ofQuery right).entries := by
  rw [ofQuery, Term.scan_append hquote, ofTerms_append]
  rfl

/-- Two queries with a blank between them give a field their values one after the other. -/
theorem values_append {left right : String} (hquote : '"' ∉ left.toList ∨ '"' ∉ right.toList)
    (field : Field) :
    (ofQuery (left ++ " " ++ right)).values field =
      (ofQuery left).values field ++ (ofQuery right).values field := by
  simp only [values, entries_append hquote, List.filter_append, List.map_append]

end Criteria

/-- Two texts, at most one of them with quotes, do not interact across a blank: their terms
follow one another, and so do the values they give to any field. -/
theorem blank_separates_queries {left right : String}
    (hquote : ¬ ('"' ∈ left.toList ∧ '"' ∈ right.toList)) :
    Term.scan (left ++ " " ++ right) = Term.scan left ++ Term.scan right ∧
      ∀ field, (Criteria.ofQuery (left ++ " " ++ right)).values field =
        (Criteria.ofQuery left).values field ++ (Criteria.ofQuery right).values field := by
  have hone : '"' ∉ left.toList ∨ '"' ∉ right.toList := not_and_or.mp hquote
  exact ⟨Term.scan_append hone, Criteria.values_append hone⟩

/-- Before the blank a quotation and one that is left open, behind it a key without a value. -/
theorem blank_separates_queries_open :
    Term.scan ("title:\"x y\" tag:\"big" ++ " " ++ "cat:") =
      Term.scan "title:\"x y\" tag:\"big" ++ Term.scan "cat:" ∧
    (Criteria.ofQuery ("title:\"x y\" tag:\"big" ++ " " ++ "cat:")).values (.facet .tag) =
      ["big"] := by
  have hquote : ¬ ('"' ∈ "title:\"x y\" tag:\"big".toList ∧ '"' ∈ "cat:".toList) := by decide
  obtain ⟨hscan, hvalues⟩ := blank_separates_queries hquote
  refine ⟨hscan, ?_⟩
  rw [hvalues]
  cbv

end ComicCatalog
