import ComicCatalog.Proofs.Catalog.Identifiers

/-! # One identifier for all spellings of a number

However a whole number of 64 bits is typed, it is the identifier that a store gives it, and nothing
else is. Larger ones stay as they are typed, and so does every other text. Reading an identifier
once more changes nothing, and numbers are read as they are shown.
-/

namespace ComicCatalog.Ident

variable {text : String}

theorem spells_iff {n : Int} : Spells text n ↔ IsSpelling text n ∧ Word.isSigned n = true := by
  rw [Spells, integer?_eq_some_iff, isSpelling_iff]

/-- A text spells one number only. -/
theorem IsSpelling.unique {m n : Int} (hm : IsSpelling text m) (hn : IsSpelling text n) : m = n :=
  (isSpelling_iff.mp hm).unique (isSpelling_iff.mp hn)

theorem ofText_of_isSpelling {n : Int} (hspelling : IsSpelling text n)
    (hword : Word.isSigned n = true) : ofText text = ⟨toString n⟩ :=
  Database.ofText_of_spells (spells_iff.mpr ⟨hspelling, hword⟩)

theorem isSpelling_toString (n : Int) : IsSpelling (toString n) n :=
  ⟨[], (toString n).toList, [], by simp, List.forall_mem_nil _, List.forall_mem_nil _,
    isNumeral_toString n⟩

/-- Blanks around a text do not matter to what it spells. -/
theorem isSpelling_trim {n : Int} : IsSpelling (Text.trim text) n ↔ IsSpelling text n := by
  rw [isSpelling_iff, isSpelling_iff, Text.trim, String.toList_ofList, Text.strip_strip]

/-- An identifier is the shortest spelling of a number of 64 bits, or a text without the blanks
around it. -/
theorem ofText_cases (text : String) :
    (∃ n, IsSpelling text n ∧ Word.isSigned n = true ∧ ofText text = ⟨toString n⟩) ∨
      (∀ n, IsSpelling text n → Word.isSigned n = false) ∧ ofText text = ⟨Text.trim text⟩ := by
  by_cases hspells : ∃ n, Spells text n
  · obtain ⟨n, hn⟩ := hspells
    obtain ⟨hspelling, hword⟩ := spells_iff.mp hn
    exact Or.inl ⟨n, hspelling, hword, Database.ofText_of_spells hn⟩
  · rw [not_exists] at hspells
    refine Or.inr ⟨fun n hn => ?_, ofText_of_not_spells hspells⟩
    rw [← Bool.not_eq_true]
    exact fun hword => hspells n (spells_iff.mpr ⟨hn, hword⟩)

/-- Reading an identifier does not change which number it spells. -/
theorem isSpelling_ofText {n : Int} : IsSpelling (ofText text).text n ↔ IsSpelling text n := by
  rcases ofText_cases text with ⟨m, hm, -, htext⟩ | ⟨-, htext⟩
  · rw [htext]
    constructor
    · intro hn
      rwa [hn.unique (isSpelling_toString m)]
    · intro hn
      rw [hn.unique hm]
      exact isSpelling_toString m
  · rw [htext]
    exact isSpelling_trim

/-- The identifier of a number of 64 bits is that of its spellings and of no other text. -/
theorem ofText_eq_toString_iff {n : Int} (hword : Word.isSigned n = true) :
    ofText text = ⟨toString n⟩ ↔ IsSpelling text n := by
  constructor
  · intro hread
    rw [← isSpelling_ofText, hread]
    exact isSpelling_toString n
  · exact fun hspelling => ofText_of_isSpelling hspelling hword

theorem ofText_ofText (text : String) : ofText (ofText text).text = ofText text := by
  rcases ofText_cases text with ⟨n, -, hword, htext⟩ | ⟨hnone, htext⟩
  · rw [htext]
    exact ofText_of_isSpelling (isSpelling_toString n) hword
  · rw [htext]
    rcases ofText_cases (Text.trim text) with ⟨n, hn, hword, -⟩ | ⟨-, htrim⟩
    · rw [hnone n (isSpelling_trim.mp hn)] at hword
      cases hword
    · rw [htrim, Text.trim, Text.trim, String.toList_ofList, Text.strip_strip]

theorem ofText_number {n : JsonNumber} (hfinite : n.IsFinite) : ofText n.text = ⟨n.text⟩ := by
  have htrim : Text.trim n.text = n.text := by
    rw [Text.trim, JsonNumber.strip_text hfinite, String.ofList_toList]
  have hread := (@ofText_fold_eq_iff ⟨n.text⟩ htrim).mpr (JsonNumber.isCanonical_text hfinite)
  rwa [JsonNumber.fold_text hfinite] at hread

/-- A typed identifier is the stored number `n` exactly if it is a spelling of `n`, with any sign
that fits, any number of zeros and blanks around it. Spellings of different numbers, of whatever
length, are different identifiers; those of one number of 64 bits are one, and those of a larger
number stay as they are typed between the blanks. Identifiers are read as themselves, and so are
the texts of numbers. -/
theorem ofText_canonical :
    (∀ n text, Word.isSigned n = true →
      (some (ofText text) = ofJson? (.ofInt n) ↔ IsSpelling text n)) ∧
    (∀ m n first second, IsSpelling first m → IsSpelling second n →
      (ofText first = ofText second → m = n) ∧
      (Word.isSigned m = true → m = n → ofText first = ofText second)) ∧
    (∀ n text, Word.isSigned n = false → IsSpelling text n → ofText text = ⟨Text.trim text⟩) ∧
    (∀ text, ofText (ofText text).text = ofText text) ∧
    ∀ n : JsonNumber, n.IsFinite → some (ofText n.text) = ofJson? (.number n) := by
  refine ⟨?_, ?_, ?_, ofText_ofText, ?_⟩
  · intro n text hword
    rw [← ofText_eq_toString_iff hword]
    exact Option.some_inj
  · intro m n first second hfirst hsecond
    constructor
    · intro hsame
      rw [← isSpelling_ofText, hsame, isSpelling_ofText] at hfirst
      exact hfirst.unique hsecond
    · rintro hword rfl
      rw [ofText_of_isSpelling hfirst hword, ofText_of_isSpelling hsecond hword]
  · intro n text hlarge hspelling
    rcases ofText_cases text with ⟨m, hm, hword, -⟩ | ⟨-, htext⟩
    · rw [hm.unique hspelling, hlarge] at hword
      cases hword
    · exact htext
  · intro n hfinite
    rw [ofText_number hfinite]
    rfl

/-- The largest number of 64 bits has one identifier, and the next one keeps its zero. -/
example : ofText " +09223372036854775807\u3000" = ⟨"9223372036854775807"⟩ ∧
    ofText " +09223372036854775808\u3000" = ⟨"+09223372036854775808"⟩ := by
  decide

end ComicCatalog.Ident
