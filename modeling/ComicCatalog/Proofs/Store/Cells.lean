import ComicCatalog.Proofs.Number.ReadBack
import ComicCatalog.Proofs.Text.Bytes
import ComicCatalog.Proofs.Text.Runs
import ComicCatalog.Store.Table
import ComicCatalog.Work.Ident

/-! # Cells and the identifiers they show

A cell is shown as JSON, a JSON number or text is an identifier, and the identifier
is handed back to the database as a text. Of all the cells that a column of whole
numbers holds, only the whole number itself comes back as a row number.
-/

namespace ComicCatalog

namespace Cell

/-! ## The characters of number literals -/

/-- The characters that number literals are made of. -/
def isLiteralChar (c : Char) : Bool :=
  c.isDigit || c == '+' || c == '-' || c == '.' || c == 'e' || c == 'E'

theorem isLiteralChar_of_isDigit {c : Char} (hdigit : c.isDigit = true) : isLiteralChar c = true := by
  simp [isLiteralChar, hdigit]

theorem isLiteralChar_of_cons {first : Char} {rest : List Char} (hfirst : isLiteralChar first = true)
    (hrest : ∀ c ∈ rest, isLiteralChar c = true) : ∀ c ∈ first :: rest, isLiteralChar c = true := by
  intro c hc
  rcases List.mem_cons.mp hc with rfl | hc
  · exact hfirst
  · exact hrest c hc

/-- Digits up to the end. -/
theorem isLiteralChar_of_digits {cs : List Char} (hend : cs.dropWhile Char.isDigit = []) :
    ∀ c ∈ cs, isLiteralChar c = true := fun c hc =>
  isLiteralChar_of_isDigit (List.dropWhile_eq_nil_iff.mp hend c hc)

/-- Digits, and then characters of literals. -/
theorem isLiteralChar_behind_digits {cs : List Char}
    (hrest : ∀ c ∈ cs.dropWhile Char.isDigit, isLiteralChar c = true) :
    ∀ c ∈ cs, isLiteralChar c = true := by
  intro c hc
  rw [← List.takeWhile_append_dropWhile (p := Char.isDigit) (l := cs)] at hc
  rcases List.mem_append.mp hc with hc | hc
  · exact isLiteralChar_of_isDigit (List.mem_takeWhile_imp hc)
  · exact hrest c hc

theorem exponent?_chars {cs : List Char} {power : Option Int}
    (hread : Json.exponent? cs = some (power, [])) : ∀ c ∈ cs, isLiteralChar c = true := by
  cases cs with
  | nil => simp
  | cons first rest =>
      simp only [Json.exponent?] at hread
      split at hread
      next hfirst =>
        have hletter : isLiteralChar first = true := by
          rcases hfirst with rfl | rfl <;> decide
        apply isLiteralChar_of_cons hletter
        have hdigits : ∀ (negative : Bool) (digits : List Char),
            (if (digits.takeWhile Char.isDigit).isEmpty then none
              else
                some (some (if negative then
                    -min (Text.digitsValue (digits.takeWhile Char.isDigit) : Int) 100000
                  else min (Text.digitsValue (digits.takeWhile Char.isDigit) : Int) 100000),
                  digits.dropWhile Char.isDigit)) = some (power, []) →
              ∀ c ∈ digits, isLiteralChar c = true := by
          intro negative digits hdigits
          split at hdigits
          next => cases hdigits
          next => exact isLiteralChar_of_digits (congrArg Prod.snd (Option.some.inj hdigits))
        split at hread
        next digits => exact isLiteralChar_of_cons (by decide) (hdigits true digits hread)
        next digits => exact isLiteralChar_of_cons (by decide) (hdigits false digits hread)
        next => exact hdigits false _ hread
      next => cases hread

theorem magnitudeLiteral?_chars {negative : Bool} {cs : List Char} {cell : Cell}
    (hread : magnitudeLiteral? negative cs = some cell) : ∀ c ∈ cs, isLiteralChar c = true := by
  apply isLiteralChar_behind_digits
  unfold magnitudeLiteral? at hread
  dsimp only at hread
  split at hread
  next behind hpoint =>
    rw [hpoint]
    refine isLiteralChar_of_cons (by decide) (isLiteralChar_behind_digits ?_)
    split at hread
    next => cases hread
    next =>
      split at hread
      next hpower => exact exponent?_chars hpower
      next => cases hread
  next =>
    split at hread
    next => cases hread
    next =>
      split at hread
      next hpower => exact exponent?_chars hpower
      next => cases hread

theorem literal?_chars {cs : List Char} {cell : Cell} (hread : literal? cs = some cell) :
    ∀ c ∈ cs, isLiteralChar c = true := by
  obtain ⟨negative, rest, hmagnitude, hsign⟩ := exists_magnitudeLiteral? hread
  have hrest := magnitudeLiteral?_chars hmagnitude
  rcases hsign with rfl | rfl | rfl
  · exact hrest
  · exact isLiteralChar_of_cons (by decide) hrest
  · exact isLiteralChar_of_cons (by decide) hrest

theorem ascii_of_isLiteralChar {c : Char} (hchar : isLiteralChar c = true) : c.toNat < 128 := by
  simp only [isLiteralChar, Bool.or_eq_true, beq_iff_eq] at hchar
  rcases hchar with ((((hdigit | rfl) | rfl) | rfl) | rfl) | rfl
  · have hle : c.toNat ≤ 57 := (Char.isDigit_iff_toNat.mp hdigit).2
    omega
  all_goals decide

theorem not_blank_of_isLiteralChar {c : Char} (hchar : isLiteralChar c = true) :
    Text.isAsciiBlank c = false := by
  simp only [isLiteralChar, Bool.or_eq_true, beq_iff_eq] at hchar
  rcases hchar with ((((hdigit | rfl) | rfl) | rfl) | rfl) | rfl
  · have hle : 48 ≤ c.toNat := (Char.isDigit_iff_toNat.mp hdigit).1
    simp only [Text.isAsciiBlank, Bool.or_eq_false_iff, Bool.and_eq_false_iff,
      decide_eq_false_iff_not, beq_eq_false_iff_ne]
    omega
  all_goals decide

/-! ## Numbers of texts -/

/-- A text that is a number literal is the number of its bytes. -/
theorem number?_ofText {s : String} {cell : Cell} (hread : literal? s.toList = some cell) :
    number? (Bytes.ofText s) = some cell := by
  have hchars := literal?_chars hread
  have hbytes : (Bytes.ofText s).map (fun byte => Char.ofNat byte.toNat) = s.toList := by
    have hmap := Bytes.map_ofText_of_ascii fun c hc => ascii_of_isLiteralChar (hchars c hc)
    rwa [String.ofList_toList] at hmap
  unfold number?
  rw [hbytes, Text.strip_eq_self fun c hc => not_blank_of_isLiteralChar (hchars c hc)]
  exact hread

/-- Bytes of which any is beyond ASCII are no number. -/
theorem ascii_of_number? {bytes : Bytes} {cell : Cell} (hread : number? bytes = some cell) :
    ∀ byte ∈ bytes, byte.toNat < 128 := by
  intro byte hbyte
  have hvalid : byte.toNat.isValidChar := Or.inl (by have := byte.toNat_lt; omega)
  rw [← Bytes.toNat_ofNat_of_isValidChar hvalid]
  have hmem : Char.ofNat byte.toNat ∈ bytes.map fun byte => Char.ofNat byte.toNat :=
    List.mem_map_of_mem hbyte
  rcases Text.mem_strip_or Text.isAsciiBlank hmem with hblank | hkept
  · unfold Text.isAsciiBlank at hblank
    simp only [Bool.or_eq_true, Bool.and_eq_true, decide_eq_true_eq, beq_iff_eq] at hblank
    omega
  · exact ascii_of_isLiteralChar (literal?_chars hread _ hkept)

/-- Bytes that are shown as a number are that number. -/
theorem number?_of_shown {bytes : Bytes} {cell : Cell}
    (hread : number? (Bytes.ofText (Bytes.text bytes)) = some cell) : number? bytes = some cell := by
  rwa [Bytes.ofText_text_of_ascii (ascii_of_number? hread)] at hread

theorem magnitudeLiteral?_cases {negative : Bool} {cs : List Char} {cell : Cell}
    (hread : magnitudeLiteral? negative cs = some cell) :
    (∃ n, cell = .integer n ∧ Word.isSigned n = true) ∨
      ∃ digits exponent, cell = .real (Binary64.ofDecimal negative digits exponent) := by
  unfold magnitudeLiteral? at hread
  dsimp only at hread
  generalize (if negative = true then (-1 : Int) else 1) *
    (Text.digitsValue (cs.takeWhile Char.isDigit) : Int) = value at hread
  split at hread
  all_goals
    split at hread
    · cases hread
    · split at hread
      · split at hread
        next hword =>
          cases hread
          rw [Bool.and_eq_true] at hword
          exact Or.inl ⟨value, rfl, hword.2⟩
        next =>
          cases hread
          exact Or.inr ⟨_, _, rfl⟩
      · cases hread

/-- What a literal reads as is a whole number of 64 bits, or the nearest floating-point
number. -/
theorem number?_cases {bytes : Bytes} {cell : Cell} (hread : number? bytes = some cell) :
    (∃ n, cell = .integer n ∧ Word.isSigned n = true) ∨
      ∃ negative digits exponent, cell = .real (Binary64.ofDecimal negative digits exponent) := by
  obtain ⟨negative, rest, hmagnitude, -⟩ := exists_magnitudeLiteral? hread
  exact (magnitudeLiteral?_cases hmagnitude).imp_right fun hreal => ⟨negative, hreal⟩

/-- What a literal reads as is a number. -/
theorem number?_isNumber {bytes : Bytes} {cell : Cell} (hread : number? bytes = some cell) :
    (∃ n, cell = .integer n ∧ Word.isSigned n = true) ∨ ∃ x, cell = .real x := by
  rcases number?_cases hread with hinteger | ⟨negative, digits, exponent, rfl⟩
  · exact Or.inl hinteger
  · exact Or.inr ⟨_, rfl⟩

theorem operand_toString {n : Int} (hword : Word.isSigned n = true) :
    operand .integer (toString n) = .integer n := by
  simp only [operand, number?_ofText (literal?_toString hword), Option.getD_some]

/-- A whole number that a word holds is read back as a row number. -/
theorem rowNumber?_toString {n : Int} (hword : Word.isSigned n = true) :
    rowNumber? (toString n) = some n := by
  rw [rowNumber?, operand_toString hword]
  rfl

/-! ## Cells as columns hold them -/

/-- The cell is one that a column of the affinity holds: the column leaves it as it
is, and a whole number fits a word. -/
structure IsHeld (affinity : Affinity) (cell : Cell) : Prop where
  stored_eq : stored affinity cell = cell
  isSigned : ∀ n, cell = .integer n → Word.isSigned n = true

theorem settle_real (x : Binary64) :
    (∃ n, (real x).settle = .integer n ∧ Word.isSigned n = true) ∨ (real x).settle = .real x := by
  unfold settle
  dsimp only
  split
  next n hn =>
    split
    next hbounds =>
      simp only [Word.minSigned, Word.maxSigned] at hbounds
      exact Or.inl ⟨n, rfl, Word.isSigned_iff.mpr ⟨hbounds.1.le, hbounds.2.le⟩⟩
    next => exact Or.inr rfl
  next => exact Or.inr rfl

/-- What a column makes of a value of 64 bits is held by the column. -/
theorem isHeld_settle {cell : Cell}
    (hnumber : (∃ n, cell = .integer n ∧ Word.isSigned n = true) ∨ ∃ x, cell = .real x) :
    IsHeld .integer cell.settle := by
  have hinteger : ∀ n, Word.isSigned n = true → IsHeld .integer (.integer n) := by
    intro n hword
    refine ⟨rfl, ?_⟩
    rintro m ⟨⟩
    exact hword
  rcases hnumber with ⟨n, rfl, hword⟩ | ⟨x, rfl⟩
  · exact hinteger n hword
  · rcases settle_real x with ⟨n, hn, hword⟩ | hreal
    · rw [hn]
      exact hinteger n hword
    · rw [hreal]
      refine ⟨hreal, ?_⟩
      rintro m ⟨⟩

theorem isHeld_stored {cell : Cell} (affinity : Affinity)
    (hword : ∀ n, cell = .integer n → Word.isSigned n = true) :
    IsHeld affinity (stored affinity cell) := by
  cases affinity with
  | integer =>
      cases cell with
      | integer n => exact isHeld_settle (Or.inl ⟨n, rfl, hword n rfl⟩)
      | real x => exact isHeld_settle (Or.inr ⟨x, rfl⟩)
      | text bytes =>
          cases hnumber : number? bytes with
          | some number =>
              have hstored : stored .integer (.text bytes) = number.settle := by
                simp only [stored, hnumber]
              rw [hstored]
              exact isHeld_settle (number?_isNumber hnumber)
          | none =>
              have hstored : stored .integer (.text bytes) = .text bytes := by
                simp only [stored, hnumber]
              rw [hstored]
              exact ⟨hstored, by rintro n ⟨⟩⟩
      | null => exact ⟨rfl, by rintro n ⟨⟩⟩
      | blob bytes => exact ⟨rfl, by rintro n ⟨⟩⟩
  | text => cases cell <;> exact ⟨rfl, by rintro n ⟨⟩⟩

/-- A column of texts holds no numbers. -/
theorem IsHeld.text_cases {cell : Cell} (hheld : IsHeld .text cell) :
    cell = .null ∨ (∃ bytes, cell = .text bytes) ∨ ∃ bytes, cell = .blob bytes := by
  cases cell with
  | null => exact Or.inl rfl
  | text bytes => exact Or.inr (Or.inl ⟨bytes, rfl⟩)
  | blob bytes => exact Or.inr (Or.inr ⟨bytes, rfl⟩)
  | integer n => cases hheld.stored_eq
  | real x => cases hheld.stored_eq

/-! ## Identifiers of cells -/

/-- A column of whole numbers holds no text that reads as a number: it would have been
converted. -/
theorem IsHeld.number?_eq_none {bytes : Bytes} (hheld : IsHeld .integer (.text bytes)) :
    number? (Bytes.ofText (Bytes.text bytes)) = none := by
  by_contra hsome
  obtain ⟨number, hnumber⟩ := Option.ne_none_iff_exists'.mp hsome
  have hread := number?_of_shown hnumber
  have hstored : stored .integer (.text bytes) = number.settle := by
    simp only [stored, hread]
  have hsettled : number.settle = .text bytes := hstored.symm.trans hheld.stored_eq
  rcases number?_isNumber hread with ⟨m, rfl, -⟩ | ⟨x, rfl⟩
  · cases hsettled
  · rcases settle_real x with ⟨m, hm, -⟩ | hreal
    · cases hm.symm.trans hsettled
    · cases hreal.symm.trans hsettled

/-- Only a whole number is shown as an identifier that comes back as a row number. -/
theorem IsHeld.eq_of_rowNumber? {cell : Cell} {ident : Ident} {n : Int}
    (hheld : IsHeld .integer cell) (hshown : Ident.ofJson? cell.toJson = some ident)
    (hrow : rowNumber? ident.text = some n) : cell = .integer n ∧ ident = ⟨toString n⟩ := by
  cases cell with
  | null => cases hshown
  | blob bytes => cases hshown
  | integer m =>
      cases hshown
      have hsame := hrow.symm.trans (rowNumber?_toString (hheld.isSigned m rfl))
      cases hsame
      exact ⟨rfl, rfl⟩
  | real x =>
      -- The number is written so that it reads as itself, and it settles to no whole number.
      exfalso
      have hsettled : (real x).settle = .real x := hheld.stored_eq
      cases hfinite : x.isFinite with
      | false => simp [toJson, hfinite, Ident.ofJson?] at hshown
      | true =>
          simp only [toJson, hfinite, if_true, Ident.ofJson?, Option.some.injEq] at hshown
          subst hshown
          have hoperand : operand .integer x.jsonText = .real x := by
            simp only [operand, number?_ofText (literal?_jsonText hfinite), Option.getD_some]
          simp only [rowNumber?, JsonNumber.text, hoperand, hsettled] at hrow
          cases hrow
  | text bytes =>
      exfalso
      cases hshown
      simp only [rowNumber?, operand, hheld.number?_eq_none, Option.getD_none] at hrow
      cases hrow

/-- What equals a whole number in the database is that number or a floating-point
number. -/
theorem eq_or_real_of_equals {cell : Cell} {n : Int} (hequals : cell.equals (.integer n) = true) :
    cell = .integer n ∨ ∃ x, cell = .real x := by
  cases cell with
  | integer m =>
      left
      simp only [equals, order, Bool.and_eq_true, beq_iff_eq, compare_eq_iff_eq] at hequals
      rw [hequals.2]
  | real x => exact Or.inr ⟨x, rfl⟩
  | null => cases hequals
  | text bytes => cases hequals
  | blob bytes => cases hequals

theorem equals_integer {m n : Int} : (integer m).equals (.integer n) = true ↔ m = n := by
  simp [equals, order]

end Cell

end ComicCatalog
