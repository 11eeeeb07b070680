import ComicCatalog.Proofs.Number.Literals
import ComicCatalog.Store.Cell

/-! # Written numbers read back

The database reads the JSON text of a finite number as the very same number, and the text of a
whole number as that number. No digit of such a text is passed over: it has few of them.
-/

namespace ComicCatalog

namespace Cell

/-! ## Digits that are read -/

theorem digitsValue_concat (digits : List Char) (c : Char) :
    Text.digitsValue (digits ++ [c]) = Text.digitsValue digits * 10 + (c.toNat - 48) := by
  simp only [Text.digitsValue, Text.ofDigits, List.map_append, List.map_singleton,
    List.foldl_append, List.foldl_cons, List.foldl_nil]

/-- Digits are read to their last one while the significand has room for it. -/
theorem leadingDigits_of_lt {digits : List Char}
    (hlt : Text.digitsValue digits / 10 < fullSignificand) :
    leadingDigits digits = ⟨Text.digitsValue digits, 0⟩ := by
  induction digits using List.reverseRecOn with
  | nil => rfl
  | append_singleton digits c ih =>
      -- The last digit is read if the others leave room for it, whatever it adds.
      rw [digitsValue_concat] at hlt
      have hroom : Text.digitsValue digits < fullSignificand := by omega
      have hread := ih (by omega)
      rw [leadingDigits] at hread ⊢
      rw [List.foldl_concat, hread, digitsValue_concat, addDigit, if_pos hroom]

theorem realOf_of_lt (negative : Bool) {digits : List Char} (exponent : Int)
    (hlt : Text.digitsValue digits / 10 < fullSignificand) :
    realOf negative digits exponent =
      Binary64.ofDecimal negative (Text.digitsValue digits) exponent := by
  rw [realOf, leadingDigits_of_lt hlt, zero_add]

/-! ## Literals that are read -/

theorem literal?_of_minus (cs : List Char) : literal? ('-' :: cs) = magnitudeLiteral? true cs := rfl

theorem literal?_of_plus (cs : List Char) : literal? ('+' :: cs) = magnitudeLiteral? false cs := rfl

theorem literal?_of_unsigned {cs : List Char} (hminus : cs.head? ≠ some '-')
    (hplus : cs.head? ≠ some '+') : literal? cs = magnitudeLiteral? false cs := by
  unfold literal?
  split
  · simp at hminus
  · simp at hplus
  · rfl

/-- What a literal reads as is read from its part behind a sign. -/
theorem exists_magnitudeLiteral? {cs : List Char} {cell : Cell} (hread : literal? cs = some cell) :
    ∃ negative rest, magnitudeLiteral? negative rest = some cell ∧
      (cs = rest ∨ cs = '-' :: rest ∨ cs = '+' :: rest) := by
  by_cases hminus : cs.head? = some '-'
  · obtain ⟨rest, rfl⟩ := List.head?_eq_some_iff.mp hminus
    rw [literal?_of_minus] at hread
    exact ⟨true, rest, hread, Or.inr (Or.inl rfl)⟩
  · by_cases hplus : cs.head? = some '+'
    · obtain ⟨rest, rfl⟩ := List.head?_eq_some_iff.mp hplus
      rw [literal?_of_plus] at hread
      exact ⟨false, rest, hread, Or.inr (Or.inr rfl)⟩
    · rw [literal?_of_unsigned hminus hplus] at hread
      exact ⟨false, cs, hread, Or.inl rfl⟩

/-- A literal with its sign spelled only where it is negative. -/
theorem literal?_signed (negative : Bool) {cs : List Char} (hminus : cs.head? ≠ some '-')
    (hplus : cs.head? ≠ some '+') :
    literal? ((if negative then ['-'] else []) ++ cs) = magnitudeLiteral? negative cs := by
  cases negative with
  | true => exact literal?_of_minus cs
  | false => exact literal?_of_unsigned hminus hplus

variable {negative : Bool} {whole behind tail : List Char} {power : Option Int}

/-- Digits, a point and digits make a floating-point number. -/
theorem magnitudeLiteral?_pointed (negative : Bool) (hwhole : ∀ c ∈ whole, c.isDigit = true) (hne : whole ≠ [])
    (hbehind : ∀ c ∈ behind, c.isDigit = true) (hstop : ∀ c ∈ tail.head?, c.isDigit = false)
    (htail : Json.exponent? tail = some (power, [])) :
    magnitudeLiteral? negative (whole ++ '.' :: (behind ++ tail)) =
      some (.real (realOf negative (whole ++ behind) (power.getD 0 - behind.length))) := by
  have hpoint : ∀ c ∈ ('.' :: (behind ++ tail)).head?, c.isDigit = false := by
    intro c hc
    cases hc
    rfl
  unfold magnitudeLiteral?
  rw [Text.takeWhile_run hwhole hpoint, Text.dropWhile_run hwhole hpoint]
  simp only [Text.takeWhile_run hbehind hstop, Text.dropWhile_run hbehind hstop, htail]
  simp [hne]

/-- Digits and an exponent make a floating-point number too. -/
theorem magnitudeLiteral?_exponent (negative : Bool) {exponent : Int} (hwhole : ∀ c ∈ whole, c.isDigit = true)
    (hne : whole ≠ []) (hstop : ∀ c ∈ tail.head?, c.isDigit = false ∧ c ≠ '.')
    (htail : Json.exponent? tail = some (some exponent, [])) :
    magnitudeLiteral? negative (whole ++ tail) =
      some (.real (realOf negative whole exponent)) := by
  have hstop' : ∀ c ∈ tail.head?, c.isDigit = false := fun c hc => (hstop c hc).1
  unfold magnitudeLiteral?
  rw [Text.takeWhile_run hwhole hstop', Text.dropWhile_run hwhole hstop']
  cases tail with
  | nil => simp [Json.exponent?] at htail
  | cons c rest =>
      have hpoint : c ≠ '.' := (hstop c rfl).2
      simp [hne, hpoint, htail]

/-- The literal of a floating-point number with few digits is read as the nearest one. -/
theorem magnitudeLiteral?_chars_of_isReal (negative : Bool) {literal : NumberLiteral}
    (hreal : literal.IsReal) (hmost : literal.decimal.digits ≤ 10 ^ 18) :
    magnitudeLiteral? negative literal.chars =
      some (.real (Binary64.ofDecimal negative literal.decimal.digits literal.decimal.exponent)) := by
  have hroom : literal.decimal.digits / 10 < fullSignificand := by
    unfold fullSignificand
    omega
  rw [NumberLiteral.decimal, ← realOf_of_lt negative _ hroom]
  have hend : ∀ c ∈ ([] : List Char).head?, c.isDigit = false ∧ c ≠ 'e' ∧ c ≠ 'E' := by rintro c ⟨⟩
  have htail := NumberLiteral.exponent?_powerChars hreal.power hend
  rw [List.append_nil] at htail
  have hstop : ∀ c ∈ (NumberLiteral.powerChars literal.power).head?, c.isDigit = false ∧ c ≠ '.' := by
    cases literal.power <;> simp [NumberLiteral.powerChars]
  by_cases hbehind : literal.behind = []
  · obtain ⟨power, hpower⟩ := Option.ne_none_iff_exists'.mp
      (hreal.marked.resolve_left (not_not_intro hbehind))
    rw [hpower] at htail hstop
    have hread := magnitudeLiteral?_exponent negative hreal.whole hreal.nonempty hstop htail
    simpa [NumberLiteral.chars, NumberLiteral.pointChars, hbehind, hpower] using hread
  · have hread := magnitudeLiteral?_pointed negative hreal.whole hreal.nonempty hreal.behind
      (fun c hc => (hstop c hc).1) htail
    simpa [NumberLiteral.chars, NumberLiteral.pointChars, hbehind] using hread

/-- Digits alone make a whole number if a word holds it, else the nearest floating-point
number. -/
theorem magnitudeLiteral?_digits {value : Int} (hwhole : ∀ c ∈ whole, c.isDigit = true)
    (hne : whole ≠ []) (hvalue : (if negative then -1 else 1) * (Text.digitsValue whole : Int) = value) :
    magnitudeLiteral? negative whole =
      some (if Word.isSigned value then .integer value
        else .real (realOf negative whole 0)) := by
  have htake : whole.takeWhile Char.isDigit = whole := List.takeWhile_eq_self_iff.mpr hwhole
  have hdrop : whole.dropWhile Char.isDigit = [] := List.dropWhile_eq_nil_iff.mpr hwhole
  have hexponent : Json.exponent? [] = some (none, []) := rfl
  unfold magnitudeLiteral?
  rw [htake, hdrop]
  simp only [hexponent, hvalue]
  cases Word.isSigned value <;> simp [hne]

/-- The JSON text of a finite number is a literal of the number itself. -/
theorem literal?_jsonText {x : Binary64} (hfinite : x.isFinite = true) :
    literal? x.jsonText.toList = some (.real x) := by
  obtain ⟨literal, hreal, hchars, hmost, hvalue⟩ := Binary64.exists_literal_jsonText hfinite
  rw [hchars, literal?_signed, magnitudeLiteral?_chars_of_isReal x.negative hreal hmost, hvalue]
  · intro hminus
    cases hreal.head _ hminus
  · intro hplus
    cases hreal.head _ hplus

/-- A whole number is written as digits behind its sign. -/
theorem toList_toString (n : Int) :
    (toString n).toList = (if (n < 0 : Bool) then ['-'] else []) ++ Nat.toDigits 10 n.natAbs := by
  rw [Int.toString_eq_repr, Int.repr_eq_if]
  by_cases hneg : n < 0
  · have hnat : (-n).toNat = n.natAbs := by omega
    simp [hneg, hnat, Nat.repr_eq_ofList_toDigits, not_le.mpr hneg]
  · have hnat : n.toNat = n.natAbs := by omega
    simp [hneg, hnat, Nat.repr_eq_ofList_toDigits, not_lt.mp hneg]

/-- The text of a whole number is a literal of that number if a word holds it. -/
theorem literal?_toString_eq (n : Int) :
    literal? (toString n).toList =
      some (if Word.isSigned n then .integer n
        else .real (realOf (n < 0) (Nat.toDigits 10 n.natAbs) 0)) := by
  have hdigits := Text.isDigit_toDigits n.natAbs
  have hne := NumberLiteral.toDigits_ne_nil n.natAbs
  have hvalue : (if (n < 0 : Bool) then -1 else 1) *
      (Text.digitsValue (Nat.toDigits 10 n.natAbs) : Int) = n := by
    rw [Text.digitsValue_toDigits]
    by_cases hneg : n < 0
    · simp only [hneg, decide_true, if_true]
      omega
    · simp only [hneg, decide_false, Bool.false_eq_true, if_false]
      omega
  have hfirst : ∀ c ∈ (Nat.toDigits 10 n.natAbs).head?, c.isDigit = true :=
    fun c hc => hdigits c (List.mem_of_mem_head? hc)
  rw [toList_toString, literal?_signed, magnitudeLiteral?_digits hdigits hne hvalue]
  · intro hminus
    cases hfirst _ hminus
  · intro hplus
    cases hfirst _ hplus

theorem literal?_toString {n : Int} (hword : Word.isSigned n = true) :
    literal? (toString n).toList = some (.integer n) := by
  rw [literal?_toString_eq, if_pos hword]

theorem toString_chars (n : Int) : ∀ c ∈ (toString n).toList, c = '-' ∨ c.isDigit = true := by
  intro c hc
  rw [toList_toString] at hc
  rcases List.mem_append.mp hc with hc | hc
  · split at hc
    · exact Or.inl (List.mem_singleton.mp hc)
    · cases hc
  · exact Or.inr (Text.isDigit_toDigits n.natAbs c hc)

/-- The text of a floating-point number is that of no whole number. -/
theorem jsonText_ne_toString {x : Binary64} (hfinite : x.isFinite = true) (n : Int) :
    x.jsonText ≠ toString n := by
  have hmark := Binary64.jsonText_mark hfinite
  intro hsame
  rw [hsame] at hmark
  rcases hmark with hmark | hmark
  all_goals
    have hchar := toString_chars n _ hmark
    revert hchar
    decide

end Cell

end ComicCatalog
