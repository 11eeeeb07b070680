import ComicCatalog.Json.Writer
import ComicCatalog.Proofs.Number.ReadBack

/-! # Written values read back

The text that is written of a value is read as that value, by any reader that reads the numbers
in it back. A reader that takes the nearest number reads every finite number back; whole
numbers of 64 bits are read back by all readers. No name may occur twice in an object, since a
reader keeps the last of its values only.
-/

namespace ComicCatalog.Json

/-! ## Texts -/

/-- The two digits that a control character is escaped with. -/
theorem hexDigits_control : ∀ code < 32,
    (if code < 16 then ['0'] else []) ++ Nat.toDigits 16 code =
        [if code < 16 then '0' else '1', (code % 16).digitChar] ∧
      Text.hexDigit? (if code < 16 then '0' else '1') = some (code / 16) ∧
      Text.hexDigit? (code % 16).digitChar = some (code % 16) := by
  decide

theorem escape?_control {c : Char} (hcontrol : c.toNat < 32) (rest : List Char) :
    escape? ('u' :: '0' :: '0' ::
      ((if c.toNat < 16 then ['0'] else []) ++ Nat.toDigits 16 c.toNat ++ rest)) = some (c, rest) := by
  obtain ⟨hdigits, hhigh, hlow⟩ := hexDigits_control c.toNat hcontrol
  have hzero : Text.hexDigit? '0' = some 0 := rfl
  have hcode : c.toNat / 16 * 16 + c.toNat % 16 = c.toNat := Nat.div_add_mod' _ _
  have hplain : ¬(0xD800 ≤ c.toNat ∧ c.toNat < 0xDC00) ∧ ¬(0xDC00 ≤ c.toNat ∧ c.toNat < 0xE000) := by
    omega
  rw [hdigits]
  simp [escape?, hexQuad?, hzero, hhigh, hlow, hcode, hplain]

/-- One written character is read back. -/
theorem textChars?_writeChar (fuel : Nat) (done : List Char) (c : Char) (rest : List Char) :
    textChars? (fuel + 1) done (writeChar c ++ rest) = textChars? fuel (c :: done) rest := by
  have hofNat : ∀ code, c.toNat = code → Char.ofNat code = c := by
    rintro code rfl
    exact Char.ofNat_toNat c
  -- One case for each way to write a character: seven short escapes, a code, or as it is.
  unfold writeChar
  split
  next hquote => simp [textChars?, escape?, hquote]
  split
  next hslash => simp [textChars?, escape?, hslash]
  split
  next hcode =>
    rw [← hofNat _ hcode]
    rfl
  split
  next htab => simp [textChars?, escape?, htab]
  split
  next hline => simp [textChars?, escape?, hline]
  split
  next hcode =>
    rw [← hofNat _ hcode]
    rfl
  split
  next hreturn => simp [textChars?, escape?, hreturn]
  split
  next hcontrol =>
    have hread := escape?_control hcontrol rest
    simp only [List.append_assoc, List.cons_append, List.nil_append] at hread ⊢
    simp [textChars?, hread]
  next hquote hslash _ _ _ _ _ hplain => simp [textChars?, hquote, hslash, hplain]

theorem textChars?_write {fuel : Nat} (done : List Char) {cs : List Char} (rest : List Char)
    (hfuel : cs.length < fuel) :
    textChars? fuel done (cs.flatMap writeChar ++ '"' :: rest) =
      some (String.ofList (done.reverse ++ cs), rest) := by
  induction cs generalizing fuel done with
  | nil =>
      obtain ⟨fuel, rfl⟩ := Nat.exists_eq_add_one_of_ne_zero (Nat.ne_of_gt hfuel)
      simp [textChars?]
  | cons c cs ih =>
      obtain ⟨fuel, rfl⟩ := Nat.exists_eq_add_one_of_ne_zero (Nat.ne_of_gt (Nat.zero_lt_of_lt hfuel))
      rw [List.length_cons, Nat.add_lt_add_iff_right] at hfuel
      rw [List.flatMap_cons, List.append_assoc, textChars?_writeChar, ih (c :: done) hfuel]
      simp

theorem writeChar_ne_nil (c : Char) : writeChar c ≠ [] := by
  unfold writeChar
  repeat' split
  all_goals simp

theorem length_le_flatMap_writeChar (cs : List Char) :
    cs.length ≤ (cs.flatMap writeChar).length := by
  induction cs with
  | nil => exact Nat.le_refl 0
  | cons c cs ih =>
      have hpos := List.length_pos_of_ne_nil (writeChar_ne_nil c)
      rw [List.flatMap_cons, List.length_append, List.length_cons]
      omega

/-- What stands behind the opening quote of a text is read as the text. -/
theorem textChars?_writeText (s : String) (rest : List Char) :
    let cs := s.toList.flatMap writeChar ++ '"' :: rest
    textChars? (cs.length + 1) [] cs = some (s, rest) := by
  intro cs
  have hfuel : s.toList.length < cs.length + 1 := by
    have hle := length_le_flatMap_writeChar s.toList
    rw [List.length_append]
    omega
  rw [textChars?_write [] rest hfuel]
  simp

/-! ## Numbers -/

/-- What may follow a number without going on with it. -/
def EndsNumber (rest : List Char) : Prop :=
  ∀ c ∈ rest.head?, c.isDigit = false ∧ c ≠ '.' ∧ c ≠ 'e' ∧ c ≠ 'E'

theorem fraction?_pointChars {behind rest : List Char} (hbehind : ∀ c ∈ behind, c.isDigit = true)
    (hstop : ∀ c ∈ rest.head?, c.isDigit = false ∧ c ≠ '.') :
    fraction? (NumberLiteral.pointChars behind ++ rest) = some (behind, rest) := by
  have hrest : ∀ c ∈ rest.head?, c.isDigit = false := fun c hc => (hstop c hc).1
  unfold NumberLiteral.pointChars
  split
  next hnone =>
    rw [hnone, List.nil_append]
    cases rest with
    | nil => rfl
    | cons c rest =>
        have hpoint : c ≠ '.' := (hstop c rfl).2
        simp [fraction?, hpoint]
  next hsome =>
    simp [fraction?, Text.takeWhile_run hbehind hrest, Text.dropWhile_run hbehind hrest, hsome]

theorem number?_signed (real? : RealReading) (negative : Bool) {cs : List Char}
    (hdigit : ∀ c ∈ cs.head?, c.isDigit = true) :
    number? real? ((if negative then ['-'] else []) ++ cs) = magnitude? real? negative cs := by
  cases negative with
  | true => rfl
  | false =>
      rw [if_neg Bool.false_ne_true, List.nil_append]
      unfold number?
      split
      next => cases hdigit '-' rfl
      next => rfl

/-- A magnitude is read from its digits, what stands behind the point, and its power. -/
theorem magnitude?_of_parts (real? : RealReading) (negative : Bool) {whole behind tail after rest : List Char}
    {power : Option Int} (hwhole : ∀ c ∈ whole, c.isDigit = true) (hnonempty : whole ≠ [])
    (hleading : 1 < whole.length → whole.head? ≠ some '0')
    (hstop : ∀ c ∈ tail.head?, c.isDigit = false) (hbehind : fraction? tail = some (behind, after))
    (hpower : exponent? after = some (power, rest)) :
    magnitude? real? negative (whole ++ tail) =
      if (behind.isEmpty && power.isNone &&
        (if negative then Text.digitsValue whole != 0 && Word.isSigned (-(Text.digitsValue whole : Int))
        else Text.digitsValue whole ≤ Word.maxUnsigned)) = true then
        some (.whole (if negative then -(Text.digitsValue whole : Int) else Text.digitsValue whole), rest)
      else (real? negative whole behind (power.getD 0)).map fun x => (.real x, rest) := by
  have hstart : ¬(whole = [] ∨ 1 < whole.length ∧ whole.head? = some '0') := by
    rintro (hempty | ⟨hlength, hzero⟩)
    · exact hnonempty hempty
    · exact hleading hlength hzero
  unfold magnitude?
  simp only [Text.takeWhile_run hwhole hstop, Text.dropWhile_run hwhole hstop, List.isEmpty_iff,
    if_neg hstart, hbehind, hpower, Option.bind_eq_bind, Option.bind_some]
  cases real? negative whole behind (power.getD 0) <;> rfl

/-- The literal of a floating-point number is read by its parts. -/
theorem magnitude?_chars (real? : RealReading) (negative : Bool) {literal : NumberLiteral}
    (hreal : literal.IsReal) {rest : List Char} (hend : EndsNumber rest) :
    magnitude? real? negative (literal.chars ++ rest) =
      (real? negative literal.whole literal.behind (literal.power.getD 0)).map
        fun x => (.real x, rest) := by
  have hbehind : ∀ c ∈ (NumberLiteral.powerChars literal.power ++ rest).head?,
      c.isDigit = false ∧ c ≠ '.' := by
    cases literal.power with
    | none => exact fun c hc => ⟨(hend c hc).1, (hend c hc).2.1⟩
    | some power =>
        rintro c ⟨⟩
        decide
  have hwhole : ∀ c ∈ (NumberLiteral.pointChars literal.behind ++
      (NumberLiteral.powerChars literal.power ++ rest)).head?, c.isDigit = false := by
    unfold NumberLiteral.pointChars
    split
    · exact fun c hc => (hbehind c hc).1
    · rintro c ⟨⟩
      rfl
  have hpower := NumberLiteral.exponent?_powerChars hreal.power
    fun c hc => ⟨(hend c hc).1, (hend c hc).2.2⟩
  have hmarked : (literal.behind.isEmpty && literal.power.isNone) = false := by
    rcases hreal.marked with hpoint | hraised
    · rw [List.isEmpty_eq_false_iff.mpr hpoint, Bool.false_and]
    · rw [Option.isNone_eq_false_iff.mpr (Option.isSome_iff_ne_none.mpr hraised), Bool.and_false]
  rw [NumberLiteral.chars, List.append_assoc, List.append_assoc, magnitude?_of_parts real? negative
    hreal.whole hreal.nonempty hreal.leading hwhole (fraction?_pointChars hreal.behind hbehind) hpower,
    hmarked, Bool.false_and, if_neg Bool.false_ne_true]

/-- Digits alone are read as a whole number of 64 bits. -/
theorem magnitude?_toDigits (real? : RealReading) {n : Int} (hleast : Word.minSigned ≤ n)
    (hmost : n ≤ Word.maxUnsigned) {rest : List Char} (hend : EndsNumber rest) :
    magnitude? real? (n < 0) (Nat.toDigits 10 n.natAbs ++ rest) = some (.whole n, rest) := by
  have hleading : 1 < (Nat.toDigits 10 n.natAbs).length →
      (Nat.toDigits 10 n.natAbs).head? ≠ some '0' := by
    intro hlength
    apply NumberLiteral.head?_toDigits_ne
    rintro hzero
    rw [hzero] at hlength
    exact absurd hlength (lt_irrefl 1)
  have hbehind : fraction? rest = some ([], rest) :=
    fraction?_pointChars (List.forall_mem_nil _) fun c hc => ⟨(hend c hc).1, (hend c hc).2.1⟩
  have hpower : exponent? ([] ++ rest) = some (none, rest) :=
    @NumberLiteral.exponent?_powerChars none (by rintro n ⟨⟩) rest
      fun c hc => ⟨(hend c hc).1, (hend c hc).2.2⟩
  rw [magnitude?_of_parts real? (n < 0) (Text.isDigit_toDigits _) (NumberLiteral.toDigits_ne_nil _)
    hleading (fun c hc => (hend c hc).1) hbehind hpower, Text.digitsValue_toDigits]
  by_cases hneg : n < 0
  · have hsigned : Word.isSigned n = true := by
      simp only [Word.isSigned_iff, Word.minSigned] at hleast ⊢
      omega
    simp [hneg, abs_of_neg hneg, hsigned, hneg.ne]
  · have hunsigned : n.natAbs ≤ Word.maxUnsigned := by omega
    simp [hneg, abs_of_nonneg (not_lt.mp hneg), hunsigned]

end ComicCatalog.Json

namespace ComicCatalog.JsonNumber

open Json

/-- Whatever comes behind it, the text of the number is read as the number. -/
def IsReadBack (real? : RealReading) (n : JsonNumber) : Prop :=
  ∀ rest, EndsNumber rest → number? real? (n.text.toList ++ rest) = some (n, rest)

/-- Whole numbers of 64 bits are read back by every reader. -/
theorem isReadBack_whole (real? : RealReading) {n : Int} (hleast : Word.minSigned ≤ n)
    (hmost : n ≤ Word.maxUnsigned) : (whole n).IsReadBack real? := by
  intro rest hend
  have hdigit : ∀ c ∈ (Nat.toDigits 10 n.natAbs ++ rest).head?, c.isDigit = true := by
    rw [List.head?_append_of_ne_nil _ (NumberLiteral.toDigits_ne_nil _)]
    exact fun c hc => Text.isDigit_toDigits _ c (List.mem_of_mem_head? hc)
  rw [text, Cell.toList_toString, List.append_assoc, number?_signed real? _ hdigit,
    magnitude?_toDigits real? hleast hmost hend]

/-- Finite numbers are read back by a reader that takes the nearest number. -/
theorem isReadBack_real {x : Binary64} (hfinite : x.isFinite = true) :
    (real x).IsReadBack nearest? := by
  intro rest hend
  obtain ⟨literal, hreal, hchars, -, hvalue⟩ := Binary64.exists_literal_jsonText hfinite
  have hdigit : ∀ c ∈ (literal.chars ++ rest).head?, c.isDigit = true := by
    rw [List.head?_append_of_ne_nil _ hreal.chars_ne_nil]
    exact hreal.head
  have hnearest : nearest? x.negative literal.whole literal.behind (literal.power.getD 0) = some x := by
    rw [NumberLiteral.decimal] at hvalue
    simp only [nearest?, hvalue, hfinite, if_true]
  rw [text, hchars, List.append_assoc, number?_signed nearest? _ hdigit,
    magnitude?_chars nearest? _ hreal hend, hnearest, Option.map_some]

end ComicCatalog.JsonNumber

namespace ComicCatalog.Json

/-! ## Values -/

/-- A value whose numbers all are as `keeps` says, and whose objects have no name twice. -/
inductive IsMadeOf (keeps : JsonNumber → Prop) : Json → Prop
  | null : IsMadeOf keeps .null
  | bool (b : Bool) : IsMadeOf keeps (.bool b)
  | number {n : JsonNumber} (hn : keeps n) : IsMadeOf keeps (.number n)
  | text (s : String) : IsMadeOf keeps (.text s)
  | array {items : List Json} (hitems : ∀ item ∈ items, IsMadeOf keeps item) :
      IsMadeOf keeps (.array items)
  | object {fields : List (String × Json)} (hnames : (fields.map Prod.fst).Nodup)
      (hvalues : ∀ field ∈ fields, IsMadeOf keeps field.2) : IsMadeOf keeps (.object fields)

/-- The text of the value is read as the value, with enough fuel and whatever comes behind it. -/
def Reads (real? : RealReading) (value : Json) : Prop :=
  ∀ fuel rest, (write value).length ≤ fuel → EndsNumber rest →
    value? real? (fuel + 1) (write value ++ rest) = some (value, rest)

variable {real? : RealReading}

theorem skipGap_cons {c : Char} (hc : isGap c = false) (rest : List Char) :
    skipGap (c :: rest) = c :: rest := by
  rw [skipGap, List.dropWhile_cons, hc, if_neg Bool.false_ne_true]

theorem endsNumber_cons {c : Char} (hc : c = ',' ∨ c = ']' ∨ c = '\x7d') (rest : List Char) :
    EndsNumber (c :: rest) := by
  rintro other ⟨⟩
  rcases hc with rfl | rfl | rfl <;> decide

/-- Characters that start something other than a number, or nothing. -/
def otherStarts : List Char :=
  [' ', '\t', '\n', '\r', 'n', 't', 'f', '"', '[', ']', '\x7b']

theorem isGap_of_not_mem {c : Char} (hc : c ∉ otherStarts) : isGap c = false := by
  simp only [otherStarts, List.mem_cons, not_or] at hc
  simp [isGap, hc]

/-- A number starts with a digit or with a minus sign. -/
theorem exists_cons_of_number? {cs rest : List Char} {n : JsonNumber}
    (hread : number? real? cs = some (n, rest)) :
    ∃ c after, cs = c :: after ∧ c ∉ otherStarts := by
  unfold number? at hread
  split at hread
  next after => exact ⟨'-', after, rfl, by decide⟩
  next =>
    cases cs with
    | nil => cases hread
    | cons c after =>
        refine ⟨c, after, rfl, fun hmem => ?_⟩
        have hothers : ∀ c ∈ otherStarts, c.isDigit = false := by simp [otherStarts]
        have hempty : ((c :: after).takeWhile Char.isDigit).isEmpty = true := by
          simp [hothers c hmem]
        rw [magnitude?, if_pos (Or.inl hempty)] at hread
        cases hread

theorem value?_of_number (fuel : Nat) {c : Char} (hc : c ∉ otherStarts) (after : List Char) :
    value? real? (fuel + 1) (c :: after) =
      (number? real? (c :: after)).map fun (n, rest) => (.number n, rest) := by
  rw [value?, skipGap_cons (isGap_of_not_mem hc)]
  split
  case h_7 => rfl
  all_goals
    next heq =>
      cases heq
      exact absurd (by decide) hc

/-- A written value starts with a character that is neither a blank nor the end of a list. -/
theorem exists_cons_write {value : Json} (hmade : value.IsMadeOf (·.IsReadBack real?)) :
    ∃ c after, write value = c :: after ∧ isGap c = false ∧ c ≠ ']' := by
  cases hmade with
  | null => exact ⟨_, _, rfl, by decide, by decide⟩
  | bool b => cases b <;> exact ⟨_, _, rfl, by decide, by decide⟩
  | text s => exact ⟨_, _, rfl, by decide, by decide⟩
  | array => exact ⟨_, _, rfl, by decide, by decide⟩
  | object => exact ⟨_, _, rfl, by decide, by decide⟩
  | number hn =>
      have hread := hn [] (by rintro c ⟨⟩)
      rw [List.append_nil] at hread
      obtain ⟨c, after, hchars, hc⟩ := exists_cons_of_number? hread
      refine ⟨c, after, hchars, isGap_of_not_mem hc, ?_⟩
      rintro rfl
      exact hc (by decide)

theorem reads_number {n : JsonNumber} (hn : n.IsReadBack real?) : Reads real? (.number n) := by
  intro fuel rest hfuel hend
  have hread := hn rest hend
  obtain ⟨c, after, hchars, hc⟩ := exists_cons_of_number? hread
  rw [hchars] at hread
  rw [write, hchars, value?_of_number fuel hc, hread, Option.map_some]

theorem reads_text (s : String) : Reads real? (.text s) := by
  intro fuel rest hfuel hend
  have hread := textChars?_writeText s rest
  simp only at hread
  rw [write, writeText, List.cons_append, List.append_assoc, List.singleton_append, value?,
    skipGap_cons (by decide)]
  simp only [hread, Option.map_some]

theorem writeItems_cons_cons (item next : Json) (others : List Json) :
    writeItems (item :: next :: others) = write item ++ ',' :: writeItems (next :: others) := by
  rw [writeItems]
  simp

theorem writeFields_cons_cons (name : String) (value : Json) (next : String × Json)
    (others : List (String × Json)) : writeFields ((name, value) :: next :: others) =
      writeText name ++ ':' :: (write value ++ ',' :: writeFields (next :: others)) := by
  rw [writeFields]
  simp

/-- Items are read one after the other, each with less fuel. -/
theorem items?_writeItems {items : List Json} (hreads : ∀ item ∈ items, Reads real? item)
    (hnonempty : items ≠ []) {fuel : Nat} (done : List Json) (rest : List Char)
    (hfuel : (writeItems items).length ≤ fuel) :
    items? real? (fuel + 2) done (writeItems items ++ ']' :: rest) = some (done.reverse ++ items, rest) := by
  induction items generalizing fuel done with
  | nil => exact absurd rfl hnonempty
  | cons item others ih =>
      have hitem := hreads item List.mem_cons_self
      cases others with
      | nil =>
          rw [writeItems] at hfuel ⊢
          rw [items?, hitem _ _ (by omega) (endsNumber_cons (by simp) rest)]
          simp [skipGap_cons (c := ']') (by decide)]
      | cons next others =>
          rw [writeItems_cons_cons, List.length_append, List.length_cons] at hfuel
          obtain ⟨fuel, rfl⟩ : ∃ less, fuel = less + 1 := ⟨fuel - 1, by omega⟩
          rw [writeItems_cons_cons, List.append_assoc, List.cons_append, items?,
            hitem _ _ (by omega) (endsNumber_cons (by simp) _)]
          simp only [skipGap_cons (c := ',') (by decide)]
          rw [ih (fun other hother => hreads other (List.mem_cons_of_mem item hother)) (by simp)
            (item :: done) (by omega)]
          simp

theorem reads_array {items : List Json} (hmade : ∀ item ∈ items, item.IsMadeOf (·.IsReadBack real?))
    (hreads : ∀ item ∈ items, Reads real? item) : Reads real? (.array items) := by
  intro fuel rest hfuel hend
  rw [write, List.cons_append, List.append_assoc, List.singleton_append, value?,
    skipGap_cons (by decide)]
  cases items with
  | nil => rfl
  | cons item others =>
      obtain ⟨c, after, hchars, hgap, hbracket⟩ := exists_cons_write (hmade item List.mem_cons_self)
      have hfirst : ∃ after, writeItems (item :: others) = c :: after := by
        cases others with
        | nil => exact ⟨after, by rw [writeItems, hchars]⟩
        | cons next others => exact ⟨_, by rw [writeItems_cons_cons, hchars, List.cons_append]⟩
      obtain ⟨after, hfirst⟩ := hfirst
      rw [write, List.length_cons, List.length_append, List.length_singleton] at hfuel
      obtain ⟨fuel, rfl⟩ : ∃ less, fuel = less + 2 := ⟨fuel - 2, by omega⟩
      have hread := @items?_writeItems real? _ hreads (by simp) fuel [] rest (by omega)
      rw [hfirst, List.cons_append] at hread ⊢
      simp only [skipGap_cons hgap]
      split
      next heq => exact absurd (List.cons.inj heq).1 hbracket
      next => simp [hread]

/-- Fields are read one after the other, and kept under names that are new. -/
theorem fields?_writeFields {fields : List (String × Json)}
    (hreads : ∀ field ∈ fields, Reads real? field.2) (hnonempty : fields ≠ []) {fuel : Nat}
    {done : Record} (hnames : ((done ++ fields).map Prod.fst).Nodup) (rest : List Char)
    (hfuel : (writeFields fields).length ≤ fuel) :
    fields? real? (fuel + 2) done (writeFields fields ++ '\x7d' :: rest) = some (done ++ fields, rest) := by
  induction fields generalizing fuel done with
  | nil => exact absurd rfl hnonempty
  | cons field others ih =>
      obtain ⟨name, value⟩ := field
      have hvalue : Reads real? value := hreads (name, value) List.mem_cons_self
      -- A new name is added behind the others, as it was written.
      have hnew : name ∉ done.map Prod.fst := by
        rw [List.map_append, List.nodup_append] at hnames
        exact fun hmem => hnames.2.2 name hmem name (by simp) rfl
      have hname := textChars?_writeText name
      simp only at hname
      cases others with
      | nil =>
          rw [writeFields, List.length_append, List.length_cons] at hfuel
          rw [writeFields, writeText, List.cons_append, List.cons_append, List.append_assoc,
            List.append_assoc, List.singleton_append, List.cons_append, fields?,
            skipGap_cons (by decide)]
          simp only [hname, skipGap_cons (c := ':') (by decide)]
          rw [hvalue _ _ (by omega) (endsNumber_cons (by simp) rest)]
          simp [skipGap_cons (c := '\x7d') (by decide), Record.set_of_not_mem value hnew]
      | cons next others =>
          rw [writeFields_cons_cons, List.length_append, List.length_cons, List.length_append,
            List.length_cons] at hfuel
          obtain ⟨fuel, rfl⟩ : ∃ less, fuel = less + 1 := ⟨fuel - 1, by omega⟩
          rw [writeFields_cons_cons, writeText, List.cons_append, List.cons_append, List.append_assoc,
            List.append_assoc, List.singleton_append, List.cons_append, List.append_assoc,
            List.cons_append, fields?, skipGap_cons (by decide)]
          simp only [hname, skipGap_cons (c := ':') (by decide)]
          rw [hvalue _ _ (by omega) (endsNumber_cons (by simp) _)]
          simp only [skipGap_cons (c := ',') (by decide), Record.set_of_not_mem value hnew]
          rw [ih (fun other hother => hreads other (List.mem_cons_of_mem _ hother)) (by simp)
            (by simpa using hnames) (by omega)]
          simp

theorem reads_object {fields : List (String × Json)} (hnames : (fields.map Prod.fst).Nodup)
    (hreads : ∀ field ∈ fields, Reads real? field.2) : Reads real? (.object fields) := by
  intro fuel rest hfuel hend
  rw [write, List.cons_append, List.append_assoc, List.singleton_append, value?,
    skipGap_cons (by decide)]
  cases fields with
  | nil => rfl
  | cons field others =>
      have hfirst : ∃ after, writeFields (field :: others) = '"' :: after := by
        obtain ⟨name, value⟩ := field
        cases others with
        | nil => exact ⟨_, by rw [writeFields, writeText, List.cons_append]⟩
        | cons next others => exact ⟨_, by rw [writeFields_cons_cons, writeText, List.cons_append]⟩
      obtain ⟨after, hfirst⟩ := hfirst
      rw [write, List.length_cons, List.length_append, List.length_singleton] at hfuel
      obtain ⟨fuel, rfl⟩ : ∃ less, fuel = less + 2 := ⟨fuel - 2, by omega⟩
      have hread := @fields?_writeFields real? _ hreads (by simp) fuel [] hnames rest (by omega)
      rw [hfirst, List.cons_append] at hread ⊢
      simp only [skipGap_cons (c := '"') (by decide)]
      simp [hread]

theorem IsMadeOf.reads {value : Json} (hmade : value.IsMadeOf (·.IsReadBack real?)) :
    Reads real? value := by
  induction hmade with
  | null =>
      intro fuel rest hfuel hend
      rfl
  | bool b =>
      intro fuel rest hfuel hend
      cases b <;> rfl
  | number hn => exact reads_number hn
  | text s => exact reads_text s
  | array hitems ih => exact reads_array hitems ih
  | object hnames _ ih => exact reads_object hnames ih

/-- The text of a value is read as the value. -/
theorem read?_render {value : Json} (hmade : value.IsMadeOf (·.IsReadBack real?)) :
    read? real? value.render = some value := by
  have hread := hmade.reads (write value).length [] (Nat.le_refl _) (by rintro c ⟨⟩)
  rw [List.append_nil] at hread
  simp only [read?, render, String.toList_ofList, hread]
  rfl

end ComicCatalog.Json
