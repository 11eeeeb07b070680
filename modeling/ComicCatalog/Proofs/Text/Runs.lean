import ComicCatalog.Text.Basic
import Mathlib.Algebra.Group.Nat.Defs
import Mathlib.Data.List.DropRight
import Mathlib.Data.List.TakeWhile

/-! # Runs of characters

A run is cut off a text with `takeWhile` and `dropWhile`. Where the run is
followed by something that cannot continue it, the cut falls between the two.
-/

namespace ComicCatalog.Text

variable {α : Type} {p : α → Bool} {left tail : List α}

theorem takeWhile_append_of_stop (hstop : ∀ a ∈ tail.head?, p a = false) :
    (left ++ tail).takeWhile p = left.takeWhile p := by
  induction left with
  | nil => cases tail <;> simp_all
  | cons a rest ih => cases h : p a <;> simp [h, ih]

theorem dropWhile_append_of_stop (hstop : ∀ a ∈ tail.head?, p a = false) :
    (left ++ tail).dropWhile p = left.dropWhile p ++ tail := by
  induction left with
  | nil => cases tail <;> simp_all
  | cons a rest ih => cases h : p a <;> simp [h, ih]

/-- A whole run is cut off from what cannot continue it. -/
theorem takeWhile_run (hrun : ∀ a ∈ left, p a = true) (hstop : ∀ a ∈ tail.head?, p a = false) :
    (left ++ tail).takeWhile p = left := by
  rw [takeWhile_append_of_stop hstop]
  have htake : (left ++ []).takeWhile p = left ++ [].takeWhile p :=
    List.takeWhile_append_of_pos hrun
  simpa using htake

theorem dropWhile_run (hrun : ∀ a ∈ left, p a = true) (hstop : ∀ a ∈ tail.head?, p a = false) :
    (left ++ tail).dropWhile p = tail := by
  rw [dropWhile_append_of_stop hstop]
  have hdrop : (left ++ []).dropWhile p = [].dropWhile p := List.dropWhile_append_of_pos hrun
  rw [List.append_nil] at hdrop
  simp [hdrop]

/-! ## Stripping -/

/-- What neither starts nor ends with a character of the class is left as it is. -/
theorem strip_eq_self_of_ends {drop : Char → Bool} {cs : List Char}
    (hopens : ∀ c ∈ cs.head?, drop c = false) (hcloses : ∀ c ∈ cs.getLast?, drop c = false) :
    strip drop cs = cs := by
  have hnone : ∀ ds : List Char, (∀ d ∈ ds.head?, drop d = false) → ds.dropWhile drop = ds := by
    intro ds hds
    cases ds with
    | nil => rfl
    | cons d rest => simp [hds d rfl]
  have hback : ∀ c ∈ cs.reverse.head?, drop c = false := by rwa [List.head?_reverse]
  unfold strip
  rw [hnone cs hopens, hnone cs.reverse hback, List.reverse_reverse]

theorem strip_eq_self {drop : Char → Bool} {cs : List Char} (hkept : ∀ c ∈ cs, drop c = false) :
    strip drop cs = cs :=
  strip_eq_self_of_ends (fun c hc => hkept c (List.mem_of_mem_head? hc))
    fun c hc => hkept c (List.mem_of_mem_getLast? hc)

/-- What is stripped belongs to the class. -/
theorem mem_dropWhile_or (drop : Char → Bool) {cs : List Char} {c : Char} (hc : c ∈ cs) :
    drop c = true ∨ c ∈ cs.dropWhile drop := by
  induction cs with
  | nil => cases hc
  | cons d rest ih =>
      cases hd : drop d with
      | true =>
          rw [List.dropWhile_cons, if_pos hd]
          rcases List.mem_cons.mp hc with rfl | hc
          · exact Or.inl hd
          · exact ih hc
      | false =>
          rw [List.dropWhile_cons, if_neg (by simp [hd])]
          exact Or.inr hc

theorem mem_strip_or (drop : Char → Bool) {cs : List Char} {c : Char} (hc : c ∈ cs) :
    drop c = true ∨ c ∈ strip drop cs := by
  rcases mem_dropWhile_or drop hc with hdrop | hc
  · exact Or.inl hdrop
  · rcases mem_dropWhile_or drop (List.mem_reverse.mpr hc) with hdrop | hc
    · exact Or.inl hdrop
    · exact Or.inr (List.mem_reverse.mpr hc)

theorem trim_eq_empty {s : String} : trim s = "" ↔ blank s = true := by
  rw [trim, blank, List.all_eq_true, ← String.ofList_nil, String.ofList_inj]
  constructor
  · intro hstrip c hc
    have hkept := mem_strip_or isBlank hc
    rw [hstrip] at hkept
    simpa using hkept
  · intro hblank
    rw [strip, List.dropWhile_eq_nil_iff.mpr hblank]
    rfl

theorem mem_of_mem_strip {drop : Char → Bool} {cs : List Char} {c : Char}
    (hc : c ∈ strip drop cs) : c ∈ cs :=
  (List.dropWhile_sublist drop).mem (List.mem_reverse.mp
    ((List.dropWhile_sublist drop).mem (List.mem_reverse.mp hc)))

/-- What is left after stripping neither starts nor ends with a character of the class. -/
theorem not_drop_of_mem_head?_strip {drop : Char → Bool} {cs : List Char} {c : Char}
    (hc : c ∈ (strip drop cs).head?) : drop c = false := by
  obtain ⟨tail, hfront⟩ := List.rdropWhile_prefix drop (cs.dropWhile drop)
  have hhead : (cs.dropWhile drop).head? = some c := by
    rw [← hfront, List.head?_append]
    exact Option.or_eq_some_iff.mpr (Or.inl hc)
  have hkept := List.head?_dropWhile_not drop cs
  rwa [hhead] at hkept

theorem not_drop_of_mem_getLast?_strip {drop : Char → Bool} {cs : List Char} {c : Char}
    (hc : c ∈ (strip drop cs).getLast?) : drop c = false := by
  have hkept := List.head?_dropWhile_not drop (cs.dropWhile drop).reverse
  rw [strip, List.getLast?_reverse] at hc
  rwa [Option.mem_def.mp hc] at hkept

theorem strip_strip (drop : Char → Bool) (cs : List Char) : strip drop (strip drop cs) = strip drop cs :=
  strip_eq_self_of_ends (fun _ hc => not_drop_of_mem_head?_strip hc)
    fun _ hc => not_drop_of_mem_getLast?_strip hc

/-- Only what belongs to the class is stripped, in front and behind. -/
theorem exists_strip (drop : Char → Bool) (cs : List Char) :
    ∃ before after, cs = before ++ strip drop cs ++ after ∧ (∀ c ∈ before, drop c = true) ∧
      ∀ c ∈ after, drop c = true := by
  have hback : cs.dropWhile drop =
      strip drop cs ++ ((cs.dropWhile drop).reverse.takeWhile drop).reverse := by
    rw [strip, ← List.reverse_append, List.takeWhile_append_dropWhile, List.reverse_reverse]
  refine ⟨cs.takeWhile drop, ((cs.dropWhile drop).reverse.takeWhile drop).reverse, ?_, fun c hc => List.mem_takeWhile_imp hc,
    fun c hc => List.mem_takeWhile_imp (List.mem_reverse.mp hc)⟩
  rw [List.append_assoc, ← hback, List.takeWhile_append_dropWhile]

/-- Between ends of the class, what neither starts nor ends with one of its characters is left. -/
theorem strip_between {drop : Char → Bool} {before kept after : List Char}
    (hbefore : ∀ c ∈ before, drop c = true) (hafter : ∀ c ∈ after, drop c = true)
    (hopens : ∀ c ∈ kept.head?, drop c = false) (hcloses : ∀ c ∈ kept.getLast?, drop c = false) :
    strip drop (before ++ kept ++ after) = kept := by
  cases kept with
  | nil =>
      have hall : ∀ c ∈ before ++ [] ++ after, drop c = true := by
        rw [List.append_nil]
        exact List.forall_mem_append.mpr ⟨hbefore, hafter⟩
      rw [strip, List.dropWhile_eq_nil_iff.mpr hall]
      rfl
  | cons first rest =>
      have hfront : ∀ c ∈ (first :: rest ++ after).head?, drop c = false := hopens
      have hback : ∀ c ∈ (first :: rest).reverse.head?, drop c = false := by
        rwa [List.head?_reverse]
      rw [strip, List.append_assoc, dropWhile_run hbefore hfront, List.reverse_append,
        dropWhile_run (by simpa using hafter) hback, List.reverse_reverse]

/-! ## Splitting -/

/-- The pieces of a list hold nothing but its members, and not the separator. -/
theorem mem_splitOn [BEq α] [LawfulBEq α] {separator : α} {list piece : List α}
    (hpiece : piece ∈ list.splitOn separator) :
    separator ∉ piece ∧ ∀ a ∈ piece, a ∈ list := by
  induction list generalizing piece with
  | nil =>
      rw [List.splitOn_nil, List.mem_singleton] at hpiece
      subst hpiece
      simp
  | cons first rest ih =>
      have hrest : ∀ other ∈ rest.splitOn separator,
          separator ∉ other ∧ ∀ a ∈ other, a ∈ first :: rest := fun other hother =>
        ⟨(ih hother).1, fun a ha => List.mem_cons_of_mem first ((ih hother).2 a ha)⟩
      rw [List.splitOn_cons_eq_if_modifyHead] at hpiece
      split at hpiece
      next =>
        rcases List.mem_cons.mp hpiece with rfl | hpiece
        · simp
        · exact hrest piece hpiece
      next hne =>
        cases hsplit : rest.splitOn separator with
        | nil => exact absurd hsplit (List.splitOn_ne_nil separator rest)
        | cons front others =>
            rw [hsplit, List.modifyHead_cons] at hpiece
            rw [hsplit] at hrest
            rcases List.mem_cons.mp hpiece with rfl | hpiece
            · obtain ⟨hfront, hmem⟩ := hrest front List.mem_cons_self
              refine ⟨?_, ?_⟩
              · rw [List.mem_cons, not_or]
                exact ⟨fun heq => hne (by simp [heq]), hfront⟩
              · intro a ha
                rcases List.mem_cons.mp ha with rfl | ha
                · exact List.mem_cons_self
                · exact hmem a ha
            · exact hrest piece (List.mem_cons_of_mem front hpiece)

/-! ## Digits -/

theorem digitsValue_eq (digits : List Char) :
    digitsValue digits = Nat.ofDigitChars 10 digits 0 := by
  rw [digitsValue, ofDigits, List.foldl_map, Nat.ofDigitChars_eq_foldl]
  congr 1
  funext n c
  rw [Nat.mul_comm]
  rfl

theorem digitsValue_append (first second : List Char) :
    digitsValue (first ++ second) = digitsValue first * 10 ^ second.length + digitsValue second := by
  rw [digitsValue_eq, digitsValue_eq, digitsValue_eq, Nat.ofDigitChars_append,
    Nat.ofDigitChars_eq_ofDigitChars_zero, Nat.mul_comm]

@[simp]
theorem digitsValue_toDigits (n : Nat) : digitsValue (Nat.toDigits 10 n) = n := by
  rw [digitsValue_eq, Nat.ofDigitChars_ten_toDigits]

@[simp]
theorem digitsValue_zeros (count : Nat) : digitsValue (List.replicate count '0') = 0 := by
  rw [digitsValue_eq, Nat.ofDigitChars_replicate_zero, Nat.mul_zero]

theorem isDigit_toDigits (n : Nat) : ∀ c ∈ Nat.toDigits 10 n, c.isDigit = true :=
  fun _ hc => Nat.isDigit_of_mem_toDigits (by decide) (by decide) hc

theorem isDigit_zeros (count : Nat) : ∀ c ∈ List.replicate count '0', c.isDigit = true := by
  intro c hc
  rw [List.eq_of_mem_replicate hc]
  rfl

/-- Digits are zeros in front of the shortest way to write their number. -/
theorem exists_zeros {digits : List Char} (hnonempty : digits ≠ [])
    (hdigits : ∀ c ∈ digits, c.isDigit = true) :
    ∃ zeros, digits = List.replicate zeros '0' ++ Nat.toDigits 10 (digitsValue digits) := by
  induction digits using List.reverseRecOn with
  | nil => exact absurd rfl hnonempty
  | append_singleton front last ih =>
      obtain ⟨hlow, hhigh⟩ : 48 ≤ last.toNat ∧ last.toNat ≤ 57 :=
        Char.isDigit_iff_toNat.mp (hdigits last (by simp))
      have hvalue : digitsValue [last] = last.toNat - 48 := Nat.zero_add _
      have hlt : digitsValue [last] < 10 := by omega
      have hlast : Nat.toDigits 10 (digitsValue [last]) = [last] := by
        have hcode : (digitsValue [last]).digitChar.toNat = last.toNat := by
          rw [Nat.toNat_digitChar_of_lt_ten hlt]
          omega
        rw [Nat.toDigits_of_lt_base hlt, Char.toNat_inj.mp hcode]
      rw [digitsValue_append, List.length_singleton, Nat.pow_one]
      by_cases hfront : front = []
      · subst hfront
        refine ⟨0, ?_⟩
        rw [show digitsValue [] = 0 from rfl, Nat.zero_mul, Nat.zero_add, hlast]
        rfl
      · obtain ⟨zeros, hzeros⟩ := ih hfront fun c hc => hdigits c (by simp [hc])
        -- Zeros alone make one more zero; otherwise the last digit is one more of the number.
        by_cases hzero : digitsValue front = 0
        · refine ⟨zeros + 1, ?_⟩
          rw [hzero, Nat.toDigits_zero, ← List.replicate_succ'] at hzeros
          rw [hzero, Nat.zero_mul, Nat.zero_add, hlast, ← hzeros]
        · refine ⟨zeros, ?_⟩
          have hdigits' := @Nat.toDigits_append_toDigits 10 _ _ (by decide) (Nat.pos_of_ne_zero hzero) hlt
          rw [Nat.mul_comm, ← hdigits', hlast, ← List.append_assoc, ← hzeros]

end ComicCatalog.Text
