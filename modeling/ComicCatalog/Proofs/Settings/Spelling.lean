import ComicCatalog.Proofs.Settings.Numerals
import Mathlib

/-! # Spellings in variables

What the text of a variable is read as. The grammar of lists and tables is stated without a bound on
their depth; the reader counts down from a bound, and the one that it starts with is never met.
-/

namespace ComicCatalog.Variables

/-- The text starts as a value does that is not written without quotes. -/
def IsOpened (cs : List Char) : Prop :=
  "true".toList <+: cs ∨ "false".toList <+: cs ∨
    ∃ c ∈ cs.head?, c = '\x7b' ∨ c = '[' ∨ c = '"' ∨ c = '\''

/-- A value, the items of a list behind its bracket, or the pairs of a table behind its brace. -/
inductive Part
  | value
  | items
  | pairs

/-- Such a part stands at the front of a text, and what is behind it is left. -/
inductive Reads : Part → List Char → List Char → Prop
  | truth {cs rest : List Char} (word : String) (hword : word = "true" ∨ word = "false")
      (hfront : skipGap cs = word.toList ++ rest) : Reads .value cs (skipGap rest)
  | quoted {cs inner rest : List Char} {s : String} (hfront : skipGap cs = '"' :: inner)
      (htext : Toml.lineText? '"' inner = some (s, rest)) : Reads .value cs (skipGap rest)
  | character {cs rest : List Char} {c : Char} (hfront : skipGap cs = '\'' :: c :: '\'' :: rest) :
      Reads .value cs (skipGap rest)
  | list {cs inner rest : List Char} (hfront : skipGap cs = '[' :: inner)
      (hitems : Reads .items inner rest) : Reads .value cs (skipGap rest)
  | table {cs inner rest : List Char} (hfront : skipGap cs = '\x7b' :: inner)
      (hpairs : Reads .pairs inner rest) : Reads .value cs (skipGap rest)
  | bare {cs : List Char} (hbare : ¬IsOpened (skipGap cs)) :
      Reads .value cs (skipGap ((skipGap cs).dropWhile (!isDelimiter ·)))
  | noItem (rest : List Char) : Reads .items (']' :: rest) rest
  | lastItem {cs rest : List Char} (hopen : cs.head? ≠ some ']')
      (hitem : Reads .value cs (']' :: rest)) : Reads .items cs rest
  | nextItem {cs behind rest : List Char} (hopen : cs.head? ≠ some ']')
      (hitem : Reads .value cs (',' :: behind)) (hitems : Reads .items behind rest) :
      Reads .items cs rest
  | noPair (rest : List Char) : Reads .pairs ('\x7d' :: rest) rest
  | lastPair {cs equals spelled rest : List Char} {name : String} (hopen : cs.head? ≠ some '\x7d')
      (hkey : key? (skipGap cs) = some (name, equals)) (hequals : skipGap equals = '=' :: spelled)
      (hvalue : Reads .value spelled ('\x7d' :: rest)) : Reads .pairs cs rest
  | nextPair {cs equals spelled behind rest : List Char} {name : String}
      (hopen : cs.head? ≠ some '\x7d') (hkey : key? (skipGap cs) = some (name, equals))
      (hequals : skipGap equals = '=' :: spelled) (hvalue : Reads .value spelled (',' :: behind))
      (hpairs : Reads .pairs behind rest) : Reads .pairs cs rest

/-! ## The reader, one step at a time -/

/-- What the reader finds at the front of a text without blank space before it. -/
inductive Front (fuel : Nat) (cs : List Char) : Tree → List Char → Prop
  | yes {rest : List Char} (hcs : cs = "true".toList ++ rest) : Front fuel cs (.bool true) rest
  | no {rest : List Char} (hcs : cs = "false".toList ++ rest) : Front fuel cs (.bool false) rest
  | quoted {inner rest : List Char} {s : String} (hcs : cs = '"' :: inner)
      (htext : Toml.lineText? '"' inner = some (s, rest)) : Front fuel cs (.text s) rest
  | character {rest : List Char} {c : Char} (hcs : cs = '\'' :: c :: '\'' :: rest) :
      Front fuel cs (.text (String.singleton c)) rest
  | list {inner rest : List Char} {items : List Tree} (hcs : cs = '[' :: inner)
      (hitems : items? fuel [] inner = some (items, rest)) : Front fuel cs (.list items) rest
  | table {inner rest : List Char} {fields : List (String × Tree)} (hcs : cs = '\x7b' :: inner)
      (hpairs : pairs? fuel [] inner = some (fields, rest)) : Front fuel cs (.table fields) rest
  | bare (hbare : ¬IsOpened cs) :
      Front fuel cs (bare (cs.takeWhile (!isDelimiter ·))) (cs.dropWhile (!isDelimiter ·))

theorem head?_ne_of_no_match {cs : List Char} {c : Char} (hcs : ∀ rest, cs = c :: rest → False) :
    cs.head? ≠ some c := by
  intro hhead
  obtain ⟨rest, rfl⟩ := List.head?_eq_some_iff.mp hhead
  exact hcs rest rfl

/-- The characters that open a value are none of those before it. -/
theorem not_isOpened_of_no_match {cs : List Char}
    (htrue : ∀ rest, cs = 't' :: 'r' :: 'u' :: 'e' :: rest → False)
    (hfalse : ∀ rest, cs = 'f' :: 'a' :: 'l' :: 's' :: 'e' :: rest → False)
    (hbrace : ∀ rest, cs = '\x7b' :: rest → False) (hbracket : ∀ rest, cs = '[' :: rest → False)
    (hquote : ∀ rest, cs = '"' :: rest → False) (hmark : ∀ rest, cs = '\'' :: rest → False) :
    ¬IsOpened cs := by
  rintro (⟨rest, hcs⟩ | ⟨rest, hcs⟩ | ⟨c, hc, hopen⟩)
  · exact htrue rest hcs.symm
  · exact hfalse rest hcs.symm
  · rcases hopen with rfl | rfl | rfl | rfl
    · exact head?_ne_of_no_match hbrace hc
    · exact head?_ne_of_no_match hbracket hc
    · exact head?_ne_of_no_match hquote hc
    · exact head?_ne_of_no_match hmark hc

theorem value?_succ_iff {fuel : Nat} {cs rest : List Char} {tree : Tree} :
    value? (fuel + 1) cs = some (tree, rest) ↔
      ∃ behind, Front fuel (skipGap cs) tree behind ∧ rest = skipGap behind := by
  unfold value?
  generalize skipGap cs = cs
  simp only [Option.bind_eq_bind]
  constructor
  · intro hread
    split at hread
    next =>
      cases hread
      exact ⟨_, .yes rfl, rfl⟩
    next =>
      cases hread
      exact ⟨_, .no rfl, rfl⟩
    next =>
      obtain ⟨_, hfront, hread⟩ := Option.bind_eq_some_iff.mp hread
      obtain ⟨_, hpairs, rfl⟩ := Option.map_eq_some_iff.mp hfront
      cases hread
      exact ⟨_, .table rfl hpairs, rfl⟩
    next =>
      obtain ⟨_, hfront, hread⟩ := Option.bind_eq_some_iff.mp hread
      obtain ⟨_, hitems, rfl⟩ := Option.map_eq_some_iff.mp hfront
      cases hread
      exact ⟨_, .list rfl hitems, rfl⟩
    next =>
      obtain ⟨_, hfront, hread⟩ := Option.bind_eq_some_iff.mp hread
      obtain ⟨_, htext, rfl⟩ := Option.map_eq_some_iff.mp hfront
      cases hread
      exact ⟨_, .quoted rfl htext, rfl⟩
    next =>
      split at hread
      next =>
        cases hread
        exact ⟨_, .character rfl, rfl⟩
      next => cases hread
    -- None of the openings before has matched, which is what a bare value is.
    next htrue hfalse hbrace hbracket hquote hmark =>
      cases hread
      exact ⟨_, .bare (not_isOpened_of_no_match htrue hfalse hbrace hbracket hquote hmark), rfl⟩
  · rintro ⟨behind, hfront, rfl⟩
    cases hfront with
    | yes hcs => subst hcs; rfl
    | no hcs => subst hcs; rfl
    | quoted hcs htext =>
        subst hcs
        simp [htext]
    | character hcs => subst hcs; rfl
    | list hcs hitems =>
        subst hcs
        simp [hitems]
    | table hcs hpairs =>
        subst hcs
        simp [hpairs]
    | bare hbare =>
        -- The first six branches begin as no bare value does.
        split
        next => exact absurd (Or.inl ⟨_, rfl⟩) hbare
        next => exact absurd (Or.inr (Or.inl ⟨_, rfl⟩)) hbare
        next => exact absurd (Or.inr (Or.inr ⟨_, rfl, by simp⟩)) hbare
        next => exact absurd (Or.inr (Or.inr ⟨_, rfl, by simp⟩)) hbare
        next => exact absurd (Or.inr (Or.inr ⟨_, rfl, by simp⟩)) hbare
        next => exact absurd (Or.inr (Or.inr ⟨_, rfl, by simp⟩)) hbare
        next => rfl

theorem items?_succ_iff {fuel : Nat} {done items : List Tree} {cs rest : List Char} :
    items? (fuel + 1) done cs = some (items, rest) ↔
      cs = ']' :: rest ∧ items = done.reverse ∨
      cs.head? ≠ some ']' ∧ ∃ item behind, value? fuel cs = some (item, behind) ∧
        (behind = ']' :: rest ∧ items = (item :: done).reverse ∨
          ∃ more, behind = ',' :: more ∧ items? fuel (item :: done) more = some (items, rest)) := by
  constructor
  · intro hread
    unfold items? at hread
    split at hread
    next =>
      cases hread
      exact Or.inl ⟨rfl, rfl⟩
    next hopen =>
      have hhead : cs.head? ≠ some ']' := head?_ne_of_no_match hopen
      obtain ⟨⟨item, behind⟩, hitem, hread⟩ := Option.bind_eq_some_iff.mp hread
      dsimp only at hread
      refine Or.inr ⟨hhead, item, behind, hitem, ?_⟩
      split at hread
      next more => exact Or.inr ⟨more, rfl, hread⟩
      next =>
        cases hread
        exact Or.inl ⟨rfl, rfl⟩
      next => cases hread
  · rintro (⟨rfl, rfl⟩ | ⟨hhead, item, behind, hitem, hbehind⟩)
    · rw [items?]
    · unfold items?
      split
      next => exact absurd rfl hhead
      next =>
        rw [hitem]
        rcases hbehind with ⟨rfl, rfl⟩ | ⟨more, rfl, hmore⟩
        · rfl
        · exact hmore

theorem pairs?_succ_iff {fuel : Nat} {done fields : List (String × Tree)} {cs rest : List Char} :
    pairs? (fuel + 1) done cs = some (fields, rest) ↔
      cs = '\x7d' :: rest ∧ fields = done ∨
      cs.head? ≠ some '\x7d' ∧ ∃ name equals spelled value behind,
        key? (skipGap cs) = some (name, equals) ∧ skipGap equals = '=' :: spelled ∧
        value? fuel spelled = some (value, behind) ∧
        (behind = '\x7d' :: rest ∧ fields = Tree.setField done name value ∨
          ∃ more, behind = ',' :: more ∧
            pairs? fuel (Tree.setField done name value) more = some (fields, rest)) := by
  constructor
  · intro hread
    unfold pairs? at hread
    split at hread
    next =>
      cases hread
      exact Or.inl ⟨rfl, rfl⟩
    next hopen =>
      have hhead : cs.head? ≠ some '\x7d' := head?_ne_of_no_match hopen
      obtain ⟨⟨name, equals⟩, hkey, hread⟩ := Option.bind_eq_some_iff.mp hread
      dsimp only at hread
      split at hread
      next spelled hequals =>
        obtain ⟨⟨value, behind⟩, hvalue, hread⟩ := Option.bind_eq_some_iff.mp hread
        dsimp only at hread
        refine Or.inr ⟨hhead, name, equals, spelled, value, behind, hkey, hequals, hvalue, ?_⟩
        split at hread
        next more => exact Or.inr ⟨more, rfl, hread⟩
        next =>
          cases hread
          exact Or.inl ⟨rfl, rfl⟩
        next => cases hread
      next => cases hread
  · rintro (⟨rfl, rfl⟩ | ⟨hhead, name, equals, spelled, value, behind, hkey, hequals, hvalue, hbehind⟩)
    · rw [pairs?]
    · unfold pairs?
      split
      next => exact absurd rfl hhead
      next =>
        simp only [Option.bind_eq_bind, hkey, Option.bind_some, hequals, hvalue]
        rcases hbehind with ⟨rfl, rfl⟩ | ⟨more, rfl, hmore⟩
        · rfl
        · exact hmore

/-! ## The reader and the grammar -/

/-- Whatever the reader reads, the grammar admits. -/
theorem reads_of_fuel (fuel : Nat) :
    (∀ {cs rest : List Char} {tree : Tree}, value? fuel cs = some (tree, rest) →
      Reads .value cs rest) ∧
    (∀ {done items : List Tree} {cs rest : List Char}, items? fuel done cs = some (items, rest) →
      Reads .items cs rest) ∧
    ∀ {done fields : List (String × Tree)} {cs rest : List Char},
      pairs? fuel done cs = some (fields, rest) → Reads .pairs cs rest := by
  -- The three readers call each other with less fuel, so the three statements are proved at once.
  induction fuel with
  | zero => exact ⟨nofun, nofun, nofun⟩
  | succ fuel ih =>
      obtain ⟨hvalue, hitems, hpairs⟩ := ih
      refine ⟨?_, ?_, ?_⟩
      · intro cs rest tree hread
        obtain ⟨behind, hfront, rfl⟩ := value?_succ_iff.mp hread
        cases hfront with
        | yes hcs => exact .truth "true" (Or.inl rfl) hcs
        | no hcs => exact .truth "false" (Or.inr rfl) hcs
        | quoted hcs htext => exact .quoted hcs htext
        | character hcs => exact .character hcs
        | list hcs hread => exact .list hcs (hitems hread)
        | table hcs hread => exact .table hcs (hpairs hread)
        | bare hbare => exact .bare hbare
      · intro done items cs rest hread
        rcases items?_succ_iff.mp hread with
          ⟨rfl, -⟩ | ⟨hopen, item, behind, hitem, ⟨rfl, -⟩ | ⟨more, rfl, hmore⟩⟩
        · exact .noItem rest
        · exact .lastItem hopen (hvalue hitem)
        · exact .nextItem hopen (hvalue hitem) (hitems hmore)
      · intro done fields cs rest hread
        rcases pairs?_succ_iff.mp hread with
          ⟨rfl, -⟩ | ⟨hopen, name, equals, spelled, value, behind, hkey, hequals, hspelled,
            ⟨rfl, -⟩ | ⟨more, rfl, hmore⟩⟩
        · exact .noPair rest
        · exact .lastPair hopen hkey hequals (hvalue hspelled)
        · exact .nextPair hopen hkey hequals (hvalue hspelled) (hpairs hmore)

/-! ## What is left -/

theorem escapeCode?_suffix {count : Nat} {cs rest : List Char} {c : Char}
    (hread : Toml.escapeCode? count cs = some (c, rest)) : rest <:+ cs := by
  simp only [Toml.escapeCode?, Option.bind_eq_bind, Option.bind_eq_some_iff] at hread
  obtain ⟨code, -, hread⟩ := hread
  split at hread
  · cases hread
    exact List.drop_suffix count cs
  · cases hread

/-- An escape takes one character at least. -/
theorem escape?_suffix {cs rest : List Char} {c : Char} (hread : Toml.escape? cs = some (c, rest)) :
    rest <:+ cs ∧ rest.length < cs.length := by
  have hmark : ∀ {mark : Char} {tail : List Char}, rest <:+ tail →
      rest <:+ mark :: tail ∧ rest.length < (mark :: tail).length := fun hrest =>
    ⟨hrest.trans (List.suffix_cons _ _), Nat.lt_succ_of_le hrest.length_le⟩
  unfold Toml.escape? at hread
  split at hread
  case h_8 => exact hmark (escapeCode?_suffix hread)
  case h_9 => exact hmark (escapeCode?_suffix hread)
  case h_10 => cases hread
  all_goals
    cases hread
    exact hmark List.suffix_rfl

/-- A quoted text is shorter than what it is read from. -/
theorem lineChars?_suffix {quote : Char} {fuel : Nat} {done cs rest : List Char} {s : String}
    (hread : Toml.lineChars? quote fuel done cs = some (s, rest)) :
    rest <:+ cs ∧ s.length + rest.length < done.length + cs.length := by
  induction fuel generalizing done cs with
  | zero => cases cs <;> cases hread
  | succ fuel ih =>
      cases cs with
      | nil => cases hread
      | cons c tail =>
          have hcons := List.suffix_cons c tail
          rw [Toml.lineChars?] at hread
          split at hread
          next =>
            cases hread
            exact ⟨hcons, by simp⟩
          next =>
            split at hread
            next =>
              split at hread
              next hescape =>
                -- What an escape adds is no longer than the escape.
                obtain ⟨hbehind, hshorter⟩ := escape?_suffix hescape
                obtain ⟨hrest, hlength⟩ := ih hread
                rw [List.length_cons] at hlength ⊢
                exact ⟨hrest.trans (hbehind.trans hcons), by omega⟩
              next => cases hread
            next =>
              split at hread
              next =>
                obtain ⟨hrest, hlength⟩ := ih hread
                rw [List.length_cons] at hlength ⊢
                exact ⟨hrest.trans hcons, by omega⟩
              next => cases hread

theorem key?_suffix {cs rest : List Char} {name : String} (hread : key? cs = some (name, rest)) :
    rest <:+ cs := by
  unfold key? at hread
  split at hread
  next => exact (lineChars?_suffix hread).1.trans (List.suffix_cons _ _)
  next =>
    dsimp only at hread
    split at hread
    next => cases hread
    next =>
      cases hread
      exact List.dropWhile_suffix _

theorem skipGap_suffix (cs : List Char) : skipGap cs <:+ cs :=
  List.dropWhile_suffix _

theorem front_suffix {cs front : List Char} (hfront : skipGap cs = front) : front <:+ cs :=
  hfront ▸ skipGap_suffix cs

theorem pair_suffix {cs equals spelled : List Char} {name : String}
    (hkey : key? (skipGap cs) = some (name, equals)) (hequals : skipGap equals = '=' :: spelled) :
    '=' :: spelled <:+ cs :=
  (front_suffix hequals).trans ((key?_suffix hkey).trans (skipGap_suffix cs))

/-- What is left behind a part is the end of the text. -/
theorem Reads.suffix {part : Part} {cs rest : List Char} (hreads : Reads part cs rest) :
    rest <:+ cs := by
  have hbehind : ∀ {c : Char} {inner cs : List Char}, c :: inner <:+ cs → inner <:+ cs :=
    fun hcs => (List.suffix_cons _ _).trans hcs
  induction hreads with
  | truth word _ hfront =>
      exact (skipGap_suffix _).trans ((List.suffix_append _ _).trans (front_suffix hfront))
  | quoted hfront htext =>
      exact (skipGap_suffix _).trans ((lineChars?_suffix htext).1.trans (hbehind (front_suffix hfront)))
  | character hfront =>
      exact (skipGap_suffix _).trans (hbehind (hbehind (hbehind (front_suffix hfront))))
  | list hfront _ ih => exact (skipGap_suffix _).trans (ih.trans (hbehind (front_suffix hfront)))
  | table hfront _ ih => exact (skipGap_suffix _).trans (ih.trans (hbehind (front_suffix hfront)))
  | bare => exact (skipGap_suffix _).trans ((List.dropWhile_suffix _).trans (skipGap_suffix _))
  | noItem rest => exact List.suffix_cons _ _
  | lastItem _ _ ih => exact hbehind ih
  | nextItem _ _ _ ih ih' => exact ih'.trans (hbehind ih)
  | noPair rest => exact List.suffix_cons _ _
  | lastPair _ hkey hequals _ ih => exact (hbehind ih).trans (hbehind (pair_suffix hkey hequals))
  | nextPair _ hkey hequals _ _ ih ih' =>
      exact ih'.trans ((hbehind ih).trans (hbehind (pair_suffix hkey hequals)))

theorem Front.suffix {fuel : Nat} {cs rest : List Char} {tree : Tree}
    (hfront : Front fuel cs tree rest) : rest <:+ cs := by
  cases hfront with
  | yes hcs => exact hcs ▸ List.suffix_append _ _
  | no hcs => exact hcs ▸ List.suffix_append _ _
  | quoted hcs htext =>
      rw [hcs]
      exact (lineChars?_suffix htext).1.trans (List.suffix_cons _ _)
  | character hcs =>
      rw [hcs]
      exact ((List.suffix_cons _ _).trans (List.suffix_cons _ _)).trans (List.suffix_cons _ _)
  | list hcs hitems =>
      rw [hcs]
      exact ((reads_of_fuel fuel).2.1 hitems).suffix.trans (List.suffix_cons _ _)
  | table hcs hpairs =>
      rw [hcs]
      exact ((reads_of_fuel fuel).2.2 hpairs).suffix.trans (List.suffix_cons _ _)
  | bare => exact List.dropWhile_suffix _

/-! ## Enough fuel -/

/-- The fuel that a part needs beyond two for each character. -/
def Part.extraFuel : Part → Nat
  | .value => 1
  | .items | .pairs => 2

/-- The reader reads the part, whatever came before it. -/
def Part.IsRead (fuel : Nat) (cs rest : List Char) : Part → Prop
  | .value => ∃ tree, value? fuel cs = some (tree, rest)
  | .items => ∀ done, ∃ items, items? fuel done cs = some (items, rest)
  | .pairs => ∀ done, ∃ fields, pairs? fuel done cs = some (fields, rest)

theorem exists_fuel {part : Part} {cs : List Char} {fuel : Nat}
    (hfuel : 2 * cs.length + part.extraFuel ≤ fuel) :
    ∃ less, fuel = less + 1 ∧ 2 * cs.length + part.extraFuel ≤ less + 1 := by
  have hpos : 1 ≤ part.extraFuel := by cases part <;> decide
  exact ⟨fuel - 1, by omega, by omega⟩

/-- Two steps for each character are enough: with each step into a list or table goes a bracket,
and with each item a comma or a bracket. -/
theorem Reads.isRead {part : Part} {cs rest : List Char} (hreads : Reads part cs rest) {fuel : Nat}
    (hfuel : 2 * cs.length + part.extraFuel ≤ fuel) : part.IsRead fuel cs rest := by
  induction hreads generalizing fuel with
  | truth word hword hfront =>
      obtain ⟨fuel, rfl, hfuel⟩ := exists_fuel hfuel
      rcases hword with rfl | rfl
      · exact ⟨_, value?_succ_iff.mpr ⟨_, .yes hfront, rfl⟩⟩
      · exact ⟨_, value?_succ_iff.mpr ⟨_, .no hfront, rfl⟩⟩
  | quoted hfront htext =>
      obtain ⟨fuel, rfl, hfuel⟩ := exists_fuel hfuel
      exact ⟨_, value?_succ_iff.mpr ⟨_, .quoted hfront htext, rfl⟩⟩
  | character hfront =>
      obtain ⟨fuel, rfl, hfuel⟩ := exists_fuel hfuel
      exact ⟨_, value?_succ_iff.mpr ⟨_, .character hfront, rfl⟩⟩
  | list hfront _ ih =>
      -- What is nested starts behind a bracket, which pays for the step into it.
      obtain ⟨fuel, rfl, hfuel⟩ := exists_fuel hfuel
      have hlength := (front_suffix hfront).length_le
      simp only [List.length_cons, Part.extraFuel] at hlength hfuel
      obtain ⟨items, hitems⟩ := @ih fuel (by simp only [Part.extraFuel]; omega) []
      exact ⟨_, value?_succ_iff.mpr ⟨_, .list hfront hitems, rfl⟩⟩
  | table hfront _ ih =>
      obtain ⟨fuel, rfl, hfuel⟩ := exists_fuel hfuel
      have hlength := (front_suffix hfront).length_le
      simp only [List.length_cons, Part.extraFuel] at hlength hfuel
      obtain ⟨fields, hpairs⟩ := @ih fuel (by simp only [Part.extraFuel]; omega) []
      exact ⟨_, value?_succ_iff.mpr ⟨_, .table hfront hpairs, rfl⟩⟩
  | bare hbare =>
      obtain ⟨fuel, rfl, hfuel⟩ := exists_fuel hfuel
      exact ⟨_, value?_succ_iff.mpr ⟨_, .bare hbare, rfl⟩⟩
  | noItem rest =>
      obtain ⟨fuel, rfl, hfuel⟩ := exists_fuel hfuel
      exact fun done => ⟨_, items?_succ_iff.mpr (Or.inl ⟨rfl, rfl⟩)⟩
  | lastItem hopen _ ih =>
      obtain ⟨fuel, rfl, hfuel⟩ := exists_fuel hfuel
      simp only [Part.extraFuel] at hfuel
      obtain ⟨item, hitem⟩ := @ih fuel (by simp only [Part.extraFuel]; omega)
      intro done
      exact ⟨_, items?_succ_iff.mpr (Or.inr ⟨hopen, item, _, hitem, Or.inl ⟨rfl, rfl⟩⟩)⟩
  | nextItem hopen hitem _ ih ih' =>
      -- The other items start behind a comma, and the item is shorter by it.
      obtain ⟨fuel, rfl, hfuel⟩ := exists_fuel hfuel
      have hlength := hitem.suffix.length_le
      simp only [List.length_cons, Part.extraFuel] at hlength hfuel
      obtain ⟨item, hread⟩ := @ih fuel (by simp only [Part.extraFuel]; omega)
      intro done
      obtain ⟨items, hmore⟩ := @ih' fuel (by simp only [Part.extraFuel]; omega) (item :: done)
      exact ⟨_, items?_succ_iff.mpr
        (Or.inr ⟨hopen, item, _, hread, Or.inr ⟨_, rfl, hmore⟩⟩)⟩
  | noPair rest =>
      obtain ⟨fuel, rfl, hfuel⟩ := exists_fuel hfuel
      exact fun done => ⟨_, pairs?_succ_iff.mpr (Or.inl ⟨rfl, rfl⟩)⟩
  | lastPair hopen hkey hequals _ ih =>
      obtain ⟨fuel, rfl, hfuel⟩ := exists_fuel hfuel
      have hlength := (pair_suffix hkey hequals).length_le
      simp only [List.length_cons, Part.extraFuel] at hlength hfuel
      obtain ⟨value, hvalue⟩ := @ih fuel (by simp only [Part.extraFuel]; omega)
      intro done
      exact ⟨_, pairs?_succ_iff.mpr
        (Or.inr ⟨hopen, _, _, _, value, _, hkey, hequals, hvalue, Or.inl ⟨rfl, rfl⟩⟩)⟩
  | nextPair hopen hkey hequals hvalue _ ih ih' =>
      obtain ⟨fuel, rfl, hfuel⟩ := exists_fuel hfuel
      have hlength := (pair_suffix hkey hequals).length_le
      have hlength' := hvalue.suffix.length_le
      simp only [List.length_cons, Part.extraFuel] at hlength hlength' hfuel
      obtain ⟨value, hread⟩ := @ih fuel (by simp only [Part.extraFuel]; omega)
      intro done
      obtain ⟨fields, hmore⟩ := @ih' fuel (by simp only [Part.extraFuel]; omega)
        (Tree.setField done _ value)
      exact ⟨_, pairs?_succ_iff.mpr
        (Or.inr ⟨hopen, _, _, _, value, _, hkey, hequals, hread, Or.inr ⟨_, rfl, hmore⟩⟩)⟩

/-! ## Whole texts -/

/-- The text is one value of another kind than a text. -/
inductive SpellsOther : List Char → Prop
  | truth (word : String) (hword : word = "true" ∨ word = "false") : SpellsOther word.toList
  | whole {cs : List Char} (hwhole : IsWhole cs) : SpellsOther cs
  | pointed {cs : List Char} (hpointed : IsPointed cs) : SpellsOther cs
  | list {inner : List Char} (hitems : Reads .items inner []) : SpellsOther ('[' :: inner)
  | table {inner : List Char} (hpairs : Reads .pairs inner []) : SpellsOther ('\x7b' :: inner)

/-- The text is another text in quotes, or one character in apostrophes. -/
inductive Quotes : List Char → String → Prop
  | line {inner : List Char} {s : String} (htext : Toml.lineText? '"' inner = some (s, [])) :
      Quotes ('"' :: inner) s
  | character (c : Char) : Quotes ['\'', c, '\''] (String.singleton c)

theorem Quotes.length_lt {cs : List Char} {s : String} (hquotes : Quotes cs s) :
    s.length < cs.length := by
  cases hquotes with
  | line htext =>
      have hlength := (lineChars?_suffix htext).2
      simp only [List.length_nil, List.length_cons] at hlength ⊢
      omega
  | character c => simp

theorem not_isOpened_of_chars {cs : List Char} (hchars : ∀ c ∈ cs, IsNumeralChar c) :
    ¬IsOpened cs := by
  rintro (⟨rest, rfl⟩ | ⟨rest, rfl⟩ | ⟨c, hc, hopen⟩)
  · simpa [IsNumeralChar] using hchars 't' (by simp)
  · simpa [IsNumeralChar] using hchars 'f' (by simp)
  · have hchar := hchars c (List.mem_of_mem_head? hc)
    rcases hopen with rfl | rfl | rfl | rfl <;> simp [IsNumeralChar] at hchar

theorem not_isGap_of_not_isBlank {c : Char} (hblank : Text.isBlank c = false) : isGap c = false := by
  rw [← Bool.not_eq_true, isGap, Bool.and_eq_true]
  rintro ⟨hascii, -⟩
  rw [Text.isBlank_of_isAsciiBlank hascii] at hblank
  cases hblank

variable {v : String}

section Trimmed

variable (htrim : Text.trim v = v)

include htrim

theorem strip_of_trim : Text.strip Text.isBlank v.toList = v.toList := by
  have htoList := congrArg String.toList htrim
  rwa [Text.trim, String.toList_ofList] at htoList

theorem skipGap_of_trim : skipGap v.toList = v.toList := by
  have hopens : ∀ c ∈ v.toList.head?, Text.isBlank c = false := by
    rw [← strip_of_trim htrim]
    exact fun c hc => Text.not_drop_of_mem_head?_strip hc
  cases hcs : v.toList with
  | nil => rfl
  | cons c rest =>
      rw [hcs] at hopens
      rw [skipGap, List.dropWhile_cons, not_isGap_of_not_isBlank (hopens c rfl)]
      rfl

/-- Blank space at the end of the text is none. -/
theorem eq_nil_of_skipGap {rest : List Char} (hrest : rest <:+ v.toList)
    (hgap : skipGap rest = []) : rest = [] := by
  have hcloses : ∀ c ∈ v.toList.getLast?, Text.isBlank c = false := by
    rw [← strip_of_trim htrim]
    exact fun c hc => Text.not_drop_of_mem_getLast?_strip hc
  by_contra hne
  have hlast := List.getLast?_eq_some_getLast hne
  have hnot : Text.isBlank (rest.getLast hne) = false := by
    obtain ⟨front, hfront⟩ := hrest
    apply hcloses
    rw [← hfront, List.getLast?_append, hlast]
    rfl
  have hblank : isGap (rest.getLast hne) = true :=
    List.dropWhile_eq_nil_iff.mp hgap _ (List.getLast_mem hne)
  rw [not_isGap_of_not_isBlank hnot] at hblank
  cases hblank

theorem value_of_front {tree : Tree} (hfront : Front (2 * v.toList.length + 1) v.toList tree []) :
    value v = tree := by
  have hread : value? (2 * v.toList.length + 2) v.toList = some (tree, []) :=
    value?_succ_iff.mpr ⟨[], by rwa [skipGap_of_trim htrim], rfl⟩
  simp only [value, hread]

theorem bare_of_trim : bare v.toList =
    match real? v.toList, whole? v.toList with
    | some x, _ => .real x
    | none, some n => .integer n
    | none, none => .text v := by
  rewrite [bare, strip_of_trim htrim, String.ofList_toList]
  rfl

/-- A number is read as one. -/
theorem value_of_numeral (hchars : ∀ c ∈ v.toList, IsNumeralChar c)
    (hread : (real? v.toList).isSome = true ∨ (whole? v.toList).isSome = true) (s : String) :
    value v ≠ .text s := by
  have hplain : ∀ c ∈ v.toList, (!isDelimiter c) = true := fun c hc => by
    rw [not_isDelimiter_of_isNumeralChar (hchars c hc), Bool.not_false]
  have hfront := @Front.bare (2 * v.toList.length + 1) _ (not_isOpened_of_chars hchars)
  rw [List.takeWhile_eq_self_iff.mpr hplain, List.dropWhile_eq_nil_iff.mpr hplain] at hfront
  rw [value_of_front htrim hfront, bare_of_trim htrim]
  cases hreal : real? v.toList with
  | some x => exact nofun
  | none =>
      rw [hreal] at hread
      obtain ⟨n, hn⟩ := Option.isSome_iff_exists.mp (hread.resolve_left nofun)
      rw [hn]
      exact nofun

/-- What spells a value of another kind is not read as a text. -/
theorem value_of_spellsOther (hother : SpellsOther v.toList) (s : String) : value v ≠ .text s := by
  generalize hcs : v.toList = cs at hother
  cases hother with
  | truth word hword =>
      rcases hword with rfl | rfl
      · rw [value_of_front htrim (.yes (hcs.trans (List.append_nil _).symm))]
        exact nofun
      · rw [value_of_front htrim (.no (hcs.trans (List.append_nil _).symm))]
        exact nofun
  | whole hwhole =>
      subst hcs
      exact value_of_numeral htrim hwhole.chars (Or.inr (isSome_whole?_iff.mpr hwhole)) s
  | pointed hpointed =>
      subst hcs
      exact value_of_numeral htrim hpointed.chars (Or.inl (isSome_real?_iff.mpr hpointed)) s
  | @list inner hitems =>
      have hfuel : 2 * inner.length + Part.items.extraFuel ≤ 2 * v.toList.length + 1 := by
        simp only [hcs, List.length_cons, Part.extraFuel]
        omega
      obtain ⟨items, hread⟩ := hitems.isRead hfuel []
      rw [value_of_front htrim (.list hcs hread)]
      exact nofun
  | @table inner hpairs =>
      have hfuel : 2 * inner.length + Part.pairs.extraFuel ≤ 2 * v.toList.length + 1 := by
        simp only [hcs, List.length_cons, Part.extraFuel]
        omega
      obtain ⟨fields, hread⟩ := hpairs.isRead hfuel []
      rw [value_of_front htrim (.table hcs hread)]
      exact nofun

/-- What is quoted is read as the text in the quotes. -/
theorem value_of_quotes {s : String} (hquotes : Quotes v.toList s) : value v = .text s := by
  generalize hcs : v.toList = cs at hquotes
  cases hquotes with
  | line htext => exact value_of_front htrim (.quoted hcs htext)
  | character c => exact value_of_front htrim (.character hcs)

/-- What neither spells another value nor is quoted is read as it stands. -/
theorem value_of_plain (hother : ¬SpellsOther v.toList) (hquotes : ∀ s, ¬Quotes v.toList s) :
    value v = .text v := by
  unfold value
  dsimp only
  split
  next tree hread =>
    obtain ⟨behind, hfront, hbehind⟩ := value?_succ_iff.mp hread
    rw [skipGap_of_trim htrim] at hfront
    have hnil : behind = [] := eq_nil_of_skipGap htrim hfront.suffix hbehind.symm
    cases hfront with
    | yes hcs =>
        rw [hcs, hnil, List.append_nil] at hother
        exact absurd (.truth "true" (Or.inl rfl)) hother
    | no hcs =>
        rw [hcs, hnil, List.append_nil] at hother
        exact absurd (.truth "false" (Or.inr rfl)) hother
    | quoted hcs htext =>
        rw [hcs] at hquotes
        exact absurd (.line (hnil ▸ htext)) (hquotes _)
    | character hcs =>
        rw [hcs, hnil] at hquotes
        exact absurd (.character _) (hquotes _)
    | list hcs hitems =>
        rw [hcs] at hother
        exact absurd (.list (hnil ▸ (reads_of_fuel _).2.1 hitems)) hother
    | table hcs hpairs =>
        rw [hcs] at hother
        exact absurd (.table (hnil ▸ (reads_of_fuel _).2.2 hpairs)) hother
    | bare =>
        -- A bare value that is neither number stays the text that it is.
        have hplain := List.dropWhile_eq_nil_iff.mp hnil
        have hreal : real? v.toList = none := by
          rw [← Option.not_isSome_iff_eq_none, isSome_real?_iff]
          exact fun hpointed => hother (.pointed hpointed)
        have hwhole : whole? v.toList = none := by
          rw [← Option.not_isSome_iff_eq_none, isSome_whole?_iff]
          exact fun hwhole => hother (.whole hwhole)
        rw [List.takeWhile_eq_self_iff.mpr hplain, bare_of_trim htrim, hreal, hwhole]
  next => rfl

/-- A text is read as itself exactly if it neither spells another value nor is quoted. -/
theorem value_eq_self_iff :
    value v = .text v ↔ ¬SpellsOther v.toList ∧ ∀ s, ¬Quotes v.toList s := by
  constructor
  · intro hself
    refine ⟨fun hother => value_of_spellsOther htrim hother v hself, fun s hquotes => ?_⟩
    have hlength := hquotes.length_lt
    rw [value_of_quotes htrim hquotes] at hself
    cases hself
    rw [String.length_toList] at hlength
    exact lt_irrefl _ hlength
  · rintro ⟨hother, hquotes⟩
    exact value_of_plain htrim hother hquotes

end Trimmed

end ComicCatalog.Variables
