import ComicCatalog.Net.Message
import ComicCatalog.Proofs.Text.Bytes
import ComicCatalog.Proofs.Text.Runs
import ComicCatalog.Web.Request

/-! # Parameters as they are written

A text can be written as a value in many ways: characters without a meaning of their own may
stand for themselves, a plus sign may stand for a space, and every byte may be escaped, with
digits in either case. However it is written, the text is what is read, and every text can be
written.
-/

namespace ComicCatalog

namespace Params

/-- The signs that may stand in a query and have no meaning of their own in a value. -/
def harmlessSigns : List Char :=
  ['-', '.', '_', '~', '!', '$', '\'', '(', ')', '*', ',', ';', ':', '@', '/', '?', '=']

/-- Characters that may stand for themselves in a value. -/
def isHarmless (c : Char) : Bool :=
  c.isAlphanum || harmlessSigns.contains c

/-- What may be written for the bytes of a text. -/
inductive Written : List Char → Bytes → Prop
  | nil : Written [] []
  | plain {c : Char} (hharmless : isHarmless c = true) {written : List Char} {bytes : Bytes}
      (hrest : Written written bytes) : Written (c :: written) (UInt8.ofNat c.toNat :: bytes)
  | space {written : List Char} {bytes : Bytes} (hrest : Written written bytes) :
      Written ('+' :: written) (32 :: bytes)
  | escaped {byte : UInt8} {high low : Char} (hhigh : Text.hexDigit? high = some (byte.toNat / 16))
      (hlow : Text.hexDigit? low = some (byte.toNat % 16)) {written : List Char} {bytes : Bytes}
      (hrest : Written written bytes) : Written ('%' :: high :: low :: written) (byte :: bytes)

/-- A name of letters and digits, an equals sign, and what may be written for the value. -/
structure GivesOne (part : List Char) (param : String × String) : Prop where
  name : ∀ c ∈ param.1.toList, c.isAlphanum = true
  value : ∃ written, Written written (Bytes.ofText param.2) ∧ part = param.1.toList ++ '=' :: written

/-- The query gives these named values, with ampersands between them. -/
def Gives (query : String) (params : List (String × String)) : Prop :=
  ∃ parts, List.Forall₂ GivesOne parts params ∧ query.toList = List.intercalate ['&'] parts

/-! ## Characters -/

theorem ascii_of_isAlphanum {c : Char} (halnum : c.isAlphanum = true) : c.toNat < 128 := by
  simp only [Char.isAlphanum, Char.isAlpha, Char.isUpper, Char.isLower, Char.isDigit,
    Bool.or_eq_true, Bool.and_eq_true, decide_eq_true_eq] at halnum
  have hval : c.toNat = c.val.toNat := rfl
  have hle : ∀ {bound : UInt32}, c.val ≤ bound → c.val.toNat ≤ bound.toNat := fun hle => hle
  rcases halnum with (⟨-, hupper⟩ | ⟨-, hlower⟩) | ⟨-, hdigit⟩
  · exact hval ▸ Nat.lt_of_le_of_lt (hle hupper) (by decide)
  · exact hval ▸ Nat.lt_of_le_of_lt (hle hlower) (by decide)
  · exact hval ▸ Nat.lt_of_le_of_lt (hle hdigit) (by decide)

theorem ascii_of_isHarmless {c : Char} (hharmless : isHarmless c = true) : c.toNat < 128 := by
  simp only [isHarmless, Bool.or_eq_true, List.contains_iff_mem] at hharmless
  rcases hharmless with halnum | hsign
  · exact ascii_of_isAlphanum halnum
  · have hsigns : ∀ d ∈ harmlessSigns, d.toNat < 128 := by simp [harmlessSigns]
    exact hsigns c hsign

/-- The signs that structure a query. -/
def isSign (c : Char) : Bool :=
  c = '+' || c = '&' || c = '#' || c = '%'

theorem not_sign_of_isHarmless {c : Char} (hharmless : isHarmless c = true) : isSign c = false := by
  cases hsign : isSign c with
  | false => rfl
  | true =>
      simp only [isSign, Bool.or_eq_true, decide_eq_true_eq] at hsign
      rcases hsign with ((rfl | rfl) | rfl) | rfl <;> exact absurd hharmless (by decide)

theorem not_sign_of_digit {c : Char} {digit : Nat} (hdigit : Text.hexDigit? c = some digit) :
    isSign c = false := by
  cases hsign : isSign c with
  | false => rfl
  | true =>
      simp only [isSign, Bool.or_eq_true, decide_eq_true_eq] at hsign
      rcases hsign with ((rfl | rfl) | rfl) | rfl <;> exact absurd hdigit (by simp [Text.hexDigit?])

/-- Written values hold neither ampersands nor number signs. -/
theorem Written.not_mem {written : List Char} {bytes : Bytes} (hwritten : Written written bytes)
    {sign : Char} (hsign : sign = '&' ∨ sign = '#') : sign ∉ written := by
  have hstops : isSign sign = true := by rcases hsign with rfl | rfl <;> rfl
  have hother : ∀ c, isSign c = false → sign ≠ c := by
    rintro c hc rfl
    rw [hstops] at hc
    cases hc
  induction hwritten with
  | nil => exact List.not_mem_nil
  | plain hharmless _ ih =>
      rw [List.mem_cons, not_or]
      exact ⟨hother _ (not_sign_of_isHarmless hharmless), ih⟩
  | space _ ih =>
      rw [List.mem_cons, not_or]
      exact ⟨by rcases hsign with rfl | rfl <;> decide, ih⟩
  | escaped hhigh hlow _ ih =>
      simp only [List.mem_cons, not_or]
      exact ⟨by rcases hsign with rfl | rfl <;> decide, hother _ (not_sign_of_digit hhigh),
        hother _ (not_sign_of_digit hlow), ih⟩

/-! ## Reading what is written -/

theorem decode_cons {c : Char} (hc : c ≠ '%') (rest : List Char) :
    Escape.decode (c :: rest) = String.utf8EncodeChar c ++ Escape.decode rest := by
  rw [Escape.decode.eq_2, Bytes.ofText_singleton]
  rintro high low tail rfl
  exact absurd rfl hc

theorem decode_written {written : List Char} {bytes : Bytes} (hwritten : Written written bytes) :
    Escape.decode (written.map fun c => if c = '+' then ' ' else c) = bytes := by
  have hkept : ∀ c, isSign c = false → (if c = '+' then ' ' else c) = c := by
    rintro c hc
    rw [if_neg]
    rintro rfl
    exact absurd hc (by decide)
  induction hwritten with
  | nil => rfl
  | @plain c hharmless written bytes _ ih =>
      have hescape : c ≠ '%' := by
        rintro rfl
        exact absurd hharmless (by decide)
      rw [List.map_cons, hkept c (not_sign_of_isHarmless hharmless), decode_cons hescape, ih,
        Bytes.utf8EncodeChar_of_ascii (ascii_of_isHarmless hharmless), List.singleton_append]
  | space _ ih =>
      rw [List.map_cons, if_pos rfl, decode_cons (by decide), ih,
        Bytes.utf8EncodeChar_of_ascii (by decide)]
      rfl
  | @escaped byte high low hhigh hlow written bytes _ ih =>
      have hbyte : byte.toNat / 16 * 16 + byte.toNat % 16 = byte.toNat := by omega
      rw [List.map_cons, List.map_cons, List.map_cons, if_neg (by decide),
        hkept high (not_sign_of_digit hhigh), hkept low (not_sign_of_digit hlow)]
      simp only [Escape.decode, hhigh, hlow, hbyte, UInt8.ofNat_toNat, ih]

theorem component_written {written : List Char} {s : String}
    (hwritten : Written written (Bytes.ofText s)) : component written = s := by
  rw [component, decode_written hwritten, Bytes.text_ofText]

/-- A name of letters and digits is written as it is. -/
theorem written_name {name : String} (hname : ∀ c ∈ name.toList, c.isAlphanum = true) :
    Written name.toList (Bytes.ofText name) := by
  have hascii : ∀ c ∈ name.toList, c.toNat < 128 := fun c hc => ascii_of_isAlphanum (hname c hc)
  rw [← String.ofList_toList (s := name), Bytes.ofText_of_ascii hascii, String.toList_ofList]
  clear hascii
  generalize name.toList = cs at hname
  induction cs with
  | nil => exact .nil
  | cons c rest ih =>
      refine .plain (by rw [isHarmless, hname c List.mem_cons_self, Bool.true_or]) (ih ?_)
      exact fun d hd => hname d (List.mem_cons_of_mem c hd)

theorem GivesOne.ne_sign {part : List Char} {param : String × String} (hpart : GivesOne part param)
    {sign : Char} (hsign : sign = '&' ∨ sign = '#') : sign ∉ part := by
  obtain ⟨written, hwritten, rfl⟩ := hpart.value
  rw [List.mem_append, List.mem_cons, not_or, not_or]
  exact ⟨(written_name hpart.name).not_mem hsign, by rcases hsign with rfl | rfl <;> decide,
    hwritten.not_mem hsign⟩

theorem pair_of_givesOne {part : List Char} {param : String × String}
    (hpart : GivesOne part param) : pair part = param := by
  obtain ⟨written, hwritten, rfl⟩ := hpart.value
  have hname : ∀ c ∈ param.1.toList, (c != '=') = true := by
    intro c hc
    rw [bne_iff_ne]
    rintro rfl
    exact absurd (hpart.name _ hc) (by decide)
  have hstop : ∀ c ∈ ('=' :: written).head?, (c != '=') = false := by
    rintro c ⟨⟩
    rfl
  rw [pair, Text.takeWhile_run hname hstop, Text.dropWhile_run hname hstop, List.drop_one,
    List.tail_cons, component_written (written_name hpart.name), component_written hwritten]

/-- A query is read as the named values that it gives. -/
theorem ofQuery_of_gives {query : String} {params : List (String × String)}
    (hgives : Gives query params) : ofQuery query = params := by
  obtain ⟨parts, hparts, hquery⟩ := hgives
  have hpairs : parts.map pair = params := by
    clear hquery
    induction hparts with
    | nil => rfl
    | cons hpart _ ih => rw [List.map_cons, pair_of_givesOne hpart, ih]
  have hsplit : (query.toList.splitOn '&').filter (!·.isEmpty) = parts := by
    by_cases hnone : parts = []
    · rw [hquery, hnone]
      rfl
    have hpart : ∀ part ∈ parts, ∃ param, GivesOne part param := by
      intro part hmem
      obtain ⟨i, hi, rfl⟩ := List.mem_iff_getElem.mp hmem
      exact ⟨_, hparts.get hi (hparts.length_eq ▸ hi)⟩
    rw [hquery, List.splitOn_intercalate '&' _ hnone]
    · rw [List.filter_eq_self]
      intro part hmem
      obtain ⟨param, hparam⟩ := hpart part hmem
      obtain ⟨written, -, rfl⟩ := hparam.value
      cases param.1.toList <;> rfl
    · intro part hmem
      obtain ⟨param, hparam⟩ := hpart part hmem
      exact hparam.ne_sign (Or.inl rfl)
  rw [ofQuery, hsplit, hpairs]

/-- Names that come once are never repeated, and other names do not matter. -/
theorem repeated?_eq_none {names seen : List String} {params : List (String × String)}
    (hdistinct : ((params.map Prod.fst).filter (· ∈ names)).Nodup)
    (hseen : ∀ name ∈ seen, name ∈ names ∧ name ∉ params.map Prod.fst) :
    repeated? names seen params = none := by
  -- The names seen so far do not come again.
  induction params generalizing seen with
  | nil => rfl
  | cons param rest ih =>
      have hfirst : param.1 ∉ seen := fun hmem => (hseen _ hmem).2 List.mem_cons_self
      have hothers : ∀ name ∈ seen, name ∈ names ∧ name ∉ rest.map Prod.fst := fun name hmem =>
        ⟨(hseen name hmem).1, fun hrest => (hseen name hmem).2 (List.mem_cons_of_mem _ hrest)⟩
      rw [repeated?, if_neg hfirst]
      by_cases hname : param.1 ∈ names
      · rw [List.map_cons, List.filter_cons_of_pos (by simpa using hname), List.nodup_cons] at hdistinct
        rw [if_pos hname]
        refine ih hdistinct.2 (List.forall_mem_cons.mpr ⟨⟨hname, fun hrest => ?_⟩, hothers⟩)
        exact hdistinct.1 (List.mem_filter.mpr ⟨hrest, by simpa using hname⟩)
      · rw [List.map_cons, List.filter_cons_of_neg (by simpa using hname)] at hdistinct
        rw [if_neg hname]
        exact ih hdistinct hothers

theorem read_of_gives {names : List String} {query : String} {params : List (String × String)}
    (hgives : Gives query params) (hdistinct : ((params.map Prod.fst).filter (· ∈ names)).Nodup) :
    read names query = .ok params := by
  rw [read, ofQuery_of_gives hgives, repeated?_eq_none hdistinct (by simp)]

/-! ## Writing -/

theorem hexDigit?_upperDigit {n : Nat} (hn : n < 16) :
    Text.hexDigit? (Escape.upperDigit n) = some n := by
  have hdigits : ∀ digit : Fin 16, Text.hexDigit? (Escape.upperDigit digit) = some digit.val := by
    decide
  exact hdigits ⟨n, hn⟩

theorem isHarmless_of_isSafe {c : Char} (hsafe : isSafe c = true) : isHarmless c = true := by
  simp only [isSafe, Bool.or_eq_true, decide_eq_true_eq] at hsafe
  rcases hsafe with (((halnum | rfl) | rfl) | rfl) | rfl
  · rw [isHarmless, halnum, Bool.true_or]
  all_goals decide

theorem Written.escapes (bytes : Bytes) {written : List Char} {rest : Bytes}
    (hrest : Written written rest) : Written (bytes.flatMap Escape.byte ++ written) (bytes ++ rest) := by
  induction bytes with
  | nil => exact hrest
  | cons byte bytes ih =>
      have hsize : byte.toNat < 256 := byte.toNat_lt
      exact .escaped (hexDigit?_upperDigit (by omega)) (hexDigit?_upperDigit (by omega)) ih

/-- Every text can be written. -/
theorem written_escaped (s : String) : Written (escaped s).toList (Bytes.ofText s) := by
  rw [escaped, Escape.encode, String.toList_ofList]
  conv_rhs => rw [← String.ofList_toList (s := s), Bytes.ofText_ofList]
  induction s.toList with
  | nil => exact .nil
  | cons c rest ih =>
      rw [List.flatMap_cons, List.flatMap_cons]
      cases hsafe : isSafe c with
      | true =>
          have hharmless := isHarmless_of_isSafe hsafe
          rw [Bytes.utf8EncodeChar_of_ascii (ascii_of_isHarmless hharmless)]
          exact .plain hharmless ih
      | false =>
          rw [Bool.not_false, if_pos rfl, Bytes.ofText_singleton]
          exact ih.escapes _

theorem escaped_name {name : String} (hname : ∀ c ∈ name.toList, c.isAlphanum = true) :
    escaped name = name := by
  have hsafe : ∀ c ∈ name.toList, (!isSafe c) = false := by
    intro c hc
    rw [isSafe, hname c hc]
    rfl
  have hkept : (name.toList.flatMap fun c =>
      if !isSafe c then (Bytes.ofText (String.singleton c)).flatMap Escape.byte else [c]) =
        name.toList.flatMap fun c => [c] :=
    List.flatMap_congr fun c hc => by rw [hsafe c hc, if_neg Bool.false_ne_true]
  rw [escaped, Escape.encode, hkept, List.flatMap_singleton', String.ofList_toList]

theorem givesOne_written {param : String × String}
    (hname : ∀ c ∈ param.1.toList, c.isAlphanum = true) :
    GivesOne (written param.1 param.2).toList param := by
  refine ⟨hname, _, written_escaped param.2, ?_⟩
  simp [written, escaped_name hname, String.toList_append]

/-- Texts under names of letters and digits can be given. -/
theorem gives_written {params : List (String × String)}
    (hnames : ∀ param ∈ params, ∀ c ∈ param.1.toList, c.isAlphanum = true) :
    Gives ("&".intercalate (params.map fun param => written param.1 param.2)) params := by
  refine ⟨params.map fun param => (written param.1 param.2).toList, ?_, ?_⟩
  · rw [List.forall₂_map_left_iff, List.forall₂_same]
    exact fun param hparam => givesOne_written (hnames param hparam)
  · rw [String.toList_intercalate, List.map_map]
    rfl

theorem Gives.not_mem {query : String} {params : List (String × String)}
    (hgives : Gives query params) : '#' ∉ query.toList := by
  obtain ⟨parts, hparts, hquery⟩ := hgives
  rw [hquery]
  clear hquery
  induction hparts with
  | nil => exact List.not_mem_nil
  | @cons part param parts params hpart _ ih =>
      cases parts with
      | nil => simpa using hpart.ne_sign (Or.inr rfl)
      | cons second parts =>
          rw [List.intercalate_cons_cons, List.mem_append, List.mem_append, not_or, not_or]
          exact ⟨⟨hpart.ne_sign (Or.inr rfl), by decide⟩, ih⟩

end Params

/-! ## Targets -/

namespace WebRequest

/-- The target asks a path with these named values; without any, the question mark may be
left out. -/
def Targets (target path : String) (params : List (String × String)) : Prop :=
  ∃ query, Params.Gives query params ∧ (target = path ++ "?" ++ query ∨ target = path ∧ query = "")

/-- A path and what may follow it, when it is no address of a host. -/
theorem ofTarget_of_root (method : String) {target : String} (headers : Headers)
    (hroot : target.toList.head? = some '/') (hfragment : '#' ∉ target.toList) :
    ofTarget method target headers =
      ⟨method, String.ofList (target.toList.takeWhile (· != '?')),
        String.ofList ((target.toList.dropWhile (· != '?')).drop 1), headers⟩ := by
  have hwhole : pathOf target.toList = target.toList := by
    cases hcs : target.toList with
    | nil => simp [hcs] at hroot
    | cons c rest =>
        rw [hcs, List.head?_cons, Option.some.injEq] at hroot
        subst hroot
        rw [pathOf, List.dropWhile_cons_of_neg (by decide)]
        rfl
  have hsent : target.toList.takeWhile (· != '#') = target.toList := by
    rw [List.takeWhile_eq_self_iff]
    intro c hc
    rw [bne_iff_ne]
    rintro rfl
    exact hfragment hc
  rw [ofTarget]
  simp only [hwhole, hsent]

/-- What a target asks a path with is read as its query. -/
theorem Targets.ofTarget_eq {target path : String} {params : List (String × String)}
    (htargets : Targets target path params) (hroot : path.toList.head? = some '/')
    (hpath : '?' ∉ path.toList ∧ '#' ∉ path.toList) (method : String) (headers : Headers) :
    ∃ query, Params.Gives query params ∧
      ofTarget method target headers = ⟨method, path, query, headers⟩ := by
  have hrun : ∀ c ∈ path.toList, (c != '?') = true := by
    intro c hc
    rw [bne_iff_ne]
    rintro rfl
    exact hpath.1 hc
  obtain ⟨query, hgives, rfl | ⟨rfl, rfl⟩⟩ := htargets
  · refine ⟨query, hgives, ?_⟩
    have htarget : (path ++ "?" ++ query).toList = path.toList ++ '?' :: query.toList := by
      simp [String.toList_append]
    have hstop : ∀ c ∈ ('?' :: query.toList).head?, (c != '?') = false := by
      rintro c ⟨⟩
      rfl
    rw [ofTarget_of_root, htarget, Text.takeWhile_run hrun hstop, Text.dropWhile_run hrun hstop,
      List.drop_one, List.tail_cons, String.ofList_toList, String.ofList_toList]
    · rw [htarget, List.head?_append, hroot, Option.some_or]
    · rw [htarget, List.mem_append, List.mem_cons, not_or, not_or]
      exact ⟨hpath.2, by decide, hgives.not_mem⟩
  · refine ⟨"", hgives, ?_⟩
    rw [ofTarget_of_root method headers hroot hpath.2, List.takeWhile_eq_self_iff.mpr hrun,
      List.dropWhile_eq_nil_iff.mpr hrun, List.drop_nil, String.ofList_toList]

theorem targets_written (path : String) {params : List (String × String)}
    (hnames : ∀ param ∈ params, ∀ c ∈ param.1.toList, c.isAlphanum = true) :
    Targets (path ++ "?" ++
      "&".intercalate (params.map fun param => Params.written param.1 param.2)) path params :=
  ⟨_, Params.gives_written hnames, Or.inl rfl⟩

end WebRequest

end ComicCatalog
