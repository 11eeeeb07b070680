import ComicCatalog.Text.Bytes
import Mathlib

/-! # Bytes and texts

ASCII texts and their bytes are the same thing: every character is one byte. Bytes
that are read as an ASCII text are that text, since whatever is no ASCII byte is read
as a character beyond ASCII. The bytes of any text are read as that text.
-/

namespace ComicCatalog.Bytes

/-! ## From texts to bytes -/

theorem toList_loop (bytes : ByteArray) (i : Nat) (read : List UInt8) :
    ByteArray.toList.loop bytes i read = read.reverse ++ bytes.data.toList.drop i := by
  fun_induction ByteArray.toList.loop bytes i read with
  | case1 i read h ih =>
      have hlt : i < bytes.data.toList.length := h
      have hget : bytes.get! i = bytes.data.toList[i] :=
        getElem!_pos bytes.data i h
      rw [ih, List.drop_eq_getElem_cons hlt, hget]
      simp
  | case2 i read h =>
      have hle : bytes.data.toList.length ≤ i := not_lt.mp h
      simp [List.drop_eq_nil_of_le hle]

theorem ofText_ofList (cs : List Char) :
    ofText (String.ofList cs) = cs.flatMap String.utf8EncodeChar := by
  unfold ofText String.toUTF8 ByteArray.toList
  rw [toList_loop]
  simp [List.utf8Encode]

theorem ofText_singleton (c : Char) : ofText (String.singleton c) = String.utf8EncodeChar c := by
  rw [String.singleton_eq_ofList, ofText_ofList, List.flatMap_singleton]

/-- The byte of an ASCII character. -/
theorem utf8EncodeChar_of_ascii {c : Char} (hascii : c.toNat < 128) :
    String.utf8EncodeChar c = [UInt8.ofNat c.toNat] := by
  have hle : c.val.toNat ≤ 127 := Nat.le_of_lt_succ hascii
  unfold String.utf8EncodeChar
  simp only [if_pos hle]
  rfl

/-- The bytes of every other character are above ASCII. -/
theorem utf8EncodeChar_of_not_ascii {c : Char} (hascii : 128 ≤ c.toNat) :
    ∀ byte ∈ String.utf8EncodeChar c, 128 ≤ byte.toNat := by
  have hgt : ¬ c.val.toNat ≤ 127 := by
    have : c.toNat = c.val.toNat := rfl
    omega
  intro byte hbyte
  unfold String.utf8EncodeChar at hbyte
  simp only [if_neg hgt] at hbyte
  split at hbyte
  · simp only [List.mem_cons, List.not_mem_nil, or_false] at hbyte
    rcases hbyte with rfl | rfl <;> simp only [UInt8.toNat_ofNat'] <;> omega
  · split at hbyte
    · simp only [List.mem_cons, List.not_mem_nil, or_false] at hbyte
      rcases hbyte with rfl | rfl | rfl <;> simp only [UInt8.toNat_ofNat'] <;> omega
    · simp only [List.mem_cons, List.not_mem_nil, or_false] at hbyte
      rcases hbyte with rfl | rfl | rfl | rfl <;> simp only [UInt8.toNat_ofNat'] <;> omega

/-- The bytes of an ASCII text are its characters one by one. -/
theorem ofText_of_ascii {cs : List Char} (hascii : ∀ c ∈ cs, c.toNat < 128) :
    ofText (String.ofList cs) = cs.map fun c => UInt8.ofNat c.toNat := by
  rw [ofText_ofList]
  induction cs with
  | nil => rfl
  | cons c rest ih =>
      rw [List.flatMap_cons, utf8EncodeChar_of_ascii (hascii c List.mem_cons_self),
        ih fun d hd => hascii d (List.mem_cons_of_mem c hd)]
      rfl

/-- Only ASCII texts have nothing but ASCII bytes. -/
theorem ascii_of_ofText {cs : List Char}
    (hascii : ∀ byte ∈ ofText (String.ofList cs), byte.toNat < 128) : ∀ c ∈ cs, c.toNat < 128 := by
  intro c hc
  by_contra hlarge
  obtain ⟨byte, hbyte⟩ := List.exists_mem_of_ne_nil (String.utf8EncodeChar c) (by simp)
  have hge := utf8EncodeChar_of_not_ascii (not_lt.mp hlarge) byte hbyte
  have hlt := hascii byte (by
    rw [ofText_ofList]
    exact List.mem_flatMap.mpr ⟨c, hc, hbyte⟩)
  omega

/-- Reading the bytes of an ASCII text one by one gives the text. -/
theorem map_ofText_of_ascii {cs : List Char} (hascii : ∀ c ∈ cs, c.toNat < 128) :
    (ofText (String.ofList cs)).map (fun byte => Char.ofNat byte.toNat) = cs := by
  rw [ofText_of_ascii hascii, List.map_map]
  conv_rhs => rw [← List.map_id cs]
  apply List.map_congr_left
  intro c hc
  have hlt := hascii c hc
  have hbyte : (UInt8.ofNat c.toNat).toNat = c.toNat := by
    rw [UInt8.toNat_ofNat']
    omega
  simp [hbyte]

/-! ## From bytes to texts -/

/-- Continuation bytes fill the code point up from its leading bits. -/
theorem continuation_code {more low high bits code : Nat} {bytes : Bytes} (hlow : 128 ≤ low)
    (hhigh : high ≤ 191) (hcode : (continuation more low high bits bytes).1 = some code) :
    bits * 64 ^ more ≤ code ∧ code < (bits + 1) * 64 ^ more := by
  induction more generalizing low high bits bytes with
  | zero =>
      cases hcode
      simp
  | succ more ih =>
      cases bytes with
      | nil => cases hcode
      | cons byte rest =>
          simp only [continuation] at hcode
          split at hcode
          next hbyte =>
            obtain ⟨hleast, hmost⟩ := ih (le_refl _) (le_refl _) hcode
            have hless : bits * 64 ≤ bits * 64 + (byte.toNat - 128) := Nat.le_add_right _ _
            have hgreater : bits * 64 + (byte.toNat - 128) + 1 ≤ (bits + 1) * 64 := by omega
            rw [pow_succ']
            constructor
            · calc bits * (64 * 64 ^ more) = bits * 64 * 64 ^ more := by ring
                _ ≤ (bits * 64 + (byte.toNat - 128)) * 64 ^ more := Nat.mul_le_mul_right _ hless
                _ ≤ code := hleast
            · calc code < (bits * 64 + (byte.toNat - 128) + 1) * 64 ^ more := hmost
                _ ≤ (bits + 1) * 64 * 64 ^ more := Nat.mul_le_mul_right _ hgreater
                _ = (bits + 1) * (64 * 64 ^ more) := by ring
          next => cases hcode

/-- The first continuation byte lies within its bounds. -/
theorem continuation_first {more low high bits code : Nat} {bytes : Bytes}
    (hcode : (continuation (more + 1) low high bits bytes).1 = some code) :
    ∃ first, low ≤ first ∧ first ≤ high ∧ (bits * 64 + (first - 128)) * 64 ^ more ≤ code ∧
      code < (bits * 64 + (first - 128) + 1) * 64 ^ more := by
  cases bytes with
  | nil => cases hcode
  | cons byte rest =>
      simp only [continuation] at hcode
      split at hcode
      next hbyte =>
        exact ⟨byte.toNat, hbyte.1, hbyte.2, continuation_code (le_refl _) (le_refl _) hcode⟩
      next => cases hcode

/-- What is read behind a leading byte is a character beyond ASCII. -/
theorem lead_code {byte : Nat} {lead : Lead} {bytes : Bytes} {code : Nat}
    (hlead : Lead.of? byte = some lead)
    (hcode : (continuation lead.more lead.low lead.high lead.bits bytes).1 = some code) :
    128 ≤ code ∧ code.isValidChar := by
  have hvalid : ∀ n : Nat, n < 0xD800 ∨ (0xE000 ≤ n ∧ n < 0x110000) → n.isValidChar := by
    rintro n (hsmall | ⟨hleast, hmost⟩)
    · exact Or.inl hsmall
    · exact Or.inr ⟨by omega, hmost⟩
  suffices h : 128 ≤ code ∧ (code < 0xD800 ∨ (0xE000 ≤ code ∧ code < 0x110000)) from
    ⟨h.1, hvalid code h.2⟩
  unfold Lead.of? at hlead
  repeat' split at hlead
  all_goals cases hlead
  all_goals
    obtain ⟨first, hlow, hhigh, hleast, hmost⟩ := continuation_first hcode
    simp only at hlow hhigh
    norm_num at hleast hmost
    omega

theorem toNat_ofNat_of_isValidChar {n : Nat} (hvalid : n.isValidChar) : (Char.ofNat n).toNat = n := by
  rw [Char.ofNat, dif_pos hvalid]
  rfl

/-- Bytes that spell an ASCII text are its characters one by one. -/
theorem chars_of_ascii {bytes : Bytes} (hascii : ∀ c ∈ chars bytes, c.toNat < 128) :
    (∀ byte ∈ bytes, byte.toNat < 128) ∧
      chars bytes = bytes.map fun byte => Char.ofNat byte.toNat := by
  fun_induction chars bytes with
  | case1 => simp
  | case2 byte rest hbyte ih =>
      obtain ⟨hrest, hmap⟩ := ih fun c hc => hascii c (List.mem_cons_of_mem _ hc)
      refine ⟨?_, by rw [hmap]; rfl⟩
      intro other hother
      rcases List.mem_cons.mp hother with rfl | hother
      · exact hbyte
      · exact hrest other hother
  | case3 byte rest hbyte hlead ih =>
      exact absurd (hascii replacement List.mem_cons_self) (by decide)
  | case4 byte rest hbyte lead hlead ih =>
      have hfirst := hascii _ List.mem_cons_self
      cases hcode : (continuation lead.more lead.low lead.high lead.bits rest).1 with
      | none =>
          rw [hcode] at hfirst
          exact absurd hfirst (by decide)
      | some code =>
          rw [hcode] at hfirst
          obtain ⟨hcodeLow, hvalid⟩ := lead_code hlead hcode
          have hchar : (Char.ofNat code).toNat = code := toNat_ofNat_of_isValidChar hvalid
          have : (Char.ofNat code).toNat < 128 := hfirst
          omega

/-- The characters that ASCII bytes are the codes of have these bytes. -/
theorem ofText_map_ofNat {bytes : Bytes} (hascii : ∀ byte ∈ bytes, byte.toNat < 128) :
    ofText (String.ofList (bytes.map fun byte => Char.ofNat byte.toNat)) = bytes := by
  have hcode : ∀ byte ∈ bytes, (Char.ofNat byte.toNat).toNat = byte.toNat := by
    intro byte hbyte
    have hlt := hascii byte hbyte
    exact toNat_ofNat_of_isValidChar (Or.inl (by omega))
  rw [ofText_of_ascii, List.map_map]
  · conv_rhs => rw [← List.map_id bytes]
    apply List.map_congr_left
    intro byte hbyte
    simp [hcode byte hbyte]
  · intro c hc
    obtain ⟨byte, hbyte, rfl⟩ := List.mem_map.mp hc
    rw [hcode byte hbyte]
    exact hascii byte hbyte

/-- Bytes whose text has nothing but ASCII bytes are the bytes of that text. -/
theorem ofText_text_of_ascii {bytes : Bytes}
    (hascii : ∀ byte ∈ ofText (text bytes), byte.toNat < 128) : ofText (text bytes) = bytes := by
  obtain ⟨hbytes, hmap⟩ := chars_of_ascii (ascii_of_ofText hascii)
  rw [text, hmap, ofText_map_ofNat hbytes]

theorem toNat_ofNat_of_lt {n : Nat} (hlt : n < 256) : (UInt8.ofNat n).toNat = n := by
  rw [UInt8.toNat_ofNat']
  omega

/-- A leading byte and the bytes that it announces are read as one character. -/
theorem chars_of_lead {byte : UInt8} {tail rest : Bytes} {lead : Lead} {code : Nat}
    (hbyte : 128 ≤ byte.toNat) (hlead : Lead.of? byte.toNat = some lead)
    (htail : continuation lead.more lead.low lead.high lead.bits tail = (some code, rest)) :
    chars (byte :: tail) = Char.ofNat code :: chars rest := by
  rw [chars, if_neg (by omega)]
  simp only [hlead, htail, Option.elim_some]

/-- A continuation byte within its bounds adds six bits. -/
theorem continuation_succ {more low high bits byte : Nat} {rest : Bytes} (hlow : low ≤ byte)
    (hhigh : byte ≤ high) (hbyte : byte < 256) :
    continuation (more + 1) low high bits (UInt8.ofNat byte :: rest) =
      continuation more 0x80 0xBF (bits * 64 + (byte - 0x80)) rest := by
  rw [continuation, toNat_ofNat_of_lt hbyte, if_pos ⟨hlow, hhigh⟩]

theorem lead_two {code : Nat} (hleast : 0x80 ≤ code) (hmost : code < 0x800) :
    Lead.of? (code / 64 + 192) = some ⟨1, 0x80, 0xBF, code / 64⟩ := by
  unfold Lead.of?
  rw [if_pos (by omega), Nat.add_sub_cancel]

theorem lead_three {code : Nat} (hleast : 0x800 ≤ code) (hmost : code < 0x10000)
    (hvalid : code.isValidChar) : ∃ low high,
      Lead.of? (code / 4096 + 224) = some ⟨2, low, high, code / 4096⟩ ∧
        low ≤ code / 64 % 64 + 128 ∧ code / 64 % 64 + 128 ≤ high := by
  unfold Lead.of?
  rw [if_neg (by omega)]
  -- The least lead leaves out forms that are too long, and another one the surrogates.
  by_cases hfirst : code / 4096 + 224 = 0xE0
  · refine ⟨0xA0, 0xBF, ?_, by omega, by omega⟩
    have hbits : code / 4096 = 0 := by omega
    rw [if_pos hfirst, hbits]
  rw [if_neg hfirst]
  by_cases hsurrogate : code / 4096 + 224 = 0xED
  · refine ⟨0x80, 0x9F, ?_, by omega, ?_⟩
    · have hbits : code / 4096 = 13 := by omega
      rw [if_pos hsurrogate, hbits]
    · rcases hvalid with hless | hmore
      · omega
      · omega
  rw [if_neg hsurrogate]
  refine ⟨0x80, 0xBF, ?_, by omega, by omega⟩
  rw [if_pos (by omega), Nat.add_sub_cancel]

theorem lead_four {code : Nat} (hleast : 0x10000 ≤ code) (hmost : code < 0x110000) : ∃ low high,
    Lead.of? (code / 262144 + 240) = some ⟨3, low, high, code / 262144⟩ ∧
      low ≤ code / 4096 % 64 + 128 ∧ code / 4096 % 64 + 128 ≤ high := by
  unfold Lead.of?
  rw [if_neg (by omega), if_neg (by omega), if_neg (by omega), if_neg (by omega)]
  by_cases hfirst : code / 262144 + 240 = 0xF0
  · refine ⟨0x90, 0xBF, ?_, by omega, by omega⟩
    have hbits : code / 262144 = 0 := by omega
    rw [if_pos hfirst, hbits]
  rw [if_neg hfirst]
  by_cases hlast : code / 262144 + 240 = 0xF4
  · refine ⟨0x80, 0x8F, ?_, by omega, by omega⟩
    have hbits : code / 262144 = 4 := by omega
    rw [if_pos hlast, hbits]
  rw [if_neg hlast]
  refine ⟨0x80, 0xBF, ?_, by omega, by omega⟩
  rw [if_pos (by omega), Nat.add_sub_cancel]

theorem chars_two {code : Nat} (hleast : 0x80 ≤ code) (hmost : code < 0x800) (rest : Bytes) :
    chars (UInt8.ofNat (code / 64 + 192) :: UInt8.ofNat (code % 64 + 128) :: rest) =
      Char.ofNat code :: chars rest := by
  have hfirst : (UInt8.ofNat (code / 64 + 192)).toNat = code / 64 + 192 :=
    toNat_ofNat_of_lt (by omega)
  have hsum : code / 64 * 64 + (code % 64 + 128 - 0x80) = code := by omega
  apply chars_of_lead
  · omega
  · rw [hfirst, lead_two hleast hmost]
  · dsimp only
    rw [continuation_succ (by omega) (by omega) (by omega), continuation, hsum]

theorem chars_three {code : Nat} (hleast : 0x800 ≤ code) (hmost : code < 0x10000)
    (hvalid : code.isValidChar) (rest : Bytes) :
    chars (UInt8.ofNat (code / 4096 + 224) :: UInt8.ofNat (code / 64 % 64 + 128) ::
      UInt8.ofNat (code % 64 + 128) :: rest) = Char.ofNat code :: chars rest := by
  obtain ⟨low, high, hlead, hlow, hhigh⟩ := lead_three hleast hmost hvalid
  have hfirst : (UInt8.ofNat (code / 4096 + 224)).toNat = code / 4096 + 224 :=
    toNat_ofNat_of_lt (by omega)
  have hsum : (code / 4096 * 64 + (code / 64 % 64 + 128 - 0x80)) * 64 + (code % 64 + 128 - 0x80) =
      code := by omega
  apply chars_of_lead
  · omega
  · rw [hfirst, hlead]
  · dsimp only
    rw [continuation_succ hlow hhigh (by omega), continuation_succ (by omega) (by omega) (by omega),
      continuation, hsum]

theorem chars_four {code : Nat} (hleast : 0x10000 ≤ code) (hmost : code < 0x110000) (rest : Bytes) :
    chars (UInt8.ofNat (code / 262144 + 240) :: UInt8.ofNat (code / 4096 % 64 + 128) ::
      UInt8.ofNat (code / 64 % 64 + 128) :: UInt8.ofNat (code % 64 + 128) :: rest) =
        Char.ofNat code :: chars rest := by
  obtain ⟨low, high, hlead, hlow, hhigh⟩ := lead_four hleast hmost
  have hfirst : (UInt8.ofNat (code / 262144 + 240)).toNat = code / 262144 + 240 :=
    toNat_ofNat_of_lt (by omega)
  have hsum : ((code / 262144 * 64 + (code / 4096 % 64 + 128 - 0x80)) * 64 +
      (code / 64 % 64 + 128 - 0x80)) * 64 + (code % 64 + 128 - 0x80) = code := by omega
  apply chars_of_lead
  · omega
  · rw [hfirst, hlead]
  · dsimp only
    rw [continuation_succ hlow hhigh (by omega), continuation_succ (by omega) (by omega) (by omega),
      continuation_succ (by omega) (by omega) (by omega), continuation, hsum]

/-- The bytes of a character are read as this character, whatever follows. -/
theorem chars_utf8EncodeChar_append (c : Char) (rest : Bytes) :
    chars (String.utf8EncodeChar c ++ rest) = c :: chars rest := by
  have hvalid : c.toNat.isValidChar := c.valid
  have hchar : Char.ofNat c.toNat = c := Char.ofNat_toNat c
  have hmost : c.toNat < 0x110000 := by
    rcases hvalid with hless | hmore
    · omega
    · exact hmore.2
  have hcode : c.val.toNat = c.toNat := rfl
  rcases Nat.lt_or_ge c.toNat 0x80 with hone | hone
  · rw [utf8EncodeChar_of_ascii hone, List.singleton_append, chars,
      toNat_ofNat_of_lt (by omega), if_pos hone, hchar]
  unfold String.utf8EncodeChar
  simp only [hcode]
  rw [if_neg (by omega)]
  rcases Nat.lt_or_ge c.toNat 0x800 with htwo | htwo
  · have hbits : c.toNat / 64 % 32 = c.toNat / 64 := by omega
    rw [if_pos (by omega), hbits]
    exact (chars_two hone htwo rest).trans (by rw [hchar])
  rw [if_neg (by omega)]
  rcases Nat.lt_or_ge c.toNat 0x10000 with hthree | hthree
  · have hbits : c.toNat / 4096 % 16 = c.toNat / 4096 := by omega
    rw [if_pos (by omega), hbits]
    exact (chars_three htwo hthree hvalid rest).trans (by rw [hchar])
  · have hbits : c.toNat / 262144 % 8 = c.toNat / 262144 := by omega
    rw [if_neg (by omega), hbits]
    exact (chars_four hthree hmost rest).trans (by rw [hchar])

theorem chars_ofText (s : String) : chars (ofText s) = s.toList := by
  rw [← String.ofList_toList (s := s), ofText_ofList, String.toList_ofList]
  induction s.toList with
  | nil => rw [List.flatMap_nil, chars]
  | cons c rest ih => rw [List.flatMap_cons, chars_utf8EncodeChar_append, ih]

/-- Reading the bytes of a text gives the text. -/
theorem text_ofText (s : String) : text (ofText s) = s := by
  rw [text, chars_ofText, String.ofList_toList]

theorem text?_ofText (s : String) : text? (ofText s) = some s := by
  rw [text?, text_ofText, if_pos rfl]

end ComicCatalog.Bytes
