import ComicCatalog.Net.Message
import ComicCatalog.Proofs.Text.Bytes

/-! # Fields of one name

A message may carry several fields of one name. What is found under a name is the first of
them, and fields of other names do not matter.
-/

namespace ComicCatalog

namespace Headers

/-- The values of all fields of a name, in their order. -/
def values (headers : Headers) (name : String) : List Bytes :=
  (headers.filter fun field => Text.asciiFold field.1 = Text.asciiFold name).map Prod.snd

@[simp]
theorem values_append (first second : Headers) (name : String) :
    values (first ++ second) name = values first name ++ values second name := by
  simp [values]

theorem values_single {name other : String} (value : Bytes)
    (hname : Text.asciiFold other = Text.asciiFold name) : values [(other, value)] name = [value] := by
  simp [values, hname]

theorem values_eq_nil {headers : Headers} {name : String}
    (hother : ∀ field ∈ headers, Text.asciiFold field.1 ≠ Text.asciiFold name) :
    values headers name = [] := by
  simpa [values] using hother

theorem get?_eq_head? (headers : Headers) (name : String) :
    get? headers name = (values headers name).head? := by
  rw [get?, values, List.head?_map, List.head?_filter]

/-- Bytes of visible ASCII, spaces and tabs. -/
def IsVisible (value : Bytes) : Prop :=
  ∀ byte ∈ value, (32 ≤ byte.toNat ∧ byte.toNat < 127) ∨ byte.toNat = 9

instance : DecidablePred IsVisible := fun value => inferInstanceAs (Decidable (∀ byte ∈ value, _))

/-- The controls of ASCII, the tab excepted. -/
def IsControl (c : Char) : Prop :=
  (c.toNat < 32 ∧ c.toNat ≠ 9) ∨ c.toNat = 127

instance : DecidablePred IsControl := fun c =>
  inferInstanceAs (Decidable ((c.toNat < 32 ∧ c.toNat ≠ 9) ∨ c.toNat = 127))

/-- No character of the text is a control. -/
def IsSendable (s : String) : Prop :=
  ∀ c ∈ s.toList, ¬IsControl c

instance : DecidablePred IsSendable := fun s => List.decidableBAll (fun c => ¬IsControl c) s.toList

/-- The bytes of a character can all be sent unless it is a control. Characters beyond ASCII, the
controls among them too, have no byte in common with those of ASCII. -/
theorem all_isValueByte_iff {c : Char} :
    (String.utf8EncodeChar c).all isValueByte = true ↔ ¬IsControl c := by
  by_cases hascii : c.toNat < 128
  · have hbyte : (UInt8.ofNat c.toNat).toNat = c.toNat := by
      rw [UInt8.toNat_ofNat']
      omega
    rw [Bytes.utf8EncodeChar_of_ascii hascii, List.all_cons, List.all_nil, Bool.and_true]
    simp only [isValueByte, hbyte, IsControl, Bool.or_eq_true, Bool.and_eq_true, bne_iff_ne,
      beq_iff_eq, decide_eq_true_eq]
    omega
  · have hbytes := Bytes.utf8EncodeChar_of_not_ascii (not_lt.mp hascii)
    have hcontrol : ¬IsControl c := by
      unfold IsControl
      omega
    refine iff_of_true (List.all_eq_true.mpr fun byte hbyte => ?_) hcontrol
    have hhigh := hbytes byte hbyte
    simp only [isValueByte, Bool.or_eq_true, Bool.and_eq_true, bne_iff_ne, beq_iff_eq,
      decide_eq_true_eq]
    omega

/-- Exactly the texts without controls can be sent as fields. -/
theorem isValue_iff {s : String} : isValue s = true ↔ IsSendable s := by
  have hbytes := Bytes.ofText_ofList s.toList
  rw [String.ofList_toList] at hbytes
  rw [isValue, hbytes, List.all_flatMap, List.all_eq_true]
  simp only [all_isValueByte_iff, IsSendable]

theorem isSendable_append {first second : String} :
    IsSendable (first ++ second) ↔ IsSendable first ∧ IsSendable second := by
  rw [IsSendable, String.toList_append, List.forall_mem_append]
  rfl

end Headers

end ComicCatalog
