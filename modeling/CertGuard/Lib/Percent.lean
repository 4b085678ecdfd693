import Mathlib

/-!
# Percent-encoding

Bytes in the letters a URL may hold: each as it is, or as a percent sign and two hexadecimal
digits. In a query a plus sign stands for a blank, and fields with their values are joined by `&`
and `=`.

## Main definitions

* `Percent.encode`, `Percent.decode` — bytes in letters, and letters read back
* `Percent.encodeText`, `Percent.decodeText` — the same of the bytes of a text
* `Percent.encodeQuery`, `Percent.decodeQuery` — texts in a query
* `Percent.fields`, `Percent.joined` — the fields of a query, and the query of fields

## Main results

* `Percent.decode_encode`, `Percent.decodeText_encodeText`, `Percent.decodeQuery_encodeQuery` —
  what is encoded is read back
* `Percent.fields_joined` — what is joined is taken apart
-/

namespace Percent

/-- The value of a hexadecimal digit. -/
def hexValue (c : Char) : Option Nat :=
  if '0' ≤ c ∧ c ≤ '9' then some (c.toNat - 48)
  else if 'A' ≤ c ∧ c ≤ 'F' then some (c.toNat - 55)
  else if 'a' ≤ c ∧ c ≤ 'f' then some (c.toNat - 87)
  else none

/-- The hexadecimal digit of a number below 16. -/
def hexDigit (n : Nat) : Char := (Nat.digitChar n).toUpper

/-- One byte, as it is or in hexadecimal. -/
def encodeByte (keep : Char → Bool) (b : UInt8) : List Char :=
  if keep (Char.ofNat b.toNat) then [Char.ofNat b.toNat]
  else ['%', hexDigit (b.toNat / 16), hexDigit (b.toNat % 16)]

/-- Bytes in letters. -/
def encode (keep : Char → Bool) (bs : List UInt8) : List Char := bs.flatMap (encodeByte keep)

/-- The bytes of some letters; `none` where a percent sign is not followed by two digits, and where
a letter is none of ASCII. -/
def decode : List Char → Option (List UInt8)
  | [] => some []
  | '%' :: c :: d :: s =>
    (hexValue c).bind fun n => (hexValue d).bind fun m =>
      (decode s).map (UInt8.ofNat (16 * n + m) :: ·)
  | c :: s =>
    if c = '%' ∨ 128 ≤ c.toNat then none else (decode s).map (UInt8.ofNat c.toNat :: ·)

/-- What may be kept as it is. -/
def Keeps (keep : Char → Bool) : Prop := ∀ c, keep c = true → c ≠ '%' ∧ c.toNat < 128

variable {keep : Char → Bool} {bs : List UInt8} {s : List Char} {c : Char}

/-! ### Bytes -/

theorem hexValue_hexDigit {n : Nat} (h : n < 16) : hexValue (hexDigit n) = some n := by
  have hall : ∀ n : Fin 16, hexValue (hexDigit n) = some n.val := by decide
  exact hall ⟨n, h⟩

theorem decode_of_kept (hpercent : c ≠ '%') (hascii : c.toNat < 128) :
    decode (c :: s) = (decode s).map (UInt8.ofNat c.toNat :: ·) := by
  rw [decode.eq_3 c s fun _ _ _ h => absurd h hpercent]
  exact if_neg (not_or.mpr ⟨hpercent, Nat.not_le.mpr hascii⟩)

theorem decode_encodeByte (hkeep : Keeps keep) (b : UInt8) (s : List Char) :
    decode (encodeByte keep b ++ s) = (decode s).map (b :: ·) := by
  have hb : b.toNat < 256 := b.toNat_lt
  rw [encodeByte]
  split_ifs with h
  · obtain ⟨hpercent, hascii⟩ := hkeep _ h
    have hvalid : b.toNat.isValidChar := Or.inl (by omega)
    have hback : (Char.ofNat b.toNat).toNat = b.toNat := by
      rw [Char.ofNat, dif_pos hvalid]
      rfl
    rw [List.singleton_append, decode_of_kept hpercent hascii, hback, UInt8.ofNat_toNat]
  · have hback : 16 * (b.toNat / 16) + b.toNat % 16 = b.toNat := Nat.div_add_mod _ 16
    rw [List.cons_append, List.cons_append, List.singleton_append, decode,
      hexValue_hexDigit (by omega), hexValue_hexDigit (by omega), Option.bind_some,
      Option.bind_some, hback, UInt8.ofNat_toNat]

/-- What is encoded is read back, whatever follows. -/
theorem decode_encode_append (hkeep : Keeps keep) (bs : List UInt8) (s : List Char) :
    decode (encode keep bs ++ s) = (decode s).map (bs ++ ·) := by
  induction bs with
  | nil => simp [encode]
  | cons b bs ih =>
    rw [encode, List.flatMap_cons, List.append_assoc, decode_encodeByte hkeep]
    rw [encode] at ih
    rw [ih, Option.map_map]
    rfl

theorem decode_encode (hkeep : Keeps keep) (bs : List UInt8) :
    decode (encode keep bs) = some bs := by
  have h := decode_encode_append hkeep bs []
  rwa [List.append_nil, decode, Option.map_some, List.append_nil] at h

theorem lt_of_isAlphanum (h : c.isAlphanum = true) : c.toNat < 128 := by
  have hval : c.toNat = c.val.toNat := rfl
  rw [Char.isAlphanum, Char.isAlpha, Char.isUpper, Char.isLower, Char.isDigit] at h
  simp only [Bool.or_eq_true, Bool.and_eq_true, decide_eq_true_eq, ge_iff_le,
    UInt32.le_iff_toNat_le] at h
  have hZ : 'Z'.val.toNat = 90 := rfl
  have hz : 'z'.val.toNat = 122 := rfl
  have h9 : '9'.val.toNat = 57 := rfl
  omega

theorem hexDigit_isAlphanum {n : Nat} (h : n < 16) : (hexDigit n).isAlphanum = true := by
  have hall : ∀ n : Fin 16, (hexDigit n).isAlphanum = true := by decide
  exact hall ⟨n, h⟩

/-- What stands among the letters: what is kept, percent signs and digits. -/
theorem of_mem_encode (h : c ∈ encode keep bs) : keep c = true ∨ c = '%' ∨ c.isAlphanum = true := by
  obtain ⟨b, -, hc⟩ := List.mem_flatMap.mp h
  have hb : b.toNat < 256 := b.toNat_lt
  rw [encodeByte] at hc
  split_ifs at hc with hkeep
  · rw [List.mem_singleton] at hc
    exact Or.inl (hc ▸ hkeep)
  · simp only [List.mem_cons, List.not_mem_nil, or_false] at hc
    rcases hc with rfl | rfl | rfl
    · exact Or.inr (Or.inl rfl)
    · exact Or.inr (Or.inr (hexDigit_isAlphanum (by omega)))
    · exact Or.inr (Or.inr (hexDigit_isAlphanum (by omega)))

/-! ### Texts -/

/-- A text in the letters of a URL. -/
def encodeText (keep : Char → Bool) (t : String) : List Char := encode keep t.toUTF8.toList

/-- The text that some letters stand for. -/
def decodeText (s : List Char) : Option String :=
  (decode s).bind fun bs => String.fromUTF8? bs.toByteArray

theorem toList_loop (bs : ByteArray) (i : Nat) (r : List UInt8) :
    ByteArray.toList.loop bs i r = r.reverse ++ bs.data.toList.drop i := by
  fun_induction ByteArray.toList.loop bs i r with
  | case1 i r hlt ih =>
    have hlen : i < bs.data.toList.length := hlt
    have hget : bs.get! i = bs.data.toList[i] := by
      rw [ByteArray.get!, getElem!_pos bs.data i hlt, Array.getElem_toList]
    rw [ih, List.reverse_cons, List.append_assoc, List.singleton_append, hget,
      ← List.drop_eq_getElem_cons hlen]
  | case2 i r hlt =>
    rw [List.drop_eq_nil_of_le (Nat.not_lt.mp hlt), List.append_nil]

theorem toList_eq (bs : ByteArray) : bs.toList = bs.data.toList := toList_loop bs 0 []

theorem toByteArray_toList (bs : ByteArray) : bs.toList.toByteArray = bs := by
  ext1
  rw [← Array.toList_inj, List.toList_data_toByteArray, toList_eq]

theorem fromUTF8?_toUTF8 (t : String) : String.fromUTF8? t.toUTF8 = some t :=
  dif_pos t.isValidUTF8

theorem decodeText_encodeText (hkeep : Keeps keep) (t : String) :
    decodeText (encodeText keep t) = some t := by
  rw [decodeText, encodeText, decode_encode hkeep, Option.bind_some, toByteArray_toList,
    fromUTF8?_toUTF8]

theorem encodeByte_of_keep (hkeep : keep c = true) (hascii : c.toNat < 128) :
    (String.utf8EncodeChar c).flatMap (encodeByte keep) = [c] := by
  have hsize : c.utf8Size = 1 := Char.utf8Size_eq_one_iff.mpr (Nat.le_of_lt_succ hascii)
  have hback : Char.ofNat c.val.toUInt8.toNat = c := by
    have hlt : c.val.toNat < 2 ^ 8 := Nat.lt_trans hascii (by decide)
    rw [UInt32.toNat_toUInt8, Nat.mod_eq_of_lt hlt]
    exact Char.ofNat_toNat c
  rw [String.utf8EncodeChar_eq_singleton hsize, List.flatMap_singleton, encodeByte, hback,
    if_pos hkeep]

/-- A text that may be kept is. -/
theorem encodeText_of_keep {t : String} (h : ∀ c ∈ t.toList, keep c = true ∧ c.toNat < 128) :
    encodeText keep t = t.toList := by
  have hbytes : t.toUTF8.toList = t.toList.flatMap String.utf8EncodeChar := by
    rw [toList_eq, String.toUTF8_eq_toByteArray, ← String.utf8Encode_toList, List.utf8Encode,
      List.toList_data_toByteArray]
  rw [encodeText, hbytes, encode, List.flatMap_assoc]
  refine (List.flatMap_congr fun c hc => encodeByte_of_keep (h c hc).1 (h c hc).2).trans ?_
  simp

/-! ### Queries -/

/-- A text in a query: a blank is written as a plus sign. -/
def encodeQuery (keep : Char → Bool) (t : String) : List Char :=
  (encodeText (fun c => keep c || c = ' ') t).map fun c => if c = ' ' then '+' else c

/-- The text that some letters of a query stand for. -/
def decodeQuery (s : List Char) : Option String :=
  decodeText (s.map fun c => if c = '+' then ' ' else c)

/-- What may be kept as it is in a query. -/
structure KeepsQuery (keep : Char → Bool) : Prop where
  keeps : Keeps keep
  plus : keep '+' = false
  ampersand : keep '&' = false
  equals : keep '=' = false

theorem decodeQuery_encodeQuery (hkeep : KeepsQuery keep) (t : String) :
    decodeQuery (encodeQuery keep t) = some t := by
  have hkeeps : Keeps fun c => keep c || c = ' ' := by
    intro c hc
    rcases Bool.or_eq_true_iff.mp hc with hc | hc
    · exact hkeep.keeps c hc
    · rw [of_decide_eq_true hc]
      decide
  -- the text itself leaves no plus sign
  have hplus : ∀ c ∈ encodeText (fun c => keep c || c = ' ') t, c ≠ '+' := by
    rintro c hc rfl
    rcases of_mem_encode hc with h | h | h
    · rw [hkeep.plus] at h
      exact absurd h (by decide)
    · exact absurd h (by decide)
    · exact absurd h (by decide)
  have hback : (encodeQuery keep t).map (fun c => if c = '+' then ' ' else c) =
      encodeText (fun c => keep c || c = ' ') t := by
    rw [encodeQuery, List.map_map, List.map_congr_left (g := id), List.map_id]
    intro c hc
    by_cases hblank : c = ' '
    · simp [hblank]
    · simp [hblank, hplus c hc]
  rw [decodeQuery, hback, decodeText_encodeText hkeeps]

theorem encodeQuery_of_keep {t : String}
    (h : ∀ c ∈ t.toList, keep c = true ∧ c.toNat < 128 ∧ c ≠ ' ') :
    encodeQuery keep t = t.toList := by
  rw [encodeQuery, encodeText_of_keep fun c hc => ⟨by simp [(h c hc).1], (h c hc).2.1⟩]
  refine (List.map_congr_left fun c hc => ?_).trans (List.map_id _)
  exact if_neg (h c hc).2.2

/-- No letter of a text is taken for a separator. -/
theorem not_mem_encodeQuery (hkeep : keep c = false) (hblank : c ≠ ' ') (hplus : c ≠ '+')
    (hpercent : c ≠ '%') (halphanum : c.isAlphanum = false) (t : String) :
    c ∉ encodeQuery keep t := by
  intro hc
  obtain ⟨d, hd, heq⟩ := List.mem_map.mp hc
  split_ifs at heq with hd'
  · exact hplus heq.symm
  · subst heq
    rcases of_mem_encode hd with h | h | h
    · simp [hkeep, hblank] at h
    · exact hpercent h
    · simp [halphanum] at h

/-- One field with its value. -/
def field (part : List Char) : Option (String × String) :=
  (decodeQuery (part.takeWhile (· ≠ '='))).bind fun name =>
    (decodeQuery ((part.dropWhile (· ≠ '=')).drop 1)).map fun value => (name, value)

/-- The fields of a query, with their values. -/
def fields (s : List Char) : Option (List (String × String)) := (s.splitOn '&').mapM field

/-- The query of fields with their values. -/
def joined (keep : Char → Bool) (fs : List (String × String)) : List Char :=
  ['&'].intercalate (fs.map fun f => encodeQuery keep f.1 ++ '=' :: encodeQuery keep f.2)

theorem field_joined (hkeep : KeepsQuery keep) (f : String × String) :
    field (encodeQuery keep f.1 ++ '=' :: encodeQuery keep f.2) = some f := by
  have hname : ∀ c ∈ encodeQuery keep f.1, decide (c ≠ '=') = true := by
    rintro c hc
    refine decide_eq_true fun hcontra => ?_
    subst hcontra
    exact not_mem_encodeQuery hkeep.equals (by decide) (by decide) (by decide) (by decide) _ hc
  rw [field, List.takeWhile_append_of_pos hname, List.dropWhile_append_of_pos hname]
  simp [decodeQuery_encodeQuery hkeep]

/-- Fields are taken apart where they were joined. -/
theorem fields_joined (hkeep : KeepsQuery keep) {fs : List (String × String)} (hfs : fs ≠ []) :
    fields (joined keep fs) = some fs := by
  have hsep : ∀ l ∈ fs.map (fun f => encodeQuery keep f.1 ++ '=' :: encodeQuery keep f.2),
      '&' ∉ l := by
    intro l hl
    obtain ⟨f, -, rfl⟩ := List.mem_map.mp hl
    have hnone := not_mem_encodeQuery hkeep.ampersand (by decide) (by decide) (by decide)
      (by decide)
    simp [hnone f.1, hnone f.2]
  have hne : fs.map (fun f => encodeQuery keep f.1 ++ '=' :: encodeQuery keep f.2) ≠ [] := by
    simpa using hfs
  rw [fields, joined, List.splitOn_intercalate '&' hsep hne, List.mapM_map]
  have hall : field ∘ (fun f => encodeQuery keep f.1 ++ '=' :: encodeQuery keep f.2) = some := by
    funext f
    exact field_joined hkeep f
  rw [hall]
  exact (List.mapM_pure (m := Option) (f := id)).trans (congrArg some (List.map_id fs))

end Percent
