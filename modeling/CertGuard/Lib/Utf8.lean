import CertGuard.Lib.GoString
import Mathlib.Algebra.GroupWithZero.Nat

/-!
# Texts as bytes and as code units

The bytes of a text in UTF-8 and its code units in UTF-16, and where a text may be cut. A cut
leaves texts exactly where a character starts, and that can be seen from the byte there.

## Main definitions

* `Utf8.encode`, `Utf8.Valid` — the bytes of a text, and bytes that are those of one
* `Utf8.StartsAt` — a character starts at a place, or the bytes end before it
* `Utf16.encode` — the code units of a text
* `SameText` — bytes and code units of one text
* `GoString.bytes` — the bytes of a string that need not be UTF-8

## Main results

* `Utf8.encode_eq_encode_append`, `Utf8.encode_eq_append_encode` — how a text begins or ends
* `Utf8.valid_take_iff`, `Utf8.valid_drop_iff` — which cuts leave texts
* `Utf16.length_eq_iff` — the texts of as many code units as bytes
* `GoString.bytes_cut` — the cut of a text is the cut of its bytes
-/

namespace Utf8

/-- The bytes of a text. -/
def encode (cs : List Char) : List UInt8 := cs.flatMap String.utf8EncodeChar

/-- The bytes of some text. -/
def Valid (bs : List UInt8) : Prop := ∃ cs, encode cs = bs

/-- The byte at a place, if there is one, is the first of a character. -/
def StartsAt (bs : List UInt8) (n : Nat) : Prop := ∀ b ∈ bs[n]?, b.IsUTF8FirstByte

instance (bs : List UInt8) (n : Nat) : Decidable (StartsAt bs n) :=
  decidable_of_iff (bs[n]?.all (fun b => decide b.IsUTF8FirstByte) = true)
    (by simp [StartsAt, Option.all_eq_true])

variable {cs cs' t : List Char} {c c' : Char} {bs pre rest rest' : List UInt8} {n : Nat}

@[simp] theorem encode_nil : encode [] = [] := rfl

@[simp] theorem encode_cons : encode (c :: cs) = String.utf8EncodeChar c ++ encode cs := rfl

@[simp] theorem encode_append : encode (cs ++ cs') = encode cs ++ encode cs' :=
  List.flatMap_append

theorem valid_encode (cs : List Char) : Valid (encode cs) := ⟨cs, rfl⟩

theorem encode_eq_nil_iff : encode cs = [] ↔ cs = [] := by
  cases cs with
  | nil => simp
  | cons c cs =>
    refine iff_of_false (fun h => ?_) (by simp)
    have hlength := congrArg List.length h
    rw [encode_cons, List.length_append, String.length_utf8EncodeChar] at hlength
    exact absurd (Nat.eq_zero_of_add_eq_zero_right hlength) (Nat.ne_of_gt c.utf8Size_pos)

/-- The size of a string. -/
theorem utf8ByteSize_eq (s : String) : s.utf8ByteSize = (encode s.toList).length := by
  have hbytes : s.toByteArray = s.toList.utf8Encode := by
    conv_lhs => rw [← String.ofList_toList (s := s)]
    exact String.toByteArray_ofList
  rw [← String.size_toByteArray, hbytes, List.utf8Encode, List.size_toByteArray]
  rfl

/-- The bytes tell the first character. -/
theorem utf8EncodeChar_append_inj
    (h : String.utf8EncodeChar c ++ rest = String.utf8EncodeChar c' ++ rest') :
    c = c' ∧ rest = rest' := by
  have hdecode : ∀ (d : Char) (r : List UInt8),
      (String.utf8EncodeChar d ++ r).toByteArray.utf8DecodeChar? 0 = some d := by
    intro d r
    rw [List.toByteArray_append]
    exact ByteArray.utf8DecodeChar?_utf8EncodeChar_append
  obtain rfl : c = c' := Option.some.inj ((hdecode c rest).symm.trans (h ▸ hdecode c' rest'))
  exact ⟨rfl, List.append_cancel_left h⟩

/-- A text begins with a text whose bytes its bytes begin with. -/
theorem encode_eq_encode_append (h : encode cs = encode t ++ rest) :
    ∃ cs', cs = t ++ cs' ∧ rest = encode cs' := by
  induction t generalizing cs with
  | nil => exact ⟨cs, rfl, h.symm⟩
  | cons c t ih =>
    cases cs with
    | nil =>
      have hnil := encode_eq_nil_iff.mp (List.append_eq_nil_iff.mp h.symm).1
      exact absurd hnil (by simp)
    | cons c' cs =>
      rw [encode_cons, encode_cons, List.append_assoc] at h
      obtain ⟨rfl, hrest⟩ := utf8EncodeChar_append_inj h
      obtain ⟨cs', rfl, hcs'⟩ := ih hrest
      exact ⟨cs', rfl, hcs'⟩

theorem encode_injective (h : encode cs = encode cs') : cs = cs' := by
  rw [← List.append_nil (encode cs')] at h
  obtain ⟨t, rfl, ht⟩ := encode_eq_encode_append h
  rw [encode_eq_nil_iff.mp ht.symm, List.append_nil]

/-- The bytes of a character after its first are no first bytes. -/
theorem startsAt_utf8EncodeChar (hn : n < c.utf8Size) :
    StartsAt (String.utf8EncodeChar c ++ rest) n ↔ n = 0 := by
  have hlt : n < (String.utf8EncodeChar c).length := by rwa [String.length_utf8EncodeChar]
  rw [StartsAt, List.getElem?_append_left hlt, List.getElem?_eq_getElem hlt]
  simp

/-- A character starts where the bytes of a beginning of the text end. -/
theorem startsAt_encode_iff (hn : n ≤ (encode cs).length) :
    StartsAt (encode cs) n ↔ ∃ a b, cs = a ++ b ∧ (encode a).length = n := by
  induction cs generalizing n with
  | nil =>
    obtain rfl : n = 0 := by simpa using hn
    exact iff_of_true (by simp [StartsAt]) ⟨[], [], rfl, rfl⟩
  | cons c cs ih =>
    rw [encode_cons, List.length_append, String.length_utf8EncodeChar] at hn
    by_cases hlt : n < c.utf8Size
    · -- only the first byte of the first character is a first byte
      rw [encode_cons, startsAt_utf8EncodeChar hlt]
      constructor
      · rintro rfl
        exact ⟨[], c :: cs, rfl, rfl⟩
      · rintro ⟨a, b, hab, ha⟩
        cases a with
        | nil => exact ha.symm
        | cons c' a =>
          obtain ⟨rfl, -⟩ := List.cons.inj hab
          rw [encode_cons, List.length_append, String.length_utf8EncodeChar] at ha
          omega
    · -- the place is behind the first character
      have hshift : StartsAt (encode (c :: cs)) n ↔ StartsAt (encode cs) (n - c.utf8Size) := by
        rw [StartsAt, StartsAt, encode_cons, List.getElem?_append_right
          (by rw [String.length_utf8EncodeChar]; omega), String.length_utf8EncodeChar]
      rw [hshift, ih (by omega)]
      constructor
      · rintro ⟨a, b, rfl, ha⟩
        refine ⟨c :: a, b, rfl, ?_⟩
        rw [encode_cons, List.length_append, String.length_utf8EncodeChar]
        omega
      · rintro ⟨a, b, hab, ha⟩
        cases a with
        | nil =>
          have hpos := c.utf8Size_pos
          simp only [encode_nil, List.length_nil] at ha
          omega
        | cons c' a =>
          obtain ⟨rfl, rfl⟩ := List.cons.inj hab
          rw [encode_cons, List.length_append, String.length_utf8EncodeChar] at ha
          exact ⟨a, b, rfl, by omega⟩

/-- The bytes of a text that is not empty start with a first byte. -/
theorem startsAt_encode_zero (cs : List Char) : StartsAt (encode cs) 0 :=
  (startsAt_encode_iff (Nat.zero_le _)).mpr ⟨[], cs, rfl, rfl⟩

/-- A text ends with a text whose bytes its bytes end with. -/
theorem encode_eq_append_encode (h : encode cs = pre ++ encode t) :
    ∃ a, cs = a ++ t ∧ pre = encode a := by
  have hle : pre.length ≤ (encode cs).length := by
    rw [h, List.length_append]
    exact Nat.le_add_right _ _
  -- the text behind `pre` starts with a first byte, so `pre` ends with a character
  have hstarts : StartsAt (encode cs) pre.length := by
    rw [StartsAt, h, List.getElem?_append_right (Nat.le_refl _), Nat.sub_self]
    exact startsAt_encode_zero t
  obtain ⟨a, b, rfl, ha⟩ := (startsAt_encode_iff hle).mp hstarts
  rw [encode_append] at h
  obtain ⟨hpre, hb⟩ := List.append_inj h ha
  exact ⟨a, by rw [encode_injective hb], hpre.symm⟩

/-- Behind the last byte nothing is left that could not start. -/
theorem startsAt_of_length_le (h : bs.length ≤ n) : StartsAt bs n := by
  intro b hb
  rw [List.getElem?_eq_none h] at hb
  exact absurd hb (by simp)

/-- The first bytes of a text are a text exactly if the next character starts behind them. -/
theorem valid_take_iff : Valid ((encode cs).take n) ↔ StartsAt (encode cs) n := by
  by_cases hn : n ≤ (encode cs).length
  · rw [startsAt_encode_iff hn]
    constructor
    · rintro ⟨t, ht⟩
      have hsplit : encode cs = encode t ++ (encode cs).drop n := by
        rw [ht, List.take_append_drop]
      obtain ⟨cs', hcs, -⟩ := encode_eq_encode_append hsplit
      exact ⟨t, cs', hcs, by rw [ht, List.length_take, Nat.min_eq_left hn]⟩
    · rintro ⟨a, b, rfl, rfl⟩
      exact ⟨a, by simp⟩
  · have hle := Nat.le_of_lt (Nat.not_le.mp hn)
    exact iff_of_true ⟨cs, (List.take_of_length_le hle).symm⟩ (startsAt_of_length_le hle)

/-- The last bytes of a text are a text exactly if a character starts with them. -/
theorem valid_drop_iff : Valid ((encode cs).drop n) ↔ StartsAt (encode cs) n := by
  by_cases hn : n ≤ (encode cs).length
  · rw [startsAt_encode_iff hn]
    constructor
    · rintro ⟨t, ht⟩
      have hsplit : encode cs = (encode cs).take n ++ encode t := by
        rw [ht, List.take_append_drop]
      obtain ⟨a, hcs, ha⟩ := encode_eq_append_encode hsplit
      exact ⟨a, t, hcs, by rw [← ha, List.length_take, Nat.min_eq_left hn]⟩
    · rintro ⟨a, b, rfl, rfl⟩
      exact ⟨b, by simp⟩
  · have hle := Nat.le_of_lt (Nat.not_le.mp hn)
    exact iff_of_true ⟨[], (List.drop_eq_nil_of_le hle).symm⟩ (startsAt_of_length_le hle)

/-- Bytes with a text behind them are a text exactly if they are one. -/
theorem valid_append_encode_iff : Valid (bs ++ encode t) ↔ Valid bs := by
  constructor
  · rintro ⟨cs, hcs⟩
    obtain ⟨a, -, ha⟩ := encode_eq_append_encode hcs
    exact ⟨a, ha.symm⟩
  · rintro ⟨cs, rfl⟩
    exact ⟨cs ++ t, encode_append⟩

/-- The same with a text before them. -/
theorem valid_encode_append_iff : Valid (encode t ++ bs) ↔ Valid bs := by
  constructor
  · rintro ⟨cs, hcs⟩
    obtain ⟨cs', -, hbs⟩ := encode_eq_encode_append hcs
    exact ⟨cs', hbs.symm⟩
  · rintro ⟨cs, rfl⟩
    exact ⟨t ++ cs, encode_append⟩

end Utf8

namespace Utf16

/-- The code units of a character. -/
def encodeChar (c : Char) : List UInt16 :=
  if c.toNat < 0x10000 then [UInt16.ofNat c.toNat]
  else
    [UInt16.ofNat (0xD800 + (c.toNat - 0x10000) / 1024),
      UInt16.ofNat (0xDC00 + (c.toNat - 0x10000) % 1024)]

/-- The code units of a text. -/
def encode (cs : List Char) : List UInt16 := cs.flatMap encodeChar

variable {cs cs' : List Char} {c : Char}

@[simp] theorem encode_nil : encode [] = [] := rfl

@[simp] theorem encode_cons : encode (c :: cs) = encodeChar c ++ encode cs := rfl

@[simp] theorem encode_append : encode (cs ++ cs') = encode cs ++ encode cs' :=
  List.flatMap_append

theorem length_encodeChar_pos (c : Char) : 0 < (encodeChar c).length := by
  unfold encodeChar
  split_ifs <;> simp

/-- A character has at most as many code units as bytes, and as many only in ASCII. -/
theorem length_encodeChar (c : Char) : (encodeChar c).length ≤ c.utf8Size ∧
    ((encodeChar c).length = c.utf8Size ↔ c.toNat < 128) := by
  have h₁ : c.utf8Size = 1 ↔ c.toNat ≤ 127 := Char.utf8Size_eq_one_iff
  have h₄ : c.utf8Size = 4 ↔ 0xffff < c.toNat := Char.utf8Size_eq_four_iff
  have hsize := Char.utf8Size_eq c
  unfold encodeChar
  split_ifs <;> simp only [List.length_cons, List.length_nil] <;> omega

theorem encode_eq_nil_iff : encode cs = [] ↔ cs = [] := by
  cases cs with
  | nil => simp
  | cons c cs =>
    refine iff_of_false (fun h => ?_) (by simp)
    have hpos := length_encodeChar_pos c
    rw [(List.append_eq_nil_iff.mp h).1] at hpos
    exact absurd hpos (by simp)

theorem length_encode_le (cs : List Char) : (encode cs).length ≤ (Utf8.encode cs).length := by
  induction cs with
  | nil => exact Nat.le_refl _
  | cons c cs ih =>
    have hc := (length_encodeChar c).1
    rw [encode_cons, Utf8.encode_cons, List.length_append, List.length_append,
      String.length_utf8EncodeChar]
    omega

/-- A text has as many code units as bytes exactly in ASCII. -/
theorem length_eq_iff : (encode cs).length = (Utf8.encode cs).length ↔
    ∀ c ∈ cs, c.toNat < 128 := by
  induction cs with
  | nil => simp
  | cons c cs ih =>
    obtain ⟨hle, heq⟩ := length_encodeChar c
    have hrest := length_encode_le cs
    -- neither part has more code units than bytes, so the sums agree only where both do
    rw [List.forall_mem_cons, ← ih, ← heq, encode_cons, Utf8.encode_cons, List.length_append,
      List.length_append, String.length_utf8EncodeChar]
    omega

/-- In ASCII there is one code unit for each character. -/
theorem length_of_ascii (h : ∀ c ∈ cs, c.toNat < 128) : (encode cs).length = cs.length := by
  induction cs with
  | nil => rfl
  | cons c cs ih =>
    obtain ⟨hc, hcs⟩ := List.forall_mem_cons.mp h
    have hone : (encodeChar c).length = 1 := by
      unfold encodeChar
      rw [if_pos (by omega)]
      rfl
    rw [encode_cons, List.length_append, hone, ih hcs, List.length_cons, Nat.add_comm]

end Utf16

/-- Bytes and code units of one text. -/
def SameText (bs : List UInt8) (us : List UInt16) : Prop :=
  ∃ cs, bs = Utf8.encode cs ∧ us = Utf16.encode cs

namespace GoString

/-- The bytes of an item. -/
def runeBytes : Rune → List UInt8
  | .char c => String.utf8EncodeChar c
  | .stray b => [b]

/-- The bytes of a string. -/
def bytes (s : GoString) : List UInt8 := s.flatMap runeBytes

theorem bytes_append (s s' : GoString) : bytes (s ++ s') = bytes s ++ bytes s' :=
  List.flatMap_append

theorem bytes_ofList (cs : List Char) : bytes (ofList cs) = Utf8.encode cs := by
  rw [bytes, ofList, List.flatMap_map]
  rfl

theorem bytes_strays (bs : List UInt8) : bytes (bs.map .stray) = bs := by
  induction bs with
  | nil => rfl
  | cons b bs ih => exact congrArg (b :: ·) ih

/-- The cut of a text is the cut of its bytes. -/
theorem bytes_cut (n : Nat) (cs : List Char) : bytes (cut n cs) = (Utf8.encode cs).take n := by
  induction cs generalizing n with
  | nil => simp [cut, bytes]
  | cons c cs ih =>
    rw [cut, Utf8.encode_cons, List.take_append, String.length_utf8EncodeChar]
    split_ifs with hfits
    · have hwhole : (String.utf8EncodeChar c).take n = String.utf8EncodeChar c :=
        List.take_of_length_le (by rwa [String.length_utf8EncodeChar])
      rw [hwhole, ← ih]
      rfl
    · -- the first bytes of the character are left, and nothing of what follows
      rw [bytes_strays, Nat.sub_eq_zero_of_le (Nat.le_of_lt (Nat.not_le.mp hfits)), List.take_zero,
        List.append_nil]

end GoString
