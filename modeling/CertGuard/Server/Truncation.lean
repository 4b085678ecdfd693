import CertGuard.Lib.Utf8
import CertGuard.Server.AccountRequests

/-!
# Texts that are cut

Three texts are cut after a number of bytes, or before it: the hint of a secret, the name of a
security key and the target of a channel as it is shown. The browser cuts the hint of a secret it
seals itself after code units.

## Main definitions

* `Secret.hint`, `ZK.hint` — the hint as the server makes it, and the browser
* `credentialName` — the name a security key is stored with

## Main results

* `Secret.valid_hint_iff`, `valid_credentialName_iff`, `valid_redacted_iff` — the texts that are
  cut into texts
* `sameText_hint_iff` — the secrets with the same hint in both modes
* `truncation_iff` — all four
* `truncation_wrong` — a secret that has neither
-/

namespace CertGuard

open Utf8

/-- The dots before a hint. -/
def hintDots : List Char := ['•', '•']

/-- The hint of a secret, of its bytes. -/
def Secret.hint (plaintext : List UInt8) : List UInt8 :=
  if plaintext = [] then []
  else
    let tail := if 4 < plaintext.length then plaintext.drop (plaintext.length - 4) else plaintext
    Utf8.encode hintDots ++ tail

/-- The hint the browser makes, of the code units. -/
def ZK.hint (s : List UInt16) : List UInt16 :=
  if s ≠ [] then
    Utf16.encode hintDots ++ if 4 < s.length then s.drop (s.length - 4) else s
  else []

/-- The name `handleWebAuthnRegisterFinish` stores, of the one in the query. -/
def credentialName (query : List Char) : List UInt8 :=
  let name := trimSpace query
  let name := Utf8.encode (if name = [] then "Security key".toList else name)
  if 60 < name.length then name.take 60 else name

variable {s name : List Char} {c : Channel}

/-! ### Cuts that leave texts -/

/-- What is shown of a secret is its last bytes. -/
theorem Secret.hint_eq {bs : List UInt8} (h : bs ≠ []) :
    Secret.hint bs = Utf8.encode hintDots ++ bs.drop (bs.length - 4) := by
  rw [Secret.hint, if_neg h]
  split_ifs with hlong
  · rfl
  · rw [Nat.sub_eq_zero_of_le (not_lt.mp hlong), List.drop_zero]

theorem ZK.hint_eq {us : List UInt16} (h : us ≠ []) :
    ZK.hint us = Utf16.encode hintDots ++ us.drop (us.length - 4) := by
  rw [ZK.hint, if_pos h]
  split_ifs with hlong
  · rfl
  · rw [Nat.sub_eq_zero_of_le (not_lt.mp hlong), List.drop_zero]

theorem Secret.valid_hint_iff : Valid (Secret.hint (Utf8.encode s)) ↔
    StartsAt (Utf8.encode s) ((Utf8.encode s).length - 4) := by
  by_cases hs : s = []
  · rw [hs]
    exact iff_of_true ⟨[], rfl⟩ (startsAt_encode_zero [])
  · rw [Secret.hint_eq (mt Utf8.encode_eq_nil_iff.mp hs), valid_encode_append_iff, valid_drop_iff]

theorem valid_credentialName_iff :
    Valid (credentialName name) ↔ StartsAt (Utf8.encode (trimSpace name)) 60 := by
  by_cases hname : trimSpace name = []
  · rw [credentialName, if_pos hname, hname]
    refine iff_of_true ⟨"Security key".toList, ?_⟩ (by simp [StartsAt])
    decide
  · have hcut : credentialName name = (Utf8.encode (trimSpace name)).take 60 := by
      rw [credentialName, if_neg hname]
      split_ifs with hlong
      · rfl
      · rw [List.take_of_length_le (not_lt.mp hlong)]
    rw [hcut, valid_take_iff]

/-- The bytes of the name that registering a key stores and logs. -/
theorem bytes_credentialLabel (query : String) :
    (credentialLabel query).bytes = credentialName query.toList := by
  rw [credentialLabel, GoString.bytes_cut, credentialName]
  -- cutting a short name leaves it
  by_cases hlong : 60 < (Utf8.encode (if trimSpace query.toList = [] then "Security key".toList
      else trimSpace query.toList)).length
  · rw [if_pos hlong]
  · rw [if_neg hlong]
    exact List.take_of_length_le (not_lt.mp hlong)

theorem valid_redacted_iff : Valid c.redacted.target.bytes ↔
    c.type = .email ∨ StartsAt (Utf8.encode c.target.toList) 40 := by
  by_cases hshown : c.type ≠ .email ∧ 40 < c.target.utf8ByteSize
  · have hcut : c.redacted.target =
        GoString.cut 40 c.target.toList ++ GoString.ofString "…" := if_pos hshown
    rw [hcut, GoString.bytes_append, GoString.ofString, GoString.bytes_ofList,
      valid_append_encode_iff, GoString.bytes_cut, valid_take_iff, or_iff_right hshown.1]
  · have hwhole : c.redacted.target = GoString.ofString c.target := if_neg hshown
    rw [hwhole, GoString.ofString, GoString.bytes_ofList]
    refine iff_of_true (valid_encode _) (or_iff_not_imp_left.mpr fun hemail => ?_)
    -- nothing stands behind the cut
    refine startsAt_of_length_le ?_
    rw [← utf8ByteSize_eq]
    exact not_lt.mp fun hlong => hshown ⟨hemail, hlong⟩

/-! ### The same hint in both modes -/

/-- Behind the dots the hints are the last bytes and the last code units. -/
theorem sameText_hint (hs : s ≠ []) :
    SameText (Secret.hint (Utf8.encode s)) (ZK.hint (Utf16.encode s)) ↔
      ∃ t, (Utf8.encode s).drop ((Utf8.encode s).length - 4) = Utf8.encode t ∧
        (Utf16.encode s).drop ((Utf16.encode s).length - 4) = Utf16.encode t := by
  rw [Secret.hint_eq (mt Utf8.encode_eq_nil_iff.mp hs),
    ZK.hint_eq (mt Utf16.encode_eq_nil_iff.mp hs)]
  constructor
  · rintro ⟨cs, hbytes, hunits⟩
    obtain ⟨t, rfl, ht⟩ := encode_eq_encode_append hbytes.symm
    rw [Utf16.encode_append] at hunits
    exact ⟨t, ht, List.append_cancel_left hunits⟩
  · rintro ⟨t, hbytes, hunits⟩
    exact ⟨hintDots ++ t, by rw [hbytes, Utf8.encode_append],
      by rw [hunits, Utf16.encode_append]⟩

/-- The hints are those of one text exactly if the secret has at most four bytes, or ends with four
ASCII characters. -/
theorem sameText_hint_iff : SameText (Secret.hint (Utf8.encode s)) (ZK.hint (Utf16.encode s)) ↔
    (Utf8.encode s).length ≤ 4 ∨
      ∃ a t, s = a ++ t ∧ t.length = 4 ∧ ∀ c ∈ t, c.toNat < 128 := by
  by_cases hs : s = []
  · rw [hs]
    exact iff_of_true ⟨[], rfl, rfl⟩ (.inl (by simp))
  rw [sameText_hint hs]
  constructor
  · rintro ⟨t, hbytes, hunits⟩
    refine or_iff_not_imp_left.mpr fun hlong => ?_
    have hsplit : Utf8.encode s =
        (Utf8.encode s).take ((Utf8.encode s).length - 4) ++ Utf8.encode t := by
      rw [← hbytes, List.take_append_drop]
    obtain ⟨a, rfl, ha⟩ := encode_eq_append_encode hsplit
    have hfour : (Utf8.encode t).length = 4 := by
      rw [← hbytes, List.length_drop]
      omega
    -- the secret has more than four bytes, so something stands before the last four
    have hbefore : a ≠ [] := by
      rintro rfl
      rw [List.nil_append, hfour] at hlong
      exact hlong (Nat.le_refl _)
    -- a code unit is cut off as well, so four are left
    have hpos := List.length_pos_of_ne_nil (mt Utf16.encode_eq_nil_iff.mp hbefore)
    have hlast := congrArg List.length hunits
    rw [List.length_drop, Utf16.encode_append, List.length_append] at hlast
    have hunits4 := Utf16.length_encode_le t
    have hascii := Utf16.length_eq_iff.mp (show (Utf16.encode t).length = _ by omega)
    refine ⟨a, t, rfl, ?_, hascii⟩
    rw [← Utf16.length_of_ascii hascii]
    omega
  · rintro (hshort | ⟨a, t, rfl, hfour, hascii⟩)
    · have hunits := Utf16.length_encode_le s
      refine ⟨s, ?_, ?_⟩
      · rw [Nat.sub_eq_zero_of_le hshort, List.drop_zero]
      · rw [Nat.sub_eq_zero_of_le (hunits.trans hshort), List.drop_zero]
    · have hunits := Utf16.length_of_ascii hascii
      have hbytes := Utf16.length_eq_iff.mpr hascii
      refine ⟨t, ?_, ?_⟩
      · rw [Utf8.encode_append, List.length_append, ← hbytes, hunits, hfour, Nat.add_sub_cancel,
          List.drop_left]
      · rw [Utf16.encode_append, List.length_append, hunits, hfour, Nat.add_sub_cancel,
          List.drop_left]

/-- Of texts: the hint of a secret is a text exactly if a character starts four bytes before its
end, or it is shorter; the name of a security key, exactly if one starts behind its first 60 bytes;
the target of a channel, exactly if it is an address or one starts behind its first 40 bytes; and
the hint is the same in both modes exactly for at most four bytes, or four ASCII characters at the
end. -/
theorem truncation_iff (s name : List Char) (c : Channel) :
    (Valid (Secret.hint (Utf8.encode s)) ↔
      StartsAt (Utf8.encode s) ((Utf8.encode s).length - 4)) ∧
    (Valid (credentialName name) ↔ StartsAt (Utf8.encode (trimSpace name)) 60) ∧
    (Valid c.redacted.target.bytes ↔
      c.type = .email ∨ StartsAt (Utf8.encode c.target.toList) 40) ∧
    (SameText (Secret.hint (Utf8.encode s)) (ZK.hint (Utf16.encode s)) ↔
      (Utf8.encode s).length ≤ 4 ∨
        ∃ a t, s = a ++ t ∧ t.length = 4 ∧ ∀ c ∈ t, c.toNat < 128) :=
  ⟨Secret.valid_hint_iff, valid_credentialName_iff, valid_redacted_iff, sameText_hint_iff⟩

/-- A secret whose hint starts within a character. -/
theorem truncation_wrong :
    (¬ ∀ s, Valid (Secret.hint (Utf8.encode s))) ∧
    ¬ ∀ s, SameText (Secret.hint (Utf8.encode s)) (ZK.hint (Utf16.encode s)) := by
  constructor
  · intro hall
    exact absurd (Secret.valid_hint_iff.mp (hall "éabc".toList)) (by decide)
  · intro hall
    rcases sameText_hint_iff.mp (hall "éabc".toList) with hshort | ⟨a, t, hsplit, hfour, hascii⟩
    · exact absurd hshort (by decide)
    · have hlength := congrArg List.length hsplit
      have hfour' : ("éabc".toList).length = 4 := by decide
      rw [List.length_append, hfour, hfour'] at hlength
      obtain rfl := List.eq_nil_of_length_eq_zero (show a.length = 0 by omega)
      rw [← List.nil_append t, ← hsplit] at hascii
      exact absurd (hascii 'é' (by decide)) (by decide)

end CertGuard
