import CertGuard.Lib.Radix
import CertGuard.Secret.Key
import CertGuard.Twofa.Totp

/-!
# Shared secrets

A secret is drawn as bytes and handed out in base32, without the filling at its end. Whoever
validates a code fills it up again.

## Main definitions

* `base32Encode`, `generateSecret` — bytes in base32, and a secret made of bytes
* `hotp` — the code of a key and a counter

## Main results

* `base32Decode_padSecret` — the bytes a secret was made of are read back
* `codeAt_generateSecret`, `validateStep_generateSecret` — the codes that belong to a secret
-/

namespace CertGuard

/-- A letter of the base32 alphabet. -/
def base32Letter (v : Nat) : Char := if v < 26 then Char.ofNat (65 + v) else Char.ofNat (24 + v)

/-- How many letters the bytes of a group take. -/
def base32Letters (n : Nat) : Nat := (n * 8 + 4) / 5

/-- A group of at most 5 bytes, filled up to 8 letters. -/
def base32EncodeGroup (bs : List UInt8) : List Char :=
  (Radix.regroup 256 5 32 8 (base32Letters bs.length) (bs.map UInt8.toNat)).map base32Letter ++
    List.replicate (8 - base32Letters bs.length) '='

/-- `base32.StdEncoding.EncodeToString`. -/
def base32Encode : List UInt8 → List Char
  | b₀ :: b₁ :: b₂ :: b₃ :: b₄ :: bs => base32EncodeGroup [b₀, b₁, b₂, b₃, b₄] ++ base32Encode bs
  | [] => []
  | bs => base32EncodeGroup bs

/-- `GenerateSecret`, of the bytes that are drawn. -/
def generateSecret (drawn : List UInt8) : String :=
  String.ofList ((base32Encode drawn).rdropWhile (· = '='))

/-- The code of a key and a counter, of `n` digits: four bytes of the hash, taken where its last
byte says, without their first bit. -/
def hotp (n : Nat) (key : List UInt8) (counter : Nat) : List Char :=
  let sum := Sha1.hmac key (Sha1.bigEndian 8 counter)
  let off := (sum.getD (sum.length - 1) 0 &&& 0x0f).toNat
  let val := (sum.getD off 0 &&& 0x7f).toNat * 2 ^ 24 + (sum.getD (off + 1) 0).toNat * 2 ^ 16 +
    (sum.getD (off + 2) 0).toNat * 2 ^ 8 + (sum.getD (off + 3) 0).toNat
  let text := Nat.toDigits 10 (val % 10 ^ n)
  List.replicate (n - text.length) '0' ++ text

-- the test vectors of RFC 4648
example : base32Encode "foobar".toUTF8.toList = "MZXW6YTBOI======".toList := by decide +kernel

variable {bs key : List UInt8} {s : List Char} {c : Char} {n v : Nat}

/-! ### Letters -/

theorem base32Value_letter (h : v < 32) : base32Value (base32Letter v) = some v := by
  have hall : ∀ v : Fin 32, base32Value (base32Letter v) = some v.val := by decide
  exact hall ⟨v, h⟩

/-- A letter is none of the filling, no blank, and in upper case. -/
structure Base32Char (c : Char) : Prop where
  filling : c ≠ '='
  space : isSpace c = false
  upper : c.toUpper = c
  newline : c ≠ '\r' ∧ c ≠ '\n'
  size : c.utf8Size = 1

theorem base32Char_letter (h : v < 32) : Base32Char (base32Letter v) := by
  have hall : ∀ v : Fin 32, base32Letter v ≠ '=' ∧ isSpace (base32Letter v) = false ∧
      (base32Letter v).toUpper = base32Letter v ∧
      (base32Letter v ≠ '\r' ∧ base32Letter v ≠ '\n') ∧ (base32Letter v).utf8Size = 1 := by
    decide
  obtain ⟨hfilling, hspace, hupper, hnewline, hsize⟩ := hall ⟨v, h⟩
  exact ⟨hfilling, hspace, hupper, hnewline, hsize⟩

theorem base32Letters_le (h : n ≤ 5) : base32Letters n ≤ 8 := by
  rw [base32Letters]
  omega

/-- The letters of a group. -/
def groupLetters (bs : List UInt8) : List Nat :=
  Radix.regroup 256 5 32 8 (base32Letters bs.length) (bs.map UInt8.toNat)

theorem length_groupLetters (h : bs.length ≤ 5) :
    (groupLetters bs).length = base32Letters bs.length :=
  Radix.length_regroup (base32Letters_le h)

theorem lt_of_mem_groupLetters (hv : v ∈ groupLetters bs) : v < 32 :=
  Radix.lt_of_mem_regroup (by decide) hv

theorem base32EncodeGroup_eq (bs : List UInt8) : base32EncodeGroup bs =
    (groupLetters bs).map base32Letter ++ List.replicate (8 - base32Letters bs.length) '=' := rfl

theorem length_base32EncodeGroup (h : bs.length ≤ 5) : (base32EncodeGroup bs).length = 8 := by
  rw [base32EncodeGroup_eq, List.length_append, List.length_map, length_groupLetters h,
    List.length_replicate]
  exact Nat.add_sub_cancel' (base32Letters_le h)

/-! ### Groups -/

/-- What is written of a number is one of its digits. -/
theorem bigEndian_eq (k n : Nat) : Sha1.bigEndian k n = (Radix.digits 256 k n).map UInt8.ofNat := by
  induction k with
  | zero => rfl
  | succ k ih =>
    rw [Sha1.bigEndian, Radix.digits, List.map_cons, ih]
    congr 1
    exact (UInt8.ofNat_mod_size).symm

/-- The bytes of a group are read back. -/
theorem base32Group_groupLetters (h : bs.length ≤ 5) : base32Group (groupLetters bs) = bs := by
  have hlength : base32Letters bs.length * 5 / 8 = bs.length := by
    rw [base32Letters]
    omega
  have hbytes : ∀ d ∈ bs.map UInt8.toNat, d < 256 := by
    intro d hd
    obtain ⟨b, -, rfl⟩ := List.mem_map.mp hd
    exact b.toNat_lt
  have hdvd : 32 ^ (8 - base32Letters bs.length) ∣ 256 ^ (5 - (bs.map UInt8.toNat).length) := by
    rw [List.length_map, show (32 : Nat) = 2 ^ 5 from rfl, show (256 : Nat) = 2 ^ 8 from rfl,
      ← Nat.pow_mul, ← Nat.pow_mul]
    refine Nat.pow_dvd_pow 2 ?_
    rw [base32Letters]
    omega
  have hback := Radix.regroup_regroup (r := 256) (s := 32) (k := 5) (j := 8) (by decide)
    (by decide) hbytes (by rwa [List.length_map]) (base32Letters_le h) (by decide) hdvd
  rw [List.length_map] at hback
  have hvalue : base32Group (groupLetters bs) =
      ((Radix.regroup 32 8 256 5 bs.length (groupLetters bs)).map UInt8.ofNat) := by
    rw [base32Group, bigEndian_eq, length_groupLetters h, hlength, Radix.regroup,
      length_groupLetters h, List.map_take]
    rfl
  rw [hvalue]
  refine (congrArg (List.map UInt8.ofNat) hback).trans ?_
  simp [Function.comp_def]

theorem mapM_base32Value {vs : List Nat} (h : ∀ v ∈ vs, v < 32) :
    (vs.map base32Letter).mapM base32Value = some vs := by
  induction vs with
  | nil => rfl
  | cons v vs ih =>
    obtain ⟨hv, hvs⟩ := List.forall_mem_cons.mp h
    simp [base32Value_letter hv, ih hvs]

theorem takeWhile_group (bs : List UInt8) : (base32EncodeGroup bs).takeWhile (· ≠ '=') =
    (groupLetters bs).map base32Letter := by
  have hletters : ∀ c ∈ (groupLetters bs).map base32Letter, decide (c ≠ '=') = true := by
    intro c hc
    obtain ⟨v, hv, rfl⟩ := List.mem_map.mp hc
    exact decide_eq_true (base32Char_letter (lt_of_mem_groupLetters hv)).filling
  rw [base32EncodeGroup_eq, List.takeWhile_append_of_pos hletters, List.takeWhile_replicate]
  simp

/-- A whole group is read, and then what follows it. -/
theorem base32Groups_group (h : bs.length = 5) (n : Nat) (s : List Char) :
    base32Groups (n + 1) (base32EncodeGroup bs ++ s) = (base32Groups n s).map (bs ++ ·) := by
  have hle : bs.length ≤ 5 := h.le
  have hlength := length_base32EncodeGroup hle
  have hcount : ((groupLetters bs).map base32Letter).length = 8 := by
    rw [List.length_map, length_groupLetters hle, h]
    rfl
  cases hs : base32EncodeGroup bs ++ s with
  | nil => simp [List.append_eq_nil_iff.mp hs] at hlength
  | cons c cs =>
    rw [base32Groups, ← hs, List.take_left' hlength, List.drop_left' hlength, takeWhile_group]
    simp only [mapM_base32Value fun v hv => lt_of_mem_groupLetters hv, if_pos hcount,
      base32Group_groupLetters hle]
    exact fun hnil => absurd hnil (by simp)

/-- The last group may be filled up. -/
theorem base32Groups_last (hle : bs.length ≤ 5) (hne : bs ≠ []) (n : Nat) :
    base32Groups (n + 1) (base32EncodeGroup bs) = some bs := by
  rcases Nat.lt_or_eq_of_le hle with hlt | heq
  · have hlength := length_base32EncodeGroup hle
    have hcount : ((groupLetters bs).map base32Letter).length = base32Letters bs.length := by
      rw [List.length_map, length_groupLetters hle]
    have hpos := List.length_pos_of_ne_nil hne
    have hfew : base32Letters bs.length ∈ [2, 4, 5, 7] := by
      have hall : ∀ n : Fin 5, 0 < n.val → base32Letters n ∈ [2, 4, 5, 7] := by decide
      exact hall ⟨bs.length, hlt⟩ hpos
    have hsmall : base32Letters bs.length < 8 := by
      rw [base32Letters]
      omega
    have hdrop : (base32EncodeGroup bs).drop (base32Letters bs.length) =
        List.replicate (8 - base32Letters bs.length) '=' := by
      rw [base32EncodeGroup_eq, List.drop_left' hcount]
    cases hs : base32EncodeGroup bs with
    | nil => simp [hs] at hlength
    | cons c cs =>
      rw [base32Groups, ← hs, List.take_of_length_le hlength.le, takeWhile_group]
      simp only [mapM_base32Value fun v hv => lt_of_mem_groupLetters hv, hcount,
        if_neg hsmall.ne, hdrop, base32Group_groupLetters hle]
      rw [if_pos]
      refine ⟨hfew, ?_, ?_, ?_⟩
      · simp
      · simp [Nat.sub_add_cancel hsmall.le]
      · simp
      exact fun hnil => absurd hnil (by simp)
  · rw [← List.append_nil (base32EncodeGroup bs), base32Groups_group heq]
    cases n <;> simp [base32Groups]

/-! ### Whole secrets -/

/-- What is left over is less than a group. -/
theorem length_of_short
    (h : ∀ b₀ b₁ b₂ b₃ b₄ bs', bs = b₀ :: b₁ :: b₂ :: b₃ :: b₄ :: bs' → False) : bs.length < 5 := by
  match bs, h with
  | [], _ | [_], _ | [_, _], _ | [_, _, _], _ | [_, _, _, _], _ => simp
  | b₀ :: b₁ :: b₂ :: b₃ :: b₄ :: bs', h => exact (h b₀ b₁ b₂ b₃ b₄ bs' rfl).elim

theorem base32Groups_encode (h : bs.length / 5 < n) :
    base32Groups n (base32Encode bs) = some bs := by
  induction bs using base32Encode.induct generalizing n with
  | case1 b₀ b₁ b₂ b₃ b₄ bs ih =>
    obtain ⟨n, rfl⟩ := Nat.exists_eq_succ_of_ne_zero (Nat.ne_zero_of_lt h)
    have hlt : bs.length / 5 < n := by
      simp only [List.length_cons] at h
      omega
    rw [base32Encode, base32Groups_group rfl, ih hlt]
    rfl
  | case2 => cases n <;> rfl
  | case3 bs hshort hne =>
    obtain ⟨n, rfl⟩ := Nat.exists_eq_succ_of_ne_zero (Nat.ne_zero_of_lt h)
    rw [base32Encode.eq_3 bs hshort hne]
    exact base32Groups_last (length_of_short hshort).le hne n

/-- A text of whole groups: letters, and less than a group of filling. -/
structure Filled (text : List Char) (letters : List Char) (k : Nat) : Prop where
  eq : text = letters ++ List.replicate k '='
  letters : ∀ c ∈ letters, Base32Char c
  few : k < 8
  whole : text.length % 8 = 0

theorem filled_group (hle : bs.length ≤ 5) (hne : bs ≠ []) :
    Filled (base32EncodeGroup bs) ((groupLetters bs).map base32Letter)
      (8 - base32Letters bs.length) := by
  refine ⟨base32EncodeGroup_eq bs, fun c hc => ?_, ?_, ?_⟩
  · obtain ⟨v, hv, rfl⟩ := List.mem_map.mp hc
    exact base32Char_letter (lt_of_mem_groupLetters hv)
  · have hpos := List.length_pos_of_ne_nil hne
    rw [base32Letters]
    omega
  · rw [length_base32EncodeGroup hle]

theorem exists_filled (bs : List UInt8) : ∃ letters k, Filled (base32Encode bs) letters k := by
  induction bs using base32Encode.induct with
  | case1 b₀ b₁ b₂ b₃ b₄ bs ih =>
    obtain ⟨letters, k, hrest⟩ := ih
    have hfive : [b₀, b₁, b₂, b₃, b₄].length ≤ 5 := Nat.le_refl 5
    have hgroup := filled_group hfive (List.cons_ne_nil _ _)
    have hnone : 8 - base32Letters [b₀, b₁, b₂, b₃, b₄].length = 0 := by simp [base32Letters]
    rw [hnone] at hgroup
    refine ⟨(groupLetters [b₀, b₁, b₂, b₃, b₄]).map base32Letter ++ letters, k, ?_, fun c hc => ?_,
      hrest.few, ?_⟩
    · rw [base32Encode, hgroup.eq, hrest.eq, List.replicate_zero, List.append_nil,
        List.append_assoc]
    · exact (List.mem_append.mp hc).elim (hgroup.letters c) (hrest.letters c)
    · rw [base32Encode, List.length_append, Nat.add_mod, hgroup.whole, hrest.whole]
  | case2 => exact ⟨[], 0, rfl, by simp, by decide, rfl⟩
  | case3 bs hshort hne =>
    rw [base32Encode.eq_3 bs hshort hne]
    exact ⟨_, _, filled_group (length_of_short hshort).le hne⟩

theorem length_base32Encode (bs : List UInt8) : bs.length / 5 ≤ (base32Encode bs).length / 8 := by
  induction bs using base32Encode.induct with
  | case1 b₀ b₁ b₂ b₃ b₄ bs ih =>
    have hgroup : (base32EncodeGroup [b₀, b₁, b₂, b₃, b₄]).length = 8 :=
      length_base32EncodeGroup (Nat.le_refl 5)
    rw [base32Encode, List.length_append, hgroup]
    simp only [List.length_cons]
    omega
  | case2 => exact Nat.le_refl 0
  | case3 bs hshort hne =>
    have hlt := length_of_short hshort
    omega

theorem base32Decode_encode (bs : List UInt8) : base32Decode (base32Encode bs) = some bs := by
  obtain ⟨letters, k, hfilled⟩ := exists_filled bs
  have hlines : (base32Encode bs).filter (fun c => c ≠ '\r' ∧ c ≠ '\n') = base32Encode bs := by
    rw [List.filter_eq_self]
    intro c hc
    rw [hfilled.eq] at hc
    refine decide_eq_true ?_
    rcases List.mem_append.mp hc with hc | hc
    · exact (hfilled.letters c hc).newline
    · rw [List.eq_of_mem_replicate hc]
      decide
  rw [base32Decode, hlines]
  exact base32Groups_encode (Nat.lt_succ_of_le (length_base32Encode bs))

/-- The filling is taken off and put on again. -/
theorem padSecret_generateSecret (bs : List UInt8) :
    padSecret (generateSecret bs).toList = base32Encode bs := by
  obtain ⟨letters, k, hfilled⟩ := exists_filled bs
  have hlast : letters.rdropWhile (· = '=') = letters := by
    rw [List.rdropWhile_eq_self_iff]
    intro hne
    simpa using (hfilled.letters _ (List.getLast_mem hne)).filling
  have htrim : (base32Encode bs).rdropWhile (· = '=') = letters := by
    rw [hfilled.eq, List.rdropWhile, List.reverse_append, List.reverse_replicate,
      List.dropWhile_append_of_pos fun c hc => decide_eq_true (List.eq_of_mem_replicate hc)]
    exact hlast
  have hspace : trimSpace letters = letters :=
    trimSpace_eq_self fun c hc => (hfilled.letters c hc).space
  have hupper : letters.map Char.toUpper = letters := by
    rw [List.map_congr_left fun c hc => (hfilled.letters c hc).upper, List.map_id']
  have hcount : (8 - letters.length % 8) % 8 = k := by
    have hwhole := hfilled.whole
    have hfew := hfilled.few
    rw [hfilled.eq, List.length_append, List.length_replicate] at hwhole
    omega
  rw [padSecret, generateSecret, String.toList_ofList, htrim, hspace, hupper, hcount, hfilled.eq]

theorem base32Decode_padSecret (bs : List UInt8) :
    base32Decode (padSecret (generateSecret bs).toList) = some bs := by
  rw [padSecret_generateSecret, base32Decode_encode]

/-! ### Codes -/

theorem codeAt_generateSecret (key : List UInt8) (counter : Nat) :
    codeAt (generateSecret key) counter = some (hotp digits key counter) := by
  rw [codeAt, base32Decode_padSecret, Option.map_some]
  rfl

/-- A code has its digits, and nothing else. -/
theorem hotp_digits (hn : 0 < n) (key : List UInt8) (counter : Nat) :
    (hotp n key counter).length = n ∧ ∀ c ∈ hotp n key counter, c.isDigit = true := by
  have hfew : ∀ m, (Nat.toDigits 10 (m % 10 ^ n)).length ≤ n := fun m =>
    (Nat.length_toDigits_le_iff (by decide) hn).mpr (Nat.mod_lt _ (Nat.pow_pos (by decide)))
  constructor
  · rw [hotp, List.length_append, List.length_replicate]
    exact Nat.sub_add_cancel (hfew _)
  · intro c hc
    rcases List.mem_append.mp hc with hc | hc
    · rw [List.eq_of_mem_replicate hc]
      decide
    · exact Nat.isDigit_of_mem_toDigits (by decide) (by decide) hc

theorem utf8Size_of_isDigit (h : c.isDigit = true) : c.utf8Size = 1 := by
  rw [Char.utf8Size_eq_one_iff]
  simp only [Char.isDigit, Bool.and_eq_true, decide_eq_true_eq] at h
  exact UInt32.le_trans h.2 (by decide)

theorem sum_utf8Size_hotp (hn : 0 < n) (key : List UInt8) (counter : Nat) :
    ((hotp n key counter).map Char.utf8Size).sum = n := by
  obtain ⟨hlength, hdigits⟩ := hotp_digits hn key counter
  rw [List.map_congr_left fun c hc => utf8Size_of_isDigit (hdigits c hc), List.map_const',
    hlength]
  simp

/-- The step a code belongs to is the first of three whose code it is. -/
theorem validateStep_generateSecret (key : List UInt8) (input : String) (now : Int) :
    validateStep (generateSecret key) input now =
      [(now / Rfc3339.oneSecond).tdiv period - 1, (now / Rfc3339.oneSecond).tdiv period,
        (now / Rfc3339.oneSecond).tdiv period + 1].find? fun s =>
          hotp digits key (s % 2 ^ 64).toNat = trimSpace input.toList := by
  have hcode : ∀ s : Int, codeAt (generateSecret key) (s % 2 ^ 64).toNat =
      some (trimSpace input.toList) ↔
        hotp digits key (s % 2 ^ 64).toNat = trimSpace input.toList := by
    intro s
    rw [codeAt_generateSecret, Option.some.injEq]
  rw [validateStep]
  split_ifs with hsize
  · -- no code has another size
    symm
    rw [List.find?_eq_none]
    intro s _ hs
    rw [← of_decide_eq_true hs] at hsize
    exact hsize (sum_utf8Size_hotp (by decide) key _)
  · simp only [hcode]

end CertGuard
