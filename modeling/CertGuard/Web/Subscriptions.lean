import CertGuard.Lib.Strip
import CertGuard.Model.Channel
import Mathlib.Tactic.Positivity

/-!
# The subscriptions the page reads

The page reads the thresholds of a channel once more, to show which alerts are coming. It reads
numbers out of the parts where the server compares texts, and it has another idea of white space.

## Main definitions

* `numberOf`, `Script.parseInt`, `isScriptSpace` — numbers and white space of scripts
* `channelWantsThreshold` — the page's reading
* `NamesExactly`, `NamesLoosely` — the parts in which the server and the page read a threshold
* `ThresholdsAgree` — the texts that they read alike

## Main results

* `Script.parseInt_eq_some_iff` — what the page reads a number out of
* `channelWantsThreshold_iff` — when the page and the server agree
* `channelWantsThreshold_padded` — they do not on padded numbers
-/

namespace CertGuard

/-! ### Scripts -/

/-- The number value of a natural number: where it has more than 53 binary digits, the nearest
that has not, and of two such the even one. -/
def roundToDouble (n : Nat) : Nat :=
  let unit := 2 ^ (n.log2 - 52)
  let kept := n / unit
  let rest := n % unit
  if unit < 2 * rest ∨ (2 * rest = unit ∧ kept % 2 = 1) then (kept + 1) * unit else kept * unit

/-- The number value of an integer. -/
def numberOf (n : Int) : Int := n.sign * roundToDouble n.natAbs

/-- What `trim` and `parseInt` skip. -/
def isScriptSpace (c : Char) : Bool :=
  let n := c.toNat
  (9 ≤ n && n ≤ 13) || n = 0x20 || n = 0xA0 || n = 0x1680 || (0x2000 ≤ n && n ≤ 0x200A) ||
    n = 0x2028 || n = 0x2029 || n = 0x202F || n = 0x205F || n = 0x3000 || n = 0xFEFF

/-- `parseInt(_, 10)`; `none` is `NaN`. -/
def Script.parseInt (s : List Char) : Option Int :=
  let s := s.dropWhile isScriptSpace
  let negative := s.head? = some '-'
  let s := if s.head? = some '-' ∨ s.head? = some '+' then s.tail else s
  let digits := s.takeWhile Char.isDigit
  if digits = [] then none
  else some (if negative then -(Nat.ofDigitChars 10 digits 0) else Nat.ofDigitChars 10 digits 0)

/-- `channelWantsThreshold`, of the thresholds of a channel. -/
def channelWantsThreshold (thresholds : String) (t : Int) : Bool :=
  let s := strip isScriptSpace thresholds.toList
  if s = [] then true
  else (s.splitOn ',').any fun x =>
    (Script.parseInt (strip isScriptSpace x)).any fun n => numberOf n = numberOf t

/-! ### What is read -/

/-- A part in which the server reads `t`: its decimal form between white space. -/
def NamesExactly (t : Int) (x : List Char) : Prop :=
  ∃ u v, x = u ++ itoa t ++ v ∧ (∀ c ∈ u, isSpace c = true) ∧ ∀ c ∈ v, isSpace c = true

/-- A part in which the page reads `t`: digits after white space and an optional sign, and then
anything that does not go on with a digit. -/
def NamesLoosely (t : Int) (x : List Char) : Prop :=
  ∃ u sign digits v, x = u ++ sign ++ digits ++ v ∧ (∀ c ∈ u, isScriptSpace c = true) ∧
    (sign = [] ∨ sign = ['+']) ∧ digits ≠ [] ∧ (∀ c ∈ digits, c.isDigit = true) ∧
    (∀ c ∈ v.head?, c.isDigit = false) ∧
    numberOf (Nat.ofDigitChars 10 digits 0 : Nat) = numberOf t

/-- The texts in which both find `t`, or neither. -/
structure ThresholdsAgree (thresholds : String) (t : Int) : Prop where
  /-- The text is blank for both or for neither. -/
  blank : (∀ c ∈ thresholds.toList, isScriptSpace c = true) ↔
    ∀ c ∈ thresholds.toList, isSpace c = true
  /-- Both read `t` in some part, or neither does. -/
  named : (∃ x ∈ thresholds.toList.splitOn ',', NamesLoosely t x) ↔
    ∃ x ∈ thresholds.toList.splitOn ',', NamesExactly t x

variable {s x : List Char} {t n : Int} {thresholds : String}

/-! ### Numbers -/

theorem roundToDouble_pos {n : Nat} (hn : 0 < n) : 0 < roundToDouble n := by
  have hunit : 2 ^ (n.log2 - 52) ≤ n :=
    (Nat.pow_le_pow_right (by decide) (Nat.sub_le _ _)).trans (Nat.log2_self_le hn.ne')
  have hkept : 0 < n / 2 ^ (n.log2 - 52) := Nat.div_pos hunit (by positivity)
  simp only [roundToDouble]
  split_ifs <;> positivity

/-- The numbers of scripts are the integers up to 53 binary digits. -/
theorem roundToDouble_of_lt {n : Nat} (hn : n < 2 ^ 53) : roundToDouble n = n := by
  have hlog : n.log2 - 52 = 0 := by
    by_cases h0 : n = 0
    · simp [h0]
    · have := (Nat.log2_lt h0).mpr hn
      omega
  simp [roundToDouble, hlog, Nat.mod_one]

theorem numberOf_neg_lt {n t : Int} (hn : n ≤ 0) (ht : 0 < t) : numberOf n ≠ numberOf t := by
  have hpos : (0 : Int) < roundToDouble t.natAbs := by exact_mod_cast roundToDouble_pos (by omega)
  have hneg : numberOf n ≤ 0 := by
    unfold numberOf
    rcases Int.lt_or_eq_of_le hn with h | rfl
    · rw [Int.sign_eq_neg_one_of_neg h]
      have : (0 : Int) ≤ roundToDouble n.natAbs := by positivity
      omega
    · simp
  have hnumber : numberOf t = roundToDouble t.natAbs := by
    rw [numberOf, Int.sign_eq_one_of_pos ht, one_mul]
  omega

theorem isScriptSpace_of_isDigit {c : Char} (h : c.isDigit = true) : isScriptSpace c = false := by
  have hc := toNat_of_isDigit h
  simp only [isScriptSpace, Bool.or_eq_false_iff, Bool.and_eq_false_iff, decide_eq_false_iff_not]
  omega

theorem isDigit_of_isScriptSpace {c : Char} (h : isScriptSpace c = true) : c.isDigit = false := by
  by_contra hdigit
  rw [isScriptSpace_of_isDigit (by simpa using hdigit)] at h
  exact absurd h (by simp)

/-- White space after a number makes no difference, and before it neither. -/
theorem Script.parseInt_append {u v : List Char} (hu : ∀ c ∈ u, isScriptSpace c = true)
    (hv : ∀ c ∈ v, isScriptSpace c = true) : Script.parseInt (u ++ s ++ v) = Script.parseInt s := by
  have hdrop : (u ++ s ++ v).dropWhile isScriptSpace =
      if s.dropWhile isScriptSpace = [] then [] else s.dropWhile isScriptSpace ++ v := by
    rw [List.append_assoc, List.dropWhile_append_of_pos hu, List.dropWhile_append]
    by_cases h : s.dropWhile isScriptSpace = []
    · simp [h, List.dropWhile_eq_nil_iff.mpr hv]
    · simp [h]
  have htake : ∀ z : List Char, (z ++ v).takeWhile Char.isDigit = z.takeWhile Char.isDigit := by
    intro z
    have hnone : v.takeWhile Char.isDigit = [] := by
      cases v with
      | nil => rfl
      | cons c v =>
        exact List.takeWhile_cons_of_neg (by simpa using isDigit_of_isScriptSpace (hv c (by simp)))
    rw [List.takeWhile_append, hnone]
    split_ifs with h
    · rw [List.append_nil]
      exact (List.takeWhile_prefix _).eq_of_length h |>.symm
    · rfl
  unfold Script.parseInt
  rw [hdrop]
  split_ifs with h
  · simp [h]
  · obtain ⟨c, z, hz⟩ := List.exists_cons_of_ne_nil h
    simp only [hz, List.cons_append, List.head?_cons, List.tail_cons]
    have hcons := htake (c :: z)
    rw [List.cons_append] at hcons
    split_ifs <;> simp_all

/-- What a number is read out of: white space, a sign, digits, and what does not go on with a
digit. -/
theorem Script.parseInt_eq_some_iff : Script.parseInt x = some n ↔ ∃ u sign digits v,
    x = u ++ sign ++ digits ++ v ∧ (∀ c ∈ u, isScriptSpace c = true) ∧
      (sign = [] ∨ sign = ['+'] ∨ sign = ['-']) ∧ digits ≠ [] ∧
      (∀ c ∈ digits, c.isDigit = true) ∧ (∀ c ∈ v.head?, c.isDigit = false) ∧
      n = if sign = ['-'] then -(Nat.ofDigitChars 10 digits 0 : Int)
        else Nat.ofDigitChars 10 digits 0 := by
  constructor
  · intro h
    obtain ⟨sign, z, hz, hsign, hdigits⟩ : ∃ sign z, x.dropWhile isScriptSpace = sign ++ z ∧
        (sign = [] ∨ sign = ['+'] ∨ sign = ['-']) ∧ z.takeWhile Char.isDigit ≠ [] ∧
        n = if sign = ['-'] then -(Nat.ofDigitChars 10 (z.takeWhile Char.isDigit) 0 : Int)
          else Nat.ofDigitChars 10 (z.takeWhile Char.isDigit) 0 := by
      simp only [Script.parseInt] at h
      cases hs : x.dropWhile isScriptSpace with
      | nil => simp [hs] at h
      | cons c z =>
        simp only [hs, List.head?_cons, List.tail_cons, Option.some.injEq] at h
        split_ifs at h with hsign hnil hminus hnil hminus
        · exact ⟨['-'], z, by simp [hminus], by simp, hnil, by simpa using h.symm⟩
        · have hplus := hsign.resolve_left hminus
          exact ⟨['+'], z, by simp [hplus], by simp, hnil, by simpa using h.symm⟩
        · exact absurd (.inl hminus) hsign
        · exact ⟨[], c :: z, rfl, .inl rfl, hnil, by simpa using h.symm⟩
    refine ⟨x.takeWhile isScriptSpace, sign, z.takeWhile Char.isDigit, z.dropWhile Char.isDigit,
      ?_, fun c => List.mem_takeWhile_imp, hsign, hdigits.1, fun c => List.mem_takeWhile_imp,
      ?_, hdigits.2⟩
    · rw [List.append_assoc, List.takeWhile_append_dropWhile, List.append_assoc, ← hz,
        List.takeWhile_append_dropWhile]
    · intro c hc
      have hhead := List.head?_dropWhile_not Char.isDigit z
      rw [Option.mem_def.mp hc] at hhead
      simpa using hhead
  · rintro ⟨u, sign, digits, v, rfl, hu, hsign, hne, hdigits, hv, rfl⟩
    have hdrop : (u ++ sign ++ digits ++ v).dropWhile isScriptSpace = sign ++ digits ++ v := by
      obtain ⟨d, ds, rfl⟩ := List.exists_cons_of_ne_nil hne
      have hd := isScriptSpace_of_isDigit (hdigits d List.mem_cons_self)
      rw [List.append_assoc, List.append_assoc, List.dropWhile_append_of_pos hu]
      rcases hsign with rfl | rfl | rfl
      · exact List.dropWhile_cons_of_neg (by simp [hd])
      · exact List.dropWhile_cons_of_neg (by decide)
      · exact List.dropWhile_cons_of_neg (by decide)
    have htake : (digits ++ v).takeWhile Char.isDigit = digits := by
      rw [List.takeWhile_append_of_pos hdigits]
      cases v with
      | nil => simp
      | cons c v => simp [hv c rfl]
    simp only [Script.parseInt, hdrop]
    rcases hsign with rfl | rfl | rfl
    · obtain ⟨d, ds, rfl⟩ := List.exists_cons_of_ne_nil hne
      have hd := hdigits d List.mem_cons_self
      have hplus : d ≠ '+' := fun h => absurd (h ▸ hd) (by decide)
      have hminus : d ≠ '-' := fun h => absurd (h ▸ hd) (by decide)
      rw [List.cons_append] at htake
      simp [hplus, hminus, htake]
    · simp [htake, hne]
    · simp [htake, hne]

/-- The page reads `t` out of a part exactly if it begins with `t`. -/
theorem Script.parseInt_iff (ht : 0 < t) :
    ((Script.parseInt (strip isScriptSpace x)).any fun n => numberOf n = numberOf t) = true ↔
      NamesLoosely t x := by
  obtain ⟨u, v, hx, hu, hv⟩ := exists_strip isScriptSpace x
  rw [← Script.parseInt_append hu hv (s := strip isScriptSpace x), ← hx]
  clear hx hu hv u v
  simp only [Option.any_eq_true, decide_eq_true_eq, Script.parseInt_eq_some_iff]
  constructor
  · rintro ⟨n, ⟨u, sign, digits, v, hx, hu, hsign, hne, hdigits, hv, hn⟩, hnumber⟩
    by_cases hminus : sign = ['-']
    · rw [if_pos hminus] at hn
      exact absurd hnumber (numberOf_neg_lt (by omega) ht)
    · rw [if_neg hminus] at hn
      exact ⟨u, sign, digits, v, hx, hu, by tauto, hne, hdigits, hv, hn ▸ hnumber⟩
  · rintro ⟨u, sign, digits, v, hx, hu, hsign, hne, hdigits, hv, hnumber⟩
    have hminus : sign ≠ ['-'] := by
      rcases hsign with rfl | rfl <;> decide
    exact ⟨_, ⟨u, sign, digits, v, hx, hu, by tauto, hne, hdigits, hv, (if_neg hminus).symm⟩,
      hnumber⟩

/-! ### Texts -/

theorem itoa_of_pos (ht : 0 < t) : itoa t = Nat.toDigits 10 t.natAbs := if_neg (by omega)

/-- The server reads `t` out of a part exactly if it is `t`. -/
theorem trimSpace_eq_itoa_iff (ht : 0 < t) : trimSpace x = itoa t ↔ NamesExactly t x := by
  have hdigit : ∀ c ∈ itoa t, isSpace c = false := by
    intro c hc
    rw [itoa_of_pos ht] at hc
    exact isSpace_of_isDigit (Nat.isDigit_of_mem_toDigits (by decide) (by decide) hc)
  exact strip_eq_iff (fun c hc => hdigit c (List.mem_of_mem_head? hc))
    fun c hc => hdigit c (List.mem_of_mem_getLast? hc)

theorem channelWantsThreshold_eq_true_iff (ht : 0 < t) :
    channelWantsThreshold thresholds t = true ↔
      (∀ c ∈ thresholds.toList, isScriptSpace c = true) ∨
        ∃ x ∈ thresholds.toList.splitOn ',', NamesLoosely t x := by
  simp only [channelWantsThreshold]
  rw [any_splitOn_strip (p := isScriptSpace) (by decide)
    (fun y => (Script.parseInt y).any fun n => numberOf n = numberOf t)]
  split_ifs with hblank
  · exact iff_of_true rfl (.inl (strip_eq_nil_iff.mp hblank))
  · rw [strip_eq_nil_iff] at hblank
    simp only [List.any_eq_true, Script.parseInt_iff ht, hblank, false_or]

theorem wantsThreshold_eq_true_iff {ch : Channel} (ht : 0 < t) : ch.wantsThreshold t = true ↔
    (∀ c ∈ ch.thresholds.toList, isSpace c = true) ∨
      ∃ x ∈ ch.thresholds.toList.splitOn ',', NamesExactly t x := by
  unfold Channel.wantsThreshold
  have hblank : trimSpace ch.thresholds.toList = [] ↔
      ∀ c ∈ ch.thresholds.toList, isSpace c = true :=
    strip_eq_nil_iff
  split_ifs with h
  · exact iff_of_true rfl (.inl (hblank.mp h))
  · rw [hblank] at h
    simp only [List.any_eq_true, decide_eq_true_eq, trimSpace_eq_itoa_iff ht, h, false_or]

/-- A part in which somebody reads a threshold has a digit. -/
theorem exists_isDigit (ht : 0 < t) (h : NamesExactly t x ∨ NamesLoosely t x) :
    ∃ c ∈ x, c.isDigit = true := by
  rcases h with ⟨u, v, rfl, -, -⟩ | ⟨u, sign, digits, v, rfl, -, -, hne, hdigits, -⟩
  · obtain ⟨c, hc⟩ := List.exists_mem_of_ne_nil _ (Nat.toDigits_ne_nil (n := t.natAbs) (b := 10))
    refine ⟨c, by simp [itoa_of_pos ht, hc], ?_⟩
    exact Nat.isDigit_of_mem_toDigits (by decide) (by decide) hc
  · obtain ⟨c, hc⟩ := List.exists_mem_of_ne_nil _ hne
    exact ⟨c, by simp [hc], hdigits c hc⟩

/-- In a blank text nobody reads anything. -/
theorem not_blank_of_names (ht : 0 < t) (hx : x ∈ s.splitOn ',')
    (h : NamesExactly t x ∨ NamesLoosely t x) :
    ¬ (∀ c ∈ s, isScriptSpace c = true) ∧ ¬ ∀ c ∈ s, isSpace c = true := by
  obtain ⟨c, hc, hdigit⟩ := exists_isDigit ht h
  have hmem := mem_of_mem_splitOn hx hc
  constructor
  · intro hblank
    exact absurd (hblank c hmem) (by simp [isScriptSpace_of_isDigit hdigit])
  · intro hblank
    exact absurd (hblank c hmem) (by simp [isSpace_of_isDigit hdigit])

/-- The page and the server agree on a threshold exactly where they read a text alike. -/
theorem channelWantsThreshold_iff (ch : Channel) (ht : 0 < t) :
    channelWantsThreshold ch.thresholds t = ch.wantsThreshold t ↔
      ThresholdsAgree ch.thresholds t := by
  rw [Bool.eq_iff_iff, channelWantsThreshold_eq_true_iff ht, wantsThreshold_eq_true_iff ht]
  constructor
  · intro h
    constructor
    · constructor
      · intro hblank
        refine (h.mp (.inl hblank)).resolve_right ?_
        rintro ⟨x, hx, hnames⟩
        exact (not_blank_of_names ht hx (.inl hnames)).1 hblank
      · intro hblank
        refine (h.mpr (.inl hblank)).resolve_right ?_
        rintro ⟨x, hx, hnames⟩
        exact (not_blank_of_names ht hx (.inr hnames)).2 hblank
    · constructor
      · rintro ⟨x, hx, hnames⟩
        exact (h.mp (.inr ⟨x, hx, hnames⟩)).resolve_left
          (not_blank_of_names ht hx (.inr hnames)).2
      · rintro ⟨x, hx, hnames⟩
        exact (h.mpr (.inr ⟨x, hx, hnames⟩)).resolve_left
          (not_blank_of_names ht hx (.inl hnames)).1
  · rintro ⟨hblank, hnamed⟩
    rw [hblank, hnamed]

/-- A channel whose thresholds are padded. -/
def paddedChannel : Channel := ⟨1, 1, .slack, "", "030", true⟩

/-- The texts are not read alike. -/
theorem not_thresholdsAgree_padded : ¬ ThresholdsAgree "030" 30 := fun h =>
  absurd ((channelWantsThreshold_iff paddedChannel (by decide)).mpr h) (by decide)

/-- The page reads a threshold out of a padded number, the server does not. -/
theorem channelWantsThreshold_padded : channelWantsThreshold paddedChannel.thresholds 30 = true ∧
    paddedChannel.wantsThreshold 30 = false := by
  decide

end CertGuard
