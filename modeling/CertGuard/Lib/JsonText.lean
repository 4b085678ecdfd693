import Mathlib.Algebra.GroupWithZero.Nat
import CertGuard.Lib.GoString

/-!
# JSON text

Printing and reading the part of JSON that records of strings need: string
literals, arrays and objects whose members are strings. Printing escapes what
HTML gives a meaning to, as well as the two line separators of Unicode, and
prints a stray byte as the escape of the replacement character; reading replaces
half a surrogate pair by that character.

## Main definitions

* `Json.encodeString`, `Json.parseString` — string literals
* `Json.encodeSeq`, `Json.parseSeq` — bracketed sequences of any elements
* `Json.encodeObject`, `Json.parseObject` — objects with string members

## Main results

* `Json.parseString_encodeString` — a string is read back with its stray bytes
  replaced
* `Json.parseSeq_encodeSeq` — a sequence is read back when its elements are
* `Json.parseObject_encodeObject` — an object is read back, strays replaced
* `Json.valid_of_encodeSeq_sanitize` — and is printed as before only if it has none
-/

namespace Json

/-! ### String literals -/

/-- A lower-case hexadecimal digit. -/
def hexDigit (n : Nat) : Char := Nat.digitChar n

/-- The value of a hexadecimal digit of either case. -/
def hexVal (c : Char) : Option Nat :=
  if '0' ≤ c ∧ c ≤ '9' then some (c.toNat - '0'.toNat)
  else if 'a' ≤ c ∧ c ≤ 'f' then some (c.toNat - 'a'.toNat + 10)
  else if 'A' ≤ c ∧ c ≤ 'F' then some (c.toNat - 'A'.toNat + 10)
  else none

/-- A `\u` escape of a code below 65536. -/
def escapeCode (n : Nat) : List Char :=
  ['\\', 'u', hexDigit (n / 4096 % 16), hexDigit (n / 256 % 16), hexDigit (n / 16 % 16),
    hexDigit (n % 16)]

/-- A character as it stands in a string literal. -/
def escapeChar (c : Char) : List Char :=
  if c = '"' then ['\\', '"']
  else if c = '\\' then ['\\', '\\']
  else if c.toNat = 8 then ['\\', 'b']
  else if c.toNat = 12 then ['\\', 'f']
  else if c = '\n' then ['\\', 'n']
  else if c = '\r' then ['\\', 'r']
  else if c = '\t' then ['\\', 't']
  else if c.toNat < 32 ∨ c = '<' ∨ c = '>' ∨ c = '&' ∨ c.toNat = 0x2028 ∨ c.toNat = 0x2029 then
    escapeCode c.toNat
  else [c]

/-- An item of a string as it stands in a string literal. -/
def escapeRune : Rune → List Char
  | .char c => escapeChar c
  | .stray _ => escapeCode 0xFFFD

/-- A string literal. -/
def encodeString (s : GoString) : List Char := '"' :: s.flatMap escapeRune ++ ['"']

/-- The code four hexadecimal digits spell. -/
def hex4 (a b c d : Char) : Option Nat := do
  some (4096 * (← hexVal a) + 256 * (← hexVal b) + 16 * (← hexVal c) + (← hexVal d))

/-- The character of a `\u` escape, given the text after it: a surrogate pair is
one character, half a pair is U+FFFD. -/
def decodeCode (n : Nat) (rest : List Char) : Char × List Char :=
  if 0xD800 ≤ n ∧ n < 0xE000 then
    match rest with
    | '\\' :: 'u' :: a :: b :: c :: d :: rest' =>
      match hex4 a b c d with
      | some m =>
        if n < 0xDC00 ∧ 0xDC00 ≤ m ∧ m < 0xE000 then
          (Char.ofNat (0x10000 + (n - 0xD800) * 1024 + (m - 0xDC00)), rest')
        else ('\uFFFD', rest)
      | none => ('\uFFFD', rest)
    | _ => ('\uFFFD', rest)
  else (Char.ofNat n, rest)

/-- Reads one character of a string literal. -/
def unescapeChar : List Char → Option (Char × List Char)
  | [] => none
  | '\\' :: rest =>
    match rest with
    | 'u' :: a :: b :: c :: d :: rest' => (hex4 a b c d).map fun n => decodeCode n rest'
    | e :: rest' =>
      if e = '"' ∨ e = '\\' ∨ e = '/' then some (e, rest')
      else if e = 'b' then some (Char.ofNat 8, rest')
      else if e = 'f' then some (Char.ofNat 12, rest')
      else if e = 'n' then some ('\n', rest')
      else if e = 'r' then some ('\r', rest')
      else if e = 't' then some ('\t', rest')
      else none
    | [] => none
  | c :: rest => if c.toNat < 32 then none else some (c, rest)

/-- Reads a string literal after its opening quote; every step takes at least one
character, so the length of the text is fuel enough. -/
def parseBody : Nat → List Char → Option (List Char × List Char)
  | 0, _ => none
  | n + 1, s =>
    if s.head? = some '"' then some ([], s.tail)
    else do
      let (c, rest) ← unescapeChar s
      let (cs, rest') ← parseBody n rest
      some (c :: cs, rest')

/-- Reads a string literal. -/
def parseString (s : List Char) : Option (List Char × List Char) :=
  if s.head? = some '"' then parseBody s.length s.tail else none

theorem hexVal_hexDigit : ∀ d, d < 16 → hexVal (hexDigit d) = some d := by
  decide

theorem hex4_escapeCode (n : Nat) (h : n < 65536) :
    hex4 (hexDigit (n / 4096 % 16)) (hexDigit (n / 256 % 16)) (hexDigit (n / 16 % 16))
      (hexDigit (n % 16)) = some n := by
  have h16 (k : Nat) : hexVal (hexDigit (k % 16)) = some (k % 16) :=
    hexVal_hexDigit _ (Nat.mod_lt _ (by decide))
  simp only [hex4, h16, Option.bind_eq_bind, Option.bind_some, Option.some.injEq]
  omega

theorem unescapeChar_escapeCode {c : Char} (h : c.toNat < 0xD800 ∨ c = '\uFFFD')
    (rest : List Char) : unescapeChar (escapeCode c.toNat ++ rest) = some (c, rest) := by
  have hlt : c.toNat < 65536 := by
    rcases h with h | rfl
    · omega
    · decide
  have hsur : ¬ (0xD800 ≤ c.toNat ∧ c.toNat < 0xE000) := by
    rcases h with h | rfl
    · omega
    · decide
  simp only [escapeCode, List.cons_append, List.nil_append, unescapeChar, hex4_escapeCode _ hlt,
    Option.map_some, decodeCode, if_neg hsur, Char.ofNat_toNat]

theorem unescapeChar_escapeChar (c : Char) (rest : List Char) :
    unescapeChar (escapeChar c ++ rest) = some (c, rest) := by
  unfold escapeChar
  split_ifs with h1 h2 h3 h4 h5 h6 h7 h8
  · subst h1; rfl
  · subst h2; rfl
  · rw [← Char.ofNat_toNat c, h3]; rfl
  · rw [← Char.ofNat_toNat c, h4]; rfl
  · subst h5; rfl
  · subst h6; rfl
  · subst h7; rfl
  · refine unescapeChar_escapeCode (Or.inl ?_) rest
    rcases h8 with h | rfl | rfl | rfl | h | h <;> first | decide | omega
  · have hlt : ¬ c.toNat < 32 := fun h => h8 (Or.inl h)
    simp [unescapeChar, hlt]

theorem unescapeChar_escapeRune (r : Rune) (rest : List Char) :
    unescapeChar (escapeRune r ++ rest) = some (r.toChar, rest) := by
  cases r with
  | char c => exact unescapeChar_escapeChar c rest
  | stray b => exact unescapeChar_escapeCode (c := '\uFFFD') (Or.inr rfl) rest

theorem head?_escapeChar (c : Char) (rest : List Char) :
    ∃ d, (escapeChar c ++ rest).head? = some d ∧ d ≠ '"' := by
  unfold escapeChar
  split_ifs with h1
  all_goals first
    | exact ⟨'\\', rfl, by decide⟩
    | exact ⟨c, rfl, h1⟩

/-- No item is printed as a text that starts with a quote. -/
theorem head?_escapeRune (r : Rune) (rest : List Char) :
    ∃ c, (escapeRune r ++ rest).head? = some c ∧ c ≠ '"' := by
  cases r with
  | stray b => exact ⟨'\\', rfl, by decide⟩
  | char c => exact head?_escapeChar c rest

theorem parseBody_flatMap (s : GoString) (rest : List Char) {n : Nat} (hn : s.length < n) :
    parseBody n (s.flatMap escapeRune ++ '"' :: rest) = some (s.chars, rest) := by
  induction s generalizing n with
  | nil =>
    cases n with
    | zero => simp at hn
    | succ n => rfl
  | cons r s ih =>
    cases n with
    | zero => simp at hn
    | succ n =>
      have hn' : s.length < n := by simpa using hn
      obtain ⟨c, hc, hne⟩ := head?_escapeRune r (s.flatMap escapeRune ++ '"' :: rest)
      rw [List.flatMap_cons, List.append_assoc, parseBody, hc,
        if_neg fun h => hne (Option.some.inj h), unescapeChar_escapeRune]
      simp [ih hn', GoString.chars]

theorem length_le_length_flatMap (s : GoString) : s.length ≤ (s.flatMap escapeRune).length := by
  induction s with
  | nil => simp
  | cons r s ih =>
    obtain ⟨c, hc, -⟩ := head?_escapeRune r []
    have hpos : 0 < (escapeRune r).length := by
      rw [List.append_nil] at hc
      exact List.length_pos_of_ne_nil fun h => by simp [h] at hc
    simp only [List.length_cons, List.flatMap_cons, List.length_append]
    omega

/-- A string literal is read back with its stray bytes replaced. -/
theorem parseString_encodeString (s : GoString) (rest : List Char) :
    parseString (encodeString s ++ rest) = some (s.chars, rest) := by
  have hlen := length_le_length_flatMap s
  simp only [encodeString, List.cons_append, List.append_assoc, List.nil_append, parseString,
    List.head?_cons, if_true, List.tail_cons]
  refine parseBody_flatMap s rest ?_
  simp only [List.length_cons, List.length_append]
  omega

/-! ### Sequences -/

/-- Texts separated by commas. -/
def commaJoin : List (List Char) → List Char
  | [] => []
  | [x] => x
  | x :: y :: xs => x ++ ',' :: commaJoin (y :: xs)

/-- A bracketed sequence. -/
def encodeSeq (opening closing : Char) (elems : List (List Char)) : List Char :=
  opening :: commaJoin elems ++ [closing]

section Seq

variable {α β : Type} (opening closing : Char) (p : List Char → Option (β × List Char))

/-- Reads elements up to the closing bracket. -/
def parseElems : Nat → List Char → Option (List β × List Char)
  | 0, _ => none
  | n + 1, s => do
    let (x, rest) ← p s
    match rest with
    | c :: rest =>
      if c = closing then some ([x], rest)
      else if c = ',' then
        let (xs, rest) ← parseElems n rest
        some (x :: xs, rest)
      else none
    | [] => none

/-- Reads a bracketed sequence. -/
def parseSeq (s : List Char) : Option (List β × List Char) :=
  if s.head? = some opening then
    if s.tail.head? = some closing then some ([], s.tail.tail)
    else parseElems closing p s.length s.tail
  else none

variable {opening closing p} {enc : α → List Char} {dec : α → β} {xs : List α}

theorem parseElems_commaJoin (hcomma : closing ≠ ',')
    (hp : ∀ x ∈ xs, ∀ rest, p (enc x ++ rest) = some (dec x, rest)) (hne : xs ≠ [])
    (rest : List Char) {n : Nat} (hn : xs.length ≤ n) :
    parseElems closing p n (commaJoin (xs.map enc) ++ closing :: rest) =
      some (xs.map dec, rest) := by
  induction xs generalizing n with
  | nil => exact absurd rfl hne
  | cons x xs ih =>
    cases n with
    | zero => simp at hn
    | succ n =>
      cases xs with
      | nil => simp [commaJoin, parseElems, hp x (by simp)]
      | cons y ys =>
        have hn' : (y :: ys).length ≤ n := by simpa using hn
        have htail := ih (fun z hz => hp z (List.mem_cons_of_mem _ hz)) (by simp) hn'
        simp only [List.map_cons, commaJoin, List.append_assoc, List.cons_append] at htail ⊢
        rw [parseElems, hp x (by simp)]
        simp [hcomma.symm, htail]

theorem length_le_length_commaJoin (henc : ∀ x ∈ xs, enc x ≠ []) :
    xs.length ≤ (commaJoin (xs.map enc)).length := by
  induction xs with
  | nil => simp
  | cons x xs ih =>
    have hx : 0 < (enc x).length := List.length_pos_of_ne_nil (henc x (by simp))
    have htail := ih fun z hz => henc z (List.mem_cons_of_mem _ hz)
    cases xs with
    | nil =>
      simp only [List.map_cons, List.map_nil, commaJoin, List.length_cons, List.length_nil]
      omega
    | cons y ys =>
      simp only [List.map_cons, commaJoin, List.length_append, List.length_cons] at htail ⊢
      omega

/-- A sequence is read back when its elements are, provided no element looks like
the closing bracket. -/
theorem parseSeq_encodeSeq (hcomma : closing ≠ ',')
    (hp : ∀ x ∈ xs, ∀ rest, p (enc x ++ rest) = some (dec x, rest))
    (hhead : ∀ x ∈ xs, ∃ c, (enc x).head? = some c ∧ c ≠ closing) (rest : List Char) :
    parseSeq opening closing p (encodeSeq opening closing (xs.map enc) ++ rest) =
      some (xs.map dec, rest) := by
  have hnonempty : ∀ x ∈ xs, enc x ≠ [] := fun x hx h => by
    obtain ⟨c, hc, -⟩ := hhead x hx
    simp [h] at hc
  have hlen := length_le_length_commaJoin hnonempty
  simp only [encodeSeq, List.cons_append, List.append_assoc, List.nil_append, parseSeq,
    List.head?_cons, if_true, List.tail_cons]
  cases xs with
  | nil => simp [commaJoin]
  | cons x xs =>
    obtain ⟨c, hc, hne⟩ := hhead x (by simp)
    -- a first element begins with something else than the closing bracket
    have hfirst : (commaJoin ((x :: xs).map enc) ++ closing :: rest).head? = some c := by
      cases xs with
      | nil => simp [commaJoin, List.head?_append, hc]
      | cons y ys => simp [commaJoin, List.head?_append, hc]
    rw [hfirst, if_neg fun h => hne (Option.some.inj h)]
    refine parseElems_commaJoin hcomma hp (by simp) rest ?_
    simp only [List.length_cons, List.length_append] at hlen ⊢
    omega

end Seq

/-! ### Objects with string members -/

/-- A member of an object. -/
def encodeMember (m : GoString × GoString) : List Char :=
  encodeString m.1 ++ ':' :: encodeString m.2

/-- Reads a member of an object. -/
def parseMember (s : List Char) : Option ((List Char × List Char) × List Char) := do
  let (key, rest) ← parseString s
  if rest.head? = some ':' then
    let (val, rest) ← parseString rest.tail
    some ((key, val), rest)
  else none

/-- An object. -/
def encodeObject (ms : List (GoString × GoString)) : List Char :=
  encodeSeq '{' '}' (ms.map encodeMember)

/-- Reads an object. -/
def parseObject : List Char → Option (List (List Char × List Char) × List Char) :=
  parseSeq '{' '}' parseMember

theorem parseMember_encodeMember (m : GoString × GoString) (rest : List Char) :
    parseMember (encodeMember m ++ rest) = some ((m.1.chars, m.2.chars), rest) := by
  simp [parseMember, encodeMember, parseString_encodeString]

theorem parseObject_encodeObject (ms : List (GoString × GoString)) (rest : List Char) :
    parseObject (encodeObject ms ++ rest) =
      some (ms.map fun m => (m.1.chars, m.2.chars), rest) :=
  parseSeq_encodeSeq (by decide) (fun m _ => parseMember_encodeMember m)
    (fun _ _ => ⟨'"', rfl, by decide⟩) rest

/-- An array of objects is read back with the stray bytes of its strings replaced. -/
theorem parseSeq_encodeObject (os : List (List (GoString × GoString))) (rest : List Char) :
    parseSeq '[' ']' parseObject (encodeSeq '[' ']' (os.map encodeObject) ++ rest) =
      some (os.map fun o => o.map fun m => (m.1.chars, m.2.chars), rest) :=
  parseSeq_encodeSeq (by decide) (fun o _ => parseObject_encodeObject o)
    (fun _ _ => ⟨'{', rfl, by decide⟩) rest

/-- An array of strings is read back with their stray bytes replaced. -/
theorem parseSeq_encodeString (ss : List GoString) (rest : List Char) :
    parseSeq '[' ']' parseString (encodeSeq '[' ']' (ss.map encodeString) ++ rest) =
      some (ss.map GoString.chars, rest) :=
  parseSeq_encodeSeq (by decide) (fun s _ => parseString_encodeString s)
    (fun _ _ => ⟨'"', rfl, by decide⟩) rest

/-! ### How long a text is -/

theorem length_commaJoin (xs : List (List Char)) :
    (commaJoin xs).length = (xs.map List.length).sum + (xs.length - 1) := by
  induction xs with
  | nil => rfl
  | cons x xs ih =>
    cases xs with
    | nil => simp [commaJoin]
    | cons y ys =>
      simp only [commaJoin, List.length_append, List.length_cons, ih, List.map_cons, List.sum_cons]
      omega

variable {α : Type*} {xs : List α} {f g : α → List Char}

/-- Elements that are no longer make a sequence that is no longer, and one as long only if they
all are. -/
theorem length_encodeSeq_le (opening closing : Char)
    (h : ∀ x ∈ xs, (f x).length ≤ (g x).length) :
    (encodeSeq opening closing (xs.map f)).length ≤ (encodeSeq opening closing (xs.map g)).length ∧
      ((encodeSeq opening closing (xs.map f)).length =
          (encodeSeq opening closing (xs.map g)).length →
        ∀ x ∈ xs, (f x).length = (g x).length) := by
  have hsum : ((xs.map f).map List.length).sum ≤ ((xs.map g).map List.length).sum ∧
      (((xs.map f).map List.length).sum = ((xs.map g).map List.length).sum →
        ∀ x ∈ xs, (f x).length = (g x).length) := by
    induction xs with
    | nil => simp
    | cons x xs ih =>
      obtain ⟨hle, heq⟩ := ih fun y hy => h y (List.mem_cons_of_mem _ hy)
      have hx := h x (by simp)
      simp only [List.map_cons, List.sum_cons, List.forall_mem_cons]
      exact ⟨by omega, fun hall => ⟨by omega, heq (by omega)⟩⟩
  simp only [encodeSeq, List.length_append, List.length_cons, length_commaJoin, List.length_map]
  exact ⟨by omega, fun hall => hsum.2 (by omega)⟩

/-- A stray byte takes six characters, what it reads as takes one. -/
theorem length_encodeString_sanitize_le (s : GoString) :
    (encodeString s.sanitize).length ≤ (encodeString s).length ∧
      ((encodeString s.sanitize).length = (encodeString s).length → s.Valid) := by
  have hflat : (s.sanitize.flatMap escapeRune).length ≤ (s.flatMap escapeRune).length ∧
      ((s.sanitize.flatMap escapeRune).length = (s.flatMap escapeRune).length → s.Valid) := by
    induction s with
    | nil => simp [GoString.sanitize, GoString.chars, GoString.ofList, GoString.Valid]
    | cons r s ih =>
      have hcons : GoString.sanitize (r :: s) = .char r.toChar :: GoString.sanitize s := rfl
      rw [hcons]
      simp only [List.flatMap_cons, List.length_append]
      cases r with
      | char c =>
        refine ⟨by simpa [Rune.toChar, escapeRune] using ih.1, fun h => ?_⟩
        have htail := ih.2 (by simpa [Rune.toChar, escapeRune] using h)
        exact List.forall_mem_cons.mpr ⟨rfl, htail⟩
      | stray b =>
        -- six characters for a stray byte, one for what it is replaced by
        have hone : (escapeRune (.char (Rune.stray b).toChar)).length = 1 := rfl
        have hsix : (escapeRune (.stray b)).length = 6 := rfl
        exact ⟨by omega, fun h => by omega⟩
  simp only [encodeString, List.length_append, List.length_cons]
  exact ⟨by omega, fun h => hflat.2 (by omega)⟩

/-- The members of an object as they are printed after they were read. -/
def sanitizeMembers (ms : List (GoString × GoString)) : List (GoString × GoString) :=
  ms.map fun m => (m.1, m.2.sanitize)

theorem length_encodeObject_sanitize_le (ms : List (GoString × GoString)) :
    (encodeObject (sanitizeMembers ms)).length ≤ (encodeObject ms).length ∧
      ((encodeObject (sanitizeMembers ms)).length = (encodeObject ms).length →
        ∀ m ∈ ms, m.2.Valid) := by
  have hmember : ∀ m ∈ ms, (encodeMember (m.1, m.2.sanitize)).length ≤ (encodeMember m).length := by
    intro m _
    have := (length_encodeString_sanitize_le m.2).1
    simp only [encodeMember, List.length_append, List.length_cons]
    omega
  have hseq := length_encodeSeq_le '{' '}' hmember
  simp only [encodeObject, sanitizeMembers, List.map_map] at hseq ⊢
  refine ⟨hseq.1, fun h m hm => (length_encodeString_sanitize_le m.2).2 ?_⟩
  have := hseq.2 h m hm
  simp only [encodeMember, List.length_append, List.length_cons] at this
  omega

/-- An array of objects that is printed the same after it was read has no stray bytes. -/
theorem valid_of_encodeSeq_sanitize {os : List (List (GoString × GoString))}
    (h : encodeSeq '[' ']' ((os.map sanitizeMembers).map encodeObject) =
      encodeSeq '[' ']' (os.map encodeObject)) : ∀ ms ∈ os, ∀ m ∈ ms, m.2.Valid := by
  rw [List.map_map] at h
  have hle : ∀ ms ∈ os, ((encodeObject ∘ sanitizeMembers) ms).length ≤ (encodeObject ms).length :=
    fun ms _ => (length_encodeObject_sanitize_le ms).1
  have hseq := length_encodeSeq_le '[' ']' hle
  exact fun ms hms => (length_encodeObject_sanitize_le ms).2 (hseq.2 (congrArg _ h) ms hms)

end Json
