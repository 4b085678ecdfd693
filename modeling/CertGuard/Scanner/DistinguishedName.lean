import CertGuard.Lib.Leftmost
import CertGuard.Secret.Key
import Mathlib.Data.List.Chain

/-!
# Distinguished names as they are printed

A scan keeps the subject and the issuer of a certificate as `pkix.Name` prints them: attributes
one after the other, those of a known type under its name and with characters of their value
escaped, the others under their number and in hexadecimal.

## Main definitions

* `Pkix.Attribute`, `Pkix.Attribute.string` — an attribute, and how it is printed
* `Pkix.RDNSequence.string` — a name as it is printed
* `Pkix.IssuerName` — a name of single attributes, one of which is the organization
* `Pkix.Guarded` — what has to be escaped stands behind a backslash

## Main results

* `Pkix.escapeValue_of_plain` — what is escaped of a value without special characters
* `Pkix.IssuerName.string_eq` — where the organization stands
* `Pkix.IssuerName.guarded_string` — what has to be escaped is, throughout a printed name
* `Pkix.Guarded.backslash_mem` — and so is what a reader finds behind a `=`
-/

namespace CertGuard

/-- A text, character by character. -/
abbrev Text := List Char

namespace Pkix

/-! ### Printing -/

/-- `AttributeTypeAndValue`, of a text; `der` is what `asn1.Marshal` makes of it. -/
structure Attribute where
  type : List Nat
  value : Text
  der : List UInt8 := []
  deriving DecidableEq, Repr

/-- The type of an organization. -/
def oidOrganization : List Nat := [2, 5, 4, 10]

/-- The types that have a name. -/
def attributeTypeNames : List (List Nat × Text) :=
  [([2, 5, 4, 6], ['C']),
    (oidOrganization, ['O']),
    ([2, 5, 4, 11], ['O', 'U']),
    ([2, 5, 4, 3], ['C', 'N']),
    ([2, 5, 4, 5], "SERIALNUMBER".toList),
    ([2, 5, 4, 7], ['L']),
    ([2, 5, 4, 8], ['S', 'T']),
    ([2, 5, 4, 9], "STREET".toList),
    ([2, 5, 4, 17], "POSTALCODE".toList)]

/-- The name of a type, if it has one. -/
def typeName (type : List Nat) : Option Text :=
  (attributeTypeNames.find? fun t => t.1 = type).map Prod.snd

/-- `ObjectIdentifier.String`. -/
def oidString (type : List Nat) : Text := ['.'].intercalate (type.map (Nat.toDigits 10))

/-- A character that is escaped wherever it stands. -/
def isSpecial (c : Char) : Bool :=
  c = ',' || c = '+' || c = '"' || c = '\\' || c = '<' || c = '>' || c = ';'

/-- Whether a character of a value is escaped, of which `first` and `last` say where it stands. -/
def escapes (first last : Bool) (c : Char) : Bool :=
  isSpecial c || (c = ' ' && (first || last)) || (c = '#' && first)

/-- A value with its characters escaped, from its first or a later one on. -/
def escapeFrom : Bool → Text → Text
  | _, [] => []
  | first, c :: cs =>
    (if escapes first cs.isEmpty c then ['\\', c] else [c]) ++ escapeFrom false cs

/-- A value with its characters escaped. -/
def escapeValue (value : Text) : Text := escapeFrom true value

/-- An attribute as `RDNSequence.String` prints it. -/
def Attribute.string (a : Attribute) : Text :=
  match typeName a.type with
  | some name => name ++ '=' :: escapeValue a.value
  | none => oidString a.type ++ '=' :: '#' :: hexEncode a.der

/-- `RDNSequence.String`, from the last to the first. -/
def RDNSequence.string (r : List (List Attribute)) : Text :=
  [','].intercalate (r.reverse.map fun rdn => ['+'].intercalate (rdn.map Attribute.string))

example : RDNSequence.string [[⟨[2, 5, 4, 6], ['U', 'S'], []⟩],
    [⟨oidOrganization, ['A', ',', ' ', 'B'], []⟩]] = "O=A\\, B,C=US".toList := by decide

/-- A name each part of which is a single attribute, in the order they are printed in, one of
which is an organization. -/
structure IssuerName where
  before : List Attribute
  organization : Text
  after : List Attribute
  before_other : ∀ a ∈ before, a.type ≠ oidOrganization
  after_other : ∀ a ∈ after, a.type ≠ oidOrganization

namespace IssuerName

/-- The attributes in the order they are printed in. -/
def attributes (n : IssuerName) : List Attribute :=
  n.before ++ { type := oidOrganization, value := n.organization } :: n.after

/-- The name as it is printed. -/
def string (n : IssuerName) : Text := RDNSequence.string (n.attributes.reverse.map fun a => [a])

end IssuerName

/-! ### Attributes -/

variable {a : Attribute} {v t r : Text} {c : Char} {first : Bool}

/-- What stands before the `=` of an attribute. -/
def Attribute.key (a : Attribute) : Text := (typeName a.type).getD (oidString a.type)

/-- What stands behind the `=` of an attribute. -/
def Attribute.body (a : Attribute) : Text :=
  if (typeName a.type).isSome then escapeValue a.value else '#' :: hexEncode a.der

theorem Attribute.string_eq (a : Attribute) : a.string = a.key ++ '=' :: a.body := by
  unfold Attribute.string Attribute.key Attribute.body
  cases typeName a.type <;> rfl

/-- The name of a type is made of letters. -/
theorem isAlpha_of_typeName {type : List Nat} {name : Text} (h : typeName type = some name) :
    name ≠ [] ∧ ∀ c ∈ name, c.isAlpha = true := by
  obtain ⟨entry, hentry, rfl⟩ := Option.map_eq_some_iff.mp h
  have hall : attributeTypeNames.all fun t => !t.2.isEmpty && t.2.all Char.isAlpha := by decide
  have hname := List.all_eq_true.mp hall entry (List.mem_of_find?_eq_some hentry)
  simpa using hname

/-- A number is made of digits and dots. -/
theorem isDigit_of_mem_oidString {type : List Nat} (h : c ∈ oidString type) :
    c.isDigit = true ∨ c = '.' := by
  have hdigits : ∀ n, c ∈ Nat.toDigits 10 n → c.isDigit = true := fun _ hc =>
    Nat.isDigit_of_mem_toDigits (by decide) (by decide) hc
  cases type with
  | nil => exact absurd h (by simp [oidString])
  | cons n ns =>
    rw [oidString, List.map_cons, intercalate_cons_eq] at h
    simp only [List.mem_append, List.mem_flatMap, List.mem_map, List.mem_cons] at h
    rcases h with h | ⟨l, ⟨k, -, rfl⟩, rfl | h⟩
    · exact Or.inl (hdigits n h)
    · exact Or.inr rfl
    · exact Or.inl (hdigits k h)

theorem toNat_of_isAlpha (h : c.isAlpha = true) :
    65 ≤ c.toNat ∧ c.toNat ≤ 90 ∨ 97 ≤ c.toNat ∧ c.toNat ≤ 122 := by
  change (decide (65 ≤ c.val ∧ c.val ≤ 90) ||
    (decide (97 ≤ c.val) && decide (c.val ≤ 122))) = true at h
  simp only [Bool.or_eq_true, Bool.and_eq_true, decide_eq_true_eq, UInt32.le_iff_toNat_le] at h
  exact h

/-- No character that means something to a reader stands before the `=`. -/
theorem Attribute.range_of_mem_key (h : c ∈ a.key) :
    46 ≤ c.toNat ∧ c.toNat ≤ 122 ∧ c ≠ ';' ∧ c ≠ '<' ∧ c ≠ '=' ∧ c ≠ '>' ∧ c ≠ '\\' := by
  have hchar : c.isDigit = true ∨ c.isAlpha = true ∨ c = '.' := by
    unfold Attribute.key at h
    cases hname : typeName a.type with
    | none =>
      rw [hname, Option.getD_none] at h
      exact (isDigit_of_mem_oidString h).imp_right Or.inr
    | some name =>
      rw [hname, Option.getD_some] at h
      exact Or.inr (Or.inl ((isAlpha_of_typeName hname).2 c h))
  have hrange : 46 ≤ c.toNat ∧ c.toNat ≤ 122 := by
    rcases hchar with hdigit | halpha | rfl
    · have := toNat_of_isDigit hdigit
      omega
    · have := toNat_of_isAlpha halpha
      omega
    · decide
  refine ⟨hrange.1, hrange.2, ?_, ?_, ?_, ?_, ?_⟩
  all_goals
    rintro rfl
    exact absurd hchar (by decide)

/-! ### Values -/

theorem escapeFrom_cons {cs : Text} (first : Bool) : escapeFrom first (c :: cs) =
    (if escapes first cs.isEmpty c then ['\\', c] else [c]) ++ escapeFrom false cs := rfl

/-- Escaping only puts backslashes in. -/
theorem count_escapeValue (hc : c ≠ '\\') (v : Text) : (escapeValue v).count c = v.count c := by
  have hcount : ∀ first, (escapeFrom first v).count c = v.count c := by
    induction v with
    | nil => exact fun _ => rfl
    | cons d v ih =>
      intro first
      have hone : (if escapes first v.isEmpty d then ['\\', d] else [d]).count c = [d].count c := by
        split_ifs
        · rw [List.count_cons_of_ne (Ne.symm hc)]
        · rfl
      rw [escapeFrom_cons, List.count_append, hone, ih, ← List.count_append]
      rfl
  exact hcount true

/-- Without any that is escaped everywhere, and no blank at the end, later characters are
printed as they are. -/
theorem escapeFrom_false_eq_self (h : ∀ c ∈ v, isSpecial c = false)
    (hlast : v.getLast? ≠ some ' ') : escapeFrom false v = v := by
  induction v with
  | nil => rfl
  | cons c cs ih =>
    have hkept : escapes false cs.isEmpty c = false := by
      have hblank : ¬ (c = ' ' ∧ cs.isEmpty = true) := by
        rintro ⟨rfl, hcs⟩
        rw [List.isEmpty_iff] at hcs
        exact hlast (by rw [hcs]; rfl)
      simpa [escapes, h c List.mem_cons_self] using hblank
    -- what is last of the rest is last of all
    have htail : cs.getLast? ≠ some ' ' := by
      cases cs with
      | nil => simp
      | cons d cs => exact hlast
    rw [escapeFrom_cons, hkept, ih (fun d hd => h d (List.mem_cons_of_mem _ hd)) htail]
    rfl

/-- Of such a value that does not begin with a blank, only a `#` at its beginning is escaped. -/
theorem escapeValue_of_plain (h : ∀ c ∈ v, isSpecial c = false) (hfirst : v.head? ≠ some ' ')
    (hlast : v.getLast? ≠ some ' ') :
    escapeValue v = if v.head? = some '#' then '\\' :: v else v := by
  cases v with
  | nil => rfl
  | cons c cs =>
    have htail : escapeFrom false cs = cs := by
      refine escapeFrom_false_eq_self (fun d hd => h d (List.mem_cons_of_mem _ hd)) ?_
      cases cs with
      | nil => simp
      | cons d cs => exact hlast
    have hescapes : escapes true cs.isEmpty c = decide (c = '#') := by
      have hblank : c ≠ ' ' := by simpa using hfirst
      simp [escapes, h c List.mem_cons_self, hblank]
    rw [escapeValue, escapeFrom_cons, htail, hescapes]
    simp only [decide_eq_true_eq, List.head?_cons, Option.some.injEq]
    split_ifs <;> rfl

/-! ### Backslashes -/

/-- A character that is escaped wherever it stands, other than the backslash, and the comma,
which also separates attributes. -/
def isGuarded (c : Char) : Bool := isSpecial c && c ≠ ',' && c ≠ '\\'

/-- Behind whatever a text is put, each such character of it stands behind a backslash. -/
def Guarded (t : Text) : Prop :=
  ∀ c, (c :: t).IsChain fun c d => isGuarded d = true → c = '\\'

theorem guarded_nil : Guarded [] := fun c => List.IsChain.singleton c

theorem Guarded.cons (h : Guarded t) (hc : isGuarded c = false) : Guarded (c :: t) :=
  fun d => List.isChain_cons_cons.mpr ⟨fun hguarded => absurd hguarded (by simp [hc]), h c⟩

theorem Guarded.append (h : Guarded t) (hr : ∀ c ∈ r, isGuarded c = false) : Guarded (r ++ t) := by
  induction r with
  | nil => exact h
  | cons c r ih =>
    exact (ih fun d hd => hr d (List.mem_cons_of_mem _ hd)).cons (hr c List.mem_cons_self)

theorem Guarded.escapeFrom (h : Guarded t) (first : Bool) (v : Text) :
    Guarded (escapeFrom first v ++ t) := by
  induction v generalizing first with
  | nil => exact h
  | cons c cs ih =>
    rw [escapeFrom_cons, List.append_assoc]
    split_ifs with hescapes
    · -- the backslash is put in front, and needs none itself
      intro d
      refine List.isChain_cons_cons.mpr ⟨fun hguarded => absurd hguarded (by decide), ?_⟩
      exact List.isChain_cons_cons.mpr ⟨fun _ => rfl, ih false c⟩
    · refine (ih false).cons ?_
      have hplain : isSpecial c = false := by
        simp only [escapes, Bool.or_eq_true, not_or, Bool.not_eq_true] at hescapes
        exact hescapes.1.1
      simp [isGuarded, hplain]

theorem Guarded.attribute (h : Guarded t) (a : Attribute) : Guarded (a.string ++ t) := by
  have hbody : Guarded (a.body ++ t) := by
    unfold Attribute.body
    split_ifs
    · exact h.escapeFrom true a.value
    · refine h.append fun c hc => ?_
      rcases List.mem_cons.mp hc with rfl | hc
      · decide
      · have hhex : ∀ d, d < 16 → isGuarded (Nat.digitChar d) = false := by decide
        obtain ⟨b, -, hb⟩ := List.mem_flatMap.mp hc
        rcases List.mem_pair.mp hb with rfl | rfl <;> exact hhex _ (Nat.mod_lt _ (by decide))
  rw [Attribute.string_eq, List.append_assoc]
  refine (hbody.cons (by decide)).append fun c hc => ?_
  obtain ⟨hlow, -, hsemicolon, hless, -, hgreater, hbackslash⟩ := a.range_of_mem_key hc
  have hbelow : c ≠ '+' ∧ c ≠ '"' ∧ c ≠ ',' := by
    refine ⟨?_, ?_, ?_⟩ <;> rintro rfl <;> exact absurd hlow (by decide)
  simp [isGuarded, isSpecial, hsemicolon, hless, hgreater, hbackslash, hbelow]

/-- What is read behind a `=` has a backslash wherever it has a guarded character. -/
theorem Guarded.backslash_mem (h : Guarded t) (hr : '=' :: r <:+: t) (hc : c ∈ r)
    (hguarded : isGuarded c = true) : '\\' ∈ r := by
  have hchain : ('=' :: r).IsChain fun c d => isGuarded d = true → c = '\\' := by
    obtain ⟨s, u, rfl⟩ := hr
    have hwhole := h ' '
    rw [← List.cons_append, ← List.cons_append] at hwhole
    exact hwhole.left_of_append.right_of_append
  -- either the character stands right behind `d`, or a backslash is among those after it
  have hbehind : ∀ d, (d :: r).IsChain (fun c d => isGuarded d = true → c = '\\') → c ∈ r →
      d = '\\' ∨ '\\' ∈ r := by
    clear hr hchain hc
    induction r with
    | nil => exact fun _ _ hc => absurd hc List.not_mem_nil
    | cons e r ih =>
      intro d hchain hc
      obtain ⟨hd, hrest⟩ := List.isChain_cons_cons.mp hchain
      rcases List.mem_cons.mp hc with rfl | hc
      · exact Or.inl (hd hguarded)
      · rcases ih e hrest hc with rfl | hmem
        · exact Or.inr List.mem_cons_self
        · exact Or.inr (List.mem_cons_of_mem _ hmem)
  exact (hbehind '=' hchain hc).resolve_left (by decide)

/-! ### Names -/

namespace IssuerName

variable (n : IssuerName)

/-- What is printed in front of the organization. -/
def lead : Text := n.before.flatMap fun a => a.string ++ [',']

/-- What is printed behind the organization. -/
def trail : Text := n.after.flatMap fun a => ',' :: a.string

theorem string_eq_intercalate :
    n.string = [','].intercalate (n.attributes.map Attribute.string) := by
  simp only [string, RDNSequence.string, List.map_reverse, List.reverse_reverse, List.map_map]
  congr 2
  funext a
  exact List.intercalate_singleton

/-- Where the organization stands. -/
theorem string_eq :
    n.string = n.lead ++ ('O' :: '=' :: (escapeValue n.organization ++ n.trail)) := by
  rw [string_eq_intercalate, attributes, List.map_append, List.map_cons, intercalate_append_cons,
    List.flatMap_map, List.flatMap_map]
  rfl

theorem guarded_string : Guarded n.string := by
  have hall : ∀ as : List Attribute, Guarded (as.flatMap fun a => ',' :: a.string) := by
    intro as
    induction as with
    | nil => exact guarded_nil
    | cons a as ih => exact (ih.attribute a).cons (by decide)
  rw [string_eq_intercalate]
  cases hattributes : n.attributes with
  | nil => exact guarded_nil
  | cons a as =>
    rw [List.map_cons, intercalate_cons_eq, List.flatMap_map]
    exact (hall as).attribute a

end IssuerName

end Pkix

end CertGuard
