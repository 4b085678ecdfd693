import CertGuard.Web.IssuerNames

/-!
# One organization on every page

Each of the three readers returns the organization of a printed name only where nothing of it is
escaped, nothing printed before it looks like an organization, and what follows it is recognized.

## Main definitions

* `Pkix.Plain` — a value that can be read back
* `Pkix.fieldsIn`, `Pkix.groupsIn`, `Pkix.IssuerName.anywhereBefore` — what looks like an
  organization to a reader
* `Pkix.IssuerName.Unmistakable` — a name whose organization all of them return

## Main results

* `Pkix.Plain.dnField_eq`, `Pkix.Plain.dnPart_eq`, `Pkix.Plain.exists_shortIssuer_eq` — what each
  reader returns
* `Pkix.IssuerName.ReadAlike.plain` — what all three return can be read back
* `Pkix.IssuerName.readAlike_iff` — when all three return the organization
* `Pkix.comma_cut_off` — a name of which they do not
-/

namespace CertGuard

namespace Pkix

/-- What a name has between the commas of an attribute. -/
def Attribute.parts (a : Attribute) : List Text := a.string.splitOn ','

/-- The type of the attribute has a name. -/
def Attribute.Named (a : Attribute) : Prop := (typeName a.type).isSome = true

/-- What looks like an organization to `dnField`. -/
def fieldsIn (as : List Attribute) : List Text :=
  (as.flatMap Attribute.parts).filterMap (fieldOf ['O'])

/-- What looks like an attribute with a key to `dnPart`. -/
def groupsIn (key : Text) (as : List Attribute) : List Text :=
  ((as.flatMap Attribute.parts).filterMap (partAt key)).map (strip isScriptSpace)

/-- A value that can be read back. -/
structure Plain (v : Text) : Prop where
  ne_nil : v ≠ []
  stripped : strip isScriptSpace v = v
  unescaped : ∀ c ∈ v, isSpecial c = false
  single_line : ∀ c ∈ v, isLineTerminator c = false

namespace IssuerName

variable (n : IssuerName)

/-- What looks like an organization to `shortIssuer`, in front of the organization. -/
def anywhereBefore : Option Text :=
  (leftmostBefore (attributeAt ['O']) ['O', '='] n.lead).map friendly

/-- Nothing before the organization looks like one to `dnField`, or the first that does reads
the same; a `#` at its beginning is escaped. -/
def FieldClear : Prop :=
  match (fieldsIn n.before).head? with
  | none => n.organization.head? ≠ some '#'
  | some t => t = n.organization

/-- The same of `dnPart`; where it reads nothing, `issuerGroup` goes by the common name. -/
def GroupClear : Prop :=
  match (groupsIn ['O'] n.before).head? with
  | none => n.organization.head? ≠ some '#'
  | some t => t = n.organization ∨
      t = [] ∧ (groupsIn ['C', 'N'] n.attributes).head? = some n.organization

/-- The same of `shortIssuer`, which does not end at an attribute whose type has no name. -/
def AnywhereClear : Prop :=
  match n.anywhereBefore with
  | none => ∀ a ∈ n.after.head?, a.Named
  | some t => t = n.organization

/-- The organization can be read back, and is what each reader comes upon. -/
structure Unmistakable : Prop where
  plain : Plain n.organization
  field : n.FieldClear
  group : n.GroupClear
  anywhere : n.AnywhereClear

/-- All three readers return the organization. -/
def ReadAlike : Prop :=
  shortIssuer n.string = n.organization ∧ dnField n.string ['O'] = n.organization ∧
    issuerGroup n.string = n.organization

end IssuerName

variable {n : IssuerName} {a : Attribute} {v t r key : Text} {c : Char}

/-! ### Characters -/

theorem Attribute.isScriptSpace_of_mem_key (h : c ∈ a.key) : isScriptSpace c = false := by
  obtain ⟨hlow, hhigh, -⟩ := a.range_of_mem_key h
  simp only [isScriptSpace, Bool.or_eq_false_iff, Bool.and_eq_false_iff, decide_eq_false_iff_not]
  omega

theorem Attribute.not_mem_key (a : Attribute) : ',' ∉ a.key := fun h =>
  absurd (a.range_of_mem_key h).1 (by decide)

theorem Attribute.isLineTerminator_of_mem_key (h : c ∈ a.key) : isLineTerminator c = false := by
  obtain ⟨hlow, hhigh, -⟩ := a.range_of_mem_key h
  have hne : ∀ d : Char, d.toNat < 46 ∨ 122 < d.toNat → c ≠ d := by
    rintro d hd rfl
    omega
  simp [isLineTerminator, hne '\n' (by decide), hne '\r' (by decide), hne '\u2028' (by decide),
    hne '\u2029' (by decide)]

/-- What `hex.EncodeToString` writes is nothing to a reader. -/
theorem plain_of_mem_hexEncode {bs : List UInt8} (h : c ∈ hexEncode bs) :
    c ≠ ',' ∧ isLineTerminator c = false ∧ isScriptSpace c = false := by
  have hhex : ∀ d, d < 16 → Nat.digitChar d ≠ ',' ∧ isLineTerminator (Nat.digitChar d) = false ∧
      isScriptSpace (Nat.digitChar d) = false := by decide
  obtain ⟨b, -, hb⟩ := List.mem_flatMap.mp h
  rcases List.mem_pair.mp hb with rfl | rfl <;> exact hhex _ (Nat.mod_lt _ (by decide))

/-! ### Values that can be read back -/

theorem Plain.isScriptSpace_of_head? (h : Plain v) (hc : v.head? = some c) :
    isScriptSpace c = false :=
  head?_strip (h.stripped.symm ▸ hc)

theorem Plain.isScriptSpace_of_getLast? (h : Plain v) (hc : v.getLast? = some c) :
    isScriptSpace c = false :=
  getLast?_strip (h.stripped.symm ▸ hc)

/-- Of a value that can be read back only a `#` at its beginning is escaped. -/
theorem Plain.escapeValue_eq (h : Plain v) :
    escapeValue v = if v.head? = some '#' then '\\' :: v else v := by
  refine escapeValue_of_plain h.unescaped ?_ ?_
  · exact fun hhead => absurd (h.isScriptSpace_of_head? hhead) (by decide)
  · exact fun hlast => absurd (h.isScriptSpace_of_getLast? hlast) (by decide)

theorem Plain.escapeValue_eq_self_iff (h : Plain v) :
    escapeValue v = v ↔ v.head? ≠ some '#' := by
  rw [h.escapeValue_eq]
  split_ifs with hhead
  · exact iff_of_false (fun heq => absurd (congrArg List.length heq) (by simp)) (by simp [hhead])
  · exact iff_of_true rfl hhead

theorem Plain.mem_escapeValue (h : Plain v) (hc : c ∈ escapeValue v) :
    c ≠ ',' ∧ isLineTerminator c = false := by
  have hmem : c = '\\' ∨ c ∈ v := by
    rw [h.escapeValue_eq] at hc
    split_ifs at hc
    · exact List.mem_cons.mp hc
    · exact Or.inr hc
  rcases hmem with rfl | hmem
  · decide
  · refine ⟨?_, h.single_line c hmem⟩
    rintro rfl
    exact absurd (h.unescaped ',' hmem) (by decide)

theorem Plain.escapeValue_ne_nil (h : Plain v) : escapeValue v ≠ [] := by
  rw [h.escapeValue_eq]
  split_ifs
  · exact List.cons_ne_nil _ _
  · exact h.ne_nil

theorem Plain.getLast?_escapeValue (h : Plain v) : (escapeValue v).getLast? = v.getLast? := by
  rw [h.escapeValue_eq]
  split_ifs
  · cases hv : v with
    | nil => exact absurd hv h.ne_nil
    | cons c cs => exact List.getLast?_cons_cons
  · rfl

theorem Plain.strip_escapeValue (h : Plain v) :
    strip isScriptSpace (escapeValue v) = escapeValue v := by
  refine strip_eq_self (fun c hc => ?_) fun c hc => ?_
  · rw [h.escapeValue_eq] at hc
    split_ifs at hc
    · obtain rfl := Option.some.inj hc
      decide
    · exact h.isScriptSpace_of_head? hc
  · exact h.isScriptSpace_of_getLast? (h.getLast?_escapeValue ▸ hc)

/-- A value that can be read back is shown without the backslash of its `#`. -/
theorem Plain.friendly_escapeValue (h : Plain v) : friendly (escapeValue v) = v := by
  have hnot : ∀ c, isSpecial c = true → c ∉ v := fun c hc hmem =>
    absurd (h.unescaped c hmem) (by simp [hc])
  have hkept : (v.filter fun c => c ≠ '\\') = v :=
    List.filter_eq_self.mpr fun c hc => decide_eq_true fun heq => hnot '\\' (by decide) (heq ▸ hc)
  have hfilter : ((escapeValue v).filter fun c => c ≠ '\\') = v := by
    rw [h.escapeValue_eq]
    split_ifs
    · exact (List.filter_cons_of_neg (by decide)).trans hkept
    · exact hkept
  have hunquote : unquote v = v := by
    have hhead : v.head? ≠ some '"' := fun hhead =>
      hnot '"' (by decide) (List.mem_of_mem_head? hhead)
    have hlast : v.getLast? ≠ some '"' := fun hlast =>
      hnot '"' (by decide) (List.mem_of_mem_getLast? hlast)
    rw [unquote, if_neg hhead, if_neg hlast]
  rw [friendly, hfilter, hunquote, h.stripped, orText, if_neg h.ne_nil]

/-! ### Names -/

/-- More `=` are printed than the organization has. -/
theorem count_lt_count_string (n : IssuerName) :
    n.organization.count '=' < n.string.count '=' := by
  rw [n.string_eq, List.count_append, List.count_cons_of_ne (by decide), List.count_cons_self,
    List.count_append, count_escapeValue (by decide)]
  omega

theorem exists_string_eq_cons (n : IssuerName) :
    ∃ c t, n.string = c :: t ∧ isScriptSpace c = false := by
  have hall : ∀ a : Attribute, ∃ c t, a.string = c :: t ∧ isScriptSpace c = false := by
    intro a
    rw [a.string_eq]
    cases hkey : a.key with
    | nil => exact ⟨'=', a.body, rfl, by decide⟩
    | cons c key =>
      exact ⟨c, key ++ '=' :: a.body, rfl, a.isScriptSpace_of_mem_key (hkey ▸ List.mem_cons_self)⟩
  rw [IssuerName.string_eq_intercalate]
  cases hattributes : n.attributes with
  | nil => exact absurd hattributes (by simp [IssuerName.attributes])
  | cons a as =>
    obtain ⟨c, t, ha, hc⟩ := hall a
    rw [List.map_cons, intercalate_cons_eq, ha]
    exact ⟨c, _, rfl, hc⟩

theorem splitOn_string (n : IssuerName) :
    n.string.splitOn ',' = n.attributes.flatMap Attribute.parts := by
  rw [IssuerName.string_eq_intercalate, splitOn_intercalate_flatMap, List.flatMap_map]
  · rfl
  · simp [IssuerName.attributes]

/-- Where the organization can be read back it is a part of its own. -/
theorem Plain.parts_eq (h : Plain v) :
    ({ type := oidOrganization, value := v } : Attribute).parts =
      ['O' :: '=' :: escapeValue v] := by
  refine List.splitOn_eq_singleton fun hmem => ?_
  have hstring : ({ type := oidOrganization, value := v } : Attribute).string =
      'O' :: '=' :: escapeValue v := rfl
  rw [hstring] at hmem
  simp only [List.mem_cons, Char.reduceEq, false_or] at hmem
  exact (h.mem_escapeValue hmem).1 rfl

theorem Plain.strip_string (h : Plain n.organization) : strip isScriptSpace n.string =
    n.lead ++ 'O' :: '=' :: (escapeValue n.organization ++
      n.trail.rdropWhile isScriptSpace) := by
  obtain ⟨c, t, hstring, hc⟩ := exists_string_eq_cons n
  have hstart : n.string.dropWhile isScriptSpace = n.string := by
    rw [hstring]
    exact List.dropWhile_cons_of_neg (by simp [hc])
  obtain ⟨d, hd⟩ := Option.ne_none_iff_exists'.mp
    (fun hnone => h.escapeValue_ne_nil (List.getLast?_eq_none_iff.mp hnone))
  have hlast : (n.lead ++ 'O' :: '=' :: escapeValue n.organization).getLast? = some d := by
    rw [List.getLast?_append, List.getLast?_cons_cons, List.getLast?_cons, hd]
    rfl
  have hspace : isScriptSpace d = false :=
    h.isScriptSpace_of_getLast? (h.getLast?_escapeValue ▸ hd)
  have hsplit : n.string = (n.lead ++ 'O' :: '=' :: escapeValue n.organization) ++ n.trail := by
    rw [n.string_eq]
    simp
  rw [strip, hstart, hsplit, rdropWhile_append_of_last hlast hspace]
  simp

/-! ### Going by the commas -/

theorem dnField_string (n : IssuerName) :
    dnField n.string ['O'] = (fieldsIn n.attributes).head?.getD [] := by
  rw [dnField, splitOn_string, fieldsIn, List.head?_filterMap]

/-- `dnField` reads the first thing that looks like an organization, or the organization. -/
theorem Plain.dnField_eq (h : Plain n.organization) : dnField n.string ['O'] =
    (fieldsIn n.before).head?.getD (escapeValue n.organization) := by
  have hown : fieldOf ['O'] ('O' :: '=' :: escapeValue n.organization) =
      some (escapeValue n.organization) := by
    refine (fieldOf_cons ['O'] _ (by decide) (by decide)).trans ?_
    rw [h.strip_escapeValue]
  have hfields : fieldsIn n.attributes = fieldsIn n.before ++
      escapeValue n.organization :: fieldsIn n.after := by
    rw [fieldsIn, IssuerName.attributes, List.flatMap_append, List.flatMap_cons, h.parts_eq,
      List.filterMap_append, List.singleton_append, List.filterMap_cons_some hown]
    rfl
  rw [dnField_string, hfields, List.head?_append, List.head?_cons]
  cases (fieldsIn n.before).head? <;> rfl

theorem dnPart_string (hkey : ',' ∉ key) (n : IssuerName) :
    dnPart n.string key = (groupsIn key n.attributes).head?.getD [] := by
  rw [dnPart, or_leftmost_behind (partAt_takeWhile hkey), splitOn_string, groupsIn,
    List.head?_map, List.head?_filterMap]

/-- `dnPart` reads the first thing that looks like an organization, or the organization. -/
theorem Plain.dnPart_eq (h : Plain n.organization) : dnPart n.string ['O'] =
    (groupsIn ['O'] n.before).head?.getD (escapeValue n.organization) := by
  have hown : partAt ['O'] ('O' :: '=' :: escapeValue n.organization) =
      some (escapeValue n.organization) :=
    partAt_cons h.escapeValue_ne_nil fun c hc => (h.mem_escapeValue hc).1
  have hgroups : groupsIn ['O'] n.attributes = groupsIn ['O'] n.before ++
      escapeValue n.organization :: groupsIn ['O'] n.after := by
    rw [groupsIn, IssuerName.attributes, List.flatMap_append, List.flatMap_cons, h.parts_eq,
      List.filterMap_append, List.singleton_append, List.filterMap_cons_some hown,
      List.map_append, List.map_cons, h.strip_escapeValue]
    rfl
  rw [dnPart_string (by decide), hgroups, List.head?_append, List.head?_cons]
  cases (groupsIn ['O'] n.before).head? <;> rfl

/-! ### Anywhere -/

/-- What is printed in front of the organization ends with a comma. -/
theorem IssuerName.exists_of_suffix_lead (hne : r ≠ []) (hr : r <:+ n.lead) :
    ∃ s, r = s ++ [','] := by
  have hlead : ∀ as : List Attribute, r <:+ as.flatMap (fun a => a.string ++ [',']) →
      ∃ s, r = s ++ [','] := by
    intro as
    induction as using List.reverseRecOn with
    | nil => exact fun hr => absurd (List.suffix_nil.mp hr) hne
    | append_singleton as a _ =>
      intro hr
      rw [List.flatMap_append, List.flatMap_singleton, ← List.append_assoc] at hr
      rcases List.suffix_concat_iff.mp hr with rfl | ⟨s, rfl, -⟩
      · exact absurd rfl hne
      · exact ⟨s, by simp⟩
  exact hlead n.before hr

theorem endsValue_named (ha : a.Named) (t : Text) :
    endsValue (',' :: (a.key ++ '=' :: t)) = true := by
  obtain ⟨name, hname⟩ := Option.isSome_iff_exists.mp ha
  have hkey : a.key = name := by rw [Attribute.key, hname, Option.getD_some]
  obtain ⟨hne, halpha⟩ := isAlpha_of_typeName hname
  have hspace : ∀ c ∈ name, isScriptSpace c = false := fun c hc =>
    a.isScriptSpace_of_mem_key (hkey.symm ▸ hc)
  rw [hkey]
  have hletters : (name ++ '=' :: t).dropWhile Char.isAlpha = '=' :: t := by
    rw [dropWhile_append_cons (by decide), List.dropWhile_eq_nil_iff.mpr halpha, List.nil_append]
  cases name with
  | nil => exact absurd rfl hne
  | cons c name =>
    have hstart : (c :: name ++ '=' :: t).dropWhile isScriptSpace = c :: name ++ '=' :: t :=
      List.dropWhile_cons_of_neg (by simp [hspace c List.mem_cons_self])
    simp only [endsValue, hstart, hletters]
    simp [halpha c List.mem_cons_self]

theorem endsValue_unnamed (ha : ¬ a.Named) (t : Text) :
    endsValue (',' :: (a.key ++ '=' :: t)) = false := by
  have hname : typeName a.type = none := by simpa [Attribute.Named] using ha
  have hkey : a.key = oidString a.type := by rw [Attribute.key, hname, Option.getD_none]
  have hspace : ∀ c ∈ a.key, isScriptSpace c = false := fun c hc => a.isScriptSpace_of_mem_key hc
  rw [hkey] at hspace ⊢
  cases hoid : oidString a.type with
  | nil => rfl
  | cons c oid =>
    have hmem : c ∈ oidString a.type := hoid ▸ List.mem_cons_self
    have hstart : (c :: oid ++ '=' :: t).dropWhile isScriptSpace = c :: oid ++ '=' :: t :=
      List.dropWhile_cons_of_neg (by simp [hspace c hmem])
    have hdigit : c.isAlpha = false := by
      rcases isDigit_of_mem_oidString hmem with hdigit | rfl
      · refine Bool.eq_false_iff.mpr fun halpha => ?_
        have hlow := toNat_of_isDigit hdigit
        have hhigh := toNat_of_isAlpha halpha
        omega
      · decide
    simp only [endsValue, hstart]
    simp [hdigit]

theorem body_eq_of_unnamed (ha : ¬ a.Named) : a.body = '#' :: hexEncode a.der := if_neg ha

/-- What is printed of an attribute whose type has no name is nothing to a reader. -/
theorem plain_of_mem_body (ha : ¬ a.Named) (hc : c ∈ a.body) :
    c ≠ ',' ∧ isLineTerminator c = false ∧ isScriptSpace c = false := by
  rw [body_eq_of_unnamed ha] at hc
  rcases List.mem_cons.mp hc with rfl | hc
  · decide
  · exact plain_of_mem_hexEncode hc

/-- A value goes over such an attribute. -/
theorem valueAt_unnamed (ha : ¬ a.Named) (t : Text) : valueAt (',' :: (a.string ++ t)) =
    (valueAt t).map fun u => ',' :: (a.string ++ u) := by
  have hread : ∀ c ∈ a.string, c ≠ ',' ∧ isLineTerminator c = false := by
    intro c hc
    rw [a.string_eq] at hc
    rcases List.mem_append.mp hc with hc | hc
    · exact ⟨fun heq => a.not_mem_key (heq ▸ hc), a.isLineTerminator_of_mem_key hc⟩
    · rcases List.mem_cons.mp hc with rfl | hc
      · decide
      · exact ⟨(plain_of_mem_body ha hc).1, (plain_of_mem_body ha hc).2.1⟩
  have hgoes : endsValue (',' :: (a.string ++ t)) = false := by
    rw [a.string_eq, List.append_assoc]
    exact endsValue_unnamed ha _
  rw [valueAt, hgoes, valueAt_append hread, Option.map_map]
  rfl

/-- Trimming leaves the key of an attribute, and all of one whose type has no name. -/
theorem exists_rdropWhile_attribute (a : Attribute) (t : Text) :
    ∃ s, (',' :: (a.string ++ t)).rdropWhile isScriptSpace = ',' :: (a.key ++ '=' :: s) ∧
      (¬ a.Named → ',' :: (a.key ++ '=' :: s) =
        ',' :: (a.string ++ t.rdropWhile isScriptSpace)) := by
  have hlast : (',' :: (a.key ++ ['='])).getLast? = some '=' := by
    rw [← List.cons_append, List.getLast?_concat]
  have hkey := rdropWhile_append_of_last hlast (show isScriptSpace '=' = false by decide)
    (a.body ++ t)
  refine ⟨(a.body ++ t).rdropWhile isScriptSpace, by simpa [a.string_eq] using hkey, ?_⟩
  intro ha
  have hne : a.body ≠ [] := by
    rw [body_eq_of_unnamed ha]
    exact List.cons_ne_nil _ _
  have hbody : isScriptSpace (a.body.getLast hne) = false :=
    (plain_of_mem_body ha (List.getLast_mem hne)).2.2
  rw [rdropWhile_append_of_last (List.getLast?_eq_some_getLast hne) hbody, a.string_eq]
  simp

/-- Read on from the organization, a value ends there if an attribute of a named type follows or
none, and goes over the next attribute otherwise. -/
theorem exists_valueAt_trail (as : List Attribute) :
    ∃ u, valueAt ((as.flatMap fun a => ',' :: a.string).rdropWhile isScriptSpace) = some u ∧
      ((∀ a ∈ as.head?, a.Named) → u = []) ∧ (¬ (∀ a ∈ as.head?, a.Named) → '=' ∈ u) := by
  induction as with
  | nil => exact ⟨[], rfl, fun _ => rfl, fun h => absurd (by simp) h⟩
  | cons a as ih =>
    obtain ⟨s, hs, hunnamed⟩ :=
      exists_rdropWhile_attribute a (as.flatMap fun a => ',' :: a.string)
    rw [List.flatMap_cons, List.cons_append, hs]
    by_cases ha : a.Named
    · -- the value ends here
      refine ⟨[], ?_, fun _ => rfl, fun h => absurd (by simpa using ha) h⟩
      rw [valueAt, if_pos (endsValue_named ha s)]
    · obtain ⟨u, hu, -⟩ := ih
      refine ⟨',' :: (a.string ++ u), ?_, fun h => absurd (by simpa using h) ha, fun _ => ?_⟩
      · rw [hunnamed ha, valueAt_unnamed ha, hu, Option.map_some]
      · rw [a.string_eq]
        simp

/-- What is read beyond the organization is something else. -/
theorem friendly_append_ne (hu : '=' ∈ t) : friendly (escapeValue v ++ t) ≠ v := by
  intro heq
  have hcount := count_friendly (List.mem_append_right (escapeValue v) hu)
  rw [heq, List.count_append, count_escapeValue (by decide)] at hcount
  have hpos := List.count_pos_iff.mpr hu
  omega

/-- `shortIssuer` shows the first thing that looks like an organization, or the organization with
what it takes to belong to it. -/
theorem Plain.exists_shortIssuer_eq (h : Plain n.organization) : ∃ u,
    shortIssuer n.string =
        n.anywhereBefore.getD (friendly (escapeValue n.organization ++ u)) ∧
      ((∀ a ∈ n.after.head?, a.Named) → u = []) ∧
      (¬ (∀ a ∈ n.after.head?, a.Named) → '=' ∈ u) := by
  obtain ⟨u, hu, hnamed, hunnamed⟩ := exists_valueAt_trail n.after
  refine ⟨u, ?_, hnamed, hunnamed⟩
  have hown : attributeAt ['O'] ('O' :: '=' :: (escapeValue n.organization ++
      n.trail.rdropWhile isScriptSpace)) = some (escapeValue n.organization ++ u) := by
    have hvalue := valueAt_append (fun _ hc => h.mem_escapeValue hc)
      (n.trail.rdropWhile isScriptSpace)
    rw [IssuerName.trail, hu] at hvalue
    exact (if_pos rfl).trans hvalue
  have hfirst : leftmost (attributeAt ['O']) (strip isScriptSpace n.string) =
      (leftmostBefore (attributeAt ['O']) ['O', '='] n.lead).or
        (some (escapeValue n.organization ++ u)) := by
    rw [h.strip_string, leftmost_append, leftmost, hown, Option.some_or]
    congr 1
    -- what is found before the organization is so whatever its value is
    refine leftmostBefore_congr fun r hne hr => ?_
    obtain ⟨s, rfl⟩ := IssuerName.exists_of_suffix_lead hne hr
    simp only [List.append_assoc, List.singleton_append]
    exact attributeAt_congr s _
  have hne : strip isScriptSpace n.string ≠ [] := by
    rw [h.strip_string]
    simp
  simp only [shortIssuer, if_neg hne, hfirst, IssuerName.anywhereBefore]
  cases leftmostBefore (attributeAt ['O']) ['O', '='] n.lead <;> rfl

/-! ### All three -/

theorem Plain.dnField_eq_iff (h : Plain n.organization) :
    dnField n.string ['O'] = n.organization ↔ n.FieldClear := by
  rw [h.dnField_eq, IssuerName.FieldClear]
  cases (fieldsIn n.before).head? with
  | none => exact h.escapeValue_eq_self_iff
  | some t => exact Iff.rfl

theorem Plain.issuerGroup_eq_iff (h : Plain n.organization) :
    issuerGroup n.string = n.organization ↔ n.GroupClear := by
  obtain ⟨c, t, hstring, -⟩ := exists_string_eq_cons n
  have hdn : n.string ≠ [] := by
    rw [hstring]
    exact List.cons_ne_nil c t
  have hother : n.string ≠ n.organization := fun heq =>
    absurd (count_lt_count_string n) (by rw [heq]; exact Nat.lt_irrefl _)
  rw [issuerGroup_eq_iff_dnPart h.ne_nil hdn hother, h.dnPart_eq, dnPart_string (by decide),
    IssuerName.GroupClear]
  cases (groupsIn ['O'] n.before).head? with
  | none =>
    -- a value that can be read back is not empty, so the common name is not asked for
    simp only [Option.getD_none, h.escapeValue_ne_nil, false_and, or_false]
    exact h.escapeValue_eq_self_iff
  | some t =>
    have hname : (groupsIn ['C', 'N'] n.attributes).head?.getD [] = n.organization ↔
        (groupsIn ['C', 'N'] n.attributes).head? = some n.organization := by
      cases (groupsIn ['C', 'N'] n.attributes).head? with
      | none => simp [h.ne_nil.symm]
      | some u => simp
    simp only [Option.getD_some, hname]

theorem Plain.shortIssuer_eq_iff (h : Plain n.organization) :
    shortIssuer n.string = n.organization ↔ n.AnywhereClear := by
  obtain ⟨u, hshown, hnamed, hunnamed⟩ := h.exists_shortIssuer_eq
  rw [hshown, IssuerName.AnywhereClear]
  cases n.anywhereBefore with
  | none =>
    rw [Option.getD_none]
    constructor
    · intro heq
      by_contra hnot
      -- the next attribute is shown with it
      exact friendly_append_ne (hunnamed hnot) heq
    · intro hall
      rw [hnamed hall, List.append_nil, h.friendly_escapeValue]
  | some t => exact Iff.rfl

/-- `shortIssuer` shows something it read on one line, or the whole name. -/
theorem exists_friendly (n : IssuerName) : ∃ x, shortIssuer n.string = friendly x ∧
    (x = strip isScriptSpace n.string ∨ ∀ c ∈ x, isLineTerminator c = false) := by
  obtain ⟨c, t, hstring, hc⟩ := exists_string_eq_cons n
  have hstrip : strip isScriptSpace n.string ≠ [] := by
    rw [Ne, strip_eq_nil_iff, hstring]
    exact fun hall => absurd (hall c List.mem_cons_self) (by simp [hc])
  simp only [shortIssuer, if_neg hstrip]
  refine ⟨_, rfl, ?_⟩
  cases hfound : (leftmost (attributeAt ['O']) (strip isScriptSpace n.string)).or
    (leftmost (attributeAt ['C', 'N']) (strip isScriptSpace n.string)) with
  | none => exact Or.inl rfl
  | some u =>
    refine Or.inr fun d hd => ?_
    rcases Option.or_eq_some_iff.mp hfound with hO | ⟨-, hCN⟩
    · exact isLineTerminator_of_leftmost hO hd
    · exact isLineTerminator_of_leftmost hCN hd

/-- What `dnField` returns without a backslash has nothing that is escaped. -/
theorem isSpecial_of_dnField (hne : v ≠ []) (hbackslash : '\\' ∉ v)
    (h : dnField n.string key = v) (hc : c ∈ v) : isSpecial c = false := by
  obtain ⟨hcomma, r, hr, hread⟩ := exists_isInfix_of_dnField hne h
  by_contra hspecial
  rw [Bool.not_eq_false] at hspecial
  -- it was printed behind a backslash, which is among what was read
  have hguarded : isGuarded c = true := by
    have hne : c ≠ ',' ∧ c ≠ '\\' :=
      ⟨fun heq => hcomma (heq ▸ hc), fun heq => hbackslash (heq ▸ hc)⟩
    simp [isGuarded, hspecial, hne]
  have hmem := n.guarded_string.backslash_mem hr (mem_of_mem_strip (hread ▸ hc)) hguarded
  -- white space is all that was taken away
  have hcount := count_strip (s := r) (show isScriptSpace '\\' = false by decide)
  rw [← hread, List.count_eq_zero.mpr hbackslash] at hcount
  exact absurd hcount (List.count_pos_iff.mpr hmem).ne

/-- What all three return can be read back. -/
theorem IssuerName.ReadAlike.plain (h : n.ReadAlike) : Plain n.organization := by
  obtain ⟨hshort, hfield, -⟩ := h
  obtain ⟨x, hx, hline⟩ := exists_friendly n
  rw [hx] at hshort
  have hne : n.organization ≠ [] := hshort ▸ friendly_ne_nil x
  have hbackslash : '\\' ∉ n.organization := by
    intro hmem
    rcases mem_friendly (hshort ▸ hmem) with hdash | ⟨-, hnot⟩
    · exact absurd hdash (by decide)
    · exact hnot rfl
  refine ⟨hne, hshort ▸ strip_friendly x, fun c hc => ?_, fun c hc => ?_⟩
  · exact isSpecial_of_dnField hne hbackslash hfield hc
  · rcases hline with rfl | hline
    · -- the whole name has more of `=` than the organization
      have hcount := count_lt_count_string n
      have hwhole : '=' ∈ strip isScriptSpace n.string := by
        rw [← List.count_pos_iff, count_strip (by decide)]
        omega
      have hshown := count_friendly hwhole
      rw [hshort, count_strip (by decide)] at hshown
      omega
    · rcases mem_friendly (hshort ▸ hc) with rfl | ⟨hmem, -⟩
      · decide
      · exact hline c hmem

/-- For every name of an issuer with single attributes and an organization, whatever their
values and order: all three readers return the organization exactly if it can be read back and
is what each of them comes upon. -/
theorem IssuerName.readAlike_iff (n : IssuerName) : n.ReadAlike ↔ n.Unmistakable := by
  constructor
  · intro h
    have hplain := h.plain
    obtain ⟨hshort, hfield, hgroup⟩ := h
    exact ⟨hplain, hplain.dnField_eq_iff.mp hfield, hplain.issuerGroup_eq_iff.mp hgroup,
      hplain.shortIssuer_eq_iff.mp hshort⟩
  · rintro ⟨hplain, hfield, hgroup, hanywhere⟩
    exact ⟨hplain.shortIssuer_eq_iff.mpr hanywhere, hplain.dnField_eq_iff.mpr hfield,
      hplain.issuerGroup_eq_iff.mpr hgroup⟩

/-- The name of an issuer whose organization has a comma. -/
def demoIssuer : IssuerName where
  before := []
  organization := "Cloudflare, Inc.".toList
  after := [⟨[2, 5, 4, 6], "US".toList, []⟩]
  before_other := by simp
  after_other := by decide

/-- Two of the readers stop at the comma. -/
theorem comma_cut_off : ¬ ∀ n : IssuerName, n.ReadAlike := by
  intro h
  have hfield : dnField demoIssuer.string ['O'] = "Cloudflare\\".toList := by decide +kernel
  exact absurd (hfield.symm.trans (h demoIssuer).2.1) (by decide)

end Pkix

end CertGuard
