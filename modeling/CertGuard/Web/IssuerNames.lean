import CertGuard.Scanner.DistinguishedName
import CertGuard.Web.Subscriptions

/-!
# Who issued a certificate

Three pages read the organization out of the name of an issuer, each in its own way: the
dashboard looks for an `O=` anywhere, the scan readout goes by the commas, and the issuers page
looks for one behind a comma.

## Main definitions

* `dnField`, `issuerGroup`, `shortIssuer` — the three readers
* `fieldOf`, `partAt`, `attributeAt` — what each looks for

## Main results

* `exists_isInfix_of_dnField` — what `dnField` returns stands behind a `=`
* `partAt_takeWhile` — what `dnPart` looks for ends at a comma
* `attributeAt_congr` — what `shortIssuer` finds before an attribute does not depend on it
* `mem_friendly`, `count_friendly` — what it shows of what it found
-/

namespace CertGuard

open Pkix

/-- `a || b`. -/
def orText (a b : Text) : Text := if a = [] then b else a

/-! ### `dnField` -/

/-- What a part of a name has for a key, if it is a field with that key. -/
def fieldOf (key part : Text) : Option Text :=
  match part.splitOn '=' with
  | k :: rest =>
    if strip isScriptSpace k = key then some (strip isScriptSpace (['='].intercalate rest))
    else none
  | [] => none

/-- The value of the first field with a key, wherever a comma ends it. -/
def dnField (dn key : Text) : Text := ((dn.splitOn ',').findSome? (fieldOf key)).getD []

/-! ### `issuerGroup` -/

/-- `\s*KEY=([^,]+)`, of a text that begins with it. -/
def partAt (key t : Text) : Option Text :=
  let t := t.dropWhile isScriptSpace
  if t.take (key.length + 1) = key ++ ['='] then
    let value := (t.drop (key.length + 1)).takeWhile fun c => c ≠ ','
    if value = [] then none else some value
  else none

/-- `dnPart`: such a text at the beginning or behind a comma. -/
def dnPart (dn key : Text) : Text :=
  (((partAt key dn).or (leftmost (behind ',' (partAt key)) dn)).map (strip isScriptSpace)).getD []

/-- The organization of an issuer, or else its common name, or else all of it. -/
def issuerGroup (dn : Text) : Text :=
  orText (orText (orText (dnPart dn ['O']) (dnPart dn ['C', 'N'])) dn) "Unknown".toList

/-! ### `shortIssuer` -/

/-- What `.` does not match. -/
def isLineTerminator (c : Char) : Bool :=
  c = '\n' || c = '\r' || c = '\u2028' || c = '\u2029'

/-- `,\s*[A-Za-z]+=|$`, of a text that begins with it. -/
def endsValue : Text → Bool
  | [] => true
  | c :: t =>
    let t := t.dropWhile isScriptSpace
    c = ',' && t.head?.any Char.isAlpha && (t.dropWhile Char.isAlpha).head? = some '='

/-- `(.*?)(?:,\s*[A-Za-z]+=|$)`, of a text that begins with it. -/
def valueAt : Text → Option Text
  | [] => some []
  | c :: t =>
    if endsValue (c :: t) then some []
    else if isLineTerminator c then none
    else (valueAt t).map (c :: ·)

/-- `KEY=` in letters of either case and what follows, of a text that begins with it. -/
def attributeAt (key t : Text) : Option Text :=
  if (t.take (key.length + 1)).map Char.toUpper = key ++ ['='] then
    valueAt (t.drop (key.length + 1))
  else none

/-- `replace(/^"|"$/g, '')`. -/
def unquote (t : Text) : Text :=
  let t := if t.head? = some '"' then t.tail else t
  if t.getLast? = some '"' then t.dropLast else t

/-- What `shortIssuer` shows of what it found. -/
def friendly (t : Text) : Text :=
  orText (strip isScriptSpace (unquote (t.filter fun c => c ≠ '\\'))) ['—']

/-- What is shown of an issuer: its organization or its common name, up to the next attribute. -/
def shortIssuer (dn : Text) : Text :=
  let s := strip isScriptSpace dn
  if s = [] then ['—']
  else
    let m := (leftmost (attributeAt ['O']) s).or (leftmost (attributeAt ['C', 'N']) s)
    friendly (m.getD s)

example : shortIssuer "CN=R11,O=Cloudflare\\, Inc.,C=US".toList = "Cloudflare, Inc.".toList := by
  decide +kernel

variable {v t r w key : Text} {c : Char}

/-! ### Fields -/

theorem fieldOf_cons (key r : Text) (hk : '=' ∉ key) (hkey : strip isScriptSpace key = key) :
    fieldOf key (key ++ '=' :: r) = some (strip isScriptSpace r) := by
  rw [fieldOf, List.splitOn_append_cons_self_of_not_mem hk]
  simp only [hkey, if_true, List.intercalate_splitOn]

theorem exists_of_fieldOf (hne : v ≠ []) (h : fieldOf key t = some v) :
    ∃ k r, t = k ++ '=' :: r ∧ v = strip isScriptSpace r := by
  rw [fieldOf] at h
  cases hparts : t.splitOn '=' with
  | nil => exact absurd hparts (List.splitOn_ne_nil '=' t)
  | cons k rest =>
    simp only [hparts] at h
    split_ifs at h
    -- without a `=` nothing is read
    have hrest : rest ≠ [] := by
      rintro rfl
      exact hne (Option.some.inj h).symm
    refine ⟨k, ['='].intercalate rest, ?_, (Option.some.inj h).symm⟩
    have hjoined : ['='].intercalate (t.splitOn '=') = t := List.intercalate_splitOn '='
    rw [← hjoined, hparts, List.intercalate_cons_of_ne_nil hrest, List.append_assoc]
    rfl

/-- What `dnField` returns it read from a part of the name, behind a `=`. -/
theorem exists_isInfix_of_dnField (hne : v ≠ []) (h : dnField t key = v) :
    ',' ∉ v ∧ ∃ r, '=' :: r <:+: t ∧ v = strip isScriptSpace r := by
  obtain ⟨part, hpart, hfield⟩ : ∃ part ∈ t.splitOn ',', fieldOf key part = some v := by
    cases hfound : (t.splitOn ',').findSome? (fieldOf key) with
    | none =>
      rw [dnField, hfound] at h
      exact absurd h.symm hne
    | some u =>
      rw [dnField, hfound, Option.getD_some] at h
      exact h ▸ List.exists_of_findSome?_eq_some hfound
  obtain ⟨k, r, rfl, hread⟩ := exists_of_fieldOf hne hfield
  have hbehind : '=' :: r <:+: t :=
    (List.suffix_append k _).isInfix.trans (isInfix_of_mem_splitOn hpart)
  refine ⟨fun hcomma => not_mem_of_mem_splitOn hpart ?_, r, hbehind, hread⟩
  rw [hread] at hcomma
  exact List.mem_append_right _ (List.mem_cons_of_mem _ (mem_of_mem_strip hcomma))

/-! ### Parts behind a comma -/

theorem partAt_append_cons (hkey : ',' ∉ key) (s x : Text) :
    partAt key (s ++ ',' :: x) = partAt key s := by
  have htake : ((s.dropWhile isScriptSpace ++ ',' :: x).take (key.length + 1) = key ++ ['=']) ↔
      (s.dropWhile isScriptSpace).take (key.length + 1) = key ++ ['='] := by
    rcases Nat.lt_or_ge (s.dropWhile isScriptSpace).length (key.length + 1) with hlen | hlen
    · -- the comma would have to be one of the characters of the key
      refine iff_of_false (fun heq => ?_) fun heq => ?_
      · have hmem : ',' ∈ (s.dropWhile isScriptSpace ++ ',' :: x).take (key.length + 1) := by
          rw [List.take_append, List.mem_append]
          refine Or.inr ?_
          obtain ⟨k, hk⟩ := Nat.exists_eq_succ_of_ne_zero (Nat.sub_ne_zero_of_lt hlen)
          rw [hk, List.take_succ_cons]
          exact List.mem_cons_self
        rw [heq] at hmem
        exact hkey (by simpa using hmem)
      · have hshort := congrArg List.length heq
        rw [List.length_take, List.length_append, List.length_singleton] at hshort
        omega
    · rw [List.take_append_of_le_length hlen]
  simp only [partAt]
  rw [dropWhile_append_cons (by decide)]
  by_cases hstart : (s.dropWhile isScriptSpace).take (key.length + 1) = key ++ ['=']
  · have hlen : key.length + 1 ≤ (s.dropWhile isScriptSpace).length := by
      have hlength := congrArg List.length hstart
      rw [List.length_take, List.length_append, List.length_singleton] at hlength
      omega
    rw [if_pos (htake.mpr hstart), if_pos hstart, List.drop_append_of_le_length hlen,
      takeWhile_append_cons (by decide)]
  · rw [if_neg (mt htake.mp hstart), if_neg hstart]

/-- What is read ends at a comma. -/
theorem partAt_takeWhile (hkey : ',' ∉ key) (t : Text) :
    partAt key t = partAt key (t.takeWhile fun c => c ≠ ',') := by
  have hself : ∀ s : Text, ',' ∉ s → (s.takeWhile fun c => c ≠ ',') = s := fun s hs =>
    List.takeWhile_eq_self_iff.mpr fun c hc => decide_eq_true fun heq => hs (heq ▸ hc)
  by_cases hcomma : ',' ∈ t
  · obtain ⟨s, x, rfl, hnot⟩ := List.eq_append_cons_of_mem hcomma
    rw [takeWhile_append_cons (by decide), hself s hnot, partAt_append_cons hkey]
  · rw [hself t hcomma]

/-- What stands behind a key is read if it has no comma. -/
theorem partAt_cons (hne : r ≠ []) (hr : ∀ c ∈ r, c ≠ ',') :
    partAt ['O'] ('O' :: '=' :: r) = some r := by
  have hstart : ('O' :: '=' :: r).dropWhile isScriptSpace = 'O' :: '=' :: r :=
    List.dropWhile_cons_of_neg (by decide)
  have hwhole : (r.takeWhile fun c => c ≠ ',') = r :=
    List.takeWhile_eq_self_iff.mpr fun c hc => decide_eq_true (hr c hc)
  simp only [partAt, hstart, List.length_singleton, List.take_succ_cons, List.take_zero,
    List.drop_succ_cons, List.drop_zero, hwhole, if_neg hne]
  rfl

/-- `issuerGroup` takes the common name where it reads nothing for an organization. -/
theorem issuerGroup_eq_iff_dnPart (hne : v ≠ []) (hdn : t ≠ []) (hv : t ≠ v) : issuerGroup t = v ↔
    dnPart t ['O'] = v ∨ dnPart t ['O'] = [] ∧ dnPart t ['C', 'N'] = v := by
  simp only [issuerGroup, orText]
  grind

/-! ### Values that end at an attribute -/

theorem endsValue_of_ne (hc : c ≠ ',') (t : Text) : endsValue (c :: t) = false := by
  simp [endsValue, hc]

/-- Whether a value ends in front of a comma does not depend on what follows the comma. -/
theorem endsValue_congr (c : Char) (r t w : Text) :
    endsValue (c :: (r ++ ',' :: t)) = endsValue (c :: (r ++ ',' :: w)) := by
  simp only [endsValue, dropWhile_append_cons (show isScriptSpace ',' = false by decide),
    dropWhile_append_cons (show Char.isAlpha ',' = false by decide), List.head?_append,
    List.head?_cons]

theorem endsValue_organization (t : Text) : endsValue (',' :: 'O' :: '=' :: t) = true := by
  simp only [endsValue]
  rw [List.dropWhile_cons_of_neg (by decide), List.dropWhile_cons_of_pos (by decide),
    List.dropWhile_cons_of_neg (by decide)]
  rfl

/-- A value that begins before the organization ends in front of it. -/
theorem valueAt_congr (r t : Text) :
    valueAt (r ++ ',' :: 'O' :: '=' :: t) = valueAt (r ++ [',', 'O', '=']) := by
  induction r with
  | nil =>
    simp only [List.nil_append, valueAt]
    rw [if_pos (endsValue_organization t), if_pos (endsValue_organization [])]
  | cons c r ih =>
    simp only [List.cons_append, valueAt, ih, endsValue_congr c r ('O' :: '=' :: t) ['O', '=']]

/-- And so what is found before it does not depend on it. -/
theorem attributeAt_congr (r t : Text) :
    attributeAt ['O'] (r ++ ',' :: 'O' :: '=' :: t) =
      attributeAt ['O'] (r ++ [',', 'O', '=']) := by
  -- the two characters of `O=` may be the last before the comma, or not fit before it
  match r with
  | [] => rfl
  | [c] =>
    have hcomma : ∀ t : Text, attributeAt ['O'] (c :: ',' :: t) = none := fun t =>
      if_neg (by simp)
    rw [List.singleton_append, List.singleton_append, hcomma, hcomma]
  | c :: d :: r =>
    simp only [attributeAt, List.cons_append, List.length_singleton, List.take_succ_cons,
      List.take_zero, List.drop_succ_cons, List.drop_zero, valueAt_congr]

theorem valueAt_append (hw : ∀ c ∈ w, c ≠ ',' ∧ isLineTerminator c = false) (t : Text) :
    valueAt (w ++ t) = (valueAt t).map (w ++ ·) := by
  induction w with
  | nil => simp
  | cons c w ih =>
    obtain ⟨hcomma, hline⟩ := hw c List.mem_cons_self
    rw [List.cons_append, valueAt, endsValue_of_ne hcomma,
      ih fun d hd => hw d (List.mem_cons_of_mem _ hd), Option.map_map]
    simp only [Bool.false_eq_true, if_false, hline]
    rfl

/-- What is read does not go beyond a line. -/
theorem isLineTerminator_of_valueAt (h : valueAt t = some v) (hc : c ∈ v) :
    isLineTerminator c = false := by
  induction t generalizing v with
  | nil =>
    obtain rfl := Option.some.inj h
    exact absurd hc List.not_mem_nil
  | cons d t ih =>
    rw [valueAt] at h
    split_ifs at h with hends hline
    · obtain rfl := Option.some.inj h
      exact absurd hc List.not_mem_nil
    · obtain ⟨u, hu, rfl⟩ := Option.map_eq_some_iff.mp h
      rcases List.mem_cons.mp hc with rfl | hc
      · simpa using hline
      · exact ih hu hc

theorem isLineTerminator_of_leftmost (h : leftmost (attributeAt key) t = some v) (hc : c ∈ v) :
    isLineTerminator c = false := by
  obtain ⟨u, -, hu⟩ := exists_of_leftmost h
  rw [attributeAt] at hu
  split_ifs at hu
  exact isLineTerminator_of_valueAt hu hc

/-! ### What `shortIssuer` shows -/

theorem mem_of_mem_unquote (h : c ∈ unquote t) : c ∈ t := by
  have htail : ∀ t : Text, c ∈ (if t.head? = some '"' then t.tail else t) → c ∈ t := by
    intro t h
    split_ifs at h
    · exact List.mem_of_mem_tail h
    · exact h
  have hlast : ∀ t : Text, c ∈ (if t.getLast? = some '"' then t.dropLast else t) → c ∈ t := by
    intro t h
    split_ifs at h
    · exact List.mem_of_mem_dropLast h
    · exact h
  exact htail t (hlast _ h)

/-- It shows what it found, without backslashes, or a dash. -/
theorem mem_friendly (h : c ∈ friendly t) : c = '—' ∨ c ∈ t ∧ c ≠ '\\' := by
  simp only [friendly, orText] at h
  split_ifs at h
  · exact Or.inl (List.mem_singleton.mp h)
  · have hmem := List.mem_filter.mp (mem_of_mem_unquote (mem_of_mem_strip h))
    exact Or.inr ⟨hmem.1, of_decide_eq_true hmem.2⟩

theorem friendly_ne_nil (t : Text) : friendly t ≠ [] := by
  simp only [friendly, orText]
  split_ifs with h
  · exact List.cons_ne_nil _ _
  · exact h

theorem strip_friendly (t : Text) : strip isScriptSpace (friendly t) = friendly t := by
  simp only [friendly, orText]
  split_ifs
  · decide
  · exact strip_strip

theorem count_unquote (hc : c ≠ '"') (t : Text) : (unquote t).count c = t.count c := by
  have htail : ∀ t : Text, (if t.head? = some '"' then t.tail else t).count c = t.count c := by
    intro t
    split_ifs with h
    · obtain ⟨r, rfl⟩ := List.head?_eq_some_iff.mp h
      rw [List.tail_cons, List.count_cons_of_ne hc.symm]
    · rfl
  have hlast : ∀ t : Text, (if t.getLast? = some '"' then t.dropLast else t).count c =
      t.count c := by
    intro t
    split_ifs with h
    · obtain ⟨r, rfl⟩ := List.getLast?_eq_some_iff.mp h
      rw [List.dropLast_concat, List.count_append, List.count_singleton]
      simp [hc.symm]
    · rfl
  rw [unquote, hlast, htail]

/-- No `=` is lost. -/
theorem count_friendly (h : '=' ∈ t) : (friendly t).count '=' = t.count '=' := by
  have hcount : (strip isScriptSpace (unquote (t.filter fun c => c ≠ '\\'))).count '=' =
      t.count '=' := by
    rw [count_strip (by decide), count_unquote (by decide), List.count_filter (by decide)]
  have hne : strip isScriptSpace (unquote (t.filter fun c => c ≠ '\\')) ≠ [] := by
    intro hnil
    rw [hnil, List.count_nil] at hcount
    exact absurd hcount.symm (List.count_pos_iff.mpr h).ne'
  rw [friendly, orText, if_neg hne, hcount]

end CertGuard
