import CertGuard.Lib.JsonText
import CertGuard.Model.Cert

/-!
# Columns stored as JSON

The chain of an endpoint, the names its certificate covers and what answers for them are
stored as the JSON text `json.Marshal` makes of them and read back by `json.Unmarshal`.
Whether a rescan found another chain is decided on these texts, so what matters is which
chains survive the round trip.

## Main definitions

* `marshalChain` — `json.Marshal` of a chain; empty where that fails
* `unmarshalChain` — `json.Unmarshal` into a chain
* `ChainCert.Clean` — the strings of a link are UTF-8
* `marshalStrings`, `unmarshalStrings` — the same for a list of names
* `marshalCoverage`, `unmarshalCoverage` — the same for what answers for them

## Main results

* `unmarshalChain_marshalChain` — a chain with clean links is read back as it was
* `unmarshalChain_marshalChain_sanitize` — and any other with its stray bytes replaced
* `marshalChain_stable_iff` — which chains are printed the same after they were read
* `marshalChain_inj` — their texts tell them apart
* `unmarshalCoverage_marshalCoverage` — so is what answers for the names
-/

namespace CertGuard

/-- The JSON names of the fields of `ChainCert`. -/
def keySubject : GoString := GoString.ofString "subject"
def keyIssuer : GoString := GoString.ofString "issuer"
def keyNotAfter : GoString := GoString.ofString "not_after"
def keySHA256 : GoString := GoString.ofString "sha256"

/-- A member that is left out when its value is empty. -/
def omitEmpty (key val : GoString) : List (GoString × GoString) :=
  if val = [] then [] else [(key, val)]

namespace ChainCert

/-- The members of a link's object; `none` when its date has a year that is not
four digits long, which `Time.MarshalJSON` refuses. -/
def members (ic : ChainCert) : Option (List (GoString × GoString)) :=
  if 0 ≤ Rfc3339.year ic.notAfter ∧ Rfc3339.year ic.notAfter ≤ 9999 then
    some ((keySubject, ic.subject) :: omitEmpty keyIssuer ic.issuer ++
      (keyNotAfter, GoString.ofList (Rfc3339.formatNano ic.notAfter)) ::
      omitEmpty keySHA256 ic.sha256)
  else none

/-- The value of a member, if it is there. -/
def field (ms : List (List Char × List Char)) (key : GoString) : List Char :=
  ((ms.find? fun m => m.1 = key.chars).map (·.2)).getD []

/-- The link an object describes. A string member that is missing leaves its
field empty; a date that cannot be read fails the whole text. -/
def ofMembers (ms : List (List Char × List Char)) : Option ChainCert :=
  (Rfc3339.parse (field ms keyNotAfter)).map fun t =>
    { subject := GoString.ofList (field ms keySubject)
      issuer := GoString.ofList (field ms keyIssuer)
      notAfter := t
      sha256 := GoString.ofList (field ms keySHA256) }

/-- The strings of the link are UTF-8. -/
def Clean (ic : ChainCert) : Prop := ic.subject.Valid ∧ ic.issuer.Valid ∧ ic.sha256.Valid

instance (ic : ChainCert) : Decidable ic.Clean := by unfold Clean; infer_instance

end ChainCert

/-- `json.Marshal` of a chain. `chainOf` appends to a nil slice, so a chain with
no links is nil and prints as `null`; on an error the text is empty. -/
def marshalChain (chain : List ChainCert) : List Char :=
  if chain = [] then "null".toList
  else
    match chain.mapM ChainCert.members with
    | some objects => Json.encodeSeq '[' ']' (objects.map Json.encodeObject)
    | none => []

/-- `json.Unmarshal` into a nil chain, on the texts `marshalChain` writes: any
other text, the empty one of the column's default included, leaves it nil. -/
def unmarshalChain (text : List Char) : List ChainCert :=
  match Json.parseSeq '[' ']' Json.parseObject text with
  | some (objects, []) => (objects.mapM ChainCert.ofMembers).getD []
  | _ => []

namespace ChainCert

/-- The link with the stray bytes of its strings replaced. -/
def sanitize (ic : ChainCert) : ChainCert :=
  { ic with
    subject := ic.subject.sanitize
    issuer := ic.issuer.sanitize
    sha256 := ic.sha256.sanitize }

theorem Clean.sanitize_eq {ic : ChainCert} (h : ic.Clean) : ic.sanitize = ic := by
  rw [sanitize, h.1.sanitize_eq, h.2.1.sanitize_eq, h.2.2.sanitize_eq]

/-- The members of an object as its reader gets them. -/
def readMembers (ms : List (GoString × GoString)) : List (List Char × List Char) :=
  ms.map fun m => (m.1.chars, m.2.chars)

theorem ofMembers_readMembers {ic : ChainCert} {ms : List (GoString × GoString)}
    (h : ic.members = some ms) : ofMembers (readMembers ms) = some ic.sanitize := by
  unfold members at h
  split_ifs at h with hyear
  have hdate := Rfc3339.parse_formatNano hyear.1 hyear.2
  obtain rfl := Option.some.inj h
  have k1 : keySubject.chars ≠ keyNotAfter.chars := by decide
  have k2 : keySubject.chars ≠ keyIssuer.chars := by decide
  have k3 : keySubject.chars ≠ keySHA256.chars := by decide
  have k4 : keyIssuer.chars ≠ keyNotAfter.chars := by decide
  have k5 : keyIssuer.chars ≠ keySHA256.chars := by decide
  have k6 : keyNotAfter.chars ≠ keyIssuer.chars := by decide
  have k7 : keyNotAfter.chars ≠ keySHA256.chars := by decide
  have k8 : keySHA256.chars ≠ keyIssuer.chars := by decide
  -- an omitted member reads as the empty string it stood for
  by_cases hi : ic.issuer = [] <;> by_cases hs : ic.sha256 = [] <;>
    simp [ofMembers, readMembers, field, omitEmpty, hi, hs, k1, k2, k3, k4, k5, k6, k7, k8, hdate,
      sanitize, GoString.sanitize] <;> rfl

theorem mapM_ofMembers {chain : List ChainCert} {objects : List (List (GoString × GoString))}
    (h : chain.mapM members = some objects) :
    (objects.map readMembers).mapM ofMembers = some (chain.map sanitize) := by
  induction chain generalizing objects with
  | nil =>
    simp only [List.mapM_nil, Option.pure_def, Option.some.injEq] at h
    subst h
    rfl
  | cons ic chain ih =>
    simp only [List.mapM_cons, Option.bind_eq_bind, Option.bind_eq_some_iff, Option.pure_def,
      Option.some.injEq] at h
    obtain ⟨ms, hms, tail, htail, rfl⟩ := h
    simp [ofMembers_readMembers hms, ih htail]

end ChainCert

theorem marshalChain_eq_nil_iff {chain : List ChainCert} :
    marshalChain chain = [] ↔ chain.mapM ChainCert.members = none := by
  unfold marshalChain
  split_ifs with h
  · simp [h]
  · cases chain.mapM ChainCert.members <;> simp [Json.encodeSeq]

/-- A chain that can be printed is read back with its stray bytes replaced. -/
theorem unmarshalChain_marshalChain_sanitize {chain : List ChainCert}
    (h : marshalChain chain ≠ []) :
    unmarshalChain (marshalChain chain) = chain.map ChainCert.sanitize := by
  by_cases hnil : chain = []
  · subst hnil
    rfl
  · cases hobj : chain.mapM ChainCert.members with
    | none => exact absurd (marshalChain_eq_nil_iff.mpr hobj) h
    | some objects =>
      have hparse := Json.parseSeq_encodeObject objects []
      rw [List.append_nil] at hparse
      have hmap := ChainCert.mapM_ofMembers hobj
      simp only [marshalChain, if_neg hnil, hobj, unmarshalChain, hparse]
      exact congrArg (·.getD []) hmap

/-- A chain of clean links that can be printed is read back as it was. -/
theorem unmarshalChain_marshalChain {chain : List ChainCert}
    (hclean : ∀ ic ∈ chain, ic.Clean) (h : marshalChain chain ≠ []) :
    unmarshalChain (marshalChain chain) = chain := by
  rw [unmarshalChain_marshalChain_sanitize h]
  conv_rhs => rw [← List.map_id chain]
  exact List.map_congr_left fun ic hic => (hclean ic hic).sanitize_eq

/-! ### Printing what was read -/

/-- The link can be stored and read back: its strings are UTF-8 and its date can be printed. -/
def ChainCert.Storable (ic : ChainCert) : Prop :=
  ic.Clean ∧ 0 ≤ Rfc3339.year ic.notAfter ∧ Rfc3339.year ic.notAfter ≤ 9999

instance (ic : ChainCert) : Decidable ic.Storable := by unfold ChainCert.Storable; infer_instance

namespace ChainCert

/-- Reading the members of a link changes their strings and nothing else. -/
theorem members_sanitize (ic : ChainCert) :
    ic.sanitize.members = ic.members.map Json.sanitizeMembers := by
  unfold members
  have hdate : ic.sanitize.notAfter = ic.notAfter := rfl
  rw [hdate]
  split_ifs
  · have homit : ∀ key val : GoString, omitEmpty key val.sanitize =
        Json.sanitizeMembers (omitEmpty key val) := by
      intro key val
      simp only [omitEmpty, GoString.sanitize_eq_nil_iff]
      split_ifs <;> rfl
    simp [Json.sanitizeMembers, sanitize, homit]
  · rfl

/-- The values of the members of a link are its strings. -/
theorem clean_of_members {ic : ChainCert} {ms : List (GoString × GoString)}
    (h : ic.members = some ms) (hvalid : ∀ m ∈ ms, m.2.Valid) : ic.Clean := by
  unfold members at h
  split_ifs at h
  obtain rfl := Option.some.inj h
  have homit : ∀ key val : GoString, (∀ m ∈ omitEmpty key val, m.2.Valid) → val.Valid := by
    intro key val hall
    by_cases hval : val = []
    · simp [hval, GoString.Valid]
    · exact hall (key, val) (by simp [omitEmpty, hval])
  exact ⟨hvalid (keySubject, ic.subject) (by simp),
    homit keyIssuer ic.issuer fun m hm => hvalid m (by simp [hm]),
    homit keySHA256 ic.sha256 fun m hm => hvalid m (by simp [hm])⟩

end ChainCert

/-- A chain has its members printed exactly when every date can be. -/
theorem marshalChain_ne_nil_iff {chain : List ChainCert} : marshalChain chain ≠ [] ↔
    ∀ ic ∈ chain, 0 ≤ Rfc3339.year ic.notAfter ∧ Rfc3339.year ic.notAfter ≤ 9999 := by
  rw [Ne, marshalChain_eq_nil_iff]
  induction chain with
  | nil => simp
  | cons ic chain ih =>
    rw [List.forall_mem_cons, ← ih, List.mapM_cons]
    by_cases hyear : 0 ≤ Rfc3339.year ic.notAfter ∧ Rfc3339.year ic.notAfter ≤ 9999
    · cases chain.mapM ChainCert.members <;> simp [ChainCert.members, hyear]
    · simp [ChainCert.members, hyear]

theorem mapM_members_sanitize {chain : List ChainCert} {objects : List (List (GoString × GoString))}
    (h : chain.mapM ChainCert.members = some objects) :
    (chain.map ChainCert.sanitize).mapM ChainCert.members =
      some (objects.map Json.sanitizeMembers) := by
  induction chain generalizing objects with
  | nil =>
    simp only [List.mapM_nil, Option.pure_def, Option.some.injEq] at h
    subst h
    rfl
  | cons ic chain ih =>
    simp only [List.mapM_cons, Option.bind_eq_bind, Option.bind_eq_some_iff, Option.pure_def,
      Option.some.injEq] at h
    obtain ⟨ms, hms, tail, htail, rfl⟩ := h
    simp [ChainCert.members_sanitize, hms, ih htail]

theorem clean_of_mapM_members {chain : List ChainCert} {objects : List (List (GoString × GoString))}
    (h : chain.mapM ChainCert.members = some objects)
    (hvalid : ∀ ms ∈ objects, ∀ m ∈ ms, m.2.Valid) : ∀ ic ∈ chain, ic.Clean := by
  induction chain generalizing objects with
  | nil => simp
  | cons ic chain ih =>
    simp only [List.mapM_cons, Option.bind_eq_bind, Option.bind_eq_some_iff, Option.pure_def,
      Option.some.injEq] at h
    obtain ⟨ms, hms, tail, htail, rfl⟩ := h
    obtain ⟨hfirst, hrest⟩ := List.forall_mem_cons.mp hvalid
    exact List.forall_mem_cons.mpr ⟨ChainCert.clean_of_members hms hfirst, ih htail hrest⟩

/-- A chain whose strings were read from a text is printed like the one the text was made of only
if that one has clean links. -/
theorem clean_of_marshalChain_sanitize {chain : List ChainCert} (hne : marshalChain chain ≠ [])
    (h : marshalChain (chain.map ChainCert.sanitize) = marshalChain chain) :
    ∀ ic ∈ chain, ic.Clean := by
  cases hobj : chain.mapM ChainCert.members with
  | none => exact absurd (marshalChain_eq_nil_iff.mpr hobj) hne
  | some objects =>
    by_cases hnil : chain = []
    · simp [hnil]
    · simp only [marshalChain, List.map_eq_nil_iff, hnil, if_false, hobj,
        mapM_members_sanitize hobj] at h
      exact clean_of_mapM_members hobj (Json.valid_of_encodeSeq_sanitize h)

/-- What is read from the text of a chain is printed as that text again exactly when every link
can be stored. -/
theorem marshalChain_stable_iff {chain : List ChainCert} :
    marshalChain (unmarshalChain (marshalChain chain)) = marshalChain chain ↔
      ∀ ic ∈ chain, ic.Storable := by
  constructor
  · intro h
    have hne : marshalChain chain ≠ [] := by
      intro hnil
      rw [hnil] at h
      exact absurd h (by decide)
    rw [unmarshalChain_marshalChain_sanitize hne] at h
    have hclean := clean_of_marshalChain_sanitize hne h
    exact fun ic hic => ⟨hclean ic hic, marshalChain_ne_nil_iff.mp hne ic hic⟩
  · intro h
    have hne : marshalChain chain ≠ [] := marshalChain_ne_nil_iff.mpr fun ic hic => (h ic hic).2
    rw [unmarshalChain_marshalChain (fun ic hic => (h ic hic).1) hne]

/-- Of a chain that can be stored, the text tells it from every other chain. -/
theorem marshalChain_inj {chain chain' : List ChainCert} (h : ∀ ic ∈ chain, ic.Storable) :
    marshalChain chain = marshalChain chain' ↔ chain = chain' := by
  refine ⟨fun heq => ?_, fun heq => heq ▸ rfl⟩
  have hne : marshalChain chain ≠ [] := marshalChain_ne_nil_iff.mpr fun ic hic => (h ic hic).2
  have hne' : marshalChain chain' ≠ [] := heq ▸ hne
  have hread := unmarshalChain_marshalChain (fun ic hic => (h ic hic).1) hne
  rw [heq, unmarshalChain_marshalChain_sanitize hne'] at hread
  have hclean := clean_of_marshalChain_sanitize hne' (by rw [hread, heq])
  rw [← unmarshalChain_marshalChain hclean hne', unmarshalChain_marshalChain_sanitize hne', hread]

/-! ### Names -/

/-- `json.Marshal` of a list of strings, which is nil when there are none. -/
def marshalStrings (xs : List GoString) : List Char :=
  if xs = [] then "null".toList else Json.encodeSeq '[' ']' (xs.map Json.encodeString)

/-- `json.Unmarshal` into a nil list of strings, on the texts `marshalStrings` writes. -/
def unmarshalStrings (text : List Char) : List GoString :=
  match Json.parseSeq '[' ']' Json.parseString text with
  | some (xs, []) => xs.map GoString.ofList
  | _ => []

/-- Names are read back with their stray bytes replaced. -/
theorem unmarshalStrings_marshalStrings (xs : List GoString) :
    unmarshalStrings (marshalStrings xs) = xs.map GoString.sanitize := by
  by_cases hnil : xs = []
  · subst hnil
    rfl
  · have hparse := Json.parseSeq_encodeString xs []
    rw [List.append_nil] at hparse
    simp only [marshalStrings, if_neg hnil, unmarshalStrings, hparse, List.map_map]
    rfl

/-! ### Coverage -/

/-- The JSON names of the fields of `CoveredName`. -/
def keyName : GoString := GoString.ofString "name"
def keyStatus : GoString := GoString.ofString "status"
def keyDetail : GoString := GoString.ofString "detail"

namespace CoverageStatus

/-- The text of a status. -/
def text : CoverageStatus → GoString
  | same => GoString.ofString "match"
  | different => GoString.ofString "different"
  | wildcard => GoString.ofString "wildcard"
  | unreachable => GoString.ofString "unreachable"

/-- The status a text names. -/
def ofText (text : List Char) : Option CoverageStatus :=
  [same, different, wildcard, unreachable].find? fun status => status.text.chars = text

theorem ofText_text (status : CoverageStatus) : ofText status.text.chars = some status := by
  cases status <;> decide

end CoverageStatus

namespace CoveredName

/-- The members of an object. -/
def members (n : CoveredName) : List (GoString × GoString) :=
  (keyName, n.name) :: (keyStatus, n.status.text) :: (omitEmpty keyDetail n.detail ++
    (omitEmpty keySubject n.subject ++ omitEmpty keySHA256 n.sha256))

/-- What an object describes. -/
def ofMembers (ms : List (List Char × List Char)) : Option CoveredName :=
  (CoverageStatus.ofText (ChainCert.field ms keyStatus)).map fun status =>
    { name := GoString.ofList (ChainCert.field ms keyName)
      status := status
      detail := GoString.ofList (ChainCert.field ms keyDetail)
      subject := GoString.ofList (ChainCert.field ms keySubject)
      sha256 := GoString.ofList (ChainCert.field ms keySHA256) }

/-- The same with the stray bytes of its strings replaced. -/
def sanitize (n : CoveredName) : CoveredName :=
  { n with
    name := n.name.sanitize
    detail := n.detail.sanitize
    subject := n.subject.sanitize
    sha256 := n.sha256.sanitize }

theorem ofMembers_members (n : CoveredName) :
    ofMembers (ChainCert.readMembers n.members) = some n.sanitize := by
  have k1 : keyName.chars ≠ keyStatus.chars := by decide
  have k2 : keyName.chars ≠ keyDetail.chars := by decide
  have k3 : keyName.chars ≠ keySubject.chars := by decide
  have k4 : keyName.chars ≠ keySHA256.chars := by decide
  have k5 : keyStatus.chars ≠ keyDetail.chars := by decide
  have k6 : keyStatus.chars ≠ keySubject.chars := by decide
  have k7 : keyStatus.chars ≠ keySHA256.chars := by decide
  have k8 : keyDetail.chars ≠ keySubject.chars := by decide
  have k9 : keyDetail.chars ≠ keySHA256.chars := by decide
  have k10 : keySubject.chars ≠ keySHA256.chars := by decide
  have hstatus := CoverageStatus.ofText_text n.status
  -- an omitted member reads as the empty string it stood for
  by_cases hd : n.detail = [] <;> by_cases hs : n.subject = [] <;> by_cases hf : n.sha256 = [] <;>
    simp [ofMembers, members, ChainCert.readMembers, ChainCert.field, omitEmpty, hd, hs, hf, k1, k2,
      k3, k4, k5, k6, k7, k8, k9, k10, k8.symm, k9.symm, k10.symm, hstatus, sanitize,
      GoString.sanitize] <;> rfl

end CoveredName

/-- `json.Marshal` of what a check returns, which is never nil. -/
def marshalCoverage (names : List CoveredName) : List Char :=
  Json.encodeSeq '[' ']' ((names.map CoveredName.members).map Json.encodeObject)

/-- `json.Unmarshal` into a nil list, on the texts `marshalCoverage` writes. -/
def unmarshalCoverage (text : List Char) : List CoveredName :=
  match Json.parseSeq '[' ']' Json.parseObject text with
  | some (objects, []) => (objects.mapM CoveredName.ofMembers).getD []
  | _ => []

/-- What answers for the names is read back with its stray bytes replaced. -/
theorem unmarshalCoverage_marshalCoverage (names : List CoveredName) :
    unmarshalCoverage (marshalCoverage names) = names.map CoveredName.sanitize := by
  have hparse := Json.parseSeq_encodeObject (names.map CoveredName.members) []
  rw [List.append_nil] at hparse
  have hmap : ((names.map CoveredName.members).map ChainCert.readMembers).mapM
      CoveredName.ofMembers = some (names.map CoveredName.sanitize) := by
    induction names with
    | nil => rfl
    | cons n names ih => 
      have htail := ih (by
        simpa using Json.parseSeq_encodeObject (names.map CoveredName.members) [])
      simp only [List.map_cons, List.mapM_cons, CoveredName.ofMembers_members, htail]
      rfl
  simp only [marshalCoverage, unmarshalCoverage, hparse]
  exact congrArg (·.getD []) hmap

end CertGuard
