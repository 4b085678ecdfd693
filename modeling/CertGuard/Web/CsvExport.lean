import CertGuard.Lib.Csv
import CertGuard.Web.ChainRisk

/-!
# The export of the inventory

The inventory page writes what it shows to a file of comma-separated values: a line of titles and a
line for each entry. Whatever stands in a value, the file is read back as the values.

## Main definitions

* `Inventory.Value` — a value of a script, and its text
* `Inventory.Item` — an entry as the page has it
* `Inventory.csvValues`, `Inventory.cell`, `Inventory.exportCsv` — the file
* `Inventory.rfc4180` — the dialect it is read in

## Main results

* `Inventory.exportCsv_eq_none_iff` — when no file is written
* `Inventory.exportCsv_read` — what is read of one
-/

namespace CertGuard.Inventory

/-! ### What the page has -/

/-- A value that goes into the file. -/
inductive Value
  | undefined
  | text (s : List Char)
  | number (n : Int)
  deriving DecidableEq, Repr

/-- `v === null || v === undefined ? '' : String(v)`. -/
def Value.string : Value → List Char
  | undefined => []
  | text s => s
  | number n => itoa n

/-- A member of an object that may not be there. -/
def Value.ofMember : Option (List Char) → Value
  | none => undefined
  | some s => text s

/-- What answers for a covered name. -/
structure CoveredItem where
  name : List Char
  status : List Char
  detail : Option (List Char) := none
  deriving DecidableEq, Repr

/-- The members of an entry that the file is made of; an empty one may not have been sent. -/
structure ItemCert where
  name : List Char
  category : List Char := []
  kind : List Char
  host : Option (List Char) := none
  port : Option Int := none
  issuer : Option (List Char) := none
  expiresAt : List Char
  lastScannedAt : Option (List Char) := none
  lastError : Option (List Char) := none
  dnsNames : Option (List (List Char)) := none
  coverage : Option (List CoveredItem) := none
  deriving DecidableEq, Repr

/-- An entry with its day count. -/
structure Item where
  cert : ItemCert
  daysRemaining : Int
  deriving DecidableEq, Repr

/-- `s || ''`. -/
def orEmpty (s : Option (List Char)) : List Char := s.getD []

/-- `CATEGORIES`: values with their labels. -/
def categories : List (List Char × List Char) :=
  [("certificate".toList, "Certificate".toList),
    ("api-key".toList, "API key".toList),
    ("subscription".toList, "Subscription".toList),
    ("domain".toList, "Domain".toList),
    ("service".toList, "Service/Contract".toList),
    ("other".toList, "Other".toList)]

def categoryLabel (v : List Char) : List Char :=
  ((categories.find? fun c => c.1 = v).map Prod.snd).getD v

/-- The kinds with their labels. -/
def kindLabels : List (List Char × List Char) :=
  [("endpoint".toList, "Endpoint".toList),
    ("domain".toList, "Domain".toList),
    ("file".toList, "File".toList),
    ("manual".toList, "Manual".toList)]

/-- Where an entry is, with its port unless it is 0. -/
def targetOf (c : ItemCert) : List Char :=
  let host := orEmpty c.host
  if c.kind = "domain".toList then host
  else if host = [] then []
  else
    match c.port with
    | none => host
    | some port => if port = 0 then host else host ++ ':' :: itoa port

/-- `problemsOf`: what has a problem, and why. -/
def problemsOf (c : ItemCert) : List (List Char × List Char) :=
  let own := if orEmpty c.lastError = [] then [] else [(c.name, orEmpty c.lastError)]
  own ++ (c.coverage.getD []).filterMap fun n =>
    if n.status = "unreachable".toList then
      some (n.name, if orEmpty n.detail = [] then "unreachable".toList else orEmpty n.detail)
    else none

def hasProblem (c : ItemCert) : Bool := problemsOf c ≠ []

/-- `toISOString`, of a time in milliseconds. -/
def toISOString (ms : Int) : List Char :=
  let t := unixEpoch + ms * 1000000
  let d := Gregorian.ofDays (Rfc3339.dayNumber t)
  let year :=
    if 0 ≤ d.year ∧ d.year ≤ 9999 then Rfc3339.digits 4 d.year.toNat
    else (if d.year < 0 then '-' else '+') :: Rfc3339.digits 6 d.year.natAbs
  year ++ '-' :: Rfc3339.digits 2 d.month ++ '-' :: Rfc3339.digits 2 d.day ++
    'T' :: Rfc3339.formatClock t ++ '.' :: Rfc3339.digits 3 (ms % 1000).toNat ++ ['Z']

/-! ### Writing the file

`date` is what `new Date` makes of a text, in milliseconds, or nothing for an invalid date.
`inherited` is the text of what every object has under a name; a kind is looked up as one. -/

def kindLabel (inherited : List Char → Option (List Char)) (k : List Char) : List Char :=
  match kindLabels.lookup k with
  | some label => label
  | none => (inherited k).getD k

/-- `fmtDate`; `none` is the exception of `toISOString`. -/
def fmtDate (date : List Char → Option Int) (iso : List Char) : Option (List Char) :=
  if iso = [] then some "—".toList else (date iso).map fun ms => (toISOString ms).take 10

/-- The values of an entry, in the order of the columns. -/
def csvValues (date : List Char → Option Int) (inherited : List Char → Option (List Char))
    (it : Item) : Option (List Value) :=
  let c := it.cert
  (fmtDate date c.expiresAt).bind fun expires =>
    (if orEmpty c.lastScannedAt = [] then some []
      else fmtDate date (orEmpty c.lastScannedAt)).map fun scanned =>
    [.text c.name,
      .text (categoryLabel c.category),
      .text (kindLabel inherited c.kind),
      .text (targetOf c),
      .ofMember c.issuer,
      .text expires,
      .number it.daysRemaining,
      .text (if hasProblem c then "problem".toList
        else if c.kind = "endpoint".toList ∨ orEmpty c.host ≠ [] then "ok".toList else []),
      .text scanned,
      .text (orEmpty c.lastError),
      .text ([' '].intercalate (c.dnsNames.getD []))]

/-- The names of the columns. -/
def csvHead : List (List Char) :=
  ["name".toList, "type".toList, "source".toList, "target".toList, "issuer".toList,
    "expires_at".toList, "days_remaining".toList, "state".toList, "last_scanned_at".toList,
    "last_error".toList, "covered_names".toList]

/-- A cell is quoted if it holds a quote, a comma or a line end. -/
def cell (v : Value) : List Char :=
  let s := v.string
  if s.any (· ∈ ['"', ',', '\n', '\r']) then
    '"' :: (s.flatMap fun c => if c = '"' then ['"', '"'] else [c]) ++ ['"']
  else s

/-- The byte-order mark. -/
def bom : Char := '\uFEFF'

/-- The text of the file that `exportCsv` writes for the entries shown; `none` where it writes
none. -/
def exportCsv (date : List Char → Option Int) (inherited : List Char → Option (List Char))
    (items : List Item) : Option (List Char) :=
  if items = [] then none
  else
    (items.mapM (csvValues date inherited)).map fun rows =>
      let lines := [','].intercalate csvHead ::
        rows.map fun values => [','].intercalate (values.map cell)
      bom :: ['\r', '\n'].intercalate lines

/-! ### Reading it -/

/-- The dialect of RFC 4180. -/
def rfc4180 : Csv.Dialect Char where
  quote := '"'
  sep := ','
  cr := '\r'
  lf := '\n'
  nodup := by decide

variable {date : List Char → Option Int} {inherited : List Char → Option (List Char)} {it : Item}
  {items : List Item} {values : List Value} {rows : List (List Value)} {v : Value}

/-- A cell is a way to write its value. -/
theorem cell_cell (v : Value) : rfc4180.Cell v.string (cell v) := by
  unfold cell
  dsimp only
  split_ifs with hspecial
  · exact .quoted
  · refine .plain fun a ha hmem => hspecial (List.any_eq_true.mpr ⟨a, ha, ?_⟩)
    rcases hmem with rfl | rfl | rfl | rfl <;> decide

theorem cells_cells (values : List Value) :
    List.Forall₂ rfc4180.Cell (values.map Value.string) (values.map cell) := by
  rw [List.forall₂_map_left_iff, List.forall₂_map_right_iff]
  exact List.forall₂_same.mpr fun v _ => cell_cell v

/-- The titles are written as they are. -/
theorem cells_csvHead : List.Forall₂ rfc4180.Cell csvHead csvHead := by
  have hplain : csvHead.all (fun f => f.all fun a => ¬ rfc4180.Special a) = true := by decide
  refine List.forall₂_same.mpr fun f hf => .plain fun a ha => ?_
  exact of_decide_eq_true (List.all_eq_true.mp (List.all_eq_true.mp hplain f hf) a ha)

theorem length_of_csvValues (h : csvValues date inherited it = some values) :
    values.length = 11 := by
  simp only [csvValues, Option.bind_eq_some_iff, Option.map_eq_some_iff] at h
  obtain ⟨-, -, -, -, rfl⟩ := h
  rfl

/-! ### When it is written -/

/-- The dates of an entry can be printed. -/
def DatesPrinted (date : List Char → Option Int) (it : Item) : Prop :=
  (it.cert.expiresAt ≠ [] → date it.cert.expiresAt ≠ none) ∧
    (orEmpty it.cert.lastScannedAt ≠ [] → date (orEmpty it.cert.lastScannedAt) ≠ none)

instance : Decidable (DatesPrinted date it) := inferInstanceAs (Decidable (_ ∧ _))

theorem fmtDate_ne_none_iff {iso : List Char} :
    fmtDate date iso ≠ none ↔ iso ≠ [] → date iso ≠ none := by
  unfold fmtDate
  split_ifs with hiso <;> simp [hiso]

theorem csvValues_eq_none_iff : csvValues date inherited it = none ↔ ¬ DatesPrinted date it := by
  rw [DatesPrinted, ← fmtDate_ne_none_iff, ← fmtDate_ne_none_iff]
  unfold csvValues
  dsimp only
  cases hexpires : fmtDate date it.cert.expiresAt with
  | none => exact iff_of_true rfl fun h => h.1 rfl
  | some expires =>
    rw [Option.bind_some, Option.map_eq_none_iff]
    split_ifs with hscanned
    · -- an entry that was never looked at has no date to print
      rw [hscanned]
      simp [fmtDate]
    · simp

theorem mapM_csvValues_eq_none_iff : items.mapM (csvValues date inherited) = none ↔
    ∃ it ∈ items, ¬ DatesPrinted date it := by
  induction items with
  | nil => simp
  | cons it items ih =>
    have hfirst : csvValues date inherited it = none ↔ ¬ DatesPrinted date it :=
      csvValues_eq_none_iff
    rw [List.mapM_cons, List.exists_mem_cons_iff, ← ih, ← hfirst]
    cases csvValues date inherited it with
    | none => simp
    | some values => cases items.mapM (csvValues date inherited) <;> simp

theorem exists_of_mapM_csvValues (h : items.mapM (csvValues date inherited) = some rows)
    (hvalues : values ∈ rows) : ∃ it, csvValues date inherited it = some values := by
  induction items generalizing rows with
  | nil =>
    obtain rfl := Option.some.inj h
    exact absurd hvalues List.not_mem_nil
  | cons it items ih =>
    rw [List.mapM_cons] at h
    simp only [Option.bind_eq_bind, Option.bind_eq_some_iff] at h
    obtain ⟨first, hfirst, rest, hrest, heq⟩ := h
    obtain rfl := Option.some.inj heq
    rcases List.mem_cons.mp hvalues with rfl | hvalues
    · exact ⟨it, hfirst⟩
    · exact ih hrest hvalues

/-- No file is written if nothing is shown, or a date cannot be printed. -/
theorem exportCsv_eq_none_iff : exportCsv date inherited items = none ↔
    items = [] ∨ ∃ it ∈ items, ¬ DatesPrinted date it := by
  unfold exportCsv
  split_ifs with hitems
  · exact iff_of_true rfl (.inl hitems)
  · rw [Option.map_eq_none_iff, mapM_csvValues_eq_none_iff, or_iff_right hitems]

/-! ### What is read of it -/

/-- The lines of the file are read as the titles and the values. -/
theorem read_lines (hlength : ∀ values ∈ rows, values.length = 11) :
    rfc4180.read (['\r', '\n'].intercalate
      ([','].intercalate csvHead ::
        rows.map fun values => [','].intercalate (values.map cell))) =
      some (csvHead :: rows.map (List.map Value.string)) := by
  have hcells : List.Forall₂ (List.Forall₂ rfc4180.Cell)
      (csvHead :: rows.map (List.map Value.string)) (csvHead :: rows.map (List.map cell)) := by
    refine .cons cells_csvHead ?_
    rw [List.forall₂_map_left_iff, List.forall₂_map_right_iff]
    exact List.forall₂_same.mpr fun values _ => cells_cells values
  have hlong : ∀ r ∈ csvHead :: rows.map (List.map Value.string), r ≠ [] ∧ r ≠ [[]] := by
    intro r hr
    have hr11 : r.length = 11 := by
      rcases List.mem_cons.mp hr with rfl | hr
      · rfl
      · obtain ⟨values, hvalues, rfl⟩ := List.mem_map.mp hr
        rw [List.length_map, hlength values hvalues]
    exact ⟨fun hnil => absurd hr11 (by simp [hnil]), fun hnil => absurd hr11 (by simp [hnil])⟩
  have hread := Csv.Dialect.read_write hcells (List.cons_ne_nil _ _) hlong
  rw [Csv.Dialect.write, List.map_cons, List.map_map] at hread
  exact hread

/-- The file that is written is read as the titles and then the values of each entry. -/
theorem exportCsv_read (date : List Char → Option Int) (inherited : List Char → Option (List Char))
    (items : List Item) :
    (exportCsv date inherited items = none ↔
      items = [] ∨ ∃ it ∈ items, ¬ DatesPrinted date it) ∧
    ∀ text, exportCsv date inherited items = some text →
      ∃ doc rows, text = bom :: doc ∧ items.mapM (csvValues date inherited) = some rows ∧
        (∀ values ∈ rows, values.length = 11) ∧
        rfc4180.read doc = some (csvHead :: rows.map (List.map Value.string)) := by
  refine ⟨exportCsv_eq_none_iff, fun text htext => ?_⟩
  unfold exportCsv at htext
  split_ifs at htext
  obtain ⟨rows, hrows, rfl⟩ := Option.map_eq_some_iff.mp htext
  have hlength : ∀ values ∈ rows, values.length = 11 := fun values hvalues =>
    let ⟨_, hit⟩ := exists_of_mapM_csvValues hrows hvalues
    length_of_csvValues hit
  exact ⟨_, rows, rfl, hrows, hlength, read_lines hlength⟩

/-- An entry with quotes, separators and line breaks in its values. -/
def awkward : Item where
  cert :=
    { name := "a,\"b\"\r\n".toList
      kind := "manual".toList
      expiresAt := "2026-01-02T00:00:00Z".toList
      lastError := some "\"\r".toList }
  daysRemaining := -1

theorem exportCsv_awkward : ∃ doc rows,
    exportCsv dateParse (fun _ => none) [awkward] = some (bom :: doc) ∧
      [awkward].mapM (csvValues dateParse fun _ => none) = some rows ∧
      rfc4180.read doc = some (csvHead :: rows.map (List.map Value.string)) := by
  obtain ⟨text, htext⟩ : ∃ text, exportCsv dateParse (fun _ => none) [awkward] = some text :=
    Option.ne_none_iff_exists'.mp (by decide +kernel)
  obtain ⟨doc, rows, rfl, hrows, -, hread⟩ :=
    (exportCsv_read dateParse (fun _ => none) [awkward]).2 text htext
  exact ⟨doc, rows, htext, hrows, hread⟩

end CertGuard.Inventory
