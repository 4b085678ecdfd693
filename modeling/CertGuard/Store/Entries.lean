import CertGuard.Store.Secrets

/-!
# Statements on the inventory

What scans, domain lookups and the requests about single entries read and write besides
`UpsertScan`. Some of these statements look at active rows only, and some do not.

## Main definitions

* `Store.writeDomain`, `Store.upsertDomain` — recording a domain lookup
* `Store.updateEntry`, `Store.touchScanError`, `Store.softDelete`, `Store.saveCoverage` —
  updates by id
* `Store.endpointsForRescan`, `Store.domainsForRefresh` — what a sweep looks at
* `Upsert` — a scan or a domain lookup to be recorded

## Main results

* `Upsert.get?_write_some`, `Upsert.get?_write_none` — rows after one was recorded
-/

namespace CertGuard

/-- What a registry says of a domain. -/
structure DomainResult where
  domain : String
  registrar : GoString := []
  expiresAt : Int
  registeredAt : Int := 0
  status : List GoString := []
  nameservers : List GoString := []
  deriving DecidableEq, Repr

/-! ### Recording a domain lookup -/

/-- The counters `UpsertDomain` writes back: the ones it read, reset where the date has
changed. -/
def rearmDomain (existing : Cert) (res : DomainResult) : Cert :=
  if existing.expiresAt ≠ res.expiresAt then
    { existing with lastNotifiedThreshold := 0, lastNotifiedOn := none }
  else existing

/-- The columns the `UPDATE` of `UpsertDomain` sets. -/
def updateDomain (now : Int) (res : DomainResult) (existing : Cert) (r : CertRow) : CertRow :=
  { r with
    issuer := res.registrar
    expiresAt := Rfc3339.format res.expiresAt
    notBefore := Rfc3339.format res.registeredAt
    dnsNames := marshalStrings res.nameservers
    lastScannedAt := some (Rfc3339.format now)
    lastError := ""
    lastNotifiedThreshold := (rearmDomain existing res).lastNotifiedThreshold
    lastNotifiedOn := nullTime (rearmDomain existing res).lastNotifiedOn }

/-- The row the `INSERT` of `UpsertDomain` adds. -/
def insertDomain (now : Int) (name : String) (res : DomainResult) : CertRow where
  name := if name = "" then res.domain else name
  kind := .domain
  category := "domain"
  host := res.domain
  port := 0
  subject := (res.status.intersperse (GoString.ofString ", ")).flatten
  issuer := res.registrar
  notBefore := Rfc3339.format res.registeredAt
  expiresAt := Rfc3339.format res.expiresAt
  dnsNames := marshalStrings res.nameservers
  autoRescan := true
  lastScannedAt := some (Rfc3339.format now)
  lastError := ""
  active := true
  createdAt := Rfc3339.format now

namespace Store

/-- What `UpsertDomain` does after it looked for the entry. -/
def writeDomain (s : Store) (now : Int) (name : String) (res : DomainResult) :
    Option Cert → Store × Option Cert
  | some existing =>
    let s' := { s with certs := s.certs.modify existing.id (updateDomain now res existing) }
    (s', s'.getByID existing.id)
  | none =>
    let s' := { s with certs := s.certs.insert (insertDomain now name res) }
    (s', s'.getByID s.certs.nextKey)

/-- A domain is an entry on port 0. -/
def upsertDomain (s : Store) (now : Int) (name : String) (res : DomainResult) :
    Store × Option Cert :=
  s.writeDomain now name res (s.findByHostPort res.domain 0)

/-! ### Updates by id -/

/-- There is an active entry with the id. -/
def IsActive (s : Store) (id : Int) : Prop := ∃ r, s.certs.get? id = some r ∧ r.active = true

instance (s : Store) (id : Int) : Decidable (s.IsActive id) :=
  match h : s.certs.get? id with
  | none => isFalse (by simp [IsActive, h])
  | some r => decidable_of_iff (r.active = true) (by simp [IsActive, h])

/-- An active entry is at an address. -/
def IsAt (s : Store) (id : Int) (host : String) (port : Int) : Prop :=
  ∃ r, s.certs.get? id = some r ∧ r.active = true ∧ r.host = host ∧ r.port = port

instance (s : Store) (id : Int) (host : String) (port : Int) : Decidable (s.IsAt id host port) :=
  match h : s.certs.get? id with
  | none => isFalse (by simp [IsAt, h])
  | some r => decidable_of_iff (r.active = true ∧ r.host = host ∧ r.port = port) (by simp [IsAt, h])

/-- Changes the row of an active entry; `none` when there is none. -/
def updateActive (s : Store) (id : Int) (f : CertRow → CertRow) : Option Store :=
  if s.IsActive id then some { s with certs := s.certs.modify id f } else none

def updateEntry (s : Store) (id : Int) (name category notes : String) : Option Store :=
  s.updateActive id fun r => { r with name := name, category := category, notes := notes }

/-- A deleted entry keeps its row. -/
def softDelete (s : Store) (id : Int) : Option Store :=
  s.updateActive id fun r => { r with active := false }

/-- `TouchScanError`, which does not say whether it found the entry. -/
def touchScanError (s : Store) (now id : Int) (msg : String) : Store :=
  (s.updateActive id fun r =>
    { r with lastScannedAt := some (Rfc3339.format now), lastError := msg }).getD s

/-- `SaveCoverage`, of an entry active or not. -/
def saveCoverage (s : Store) (now id : Int) (names : List CoveredName) : Store :=
  { s with
    certs := s.certs.modify id fun r =>
      { r with coverageJson := marshalCoverage names, coverageAt := Rfc3339.format now } }

/-! ### What a sweep looks at -/

/-- `listForRefresh`, of the entries of a kind. -/
def listForRefresh (s : Store) (kind : Kind) : List Cert :=
  (s.certs.rows.filter fun r =>
    r.2.active ∧ r.2.kind = kind ∧ r.2.autoRescan ∧ r.2.host ≠ "").map fun r =>
      scanRowValues r.1 r.2

def endpointsForRescan (s : Store) : List Cert := s.listForRefresh .endpoint

def domainsForRefresh (s : Store) : List Cert := s.listForRefresh .domain

variable {s : Store} {id port : Int} {c : Cert} {kind : Kind} {r : CertRow} {host : String}

/-- What is found at an address is an active entry there. -/
theorem isAt_of_find (h : s.findByHostPort host port = some c) : s.IsAt c.id host port := by
  obtain ⟨r, hrow, hactive, hc⟩ := findByHostPort_eq_some h
  obtain ⟨hhost, hport⟩ := address_of_find h
  rw [hc] at hhost hport
  exact ⟨r, hrow, hactive, hhost, hport⟩

theorem find_eq_none_iff : s.findByHostPort host port = none ↔
    ∀ id, ¬ s.IsAt id host port := by
  rw [findByHostPort, Option.map_eq_none_iff, List.find?_eq_none]
  constructor
  · rintro h id ⟨r, hrow, hactive, hhost, hport⟩
    exact h (id, r) (Table.mem_rows_iff.mpr hrow) (by simp [hactive, hhost, hport])
  · rintro h ⟨id, r⟩ hmem hr
    simp only [Bool.decide_and, Bool.and_eq_true, decide_eq_true_eq] at hr
    exact h id ⟨r, Table.mem_rows_iff.mp hmem, hr.2.2, hr.1, hr.2.1⟩

theorem mem_listForRefresh_iff : c ∈ s.listForRefresh kind ↔
    ∃ r, s.certs.get? c.id = some r ∧ r.active = true ∧ r.kind = kind ∧ r.autoRescan = true ∧
      r.host ≠ "" ∧ c = scanRowValues c.id r := by
  simp only [listForRefresh, List.mem_map, List.mem_filter, decide_eq_true_eq, Prod.exists]
  constructor
  · rintro ⟨k, r, ⟨hmem, hactive, hkind, hauto, hhost⟩, rfl⟩
    exact ⟨r, Table.mem_rows_iff.mp hmem, hactive, hkind, hauto, hhost, rfl⟩
  · rintro ⟨r, hget, hactive, hkind, hauto, hhost, hc⟩
    exact ⟨c.id, r, ⟨Table.mem_rows_iff.mpr hget, hactive, hkind, hauto, hhost⟩, hc.symm⟩

theorem listForRefresh_ids_nodup : ((s.listForRefresh kind).map Cert.id).Nodup := by
  have hids : (s.listForRefresh kind).map Cert.id = (s.certs.rows.filter fun r =>
      r.2.active ∧ r.2.kind = kind ∧ r.2.autoRescan ∧ r.2.host ≠ "").map Prod.fst := by
    simp only [listForRefresh, List.map_map]
    rfl
  rw [hids]
  exact s.certs.nodup_keys.sublist (List.filter_sublist.map _)

/-- The entry with an id is listed as its row is read, if the row is one of those listed. -/
theorem find?_listForRefresh : (s.listForRefresh kind).find? (fun c => c.id = id) =
    ((s.certs.get? id).filter fun r =>
      r.active ∧ r.kind = kind ∧ r.autoRescan ∧ r.host ≠ "").map (scanRowValues id) := by
  ext c
  constructor
  · intro hfind
    have hid : c.id = id := by simpa using List.find?_some hfind
    obtain ⟨r, hget, hlisted⟩ := mem_listForRefresh_iff.mp (List.mem_of_find?_eq_some hfind)
    rw [hid] at hget hlisted
    simp [hget, hlisted]
  · intro hrow
    obtain ⟨r, hfilter, rfl⟩ := Option.map_eq_some_iff.mp hrow
    obtain ⟨hget, hlisted⟩ := Option.filter_eq_some_iff.mp hfilter
    simp only [decide_eq_true_eq] at hlisted
    have hmem : scanRowValues id r ∈ s.listForRefresh kind :=
      mem_listForRefresh_iff.mpr ⟨r, hget, hlisted.1, hlisted.2.1, hlisted.2.2.1,
        hlisted.2.2.2, rfl⟩
    -- ids are unique, so that the first with this one is it
    cases hfind : (s.listForRefresh kind).find? fun c => c.id = id with
    | none => exact absurd (List.find?_eq_none.mp hfind _ hmem) (by simp [scanRowValues])
    | some c' =>
      have hid : c'.id = id := by simpa using List.find?_some hfind
      obtain ⟨r', hget', -, -, -, -, hc'⟩ :=
        mem_listForRefresh_iff.mp (List.mem_of_find?_eq_some hfind)
      rw [hid] at hget' hc'
      obtain rfl := Option.some.inj (hget'.symm.trans hget)
      rw [hc']

theorem isActive_iff (h : s.certs.get? id = some r) : s.IsActive id ↔ r.active = true := by
  simp [IsActive, h]

theorem not_isActive (h : s.certs.get? id = some r) (hr : r.active = false) :
    ¬ s.IsActive id := by
  simp [isActive_iff h, hr]

end Store

/-! ### Scans and lookups alike -/

/-- A scan or a domain lookup to be recorded, under a name for a new entry. -/
inductive Upsert
  | scan (name : String) (res : ScanResult)
  | domain (name : String) (res : DomainResult)
  deriving DecidableEq, Repr

namespace Upsert

/-- The address it is recorded at. -/
def host : Upsert → String
  | scan _ res => res.host
  | domain _ res => res.domain

/-- Domains have the port 0. -/
def port : Upsert → Int
  | scan _ res => res.port
  | domain _ _ => 0

/-- The columns set in the row of an entry that is there. -/
def update (now : Int) (existing : Cert) : Upsert → CertRow → CertRow
  | scan _ res => updateScan now res existing
  | domain _ res => updateDomain now res existing

/-- The row of a new entry. -/
def newRow (now : Int) : Upsert → CertRow
  | scan name res => insertScan now name res
  | domain name res => insertDomain now name res

/-- What is done after the entry was looked for. -/
def write (s : Store) (now : Int) (existing : Option Cert) : Upsert → Store × Option Cert
  | scan name res => s.writeScan now name res existing
  | domain name res => s.writeDomain now name res existing

/-- The entry at the address. -/
def find (s : Store) (u : Upsert) : Option Cert := s.findByHostPort u.host u.port

variable {s : Store} {now id : Int} {u : Upsert} {c existing : Cert} {r : CertRow}

theorem write_some : u.write s now (some existing) =
    let s' := { s with certs := s.certs.modify existing.id (u.update now existing) }
    (s', s'.getByID existing.id) := by
  cases u <;> rfl

theorem write_none : u.write s now none =
    let s' := { s with certs := s.certs.insert (u.newRow now) }
    (s', s'.getByID s.certs.nextKey) := by
  cases u <;> rfl

/-- An entry that was found has its row rewritten, and no other has. -/
theorem get?_write_some : (u.write s now (some existing)).1.certs.get? id =
    (s.certs.get? id).map fun r => if id = existing.id then u.update now existing r else r := by
  rw [write_some, Table.get?_modify]
  split_ifs <;> simp

/-- Where no entry was found a row is added. -/
theorem get?_write_none : (u.write s now none).1.certs.get? id =
    if id = s.certs.nextKey then some (u.newRow now) else s.certs.get? id := by
  rw [write_none, Table.get?_insert]

/-- Entries at other addresses are left as they are. -/
theorem get?_write_of_address_ne (u : Upsert) (now : Int) (hrow : s.certs.get? id = some r)
    (haddress : ¬ (r.host = u.host ∧ r.port = u.port)) :
    (u.write s now (u.find s)).1.certs.get? id = some r := by
  cases hfind : u.find s with
  | none => rw [get?_write_none, if_neg (Table.ne_nextKey hrow), hrow]
  | some e =>
    have hne : id ≠ e.id := by
      rintro rfl
      obtain ⟨r', hrow', -, hhost, hport⟩ := Store.isAt_of_find hfind
      obtain rfl := Option.some.inj (hrow.symm.trans hrow')
      exact haddress ⟨hhost, hport⟩
    rw [get?_write_some, hrow, Option.map_some, if_neg hne]

/-- A new entry is active, and at the address. -/
theorem newRow_host : (u.newRow now).host = u.host := by
  cases u <;> rfl

theorem newRow_port : (u.newRow now).port = u.port := by
  cases u <;> rfl

theorem newRow_active : (u.newRow now).active = true := by
  cases u <;> rfl

end Upsert

end CertGuard
