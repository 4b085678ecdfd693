import CertGuard.Store.Schema
import Mathlib.Data.Char
import Mathlib.Data.List.Lex
import Mathlib.Data.List.Sort

/-!
# Statements on entries

The queries and updates of `certs` that scans and notifications use. `upsertScan`
is several statements; `writeScan` is what it does after its read, with the entry
it read as an argument, so that other statements can come in between.

## Main definitions

* `Store.findByHostPort`, `Store.getByID`, `Store.list` — queries
* `rearm`, `Store.writeScan`, `Store.upsertScan` — recording a scan
* `Store.markNotified`, `Store.markChainNotified` — recording an alert

## Main results

* `Store.mem_list_iff` — what `List` returns
* `Store.get?_certs_writeScan_some` — rows after a scan of an entry was recorded
-/

namespace CertGuard

/-- The storable view of a scanned certificate. -/
structure ScanResult where
  host : String
  port : Int
  serverName : String
  subject : GoString
  issuer : GoString
  serial : String
  sha256 : String
  notBefore : Int
  notAfter : Int
  dnsNames : List GoString
  keyType : String
  sigAlg : String
  chain : List ChainCert
  trustError : String
  deriving DecidableEq, Repr

namespace Store

variable (s : Store)

/-! ### Queries -/

/-- The active entry at an address: the first one by id. -/
def findByHostPort (host : String) (port : Int) : Option Cert :=
  (s.certs.rows.find? fun r => r.2.host = host ∧ r.2.port = port ∧ r.2.active).map fun r =>
    scanRowValues r.1 r.2

/-- The entry with an id, active or not. -/
def getByID (id : Int) : Option Cert := (s.certs.get? id).map (scanRowValues id)

/-- Active entries in the order of their stored expiry text. -/
def list : List Cert :=
  ((s.certs.rows.filter fun r => r.2.active).insertionSort fun r r' =>
    r.2.expiresAt ≤ r'.2.expiresAt).map fun r => scanRowValues r.1 r.2

/-- Every enabled channel. -/
def allEnabledChannels : List Channel :=
  (s.channels.rows.filter fun r => r.2.enabled).map fun r => scanChannel r.1 r.2

/-! ### Recording a scan -/

end Store

/-- The counters `UpsertScan` writes back: the ones it read, reset where the scan
found another certificate, another chain. -/
def rearm (existing : Cert) (res : ScanResult) : Cert :=
  let leaf :=
    if existing.sha256 ≠ res.sha256 then
      { existing with lastNotifiedThreshold := 0, lastNotifiedOn := none }
    else existing
  if marshalChain existing.chain ≠ marshalChain res.chain then
    { leaf with lastChainNotifiedThreshold := 0 }
  else leaf

/-- The columns the `UPDATE` of `UpsertScan` sets. -/
def updateScan (now : Int) (res : ScanResult) (existing : Cert) (r : CertRow) : CertRow :=
  { r with
    subject := res.subject
    issuer := res.issuer
    serial := res.serial
    sha256 := res.sha256
    notBefore := Rfc3339.format res.notBefore
    expiresAt := Rfc3339.format res.notAfter
    dnsNames := marshalStrings res.dnsNames
    keyType := res.keyType
    sigAlg := res.sigAlg
    serverName := res.serverName
    lastScannedAt := some (Rfc3339.format now)
    lastError := res.trustError
    lastNotifiedThreshold := (rearm existing res).lastNotifiedThreshold
    lastNotifiedOn := nullTime (rearm existing res).lastNotifiedOn
    chainJson := marshalChain res.chain
    lastChainNotifiedThreshold := (rearm existing res).lastChainNotifiedThreshold }

/-- The row the `INSERT` of `UpsertScan` adds. -/
def insertScan (now : Int) (name : String) (res : ScanResult) : CertRow where
  name := if name = "" then res.host else name
  kind := .endpoint
  category := "certificate"
  host := res.host
  port := res.port
  serverName := res.serverName
  subject := res.subject
  issuer := res.issuer
  serial := res.serial
  sha256 := res.sha256
  notBefore := Rfc3339.format res.notBefore
  expiresAt := Rfc3339.format res.notAfter
  dnsNames := marshalStrings res.dnsNames
  keyType := res.keyType
  sigAlg := res.sigAlg
  autoRescan := true
  lastScannedAt := some (Rfc3339.format now)
  lastError := res.trustError
  active := true
  createdAt := Rfc3339.format now
  chainJson := marshalChain res.chain

namespace Store

/-- What `UpsertScan` does after it looked for the entry. -/
def writeScan (s : Store) (now : Int) (name : String) (res : ScanResult) :
    Option Cert → Store × Option Cert
  | some existing =>
    let s' := { s with certs := s.certs.modify existing.id (updateScan now res existing) }
    (s', s'.getByID existing.id)
  | none =>
    let s' := { s with certs := s.certs.insert (insertScan now name res) }
    (s', s'.getByID s.certs.nextKey)

/-- Looks for an active entry at the address and writes what the scan found, statement by
statement. -/
def upsertScan (s : Store) (now : Int) (name : String) (res : ScanResult) :
    Store × Option Cert :=
  s.writeScan now name res (s.findByHostPort res.host res.port)

/-! ### Recording an alert -/

/-- Records the threshold an alert about the certificate was sent at, and when. -/
def markNotified (s : Store) (now certID threshold : Int) : Store :=
  { s with
    certs := s.certs.modify certID fun r =>
      { r with
        lastNotifiedThreshold := threshold
        lastNotifiedOn := some (Rfc3339.format now) } }

/-- Records the threshold an alert about the chain was sent at. -/
def markChainNotified (s : Store) (certID threshold : Int) : Store :=
  { s with
    certs := s.certs.modify certID fun r => { r with lastChainNotifiedThreshold := threshold } }

/-- Adds a line to the activity log; the id 0 stands for no entry. -/
def addEvent (s : Store) (now : Int) (kind : EventKind) (certID : Int) (certName actor : String)
    (detail : EventDetail) : Store :=
  { s with
    events := s.events.insert
      { atTime := Rfc3339.format now
        kind := kind
        certId := if certID = 0 then none else some certID
        certName := certName
        actor := actor
        detail := detail } }

end Store

theorem find?_id_eq_none {id : Int} {cs : List Cert} (h : id ∉ cs.map Cert.id) :
    cs.find? (fun c => c.id = id) = none :=
  List.find?_eq_none.mpr fun _ hc heq =>
    h (of_decide_eq_true heq ▸ List.mem_map_of_mem (f := Cert.id) hc)

namespace Store

variable {s : Store} {id : Int} {c : Cert}

/-! ### What queries return -/

/-- `List` returns the active rows, each once. -/
theorem mem_list_iff : c ∈ s.list ↔
    ∃ r, s.certs.get? c.id = some r ∧ r.active = true ∧ c = scanRowValues c.id r := by
  simp only [list, List.mem_map, List.mem_insertionSort, List.mem_filter, Prod.exists]
  constructor
  · rintro ⟨k, r, ⟨hmem, hactive⟩, rfl⟩
    exact ⟨r, Table.mem_rows_iff.mp hmem, hactive, rfl⟩
  · rintro ⟨r, hget, hactive, hc⟩
    exact ⟨c.id, r, ⟨Table.mem_rows_iff.mpr hget, hactive⟩, hc.symm⟩

theorem list_ids_nodup (s : Store) : (s.list.map Cert.id).Nodup := by
  have hids : s.list.map Cert.id = ((s.certs.rows.filter fun r => r.2.active).insertionSort
      fun r r' => r.2.expiresAt ≤ r'.2.expiresAt).map Prod.fst := by
    simp only [list, List.map_map]
    rfl
  rw [hids, ((List.perm_insertionSort _ _).map _).nodup_iff]
  exact s.certs.nodup_keys.sublist (List.filter_sublist.map _)

/-- The entry with an id is listed as its row is read, if the row is active. -/
theorem find?_list : s.list.find? (fun c => c.id = id) =
    ((s.certs.get? id).filter fun r => r.active).map (scanRowValues id) := by
  cases hfind : s.list.find? fun c => c.id = id with
  | some c =>
    have hid : c.id = id := by simpa using List.find?_some hfind
    obtain ⟨r, hget, hactive, hc⟩ := mem_list_iff.mp (List.mem_of_find?_eq_some hfind)
    rw [hid] at hget hc
    simp [hget, hactive, hc]
  | none =>
    cases hget : s.certs.get? id with
    | none => rfl
    | some r =>
      cases hactive : r.active with
      | false => simp [hactive]
      | true =>
        have hmem : scanRowValues id r ∈ s.list := mem_list_iff.mpr ⟨r, hget, hactive, rfl⟩
        exact absurd (List.find?_eq_none.mp hfind _ hmem) (by simp [scanRowValues])

theorem allEnabledChannels_nodup (s : Store) : s.allEnabledChannels.Nodup := by
  have hids : (s.allEnabledChannels.map Channel.id).Nodup := by
    have hkeys : s.allEnabledChannels.map Channel.id =
        (s.channels.rows.filter fun r => r.2.enabled).map Prod.fst := by
      simp only [allEnabledChannels, List.map_map]
      rfl
    rw [hkeys]
    exact s.channels.nodup_keys.sublist (List.filter_sublist.map _)
  exact hids.of_map _

theorem findByHostPort_eq_some {host : String} {port : Int}
    (h : s.findByHostPort host port = some c) :
    ∃ r, s.certs.get? c.id = some r ∧ r.active = true ∧ c = scanRowValues c.id r := by
  obtain ⟨⟨k, r⟩, hfind, rfl⟩ := Option.map_eq_some_iff.mp h
  have hr := List.find?_some hfind
  simp only [Bool.decide_and, Bool.and_eq_true, decide_eq_true_eq] at hr
  exact ⟨r, Table.mem_rows_iff.mp (List.mem_of_find?_eq_some hfind), hr.2.2, rfl⟩

theorem address_of_find {host : String} {port : Int} (h : s.findByHostPort host port = some c) :
    c.host = host ∧ c.port = port := by
  obtain ⟨⟨k, r⟩, hfind, rfl⟩ := Option.map_eq_some_iff.mp h
  have hr := List.find?_some hfind
  simp only [Bool.decide_and, Bool.and_eq_true, decide_eq_true_eq] at hr
  exact ⟨hr.1, hr.2.1⟩

/-! ### What a scan writes -/

/-- A scan that found an entry rewrites its row and no other. -/
theorem get?_certs_writeScan_some {now : Int} {name : String} {res : ScanResult} :
    (s.writeScan now name res (some c)).1.certs.get? id =
      (s.certs.get? id).map fun r => if id = c.id then updateScan now res c r else r := by
  simp only [writeScan, Table.get?_modify]
  split_ifs <;> simp

/-- A scan that found no entry leaves the rows there are. -/
theorem get?_certs_writeScan_none {now : Int} {name : String} {res : ScanResult} {r : CertRow}
    (h : s.certs.get? id = some r) :
    (s.writeScan now name res none).1.certs.get? id = some r :=
  Table.get?_insert_of_some h

theorem writeScan_channels {now : Int} {name : String} {res : ScanResult} {e : Option Cert} :
    (s.writeScan now name res e).1.channels = s.channels := by
  cases e <;> rfl

end Store

end CertGuard
