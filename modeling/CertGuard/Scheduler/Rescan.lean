import CertGuard.Lib.TransitionRun
import CertGuard.Scanner.Target
import CertGuard.Store.Entries

/-!
# Sweeps

The first half of a scheduler pass: every endpoint is scanned, every domain looked up, and
what came of it recorded. A sweep lists the entries once, and decides by what it listed
whether something has changed; what it writes goes to whatever entry has the address by then.

## Main definitions

* `Served`, `scanResult` — what a handshake finds, as `scanner.Scan` returns it
* `coverageCheck`, `newlyUnreachable` — what answers for the names of a certificate
* `rescanEndpoint`, `rescanDomain`, `rescan` — a sweep
* `Store.eventsAbout` — lines of the activity log
* `turns` — the states in which a loop comes to its entries

## Main results

* `get?_certs_rescanEndpoint_error`, `get?_certs_rescanEndpoint_some`,
  `get?_certs_rescanEndpoint_none` — the rows after a scan
* `eventsAbout_rescanEndpoint_error`, `eventsAbout_rescanEndpoint_ok` — the lines it adds
-/

namespace CertGuard

/-! ### Scanning -/

/-- What a handshake finds. -/
structure Served where
  subject : GoString := []
  issuer : GoString := []
  serial : String := ""
  sha256 : String
  notBefore : Int := 0
  notAfter : Int := 0
  dnsNames : List GoString := []
  keyType : String := ""
  sigAlg : String := ""
  chain : List ChainCert := []
  trustError : String := ""
  deriving DecidableEq, Repr

/-- The port a scan connects to. -/
def dialPort (port : Int) : Int := if port = 0 then defaultPort else port

/-- What `scanner.Scan` returns of an address. -/
def scanResult (host : String) (port : Int) (serverName : String) (served : Served) :
    ScanResult where
  host := host
  port := dialPort port
  serverName := if serverName = "" then host else serverName
  subject := served.subject
  issuer := served.issuer
  serial := served.serial
  sha256 := served.sha256
  notBefore := served.notBefore
  notAfter := served.notAfter
  dnsNames := served.dnsNames
  keyType := served.keyType
  sigAlg := served.sigAlg
  chain := served.chain
  trustError := served.trustError

/-- A wildcard is not a host. -/
def isWildcard (name : GoString) : Bool := (GoString.ofString "*.").isPrefixOf name

/-- `coverage.Check`: what answers for each name of an entry, where connecting to a name ends
as `reach` says. -/
def coverageCheck (reach : GoString → Except String Served) (c : Cert) : List CoveredName :=
  c.dnsNames.map fun name =>
    if isWildcard name then
      { name := name, status := .wildcard
        detail := GoString.ofString "not a hostname — nothing to connect to" }
    else
      match reach name with
      | .error msg => { name := name, status := .unreachable, detail := GoString.ofString msg }
      | .ok served =>
        { name := name
          status := if served.sha256 = c.sha256 then .same else .different
          subject := served.subject
          sha256 := GoString.ofString served.sha256 }

/-- The names that are broken now and were not before. -/
def newlyUnreachable (before after : List CoveredName) : List GoString :=
  let was := (before.filter fun n => n.status = .unreachable).map CoveredName.name
  (after.filter fun n => n.status = .unreachable ∧ n.name ∉ was).map CoveredName.name

/-! ### A sweep -/

/-- What a sweep meets: the time, what comes of the scans, of connecting to the names of an
entry and of asking registries. -/
structure SweepEnv where
  clock : Int
  scan : Cert → Except String Served
  reach : Cert → GoString → Except String Served
  lookup : Cert → Except String DomainResult

/-- What the log says of a renewal. -/
def renewedDetail (stored : Cert) : EventDetail :=
  .plain (GoString.ofString "new certificate expires " ++
    GoString.ofList (Rfc3339.formatDate stored.expiresAt))

/-- What the log says of names that are broken. -/
def brokenDetail (names : List GoString) : EventDetail :=
  .plain ((GoString.ofString ", ").intercalate names ++ GoString.ofString " no longer resolves")

/-- A sweep looks again at what answers for the names of an entry. -/
def refreshCoverage (env : SweepEnv) (c stored : Cert) (s : Store) : Store :=
  let names := coverageCheck (env.reach stored) stored
  let s := s.saveCoverage env.clock stored.id names
  -- a name that was broken before is not reported again
  let newly := newlyUnreachable c.coverage names
  if newly ≠ [] then
    s.addEvent env.clock .coverageBroken stored.id stored.name "" (brokenDetail newly)
  else s

/-- What follows a scan that was recorded: `c` is the entry as it was listed, `stored` as it
was read back. -/
def afterScan (env : SweepEnv) (c stored : Cert) (s : Store) : Store :=
  -- only transitions are logged
  let s :=
    if c.lastError ≠ "" then s.addEvent env.clock .scanRecovered c.id c.name "" (.plain []) else s
  let s :=
    if c.sha256 ≠ "" ∧ stored.sha256 ≠ c.sha256 then
      s.addEvent env.clock .renewed stored.id stored.name "" (renewedDetail stored)
    else s
  if 1 < stored.dnsNames.length then refreshCoverage env c stored s else s

/-- The first loop body of `rescan`. -/
def rescanEndpoint (env : SweepEnv) (s : Store) (c : Cert) : Store :=
  match env.scan c with
  | .error msg =>
    let s :=
      if c.lastError = "" then
        s.addEvent env.clock .scanFailed c.id c.name "" (.plain (GoString.ofString msg))
      else s
    s.touchScanError env.clock c.id msg
  | .ok served =>
    match s.upsertScan env.clock c.name (scanResult c.host c.port c.serverName served) with
    | (s, none) => s
    | (s, some stored) => afterScan env c stored s

/-- The second loop body of `rescan`. -/
def rescanDomain (env : SweepEnv) (s : Store) (c : Cert) : Store :=
  match env.lookup c with
  | .error msg => s.touchScanError env.clock c.id msg
  | .ok res => (s.upsertDomain env.clock c.name res).1

/-- A sweep over the endpoints and then over the domains. -/
def rescan (env : SweepEnv) (s : Store) : Store :=
  let s := s.endpointsForRescan.foldl (rescanEndpoint env) s
  s.domainsForRefresh.foldl (rescanDomain env) s

/-- The states in which a loop comes to its entries, with the entries. -/
def turns (body : Store → Cert → Store) (s : Store) : List Cert → List (Store × Cert)
  | [] => []
  | c :: cs => (s, c) :: turns body (body s c) cs

/-! ### The activity log -/

/-- The column of an event that says which entry it is about. -/
def eventId (id : Int) : Option Int := if id = 0 then none else some id

/-- How many lines of a kind are about an entry. -/
def Store.eventsAbout (s : Store) (kind : EventKind) (id : Int) : Nat :=
  (s.events.rows.filter fun r => r.2.kind = kind ∧ r.2.certId = eventId id).length

variable {s s' : Store} {env : SweepEnv} {c stored : Cert} {kind kind' : EventKind}
variable {id id' now : Int} {name actor : String} {detail : EventDetail}

theorem eventId_inj : eventId id = eventId id' ↔ id = id' := by
  unfold eventId
  split_ifs with h h' h'
  · simp [h, h']
  · exact iff_of_false (by simp) fun heq => h' (heq ▸ h)
  · exact iff_of_false (by simp) fun heq => h (heq ▸ h')
  · simp

/-- One line is added. -/
theorem eventsAbout_addEvent : (s.addEvent now kind' id' name actor detail).eventsAbout kind id =
    s.eventsAbout kind id + if kind' = kind ∧ id' = id then 1 else 0 := by
  have hrows : (s.addEvent now kind' id' name actor detail).events.rows = s.events.rows ++
      [(s.events.nextKey, ⟨Rfc3339.format now, kind', eventId id', name, actor, detail⟩)] := rfl
  rw [Store.eventsAbout, hrows, List.filter_append, List.length_append, Store.eventsAbout]
  congr 1
  by_cases h : kind' = kind ∧ id' = id
  · simp [h]
  · have hne : ¬ (kind' = kind ∧ eventId id' = eventId id) := by rwa [eventId_inj]
    simp [h, hne]

theorem eventsAbout_congr (h : s'.events = s.events) : s'.eventsAbout kind id =
    s.eventsAbout kind id := by
  rw [Store.eventsAbout, h, Store.eventsAbout]

theorem events_touchScanError {msg : String} : (s.touchScanError now id msg).events = s.events := by
  unfold Store.touchScanError Store.updateActive
  split_ifs <;> rfl

theorem events_write {u : Upsert} {existing : Option Cert} :
    (u.write s now existing).1.events = s.events := by
  cases existing <;> cases u <;> rfl

/-- What is recorded is read back. -/
theorem exists_stored (s : Store) (now : Int) (u : Upsert) :
    ∃ stored, (u.write s now (u.find s)).2 = some stored := by
  cases hfind : u.find s with
  | none =>
    refine ⟨scanRowValues s.certs.nextKey (u.newRow now), ?_⟩
    rw [Upsert.write_none]
    simp only [Store.getByID, Table.get?_insert, if_true, Option.map_some]
  | some e =>
    obtain ⟨r, hrow, -, -⟩ := Store.findByHostPort_eq_some hfind
    refine ⟨scanRowValues e.id (u.update now e r), ?_⟩
    rw [Upsert.write_some]
    simp only [Store.getByID, Table.get?_modify_self, hrow, Option.map_some]

/-- A scan to be recorded in the entry it was made for, by its address. -/
def Cert.scanned (c : Cert) (served : Served) : Upsert :=
  .scan c.name (scanResult c.host c.port c.serverName served)

theorem rescanEndpoint_error {msg : String} (hscan : env.scan c = .error msg) :
    rescanEndpoint env s c = Store.touchScanError
      (if c.lastError = "" then
        s.addEvent env.clock .scanFailed c.id c.name "" (.plain (GoString.ofString msg)) else s)
      env.clock c.id msg := by
  simp only [rescanEndpoint, hscan]

theorem rescanEndpoint_ok {served : Served} (hscan : env.scan c = .ok served)
    (hstored : ((c.scanned served).write s env.clock ((c.scanned served).find s)).2 =
      some stored) :
    rescanEndpoint env s c = afterScan env c stored
      ((c.scanned served).write s env.clock ((c.scanned served).find s)).1 := by
  have hupsert : s.upsertScan env.clock c.name (scanResult c.host c.port c.serverName served) =
      (c.scanned served).write s env.clock ((c.scanned served).find s) := rfl
  simp only [rescanEndpoint, hscan, hupsert]
  rw [← Prod.mk.eta (p := (c.scanned served).write s env.clock ((c.scanned served).find s)),
    hstored]

/-! ### The lines a scan adds -/

/-- A line is added if a condition holds. -/
theorem eventsAbout_ite {p : Prop} [Decidable p] :
    (if p then s.addEvent now kind' id' name actor detail else s).eventsAbout kind id =
      s.eventsAbout kind id + if p ∧ kind' = kind ∧ id' = id then 1 else 0 := by
  by_cases hp : p
  · rw [if_pos hp, eventsAbout_addEvent]
    simp only [hp, true_and]
  · simp [hp]

theorem eventsAbout_refreshCoverage (hkind : kind ≠ .coverageBroken) :
    (refreshCoverage env c stored s).eventsAbout kind id = s.eventsAbout kind id := by
  rw [refreshCoverage, eventsAbout_ite, if_neg fun h => hkind h.2.1.symm]
  rfl

theorem eventsAbout_afterScan (hkind : kind ≠ .coverageBroken) :
    (afterScan env c stored s).eventsAbout kind id = s.eventsAbout kind id +
      (if c.lastError ≠ "" ∧ .scanRecovered = kind ∧ c.id = id then 1 else 0) +
      if (c.sha256 ≠ "" ∧ stored.sha256 ≠ c.sha256) ∧ .renewed = kind ∧ stored.id = id then 1
      else 0 := by
  have hlast : ∀ s' : Store, (if 1 < stored.dnsNames.length then
      refreshCoverage env c stored s' else s').eventsAbout kind id = s'.eventsAbout kind id := by
    intro s'
    split_ifs
    · exact eventsAbout_refreshCoverage hkind
    · rfl
  rw [afterScan, hlast, eventsAbout_ite, eventsAbout_ite]

/-- A scan that fails adds a line at most about that. -/
theorem eventsAbout_rescanEndpoint_error {msg : String} (hscan : env.scan c = .error msg) :
    (rescanEndpoint env s c).eventsAbout kind id = s.eventsAbout kind id +
      if c.lastError = "" ∧ .scanFailed = kind ∧ c.id = id then 1 else 0 := by
  rw [rescanEndpoint_error hscan, eventsAbout_congr events_touchScanError, eventsAbout_ite]

/-- One that succeeds adds lines about a recovery and a renewal, besides those about names. -/
theorem eventsAbout_rescanEndpoint_ok {served : Served} (hkind : kind ≠ .coverageBroken)
    (hscan : env.scan c = .ok served)
    (hstored : ((c.scanned served).write s env.clock ((c.scanned served).find s)).2 =
      some stored) :
    (rescanEndpoint env s c).eventsAbout kind id = s.eventsAbout kind id +
      (if c.lastError ≠ "" ∧ .scanRecovered = kind ∧ c.id = id then 1 else 0) +
      if (c.sha256 ≠ "" ∧ stored.sha256 ≠ c.sha256) ∧ .renewed = kind ∧ stored.id = id then 1
      else 0 := by
  rw [rescanEndpoint_ok hscan hstored, eventsAbout_afterScan hkind, eventsAbout_congr events_write]

theorem events_rescanDomain : (rescanDomain env s c).events = s.events := by
  unfold rescanDomain
  split
  · exact events_touchScanError
  · next res _ => exact events_write (u := .domain c.name res)

/-! ### The rows after a scan -/

/-- A row after its entry was scanned: what answers for its names is recorded if there is more
than one. -/
def coverRow (env : SweepEnv) (id : Int) (r : CertRow) : CertRow :=
  let stored := scanRowValues id r
  if 1 < stored.dnsNames.length then
    { r with
      coverageJson := marshalCoverage (coverageCheck (env.reach stored) stored)
      coverageAt := Rfc3339.format env.clock }
  else r

/-- It changes no more than that. -/
theorem coverRow_eq (env : SweepEnv) (id : Int) (r : CertRow) : ∃ json time,
    coverRow env id r = { r with coverageJson := json, coverageAt := time } := by
  simp only [coverRow]
  split_ifs
  · exact ⟨_, _, rfl⟩
  · exact ⟨r.coverageJson, r.coverageAt, rfl⟩

theorem certs_refreshCoverage : (refreshCoverage env c stored s).certs =
    (s.saveCoverage env.clock stored.id (coverageCheck (env.reach stored) stored)).certs := by
  simp only [refreshCoverage]
  split_ifs <;> rfl

theorem certs_afterScan : (afterScan env c stored s).certs =
    if 1 < stored.dnsNames.length then
      (s.saveCoverage env.clock stored.id (coverageCheck (env.reach stored) stored)).certs
    else s.certs := by
  have hlast : ∀ s' : Store, s'.certs = s.certs → (if 1 < stored.dnsNames.length then
      refreshCoverage env c stored s' else s').certs = if 1 < stored.dnsNames.length then
        (s.saveCoverage env.clock stored.id (coverageCheck (env.reach stored) stored)).certs
      else s.certs := by
    intro s' hs'
    split_ifs
    · rw [certs_refreshCoverage]
      simp only [Store.saveCoverage, hs']
    · exact hs'
  refine hlast _ ?_
  split_ifs <;> rfl

/-- The entry read back has its names checked. -/
theorem get?_certs_afterScan (hget : s.getByID stored.id = some stored) :
    (afterScan env c stored s).certs.get? id =
      (s.certs.get? id).map fun r => if id = stored.id then coverRow env id r else r := by
  rw [certs_afterScan]
  by_cases hid : id = stored.id
  · subst hid
    obtain ⟨r, hrow, hread⟩ := Option.map_eq_some_iff.mp hget
    simp only [hrow, Option.map_some, coverRow, hread, if_true]
    split_ifs
    · simp only [Store.saveCoverage, Table.get?_modify_self, hrow, Option.map_some]
    · exact hrow
  · simp only [if_neg hid, Option.map_id']
    split_ifs
    · simp only [Store.saveCoverage, Table.get?_modify, if_neg hid]
    · rfl

/-- A failed scan is recorded in the row of the entry, if it is active. -/
theorem get?_certs_touchScanError {msg : String} :
    (s.touchScanError now id' msg).certs.get? id = (s.certs.get? id).map fun r =>
      if id = id' ∧ r.active = true then
        { r with lastScannedAt := some (Rfc3339.format now), lastError := msg }
      else r := by
  unfold Store.touchScanError Store.updateActive
  by_cases hid : id = id'
  · subst hid
    cases hrow : s.certs.get? id with
    | none =>
      have hno : ¬ s.IsActive id := fun h => by
        obtain ⟨r, hr, -⟩ := h
        exact absurd (hrow.symm.trans hr) (by simp)
      simp [hno, hrow]
    | some r =>
      by_cases hactive : r.active = true
      · -- only an active row is touched
        rw [if_pos ((Store.isActive_iff hrow).mpr hactive)]
        simp only [Option.getD_some, Table.get?_modify_self, hrow, Option.map_some, hactive,
          and_self, if_true]
      · rw [if_neg fun h => hactive ((Store.isActive_iff hrow).mp h)]
        simp [hrow, hactive]
  · simp only [hid, false_and, if_false, Option.map_id']
    split_ifs
    · simp only [Option.getD_some, Table.get?_modify, if_neg hid]
    · rfl

theorem get?_certs_rescanEndpoint_error {msg : String} (hscan : env.scan c = .error msg) :
    (rescanEndpoint env s c).certs.get? id = (s.certs.get? id).map fun r =>
      if id = c.id ∧ r.active = true then
        { r with lastScannedAt := some (Rfc3339.format env.clock), lastError := msg }
      else r := by
  rw [rescanEndpoint_error hscan, get?_certs_touchScanError]
  split_ifs <;> rfl

/-- A scan that found an entry is recorded in its row, and what answers for its names. -/
theorem get?_certs_rescanEndpoint_some {served : Served} {e : Cert}
    (hscan : env.scan c = .ok served) (hfind : (c.scanned served).find s = some e) :
    (rescanEndpoint env s c).certs.get? id = (s.certs.get? id).map fun r =>
      if id = e.id then coverRow env id ((c.scanned served).update env.clock e r) else r := by
  obtain ⟨stored, hstored⟩ := exists_stored s env.clock (c.scanned served)
  rw [rescanEndpoint_ok hscan hstored]
  rw [hfind] at hstored ⊢
  have hread : ((c.scanned served).write s env.clock (some e)).1.getByID e.id = some stored := by
    rw [← hstored, Upsert.write_some]
  have hid : stored.id = e.id := by
    obtain ⟨row, -, rfl⟩ := Option.map_eq_some_iff.mp hread
    rfl
  rw [get?_certs_afterScan (hid ▸ hread), Upsert.get?_write_some, hid, Option.map_map]
  congr 1
  funext r
  simp only [Function.comp_apply]
  split_ifs <;> rfl

/-- A scan that found no entry adds one, and leaves the others. -/
theorem get?_certs_rescanEndpoint_none {served : Served}
    (hscan : env.scan c = .ok served) (hfind : (c.scanned served).find s = none) :
    (rescanEndpoint env s c).certs.get? id =
      if id = s.certs.nextKey then some (coverRow env id ((c.scanned served).newRow env.clock))
      else s.certs.get? id := by
  obtain ⟨stored, hstored⟩ := exists_stored s env.clock (c.scanned served)
  rw [rescanEndpoint_ok hscan hstored]
  rw [hfind] at hstored ⊢
  have hread : ((c.scanned served).write s env.clock none).1.getByID s.certs.nextKey =
      some stored := by
    rw [← hstored, Upsert.write_none]
  have hid : stored.id = s.certs.nextKey := by
    obtain ⟨row, -, rfl⟩ := Option.map_eq_some_iff.mp hread
    rfl
  rw [get?_certs_afterScan (hid ▸ hread), Upsert.get?_write_none, hid]
  split_ifs
  · rfl
  · simp only [Option.map_id']

/-! ### What no scan changes -/

/-- What a sweep leaves in a row as it is. -/
def CertRow.place (r : CertRow) : String × Int × Bool × Kind × Bool :=
  (r.host, r.port, r.active, r.kind, r.autoRescan)

theorem place_update {u : Upsert} {existing : Cert} {r : CertRow} :
    (u.update now existing r).place = r.place := by
  cases u <;> rfl

theorem place_coverRow {r : CertRow} : (coverRow env id r).place = r.place := by
  obtain ⟨json, time, hcover⟩ := coverRow_eq env id r
  rw [hcover]
  rfl

/-- Recording a scan or a lookup moves no entry. -/
theorem place_write (u : Upsert) (id : Int) :
    ((u.write s now (u.find s)).1.certs.get? id).map CertRow.place =
      if u.find s = none ∧ id = s.certs.nextKey then some (u.newRow now).place
      else (s.certs.get? id).map CertRow.place := by
  cases hfind : u.find s with
  | none =>
    rw [Upsert.get?_write_none]
    simp only [true_and]
    split_ifs <;> rfl
  | some e =>
    rw [Upsert.get?_write_some, Option.map_map]
    simp only [reduceCtorEq, false_and, if_false]
    congr 1
    funext r
    simp only [Function.comp_apply]
    split_ifs
    · exact place_update
    · rfl

theorem place_touchScanError {msg : String} :
    ((s.touchScanError now id' msg).certs.get? id).map CertRow.place =
      (s.certs.get? id).map CertRow.place := by
  rw [get?_certs_touchScanError, Option.map_map]
  congr 1
  funext r
  simp only [Function.comp_apply]
  split_ifs <;> rfl

theorem place_rescanEndpoint_error {msg : String} (hscan : env.scan c = .error msg) :
    ((rescanEndpoint env s c).certs.get? id).map CertRow.place =
      (s.certs.get? id).map CertRow.place := by
  rw [rescanEndpoint_error hscan, place_touchScanError]
  split_ifs <;> rfl

theorem place_rescanEndpoint_ok {served : Served} (id : Int) (hscan : env.scan c = .ok served) :
    ((rescanEndpoint env s c).certs.get? id).map CertRow.place =
      if (c.scanned served).find s = none ∧ id = s.certs.nextKey then
        some ((c.scanned served).newRow env.clock).place
      else (s.certs.get? id).map CertRow.place := by
  cases hfind : (c.scanned served).find s with
  | none =>
    rw [get?_certs_rescanEndpoint_none hscan hfind]
    simp only [true_and]
    split_ifs
    · rw [Option.map_some, place_coverRow]
    · rfl
  | some e =>
    rw [get?_certs_rescanEndpoint_some hscan hfind, Option.map_map]
    simp only [reduceCtorEq, false_and, if_false]
    -- rows that were there are updated, which leaves their place
    congr 1
    funext r
    simp only [Function.comp_apply]
    split_ifs
    · rw [place_coverRow, place_update]
    · rfl

/-- A scan leaves an entry its place. -/
theorem place_rescanEndpoint {r : CertRow} (env : SweepEnv) (c : Cert)
    (hrow : s.certs.get? id = some r) :
    ∃ r', (rescanEndpoint env s c).certs.get? id = some r' ∧ r'.place = r.place := by
  have hplace : ((rescanEndpoint env s c).certs.get? id).map CertRow.place = some r.place := by
    cases hscan : env.scan c with
    | error msg => rw [place_rescanEndpoint_error hscan, hrow, Option.map_some]
    | ok served =>
      rw [place_rescanEndpoint_ok id hscan, if_neg fun h => Table.ne_nextKey hrow h.2, hrow,
        Option.map_some]
  exact Option.map_eq_some_iff.mp hplace

end CertGuard
