import CertGuard.Scheduler.Rescan
import CertGuard.Server.Vault

/-!
# Requests about entries

The handlers that add, scan, change and delete entries, and those that answer about one of
them. Each runs by itself here: its statements follow one another, and none fails.

## Main definitions

* `Answer`, `EntryBody` — what a handler answers
* `handleScan`, `handleTrackDomain`, `handleCreateCert` — requests that add entries
* `handleScanAll`, `handleRescanCert`, `handleCoverage` — requests that look again
* `handleUpdateCert`, `handleDeleteCert`, `handleSetSecret`, `handleRevealSecret`,
  `handleCalendarOne` — requests about the entry of an id
-/

namespace CertGuard

/-! ### Answers -/

/-- An answer: its status, and the text of an error or a body. -/
structure Answer (β : Type) where
  status : Nat
  body : Except String β
  deriving DecidableEq, Repr

def writeErr {β : Type} (status : Nat) (msg : String) : Answer β := ⟨status, .error msg⟩

def writeJSON {β : Type} (status : Nat) (body : β) : Answer β := ⟨status, .ok body⟩

/-- What is answered about entries. -/
inductive EntryBody
  | noContent
  | entry (c : Option Cert)
  | scanned (res : ScanResult)
  | saved (res : ScanResult) (stored : Option Cert)
  | tracked (lookup : DomainResult) (stored : Option Cert)
  | counts (total scanned errs : Nat)
  | names (port : Int) (names : List CoveredName)
  | calendar (certs : List Cert)
  | hasSecret (hasSecret : Bool)
  | enc (enc : Cipher)
  | value (plain : String)
  deriving DecidableEq, Repr

/-! ### Labels, dates and ids -/

/-- A character `sanitizeLabel` keeps: no control character but the tab. -/
def keepsRune (c : Char) : Bool :=
  c = '\t' || (0x20 ≤ c.toNat && c.toNat ≠ 0x7f && !(0x80 ≤ c.toNat && c.toNat ≤ 0x9f))

/-- A label on one line, without blanks at its ends. -/
def sanitizeLabel (s : String) : String := String.ofList (trimSpace (s.toList.filter keepsRune))

example : sanitizeLabel " web\r\nBcc: x " = "webBcc: x" := by decide

def timeOrEmpty (t : Int) : List Char := if t = 0 then [] else Rfc3339.format t

/-- A handler of a request about the entry of an id: `strconv.ParseInt` gives the id, or
nothing. -/
def withID {σ : Type} (s : σ) (path : Option Int)
    (handle : Int → σ × Answer EntryBody) : σ × Answer EntryBody :=
  match path with
  | none => (s, writeErr 400 "invalid id")
  | some id => handle id

/-! ### Adding entries -/

/-- `scanRequest`, with what `scanner.ParseTarget` makes of its target. -/
structure ScanRequest where
  target : Except String (String × Int)
  name : String := ""
  serverName : String := ""
  dryRun : Bool := false
  notes : String := ""

/-- Adds notes to an entry just written, under the name and the category it was read with. -/
def applyNotes (s : Store) (c : Option Cert) (notes : String) : Store × Option Cert :=
  match c with
  | none => (s, none)
  | some c =>
    if trimSpace notes.toList = [] then (s, some c)
    else
      match s.updateEntry c.id c.name c.category notes with
      | none => (s, some c)
      | some s => (s, some ((s.getByID c.id).getD c))

/-- `recordEvent`; the actor is the address of who asks. -/
def recordEvent (actor : String) (now : Int) (s : Store) (kind : EventKind) (c : Option Cert)
    (detail : String) : Store :=
  match c with
  | none => s
  | some c => s.addEvent now kind c.id c.name actor (.plain (GoString.ofString detail))

/-- `recordAccountEvent`: a line about an account, in the place of an entry. -/
def recordAccountEvent (now : Int) (s : Store) (kind : EventKind) (actor subject : String)
    (detail : EventDetail) : Store :=
  s.addEvent now kind 0 subject actor detail

/-- What `handleScan` and `handleTrackDomain` do once they have something to record. -/
def addUpsert (actor : String) (now : Int) (s : Store) (u : Upsert) (notes detail : String) :
    Store × Option Cert :=
  let upserted := u.write s now (u.find s)
  let noted := applyNotes upserted.1 upserted.2 notes
  (recordEvent actor now noted.1 .added noted.2 detail, noted.2)

/-- `handleScan`; `scan` is what comes of connecting to an address under a name. -/
def handleScan (actor : String) (now : Int)
    (scan : String → Int → String → Except String Served) (s : Store)
    (body : Option ScanRequest) : Store × Answer EntryBody :=
  match body with
  | none => (s, writeErr 400 "invalid JSON body")
  | some req =>
    match req.target with
    | .error msg => (s, writeErr 400 msg)
    | .ok (host, port) =>
      match scan host port req.serverName with
      | .error msg => (s, writeErr 502 msg)
      | .ok served =>
        let res := scanResult host port req.serverName served
        if req.dryRun then (s, writeJSON 200 (.scanned res))
        else
          let added := addUpsert actor now s (.scan req.name res) req.notes "endpoint"
          (added.1, writeJSON 200 (.saved res added.2))

/-- Why a domain lookup fails: `ordinary` where there is no such registration, or no expiry. -/
structure LookupError where
  ordinary : Bool
  msg : String
  deriving DecidableEq, Repr

/-- The body of a request to track a domain. -/
structure TrackRequest where
  domain : String
  name : String := ""
  notes : String := ""

/-- `handleTrackDomain`; `lookup` is what the registries say of a domain. -/
def handleTrackDomain (actor : String) (now : Int)
    (lookup : String → Except LookupError DomainResult) (s : Store) (body : Option TrackRequest) :
    Store × Answer EntryBody :=
  match body with
  | none => (s, writeErr 400 "invalid JSON body")
  | some req =>
    if trimSpace req.domain.toList = [] then (s, writeErr 400 "domain is required")
    else
      match lookup req.domain with
      | .error e => (s, writeErr (if e.ordinary then 422 else 502) e.msg)
      | .ok res =>
        let added := addUpsert actor now s (.domain req.name res) req.notes "domain"
        (added.1, writeJSON 200 (.tracked res added.2))

/-- `createCertRequest`, with its dates as `parseFlexDate` reads them; `kind` is `none` where
it names no kind. -/
structure CreateCertRequest where
  name : String
  kind : Option Kind := none
  category : String := ""
  expiresAt : Option Int
  notes : String := ""
  subject : GoString := []
  issuer : GoString := []
  sha256 : String := ""
  notBefore : Option Int := none
  keyType : String := ""
  dnsNames : List GoString := []
  secret : String := ""

/-- The row `handleCreateCert` has `AddCert` insert. -/
def createRow (now expires : Int) (req : CreateCertRequest) : CertRow where
  name := sanitizeLabel req.name
  -- endpoints and domains are not created this way
  kind := if req.kind = some .file then .file else .manual
  category := sanitizeLabel req.category
  subject := req.subject
  issuer := req.issuer
  sha256 := req.sha256
  notBefore := timeOrEmpty (req.notBefore.getD 0)
  expiresAt := Rfc3339.format expires
  dnsNames := marshalStrings req.dnsNames
  keyType := req.keyType
  notes := req.notes
  createdAt := Rfc3339.format now

/-- `storeSecret`: the store when it succeeds. -/
def storeSecret (h : Host) (id : Int) (value : String) : Except VaultError (Option Store) :=
  if value = "" then .ok (h.store.setSecret id Sealed.empty)
  else
    match h.vaultSeal value with
    | .error e => .error e
    | .ok enc => .ok (h.store.setSecret id enc)

/-- The end of `handleCreateCert`. -/
def entryCreated (actor : String) (now : Int) (s : Store) (id : Int) : Store × Answer EntryBody :=
  let stored := s.getByID id
  let kind := (stored.map fun c => c.kind.text).getD ""
  (recordEvent actor now s .added stored kind, writeJSON 201 (.entry stored))

/-- An entry made by hand, with its secret if the vault is open. -/
def handleCreateCert (actor : String) (now : Int) (h : Host) (body : Option CreateCertRequest) :
    Store × Answer EntryBody :=
  match body with
  | none => (h.store, writeErr 400 "invalid JSON body")
  | some req =>
    if sanitizeLabel req.name = "" then (h.store, writeErr 400 "name is required")
    else
      match req.expiresAt with
      | none => (h.store, writeErr 400 "expires_at must be YYYY-MM-DD or RFC3339")
      | some expires =>
        let id := h.store.certs.nextKey
        let s := h.store.addCert (createRow now expires req)
        -- the secret is stored if it can be
        let s :=
          if req.secret ≠ "" ∧ h.vault.zk = false ∧ h.vault.box.isSome then
            match storeSecret { h with store := s } id req.secret with
            | .ok (some s) => s
            | _ => s
          else s
        entryCreated actor now s id

/-! ### Looking again -/

/-- The loop body of `handleScanAll`. -/
def scanAllEndpoint (env : SweepEnv) (s : Store) (c : Cert) : Store :=
  match env.scan c with
  | .error msg => s.touchScanError env.clock c.id msg
  | .ok served => ((c.scanned served).write s env.clock ((c.scanned served).find s)).1

def handleScanAll (env : SweepEnv) (s : Store) : Store × Answer EntryBody :=
  let eps := s.endpointsForRescan
  let failed := eps.countP fun c => match env.scan c with | .error _ => true | .ok _ => false
  (eps.foldl (scanAllEndpoint env) s,
    writeJSON 200 (.counts eps.length (eps.length - failed) failed))

/-- What `handleRescanCert` does with the entry it read. -/
def rescanEntry (env : SweepEnv) (s : Store) (id : Int) (c : Cert) : Store × Answer EntryBody :=
  if c.kind = .domain then
    match env.lookup c with
    | .error msg => (s.touchScanError env.clock id msg, writeErr 502 msg)
    | .ok res =>
      let upserted := (Upsert.domain c.name res).write s env.clock
        ((Upsert.domain c.name res).find s)
      (upserted.1, writeJSON 200 (.entry upserted.2))
  else if c.kind ≠ .endpoint ∨ c.host = "" then
    (s, writeErr 400 "only live endpoint entries can be rescanned")
  else
    match env.scan c with
    | .error msg => (s.touchScanError env.clock id msg, writeErr 502 msg)
    | .ok served =>
      let upserted := (c.scanned served).write s env.clock ((c.scanned served).find s)
      (upserted.1, writeJSON 200 (.entry upserted.2))

/-- The entry is read by its id alone, deleted or not. -/
def handleRescanCert (env : SweepEnv) (s : Store) (path : Option Int) :
    Store × Answer EntryBody :=
  withID s path fun id =>
    match s.getByID id with
    | none => (s, writeErr 404 "entry not found")
    | some c => rescanEntry env s id c

def handleCoverage (env : SweepEnv) (s : Store) (path : Option Int) : Store × Answer EntryBody :=
  withID s path fun id =>
    match s.getByID id with
    | none => (s, writeErr 404 "entry not found")
    | some c =>
      if c.dnsNames = [] then (s, writeErr 400 "this entry does not list any covered names")
      else
        let names := coverageCheck (env.reach c) c
        (s.saveCoverage env.clock c.id names, writeJSON 200 (.names (dialPort c.port) names))

/-! ### The entry of an id -/

structure UpdateCertRequest where
  name : String
  category : String := ""
  notes : String := ""
  deriving DecidableEq, Repr

/-- Overwrites the name, the category and the notes together. -/
def handleUpdateCert (actor : String) (now : Int) (s : Store) (path : Option Int)
    (body : Option UpdateCertRequest) : Store × Answer EntryBody :=
  withID s path fun id =>
    match body with
    | none => (s, writeErr 400 "invalid JSON body")
    | some req =>
      if sanitizeLabel req.name = "" then (s, writeErr 400 "name is required")
      else
        match s.updateEntry id (sanitizeLabel req.name) (sanitizeLabel req.category) req.notes with
        | none => (s, writeErr 404 "entry not found")
        | some s =>
          let updated := s.getByID id
          (recordEvent actor now s .updated updated "", writeJSON 200 (.entry updated))

def handleDeleteCert (actor : String) (now : Int) (s : Store) (path : Option Int) :
    Store × Answer EntryBody :=
  withID s path fun id =>
    -- the log has to name the entry after it is gone
    let gone := s.getByID id
    match s.softDelete id with
    | none => (s, writeErr 404 "cert not found")
    | some s => (recordEvent actor now s .deleted gone "", writeJSON 204 .noContent)

/-- `setSecretRequest`; `enc` is what the browser sealed, in zero-knowledge mode. -/
structure SetSecretRequest where
  value : String := ""
  enc : Cipher := Sealed.empty

/-- What `handleSetSecret` answers once the statement has run. -/
def secretStored (s : Store) (stored : Option Store) (hasSecret : Bool) :
    Store × Answer EntryBody :=
  match stored with
  | none => (s, writeErr 404 "entry not found")
  | some s => (s, writeJSON 200 (.hasSecret hasSecret))

/-- Stores a secret or, given an empty one, drops it. -/
def handleSetSecret (h : Host) (path : Option Int) (body : Option SetSecretRequest) :
    Store × Answer EntryBody :=
  if h.vault.enabled = false then (h.store, writeErr 503 "secret vault not enabled")
  else
    withID h.store path fun id =>
      match body with
      | none => (h.store, writeErr 400 "invalid JSON body")
      | some req =>
        if h.vault.zk then
          secretStored h.store (h.store.setSecret id req.enc) (req.enc ≠ Sealed.empty)
        else if h.vault.box.isNone then
          (h.store, writeErr 423 "vault is locked — unlock it first")
        else
          match storeSecret h id req.value with
          | .error e => (h.store, writeErr 500 (e.message.getD ""))
          | .ok stored => secretStored h.store stored (req.value ≠ "")

/-- Answers a secret as it is stored in zero-knowledge mode, and otherwise opened. -/
def handleRevealSecret (h : Host) (path : Option Int) : Store × Answer EntryBody :=
  if h.vault.enabled = false then (h.store, writeErr 503 "secret vault not enabled")
  else
    withID h.store path fun id =>
      match h.store.getByID id with
      | none => (h.store, writeErr 404 "entry not found")
      | some c =>
        if c.secretEnc = Sealed.empty then
          (h.store, writeErr 404 "no secret stored for this entry")
        else if h.vault.zk then (h.store, writeJSON 200 (.enc c.secretEnc))
        else if h.vault.box.isNone then
          (h.store, writeErr 423 "vault is locked — unlock it first")
        else
          match h.vaultOpen c.secretEnc with
          | .error e => (h.store, writeErr 500 (e.message.getD ""))
          | .ok plain => (h.store, writeJSON 200 (.value plain))

/-- `handleCalendarOne`; the calendar is made of the entry. -/
def handleCalendarOne (s : Store) (path : Option Int) : Store × Answer EntryBody :=
  withID s path fun id =>
    match s.getByID id with
    | none => (s, writeErr 404 "entry not found")
    | some c => (s, writeJSON 200 (.calendar [c]))

end CertGuard
