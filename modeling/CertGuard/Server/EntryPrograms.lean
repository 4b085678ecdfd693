import CertGuard.Lib.Programs
import CertGuard.Server.ActivityLog

/-!
# Requests and sweeps cut at their statements

What scans, lookups, rescans, deletes and sweeps do to the inventory one statement at a time,
so that others can come in between. An upsert looks for an entry with one statement and
updates it or inserts another with the next.

## Main definitions

* `EntryStmt` — a statement
* `upsertProg` — `UpsertScan` and `UpsertDomain`
* `EntryCall`, `EntryCall.code` — requests and sweeps, and their programs
* `GoesByRead` — an `INSERT` comes right after a look at its address that found nothing, and
  notes of a scan right after the entry is read back

## Main results

* `exec_code` — by itself each does what the handler does
* `heeds_code` — and whatever comes in between, it goes by what it has read
* `isAt_insert`, `isAt_softDelete`, `isAt_other` — the entries at an address after a statement
-/

namespace CertGuard

/-- A statement on entries and the log. `find` is the one of an upsert that looks for the entry
at the address, with the entry that is refreshed, if any; `read` stands for any other that only
reads. -/
inductive EntryStmt
  | read
  | find (u : Upsert) (refreshed : Option Cert)
  | insert (now : Int) (u : Upsert)
  | update (now : Int) (u : Upsert) (existing : Cert)
  | softDelete (id : Int)
  | touchScanError (now id : Int) (msg : String)
  | updateEntry (id : Int) (name category notes : String)
  | saveCoverage (now id : Int) (names : List CoveredName)
  | addEvent (now : Int) (kind : EventKind) (id : Int) (name actor : String)
    (detail : EventDetail)

/-- The store after a statement. -/
def EntryStmt.run : EntryStmt → Store → Store
  | read, s => s
  | find _ _, s => s
  | insert now u, s => { s with certs := s.certs.insert (u.newRow now) }
  | update now u existing, s =>
    { s with certs := s.certs.modify existing.id (u.update now existing) }
  | softDelete id, s => (s.softDelete id).getD s
  | touchScanError now id msg, s => s.touchScanError now id msg
  | updateEntry id name category notes, s => (s.updateEntry id name category notes).getD s
  | saveCoverage now id names, s => s.saveCoverage now id names
  | addEvent now kind id name actor detail, s => s.addEvent now kind id name actor detail

/-- The statement brings in a row. -/
def EntryStmt.inserts : EntryStmt → Bool
  | insert _ _ => true
  | _ => false

/-- The statement looks for an entry at an address. -/
def EntryStmt.finds : EntryStmt → Bool
  | find _ _ => true
  | _ => false

/-- A program over the store. -/
abbrev EntryProg := Prog Store EntryStmt

open Prog

/-- `UpsertScan` or `UpsertDomain`, with what follows the entry read back; `refreshed` is the
entry it is called for, unless something is to be added. -/
def upsertProg (now : Int) (u : Upsert) (refreshed : Option Cert) (next : Cert → EntryProg) :
    EntryProg :=
  let readBack id := stmt .read
    (fun s => match s.getByID id with
      | some stored => next stored
      | none => done) done
  stmt (.find u refreshed)
    (fun s => match u.find s with
      | some existing => stmt (.update now u existing) (fun _ => readBack existing.id) done
      | none => stmt (.insert now u) (fun s => readBack s.certs.nextKey) done) done

/-- A line in the log, under a condition. -/
def eventProg (p : Prop) [Decidable p] (now : Int) (kind : EventKind) (c : Cert) (actor : String)
    (detail : EventDetail) : EntryProg :=
  if p then only (.addEvent now kind c.id c.name actor detail) else done

/-- `applyNotes`, with what follows. -/
def applyNotesProg (c : Cert) (notes : String) (next : Cert → EntryProg) : EntryProg :=
  if trimSpace notes.toList = [] then next c
  else
    stmt (.updateEntry c.id c.name c.category notes)
      (fun s =>
        if s.IsActive c.id then stmt .read (fun s => next ((s.getByID c.id).getD c)) (next c)
        else next c)
      (next c)

/-- What `handleScan` and `handleTrackDomain` do once they have something to record. -/
def addProg (actor : String) (now : Int) (u : Upsert) (notes detail : String) : EntryProg :=
  upsertProg now u none fun stored =>
    applyNotesProg stored notes fun c =>
      eventProg True now .added c actor (.plain (GoString.ofString detail))

/-- What follows a scan of a sweep that was recorded. -/
def afterScanProg (env : SweepEnv) (c stored : Cert) : EntryProg :=
  let names := coverageCheck (env.reach stored) stored
  let newly := newlyUnreachable c.coverage names
  (eventProg (c.lastError ≠ "") env.clock .scanRecovered c "" (.plain [])).andThen
    ((eventProg (c.sha256 ≠ "" ∧ stored.sha256 ≠ c.sha256) env.clock .renewed stored ""
        (renewedDetail stored)).andThen
      (if 1 < stored.dnsNames.length then
        (only (.saveCoverage env.clock stored.id names)).andThen
          (eventProg (newly ≠ []) env.clock .coverageBroken stored "" (brokenDetail newly))
      else done))

/-- The first loop body of `rescan`. -/
def endpointProg (env : SweepEnv) (c : Cert) : EntryProg :=
  match env.scan c with
  | .error msg =>
    (eventProg (c.lastError = "") env.clock .scanFailed c ""
      (.plain (GoString.ofString msg))).andThen
      (only (.touchScanError env.clock c.id msg))
  | .ok served =>
    upsertProg env.clock (c.scanned served) (some c) fun stored => afterScanProg env c stored

/-- The second loop body of `rescan`. -/
def domainProg (env : SweepEnv) (c : Cert) : EntryProg :=
  match env.lookup c with
  | .error msg => only (.touchScanError env.clock c.id msg)
  | .ok res => upsertProg env.clock (.domain c.name res) (some c) fun _ => done

/-- A sweep: the endpoints as they are listed first, then the domains. -/
def rescanProg (env : SweepEnv) : EntryProg :=
  stmt .read
    (fun s => (each (endpointProg env) s.endpointsForRescan).andThen
      (stmt .read (fun s => each (domainProg env) s.domainsForRefresh) done)) done

/-- The loop body of `handleScanAll`. -/
def scanAllProg (env : SweepEnv) (c : Cert) : EntryProg :=
  match env.scan c with
  | .error msg => only (.touchScanError env.clock c.id msg)
  | .ok served => upsertProg env.clock (c.scanned served) (some c) fun _ => done

/-- What `handleRescanCert` does with the entry it read. -/
def rescanEntryProg (env : SweepEnv) (id : Int) (c : Cert) : EntryProg :=
  if c.kind = .domain then
    match env.lookup c with
    | .error msg => only (.touchScanError env.clock id msg)
    | .ok res => upsertProg env.clock (.domain c.name res) (some c) fun _ => done
  else if c.kind ≠ .endpoint ∨ c.host = "" then done
  else
    match env.scan c with
    | .error msg => only (.touchScanError env.clock id msg)
    | .ok served => upsertProg env.clock (c.scanned served) (some c) fun _ => done

/-- `handleDeleteCert` of an entry; the name for the log is read first. -/
def deleteProg (actor : String) (now id : Int) : EntryProg :=
  let delete (gone : Option Cert) := stmt (.softDelete id)
    (fun s => match gone with
      | some c => eventProg (s.IsActive id) now .deleted c actor (.plain [])
      | none => done) done
  stmt .read (fun s => delete (s.getByID id)) (delete none)

/-- A request or a sweep. -/
inductive EntryCall
  | scan (actor : String) (now : Int) (outcome : String → Int → String → Except String Served)
      (body : Option ScanRequest)
  | trackDomain (actor : String) (now : Int) (lookup : String → Except LookupError DomainResult)
      (body : Option TrackRequest)
  | scanAll (env : SweepEnv)
  | rescanCert (env : SweepEnv) (path : Option Int)
  | delete (actor : String) (now : Int) (path : Option Int)
  | sweep (env : SweepEnv)

namespace EntryCall

/-- The program of a request or a sweep. -/
def code : EntryCall → EntryProg
  | scan actor now outcome body =>
    match scanUpsert outcome body with
    | none => done
    | some u => addProg actor now u ((body.map ScanRequest.notes).getD "") "endpoint"
  | trackDomain actor now lookup body =>
    match trackUpsert lookup body with
    | none => done
    | some u => addProg actor now u ((body.map TrackRequest.notes).getD "") "domain"
  | scanAll env => stmt .read (fun s => each (scanAllProg env) s.endpointsForRescan) done
  | rescanCert env path =>
    match path with
    | none => done
    | some id => stmt .read
        (fun s => match s.getByID id with
          | none => done
          | some c => rescanEntryProg env id c) done
  | delete actor now path =>
    match path with
    | none => done
    | some id => deleteProg actor now id
  | sweep env => rescanProg env

/-- The store after a request or a sweep that runs by itself. -/
def apply (s : Store) : EntryCall → Store
  | scan actor now outcome body => (handleScan actor now outcome s body).1
  | trackDomain actor now lookup body => (handleTrackDomain actor now lookup s body).1
  | scanAll env => (handleScanAll env s).1
  | rescanCert env path => (handleRescanCert env s path).1
  | delete actor now path => (handleDeleteCert actor now s path).1
  | sweep env => rescan env s

/-- An explicit request to scan or to track something. -/
def Tracks : EntryCall → Prop
  | scan .. => True
  | trackDomain .. => True
  | _ => False

instance : ∀ q : EntryCall, Decidable q.Tracks
  | scan .. => isTrue trivial
  | trackDomain .. => isTrue trivial
  | scanAll _ => isFalse id
  | rescanCert .. => isFalse id
  | delete .. => isFalse id
  | sweep _ => isFalse id

end EntryCall

variable {s : Store} {env : SweepEnv} {c : Cert} {u : Upsert} {id now : Int}
variable {refreshed : Option Cert} {actor said : String} {detail : EventDetail}

/-! ### Programs by themselves -/

/-- The store after a program that runs by itself. -/
abbrev byItself (p : EntryProg) (s : Store) : Store := p.exec EntryStmt.run s

theorem byItself_upsertProg (next : Cert → EntryProg) :
    byItself (upsertProg now u refreshed next) s =
      match u.write s now (u.find s) with
      | (s', some stored) => byItself (next stored) s'
      | (s', none) => s' := by
  simp only [byItself, upsertProg, exec_stmt, EntryStmt.run]
  cases hfind : u.find s with
  | none =>
    simp only [exec_stmt, EntryStmt.run, Upsert.write_none]
    split <;> simp_all
  | some e =>
    simp only [exec_stmt, EntryStmt.run, Upsert.write_some]
    split <;> simp_all

theorem byItself_upsertProg_done : byItself (upsertProg now u refreshed fun _ => done) s =
    (u.write s now (u.find s)).1 := by
  obtain ⟨stored, hstored⟩ := exists_stored s now u
  rw [byItself_upsertProg, ← Prod.mk.eta (p := u.write s now (u.find s)), hstored]
  rfl

theorem byItself_eventProg {p : Prop} [Decidable p] {kind : EventKind} :
    byItself (eventProg p now kind c actor detail) s =
      if p then s.addEvent now kind c.id c.name actor detail else s := by
  unfold eventProg
  split_ifs <;> rfl

theorem byItself_applyNotesProg {notes : String} {next : Cert → EntryProg} :
    byItself (applyNotesProg c notes next) s =
      match applyNotes s (some c) notes with
      | (s', some c') => byItself (next c') s'
      | (s', none) => s' := by
  by_cases hblank : trimSpace notes.toList = []
  · simp only [applyNotesProg, applyNotes, if_pos hblank]
  · simp only [applyNotesProg, applyNotes, if_neg hblank, byItself, exec_stmt, EntryStmt.run,
      Store.updateEntry, Store.updateActive]
    split_ifs <;> rfl

theorem byItself_addProg {notes : String} :
    byItself (addProg actor now u notes said) s = (addUpsert actor now s u notes said).1 := by
  obtain ⟨stored, hstored⟩ := exists_stored s now u
  obtain ⟨s', c', hnoted, -⟩ := applyNotes_some (u.write s now (u.find s)).1 stored notes
  have hwritten : u.write s now (u.find s) = ((u.write s now (u.find s)).1, some stored) := by
    rw [← hstored]
  rw [addProg, byItself_upsertProg, hwritten]
  -- the row is read back, given its notes, and named in the log as it is by then
  dsimp only
  rw [byItself_applyNotesProg, hnoted]
  simp only [byItself_eventProg, if_true, addUpsert, hstored, hnoted, recordEvent]

theorem byItself_afterScanProg {stored : Cert} :
    byItself (afterScanProg env c stored) s = afterScan env c stored s := by
  -- coverage is only checked where there is a second name
  have hrefresh : ∀ s : Store, byItself (if 1 < stored.dnsNames.length then
      (only (.saveCoverage env.clock stored.id (coverageCheck (env.reach stored) stored))).andThen
        (eventProg (newlyUnreachable c.coverage (coverageCheck (env.reach stored) stored) ≠ [])
          env.clock .coverageBroken stored ""
          (brokenDetail (newlyUnreachable c.coverage (coverageCheck (env.reach stored) stored))))
      else done) s =
        if 1 < stored.dnsNames.length then refreshCoverage env c stored s else s := by
    intro s
    split_ifs
    · simp only [byItself, exec_andThen, exec_only, EntryStmt.run, refreshCoverage,
        byItself_eventProg]
    · rfl
  simp only [afterScanProg, afterScan, byItself, exec_andThen, byItself_eventProg]
  exact hrefresh _

theorem byItself_endpointProg : byItself (endpointProg env c) s = rescanEndpoint env s c := by
  cases hscan : env.scan c with
  | error msg =>
    simp only [endpointProg, rescanEndpoint, hscan, byItself, exec_andThen, exec_only,
      EntryStmt.run]
    rw [← byItself, byItself_eventProg]
  | ok served =>
    obtain ⟨stored, hstored⟩ := exists_stored s env.clock (c.scanned served)
    have hwritten : (c.scanned served).write s env.clock ((c.scanned served).find s) =
        (((c.scanned served).write s env.clock ((c.scanned served).find s)).1, some stored) := by
      rw [← hstored]
    simp only [endpointProg, hscan]
    rw [byItself_upsertProg, hwritten, rescanEndpoint_ok hscan hstored]
    exact byItself_afterScanProg

theorem byItself_domainProg : byItself (domainProg env c) s = rescanDomain env s c := by
  cases hlookup : env.lookup c with
  | error msg => simp only [domainProg, rescanDomain, hlookup, byItself, exec_only, EntryStmt.run]
  | ok res =>
    simp only [domainProg, rescanDomain, hlookup]
    exact byItself_upsertProg_done

theorem byItself_scanAllProg : byItself (scanAllProg env c) s = scanAllEndpoint env s c := by
  cases hscan : env.scan c with
  | error msg => simp only [scanAllProg, scanAllEndpoint, hscan, byItself, exec_only, EntryStmt.run]
  | ok served =>
    simp only [scanAllProg, scanAllEndpoint, hscan]
    exact byItself_upsertProg_done

theorem byItself_each {body : Cert → EntryProg} {step : Store → Cert → Store}
    (hbody : ∀ s c, byItself (body c) s = step s c) (cs : List Cert) (s : Store) :
    byItself (each body cs) s = cs.foldl step s := by
  rw [byItself, exec_each]
  exact List.foldl_ext _ _ _ fun s c _ => hbody s c

theorem byItself_rescanEntryProg : byItself (rescanEntryProg env id c) s =
    (rescanEntry env s id c).1 := by
  simp only [rescanEntryProg, rescanEntry]
  split_ifs
  · cases hlookup : env.lookup c with
    | error msg => rfl
    | ok res => exact byItself_upsertProg_done
  · rfl
  · cases hscan : env.scan c with
    | error msg => rfl
    | ok served => exact byItself_upsertProg_done

theorem byItself_deleteProg : byItself (deleteProg actor now id) s =
    (handleDeleteCert actor now s (some id)).1 := by
  simp only [deleteProg, handleDeleteCert, withID, byItself, exec_stmt, EntryStmt.run,
    Store.softDelete, Store.updateActive]
  -- the line of the log is about the entry as it was read before
  by_cases hactive : s.IsActive id
  · simp only [if_pos hactive, Option.getD_some]
    cases hgone : s.getByID id with
    | none => rfl
    | some c =>
      dsimp only
      rw [← byItself, byItself_eventProg, if_pos hactive]
      rfl
  · simp only [if_neg hactive, Option.getD_none]
    cases hgone : s.getByID id with
    | none => rfl
    | some c =>
      dsimp only
      rw [← byItself, byItself_eventProg, if_neg hactive]

/-- By itself the program of a request or a sweep does what the handler does. -/
theorem exec_code (q : EntryCall) (s : Store) : byItself q.code s = q.apply s := by
  cases q with
  | scan actor now outcome body =>
    rcases body with _ | req
    · rfl
    cases htarget : req.target with
    | error msg => simp only [EntryCall.code, EntryCall.apply, scanUpsert, handleScan, htarget,
        byItself, exec_done]
    | ok target =>
      obtain ⟨host, port⟩ := target
      cases hscan : outcome host port req.serverName with
      | error msg => simp only [EntryCall.code, EntryCall.apply, scanUpsert, handleScan, htarget,
          hscan, byItself, exec_done]
      | ok served =>
        simp only [EntryCall.code, EntryCall.apply, scanUpsert, handleScan, htarget, hscan]
        split_ifs
        · rfl
        · exact byItself_addProg
  | trackDomain actor now lookup body =>
    rcases body with _ | req
    · rfl
    simp only [EntryCall.code, EntryCall.apply, trackUpsert, handleTrackDomain]
    split_ifs
    · rfl
    · cases hlookup : lookup req.domain with
      | error e => rfl
      | ok res => exact byItself_addProg
  | scanAll env => exact byItself_each (fun _ _ => byItself_scanAllProg) s.endpointsForRescan s
  | rescanCert env path =>
    -- the entry is read in a statement of its own
    rcases path with _ | id
    · rfl
    simp only [EntryCall.code, EntryCall.apply, handleRescanCert, withID, byItself, exec_stmt,
      EntryStmt.run]
    cases hread : s.getByID id with
    | none => rfl
    | some c => exact byItself_rescanEntryProg
  | delete actor now path =>
    rcases path with _ | id
    · rfl
    exact byItself_deleteProg
  | sweep env =>
    simp only [EntryCall.code, EntryCall.apply, rescanProg, rescan, byItself, exec_stmt,
      exec_andThen, EntryStmt.run]
    -- the endpoints first, and the domains on what they leave
    have hscans : s.endpointsForRescan.foldl (rescanEndpoint env) s =
        byItself (each (endpointProg env) s.endpointsForRescan) s :=
      (byItself_each (fun _ _ => byItself_endpointProg) _ _).symm
    rw [hscans]
    exact byItself_each (fun _ _ => byItself_domainProg) _ _

/-! ### What a program goes by -/

/-- An upsert inserts where the statement before has found nothing at the address, and one that
is not asked for by a request to scan or to track looked there for an entry it refreshes. Notes
are given with the name and the category that the statement before has read back. -/
def GoesByRead (q : EntryCall) (e : Option (EntryStmt × Store)) : EntryStmt → Prop
  | .insert _ u => ∃ refreshed s, e = some (.find u refreshed, s) ∧ u.find s = none ∧
      (q.Tracks ∨ refreshed.isSome)
  | .updateEntry id name category _ => ∃ s c, e = some (.read, s) ∧ s.getByID id = some c ∧
      name = c.name ∧ category = c.category
  | _ => True

variable {q : EntryCall} {e : Option (EntryStmt × Store)} {next : Cert → EntryProg}

/-- What is read back of an entry has its id. -/
theorem id_of_getByID (hread : s.getByID id = some c) : c.id = id := by
  obtain ⟨r, -, rfl⟩ := Option.map_eq_some_iff.mp hread
  rfl

theorem heeds_upsertProg (hasked : q.Tracks ∨ refreshed.isSome)
    (hnext : ∀ c s, s.getByID c.id = some c → (next c).Heeds (GoesByRead q) (some (.read, s)))
    (e : Option (EntryStmt × Store)) :
    (upsertProg now u refreshed next).Heeds (GoesByRead q) e := by
  -- what follows is given the entry as it was read back
  have hread : ∀ (id : Int) (e : Option (EntryStmt × Store)),
      (stmt .read (fun s => match s.getByID id with
        | some stored => next stored
        | none => done) done).Heeds (GoesByRead q) e := by
    intro id e
    refine ⟨trivial, fun s => ?_, trivial⟩
    dsimp only
    split
    · next stored hstored =>
      obtain rfl := id_of_getByID hstored
      exact hnext stored s hstored
    · trivial
  refine ⟨trivial, fun s => ?_, trivial⟩
  dsimp only
  split
  · exact ⟨trivial, fun s => hread _ _, trivial⟩
  · -- nothing is at the address, and the insert comes next
    next hfind => exact ⟨⟨refreshed, s, rfl, hfind, hasked⟩, fun s => hread _ _, trivial⟩

theorem heeds_eventProg {p : Prop} [Decidable p] {kind : EventKind}
    (e : Option (EntryStmt × Store)) :
    (eventProg p now kind c actor detail).Heeds (GoesByRead q) e := by
  unfold eventProg
  split_ifs
  · exact heeds_only.mpr trivial
  · trivial

theorem heeds_applyNotesProg {notes : String} (hnext : ∀ c e, (next c).Heeds (GoesByRead q) e)
    (hread : s.getByID c.id = some c) :
    (applyNotesProg c notes next).Heeds (GoesByRead q) (some (.read, s)) := by
  unfold applyNotesProg
  split_ifs
  · exact hnext _ _
  · -- the labels are those read back, also where the row was changed since
    refine ⟨⟨s, c, rfl, hread, rfl, rfl⟩, fun s => ?_, hnext _ _⟩
    dsimp only
    split_ifs
    · exact ⟨trivial, fun s => hnext _ _, hnext _ _⟩
    · exact hnext _ _

theorem heeds_addProg {notes : String} (hasked : q.Tracks) (e : Option (EntryStmt × Store)) :
    (addProg actor now u notes said).Heeds (GoesByRead q) e :=
  heeds_upsertProg (Or.inl hasked) (fun _ _ => heeds_applyNotesProg fun _ => heeds_eventProg) e

theorem heeds_touch {msg : String} (e : Option (EntryStmt × Store)) :
    (only (.touchScanError now id msg) : EntryProg).Heeds (GoesByRead q) e :=
  heeds_only.mpr trivial

theorem heeds_afterScanProg {stored : Cert} (e : Option (EntryStmt × Store)) :
    (afterScanProg env c stored).Heeds (GoesByRead q) e := by
  refine (heeds_eventProg e).andThen fun e => (heeds_eventProg e).andThen fun e => ?_
  split_ifs
  · exact (heeds_only.mpr trivial).andThen heeds_eventProg
  · trivial

theorem heeds_endpointProg (e : Option (EntryStmt × Store)) :
    (endpointProg env c).Heeds (GoesByRead q) e := by
  unfold endpointProg
  split
  · exact (heeds_eventProg e).andThen heeds_touch
  · exact heeds_upsertProg (Or.inr rfl) (fun _ _ _ => heeds_afterScanProg _) e

/-- A refresh that records what it found does no more. -/
theorem heeds_refresh (e : Option (EntryStmt × Store)) :
    (upsertProg now u (some c) fun _ => done).Heeds (GoesByRead q) e :=
  heeds_upsertProg (Or.inr rfl) (fun _ _ _ => heeds_done _) e

theorem heeds_domainProg (e : Option (EntryStmt × Store)) :
    (domainProg env c).Heeds (GoesByRead q) e := by
  unfold domainProg
  split
  · exact heeds_touch e
  · exact heeds_refresh e

theorem heeds_scanAllProg (e : Option (EntryStmt × Store)) :
    (scanAllProg env c).Heeds (GoesByRead q) e := by
  unfold scanAllProg
  split
  · exact heeds_touch e
  · exact heeds_refresh e

theorem heeds_rescanEntryProg (e : Option (EntryStmt × Store)) :
    (rescanEntryProg env id c).Heeds (GoesByRead q) e := by
  unfold rescanEntryProg
  split_ifs
  · split
    · exact heeds_touch e
    · exact heeds_refresh e
  · trivial
  · split
    · exact heeds_touch e
    · exact heeds_refresh e

theorem heeds_deleteProg (e : Option (EntryStmt × Store)) :
    (deleteProg actor now id).Heeds (GoesByRead q) e := by
  have hdelete : ∀ (gone : Option Cert) (e : Option (EntryStmt × Store)),
      (stmt (.softDelete id) (fun s => match gone with
        | some c => eventProg (s.IsActive id) now .deleted c actor (.plain [])
        | none => done) done).Heeds (GoesByRead q) e := by
    intro gone e
    refine ⟨trivial, fun s => ?_, trivial⟩
    cases gone with
    | none => trivial
    | some c => exact heeds_eventProg _
  exact ⟨trivial, fun s => hdelete (s.getByID id) _, hdelete none _⟩

/-- Every request and every sweep goes by what it has read. -/
theorem heeds_code (q : EntryCall) (e : Option (EntryStmt × Store)) :
    q.code.Heeds (GoesByRead q) e := by
  cases q with
  | scan actor now outcome body =>
    have hasked : (EntryCall.scan actor now outcome body).Tracks := trivial
    rw [EntryCall.code]
    split
    · trivial
    · exact heeds_addProg hasked e
  | trackDomain actor now lookup body =>
    have hasked : (EntryCall.trackDomain actor now lookup body).Tracks := trivial
    rw [EntryCall.code]
    split
    · trivial
    · exact heeds_addProg hasked e
  | scanAll env =>
    exact ⟨trivial, fun s => Heeds.each (fun _ _ => heeds_scanAllProg) _, trivial⟩
  | rescanCert env path =>
    cases path with
    | none => trivial
    | some id =>
      refine ⟨trivial, fun s => ?_, trivial⟩
      dsimp only
      split
      · trivial
      · exact heeds_rescanEntryProg _
  | delete actor now path =>
    cases path with
    | none => trivial
    | some id => exact heeds_deleteProg e
  | sweep env =>
    refine ⟨trivial, fun s => ?_, trivial⟩
    -- the domains are listed once the endpoints are done
    refine (Heeds.each (fun _ _ => heeds_endpointProg) _).andThen fun e => ?_
    exact ⟨trivial, fun s => Heeds.each (fun _ _ => heeds_domainProg) _, trivial⟩

/-! ### Entries at an address -/

variable {host : String} {port : Int} {s' : Store}

theorem isAt_congr (h : (s'.certs.get? id).map CertRow.place =
    (s.certs.get? id).map CertRow.place) : s'.IsAt id host port ↔ s.IsAt id host port := by
  have hiff : ∀ t : Store, t.IsAt id host port ↔ ∃ place, (t.certs.get? id).map CertRow.place =
      some place ∧ place.1 = host ∧ place.2.1 = port ∧ place.2.2.1 = true := by
    intro t
    constructor
    · rintro ⟨r, hrow, hactive, hhost, hport⟩
      exact ⟨r.place, by rw [hrow, Option.map_some], hhost, hport, hactive⟩
    · rintro ⟨place, hplace, hhost, hport, hactive⟩
      obtain ⟨r, hrow, rfl⟩ := Option.map_eq_some_iff.mp hplace
      exact ⟨r, hrow, hactive, hhost, hport⟩
  rw [hiff, hiff, h]

/-- An insert brings an entry to the address of what it records. -/
theorem isAt_insert : ((EntryStmt.insert now u).run s).IsAt id host port ↔
    s.IsAt id host port ∨ id = s.certs.nextKey ∧ u.host = host ∧ u.port = port := by
  simp only [Store.IsAt, EntryStmt.run, Table.get?_insert]
  constructor
  · rintro ⟨r, hrow, hactive, hhost, hport⟩
    split_ifs at hrow with hid
    · -- the new row has the address that was asked for
      obtain rfl := Option.some.inj hrow
      exact Or.inr ⟨hid, Upsert.newRow_host.symm.trans hhost, Upsert.newRow_port.symm.trans hport⟩
    · exact Or.inl ⟨r, hrow, hactive, hhost, hport⟩
  · rintro (⟨r, hrow, hactive, hhost, hport⟩ | ⟨hid, hhost, hport⟩)
    · exact ⟨r, by rw [if_neg (Table.ne_nextKey hrow), hrow], hactive, hhost, hport⟩
    · exact ⟨u.newRow now, if_pos hid, Upsert.newRow_active, Upsert.newRow_host.trans hhost,
        Upsert.newRow_port.trans hport⟩

/-- A delete takes its entry from its address. -/
theorem isAt_softDelete {gone : Int} : ((EntryStmt.softDelete gone).run s).IsAt id host port ↔
    s.IsAt id host port ∧ id ≠ gone := by
  simp only [EntryStmt.run, Store.softDelete, Store.updateActive]
  split_ifs with hactive
  · simp only [Store.IsAt, Option.getD_some, Table.get?_modify]
    constructor
    · rintro ⟨r, hrow, hr, hhost, hport⟩
      split_ifs at hrow with hid
      · -- the row stays, but it is no longer active
        obtain ⟨r', -, rfl⟩ := Option.map_eq_some_iff.mp hrow
        exact absurd hr Bool.false_ne_true
      · exact ⟨⟨r, hrow, hr, hhost, hport⟩, hid⟩
    · rintro ⟨⟨r, hrow, hr, hhost, hport⟩, hid⟩
      exact ⟨r, by rw [if_neg hid, hrow], hr, hhost, hport⟩
  · -- nothing was active under the id
    rw [Option.getD_none]
    refine ⟨fun h => ⟨h, ?_⟩, And.left⟩
    rintro rfl
    obtain ⟨r, hrow, hr, -⟩ := h
    exact hactive ⟨r, hrow, hr⟩

/-- A statement on entries that are there, or on the log. -/
def EntryStmt.Moves : EntryStmt → Prop
  | insert .. => True
  | softDelete _ => True
  | _ => False

theorem place_updateActive {f : CertRow → CertRow} (hf : ∀ r, (f r).place = r.place) {id' : Int} :
    ((((s.updateActive id' f).getD s).certs.get? id).map CertRow.place) =
      (s.certs.get? id).map CertRow.place := by
  unfold Store.updateActive
  split_ifs
  · simp only [Option.getD_some, Table.get?_modify]
    split_ifs
    · cases s.certs.get? id <;> simp [hf]
    · rfl
  · rfl

/-- No other statement changes which entries are at an address. -/
theorem isAt_other {a : EntryStmt} (hmoves : ¬ a.Moves) :
    (a.run s).IsAt id host port ↔ s.IsAt id host port := by
  refine isAt_congr ?_
  cases a with
  | read => rfl
  | find u refreshed => rfl
  | insert now u => exact absurd trivial hmoves
  | update now u existing =>
    simp only [EntryStmt.run, Table.get?_modify]
    split_ifs
    · cases s.certs.get? id <;> simp [place_update]
    · rfl
  | softDelete gone => exact absurd trivial hmoves
  | touchScanError now gone msg => exact place_touchScanError
  | updateEntry gone name category notes =>
    rw [EntryStmt.run, Store.updateEntry]
    apply place_updateActive
    exact fun _ => rfl
  | saveCoverage now gone names =>
    simp only [EntryStmt.run, Store.saveCoverage, Table.get?_modify]
    split_ifs
    · cases s.certs.get? id <;> rfl
    · rfl
  | addEvent now kind about name actor detail => rfl

end CertGuard
