import CertGuard.Server.EntryRequests

/-!
# Additions and renewals in the log

Every caller of the two upserts decides for itself what to log. Requests to scan or to track a
domain always log an addition, a sweep logs a renewal by the fingerprint it listed, and the
others log nothing; whether that is what happened depends on what the upsert finds.

## Main definitions

* `Faithful` — a step logs the entry it added and the fingerprint it changed, and no more
* `InventoryOp` — an operation that records scans, lookups or new entries
* `InventoryOp.units` — its steps, one for each scan or lookup
* `Upsert.Adds`, `Upsert.Renews` — what recording something comes to
* `InventoryOp.LogsRight` — every step logs what its upsert comes to

## Main results

* `history_faithful_iff` — the log is faithful exactly in runs of such operations
* `renewal_not_logged` — and a run in which a renewal goes unlogged
-/

namespace CertGuard

open Transition

/-! ### The history the log should be -/

/-- The fingerprint of an entry; empty where there is none. -/
def Store.fingerprint (s : Store) (id : Int) : String :=
  ((s.certs.get? id).map CertRow.sha256).getD ""

/-- The row of an entry was inserted. -/
def Inserted (before after : Store) (id : Int) : Prop :=
  before.certs.get? id = none ∧ (after.certs.get? id).isSome

instance (before after : Store) (id : Int) : Decidable (Inserted before after id) :=
  inferInstanceAs (Decidable (_ ∧ _))

/-- The fingerprint of an entry was replaced by another. -/
def Replaced (before after : Store) (id : Int) : Prop :=
  before.fingerprint id ≠ "" ∧ after.fingerprint id ≠ "" ∧
    before.fingerprint id ≠ after.fingerprint id

instance (before after : Store) (id : Int) : Decidable (Replaced before after id) :=
  inferInstanceAs (Decidable (_ ∧ _))

/-- Of each entry the log gains one addition if it was inserted and one renewal if its
fingerprint was replaced, and no other. -/
def Faithful (before after : Store) : Prop :=
  ∀ id, after.eventsAbout .added id =
      before.eventsAbout .added id + (if Inserted before after id then 1 else 0) ∧
    after.eventsAbout .renewed id =
      before.eventsAbout .renewed id + if Replaced before after id then 1 else 0

/-! ### Operations -/

/-- What a request to scan records, if anything. -/
def scanUpsert (scan : String → Int → String → Except String Served)
    (body : Option ScanRequest) : Option Upsert :=
  match body with
  | none => none
  | some req =>
    match req.target with
    | .error _ => none
    | .ok (host, port) =>
      match scan host port req.serverName with
      | .error _ => none
      | .ok served =>
        if req.dryRun then none
        else some (.scan req.name (scanResult host port req.serverName served))

/-- What a request to track a domain records, if anything. -/
def trackUpsert (lookup : String → Except LookupError DomainResult)
    (body : Option TrackRequest) : Option Upsert :=
  match body with
  | none => none
  | some req =>
    if trimSpace req.domain.toList = [] then none
    else
      match lookup req.domain with
      | .error _ => none
      | .ok res => some (.domain req.name res)

/-- What a request to rescan an entry records, if anything. -/
def rescanUpsert (env : SweepEnv) (s : Store) (path : Option Int) : Option Upsert :=
  match path.bind s.getByID with
  | none => none
  | some c =>
    if c.kind = .domain then
      match env.lookup c with
      | .error _ => none
      | .ok res => some (.domain c.name res)
    else if c.kind ≠ .endpoint ∨ c.host = "" then none
    else
      match env.scan c with
      | .error _ => none
      | .ok served => some (c.scanned served)

/-- What a scan of a listed entry records, if anything. -/
def endpointUpsert (env : SweepEnv) (c : Cert) : Option Upsert :=
  match env.scan c with
  | .error _ => none
  | .ok served => some (c.scanned served)

/-- What a lookup of a listed entry records, if anything. -/
def domainUpsert (env : SweepEnv) (c : Cert) : Option Upsert :=
  match env.lookup c with
  | .error _ => none
  | .ok res => some (.domain c.name res)

/-- An operation. -/
inductive InventoryOp
  | scan (actor : String) (now : Int) (scan : String → Int → String → Except String Served)
      (body : Option ScanRequest)
  | trackDomain (actor : String) (now : Int) (lookup : String → Except LookupError DomainResult)
      (body : Option TrackRequest)
  | createCert (actor : String) (now : Int) (vault : Vault) (keyFile : KeyFile)
      (body : Option CreateCertRequest)
  | scanAll (env : SweepEnv)
  | rescanCert (env : SweepEnv) (path : Option Int)
  | sweep (env : SweepEnv)

namespace InventoryOp

/-- The store after an operation. -/
def apply (s : Store) : InventoryOp → Store
  | scan actor now outcome body => (handleScan actor now outcome s body).1
  | trackDomain actor now lookup body => (handleTrackDomain actor now lookup s body).1
  | createCert actor now vault keyFile body =>
    (handleCreateCert actor now ⟨vault, s, keyFile⟩ body).1
  | scanAll env => (handleScanAll env s).1
  | rescanCert env path => (handleRescanCert env s path).1
  | sweep env => rescan env s

/-- The stores before and after each turn of a loop. -/
def turnUnits (body : Store → Cert → Store) (s : Store) (cs : List Cert) : List (Store × Store) :=
  (turns body s cs).map fun t => (t.1, body t.1 t.2)

/-- The stores before and after each step of an operation. -/
def units (s : Store) : InventoryOp → List (Store × Store)
  | scanAll env => turnUnits (scanAllEndpoint env) s s.endpointsForRescan
  | sweep env =>
    let s' := s.endpointsForRescan.foldl (rescanEndpoint env) s
    turnUnits (rescanEndpoint env) s s.endpointsForRescan ++
      turnUnits (rescanDomain env) s' s'.domainsForRefresh
  | op => [(s, op.apply s)]

end InventoryOp

/-- Steps that lead from one store to another. -/
def Path : Store → List (Store × Store) → Store → Prop
  | s, [], s' => s = s'
  | s, u :: us, s' => u.1 = s ∧ Path u.2 us s'

/-! ### Conditions -/

namespace Upsert

/-- Recording it adds an entry. -/
def Adds (u : Upsert) (s : Store) : Prop := u.find s = none

/-- It has another fingerprint than an entry, and neither is empty. -/
def Changes (e : Cert) : Upsert → Prop
  | scan _ res => e.sha256 ≠ "" ∧ res.sha256 ≠ "" ∧ e.sha256 ≠ res.sha256
  | domain _ _ => False

instance (e : Cert) : ∀ u : Upsert, Decidable (u.Changes e)
  | scan _ _ => inferInstanceAs (Decidable (_ ∧ _))
  | domain _ _ => inferInstanceAs (Decidable False)

/-- Recording it replaces the fingerprint of an entry. -/
def Renews (u : Upsert) (s : Store) : Prop := ∃ e, u.find s = some e ∧ u.Changes e

/-- What is logged, an addition or a renewal, is what recording it comes to. -/
def LoggedRight (u : Upsert) (s : Store) (added renewed : Prop) : Prop :=
  (added ↔ u.Adds s) ∧ (renewed ↔ u.Renews s)

end Upsert

/-- A sweep logs a renewal if an entry had a fingerprint when it was listed and the scan finds
another. -/
def SweepLogsRenewal (env : SweepEnv) (c : Cert) : Prop :=
  ∃ served, env.scan c = .ok served ∧ c.sha256 ≠ "" ∧ served.sha256 ≠ c.sha256

/-- Whatever an operation records, it logs what that comes to. -/
def InventoryOp.LogsRight (s : Store) : InventoryOp → Prop
  | scan _ _ outcome body => ∀ u, scanUpsert outcome body = some u → u.LoggedRight s True False
  | trackDomain _ _ lookup body =>
    ∀ u, trackUpsert lookup body = some u → u.LoggedRight s True False
  | createCert .. => True
  | scanAll env => ∀ t ∈ turns (scanAllEndpoint env) s s.endpointsForRescan,
      ∀ u, endpointUpsert env t.2 = some u → u.LoggedRight t.1 False False
  | rescanCert env path => ∀ u, rescanUpsert env s path = some u → u.LoggedRight s False False
  | sweep env =>
    let s' := s.endpointsForRescan.foldl (rescanEndpoint env) s
    (∀ t ∈ turns (rescanEndpoint env) s s.endpointsForRescan, ∀ u,
        endpointUpsert env t.2 = some u → u.LoggedRight t.1 False (SweepLogsRenewal env t.2)) ∧
      ∀ t ∈ turns (rescanDomain env) s' s'.domainsForRefresh, ∀ u,
        domainUpsert env t.2 = some u → u.LoggedRight t.1 False False

variable {s s' : Store} {env : SweepEnv} {c : Cert} {u : Upsert} {id id' now : Int} {cs : List Cert}
variable {actor said : String} {detail : EventDetail}

/-! ### Steps of operations -/

theorem path_append {us vs : List (Store × Store)} {s'' : Store} (h : Path s us s')
    (h' : Path s' vs s'') : Path s (us ++ vs) s'' := by
  induction us generalizing s with
  | nil =>
    obtain rfl : s = s' := h
    exact h'
  | cons u us ih => exact ⟨h.1, ih h.2⟩

theorem path_turnUnits (body : Store → Cert → Store) :
    Path s (InventoryOp.turnUnits body s cs) (cs.foldl body s) := by
  induction cs generalizing s with
  | nil => rfl
  | cons c cs ih => exact ⟨rfl, ih⟩

/-- The steps of an operation lead to the store after it. -/
theorem path_units (s : Store) (op : InventoryOp) : Path s (op.units s) (op.apply s) := by
  cases op with
  | scan | trackDomain | createCert | rescanCert => exact ⟨rfl, rfl⟩
  | scanAll env => exact path_turnUnits _
  | sweep env => exact path_append (path_turnUnits _) (path_turnUnits _)

/-! ### What recording comes to -/

/-- The entry something is recorded in. -/
def Upsert.key (u : Upsert) (s : Store) : Int := ((u.find s).map Cert.id).getD s.certs.nextKey

/-- Rows and fingerprints are as after recording something. -/
def RecordsUpsert (u : Upsert) (s s' : Store) : Prop :=
  ∃ now, ∀ id, (s'.certs.get? id).map CertRow.sha256 =
    ((u.write s now (u.find s)).1.certs.get? id).map CertRow.sha256

theorem RecordsUpsert.inserted_iff (h : RecordsUpsert u s s') :
    Inserted s s' id ↔ u.Adds s ∧ id = u.key s := by
  obtain ⟨now, h⟩ := h
  have hsome : (s'.certs.get? id).isSome = ((u.write s now (u.find s)).1.certs.get? id).isSome := by
    simpa using congrArg Option.isSome (h id)
  rw [Inserted, hsome, Upsert.Adds, Upsert.key]
  cases hfind : u.find s with
  | none =>
    rw [Upsert.get?_write_none]
    simp only [true_and, Option.map_none, Option.getD_none]
    constructor
    · rintro ⟨hnone, hnew⟩
      -- under any other key there is what was there
      by_contra hne
      rw [if_neg hne, hnone] at hnew
      exact absurd hnew (by decide)
    · rintro rfl
      exact ⟨Table.get?_nextKey, by rw [if_pos rfl, Option.isSome_some]⟩
  | some e =>
    rw [Upsert.get?_write_some]
    refine iff_of_false (fun hins => ?_) (by simp)
    rw [hins.1] at hins
    exact absurd hins.2 (by simp)

/-- The fingerprint an upsert leaves. -/
theorem sha256_update {e : Cert} {r : CertRow} (hread : e = scanRowValues e.id r) :
    (r.sha256 ≠ "" ∧ (u.update now e r).sha256 ≠ "" ∧ r.sha256 ≠ (u.update now e r).sha256) ↔
      u.Changes e := by
  have hsha : e.sha256 = r.sha256 := by
    rw [hread]
    rfl
  cases u with
  | scan name res =>
    rw [← hsha]
    rfl
  | domain name res =>
    refine iff_of_false (fun h => h.2.2 ?_) False.elim
    rfl

theorem RecordsUpsert.replaced_iff (h : RecordsUpsert u s s') :
    Replaced s s' id ↔ u.Renews s ∧ id = u.key s := by
  obtain ⟨now, h⟩ := h
  simp only [Replaced, Store.fingerprint, h id]
  rw [Upsert.Renews, Upsert.key]
  cases hfind : u.find s with
  | none =>
    -- a new row has no fingerprint from before
    refine iff_of_false (fun hrep => ?_) (by simp)
    rw [Upsert.get?_write_none] at hrep
    split_ifs at hrep with hid
    · subst hid
      rw [Table.get?_nextKey] at hrep
      exact hrep.1 rfl
    · exact hrep.2.2 rfl
  | some e =>
    obtain ⟨r, hrow, -, hread⟩ := Store.findByHostPort_eq_some hfind
    rw [Upsert.get?_write_some]
    simp only [Option.some.injEq, exists_eq_left', Option.map_some, Option.getD_some]
    by_cases hid : id = e.id
    · subst hid
      simp only [hrow, Option.map_some, Option.getD_some, if_true, and_true]
      exact sha256_update hread
    · simp only [hid, if_false, Option.map_id', and_false, iff_false]
      exact fun hrep => hrep.2.2 rfl

/-- A step that records something, and logs an addition and a renewal of the entry it records
it in under two conditions, is faithful exactly if these are right. -/
theorem faithful_iff (added renewed : Prop) [Decidable added] [Decidable renewed]
    (hrecorded : RecordsUpsert u s s')
    (hadded : ∀ id, s'.eventsAbout .added id = s.eventsAbout .added id +
      if added ∧ id = u.key s then 1 else 0)
    (hrenewed : ∀ id, s'.eventsAbout .renewed id = s.eventsAbout .renewed id +
      if renewed ∧ id = u.key s then 1 else 0) :
    Faithful s s' ↔ u.LoggedRight s added renewed := by
  -- counting one or none is deciding
  have hcount : ∀ p q : Prop, ∀ [Decidable p] [Decidable q],
      ((if p then 1 else 0) = if q then 1 else 0) ↔ (p ↔ q) := by
    intro p q _ _
    by_cases hp : p <;> by_cases hq : q <;> simp [hp, hq]
  simp only [Faithful, hadded, hrenewed, Nat.add_left_cancel_iff, hrecorded.inserted_iff,
    hrecorded.replaced_iff, hcount]
  constructor
  · intro h
    obtain ⟨ha, hr⟩ := h (u.key s)
    simp only [and_true] at ha hr
    exact ⟨ha, hr⟩
  · rintro ⟨ha, hr⟩ id
    exact ⟨and_congr_left fun _ => ha, and_congr_left fun _ => hr⟩

/-! ### What each step logs -/

theorem RecordsUpsert.write (now : Int) : RecordsUpsert u s (u.write s now (u.find s)).1 :=
  ⟨now, fun _ => rfl⟩

/-- What was recorded is read back from its entry. -/
theorem getByID_write (u : Upsert) (now : Int) :
    (u.write s now (u.find s)).1.getByID (u.key s) = (u.write s now (u.find s)).2 := by
  rw [Upsert.key]
  cases hfind : u.find s with
  | none => rw [Upsert.write_none, Option.map_none, Option.getD_none]
  | some e => rw [Upsert.write_some, Option.map_some, Option.getD_some]

theorem exists_written (s : Store) (now : Int) (u : Upsert) : ∃ r,
    (u.write s now (u.find s)).1.certs.get? (u.key s) = some r ∧
      (u.write s now (u.find s)).2 = some (scanRowValues (u.key s) r) := by
  obtain ⟨stored, hstored⟩ := exists_stored s now u
  have hread : (u.write s now (u.find s)).1.getByID (u.key s) = some stored := by
    rw [getByID_write, hstored]
  obtain ⟨r, hrow, rfl⟩ := Option.map_eq_some_iff.mp hread
  exact ⟨r, hrow, hstored⟩

/-- A note changes neither the entry's fingerprint nor the log. -/
theorem applyNotes_some (s : Store) (c : Cert) (notes : String) :
    ∃ s' c', applyNotes s (some c) notes = (s', some c') ∧ c'.id = c.id ∧
      s'.events = s.events ∧
      ∀ id, (s'.certs.get? id).map CertRow.sha256 = (s.certs.get? id).map CertRow.sha256 := by
  by_cases hnotes : trimSpace notes.toList = []
  · exact ⟨s, c, by simp only [applyNotes, if_pos hnotes], rfl, rfl, fun _ => rfl⟩
  by_cases hactive : s.IsActive c.id
  · simp only [applyNotes, if_neg hnotes, Store.updateEntry, Store.updateActive, if_pos hactive]
    refine ⟨_, _, rfl, ?_, rfl, fun id => ?_⟩
    · simp only [Store.getByID, Table.get?_modify_self]
      cases s.certs.get? c.id <;> rfl
    · rw [Table.get?_modify]
      split_ifs
      · cases s.certs.get? id <;> rfl
      · rfl
  · simp only [applyNotes, if_neg hnotes, Store.updateEntry, Store.updateActive, if_neg hactive]
    exact ⟨s, c, rfl, rfl, rfl, fun _ => rfl⟩

/-- A request to scan or to track always logs an addition. -/
theorem faithful_addUpsert (now : Int) (s : Store) (u : Upsert) (notes : String) :
    Faithful s (addUpsert actor now s u notes said).1 ↔ u.LoggedRight s True False := by
  obtain ⟨r, hrow, hstored⟩ := exists_written s now u
  obtain ⟨s', c', hnoted, hid, hevents, hsha⟩ :=
    applyNotes_some (u.write s now (u.find s)).1 (scanRowValues (u.key s) r) notes
  have hadd : (addUpsert actor now s u notes said).1 =
      s'.addEvent now .added c'.id c'.name actor (.plain (GoString.ofString said)) := by
    simp only [addUpsert, hstored, hnoted, recordEvent]
  have hbefore : ∀ kind id, s'.eventsAbout kind id = s.eventsAbout kind id := fun kind id =>
    eventsAbout_congr (hevents.trans events_write)
  have hkey : c'.id = u.key s := hid
  rw [hadd]
  refine faithful_iff True False ⟨now, fun id => hsha id⟩ (fun id => ?_) fun id => ?_
  · rw [eventsAbout_addEvent, hbefore, hkey]
    simp only [true_and, eq_comm]
  · rw [eventsAbout_addEvent, hbefore]
    simp

/-- A store with the same entries and another log that is as it was about them. -/
theorem faithful_of_unchanged
    (hsha : ∀ id, (s'.certs.get? id).map CertRow.sha256 = (s.certs.get? id).map CertRow.sha256)
    (hevents : ∀ kind id, kind = .added ∨ kind = .renewed →
      s'.eventsAbout kind id = s.eventsAbout kind id) : Faithful s s' := by
  intro id
  have hsome : (s'.certs.get? id).isSome = (s.certs.get? id).isSome := by
    simpa using congrArg Option.isSome (hsha id)
  rw [hevents _ _ (Or.inl rfl), hevents _ _ (Or.inr rfl), if_neg, if_neg]
  · exact ⟨rfl, rfl⟩
  · rintro ⟨-, -, hne⟩
    simp only [Store.fingerprint, hsha, ne_eq, not_true] at hne
  · rintro ⟨hnone, hnew⟩
    rw [hsome, hnone] at hnew
    exact absurd hnew (by decide)

theorem Faithful.refl (s : Store) : Faithful s s :=
  faithful_of_unchanged (fun _ => rfl) fun _ _ _ => rfl

/-- A failed scan or lookup leaves fingerprints alone. -/
theorem sha256_touchScanError {msg : String} :
    ((s.touchScanError now id msg).certs.get? id').map CertRow.sha256 =
      (s.certs.get? id').map CertRow.sha256 := by
  rw [get?_certs_touchScanError, Option.map_map]
  congr 1
  funext r
  simp only [Function.comp_apply]
  split_ifs <;> rfl

theorem faithful_touchScanError {msg : String} : Faithful s (s.touchScanError now id msg) :=
  faithful_of_unchanged (fun _ => sha256_touchScanError) fun _ _ _ =>
    eventsAbout_congr events_touchScanError

/-- An upsert by itself logs nothing. -/
theorem faithful_write (u : Upsert) (now : Int) :
    Faithful s (u.write s now (u.find s)).1 ↔ u.LoggedRight s False False := by
  refine faithful_iff False False (RecordsUpsert.write now) (fun id => ?_) fun id => ?_
  · rw [eventsAbout_congr events_write]
    simp
  · rw [eventsAbout_congr events_write]
    simp

/-- The fingerprint a scan leaves in its entry. -/
theorem sha256_written {name : String} {res : ScanResult} {r : CertRow}
    (hrow : ((Upsert.scan name res).write s now ((Upsert.scan name res).find s)).1.certs.get?
      ((Upsert.scan name res).key s) = some r) : r.sha256 = res.sha256 := by
  rw [Upsert.key] at hrow
  cases hfind : (Upsert.scan name res).find s with
  | none =>
    rw [hfind, Upsert.get?_write_none, Option.map_none, Option.getD_none, if_pos rfl] at hrow
    exact Option.some.inj hrow ▸ rfl
  | some e =>
    rw [hfind, Upsert.get?_write_some, Option.map_some, Option.getD_some] at hrow
    obtain ⟨r', -, rfl⟩ := Option.map_eq_some_iff.mp hrow
    rw [if_pos rfl]
    rfl

/-- What follows a scan leaves fingerprints alone. -/
theorem sha256_afterScan {stored : Cert} (hget : s.getByID stored.id = some stored) :
    ((afterScan env c stored s).certs.get? id).map CertRow.sha256 =
      (s.certs.get? id).map CertRow.sha256 := by
  rw [get?_certs_afterScan hget, Option.map_map]
  congr 1
  funext r
  obtain ⟨json, time, hcover⟩ := coverRow_eq env id r
  simp only [Function.comp_apply, hcover]
  split_ifs <;> rfl

/-- A scan of a sweep logs a renewal by what was listed, and never an addition. -/
theorem faithful_rescanEndpoint : Faithful s (rescanEndpoint env s c) ↔
    ∀ u, endpointUpsert env c = some u → u.LoggedRight s False (SweepLogsRenewal env c) := by
  cases hscan : env.scan c with
  | error msg =>
    simp only [endpointUpsert, hscan, reduceCtorEq, false_imp_iff, implies_true, iff_true]
    -- a failed scan changes no fingerprint and logs neither an addition nor a renewal
    refine faithful_of_unchanged (fun id => ?_) fun kind id hkind => ?_
    · rw [rescanEndpoint_error hscan, sha256_touchScanError]
      split_ifs <;> rfl
    · rw [eventsAbout_rescanEndpoint_error hscan, if_neg, add_zero]
      rintro ⟨-, hfailed, -⟩
      rcases hkind with rfl | rfl <;> exact absurd hfailed (by decide)
  | ok served =>
    simp only [endpointUpsert, hscan, Option.some.injEq, forall_eq']
    -- a successful one is an upsert, and logs a renewal by the fingerprint it had read
    obtain ⟨r, hrow, hstored⟩ := exists_written s env.clock (c.scanned served)
    have hread : ((c.scanned served).write s env.clock ((c.scanned served).find s)).1.getByID
        (scanRowValues ((c.scanned served).key s) r).id =
          some (scanRowValues ((c.scanned served).key s) r) :=
      (getByID_write _ _).trans hstored
    have hsha : r.sha256 = served.sha256 := sha256_written hrow
    have hlogs : SweepLogsRenewal env c ↔ c.sha256 ≠ "" ∧ r.sha256 ≠ c.sha256 := by
      simp only [SweepLogsRenewal, hscan, Except.ok.injEq, exists_eq_left', hsha]
    have hrecorded : RecordsUpsert (c.scanned served) s (rescanEndpoint env s c) := by
      refine ⟨env.clock, fun id => ?_⟩
      rw [rescanEndpoint_ok hscan hstored, sha256_afterScan hread]
    have hright : Upsert.LoggedRight (c.scanned served) s False (SweepLogsRenewal env c) ↔
        Upsert.LoggedRight (c.scanned served) s False (c.sha256 ≠ "" ∧ r.sha256 ≠ c.sha256) := by
      rw [Upsert.LoggedRight, hlogs, Upsert.LoggedRight]
    rw [hright]
    refine faithful_iff False _ hrecorded (fun id => ?_) fun id => ?_
    · rw [eventsAbout_rescanEndpoint_ok (by decide) hscan hstored]
      simp
    · rw [eventsAbout_rescanEndpoint_ok (by decide) hscan hstored]
      have hnot : ¬ (c.lastError ≠ "" ∧ EventKind.scanRecovered = .renewed ∧ c.id = id) :=
        fun h => absurd h.2.1 (by decide)
      rw [if_neg hnot, add_zero]
      simp only [true_and, eq_comm]
      rfl

theorem faithful_rescanDomain : Faithful s (rescanDomain env s c) ↔
    ∀ u, domainUpsert env c = some u → u.LoggedRight s False False := by
  cases hlookup : env.lookup c with
  | error msg =>
    simp only [domainUpsert, rescanDomain, hlookup, reduceCtorEq, false_imp_iff, implies_true,
      iff_true]
    exact faithful_touchScanError
  | ok res =>
    simp only [domainUpsert, rescanDomain, hlookup, Option.some.injEq, forall_eq']
    exact faithful_write (.domain c.name res) env.clock

theorem faithful_scanAllEndpoint : Faithful s (scanAllEndpoint env s c) ↔
    ∀ u, endpointUpsert env c = some u → u.LoggedRight s False False := by
  cases hscan : env.scan c with
  | error msg =>
    simp only [endpointUpsert, scanAllEndpoint, hscan, reduceCtorEq, false_imp_iff, implies_true,
      iff_true]
    exact faithful_touchScanError
  | ok served =>
    simp only [endpointUpsert, scanAllEndpoint, hscan, Option.some.injEq, forall_eq']
    exact faithful_write (c.scanned served) env.clock

/-! ### What each operation logs -/

theorem faithful_handleScan {outcome : String → Int → String → Except String Served}
    {body : Option ScanRequest} : Faithful s (handleScan actor now outcome s body).1 ↔
      ∀ u, scanUpsert outcome body = some u → u.LoggedRight s True False := by
  rcases body with _ | req
  · exact iff_of_true (Faithful.refl s) (by simp [scanUpsert])
  cases htarget : req.target with
  | error msg =>
    simp only [handleScan, scanUpsert, htarget, reduceCtorEq, false_imp_iff, implies_true, iff_true]
    exact Faithful.refl s
  | ok target =>
    obtain ⟨host, port⟩ := target
    cases hscan : outcome host port req.serverName with
    | error msg =>
      simp only [handleScan, scanUpsert, htarget, hscan, reduceCtorEq, false_imp_iff,
        implies_true, iff_true]
      exact Faithful.refl s
    | ok served =>
      simp only [handleScan, scanUpsert, htarget, hscan]
      split_ifs
      · exact iff_of_true (Faithful.refl s) (by simp)
      · simp only [Option.some.injEq, forall_eq']
        exact faithful_addUpsert now s _ req.notes

theorem faithful_handleTrackDomain {lookup : String → Except LookupError DomainResult}
    {body : Option TrackRequest} : Faithful s (handleTrackDomain actor now lookup s body).1 ↔
      ∀ u, trackUpsert lookup body = some u → u.LoggedRight s True False := by
  rcases body with _ | req
  · exact iff_of_true (Faithful.refl s) (by simp [trackUpsert])
  by_cases hblank : trimSpace req.domain.toList = []
  · simp only [handleTrackDomain, trackUpsert, if_pos hblank, reduceCtorEq, false_imp_iff,
      implies_true, iff_true]
    exact Faithful.refl s
  · simp only [handleTrackDomain, trackUpsert, if_neg hblank]
    cases hlookup : lookup req.domain with
    | error e => exact iff_of_true (Faithful.refl s) (by simp)
    | ok res =>
      simp only [Option.some.injEq, forall_eq']
      exact faithful_addUpsert now s (.domain req.name res) req.notes

theorem faithful_handleRescanCert {path : Option Int} :
    Faithful s (handleRescanCert env s path).1 ↔
      ∀ u, rescanUpsert env s path = some u → u.LoggedRight s False False := by
  rcases path with _ | id
  · exact iff_of_true (Faithful.refl s) (by simp [rescanUpsert])
  simp only [handleRescanCert, withID, rescanUpsert, Option.bind_some]
  cases hread : s.getByID id with
  | none => exact iff_of_true (Faithful.refl s) (by simp)
  | some c =>
    simp only [rescanEntry]
    split_ifs
    · cases hlookup : env.lookup c with
      | error msg => exact iff_of_true faithful_touchScanError (by simp)
      | ok res =>
        simp only [Option.some.injEq, forall_eq']
        exact faithful_write (.domain c.name res) env.clock
    · exact iff_of_true (Faithful.refl s) (by simp)
    · cases hscan : env.scan c with
      | error msg => exact iff_of_true faithful_touchScanError (by simp)
      | ok served =>
        simp only [Option.some.injEq, forall_eq']
        exact faithful_write (c.scanned served) env.clock

theorem setSecret_keeps {enc : Cipher} (h : s.setSecret id enc = some s') :
    s'.events = s.events ∧ ∀ id', (s'.certs.get? id').map CertRow.sha256 =
      (s.certs.get? id').map CertRow.sha256 := by
  unfold Store.setSecret at h
  split at h
  · split_ifs at h
    obtain rfl := Option.some.inj h
    refine ⟨rfl, fun id' => ?_⟩
    rw [Table.get?_modify]
    split_ifs
    · cases s.certs.get? id' <;> rfl
    · rfl
  · exact absurd h (by simp)

theorem storeSecret_keeps {h : Host} {value : String}
    (hstored : storeSecret h id value = .ok (some s')) :
    s'.events = h.store.events ∧ ∀ id', (s'.certs.get? id').map CertRow.sha256 =
      (h.store.certs.get? id').map CertRow.sha256 := by
  unfold storeSecret at hstored
  split_ifs at hstored
  · exact setSecret_keeps (Except.ok.inj hstored)
  · split at hstored
    · exact absurd hstored (by simp)
    · exact setSecret_keeps (Except.ok.inj hstored)

/-- A new row and a line about it. -/
theorem faithful_insert {row : CertRow} {name : String}
    (hsha : ∀ id, (s'.certs.get? id).map CertRow.sha256 =
      ((s.certs.insert row).get? id).map CertRow.sha256)
    (hevents : s'.events = s.events) :
    Faithful s (s'.addEvent now .added s.certs.nextKey name actor detail) := by
  intro id
  have hsame : ∀ kind, s'.eventsAbout kind id = s.eventsAbout kind id := fun kind =>
    eventsAbout_congr hevents
  -- the only row that is new is the one under the next key
  have hinserted : Inserted s (s'.addEvent now .added s.certs.nextKey name actor detail) id ↔
      s.certs.nextKey = id := by
    have hsome : (s'.certs.get? id).isSome = ((s.certs.insert row).get? id).isSome := by
      simpa using congrArg Option.isSome (hsha id)
    change s.certs.get? id = none ∧ (s'.certs.get? id).isSome ↔ _
    rw [hsome, Table.get?_insert]
    constructor
    · rintro ⟨hnone, hnew⟩
      by_contra hne
      rw [if_neg fun heq => hne heq.symm, hnone] at hnew
      exact absurd hnew (by decide)
    · rintro rfl
      exact ⟨Table.get?_nextKey, by rw [if_pos rfl, Option.isSome_some]⟩
  -- and a row under a new key has no fingerprint from before
  have hreplaced :
      ¬ Replaced s (s'.addEvent now .added s.certs.nextKey name actor detail) id := by
    rintro ⟨hbefore, -, hne⟩
    refine hne ?_
    change s.fingerprint id = s'.fingerprint id
    have hold : id ≠ s.certs.nextKey := by
      rintro rfl
      simp [Store.fingerprint, Table.get?_nextKey] at hbefore
    rw [Store.fingerprint, Store.fingerprint, hsha, Table.get?_insert, if_neg hold]
  constructor
  · rw [eventsAbout_addEvent, hsame]
    simp only [hinserted, true_and]
  · rw [eventsAbout_addEvent, hsame, if_neg hreplaced]
    simp

theorem faithful_handleCreateCert (now : Int) (h : Host) (body : Option CreateCertRequest) :
    Faithful h.store (handleCreateCert actor now h body).1 := by
  rcases body with _ | req
  · exact Faithful.refl _
  by_cases hname : sanitizeLabel req.name = ""
  · simp only [handleCreateCert, if_pos hname]
    exact Faithful.refl _
  cases hexpires : req.expiresAt with
  | none =>
    simp only [handleCreateCert, if_neg hname, hexpires]
    exact Faithful.refl _
  | some expires =>
    simp only [handleCreateCert, if_neg hname, hexpires]
    set added := h.store.addCert (createRow now expires req) with hadded
    -- with the secret or without it, the entry is there and the log as it was
    have hstored : ∀ s' said, s'.events = added.events →
        (∀ id, (s'.certs.get? id).map CertRow.sha256 =
          (added.certs.get? id).map CertRow.sha256) →
        Faithful h.store
          (recordEvent actor now s' .added (s'.getByID h.store.certs.nextKey) said) := by
      intro s' said hevents hsha
      have hnew : ((s'.certs.get? h.store.certs.nextKey).map CertRow.sha256).isSome := by
        rw [hsha, hadded, Store.addCert, Table.get?_insert, if_pos rfl]
        rfl
      obtain ⟨row, hrow⟩ := Option.isSome_iff_exists.mp (Option.isSome_map ▸ hnew)
      rw [Store.getByID, hrow]
      exact faithful_insert hsha hevents
    split_ifs
    · split
      · next s' hsecret =>
        obtain ⟨hevents, hsha⟩ := storeSecret_keeps hsecret
        exact hstored s' _ hevents hsha
      · exact hstored added _ rfl fun _ => rfl
    · exact hstored added _ rfl fun _ => rfl

/-- Every turn of a loop is faithful exactly if it meets the condition of its entry. -/
theorem faithful_turnUnits {body : Store → Cert → Store} {right : Store → Cert → Prop}
    (hbody : ∀ s c, Faithful s (body s c) ↔ right s c) :
    (∀ u ∈ InventoryOp.turnUnits body s cs, Faithful u.1 u.2) ↔
      ∀ t ∈ turns body s cs, right t.1 t.2 := by
  simp only [InventoryOp.turnUnits, List.forall_mem_map, hbody]

/-- An operation logs the additions and renewals of all its steps exactly if it logs what each
upsert comes to. -/
theorem faithful_op (s : Store) (op : InventoryOp) :
    (∀ u ∈ op.units s, Faithful u.1 u.2) ↔ op.LogsRight s := by
  -- a request is one unit, a sweep one for each entry
  have hone : ∀ s' : Store, (∀ u ∈ [(s, s')], Faithful u.1 u.2) ↔ Faithful s s' := by
    simp
  cases op with
  | scan actor now outcome body => exact (hone _).trans faithful_handleScan
  | trackDomain actor now lookup body => exact (hone _).trans faithful_handleTrackDomain
  | createCert actor now vault keyFile body =>
    exact (hone _).trans (iff_of_true (faithful_handleCreateCert now _ body) trivial)
  | scanAll env =>
    have hscans : ∀ s c, Faithful s (scanAllEndpoint env s c) ↔ ∀ u,
        endpointUpsert env c = some u → u.LoggedRight s False False :=
      fun _ _ => faithful_scanAllEndpoint
    exact faithful_turnUnits hscans
  | rescanCert env path => exact (hone _).trans faithful_handleRescanCert
  | sweep env =>
    have hscans : ∀ s c, Faithful s (rescanEndpoint env s c) ↔ ∀ u,
        endpointUpsert env c = some u → u.LoggedRight s False (SweepLogsRenewal env c) :=
      fun _ _ => faithful_rescanEndpoint
    have hlookups : ∀ s c, Faithful s (rescanDomain env s c) ↔ ∀ u,
        domainUpsert env c = some u → u.LoggedRight s False False :=
      fun _ _ => faithful_rescanDomain
    simp only [InventoryOp.units, List.forall_mem_append]
    exact and_congr (faithful_turnUnits hscans) (faithful_turnUnits hlookups)

/-- Operations run one at a time, and none is refused. -/
def inventoryStep (s : Store) (op : InventoryOp) : Option Store := some (op.apply s)

/-- For every run of scans, rescans, scans of everything, domain tracking, new entries and
sweeps: at each of their steps the log gains one addition for an entry that was inserted, one
renewal for a fingerprint that was replaced, and no other, exactly if each logs what its
upsert comes to. -/
theorem history_faithful_iff (s : Store) (ops : List InventoryOp) :
    Meets inventoryStep (fun s op => ∀ u ∈ op.units s, Faithful u.1 u.2) s ops ↔
      Meets inventoryStep (fun s op => op.LogsRight s) s ops :=
  meets_congr faithful_op

/-- An endpoint with a fingerprint. -/
def knownEndpoint : Store where
  certs := Table.empty.insert
    { name := "web", kind := .endpoint, host := "a", port := 443, sha256 := "aa"
      expiresAt := [], createdAt := [] }

/-- The endpoint has a new certificate. -/
def renewedEnv : SweepEnv where
  clock := 0
  scan _ := .ok { sha256 := "bb" }
  reach _ _ := .error "no such host"
  lookup _ := .error "no such domain"

/-- A renewal found by a request to rescan is not logged, and a second scan of an entry is
logged as an addition. -/
theorem renewal_not_logged :
    ¬ Meets inventoryStep (fun s op => ∀ u ∈ op.units s, Faithful u.1 u.2) knownEndpoint
        [.rescanCert renewedEnv (some 1)] ∧
      ¬ Meets inventoryStep (fun s op => ∀ u ∈ op.units s, Faithful u.1 u.2) knownEndpoint
        [.scan "" 0 (fun _ _ _ => .ok { sha256 := "aa" }) (some { target := .ok ("a", 443) })] := by
  constructor
  · intro h
    obtain ⟨hfirst, -⟩ := meets_cons.mp h
    have hrenewed := (hfirst _ (List.mem_singleton_self _) 1).2
    exact absurd hrenewed (by decide +kernel)
  · intro h
    obtain ⟨hfirst, -⟩ := meets_cons.mp h
    have hadded := (hfirst _ (List.mem_singleton_self _) 1).1
    exact absurd hadded (by decide +kernel)

end CertGuard
