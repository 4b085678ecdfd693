import CertGuard.Scheduler.StaleCoverage

/-!
# Failures and recoveries in the log

A sweep takes an entry to have failed before if its last error is not empty. A scan that
succeeds leaves an error there too, where the certificate is not trusted: the next success
is then logged as a recovery, and a failure is not logged at all.

## Main definitions

* `scanFails` — whether a sweep scans an entry, and whether the scan fails
* `LogsTransitions` — a sweep logs a failure after a success, a recovery after a failure,
  and no more
* `RecordsFailure` — the last error of an entry says whether the last scan failed
* `Store.Sole` — an endpoint with an address to itself
* `TellsFailure` — a scan leaves an error exactly if it fails

## Main results

* `transitions_logged_iff` — the log is right exactly in runs with this
* `untrusted_misread` — and it is not for an endpoint that is not trusted
-/

namespace CertGuard

open Transition

/-- A scan fails. -/
def SweepEnv.fails (env : SweepEnv) (c : Cert) : Bool :=
  match env.scan c with
  | .error _ => true
  | .ok _ => false

/-- What a scan leaves in `last_error`. -/
def SweepEnv.leaves (env : SweepEnv) (c : Cert) : String :=
  match env.scan c with
  | .error msg => msg
  | .ok served => served.trustError

/-- The entry as a sweep lists it. -/
def Store.listed (s : Store) (id : Int) : Option Cert :=
  s.endpointsForRescan.find? fun c => c.id = id

/-- Whether a sweep scans an entry, and whether the scan fails. -/
def scanFails (id : Int) (s : Store) (env : SweepEnv) : Option Bool :=
  (s.listed id).map env.fails

/-- Whether the last scan of an entry failed. -/
def noteScan (id : Int) (prev : Option Bool) (s : Store) (env : SweepEnv) : Option Bool :=
  (scanFails id s env).or prev

/-- A sweep logs a failure of the entry if its scan fails and the last one did not, a recovery
if it succeeds and the last one failed, and no more. -/
def LogsTransitions (id : Int) (w : Store × Option Bool) (env : SweepEnv) : Prop :=
  (rescan env w.1).eventsAbout .scanFailed id = w.1.eventsAbout .scanFailed id +
      (if scanFails id w.1 env = some true ∧ w.2 ≠ some true then 1 else 0) ∧
    (rescan env w.1).eventsAbout .scanRecovered id = w.1.eventsAbout .scanRecovered id +
      if scanFails id w.1 env = some false ∧ w.2 = some true then 1 else 0

instance (id : Int) (w : Store × Option Bool) (env : SweepEnv) :
    Decidable (LogsTransitions id w env) :=
  inferInstanceAs (Decidable (_ ∧ _))

/-- The error of the entry, where a sweep scans it, says whether its last scan failed. -/
def RecordsFailure (id : Int) (w : Store × Option Bool) (_env : SweepEnv) : Prop :=
  ∀ c, w.1.listed id = some c → (c.lastError ≠ "" ↔ w.2 = some true)

/-- A scan of the entry leaves an error exactly if it fails. -/
def TellsFailure (id : Int) (s : Store) (env : SweepEnv) : Prop :=
  ∀ c, s.listed id = some c → (env.leaves c ≠ "" ↔ env.fails c = true)

/-- An endpoint is scanned, and no other entry is recorded under its address. -/
structure Store.Sole (s : Store) (id : Int) (host : String) (port : Int) : Prop where
  row : (s.certs.get? id).map CertRow.place = some (host, port, true, .endpoint, true)
  host_ne : host ≠ ""
  port_ne : port ≠ 0
  alone : ∀ id' r, s.certs.get? id' = some r → r.active = true → r.host = host →
    (r.port = port ∨ r.kind = .endpoint ∧ dialPort r.port = port) → id' = id

variable {s : Store} {env : SweepEnv} {id : Int} {c : Cert} {r : CertRow} {cs : List Cert}
variable {kind : EventKind} {prev : Option Bool}

/-! ### The lines of a sweep -/

/-- A scan adds a line of a kind about its entry. -/
def Logs (env : SweepEnv) (kind : EventKind) (c : Cert) : Prop :=
  if env.fails c then kind = .scanFailed ∧ c.lastError = ""
  else kind = .scanRecovered ∧ c.lastError ≠ ""

instance (env : SweepEnv) (kind : EventKind) (c : Cert) : Decidable (Logs env kind c) :=
  inferInstanceAs (Decidable (ite _ _ _))

theorem eventsAbout_scan (hkind : kind = .scanFailed ∨ kind = .scanRecovered) :
    (rescanEndpoint env s c).eventsAbout kind id =
      s.eventsAbout kind id + if c.id = id ∧ Logs env kind c then 1 else 0 := by
  have hcoverage : kind ≠ .coverageBroken := by rcases hkind with rfl | rfl <;> decide
  have hrenewed : ¬ EventKind.renewed = kind := by rcases hkind with rfl | rfl <;> decide
  cases hscan : env.scan c with
  | error msg =>
    rw [eventsAbout_rescanEndpoint_error hscan]
    have hline : (c.lastError = "" ∧ .scanFailed = kind ∧ c.id = id) ↔
        c.id = id ∧ Logs env kind c := by
      simp only [Logs, SweepEnv.fails, hscan, if_true]
      exact ⟨fun ⟨herror, hk, hid⟩ => ⟨hid, hk.symm, herror⟩,
        fun ⟨hid, hk, herror⟩ => ⟨herror, hk.symm, hid⟩⟩
    simp only [hline]
  | ok served =>
    obtain ⟨stored, hstored⟩ := exists_stored s env.clock (c.scanned served)
    rw [eventsAbout_rescanEndpoint_ok hcoverage hscan hstored]
    have hline : (c.lastError ≠ "" ∧ .scanRecovered = kind ∧ c.id = id) ↔
        c.id = id ∧ Logs env kind c := by
      simp only [Logs, SweepEnv.fails, hscan, Bool.false_eq_true, if_false]
      exact ⟨fun ⟨herror, hk, hid⟩ => ⟨hid, hk.symm, herror⟩,
        fun ⟨hid, hk, herror⟩ => ⟨herror, hk.symm, hid⟩⟩
    simp only [hrenewed, false_and, and_false, if_false, add_zero, hline]

/-- The scans of a sweep add at most the lines of the one of the entry. -/
theorem eventsAbout_scans (hkind : kind = .scanFailed ∨ kind = .scanRecovered)
    (hnodup : (cs.map Cert.id).Nodup) :
    (cs.foldl (rescanEndpoint env) s).eventsAbout kind id = s.eventsAbout kind id +
      if ∃ c, cs.find? (fun c => c.id = id) = some c ∧ Logs env kind c then 1 else 0 := by
  induction cs generalizing s with
  | nil => simp
  | cons c cs ih =>
    obtain ⟨hnew, hrest⟩ := List.nodup_cons.mp hnodup
    rw [List.foldl_cons, ih hrest, eventsAbout_scan hkind]
    by_cases hid : c.id = id
    · simp [hid, find?_id_eq_none (hid ▸ hnew)]
    · simp [hid]

theorem eventsAbout_rescan (hkind : kind = .scanFailed ∨ kind = .scanRecovered) :
    (rescan env s).eventsAbout kind id = s.eventsAbout kind id +
      if ∃ c, s.listed id = some c ∧ Logs env kind c then 1 else 0 := by
  have hlookups : ∀ (cs : List Cert) (s : Store), (cs.foldl (rescanDomain env) s).events =
      s.events := by
    intro cs
    induction cs with
    | nil => exact fun _ => rfl
    | cons c cs ih => exact fun s => (ih _).trans events_rescanDomain
  rw [rescan, eventsAbout_congr (hlookups _ _)]
  exact eventsAbout_scans hkind Store.listForRefresh_ids_nodup

/-- A sweep logs what it should exactly if the error of the entry says whether its last scan
failed. -/
theorem logsTransitions_iff {w : Store × Option Bool} :
    LogsTransitions id w env ↔ RecordsFailure id w env := by
  rw [LogsTransitions, eventsAbout_rescan (Or.inl rfl), eventsAbout_rescan (Or.inr rfl),
    scanFails, RecordsFailure]
  cases hlisted : w.1.listed id with
  | none => simp
  | some c =>
    by_cases hprev : w.2 = some true <;> by_cases herror : c.lastError = "" <;>
      cases hfails : env.fails c <;> simp [Logs, hfails, hprev, herror]

/-! ### The last error of an endpoint -/

variable {host : String} {port : Int} {s' : Store}

/-- An address stays with its endpoint as long as entries keep theirs and new ones have others. -/
theorem Store.Sole.of_places (h : s.Sole id host port)
    (hplaces : ∀ id', (s'.certs.get? id').map CertRow.place =
        (s.certs.get? id').map CertRow.place ∨
      s.certs.get? id' = none ∧ ∀ r, s'.certs.get? id' = some r →
        ¬ (r.host = host ∧ (r.port = port ∨ r.kind = .endpoint ∧ dialPort r.port = port))) :
    s'.Sole id host port where
  row := by
    -- its own row was there before
    rcases hplaces id with hsame | ⟨hnew, -⟩
    · rw [hsame, h.row]
    · exact absurd h.row (by simp [hnew])
  host_ne := h.host_ne
  port_ne := h.port_ne
  alone := by
    intro id' r hrow hactive hhost hport
    rcases hplaces id' with hsame | ⟨-, hother⟩
    · rw [hrow, Option.map_some] at hsame
      obtain ⟨r', hrow', hplace⟩ := Option.map_eq_some_iff.mp hsame.symm
      simp only [CertRow.place, Prod.mk.injEq] at hplace
      obtain ⟨hhost', hport', hactive', hkind', -⟩ := hplace
      refine h.alone id' r' hrow' (hactive'.trans hactive) (hhost'.trans hhost) ?_
      rwa [hport', hkind']
    · exact absurd ⟨hhost, hport⟩ (hother r hrow)

theorem dialPort_dialPort (port : Int) : dialPort (dialPort port) = dialPort port := by
  unfold dialPort
  split_ifs with h h' <;> rfl

/-- A scan at the address finds the endpoint. -/
theorem Store.Sole.find (h : s.Sole id host port) (served : Served) (hhost : c.host = host)
    (hport : dialPort c.port = port) :
    ∃ e, (c.scanned served).find s = some e ∧ e.id = id := by
  obtain ⟨r, hrow, hplace⟩ := Option.map_eq_some_iff.mp h.row
  simp only [CertRow.place, Prod.mk.injEq] at hplace
  obtain ⟨hrhost, hrport, hactive, -, -⟩ := hplace
  cases hfind : (c.scanned served).find s with
  | none =>
    exact absurd ⟨r, hrow, hactive, hrhost.trans hhost.symm, hrport.trans hport.symm⟩
      (Store.find_eq_none_iff.mp hfind id)
  | some e =>
    obtain ⟨r', hrow', hactive', hhost', hport'⟩ := Store.isAt_of_find hfind
    exact ⟨e, rfl, h.alone e.id r' hrow' hactive' (hhost'.trans hhost)
      (Or.inl (hport'.trans hport))⟩

/-- No scan comes to the address of the endpoint otherwise. -/
theorem Store.Sole.rescanEndpoint (h : s.Sole id host port) :
    (rescanEndpoint env s c).Sole id host port := by
  refine h.of_places fun id' => ?_
  cases hscan : env.scan c with
  | error msg => exact Or.inl (place_rescanEndpoint_error hscan)
  | ok served =>
    by_cases hnew : (c.scanned served).find s = none ∧ id' = s.certs.nextKey
    · obtain ⟨hfind, rfl⟩ := hnew
      refine Or.inr ⟨Table.get?_nextKey, fun r hrow => ?_⟩
      rintro ⟨hhost, hport⟩
      have hplace := place_rescanEndpoint_ok (s := s) s.certs.nextKey hscan
      rw [if_pos ⟨hfind, rfl⟩, hrow, Option.map_some] at hplace
      simp only [CertRow.place, Option.some.injEq, Prod.mk.injEq, Upsert.newRow_host,
        Upsert.newRow_port] at hplace
      have hdial : dialPort c.port = port := by
        rw [hplace.2.1] at hport
        exact hport.elim (fun hport => hport) fun hport => (dialPort_dialPort _).symm.trans hport.2
      -- a row at this address would have been found
      obtain ⟨e, he, -⟩ := h.find served (hplace.1.symm.trans hhost) hdial
      exact absurd (he.symm.trans hfind) (by simp)
    · rw [place_rescanEndpoint_ok id' hscan, if_neg hnew]
      exact Or.inl rfl

theorem Store.Sole.rescanDomain (h : s.Sole id host port) :
    (rescanDomain env s c).Sole id host port := by
  unfold CertGuard.rescanDomain
  split
  · exact h.of_places fun _ => Or.inl place_touchScanError
  · next res _ =>
    have hplace : ∀ id', ((s.upsertDomain env.clock c.name res).1.certs.get? id').map
        CertRow.place = _ := fun id' => place_write (.domain c.name res) id'
    refine h.of_places fun id' => ?_
    by_cases hnew : (Upsert.domain c.name res).find s = none ∧ id' = s.certs.nextKey
    · obtain ⟨hfind, rfl⟩ := hnew
      refine Or.inr ⟨Table.get?_nextKey, fun r hrow => ?_⟩
      have hadded := hplace s.certs.nextKey
      rw [if_pos ⟨hfind, rfl⟩, hrow, Option.map_some] at hadded
      simp only [CertRow.place, Option.some.injEq, Prod.mk.injEq] at hadded
      rintro ⟨-, hport | ⟨hkind, -⟩⟩
      · -- domains are tracked at port 0
        exact h.port_ne (hport.symm.trans hadded.2.1)
      · exact absurd (hkind.symm.trans hadded.2.2.2.1) (by simp [Upsert.newRow, insertDomain])
    · rw [hplace, if_neg hnew]
      exact Or.inl rfl

/-- The scan of the endpoint leaves its outcome. -/
theorem lastError_own (h : s.Sole id host port) (hid : c.id = id) (hhost : c.host = host)
    (hport : c.port = port) :
    ((rescanEndpoint env s c).certs.get? id).map CertRow.lastError = some (env.leaves c) := by
  obtain ⟨r, hrow, hplace⟩ := Option.map_eq_some_iff.mp h.row
  simp only [CertRow.place, Prod.mk.injEq] at hplace
  cases hscan : env.scan c with
  | error msg =>
    rw [get?_certs_rescanEndpoint_error hscan, hrow, Option.map_some, Option.map_some,
      if_pos ⟨hid.symm, hplace.2.2.1⟩]
    simp only [SweepEnv.leaves, hscan]
  | ok served =>
    have hdial : dialPort c.port = port := by
      rw [hport, dialPort, if_neg h.port_ne]
    obtain ⟨e, hfind, he⟩ := h.find served hhost hdial
    obtain ⟨json, time, hcover⟩ :=
      coverRow_eq env id ((c.scanned served).update env.clock e r)
    rw [get?_certs_rescanEndpoint_some hscan hfind, hrow, Option.map_some, Option.map_some,
      if_pos he.symm, hcover]
    simp only [SweepEnv.leaves, hscan]
    rfl

/-- Other scans leave it. -/
theorem lastError_other (h : s.Sole id host port) (hid : c.id ≠ id)
    (haddress : ¬ (c.host = host ∧ dialPort c.port = port)) :
    ((rescanEndpoint env s c).certs.get? id).map CertRow.lastError =
      (s.certs.get? id).map CertRow.lastError := by
  obtain ⟨r, hrow, hplace⟩ := Option.map_eq_some_iff.mp h.row
  simp only [CertRow.place, Prod.mk.injEq] at hplace
  cases hscan : env.scan c with
  | error msg =>
    rw [get?_certs_rescanEndpoint_error hscan, hrow, Option.map_some,
      if_neg fun hown => hid hown.1.symm]
  | ok served =>
    cases hfind : (c.scanned served).find s with
    | none =>
      rw [get?_certs_rescanEndpoint_none hscan hfind, if_neg (Table.ne_nextKey hrow)]
    | some e =>
      -- the row that is updated is at the address that was scanned
      have hne : id ≠ e.id := by
        rintro rfl
        obtain ⟨r', hrow', -, hhost', hport'⟩ := Store.isAt_of_find hfind
        obtain rfl := Option.some.inj (hrow.symm.trans hrow')
        exact haddress ⟨hhost'.symm.trans hplace.1, hport'.symm.trans hplace.2.1⟩
      rw [get?_certs_rescanEndpoint_some hscan hfind, hrow, Option.map_some, if_neg hne]

/-- What a sweep lists is at the address of the endpoint only if it is the endpoint. -/
theorem Store.Sole.of_mem (h : s.Sole id host port) (hmem : c ∈ s.endpointsForRescan) :
    (c.id = id → c.host = host ∧ c.port = port) ∧
      (c.id ≠ id → ¬ (c.host = host ∧ dialPort c.port = port)) := by
  obtain ⟨r, hrow, hactive, hkind, -, -, hread⟩ := Store.mem_listForRefresh_iff.mp hmem
  have hhost : c.host = r.host := by rw [hread]; rfl
  have hport : c.port = r.port := by rw [hread]; rfl
  constructor
  · rintro rfl
    have hplace := h.row
    rw [hrow, Option.map_some] at hplace
    simp only [CertRow.place, Option.some.injEq, Prod.mk.injEq] at hplace
    exact ⟨hhost.trans hplace.1, hport.trans hplace.2.1⟩
  · rintro hne ⟨hsame, hdial⟩
    exact hne (h.alone c.id r hrow hactive (hhost.symm.trans hsame)
      (Or.inr ⟨hkind, hport ▸ hdial⟩))

/-- After the scans of a sweep the endpoint has the outcome of its own. -/
theorem lastError_scans (env : SweepEnv) (h : s.Sole id host port) (hnodup : (cs.map Cert.id).Nodup)
    (hcs : ∀ c ∈ cs, (c.id = id → c.host = host ∧ c.port = port) ∧
      (c.id ≠ id → ¬ (c.host = host ∧ dialPort c.port = port))) :
    (cs.foldl (rescanEndpoint env) s).Sole id host port ∧
      ((cs.foldl (rescanEndpoint env) s).certs.get? id).map CertRow.lastError =
        ((cs.find? fun c => c.id = id).map env.leaves).or
          ((s.certs.get? id).map CertRow.lastError) := by
  induction cs generalizing s with
  | nil => exact ⟨h, rfl⟩
  | cons c cs ih =>
    obtain ⟨hnew, hrest⟩ := List.nodup_cons.mp hnodup
    obtain ⟨⟨hown, hother⟩, hcs⟩ := List.forall_mem_cons.mp hcs
    obtain ⟨hsole, herror⟩ := ih h.rescanEndpoint hrest hcs
    refine ⟨hsole, ?_⟩
    rw [List.foldl_cons, herror]
    by_cases hid : c.id = id
    · -- its own turn, and no later one is its own
      obtain ⟨hhost, hport⟩ := hown hid
      rw [lastError_own h hid hhost hport, find?_id_eq_none (hid ▸ hnew)]
      simp [hid]
    · rw [lastError_other h hid (hother hid)]
      simp [hid]

/-- The lookups of a sweep leave it. -/
theorem lastError_lookups (env : SweepEnv) (h : s.Sole id host port) (hcs : ∀ c ∈ cs, c.id ≠ id) :
    (cs.foldl (rescanDomain env) s).Sole id host port ∧
      ((cs.foldl (rescanDomain env) s).certs.get? id).map CertRow.lastError =
        (s.certs.get? id).map CertRow.lastError := by
  induction cs generalizing s with
  | nil => exact ⟨h, rfl⟩
  | cons c cs ih =>
    obtain ⟨hne, hcs⟩ := List.forall_mem_cons.mp hcs
    obtain ⟨hsole, herror⟩ := ih h.rescanDomain hcs
    refine ⟨hsole, herror.trans ?_⟩
    obtain ⟨r, hrow, hplace⟩ := Option.map_eq_some_iff.mp h.row
    simp only [CertRow.place, Prod.mk.injEq] at hplace
    unfold CertGuard.rescanDomain
    split
    · rw [get?_certs_touchScanError, hrow, Option.map_some, if_neg fun hown => hne hown.1.symm]
    · next res _ =>
      have hkept := Upsert.get?_write_of_address_ne (.domain c.name res) env.clock hrow
        fun haddress => h.port_ne (hplace.2.1.symm.trans haddress.2)
      rw [hrow]
      exact congrArg (Option.map CertRow.lastError) hkept

theorem Store.Sole.listed (h : s.Sole id host port) : ∃ c, s.listed id = some c ∧
    (s.certs.get? id).map CertRow.lastError = some c.lastError := by
  obtain ⟨r, hrow, hplace⟩ := Option.map_eq_some_iff.mp h.row
  simp only [CertRow.place, Prod.mk.injEq] at hplace
  obtain ⟨hhost, -, hactive, hkind, hrescanned⟩ := hplace
  refine ⟨scanRowValues id r, ?_, ?_⟩
  · rw [Store.listed, Store.endpointsForRescan, Store.find?_listForRefresh, hrow,
      Option.filter_some, if_pos]
    · rfl
    · simp [hactive, hkind, hrescanned, hhost, h.host_ne]
  · rw [hrow]
    rfl

/-- After a sweep the endpoint has the outcome of its scan. -/
theorem Store.Sole.rescan (env : SweepEnv) (h : s.Sole id host port) (hc : s.listed id = some c) :
    (rescan env s).Sole id host port ∧
      ((rescan env s).certs.get? id).map CertRow.lastError = some (env.leaves c) := by
  have hnodup : (s.endpointsForRescan.map Cert.id).Nodup := Store.listForRefresh_ids_nodup
  obtain ⟨hscanned, herror⟩ := lastError_scans env h hnodup fun c hmem => h.of_mem hmem
  have hlookups : ∀ c ∈ (s.endpointsForRescan.foldl (CertGuard.rescanEndpoint env)
      s).domainsForRefresh, c.id ≠ id := by
    rintro c hmem rfl
    obtain ⟨r, hrow, -, hkind, -⟩ := Store.mem_listForRefresh_iff.mp hmem
    have hplace := hscanned.row
    rw [hrow, Option.map_some] at hplace
    simp only [CertRow.place, hkind, Option.some.injEq, Prod.mk.injEq] at hplace
    exact absurd hplace.2.2.2.1 (by decide)
  obtain ⟨hsole, hsame⟩ := lastError_lookups env hscanned hlookups
  refine ⟨hsole, hsame.trans (herror.trans ?_)⟩
  rw [Store.listed] at hc
  rw [hc]
  rfl

/-- For an endpoint with an address to itself the last scan is told right exactly if there was
no error at first and every scan before the last leaves one if it fails and only then. -/
theorem meets_recordsFailure_iff (h : s.Sole id host port) (hc : s.listed id = some c)
    (env : SweepEnv) (sweeps : List SweepEnv) :
    Meets (watch sweepStep (noteScan id)) (RecordsFailure id) (s, prev) (env :: sweeps) ↔
      (c.lastError ≠ "" ↔ prev = some true) ∧
        Meets sweepStep (TellsFailure id) s (env :: sweeps).dropLast := by
  have hrecords : RecordsFailure id (s, prev) env ↔ (c.lastError ≠ "" ↔ prev = some true) := by
    simp only [RecordsFailure, hc, Option.some.injEq, forall_eq']
  induction sweeps generalizing s prev c env with
  | nil =>
    rw [meets_cons, hrecords]
    exact and_congr_right fun _ => iff_of_true (fun _ _ => meets_nil) meets_nil
  | cons env' sweeps ih =>
    obtain ⟨hsole, herror⟩ := Store.Sole.rescan env h hc
    obtain ⟨c', hc', herror'⟩ := hsole.listed
    -- the error left by this sweep is what the next one finds
    have hleft : c'.lastError = env.leaves c := Option.some.inj (herror'.symm.trans herror)
    have hnote : noteScan id prev s env = some (env.fails c) := by
      rw [noteScan, scanFails, hc]
      rfl
    have hstep : watch sweepStep (noteScan id) (s, prev) env =
        some (CertGuard.rescan env s, some (env.fails c)) := by
      rw [← hnote]
      rfl
    have hnext : RecordsFailure id (CertGuard.rescan env s, some (env.fails c)) env' ↔
        (c'.lastError ≠ "" ↔ some (env.fails c) = some true) := by
      simp only [RecordsFailure, hc', Option.some.injEq, forall_eq']
    have htells : TellsFailure id s env ↔
        (c'.lastError ≠ "" ↔ some (env.fails c) = some true) := by
      simp only [TellsFailure, hc, hleft, Option.some.injEq, forall_eq']
    refine (meets_cons_of_some hstep).trans (and_congr hrecords ?_)
    refine (ih hsole hc' env' hnext).trans ?_
    have hsweep : sweepStep s env = some (CertGuard.rescan env s) := rfl
    rw [List.dropLast_cons_cons, meets_cons_of_some hsweep, htells]

/-- For every entry and every sequence of sweeps, whatever comes of their scans: each logs a
failure of the entry if its scan fails and the last one did not, a recovery if it succeeds and
the last one failed, and no more, exactly if in each of them the error of the entry says
whether its last scan failed. For an endpoint with an address to itself this means that it has
no error at first, and that every scan before the last leaves one if it fails and only then. -/
theorem transitions_logged_iff (s : Store) (id : Int) (sweeps : List SweepEnv) :
    (Meets (watch sweepStep (noteScan id)) (LogsTransitions id) (s, none) sweeps ↔
      Meets (watch sweepStep (noteScan id)) (RecordsFailure id) (s, none) sweeps) ∧
    ∀ host port, s.Sole id host port →
      (Meets (watch sweepStep (noteScan id)) (LogsTransitions id) (s, none) sweeps ↔
        sweeps = [] ∨ (s.certs.get? id).map CertRow.lastError = some "" ∧
          Meets sweepStep (TellsFailure id) s sweeps.dropLast) := by
  have hstate : Meets (watch sweepStep (noteScan id)) (LogsTransitions id) (s, none) sweeps ↔
      Meets (watch sweepStep (noteScan id)) (RecordsFailure id) (s, none) sweeps :=
    meets_congr fun w env => logsTransitions_iff
  refine ⟨hstate, fun host port h => hstate.trans ?_⟩
  cases sweeps with
  | nil => exact iff_of_true meets_nil (Or.inl rfl)
  | cons env sweeps =>
    obtain ⟨c, hc, herror⟩ := h.listed
    rw [meets_recordsFailure_iff h hc, herror]
    simp

/-- A sweep whose scans fail with a message, or find a certificate with what is wrong with it. -/
def outcomeSweep (outcome : Except String String) : SweepEnv where
  clock := 0
  scan _ := outcome.map fun trust => { sha256 := "aa", trustError := trust }
  reach _ _ := .error "no such host"
  lookup _ := .error "no such domain"

theorem demoEndpoint_sole : demoEndpoint.Sole 1 "a" 443 where
  row := by decide
  host_ne := by decide
  port_ne := by decide
  alone := by
    intro id r hrow _ _ _
    have hid : id = 1 ∨ demoEndpoint.certs.get? id = none := by
      rw [demoEndpoint, Table.get?_insert, Table.get?_empty]
      exact (em (id = 1)).imp_right fun hne => if_neg hne
    exact hid.resolve_right (by simp [hrow])

theorem transitions_logged_demo :
    Meets (watch sweepStep (noteScan 1)) (LogsTransitions 1) (demoEndpoint, none)
        [outcomeSweep (.error "refused"), outcomeSweep (.ok "")] ↔
      [outcomeSweep (.error "refused"), outcomeSweep (.ok "")] = [] ∨
        (demoEndpoint.certs.get? 1).map CertRow.lastError = some "" ∧
          Meets sweepStep (TellsFailure 1) demoEndpoint
            [outcomeSweep (.error "refused"), outcomeSweep (.ok "")].dropLast :=
  (transitions_logged_iff demoEndpoint 1 _).2 "a" 443 demoEndpoint_sole

/-- An endpoint that is not trusted is said to recover though no scan failed, and a failure
after it is not logged. -/
theorem untrusted_misread :
    ¬ Meets (watch sweepStep (noteScan 1)) (LogsTransitions 1) (demoEndpoint, none)
        [outcomeSweep (.ok "self-signed"), outcomeSweep (.ok "")] ∧
      ¬ Meets (watch sweepStep (noteScan 1)) (LogsTransitions 1) (demoEndpoint, none)
        [outcomeSweep (.ok "self-signed"), outcomeSweep (.error "refused")] := by
  decide +kernel

end CertGuard
