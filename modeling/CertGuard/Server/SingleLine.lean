import CertGuard.Server.ActivityLog

/-!
# Names and categories on a single line

A name may end up in a mail header, a calendar line or a log line. Requests that create or change
an entry sanitize the name and the category they are given. Requests to scan or to track a domain
do not, and a name that was stored is there for whatever is done to the entry later.

## Main definitions

* `IsControl`, `ControlFree` — control characters, and texts without any
* `Store.LabelsClean` — no stored name or category has one
* `LabelOp` — a request or a sweep
* `Upsert.label`, `Upsert.NamedClean` — the name recorded for a new entry
* `LabelOp.NamesClean` — every entry that is added is named without control characters

## Main results

* `controlFree_sanitizeLabel` — what a sanitized label is
* `labels_clean_iff` — labels stay clean exactly in runs of such operations
* `scanned_name_breaks_line` — and a request that brings in a line break
-/

namespace CertGuard

open Transition

/-! ### Labels -/

/-- A control character of C0 other than the tab, DEL, or one of C1. -/
def IsControl (c : Char) : Prop :=
  c.toNat < 0x20 ∧ c ≠ '\t' ∨ c.toNat = 0x7f ∨ 0x80 ≤ c.toNat ∧ c.toNat ≤ 0x9f

instance (c : Char) : Decidable (IsControl c) := inferInstanceAs (Decidable (_ ∨ _))

/-- A text without control characters. -/
def ControlFree (t : String) : Prop := ∀ c ∈ t.toList, ¬ IsControl c

instance (t : String) : Decidable (ControlFree t) := List.decidableBAll _ t.toList

/-- The name and the category of an entry. -/
def Store.labels (s : Store) (id : Int) : Option (String × String) :=
  (s.certs.get? id).map fun r => (r.name, r.category)

/-- No name and no category has a control character. -/
def Store.LabelsClean (s : Store) : Prop :=
  ∀ id l, s.labels id = some l → ControlFree l.1 ∧ ControlFree l.2

/-! ### Operations -/

/-- A request, or a sweep. -/
inductive LabelOp
  | inventory (op : InventoryOp)
  | update (actor : String) (now : Int) (path : Option Int) (body : Option UpdateCertRequest)
  | delete (actor : String) (now : Int) (path : Option Int)

/-- The store after an operation. -/
def LabelOp.apply (s : Store) : LabelOp → Store
  | inventory op => op.apply s
  | update actor now path body => (handleUpdateCert actor now s path body).1
  | delete actor now path => (handleDeleteCert actor now s path).1

/-- Operations run one at a time, and none is refused. -/
def labelStep (s : Store) (op : LabelOp) : Option Store := some (op.apply s)

namespace Upsert

/-- The name of a new entry: the one given, or that of its host. -/
def label : Upsert → String
  | scan name res => if name = "" then res.host else name
  | domain name res => if name = "" then res.domain else name

/-- If recording it adds an entry, then under a name without control characters. -/
def NamedClean (s : Store) (u : Upsert) : Prop := u.Adds s → ControlFree u.label

end Upsert

/-- No entry that an operation adds is named with a control character. -/
def InventoryOp.NamesClean (s : Store) : InventoryOp → Prop
  | scan _ _ outcome body => ∀ u, scanUpsert outcome body = some u → u.NamedClean s
  | trackDomain _ _ lookup body => ∀ u, trackUpsert lookup body = some u → u.NamedClean s
  | createCert .. => True
  | scanAll env => ∀ t ∈ turns (scanAllEndpoint env) s s.endpointsForRescan,
      ∀ u, endpointUpsert env t.2 = some u → u.NamedClean t.1
  | rescanCert env path => ∀ u, rescanUpsert env s path = some u → u.NamedClean s
  | sweep env =>
    let s' := s.endpointsForRescan.foldl (rescanEndpoint env) s
    (∀ t ∈ turns (rescanEndpoint env) s s.endpointsForRescan,
        ∀ u, endpointUpsert env t.2 = some u → u.NamedClean t.1) ∧
      ∀ t ∈ turns (rescanDomain env) s' s'.domainsForRefresh,
        ∀ u, domainUpsert env t.2 = some u → u.NamedClean t.1

@[inherit_doc InventoryOp.NamesClean]
def LabelOp.NamesClean (s : Store) : LabelOp → Prop
  | inventory op => op.NamesClean s
  | update .. => True
  | delete .. => True

variable {s s' : Store} {env : SweepEnv} {c : Cert} {u : Upsert} {id id' now : Int} {cs : List Cert}
variable {actor said : String}
  {path : Option Int}

/-! ### What is sanitized -/

theorem keepsRune_iff (c : Char) : keepsRune c = true ↔ ¬ IsControl c := by
  simp only [keepsRune, IsControl, Bool.or_eq_true, Bool.and_eq_true, decide_eq_true_eq,
    Bool.not_eq_true', Bool.and_eq_false_iff, decide_eq_false_iff_not]
  by_cases htab : c = '\t'
  · subst htab
    decide
  · simp only [htab, false_or, ne_eq, not_false_eq_true, and_true]
    omega

/-- Trimming takes characters away only. -/
theorem mem_of_mem_trimSpace {x : Char} {t : List Char} (h : x ∈ trimSpace t) : x ∈ t := by
  have hsub := (List.rdropWhile_prefix isSpace (t.dropWhile isSpace)).sublist.trans
    (List.dropWhile_sublist isSpace)
  exact hsub.subset h

/-- A sanitized label has no control characters. -/
theorem controlFree_sanitizeLabel (t : String) : ControlFree (sanitizeLabel t) := by
  intro x hx
  rw [sanitizeLabel, String.toList_ofList] at hx
  have hkept := (List.mem_filter.mp (mem_of_mem_trimSpace hx)).2
  exact (keepsRune_iff x).mp hkept

/-- And so it does not end a line. -/
theorem ControlFree.single_line {t : String} (h : ControlFree t) :
    '\r' ∉ t.toList ∧ '\n' ∉ t.toList :=
  ⟨fun hcr => h _ hcr (by decide), fun hlf => h _ hlf (by decide)⟩

/-! ### What each statement leaves -/

theorem labelsClean_congr (h : ∀ id, s'.labels id = s.labels id) :
    s'.LabelsClean ↔ s.LabelsClean := by
  simp only [Store.LabelsClean, h]

theorem Store.LabelsClean.of_row {r : CertRow} (hs : s.LabelsClean)
    (hrow : s.certs.get? id = some r) : ControlFree r.name ∧ ControlFree r.category :=
  hs id (r.name, r.category) (by rw [Store.labels, hrow, Option.map_some])

/-- A row is replaced by another with the same labels. -/
theorem labels_of_map {f : CertRow → CertRow}
    (hf : ∀ r, (f r).name = r.name ∧ (f r).category = r.category)
    (h : s'.certs.get? id = (s.certs.get? id).map f) : s'.labels id = s.labels id := by
  rw [Store.labels, Store.labels, h, Option.map_map]
  congr 1
  funext r
  rw [Function.comp_apply, (hf r).1, (hf r).2]

theorem labels_touchScanError {msg : String} :
    (s.touchScanError now id' msg).labels id = s.labels id := by
  refine labels_of_map (fun r => ?_) get?_certs_touchScanError
  split_ifs <;> exact ⟨rfl, rfl⟩

theorem labels_update {e : Cert} {r : CertRow} :
    (u.update now e r).name = r.name ∧ (u.update now e r).category = r.category := by
  cases u <;> exact ⟨rfl, rfl⟩

theorem newRow_labels (u : Upsert) (now : Int) :
    (u.newRow now).name = u.label ∧ ControlFree (u.newRow now).category := by
  have hcertificate : ControlFree "certificate" := by decide
  have hdomain : ControlFree "domain" := by decide
  cases u with
  | scan name res => exact ⟨rfl, hcertificate⟩
  | domain name res => exact ⟨rfl, hdomain⟩

/-- A row under a new key: labels are clean exactly if they were and those of the row are. -/
theorem labelsClean_of_added {k : Int} {l : String × String} (hnew : s.labels k = none)
    (hlabels : ∀ id, s'.labels id = if id = k then some l else s.labels id) :
    s'.LabelsClean ↔ s.LabelsClean ∧ ControlFree l.1 ∧ ControlFree l.2 := by
  constructor
  · intro hclean
    refine ⟨fun id l' hl' => hclean id l' ?_, hclean k l ?_⟩
    · -- the key of the row had no labels before
      have hold : id ≠ k := by
        rintro rfl
        rw [hnew] at hl'
        exact absurd hl' (by simp)
      rw [hlabels, if_neg hold, hl']
    · rw [hlabels, if_pos rfl]
  · rintro ⟨hclean, hfree⟩ id l' hl'
    rw [hlabels] at hl'
    split_ifs at hl'
    · obtain rfl := Option.some.inj hl'
      exact hfree
    · exact hclean id l' hl'

theorem labels_nextKey : s.labels s.certs.nextKey = none := by
  rw [Store.labels, Table.get?_nextKey, Option.map_none]

/-- Labels are clean after something was recorded exactly if they were and it adds no entry
that is named otherwise. -/
theorem labelsClean_write (u : Upsert) (now : Int) :
    (u.write s now (u.find s)).1.LabelsClean ↔ s.LabelsClean ∧ u.NamedClean s := by
  cases hfind : u.find s with
  | some e =>
    -- the entry that was found keeps its name
    have hnamed : u.NamedClean s := by
      intro hadds
      rw [Upsert.Adds, hfind] at hadds
      exact absurd hadds (by simp)
    have hsame : ∀ id, (u.write s now (some e)).1.labels id = s.labels id := by
      intro id
      refine labels_of_map (fun r => ?_) Upsert.get?_write_some
      split_ifs
      · exact labels_update
      · exact ⟨rfl, rfl⟩
    rw [labelsClean_congr hsame]
    exact (and_iff_left hnamed).symm
  | none =>
    obtain ⟨hname, hcategory⟩ := newRow_labels u now
    have hlabels : ∀ id, (u.write s now none).1.labels id = if id = s.certs.nextKey then
        some ((u.newRow now).name, (u.newRow now).category) else s.labels id := by
      intro id
      rw [Store.labels, Upsert.get?_write_none]
      split_ifs <;> rfl
    have hcond : u.NamedClean s ↔ ControlFree (u.newRow now).name := by
      rw [Upsert.NamedClean, Upsert.Adds, hname]
      exact ⟨fun h => h hfind, fun h _ => h⟩
    rw [labelsClean_of_added labels_nextKey hlabels, hcond]
    exact and_congr_right fun _ => and_iff_left hcategory

/-- Writing clean labels to an entry keeps labels clean. -/
theorem labelsClean_updateEntry {name category notes : String} (hs : s.LabelsClean)
    (hname : ControlFree name) (hcategory : ControlFree category)
    (h : s.updateEntry id name category notes = some s') : s'.LabelsClean := by
  rw [Store.updateEntry, Store.updateActive] at h
  split_ifs at h
  obtain rfl := Option.some.inj h
  intro id' l hl
  simp only [Store.labels, Table.get?_modify] at hl
  split_ifs at hl with hid
  · obtain ⟨r', hmap, rfl⟩ := Option.map_eq_some_iff.mp hl
    obtain ⟨r, -, rfl⟩ := Option.map_eq_some_iff.mp hmap
    exact ⟨hname, hcategory⟩
  · exact hs id' l hl

/-- A note is written with the labels that were read. -/
theorem labels_applyNotes {notes : String} {r : CertRow} (hrow : s.certs.get? id = some r) :
    (applyNotes s (some (scanRowValues id r)) notes).1.labels id' = s.labels id' := by
  simp only [applyNotes, Store.updateEntry, Store.updateActive]
  split_ifs
  · rfl
  · simp only [Store.labels, Table.get?_modify]
    split_ifs with hid
    · obtain rfl : id' = id := hid
      rw [hrow]
      rfl
    · rfl
  · rfl

theorem labels_setSecret {enc : Cipher} (h : s.setSecret id enc = some s') :
    s'.labels id' = s.labels id' := by
  unfold Store.setSecret at h
  split at h
  · split_ifs at h
    obtain rfl := Option.some.inj h
    simp only [Store.labels, Table.get?_modify]
    split_ifs
    · cases s.certs.get? id' <;> rfl
    · rfl
  · exact absurd h (by simp)

theorem labels_storeSecret {h : Host} {value : String}
    (hstored : storeSecret h id value = .ok (some s')) : s'.labels id' = h.store.labels id' := by
  unfold storeSecret at hstored
  split_ifs at hstored
  · exact labels_setSecret (Except.ok.inj hstored)
  · split at hstored
    · exact absurd hstored (by simp)
    · exact labels_setSecret (Except.ok.inj hstored)

theorem labels_recordEvent {kind : EventKind} {c : Option Cert} :
    (recordEvent actor now s kind c said).labels id = s.labels id := by
  cases c <;> rfl

/-! ### What each step leaves -/

/-- A request to scan or to track keeps labels clean if it adds no entry named otherwise. -/
theorem labelsClean_addUpsert (now : Int) (s : Store) (u : Upsert) (notes : String) :
    (addUpsert actor now s u notes said).1.LabelsClean ↔ s.LabelsClean ∧ u.NamedClean s := by
  obtain ⟨r, hrow, hstored⟩ := exists_written s now u
  have hsame : ∀ id, (addUpsert actor now s u notes said).1.labels id =
      (u.write s now (u.find s)).1.labels id := by
    intro id
    simp only [addUpsert, labels_recordEvent, hstored]
    exact labels_applyNotes hrow
  rw [labelsClean_congr hsame, labelsClean_write]

theorem labelsClean_scanAllEndpoint (env : SweepEnv) (s : Store) (c : Cert) :
    (scanAllEndpoint env s c).LabelsClean ↔
      s.LabelsClean ∧ ∀ u, endpointUpsert env c = some u → u.NamedClean s := by
  cases hscan : env.scan c with
  | error msg =>
    simp only [endpointUpsert, scanAllEndpoint, hscan, reduceCtorEq, false_imp_iff, implies_true,
      and_true]
    exact labelsClean_congr fun _ => labels_touchScanError
  | ok served =>
    simp only [endpointUpsert, scanAllEndpoint, hscan, Option.some.injEq, forall_eq']
    exact labelsClean_write _ _

theorem labelsClean_rescanEndpoint (env : SweepEnv) (s : Store) (c : Cert) :
    (rescanEndpoint env s c).LabelsClean ↔
      s.LabelsClean ∧ ∀ u, endpointUpsert env c = some u → u.NamedClean s := by
  cases hscan : env.scan c with
  | error msg =>
    simp only [endpointUpsert, hscan, reduceCtorEq, false_imp_iff, implies_true, and_true]
    refine labelsClean_congr fun id => ?_
    rw [rescanEndpoint_error hscan, labels_touchScanError]
    split_ifs <;> rfl
  | ok served =>
    simp only [endpointUpsert, hscan, Option.some.injEq, forall_eq']
    obtain ⟨r, hrow, hstored⟩ := exists_written s env.clock (c.scanned served)
    have hread := (getByID_write (s := s) (c.scanned served) env.clock).trans hstored
    -- what follows the upsert, a line of the log and the coverage, touches no label
    have hsame : ∀ id, (rescanEndpoint env s c).labels id =
        ((c.scanned served).write s env.clock ((c.scanned served).find s)).1.labels id := by
      intro id
      rw [rescanEndpoint_ok hscan hstored]
      refine labels_of_map (fun r => ?_) (get?_certs_afterScan hread)
      obtain ⟨json, time, hcover⟩ := coverRow_eq env id r
      rw [hcover]
      split_ifs <;> exact ⟨rfl, rfl⟩
    rw [labelsClean_congr hsame, labelsClean_write]

theorem labelsClean_rescanDomain (env : SweepEnv) (s : Store) (c : Cert) :
    (rescanDomain env s c).LabelsClean ↔
      s.LabelsClean ∧ ∀ u, domainUpsert env c = some u → u.NamedClean s := by
  cases hlookup : env.lookup c with
  | error msg =>
    simp only [domainUpsert, rescanDomain, hlookup, reduceCtorEq, false_imp_iff, implies_true,
      and_true]
    exact labelsClean_congr fun _ => labels_touchScanError
  | ok res =>
    simp only [domainUpsert, rescanDomain, hlookup, Option.some.injEq, forall_eq']
    exact labelsClean_write (.domain c.name res) env.clock

/-- A loop keeps labels clean exactly if each of its turns does. -/
theorem labelsClean_foldl {body : Store → Cert → Store} {named : Store → Cert → Prop}
    (hbody : ∀ s c, (body s c).LabelsClean ↔ s.LabelsClean ∧ named s c) (s : Store)
    (cs : List Cert) :
    (cs.foldl body s).LabelsClean ↔ s.LabelsClean ∧ ∀ t ∈ turns body s cs, named t.1 t.2 := by
  induction cs generalizing s with
  | nil => simp [turns]
  | cons c cs ih => rw [List.foldl_cons, ih, hbody, turns, List.forall_mem_cons, and_assoc]

/-! ### What each operation leaves -/

theorem labelsClean_handleScan {outcome : String → Int → String → Except String Served}
    {body : Option ScanRequest} : (handleScan actor now outcome s body).1.LabelsClean ↔
      s.LabelsClean ∧ ∀ u, scanUpsert outcome body = some u → u.NamedClean s := by
  rcases body with _ | req
  · simp [handleScan, scanUpsert]
  cases htarget : req.target with
  | error msg => simp [handleScan, scanUpsert, htarget]
  | ok target =>
    obtain ⟨host, port⟩ := target
    cases hscan : outcome host port req.serverName with
    | error msg => simp [handleScan, scanUpsert, htarget, hscan]
    | ok served =>
      simp only [handleScan, scanUpsert, htarget, hscan]
      split_ifs
      · simp
      · simp only [Option.some.injEq, forall_eq']
        exact labelsClean_addUpsert now s _ req.notes

theorem labelsClean_handleTrackDomain {lookup : String → Except LookupError DomainResult}
    {body : Option TrackRequest} : (handleTrackDomain actor now lookup s body).1.LabelsClean ↔
      s.LabelsClean ∧ ∀ u, trackUpsert lookup body = some u → u.NamedClean s := by
  rcases body with _ | req
  · simp [handleTrackDomain, trackUpsert]
  by_cases hblank : trimSpace req.domain.toList = []
  · simp [handleTrackDomain, trackUpsert, hblank]
  · simp only [handleTrackDomain, trackUpsert, if_neg hblank]
    cases hlookup : lookup req.domain with
    | error e => simp
    | ok res =>
      simp only [Option.some.injEq, forall_eq']
      exact labelsClean_addUpsert now s (.domain req.name res) req.notes

theorem labelsClean_handleRescanCert : (handleRescanCert env s path).1.LabelsClean ↔
    s.LabelsClean ∧ ∀ u, rescanUpsert env s path = some u → u.NamedClean s := by
  -- a failure changes no label
  have hfailed : ∀ id msg, (s.touchScanError env.clock id msg).LabelsClean ↔ s.LabelsClean :=
    fun id msg => labelsClean_congr fun _ => labels_touchScanError
  rcases path with _ | id
  · simp [handleRescanCert, withID, rescanUpsert]
  simp only [handleRescanCert, withID, rescanUpsert, Option.bind_some]
  cases hread : s.getByID id with
  | none => simp
  | some c =>
    simp only [rescanEntry]
    split_ifs
    · cases hlookup : env.lookup c with
      | error msg => simp [hfailed]
      | ok res =>
        simp only [Option.some.injEq, forall_eq']
        exact labelsClean_write (.domain c.name res) env.clock
    · simp
    · cases hscan : env.scan c with
      | error msg => simp [hfailed]
      | ok served =>
        simp only [Option.some.injEq, forall_eq']
        exact labelsClean_write (c.scanned served) env.clock

theorem labelsClean_addCert (now expires : Int) (req : CreateCertRequest) (hs : s.LabelsClean) :
    (s.addCert (createRow now expires req)).LabelsClean := by
  have hlabels : ∀ id, (s.addCert (createRow now expires req)).labels id =
      if id = s.certs.nextKey then some (sanitizeLabel req.name, sanitizeLabel req.category)
      else s.labels id := by
    intro id
    simp only [Store.labels, Store.addCert, Table.get?_insert]
    split_ifs <;> rfl
  refine (labelsClean_of_added labels_nextKey hlabels).mpr ⟨hs, ?_⟩
  exact ⟨controlFree_sanitizeLabel req.name, controlFree_sanitizeLabel req.category⟩

theorem labelsClean_handleCreateCert (now : Int) (h : Host) (body : Option CreateCertRequest)
    (hs : h.store.LabelsClean) : (handleCreateCert actor now h body).1.LabelsClean := by
  rcases body with _ | req
  · exact hs
  by_cases hname : sanitizeLabel req.name = ""
  · simp only [handleCreateCert, if_pos hname]
    exact hs
  cases hexpires : req.expiresAt with
  | none =>
    simp only [handleCreateCert, if_neg hname, hexpires]
    exact hs
  | some expires =>
    simp only [handleCreateCert, if_neg hname, hexpires, entryCreated]
    rw [labelsClean_congr fun _ => labels_recordEvent]
    have hadded := labelsClean_addCert now expires req hs
    -- a secret may be stored with it
    split_ifs
    · split
      · next s' hsecret => exact (labelsClean_congr fun _ => labels_storeSecret hsecret).mpr hadded
      · exact hadded
    · exact hadded

theorem labelsClean_handleUpdateCert {body : Option UpdateCertRequest} (hs : s.LabelsClean) :
    (handleUpdateCert actor now s path body).1.LabelsClean := by
  rcases path with _ | id
  · exact hs
  rcases body with _ | req
  · exact hs
  simp only [handleUpdateCert, withID]
  split_ifs
  · exact hs
  · split
    · exact hs
    · next s' hupdated =>
      rw [labelsClean_congr fun _ => labels_recordEvent]
      exact labelsClean_updateEntry hs (controlFree_sanitizeLabel _) (controlFree_sanitizeLabel _)
        hupdated

theorem labelsClean_handleDeleteCert (hs : s.LabelsClean) :
    (handleDeleteCert actor now s path).1.LabelsClean := by
  rcases path with _ | id
  · exact hs
  simp only [handleDeleteCert, withID, Store.softDelete, Store.updateActive]
  split_ifs
  · rw [labelsClean_congr fun _ => labels_recordEvent, labelsClean_congr fun id' => ?_]
    · exact hs
    · simp only [Store.labels, Table.get?_modify]
      split_ifs
      · cases s.certs.get? id' <;> rfl
      · rfl
  · exact hs

/-- An operation keeps labels clean exactly if it adds no entry that is named otherwise. -/
theorem labelsClean_apply (op : LabelOp) (hs : s.LabelsClean) :
    (op.apply s).LabelsClean ↔ op.NamesClean s := by
  cases op with
  | update actor now path body => exact iff_of_true (labelsClean_handleUpdateCert hs) trivial
  | delete actor now path => exact iff_of_true (labelsClean_handleDeleteCert hs) trivial
  | inventory op =>
    cases op with
    | scan actor now outcome body => exact labelsClean_handleScan.trans (and_iff_right hs)
    | trackDomain actor now lookup body =>
      exact labelsClean_handleTrackDomain.trans (and_iff_right hs)
    | createCert actor now vault keyFile body =>
      exact iff_of_true (labelsClean_handleCreateCert now _ body hs) trivial
    | rescanCert env path => exact labelsClean_handleRescanCert.trans (and_iff_right hs)
    | scanAll env =>
      have hscans := labelsClean_foldl (fun s c => labelsClean_scanAllEndpoint env s c) s
        s.endpointsForRescan
      exact hscans.trans (and_iff_right hs)
    | sweep env =>
      have hscans := labelsClean_foldl (fun s c => labelsClean_rescanEndpoint env s c) s
        s.endpointsForRescan
      -- the domains are looked up in what the scans left
      have hlookups := labelsClean_foldl (fun s c => labelsClean_rescanDomain env s c)
        (s.endpointsForRescan.foldl (rescanEndpoint env) s)
        (s.endpointsForRescan.foldl (rescanEndpoint env) s).domainsForRefresh
      refine hlookups.trans ?_
      rw [hscans, and_assoc]
      exact and_iff_right hs

/-- For every run of requests and sweeps: every stored name and category is free of control
characters, in every state reached, exactly if no operation adds an entry whose name, as given in
the request or else that of its host, has one. -/
theorem labels_clean_iff {s : Store} (hs : s.LabelsClean) (ops : List LabelOp) :
    Always labelStep Store.LabelsClean s ops ↔
      Meets labelStep (fun s op => op.NamesClean s) s ops := by
  refine always_iff_meets_of_step hs (fun s op s' hclean hstep => ?_) fun s op hstep => ?_
  · obtain rfl := Option.some.inj hstep
    exact labelsClean_apply op hclean
  · exact absurd hstep (by simp [labelStep])

theorem labelsClean_empty : ({} : Store).LabelsClean := by
  intro id l hl
  exact absurd hl (by simp [Store.labels])

/-- A scan of an address that answers. -/
def scanUnder (name : String) : LabelOp :=
  .inventory (.scan "" 0 (fun _ _ _ => .ok { sha256 := "aa" })
    (some { target := .ok ("a", 443), name := name }))

/-- An address is scanned under a name, and its entry given one with a line break. -/
def demoRenamed : List LabelOp :=
  [scanUnder "web", .update "" 0 (some 1) (some { name := "web\r\nBcc: x" })]

/-- The line break is taken out. -/
theorem labels_clean_demo : Always labelStep Store.LabelsClean {} demoRenamed := by
  refine (labels_clean_iff labelsClean_empty demoRenamed).mpr ?_
  refine meets_cons.mpr ⟨?_, fun s' _ => meets_cons.mpr ⟨trivial, fun _ _ => meets_nil⟩⟩
  rintro u hu -
  obtain rfl := Option.some.inj hu
  decide

/-- The same name given to the scan is stored with its line break. -/
theorem scanned_name_breaks_line :
    ¬ Always labelStep Store.LabelsClean {} [scanUnder "web\r\nBcc: x"] := by
  intro h
  have hclean := h [scanUnder "web\r\nBcc: x"] _ (List.prefix_refl _) rfl
  have hname := (hclean 1 ("web\r\nBcc: x", "certificate") (by decide +kernel)).1
  exact absurd hname (by decide)

/-! ### Entries that are looked at again -/

/-- What is recorded for an entry that has a name is recorded under this name, so that only
requests that bring a name with them matter. -/
theorem namedClean_of_read (hs : s.LabelsClean) (hread : s.getByID id = some c)
    (hname : c.name ≠ "") (hu : endpointUpsert env c = some u ∨ domainUpsert env c = some u) :
    u.NamedClean s' := by
  intro _
  obtain ⟨r, hrow, rfl⟩ := Option.map_eq_some_iff.mp hread
  have hclean : ControlFree (scanRowValues id r).name := (hs.of_row hrow).1
  -- the entry is found again under its own name
  have hlabel : u.label = (scanRowValues id r).name := by
    rcases hu with hu | hu
    · unfold endpointUpsert at hu
      split at hu
      · exact absurd hu (by simp)
      · obtain rfl := Option.some.inj hu
        exact if_neg hname
    · unfold domainUpsert at hu
      split at hu
      · exact absurd hu (by simp)
      · obtain rfl := Option.some.inj hu
        exact if_neg hname
  rw [hlabel]
  exact hclean

end CertGuard
