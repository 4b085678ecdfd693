import CertGuard.Lib.TimeLayout
import CertGuard.Lib.TimeOrder
import CertGuard.Server.SingleLine

/-!
# Dates in the store

A date of expiry is stored as text, to the second, and the inventory is sorted by that text. A
year of four digits is read back, and sorts, as it should; a zone can take a date out of these
years, and then the text is not read any more.

## Main definitions

* `parseFlexDate` — the dates a request may give
* `SameDates`, `Redates` — entries keep their dates, or get dates of a kind
* `LabelOp.Dated` — an operation stores dates in years of four digits only
* `Store.ListSorted` — the inventory is sorted by expiry

## Main results

* `created_date_iff` — the dates that are read back
* `stored_dates_kept` — and, in runs that store such dates only, the inventory is sorted
* `zone_loses_date` — a date that is not read back
-/

namespace CertGuard

open Transition Rfc3339

/-- `parseFlexDate`. A timestamp is read by its layout where the quick way does not do. -/
def parseFlexDate (s : String) : Option Int :=
  if s = "" then none
  else
    (TimeLayout.parseDate s.toList).orElse fun _ =>
      (Rfc3339.parse s.toList).orElse fun _ => TimeLayout.parseTimestamp s.toList

/-- The inventory is listed by expiry. -/
def Store.ListSorted (s : Store) : Prop := (s.list.map Cert.expiresAt).Pairwise (· ≤ ·)

/-- The date an upsert stores. -/
def Upsert.date : Upsert → Int
  | scan _ res => res.notAfter
  | domain _ res => res.expiresAt

/-- Whatever an operation stores as a date is in a year of four digits. -/
def InventoryOp.Dated (s : Store) : InventoryOp → Prop
  | scan _ _ outcome body => ∀ u, scanUpsert outcome body = some u → FourDigitYear u.date
  | trackDomain _ _ lookup body => ∀ u, trackUpsert lookup body = some u → FourDigitYear u.date
  | createCert _ _ _ _ body => ∀ req ∈ body, ∀ t ∈ req.expiresAt, FourDigitYear t
  | scanAll env => ∀ t ∈ turns (scanAllEndpoint env) s s.endpointsForRescan,
      ∀ u, endpointUpsert env t.2 = some u → FourDigitYear u.date
  | rescanCert env path => ∀ u, rescanUpsert env s path = some u → FourDigitYear u.date
  | sweep env =>
    let s' := s.endpointsForRescan.foldl (rescanEndpoint env) s
    (∀ t ∈ turns (rescanEndpoint env) s s.endpointsForRescan,
        ∀ u, endpointUpsert env t.2 = some u → FourDigitYear u.date) ∧
      ∀ t ∈ turns (rescanDomain env) s' s'.domainsForRefresh,
        ∀ u, domainUpsert env t.2 = some u → FourDigitYear u.date

@[inherit_doc InventoryOp.Dated]
def LabelOp.Dated (s : Store) : LabelOp → Prop
  | inventory op => op.Dated s
  | update .. => True
  | delete .. => True

/-- The date of an entry, as it is stored. -/
def Store.dateText (s : Store) (id : Int) : Option (List Char) :=
  (s.certs.get? id).map CertRow.expiresAt

/-- From one store to the next, entries keep their dates. -/
def SameDates (s s' : Store) : Prop := ∀ id, s'.dateText id = s.dateText id

/-- From one store to the next, entries keep their dates or get dates of a kind. -/
def Redates (D : Int → Prop) (s s' : Store) : Prop :=
  ∀ id text, s'.dateText id = some text →
    s.dateText id = some text ∨ ∃ t, D t ∧ text = Rfc3339.format t

/-- Every date is stored as a text that is read back. -/
def Store.DatesReadable (s : Store) : Prop :=
  ∀ id text, s.dateText id = some text → ∃ t, FourDigitYear t ∧ text = Rfc3339.format t

variable {s s' s'' : Store} {D : Int → Prop} {env : SweepEnv} {c : Cert} {u : Upsert}
variable {id now t : Int} {path : Option Int} {cs : List Cert} {req : CreateCertRequest}
variable {actor said : String}

/-! ### Stores with the same dates -/

theorem SameDates.refl (s : Store) : SameDates s s := fun _ => rfl

theorem SameDates.trans (h : SameDates s s') (h' : SameDates s' s'') : SameDates s s'' :=
  fun id => (h' id).trans (h id)

theorem SameDates.of_map {f : Int → CertRow → CertRow}
    (hf : ∀ id r, (f id r).expiresAt = r.expiresAt)
    (h : ∀ id, s'.certs.get? id = (s.certs.get? id).map (f id)) : SameDates s s' := by
  intro id
  rw [Store.dateText, Store.dateText, h, Option.map_map]
  congr 1
  funext r
  exact hf id r

theorem SameDates.redates (h : SameDates s s') : Redates D s s' :=
  fun id _ htext => .inl ((h id).symm.trans htext)

theorem sameDates_touchScanError {msg : String} : SameDates s (s.touchScanError now id msg) :=
  SameDates.of_map (fun _ r => by split_ifs <;> rfl) fun _ => get?_certs_touchScanError

theorem sameDates_modify {f : CertRow → CertRow} (hf : ∀ r, (f r).expiresAt = r.expiresAt)
    (h : s'.certs = s.certs.modify id f) : SameDates s s' := by
  intro id'
  rw [Store.dateText, Store.dateText, h, Table.get?_modify]
  split_ifs
  · rw [Option.map_map]
    congr 1
    funext r
    exact hf r
  · rfl

theorem sameDates_updateActive {f : CertRow → CertRow} (hf : ∀ r, (f r).expiresAt = r.expiresAt)
    (h : s.updateActive id f = some s') : SameDates s s' := by
  unfold Store.updateActive at h
  split_ifs at h
  obtain rfl := Option.some.inj h
  exact sameDates_modify hf rfl

theorem sameDates_updateEntry {name category notes : String}
    (h : s.updateEntry id name category notes = some s') : SameDates s s' :=
  sameDates_updateActive
    (f := fun r => { r with name := name, category := category, notes := notes }) (fun _ => rfl) h

theorem sameDates_softDelete (h : s.softDelete id = some s') : SameDates s s' :=
  sameDates_updateActive (f := fun r => { r with active := false }) (fun _ => rfl) h

theorem sameDates_recordEvent {kind : EventKind} {c : Option Cert} :
    SameDates s (recordEvent actor now s kind c said) := by
  cases c <;> exact fun _ => rfl

theorem sameDates_applyNotes {c : Option Cert} {notes : String} :
    SameDates s (applyNotes s c notes).1 := by
  unfold applyNotes
  split
  · exact SameDates.refl s
  · split_ifs
    · exact SameDates.refl s
    · split
      · exact SameDates.refl s
      · next s' hupdate => exact sameDates_updateEntry hupdate

theorem sameDates_setSecret {enc : Cipher} (h : s.setSecret id enc = some s') :
    SameDates s s' := by
  unfold Store.setSecret at h
  split at h
  · split_ifs at h
    obtain rfl := Option.some.inj h
    exact sameDates_modify (f := fun r => { r with secretEnc := enc }) (fun _ => rfl) rfl
  · exact absurd h (by simp)

theorem sameDates_storeSecret {h : Host} {value : String}
    (hstored : storeSecret h id value = .ok (some s')) : SameDates h.store s' := by
  unfold storeSecret at hstored
  split_ifs at hstored
  · exact sameDates_setSecret (Except.ok.inj hstored)
  · split at hstored
    · exact absurd hstored (by simp)
    · exact sameDates_setSecret (Except.ok.inj hstored)

/-! ### Stores with other dates -/

theorem Redates.refl (s : Store) : Redates D s s := (SameDates.refl s).redates

theorem Redates.trans (h : Redates D s s') (h' : Redates D s' s'') : Redates D s s'' := by
  intro id text htext
  rcases h' id text htext with hold | hnew
  · exact h id text hold
  · exact .inr hnew

/-- Only the date of what is recorded comes in. -/
theorem Redates.write (u : Upsert) (now : Int) (h : D u.date) :
    Redates D s (u.write s now (u.find s)).1 := by
  have hupdate : ∀ e r, (u.update now e r).expiresAt = Rfc3339.format u.date := by
    intro e r
    cases u <;> rfl
  have hnew : (u.newRow now).expiresAt = Rfc3339.format u.date := by cases u <;> rfl
  intro id text htext
  cases hfind : u.find s with
  | some e =>
    rw [hfind, Store.dateText, Upsert.get?_write_some, Option.map_map] at htext
    obtain ⟨r, hr, rfl⟩ := Option.map_eq_some_iff.mp htext
    by_cases hid : id = e.id
    · rw [Function.comp_apply, if_pos hid]
      exact .inr ⟨u.date, h, hupdate e r⟩
    · rw [Function.comp_apply, if_neg hid]
      exact .inl (Option.map_eq_some_iff.mpr ⟨r, hr, rfl⟩)
  | none =>
    rw [hfind, Store.dateText, Upsert.get?_write_none] at htext
    split_ifs at htext
    · obtain rfl := Option.some.inj htext
      exact .inr ⟨u.date, h, hnew⟩
    · exact .inl htext

/-! ### What each operation does to dates -/

theorem redates_addUpsert (now : Int) (u : Upsert) (notes : String) (h : D u.date) :
    Redates D s (addUpsert actor now s u notes said).1 :=
  (Redates.write u now h).trans (sameDates_applyNotes.trans sameDates_recordEvent).redates

theorem redates_scanAllEndpoint (h : ∀ u, endpointUpsert env c = some u → D u.date) :
    Redates D s (scanAllEndpoint env s c) := by
  unfold scanAllEndpoint
  unfold endpointUpsert at h
  cases hscan : env.scan c with
  | error msg => exact sameDates_touchScanError.redates
  | ok served =>
    rw [hscan] at h
    exact Redates.write _ _ (h _ rfl)

theorem redates_rescanEndpoint (h : ∀ u, endpointUpsert env c = some u → D u.date) :
    Redates D s (rescanEndpoint env s c) := by
  unfold endpointUpsert at h
  cases hscan : env.scan c with
  | error msg =>
    rw [rescanEndpoint_error hscan]
    refine Redates.trans ?_ sameDates_touchScanError.redates
    split_ifs
    · exact fun _ _ htext => .inl htext
    · exact Redates.refl s
  | ok served =>
    rw [hscan] at h
    obtain ⟨r, hrow, hstored⟩ := exists_written s env.clock (c.scanned served)
    have hread := (getByID_write (s := s) (c.scanned served) env.clock).trans hstored
    rw [rescanEndpoint_ok hscan hstored]
    refine (Redates.write (c.scanned served) env.clock (h _ rfl)).trans ?_
    refine (SameDates.of_map (fun id r => ?_) fun id => get?_certs_afterScan hread).redates
    obtain ⟨json, time, hcover⟩ := coverRow_eq env id r
    rw [hcover]
    split_ifs <;> rfl

theorem redates_rescanDomain (h : ∀ u, domainUpsert env c = some u → D u.date) :
    Redates D s (rescanDomain env s c) := by
  unfold rescanDomain
  unfold domainUpsert at h
  cases hlookup : env.lookup c with
  | error msg => exact sameDates_touchScanError.redates
  | ok res =>
    rw [hlookup] at h
    exact Redates.write (.domain c.name res) env.clock (h _ rfl)

/-- A loop brings in the dates its turns bring in. -/
theorem redates_foldl {body : Store → Cert → Store} {dated : Cert → Prop}
    (hbody : ∀ s c, dated c → Redates D s (body s c)) (s : Store) (cs : List Cert)
    (h : ∀ t ∈ turns body s cs, dated t.2) : Redates D s (cs.foldl body s) := by
  induction cs generalizing s with
  | nil => exact Redates.refl s
  | cons c cs ih =>
    rw [turns, List.forall_mem_cons] at h
    exact (hbody s c h.1).trans (ih (body s c) h.2)

theorem redates_handleScan {outcome : String → Int → String → Except String Served}
    {body : Option ScanRequest} (h : ∀ u, scanUpsert outcome body = some u → D u.date) :
    Redates D s (handleScan actor now outcome s body).1 := by
  rcases body with _ | req
  · exact Redates.refl s
  cases htarget : req.target with
  | error msg =>
    simp only [handleScan, htarget]
    exact Redates.refl s
  | ok target =>
    obtain ⟨host, port⟩ := target
    cases hscan : outcome host port req.serverName with
    | error msg =>
      simp only [handleScan, htarget, hscan]
      exact Redates.refl s
    | ok served =>
      simp only [scanUpsert, htarget, hscan] at h
      simp only [handleScan, htarget, hscan]
      split_ifs at h ⊢
      · exact Redates.refl s
      · exact redates_addUpsert now _ req.notes (h _ rfl)

theorem redates_handleTrackDomain {lookup : String → Except LookupError DomainResult}
    {body : Option TrackRequest} (h : ∀ u, trackUpsert lookup body = some u → D u.date) :
    Redates D s (handleTrackDomain actor now lookup s body).1 := by
  rcases body with _ | req
  · exact Redates.refl s
  simp only [trackUpsert] at h
  simp only [handleTrackDomain]
  split_ifs at h ⊢
  · exact Redates.refl s
  · cases hlookup : lookup req.domain with
    | error e => exact Redates.refl s
    | ok res =>
      rw [hlookup] at h
      exact redates_addUpsert now _ req.notes (h _ rfl)

theorem redates_handleRescanCert (h : ∀ u, rescanUpsert env s path = some u → D u.date) :
    Redates D s (handleRescanCert env s path).1 := by
  rcases path with _ | id
  · exact Redates.refl s
  simp only [rescanUpsert, Option.bind_some] at h
  simp only [handleRescanCert, withID]
  cases hread : s.getByID id with
  | none => exact Redates.refl s
  | some c =>
    simp only [hread] at h
    simp only [rescanEntry]
    split_ifs at h ⊢
    · cases hlookup : env.lookup c with
      | error msg => exact sameDates_touchScanError.redates
      | ok res =>
        simp only [hlookup] at h
        exact Redates.write (.domain c.name res) env.clock (h _ rfl)
    · exact Redates.refl s
    · cases hscan : env.scan c with
      | error msg => exact sameDates_touchScanError.redates
      | ok served =>
        simp only [hscan] at h
        exact Redates.write (c.scanned served) env.clock (h _ rfl)

theorem dateText_addCert {expires : Int} :
    (s.addCert (createRow now expires req)).dateText id =
      if id = s.certs.nextKey then some (Rfc3339.format expires) else s.dateText id := by
  rw [Store.dateText, Store.addCert, Table.get?_insert]
  split_ifs <;> rfl

/-- A new entry gets the date it is created with. -/
theorem redates_addCert {expires : Int} (h : D expires) :
    Redates D s (s.addCert (createRow now expires req)) := by
  intro id text htext
  rw [dateText_addCert] at htext
  split_ifs at htext
  · exact .inr ⟨expires, h, (Option.some.inj htext).symm⟩
  · exact .inl htext

/-- What a request to create an entry does to the store, where it is not refused: the entry is
added, and then nothing changes but the secret and the log. -/
theorem sameDates_handleCreateCert (h : Host) (hname : sanitizeLabel req.name ≠ "")
    {expires : Int} (hexpires : req.expiresAt = some expires) :
    SameDates (h.store.addCert (createRow now expires req))
      (handleCreateCert actor now h (some req)).1 := by
  simp only [handleCreateCert, if_neg hname, hexpires]
  refine SameDates.trans ?_ sameDates_recordEvent
  split_ifs
  · split
    · next s' hsecret => exact sameDates_storeSecret hsecret
    · exact SameDates.refl _
  · exact SameDates.refl _

theorem redates_apply (op : LabelOp) (h : op.Dated s) :
    Redates FourDigitYear s (op.apply s) := by
  cases op with
  | update actor now path body =>
    rcases path with _ | id
    · exact Redates.refl s
    rcases body with _ | req
    · exact Redates.refl s
    simp only [LabelOp.apply, handleUpdateCert, withID]
    split_ifs
    · exact Redates.refl s
    · split
      · exact Redates.refl s
      · next s' hupdate =>
        exact ((sameDates_updateEntry hupdate).trans sameDates_recordEvent).redates
  | delete actor now path =>
    rcases path with _ | id
    · exact Redates.refl s
    simp only [LabelOp.apply, handleDeleteCert, withID]
    split
    · exact Redates.refl s
    · next s' hdelete =>
      exact ((sameDates_softDelete hdelete).trans sameDates_recordEvent).redates
  | inventory op =>
    cases op with
    | scan actor now outcome body => exact redates_handleScan h
    | trackDomain actor now lookup body => exact redates_handleTrackDomain h
    | rescanCert env path => exact redates_handleRescanCert h
    | createCert actor now vault keyFile body =>
      rcases body with _ | req
      · exact Redates.refl s
      by_cases hname : sanitizeLabel req.name = ""
      · simp only [LabelOp.apply, InventoryOp.apply, handleCreateCert, if_pos hname]
        exact Redates.refl s
      cases hexpires : req.expiresAt with
      | none =>
        simp only [LabelOp.apply, InventoryOp.apply, handleCreateCert, if_neg hname, hexpires]
        exact Redates.refl s
      | some expires =>
        have hdated : FourDigitYear expires := h req rfl expires hexpires
        exact (redates_addCert hdated).trans
          (sameDates_handleCreateCert ⟨vault, s, keyFile⟩ hname hexpires).redates
    | scanAll env =>
      have hturn : ∀ s c, (∀ u, endpointUpsert env c = some u → FourDigitYear u.date) →
          Redates FourDigitYear s (scanAllEndpoint env s c) :=
        fun _ _ hc => redates_scanAllEndpoint hc
      exact redates_foldl hturn s s.endpointsForRescan h
    | sweep env =>
      have hscan : ∀ s c, (∀ u, endpointUpsert env c = some u → FourDigitYear u.date) →
          Redates FourDigitYear s (rescanEndpoint env s c) :=
        fun _ _ hc => redates_rescanEndpoint hc
      have hlookup : ∀ s c, (∀ u, domainUpsert env c = some u → FourDigitYear u.date) →
          Redates FourDigitYear s (rescanDomain env s c) :=
        fun _ _ hc => redates_rescanDomain hc
      -- the domains are looked up in what the scans left
      exact (redates_foldl hscan s s.endpointsForRescan h.1).trans (redates_foldl hlookup _ _ h.2)

/-! ### Dates that are read back -/

theorem Store.DatesReadable.redates (hs : s.DatesReadable) (h : Redates FourDigitYear s s') :
    s'.DatesReadable := by
  intro id text htext
  rcases h id text htext with hold | hnew
  · exact hs id text hold
  · exact hnew

/-- In a store whose dates are read back, the text that the inventory is sorted by is in order. -/
theorem Store.DatesReadable.listSorted (hs : s.DatesReadable) : s.ListSorted := by
  have hsorted : ((s.certs.rows.filter fun r => r.2.active).insertionSort
      fun r r' => r.2.expiresAt ≤ r'.2.expiresAt).Pairwise
        fun r r' => r.2.expiresAt ≤ r'.2.expiresAt := List.pairwise_insertionSort _ _
  rw [Store.ListSorted, Store.list, List.map_map, List.pairwise_map]
  refine hsorted.imp_of_mem ?_
  intro r r' hr hr' hle
  have hmem : ∀ x ∈ (s.certs.rows.filter fun r => r.2.active).insertionSort
      (fun r r' => r.2.expiresAt ≤ r'.2.expiresAt), s.dateText x.1 = some x.2.expiresAt := by
    intro x hx
    rw [Store.dateText, Table.mem_rows_iff.mp
      (List.mem_of_mem_filter ((List.perm_insertionSort _ _).mem_iff.mp hx)), Option.map_some]
  obtain ⟨t, ht, htext⟩ := hs _ _ (hmem r hr)
  obtain ⟨u, hu, hutext⟩ := hs _ _ (hmem r' hr')
  rw [htext, hutext] at hle
  have hseconds := seconds_le_of_format_le ht hu hle
  simp only [Function.comp_apply, scanRowValues, htext, hutext, parseTime_format ht.1 ht.2,
    parseTime_format hu.1 hu.2]
  unfold oneSecond at *
  omega

theorem datesReadable_empty : ({} : Store).DatesReadable := by
  intro id text htext
  exact absurd htext (by simp [Store.dateText])

/-- A date is read back, to the second, exactly in years of four digits. -/
theorem parseTime_format_eq_floor_iff :
    parseTime (Rfc3339.format t) = t - t % oneSecond ↔ FourDigitYear t := by
  constructor
  · intro h
    by_contra hyear
    have hout : year t < 0 ∨ 9999 < year t := by
      unfold FourDigitYear at hyear
      omega
    rw [parseTime_format_of_year hout] at h
    -- the zero instant is in year 1
    have hday : dayNumber t = 0 := by
      unfold dayNumber oneDay
      unfold oneSecond at h
      omega
    have hone : year t = 1 := by
      rw [year, hday]
      decide
    omega
  · exact fun h => parseTime_format h.1 h.2

/-- The entry a request creates is read with the date it was stored with. -/
theorem getByID_handleCreateCert (h : Host) (hname : sanitizeLabel req.name ≠ "")
    (hexpires : req.expiresAt = some t) :
    ((handleCreateCert actor now h (some req)).1.getByID h.store.certs.nextKey).map Cert.expiresAt =
      some (parseTime (Rfc3339.format t)) := by
  have htext : (handleCreateCert actor now h (some req)).1.dateText h.store.certs.nextKey =
      some (Rfc3339.format t) := by
    rw [sameDates_handleCreateCert h hname hexpires, dateText_addCert, if_pos rfl]
  obtain ⟨r, hrow, hdate⟩ := Option.map_eq_some_iff.mp htext
  rw [Store.getByID, hrow, Option.map_some, Option.map_some, ← hdate]
  rfl

/-- What is given as a date alone is always read back. -/
theorem fourDigitYear_of_parseDate {text : List Char} (h : TimeLayout.parseDate text = some t) :
    FourDigitYear t := by
  obtain ⟨d, hd, hyear, rfl⟩ := TimeLayout.exists_of_parseDate h
  have hday : dayNumber (Gregorian.toDays d * oneDay) = Gregorian.toDays d := by
    unfold dayNumber oneDay
    omega
  rw [FourDigitYear, year, hday, Gregorian.ofDays_toDays hd]
  exact hyear

/-- Dates that a store reads back are all it has after an operation that stores no other. -/
theorem always_datesReadable {ops : List LabelOp} (hs : s.DatesReadable)
    (h : Meets labelStep (fun s op => op.Dated s) s ops) :
    Always labelStep Store.DatesReadable s ops := by
  refine always_of_meets hs (fun s op s' hreadable hdated hstep => ?_) h
  obtain rfl := Option.some.inj hstep
  exact hreadable.redates (redates_apply op hdated)

/-- For every date that is accepted: an entry created with it is read back with it, to the second,
exactly if its year, in UTC, has four digits. And in every run that stores such dates only, the
inventory is sorted by expiry in every state reached. -/
theorem stored_dates_kept (ops : List LabelOp) :
    (∀ text t, parseFlexDate text = some t → ∀ actor now h req, sanitizeLabel req.name ≠ "" →
      req.expiresAt = parseFlexDate text →
        (((handleCreateCert actor now h (some req)).1.getByID h.store.certs.nextKey).map
          Cert.expiresAt = some (t - t % oneSecond) ↔ FourDigitYear t)) ∧
    (Meets labelStep (fun s op => op.Dated s) {} ops →
      Always labelStep Store.ListSorted {} ops) := by
  constructor
  · intro text t htext actor now h req hname hexpires
    rw [getByID_handleCreateCert h hname (hexpires.trans htext), Option.some.injEq]
    exact parseTime_format_eq_floor_iff
  · exact fun hmeets =>
      (always_datesReadable datesReadable_empty hmeets).mono fun _ hs => hs.listSorted

/-- A request to create an entry with a date. -/
def createDated (text : String) : CreateCertRequest :=
  { name := "web", expiresAt := parseFlexDate text }

/-- The request in a run. -/
def createOp (text : String) : LabelOp :=
  .inventory (.createCert "" 0 {} none (some (createDated text)))

/-- A date late in the year 9999, and a zone that is behind. -/
def lateDate : String := "9999-12-31T23:00:00-02:00"

theorem parseFlexDate_lateDate : parseFlexDate lateDate = some 315537901200000000000 := by
  decide +kernel

theorem stored_dates_demo :
    (((handleCreateCert "" 0 ⟨{}, {}, none⟩ (some (createDated "2026-01-01"))).1.getByID 1).map
      Cert.expiresAt = some 63902822400000000000) ∧
    Always labelStep Store.ListSorted {} [createOp "2026-01-01"] := by
  have hparse : parseFlexDate "2026-01-01" = some 63902822400000000000 := by decide +kernel
  have hyear : FourDigitYear 63902822400000000000 := by decide +kernel
  constructor
  · exact ((stored_dates_kept []).1 "2026-01-01" _ hparse "" 0 ⟨{}, {}, none⟩
      (createDated "2026-01-01") (by decide) rfl).mpr hyear
  · refine (stored_dates_kept _).2 (meets_cons.mpr ⟨?_, fun _ _ => meets_nil⟩)
    intro req hreq t ht
    obtain rfl := Option.some.inj hreq
    obtain rfl := Option.some.inj (hparse.symm.trans ht)
    exact hyear

/-- The late date is in the year 10000: it is stored, and read as the zero time, so that the
inventory has it after a date it comes before. -/
theorem zone_loses_date :
    (¬ ∀ text t, parseFlexDate text = some t → ∀ actor now h req, sanitizeLabel req.name ≠ "" →
      req.expiresAt = parseFlexDate text →
        ((handleCreateCert actor now h (some req)).1.getByID h.store.certs.nextKey).map
          Cert.expiresAt = some (t - t % oneSecond)) ∧
    ¬ ∀ ops, Always labelStep Store.ListSorted {} ops := by
  constructor
  · intro h
    have hread := h lateDate _ parseFlexDate_lateDate "" 0 ⟨{}, {}, none⟩ (createDated lateDate)
      (by decide) rfl
    rw [getByID_handleCreateCert ⟨{}, {}, none⟩ (by decide) parseFlexDate_lateDate,
      Option.some.injEq, parseTime_format_eq_floor_iff] at hread
    exact absurd hread (by decide +kernel)
  · intro h
    have hsorted := h [createOp "0999-01-01", createOp lateDate]
      [createOp "0999-01-01", createOp lateDate] _ (List.prefix_refl _) rfl
    have hlist : ((createOp lateDate).apply ((createOp "0999-01-01").apply {})).list.map
        Cert.expiresAt = [31493836800000000000, 0] := by
      decide +kernel
    rw [Store.ListSorted, hlist] at hsorted
    exact absurd hsorted (by decide)

end CertGuard
