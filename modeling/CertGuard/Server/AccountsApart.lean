import CertGuard.Server.Routes

/-!
# Requests that leave accounts alone

Handlers that work on entries and on the vault neither look at accounts, channels and security
keys nor change them, and of the activity log they know only that lines are added to it:
whatever is put beside the entries, they do the same.

## Main definitions

* `Store.beside` — the entries of one store with the accounts and the log of another
* `EntryLine` — a line that a request about an entry adds
* `ApartFromAccounts` — a handler does the same beside any accounts and any log

## Main results

* `apart_handleScan`, `apart_handleCreateCert`, … — the handlers of requests about entries
* `setPassphrase_beside`, `enableZK_beside` — the calls of the vault
-/

namespace CertGuard

/-- The entries and the keyring of a store, with the accounts and the log of another. -/
def Store.beside (s t : Store) : Store :=
  { s with
    channels := t.channels
    events := t.events
    credentials := t.credentials
    wrappers := t.wrappers
    users := t.users
    sessions := t.sessions
    tokens := t.tokens }

/-- The vault beside the accounts of another store. -/
def Host.beside (h : Host) (t : Store) : Host := { h with store := h.store.beside t }

/-- A store with lines added to its log. -/
def Store.addLines (s : Store) (lines : List EventRow) : Store :=
  { s with events := s.events.insertAll lines }

/-- A line about an entry, as it was before a request or as it is afterwards. -/
structure EntryLine (actor : String) (s s' : Store) (l : EventRow) : Prop where
  time : ∃ now, l.atTime = Rfc3339.format now
  kind : l.kind = .added ∨ l.kind = .updated ∨ l.kind = .deleted
  entry : ∃ c, (s.getByID c.id = some c ∨ s'.getByID c.id = some c) ∧ l.certId = eventId c.id ∧
    l.certName = c.name
  actor : l.actor = actor
  detail : l.detail = .plain [] ∨ ∃ k : Kind, l.detail = .plain (GoString.ofString k.text)

/-- What comes of a store adds lines about entries, and beside other accounts and another log
it comes to the same and adds the same lines. -/
def AddsLines {β : Type} (actor : String) (s : Store) (res : Store × β)
    (besides : Store → Store × β) : Prop :=
  ∃ lines, (∀ l ∈ lines, EntryLine actor s res.1 l) ∧
    ∀ t, besides t = (res.1.beside (t.addLines lines), res.2)

/-- A handler does the same whatever accounts there are and whatever the log holds. It leaves
the accounts alone, and all it adds to the log are lines about entries. -/
def ApartFromAccounts {β : Type} (actor : String) (handle : Store → Store × β) : Prop :=
  ∀ s, AddsLines actor s (handle s) fun t => handle (s.beside t)

variable {s s' t : Store} {c : Cert} {h : Host} {env : SweepEnv} {now id : Int}
variable {path : Option Int} {actor said : String}

/-- Nothing is logged. -/
theorem AddsLines.none {β : Type} {res : Store × β} {besides : Store → Store × β}
    (h : ∀ t, besides t = (res.1.beside t, res.2)) : AddsLines actor s res besides :=
  ⟨[], fun _ hl => absurd hl List.not_mem_nil, h⟩

theorem AddsLines.map {β γ : Type} {res : Store × β} {besides : Store → Store × β}
    (h : AddsLines actor s res besides) (f : β → γ) :
    AddsLines actor s (res.1, f res.2) fun t => ((besides t).1, f (besides t).2) := by
  obtain ⟨lines, hlines, hbesides⟩ := h
  exact ⟨lines, hlines, fun t => congrArg (fun r => (r.1, f r.2)) (hbesides t)⟩

theorem AddsLines.congr {β : Type} {res : Store × β} {besides besides' : Store → Store × β}
    (h : AddsLines actor s res besides) (heq : ∀ t, besides' t = besides t) :
    AddsLines actor s res besides' := by
  obtain ⟨lines, hlines, hbesides⟩ := h
  exact ⟨lines, hlines, fun t => (heq t).trans (hbesides t)⟩

/-- The accounts are those of before. -/
theorem ApartFromAccounts.accounts {β : Type} {handle : Store → Store × β}
    (h : ApartFromAccounts actor handle) (s : Store) :
    ∃ lines, (handle s).1 = (handle s).1.beside (s.addLines lines) := by
  obtain ⟨lines, -, hbesides⟩ := h s
  exact ⟨lines, congrArg Prod.fst (hbesides s)⟩

/-! ### Statements -/

theorem updateActive_beside (f : CertRow → CertRow) :
    (s.beside t).updateActive id f = (s.updateActive id f).map (Store.beside · t) := by
  have hactive : (s.beside t).IsActive id ↔ s.IsActive id := Iff.rfl
  unfold Store.updateActive
  by_cases hid : s.IsActive id
  · rw [if_pos hid, if_pos (hactive.mpr hid)]
    rfl
  · rw [if_neg hid, if_neg (mt hactive.mp hid)]
    rfl

theorem updateEntry_beside (name category notes : String) :
    (s.beside t).updateEntry id name category notes =
      (s.updateEntry id name category notes).map (Store.beside · t) :=
  updateActive_beside _

theorem softDelete_beside :
    (s.beside t).softDelete id = (s.softDelete id).map (Store.beside · t) :=
  updateActive_beside _

theorem touchScanError_beside (msg : String) :
    (s.beside t).touchScanError now id msg = (s.touchScanError now id msg).beside t := by
  unfold Store.touchScanError
  rw [updateActive_beside, Option.getD_map]

theorem setSecret_beside (enc : Cipher) :
    (s.beside t).setSecret id enc = (s.setSecret id enc).map (Store.beside · t) := by
  have hcerts : (s.beside t).certs = s.certs := rfl
  unfold Store.setSecret
  rw [hcerts]
  cases s.certs.get? id with
  | none => rfl
  | some r =>
    dsimp only
    split_ifs <;> rfl

theorem write_beside (u : Upsert) (existing : Option Cert) :
    u.write (s.beside t) now existing =
      ((u.write s now existing).1.beside t, (u.write s now existing).2) := by
  cases u <;> cases existing <;> rfl

/-- The lines `recordEvent` adds. -/
def eventLines (actor : String) (now : Int) (kind : EventKind) (c : Option Cert)
    (detail : String) : List EventRow :=
  c.toList.map fun c =>
    { atTime := Rfc3339.format now
      kind := kind
      certId := eventId c.id
      certName := c.name
      actor := actor
      detail := .plain (GoString.ofString detail) }

theorem recordEvent_beside (kind : EventKind) (c : Option Cert) :
    recordEvent actor now (s.beside t) kind c said =
      (recordEvent actor now s kind c said).beside
        (t.addLines (eventLines actor now kind c said)) := by
  cases c <;> rfl

theorem getByID_recordEvent (kind : EventKind) (c : Option Cert) :
    (recordEvent actor now s kind c said).getByID id = s.getByID id := by
  cases c <;> rfl

/-- The line is about the entry it was added for. -/
theorem entryLine_of_mem {kind : EventKind} {found : Option Cert} {l : EventRow}
    (hkind : kind = .added ∨ kind = .updated ∨ kind = .deleted)
    (hfound : ∀ c, found = some c → s.getByID c.id = some c ∨ s'.getByID c.id = some c)
    (hsaid : said = "" ∨ ∃ k : Kind, said = k.text)
    (hl : l ∈ eventLines actor now kind found said) : EntryLine actor s s' l := by
  obtain ⟨c, hc, rfl⟩ := List.mem_map.mp hl
  have hdetail : said = "" → EventDetail.plain (GoString.ofString said) = .plain [] := by
    rintro rfl
    rfl
  refine ⟨⟨now, rfl⟩, hkind, ⟨c, hfound c (Option.mem_toList.mp hc), rfl, rfl⟩, rfl,
    hsaid.imp hdetail ?_⟩
  rintro ⟨k, rfl⟩
  exact ⟨k, rfl⟩

/-- What is read of an entry is read by its id. -/
theorem getByID_of_getByID (hread : s.getByID id = some c) : s.getByID c.id = some c := by
  obtain ⟨r, hrow, rfl⟩ := Option.map_eq_some_iff.mp hread
  exact hread

theorem applyNotes_beside (c : Option Cert) (notes : String) :
    applyNotes (s.beside t) c notes =
      ((applyNotes s c notes).1.beside t, (applyNotes s c notes).2) := by
  cases c with
  | none => rfl
  | some c =>
    simp only [applyNotes]
    by_cases hnotes : trimSpace notes.toList = []
    · rw [if_pos hnotes, if_pos hnotes]
    · rw [if_neg hnotes, if_neg hnotes, updateEntry_beside]
      cases s.updateEntry c.id c.name c.category notes <;> rfl

/-- What is written is read back. -/
theorem getByID_of_write {u : Upsert} {existing : Option Cert}
    (hstored : (u.write s now existing).2 = some c) :
    (u.write s now existing).1.getByID c.id = some c := by
  cases existing with
  | none =>
    rw [Upsert.write_none] at hstored ⊢
    exact getByID_of_getByID hstored
  | some e =>
    rw [Upsert.write_some] at hstored ⊢
    exact getByID_of_getByID hstored

/-- Notes leave what is read back. -/
theorem getByID_applyNotes {notes : String} {found : Option Cert}
    (hfound : ∀ c, found = some c → s.getByID c.id = some c)
    (hnoted : (applyNotes s found notes).2 = some c) :
    (applyNotes s found notes).1.getByID c.id = some c := by
  cases found with
  | none => exact absurd hnoted (by simp [applyNotes])
  | some c₀ =>
    have hread := hfound c₀ rfl
    simp only [applyNotes] at hnoted ⊢
    split_ifs at hnoted ⊢ with hnotes
    · obtain rfl := Option.some.inj hnoted
      exact hread
    · -- the row is read back after the write, or kept where none was active
      simp only [Store.updateEntry, Store.updateActive] at hnoted ⊢
      split_ifs at hnoted ⊢
      · -- the entry is still there
        obtain ⟨r, hrow, -⟩ := Option.map_eq_some_iff.mp hread
        simp only [Store.getByID, Table.get?_modify_self, hrow, Option.map_some,
          Option.getD_some, Option.some.injEq] at hnoted
        subst hnoted
        simp only [Store.getByID, scanRowValues, Table.get?_modify_self, hrow, Option.map_some]
      · obtain rfl := Option.some.inj hnoted
        exact hread

/-- What a request adds or finds is logged. -/
theorem addsLines_addUpsert (u : Upsert) (notes : String) (k : Kind) :
    AddsLines actor s (addUpsert actor now s u notes k.text) fun t =>
      addUpsert actor now (s.beside t) u notes k.text := by
  have hfind : ∀ t, u.find (s.beside t) = u.find s := fun _ => rfl
  -- the line names the entry as it is once it has its notes
  refine ⟨eventLines actor now .added (applyNotes (u.write s now (u.find s)).1
    (u.write s now (u.find s)).2 notes).2 k.text, fun l hl => ?_, fun t => ?_⟩
  · refine entryLine_of_mem (Or.inl rfl) (fun c hc => Or.inr ?_) (Or.inr ⟨k, rfl⟩) hl
    rw [addUpsert, getByID_recordEvent]
    exact getByID_applyNotes (fun _ => getByID_of_write) hc
  · simp only [addUpsert, hfind, write_beside, applyNotes_beside, recordEvent_beside]

theorem storeSecret_beside (value : String) :
    storeSecret (h.beside t) id value =
      (storeSecret h id value).map (Option.map (Store.beside · t)) := by
  have hseal : (h.beside t).vaultSeal value = h.vaultSeal value := rfl
  have hset : ∀ enc, (h.beside t).store.setSecret id enc =
      (h.store.setSecret id enc).map (Store.beside · t) := fun enc => setSecret_beside enc
  unfold storeSecret
  rw [hseal, hset]
  split_ifs
  · rfl
  · -- sealing does not look at accounts
    cases h.vaultSeal value with
    | error e => rfl
    | ok enc => exact congrArg Except.ok (hset enc)

/-! ### Requests about entries -/

theorem apart_withID {handle : Int → Store → Store × Answer EntryBody}
    (hhandle : ∀ id, ApartFromAccounts actor (handle id)) :
    ApartFromAccounts actor fun s => withID s path fun id => handle id s := by
  intro s
  cases path with
  | none => exact AddsLines.none fun t => rfl
  | some id => exact hhandle id s

theorem apart_handleScan (scan : String → Int → String → Except String Served)
    (body : Option ScanRequest) :
    ApartFromAccounts actor fun s => handleScan actor now scan s body := by
  intro s
  cases body with
  | none => exact AddsLines.none fun t => rfl
  | some req =>
    simp only [handleScan]
    cases req.target with
    | error msg => exact AddsLines.none fun t => rfl
    | ok address =>
      dsimp only
      cases scan address.1 address.2 req.serverName with
      | error msg => exact AddsLines.none fun t => rfl
      | ok served =>
        dsimp only
        split_ifs
        · exact AddsLines.none fun t => rfl
        · exact (addsLines_addUpsert _ _ .endpoint).map fun added =>
            writeJSON 200 (EntryBody.saved _ added)

theorem apart_handleTrackDomain (lookup : String → Except LookupError DomainResult)
    (body : Option TrackRequest) :
    ApartFromAccounts actor fun s => handleTrackDomain actor now lookup s body := by
  intro s
  cases body with
  | none => exact AddsLines.none fun t => rfl
  | some req =>
    simp only [handleTrackDomain]
    split_ifs
    · exact AddsLines.none fun t => rfl
    · cases lookup req.domain with
      | error e => exact AddsLines.none fun t => rfl
      | ok res =>
        exact (addsLines_addUpsert _ _ .domain).map fun added =>
          writeJSON 200 (EntryBody.tracked _ added)

theorem apart_handleScanAll (env : SweepEnv) : ApartFromAccounts actor (handleScanAll env) := by
  -- one entry at a time
  have hbody : ∀ (s t : Store) (c : Cert),
      scanAllEndpoint env (s.beside t) c = (scanAllEndpoint env s c).beside t := by
    intro s t c
    have hfind : ∀ u : Upsert, u.find (s.beside t) = u.find s := fun u => rfl
    simp only [scanAllEndpoint]
    cases env.scan c with
    | error msg => exact touchScanError_beside msg
    | ok served => simp only [hfind, write_beside]
  have hfold : ∀ (cs : List Cert) (s t : Store),
      cs.foldl (scanAllEndpoint env) (s.beside t) =
        (cs.foldl (scanAllEndpoint env) s).beside t := by
    intro cs
    induction cs with
    | nil => exact fun _ _ => rfl
    | cons c cs ih =>
      intro s t
      rw [List.foldl_cons, List.foldl_cons, hbody, ih]
  refine fun s => AddsLines.none fun t => ?_
  have heps : (s.beside t).endpointsForRescan = s.endpointsForRescan := rfl
  simp only [handleScanAll, heps, hfold]

theorem apart_rescanEntry (env : SweepEnv) (id : Int) (c : Cert) :
    ApartFromAccounts actor fun s => rescanEntry env s id c := by
  refine fun s => AddsLines.none fun t => ?_
  have hfind : ∀ u : Upsert, u.find (s.beside t) = u.find s := fun u => rfl
  simp only [rescanEntry]
  split_ifs
  · cases env.lookup c with
    | error msg => simp only [touchScanError_beside]
    | ok res => simp only [hfind, write_beside]
  · rfl
  · cases env.scan c with
    | error msg => simp only [touchScanError_beside]
    | ok served => simp only [hfind, write_beside]

/-- Handlers that look for the entry first. -/
theorem apart_getByID {none' : Answer EntryBody} {handle : Cert → Store → Store × Answer EntryBody}
    (hhandle : ∀ c, ApartFromAccounts actor (handle c)) :
    ApartFromAccounts actor fun s =>
      match s.getByID id with
      | none => (s, none')
      | some c => handle c s := by
  intro s
  have hget : ∀ t, (s.beside t).getByID id = s.getByID id := fun _ => rfl
  simp only [hget]
  cases s.getByID id with
  | none => exact AddsLines.none fun t => rfl
  | some c => exact hhandle c s

theorem apart_handleRescanCert (env : SweepEnv) :
    ApartFromAccounts actor fun s => handleRescanCert env s path :=
  apart_withID fun id => apart_getByID fun c => apart_rescanEntry env id c

theorem apart_handleCoverage (env : SweepEnv) :
    ApartFromAccounts actor fun s => handleCoverage env s path := by
  refine apart_withID fun id => apart_getByID fun c s => AddsLines.none fun t => ?_
  dsimp only
  split_ifs <;> rfl

theorem apart_handleUpdateCert (body : Option UpdateCertRequest) :
    ApartFromAccounts actor fun s => handleUpdateCert actor now s path body := by
  refine apart_withID fun id s => ?_
  cases body with
  | none => exact AddsLines.none fun t => rfl
  | some req =>
    dsimp only
    split_ifs
    · exact AddsLines.none fun t => rfl
    · simp only [updateEntry_beside]
      cases s.updateEntry id (sanitizeLabel req.name) (sanitizeLabel req.category) req.notes with
      | none => exact AddsLines.none fun t => rfl
      | some s' =>
        -- the line has the new name
        refine ⟨eventLines actor now .updated (s'.getByID id) "", fun l hl => ?_, fun t => ?_⟩
        · refine entryLine_of_mem (Or.inr (Or.inl rfl)) (fun c hc => Or.inr ?_) (Or.inl rfl) hl
          exact (getByID_recordEvent _ _).trans (getByID_of_getByID hc)
        · exact Prod.ext (recordEvent_beside _ _) rfl

theorem apart_handleDeleteCert :
    ApartFromAccounts actor fun s => handleDeleteCert actor now s path := by
  refine apart_withID fun id s => ?_
  simp only [softDelete_beside]
  cases s.softDelete id with
  | none => exact AddsLines.none fun t => rfl
  | some s' =>
    -- the line has the name the entry had before
    refine ⟨eventLines actor now .deleted (s.getByID id) "", fun l hl => ?_, fun t => ?_⟩
    · refine entryLine_of_mem (Or.inr (Or.inr rfl)) (fun c hc => Or.inl ?_) (Or.inl rfl) hl
      exact getByID_of_getByID hc
    · exact Prod.ext (recordEvent_beside _ _) rfl

/-- What is left of a new entry's store when its secret could not be kept. -/
theorem createSecret_beside (value : String) :
    (match storeSecret (h.beside t) id value with
      | .ok (some s) => s
      | _ => h.store.beside t) =
      (match storeSecret h id value with
        | .ok (some s) => s
        | _ => h.store).beside t := by
  rw [storeSecret_beside]
  cases storeSecret h id value with
  | error e => rfl
  | ok stored => cases stored <;> rfl

/-- A new entry is logged with its kind. -/
theorem addsLines_entryCreated (added : Store) : AddsLines actor s (entryCreated actor now added id)
    fun t => entryCreated actor now (added.beside t) id := by
  have hget : ∀ t, (added.beside t).getByID id = added.getByID id := fun _ => rfl
  simp only [entryCreated, hget]
  refine ⟨eventLines actor now .added (added.getByID id)
    (((added.getByID id).map fun c => c.kind.text).getD ""), fun l hl => ?_, fun t => ?_⟩
  · refine entryLine_of_mem (Or.inl rfl) (fun c hc => Or.inr ?_) ?_ hl
    · exact (getByID_recordEvent _ _).trans (getByID_of_getByID hc)
    · cases added.getByID id with
      | none => exact Or.inl rfl
      | some c => exact Or.inr ⟨c.kind, rfl⟩
  · exact Prod.ext (recordEvent_beside _ _) rfl

theorem apart_handleCreateCert (h : Host) (body : Option CreateCertRequest) :
    ApartFromAccounts actor fun s => handleCreateCert actor now { h with store := s } body := by
  intro s
  cases body with
  | none => exact AddsLines.none fun t => rfl
  | some req =>
    simp only [handleCreateCert]
    by_cases hname : sanitizeLabel req.name = ""
    · simp only [if_pos hname]
      exact AddsLines.none fun t => rfl
    · simp only [if_neg hname]
      cases req.expiresAt with
      | none => exact AddsLines.none fun t => rfl
      | some expires =>
        dsimp only
        split_ifs
        · -- with a secret: storing it stays apart as well
          refine (addsLines_entryCreated _).congr fun t => ?_
          exact congrArg (entryCreated actor now · s.certs.nextKey)
            (@createSecret_beside t { h with store := s.addCert (createRow now expires req) }
              s.certs.nextKey req.secret)
        · exact addsLines_entryCreated (s.addCert (createRow now expires req))

theorem secretStored_beside (stored : Option Store) (hasSecret : Bool) :
    secretStored (s.beside t) (stored.map (Store.beside · t)) hasSecret =
      ((secretStored s stored hasSecret).1.beside t, (secretStored s stored hasSecret).2) := by
  cases stored <;> rfl

theorem apart_handleSetSecret (h : Host) (body : Option SetSecretRequest) :
    ApartFromAccounts actor fun s => handleSetSecret { h with store := s } path body := by
  refine fun s => AddsLines.none fun t => ?_
  have hstore : ∀ id value, storeSecret { h with store := s.beside t } id value =
      (storeSecret { h with store := s } id value).map (Option.map (Store.beside · t)) :=
    fun id value => @storeSecret_beside t { h with store := s } id value
  simp only [handleSetSecret, withID, hstore, setSecret_beside, secretStored_beside]
  by_cases henabled : h.vault.enabled = false
  · rw [if_pos henabled, if_pos henabled]
  · rw [if_neg henabled, if_neg henabled]
    cases path with
    | none => rfl
    | some id =>
      cases body with
      | none => rfl
      | some req =>
        dsimp only
        split_ifs
        · rfl
        · rfl
        · cases storeSecret { h with store := s } id req.value with
          | error e => rfl
          | ok stored => exact secretStored_beside stored _

theorem apart_handleRevealSecret (h : Host) :
    ApartFromAccounts actor fun s => handleRevealSecret { h with store := s } path := by
  refine fun s => AddsLines.none fun t => ?_
  have hget : ∀ id, (s.beside t).getByID id = s.getByID id := fun _ => rfl
  -- the vault does not look at accounts
  have hopen : ∀ enc, Host.vaultOpen { h with store := s.beside t } enc =
      Host.vaultOpen { h with store := s } enc := fun _ => rfl
  simp only [handleRevealSecret, withID, hget, hopen]
  by_cases henabled : h.vault.enabled = false
  · rw [if_pos henabled, if_pos henabled]
  · rw [if_neg henabled, if_neg henabled]
    cases path with
    | none => rfl
    | some id =>
      dsimp only
      cases s.getByID id with
      | none => rfl
      | some c =>
        dsimp only
        split_ifs
        · rfl
        · rfl
        · rfl
        · cases Host.vaultOpen { h with store := s } c.secretEnc <;> rfl

theorem apart_handleCalendarOne : ApartFromAccounts actor fun s => handleCalendarOne s path :=
  apart_withID fun _ => apart_getByID fun _ _ => AddsLines.none fun _ => rfl

theorem apart_handleListCerts : ApartFromAccounts actor (handleListCerts now) :=
  fun _ => AddsLines.none fun _ => rfl

theorem apart_handleCalendar : ApartFromAccounts actor handleCalendar :=
  fun _ => AddsLines.none fun _ => rfl

theorem apart_handleDomainCandidates (turn : RouteTurn) (body : Option (List String)) :
    ApartFromAccounts actor fun s => handleDomainCandidates turn s body := by
  refine fun s => AddsLines.none fun t => ?_
  cases body with
  | none => rfl
  | some hosts => cases hosts <;> rfl

/-! ### The vault -/

/-- A handler of the vault does the same whatever accounts there are, and leaves them alone. -/
def HostApart {β : Type} (handle : Host → Host × β) (h : Host) : Prop :=
  ∀ t, handle (h.beside t) = ((handle h).1.beside t, (handle h).2)

theorem setMeta_beside (ok : Bool) (f : Keyring → Keyring) :
    (s.beside t).setMeta ok f = (s.setMeta ok f).beside t := by
  cases ok <;> rfl

theorem unlock_beside (passphrase : String) : HostApart (Host.unlock · passphrase) h := by
  intro t
  obtain ⟨v, s, file⟩ := h
  change Host.unlock ⟨v, s.beside t, file⟩ passphrase = _
  simp only [Host.unlock]
  split_ifs
  · rfl
  · rfl
  · rfl
  · cases unwrapKey v.wrapped (.fromPassphrase passphrase v.salt) <;> rfl

theorem persist_beside (env : VaultEnv) (mode : VaultMode) (salt : Option Salt)
    (wrapped : Wrapped) : HostApart (Host.persist env · mode salt wrapped) h := by
  intro t
  obtain ⟨v, s, file⟩ := h
  change Host.persist env ⟨v, s.beside t, file⟩ mode salt wrapped = _
  simp only [Host.persist, setMeta_beside]
  split_ifs <;> rfl

theorem setPassphrase_beside (env : VaultEnv) (currentPass newPass : String) :
    HostApart (Host.setPassphrase env · currentPass newPass) h := by
  intro t
  obtain ⟨v, s, file⟩ := h
  have hpersist : ∀ file mode salt wrapped,
      Host.persist env ⟨v, s.beside t, file⟩ mode salt wrapped =
        ((Host.persist env ⟨v, s, file⟩ mode salt wrapped).1.beside t,
          (Host.persist env ⟨v, s, file⟩ mode salt wrapped).2) :=
    fun file mode salt wrapped => @persist_beside ⟨v, s, file⟩ env mode salt wrapped t
  change Host.setPassphrase env ⟨v, s.beside t, file⟩ currentPass newPass = _
  simp only [Host.setPassphrase]
  cases v.box with
  | none => rfl
  | some dek =>
    dsimp only
    split_ifs
    · rfl
    · obtain ⟨loaded, file⟩ := loadOrCreateKey file env.fresh env.written
      cases loaded with
      | none => rfl
      | some material => exact hpersist file _ _ _
    all_goals
      -- whether the key file can be removed does not matter
      rw [hpersist]
      obtain ⟨h', e⟩ := Host.persist env ⟨v, s, file⟩ .passphrase (some env.salt)
        (wrapKey v.dek (.fromPassphrase newPass (some env.salt)))
      cases e <;> rfl

theorem enableZK_beside (env : VaultEnv) (wrapped : Wrapped) (salt iters : String) :
    HostApart (Host.enableZK env · wrapped salt iters) h := by
  intro t
  obtain ⟨v, s, file⟩ := h
  change Host.enableZK env ⟨v, s.beside t, file⟩ wrapped salt iters = _
  simp only [Host.enableZK, setMeta_beside]
  split_ifs <;> rfl

theorem disableZK_beside (env : VaultEnv) : HostApart (Host.disableZK env) h := by
  intro t
  obtain ⟨v, s, file⟩ := h
  have hclear : ∀ s : Store, (if env.clearSecrets then (s.beside t).clearAllSecrets
      else s.beside t) = (if env.clearSecrets then s.clearAllSecrets else s).beside t := by
    intro s
    split_ifs <;> rfl
  change Host.disableZK env ⟨v, s.beside t, file⟩ = _
  simp only [Host.disableZK, setMeta_beside, hclear]
  -- the key file is not in the store
  obtain ⟨loaded, file⟩ := loadOrCreateKey file env.fresh env.written
  cases loaded <;> rfl

theorem apart_handleVaultUnlock (body : Option String) :
    HostApart (handleVaultUnlock · body) h := by
  intro t
  cases body with
  | none => rfl
  | some passphrase => simp only [handleVaultUnlock, unlock_beside passphrase t]

theorem apart_handleVaultLock : HostApart handleVaultLock h := fun _ => rfl

theorem apart_handleVaultPassphrase (env : VaultEnv) (body : Option (String × String)) :
    HostApart (handleVaultPassphrase env · body) h := by
  intro t
  cases body with
  | none => rfl
  | some pass =>
    simp only [handleVaultPassphrase, setPassphrase_beside env pass.1 pass.2 t]
    split_ifs <;> rfl

theorem storeSecrets_beside (secrets : List (Int × Cipher)) :
    storeSecrets (s.beside t) secrets = (storeSecrets s secrets).beside t := by
  induction secrets generalizing s with
  | nil => rfl
  | cons sec secrets ih =>
    have hset : ((s.beside t).setSecret sec.1 sec.2).getD (s.beside t) =
        ((s.setSecret sec.1 sec.2).getD s).beside t := by
      rw [setSecret_beside, Option.getD_map]
    simp only [storeSecrets, List.foldl_cons] at ih ⊢
    rw [hset, ih]

/-- Rotating the passphrase of zero-knowledge mode keeps the wrappers. -/
theorem apart_handleZKKeyringSet (env : VaultEnv) (body : Option KeyringReq)
    (hzk : h.vault.zk = true) : HostApart (handleZKKeyringSet env · body) h := by
  intro t
  have hon : (h.beside t).vault.zk = true := hzk
  cases body with
  | none => rfl
  | some req =>
    simp only [handleZKKeyringSet, enableZK_beside env req.keyring.wrapped req.keyring.salt
      req.keyring.iters t, hzk, hon, if_true]
    split_ifs
    · rfl
    · obtain ⟨h', e⟩ := Host.enableZK env h req.keyring.wrapped req.keyring.salt req.keyring.iters
      cases e with
      | some e => rfl
      | none => simp only [Host.beside, storeSecrets_beside]

theorem apart_handleZKKeyringGet : HostApart handleZKKeyringGet h := by
  intro t
  obtain ⟨v, s, file⟩ := h
  change handleZKKeyringGet ⟨v, s.beside t, file⟩ = _
  simp only [handleZKKeyringGet]
  split_ifs <;> rfl

theorem apart_handleWhoami (cfg : Config) (me : User) : HostApart (handleWhoami cfg me) h :=
  fun _ => rfl

theorem apart_handleBackupKey (cfg : Config) : HostApart (handleBackupKey cfg) h := by
  intro t
  obtain ⟨v, s, file⟩ := h
  change handleBackupKey cfg ⟨v, s.beside t, file⟩ = _
  simp only [handleBackupKey]
  split_ifs
  · rfl
  · rfl
  · rfl
  · rfl
  · cases file <;> rfl

end CertGuard
