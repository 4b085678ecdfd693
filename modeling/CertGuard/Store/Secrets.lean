import CertGuard.Store.Certs

/-!
# Statements on secrets and on the vault's rows

## Main definitions

* `Store.setSecret`, `Store.addCert`, `Store.clearAllSecrets` — the secret column of `certs`
* `Store.secretEnc` — the secret stored for an entry
* `readMeta`, `Store.setMeta` — the rows of `meta`
* `Store.insertVaultWrapper`, `Store.clearVaultWrappers`, `Store.deleteCredential` — the
  rows of `vault_key_wrappers` and of `webauthn_credentials`
-/

namespace CertGuard

namespace Store

/-- `SetSecret`; `none` when no active entry has the id. -/
def setSecret (s : Store) (id : Int) (enc : Cipher) : Option Store :=
  match s.certs.get? id with
  | some r =>
    if r.active then
      some { s with certs := s.certs.modify id fun r => { r with secretEnc := enc } }
    else none
  | none => none

/-- The row `AddCert` inserts for an entry: it starts without a secret. -/
def addRow (r : CertRow) : CertRow :=
  { r with
    autoRescan := r.kind = .endpoint
    lastScannedAt := none
    lastError := ""
    secretEnc := Sealed.empty
    active := true
    lastNotifiedThreshold := 0
    lastNotifiedOn := none
    chainJson := []
    lastChainNotifiedThreshold := 0
    coverageJson := []
    coverageAt := [] }

/-- `AddCert`; the key of the new row is the table's next key. -/
def addCert (s : Store) (r : CertRow) : Store := { s with certs := s.certs.insert (addRow r) }

/-- Drops the secrets of all entries, deleted ones as well. -/
def clearAllSecrets (s : Store) : Store :=
  { s with certs := s.certs.modifyAll fun r => { r with secretEnc := Sealed.empty } }

/-- What is stored for an entry; empty where there is no secret, or no entry. -/
def secretEnc (s : Store) (id : Int) : Cipher :=
  ((s.certs.get? id).map CertRow.secretEnc).getD Sealed.empty

/-- `SetMeta`, which does nothing when the statement fails. -/
def setMeta (s : Store) (ok : Bool) (f : Keyring → Keyring) : Store :=
  if ok then { s with keyring := f s.keyring } else s

def credentialByID (s : Store) (credentialId : String) : Option CredentialRow :=
  (s.credentials.rows.find? fun r => r.2.credentialId = credentialId).map (·.2)

/-- `DeleteVaultWrapper`, and the first statement of `SetVaultWrapper`. -/
def deleteVaultWrapper (s : Store) (credentialId : String) : Store :=
  { s with wrappers := s.wrappers.filter fun w => w.credentialId ≠ credentialId }

/-- There is the credential of the wrapper, and no wrapper for it. -/
def TakesWrapper (s : Store) (w : WrapperRow) : Prop :=
  (s.credentialByID w.credentialId).isSome ∧ ∀ w' ∈ s.wrappers, w'.credentialId ≠ w.credentialId

instance (s : Store) (w : WrapperRow) : Decidable (s.TakesWrapper w) :=
  inferInstanceAs (Decidable (_ ∧ _))

/-- The second statement of `SetVaultWrapper`, refused by the constraints of the table when
there is such a row or no such credential. -/
def insertVaultWrapper (s : Store) (w : WrapperRow) : Store :=
  if s.TakesWrapper w then { s with wrappers := s.wrappers ++ [w] } else s

def clearVaultWrappers (s : Store) : Store := { s with wrappers := [] }

def vaultWrapper (s : Store) (credentialId : String) : Option WrapperRow :=
  s.wrappers.find? fun w => w.credentialId = credentialId

/-- `DeleteCredential`; the wrapper of a credential goes with it. -/
def deleteCredential (s : Store) (id userId : Int) : Store :=
  match s.credentials.get? id with
  | some r =>
    if r.userId = userId then
      { s with
        credentials := s.credentials.erase id
        wrappers := s.wrappers.filter fun w => w.credentialId ≠ r.credentialId }
    else s
  | none => s

end Store

/-- The value `GetMeta` leaves its caller with: empty without a row and on an error. -/
def readMeta {α : Type*} (ok : Bool) (row : Option α) (empty : α) : α :=
  if ok then row.getD empty else empty

@[simp] theorem setMeta_true (s : Store) (f : Keyring → Keyring) :
    s.setMeta true f = { s with keyring := f s.keyring } := rfl

@[simp] theorem readMeta_true {α : Type*} (row : Option α) (empty : α) :
    readMeta true row empty = row.getD empty := rfl

@[simp] theorem setMeta_certs (s : Store) (ok : Bool) (f : Keyring → Keyring) :
    (s.setMeta ok f).certs = s.certs := by
  cases ok <;> rfl

@[simp] theorem setMeta_wrappers (s : Store) (ok : Bool) (f : Keyring → Keyring) :
    (s.setMeta ok f).wrappers = s.wrappers := by
  cases ok <;> rfl

theorem keyring_setMeta (s : Store) (ok : Bool) (f : Keyring → Keyring) :
    (s.setMeta ok f).keyring = if ok then f s.keyring else s.keyring := by
  cases ok <;> rfl

/-- A statement on another row leaves the row of the zero-knowledge keyring. -/
theorem setMeta_zkWrapped (s : Store) (ok : Bool) {f : Keyring → Keyring}
    (hf : ∀ k, (f k).zkWrapped = k.zkWrapped) :
    (s.setMeta ok f).keyring.zkWrapped = s.keyring.zkWrapped := by
  cases ok with
  | false => rfl
  | true => exact hf s.keyring

/-- The data key wrapped in the zero-knowledge keyring. -/
def Keyring.dataKey (k : Keyring) : Option Key := k.zkWrapped.bind Sealed.payload?

theorem secretEnc_congr {s s' : Store} (h : s'.certs = s.certs) (id : Int) :
    s'.secretEnc id = s.secretEnc id := by
  rw [Store.secretEnc, h, Store.secretEnc]

@[simp] theorem secretEnc_setMeta (s : Store) (ok : Bool) (f : Keyring → Keyring) (id : Int) :
    (s.setMeta ok f).secretEnc id = s.secretEnc id :=
  secretEnc_congr (setMeta_certs s ok f) id

/-- Storing a secret is storing it for one entry. -/
theorem secretEnc_setSecret {s s' : Store} {id : Int} {enc : Cipher}
    (h : s.setSecret id enc = some s') (id' : Int) :
    s'.secretEnc id' = if id' = id then enc else s.secretEnc id' := by
  unfold Store.setSecret at h
  cases hrow : s.certs.get? id with
  | none => simp [hrow] at h
  | some r =>
    rw [hrow] at h
    dsimp only at h
    split_ifs at h
    obtain rfl := Option.some.inj h
    simp only [Store.secretEnc, Table.get?_modify]
    split_ifs with hid
    · rw [hid, hrow]
      rfl
    · rfl

theorem keyring_clearAllSecrets (s : Store) : s.clearAllSecrets.keyring = s.keyring := rfl

theorem secretEnc_clearAllSecrets (s : Store) (id : Int) :
    s.clearAllSecrets.secretEnc id = Sealed.empty := by
  simp only [Store.secretEnc, Store.clearAllSecrets, Table.get?_modifyAll]
  cases s.certs.get? id <;> rfl

/-- A new entry has no secret, and the others keep theirs. -/
theorem secretEnc_addCert (s : Store) (r : CertRow) (id : Int) :
    (s.addCert r).secretEnc id = s.secretEnc id := by
  simp only [Store.secretEnc, Store.addCert, Table.get?_insert]
  split_ifs with hid
  · rw [hid, Table.get?_nextKey]
    rfl
  · rfl

/-- Storing a secret changes entries only. -/
theorem getD_setSecret (s : Store) (id : Int) (enc : Cipher) :
    (((s.setSecret id enc).getD s).keyring = s.keyring) ∧
      ((s.setSecret id enc).getD s).wrappers = s.wrappers := by
  unfold Store.setSecret
  cases s.certs.get? id with
  | none => exact ⟨rfl, rfl⟩
  | some r =>
    dsimp only
    split_ifs <;> exact ⟨rfl, rfl⟩

theorem keyring_insertVaultWrapper (s : Store) (row : WrapperRow) :
    (s.insertVaultWrapper row).keyring = s.keyring := by
  unfold Store.insertVaultWrapper
  split_ifs <;> rfl

theorem deleteCredential_eq (s : Store) (id userId : Int) :
    (s.deleteCredential id userId).keyring = s.keyring ∧
      (s.deleteCredential id userId).certs = s.certs ∧
      (s.deleteCredential id userId).wrappers ⊆ s.wrappers := by
  unfold Store.deleteCredential
  cases s.credentials.get? id with
  | none => exact ⟨rfl, rfl, List.Subset.refl _⟩
  | some r =>
    dsimp only
    split_ifs
    · exact ⟨rfl, rfl, fun _ hw => List.mem_of_mem_filter hw⟩
    · exact ⟨rfl, rfl, List.Subset.refl _⟩

end CertGuard
