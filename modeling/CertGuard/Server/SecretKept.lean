import CertGuard.Server.EntryRequests

/-!
# What becomes of a secret that is set

A request to set the secret of an entry carries it in one of two fields: as a value for the
server to seal, or as the text a browser sealed. Which of them counts is decided by the mode of
the server; which of them the browser fills, by what the browser takes the mode to be.

## Main definitions

* `secretToStore` — what the server is to store, unless it is locked
* `KeepsSecrets` — what is asked of the request
* `Misplaced` — the secret is in the field that does not count
* `browserSecretBody` — the request a browser makes

## Main results

* `handleSetSecret_of_ready`, `handleSetSecret_of_refused` — what the handler does
* `keeps_secret_iff` — a request keeps secrets exactly when it does not carry one in the field
  that does not count
* `misplaced_secretBody_iff` — as a browser does that takes the mode to be another
-/

namespace CertGuard

variable {h : Host} {id : Int} {req : SetSecretRequest} {path : Option Int}
  {body : Option SetSecretRequest}

/-! ### The handler -/

/-- What the server is to store for a request; nothing while it is locked. -/
def secretToStore (h : Host) (req : SetSecretRequest) : Option Cipher :=
  if h.vault.zk then some req.enc
  else h.vault.box.map fun dek => if req.value = "" then Sealed.empty else boxSeal dek req.value

/-- The handler comes to its statement with `enc` to be stored for the entry `id`, which is
there. -/
def ReadyToStore (h : Host) (path : Option Int) (body : Option SetSecretRequest) (id : Int)
    (req : SetSecretRequest) (enc : Cipher) : Prop :=
  h.vault.enabled = true ∧ path = some id ∧ body = some req ∧ secretToStore h req = some enc ∧
    h.store.IsActive id

theorem setSecret_eq_some_iff {s : Store} (enc : Cipher) :
    (∃ s', s.setSecret id enc = some s') ↔ s.IsActive id := by
  unfold Store.setSecret Store.IsActive
  cases s.certs.get? id with
  | none => simp
  | some r => cases hr : r.active <;> simp [hr]

/-- Once it knows what to store, the handler stores it or says that there is no such entry. -/
theorem handleSetSecret_of_secret {enc : Cipher} (henabled : h.vault.enabled = true)
    (henc : secretToStore h req = some enc) (id : Int) :
    ∃ hasSecret, handleSetSecret h (some id) (some req) =
      secretStored h.store (h.store.setSecret id enc) hasSecret := by
  simp only [handleSetSecret, henabled, Bool.true_eq_false, if_false, withID]
  by_cases hzk : h.vault.zk = true
  · rw [secretToStore, if_pos hzk] at henc
    obtain rfl := Option.some.inj henc
    rw [if_pos hzk]
    exact ⟨_, rfl⟩
  · rw [secretToStore, if_neg hzk] at henc
    obtain ⟨dek, hbox, rfl⟩ := Option.map_eq_some_iff.mp henc
    rw [if_neg hzk, if_neg (by simp [hbox])]
    by_cases hvalue : req.value = ""
    · simp only [storeSecret, hvalue, if_true]
      exact ⟨_, rfl⟩
    · simp only [storeSecret, hvalue, if_false, Host.vaultSeal, hbox]
      exact ⟨_, rfl⟩

/-- A server that has nothing to store is locked. -/
theorem secretToStore_eq_none_iff :
    secretToStore h req = none ↔ h.vault.zk = false ∧ h.vault.box = none := by
  rw [secretToStore]
  split_ifs with hzk <;> simp [hzk]

/-- A request comes to its statement and is answered 200, or nothing is stored and the answer is
another. -/
theorem handleSetSecret_cases (h : Host) (path : Option Int) (body : Option SetSecretRequest) :
    (∃ id req enc s', ReadyToStore h path body id req enc ∧
        h.store.setSecret id enc = some s' ∧ (handleSetSecret h path body).1 = s' ∧
        (handleSetSecret h path body).2.status = 200) ∨
      (∀ id req enc, ¬ ReadyToStore h path body id req enc) ∧
        (handleSetSecret h path body).1 = h.store ∧
        (handleSetSecret h path body).2.status ≠ 200 := by
  by_cases henabled : h.vault.enabled = true
  · cases path with
    | none => exact Or.inr ⟨by simp [ReadyToStore], by simp [handleSetSecret, henabled, withID],
        by simp [handleSetSecret, henabled, withID, writeErr]⟩
    | some id =>
      cases body with
      | none => exact Or.inr ⟨by simp [ReadyToStore], by simp [handleSetSecret, henabled, withID],
          by simp [handleSetSecret, henabled, withID, writeErr]⟩
      | some req =>
        cases henc : secretToStore h req with
        | none =>
          have hlocked := secretToStore_eq_none_iff.mp henc
          refine Or.inr ⟨?_, ?_, ?_⟩
          · rintro id' req' enc ⟨-, -, hreq, henc', -⟩
            obtain rfl := Option.some.inj hreq
            simp [henc] at henc'
          · simp [handleSetSecret, henabled, withID, hlocked]
          · simp [handleSetSecret, henabled, withID, hlocked, writeErr]
        | some enc =>
          obtain ⟨hasSecret, heq⟩ := handleSetSecret_of_secret henabled henc id
          rw [heq]
          cases hset : h.store.setSecret id enc with
          | none =>
            -- there is no such entry, or it was deleted
            refine Or.inr ⟨?_, rfl, by simp [secretStored, writeErr]⟩
            rintro id' req' enc' ⟨-, hid, -, -, hactive⟩
            obtain rfl := Option.some.inj hid
            obtain ⟨s', hs'⟩ := (setSecret_eq_some_iff enc).mpr hactive
            simp [hset] at hs'
          | some s' =>
            have hactive := (setSecret_eq_some_iff _).mp ⟨s', hset⟩
            exact Or.inl ⟨id, req, enc, s', ⟨henabled, rfl, rfl, henc, hactive⟩, hset, rfl, rfl⟩
  · refine Or.inr ⟨fun id req enc hready => henabled hready.1, ?_, ?_⟩
    · simp [handleSetSecret, henabled]
    · simp [handleSetSecret, henabled, writeErr]

/-! ### What is asked of it -/

/-- The request carries a secret, in one field or the other. -/
def SetSecretRequest.Carries (req : SetSecretRequest) : Prop :=
  req.value ≠ "" ∨ req.enc ≠ Sealed.empty

/-- What the request carried comes back when the secret is revealed: the value, or the text as
the browser sealed it. -/
def Recovers (h : Host) (path : Option Int) (req : SetSecretRequest) : Prop :=
  if h.vault.zk then
    req.enc ≠ Sealed.empty ∧ (handleRevealSecret h path).2 = writeJSON 200 (.enc req.enc)
  else req.value ≠ "" ∧ (handleRevealSecret h path).2 = writeJSON 200 (.value req.value)

/-- A request that is answered 200 has its secret stored, one with nothing in it clears the secret
of its entry, and any other leaves what is stored. -/
structure KeepsSecrets (h : Host) (path : Option Int) (body : Option SetSecretRequest) : Prop where
  stored : ∀ req, body = some req → req.Carries → (handleSetSecret h path body).2.status = 200 →
    Recovers { h with store := (handleSetSecret h path body).1 } path req
  cleared : ∀ id, h.store.secretEnc id ≠ Sealed.empty →
    (handleSetSecret h path body).1.secretEnc id = Sealed.empty →
      ∃ req, path = some id ∧ body = some req ∧ ¬ req.Carries
  refused : (handleSetSecret h path body).2.status ≠ 200 →
    ∀ id, (handleSetSecret h path body).1.secretEnc id = h.store.secretEnc id

/-- The request reaches an entry, and its secret is in the field that does not count. -/
def Misplaced (h : Host) (path : Option Int) (body : Option SetSecretRequest) : Prop :=
  ∃ id req, path = some id ∧ body = some req ∧ h.vault.enabled = true ∧ h.store.IsActive id ∧
    (h.vault.zk = true ∧ req.enc = Sealed.empty ∧ req.value ≠ "" ∨
      h.vault.zk = false ∧ h.vault.box.isSome ∧ req.value = "" ∧ req.enc ≠ Sealed.empty)

theorem getByID_setSecret {s s' : Store} {enc : Cipher} (hset : s.setSecret id enc = some s') :
    ∃ c, s'.getByID id = some c ∧ c.secretEnc = enc := by
  obtain ⟨r, hrow, hactive⟩ := (setSecret_eq_some_iff _).mp ⟨s', hset⟩
  simp only [Store.setSecret, hrow, hactive, if_true, Option.some.injEq] at hset
  subst hset
  exact ⟨scanRowValues id { r with secretEnc := enc }, by simp [Store.getByID, hrow], rfl⟩

/-- A request whose secret is in the field that counts is recovered. -/
theorem recovers_of_stored {s' : Store} {enc : Cipher} (henabled : h.vault.enabled = true)
    (henc : secretToStore h req = some enc) (hset : h.store.setSecret id enc = some s')
    (hfield : if h.vault.zk then req.enc ≠ Sealed.empty else req.value ≠ "") :
    Recovers { h with store := s' } (some id) req := by
  obtain ⟨c, hc, hcenc⟩ := getByID_setSecret hset
  unfold Recovers
  by_cases hzk : h.vault.zk = true
  · -- the stored text is handed out as it is
    rw [if_pos hzk] at hfield ⊢
    rw [secretToStore, if_pos hzk] at henc
    obtain rfl := Option.some.inj henc
    refine ⟨hfield, ?_⟩
    simp [handleRevealSecret, henabled, withID, hc, hcenc, hfield, hzk]
  · -- the key that sealed the value is still there to open it
    rw [if_neg hzk] at hfield ⊢
    rw [secretToStore, if_neg hzk] at henc
    obtain ⟨dek, hbox, rfl⟩ := Option.map_eq_some_iff.mp henc
    rw [if_neg hfield] at hcenc
    have hne : boxSeal dek req.value ≠ Sealed.empty := by simp [boxSeal, Sealed.empty]
    refine ⟨hfield, ?_⟩
    simp [handleRevealSecret, henabled, withID, hc, hcenc, hne, hzk, hbox, Host.vaultOpen]

/-- What is to be stored is empty only when the field that counts is. -/
theorem secretToStore_eq_empty (henc : secretToStore h req = some Sealed.empty) :
    if h.vault.zk then req.enc = Sealed.empty else req.value = "" := by
  by_cases hzk : h.vault.zk = true
  · rw [secretToStore, if_pos hzk] at henc
    rw [if_pos hzk]
    exact Option.some.inj henc
  · rw [secretToStore, if_neg hzk] at henc
    rw [if_neg hzk]
    obtain ⟨dek, -, hempty⟩ := Option.map_eq_some_iff.mp henc
    by_contra hvalue
    rw [if_neg hvalue, boxSeal, Sealed.empty] at hempty
    exact absurd hempty (by simp)

theorem secretToStore_ne_empty
    (hfield : if h.vault.zk then req.enc ≠ Sealed.empty else req.value ≠ "") :
    secretToStore h req ≠ some Sealed.empty := by
  intro henc
  have hempty := secretToStore_eq_empty henc
  split_ifs at hempty hfield
  · exact hfield hempty
  · exact hfield hempty

theorem Recovers.field (hrecovers : Recovers h path req) :
    if h.vault.zk then req.enc ≠ Sealed.empty else req.value ≠ "" := by
  unfold Recovers at hrecovers
  split_ifs at hrecovers ⊢
  · exact hrecovers.1
  · exact hrecovers.1

/-- A request that carries a secret and is not misplaced has it in the field that counts. -/
theorem field_of_not_misplaced {enc : Cipher} (hready : ReadyToStore h path body id req enc)
    (hplaced : ¬ Misplaced h path body) (hcarries : req.Carries) :
    if h.vault.zk then req.enc ≠ Sealed.empty else req.value ≠ "" := by
  obtain ⟨henabled, rfl, rfl, henc, hactive⟩ := hready
  by_cases hzk : h.vault.zk = true
  · rw [if_pos hzk]
    intro hempty
    exact hplaced ⟨id, req, rfl, rfl, henabled, hactive,
      Or.inl ⟨hzk, hempty, hcarries.resolve_right (not_not.mpr hempty)⟩⟩
  · rw [if_neg hzk]
    intro hempty
    rw [secretToStore, if_neg hzk] at henc
    obtain ⟨dek, hbox, -⟩ := Option.map_eq_some_iff.mp henc
    exact hplaced ⟨id, req, rfl, rfl, henabled, hactive,
      Or.inr ⟨by simpa using hzk, by simp [hbox], hempty,
        hcarries.resolve_left (not_not.mpr hempty)⟩⟩

/-- A misplaced request comes to its statement, with an empty text to store. -/
theorem Misplaced.ready (hplaced : Misplaced h path body) :
    ∃ id req, ReadyToStore h path body id req Sealed.empty ∧ req.Carries := by
  obtain ⟨id, req, rfl, rfl, henabled, hactive, hfields⟩ := hplaced
  refine ⟨id, req, ⟨henabled, rfl, rfl, ?_, hactive⟩, ?_⟩
  · rcases hfields with ⟨hzk, henc, -⟩ | ⟨hzk, hbox, hvalue, -⟩
    · simp [secretToStore, hzk, henc]
    · obtain ⟨dek, hdek⟩ := Option.isSome_iff_exists.mp hbox
      simp [secretToStore, hzk, hdek, hvalue]
  · rcases hfields with ⟨-, -, hvalue⟩ | ⟨-, -, -, henc⟩
    · exact Or.inl hvalue
    · exact Or.inr henc

/-- A request keeps secrets exactly when it does not reach an entry with its secret in the field
that does not count. -/
theorem keeps_secret_iff (h : Host) (path : Option Int) (body : Option SetSecretRequest) :
    KeepsSecrets h path body ↔ ¬ Misplaced h path body := by
  constructor
  · intro hkeeps hplaced
    obtain ⟨id, req, hready, hcarries⟩ := hplaced.ready
    rcases handleSetSecret_cases h path body with ⟨-, -, -, -, -, -, -, hok⟩ | ⟨hnever, -, -⟩
    · -- what is recovered is in the field that counts, but an empty text was stored
      have hrecovers := hkeeps.stored req hready.2.2.1 hcarries hok
      have hempty : secretToStore h req = some Sealed.empty := hready.2.2.2.1
      exact secretToStore_ne_empty hrecovers.field hempty
    · exact hnever id req _ hready
  · intro hplaced
    rcases handleSetSecret_cases h path body with
      ⟨id, req, enc, s', hready, hset, hstore, hok⟩ | ⟨-, hstore, hrefused⟩
    · have hfield := field_of_not_misplaced hready hplaced
      obtain ⟨henabled, rfl, rfl, henc, hactive⟩ := hready
      exact {
        stored := by
          intro req' hreq hcarries _
          obtain rfl := Option.some.inj hreq
          rw [hstore]
          exact recovers_of_stored henabled henc hset (hfield hcarries)
        cleared := by
          intro id' hbefore hafter
          -- only the entry of the request may have lost its secret
          rw [hstore, secretEnc_setSecret hset] at hafter
          by_cases hid : id' = id
          · rw [if_pos hid] at hafter
            subst hid
            exact ⟨req, rfl, rfl, fun hcarries =>
              secretToStore_ne_empty (hfield hcarries) (hafter ▸ henc)⟩
          · rw [if_neg hid] at hafter
            exact absurd hafter hbefore
        refused := fun hstatus => absurd hok hstatus }
    · exact {
        stored := fun _ _ _ hok => absurd hok hrefused
        cleared := fun id hbefore hafter => absurd (hstore ▸ hafter) hbefore
        refused := fun _ id => by rw [hstore] }

/-- An entry in a vault in zero-knowledge mode, with a secret that a browser sealed. -/
def demoZkHost : Host where
  vault := { enabled := true, zk := true }
  store := ((({} : Store).addCert (createRow 0 0 { name := "router", expiresAt := none })).setSecret
    1 (.under (.drawn 0) "old")).getD {}
  keyFile := none

/-- A tab that was opened before the mode was changed sets a secret: the answer is 200, and there
is no secret any more. -/
theorem stale_tab_clears_secret :
    ¬ KeepsSecrets demoZkHost (some 1) (some { value := "new" }) ∧
      demoZkHost.store.secretEnc 1 = .under (.drawn 0) "old" ∧
      (handleSetSecret demoZkHost (some 1) (some { value := "new" })).2 =
        writeJSON 200 (.hasSecret false) ∧
      (handleSetSecret demoZkHost (some 1) (some { value := "new" })).1.secretEnc 1 =
        Sealed.empty := by
  refine ⟨fun hkeeps => ?_, by decide +kernel, by decide +kernel, by decide +kernel⟩
  have hrecovers := hkeeps.stored { value := "new" } rfl (Or.inl (by decide)) (by decide +kernel)
  exact hrecovers.1 rfl

/-! ### The request a browser makes -/

/-- `secretBody`, of a browser that takes zero-knowledge mode to be on or off. -/
def browserSecretBody (zkEnabled : Bool) (encrypt : String → Cipher) (plaintext : String) :
    SetSecretRequest :=
  if zkEnabled = false then { value := plaintext }
  else if plaintext = "" then { enc := Sealed.empty }
  else { enc := encrypt plaintext }

/-- For an entry that is there and a server that is not locked, the request of a browser is
misplaced exactly when it carries something and the browser is wrong about the mode. -/
theorem misplaced_secretBody_iff {zkEnabled : Bool} {encrypt : String → Cipher} {plaintext : String}
    (hencrypt : encrypt plaintext ≠ Sealed.empty) (henabled : h.vault.enabled = true)
    (hactive : h.store.IsActive id) (hunlocked : h.vault.zk = false → h.vault.box.isSome) :
    Misplaced h (some id) (some (browserSecretBody zkEnabled encrypt plaintext)) ↔
      plaintext ≠ "" ∧ zkEnabled ≠ h.vault.zk := by
  unfold Misplaced browserSecretBody
  cases zkEnabled <;> cases hzk : h.vault.zk <;> by_cases hplain : plaintext = "" <;>
    simp [henabled, hactive, hzk, hplain, hencrypt, hunlocked]

end CertGuard
