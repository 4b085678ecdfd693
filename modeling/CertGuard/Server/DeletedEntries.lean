import CertGuard.Server.EntryRequests

/-!
# Requests about deleted entries

A deleted entry keeps its row. The statements that change an entry look at active rows only
and then find nothing, but `GetByID` and `SaveCoverage` find the row as it was, and so do the
handlers that start from there.

## Main definitions

* `EntryRequest` — a request about the entry of an id
* `SeesGone` — a request whose handler comes to a statement that finds nothing

## Main results

* `gone_not_found_iff` — a deleted entry is not found, and nothing changed, exactly by these
* `rescanned_after_delete` — and one that brings it back
-/

namespace CertGuard

/-- A request about the entry of an id. -/
inductive EntryRequest
  | update (body : Option UpdateCertRequest)
  | delete
  | rescan (env : SweepEnv)
  | coverage (env : SweepEnv)
  | setSecret (body : Option SetSecretRequest)
  | revealSecret
  | calendar

/-- The store after a request, and the answer. -/
def EntryRequest.handle (actor : String) (now : Int) (h : Host) (id : Int) :
    EntryRequest → Store × Answer EntryBody
  | update body => handleUpdateCert actor now h.store (some id) body
  | delete => handleDeleteCert actor now h.store (some id)
  | rescan env => handleRescanCert env h.store (some id)
  | coverage env => handleCoverage env h.store (some id)
  | setSecret body => handleSetSecret h (some id) body
  | revealSecret => handleRevealSecret h (some id)
  | calendar => handleCalendarOne h.store (some id)

/-- The request is answered like one about an id that was never there: with 404 and an error,
and nothing has changed. -/
def NotFound (actor : String) (now : Int) (h : Host) (id : Int) (q : EntryRequest) : Prop :=
  ∃ msg, q.handle actor now h id = (h.store, writeErr 404 msg)

/-- The handler comes to a statement that finds no active entry, or finds no secret. -/
def SeesGone (h : Host) (id : Int) : EntryRequest → Prop
  | .update body => ∃ req, body = some req ∧ sanitizeLabel req.name ≠ ""
  | .delete => True
  | .rescan _ => False
  | .coverage _ => False
  | .setSecret body => h.vault.enabled = true ∧ (∃ req, body = some req) ∧
      (h.vault.zk = true ∨ h.vault.box.isSome = true)
  | .revealSecret => h.vault.enabled = true ∧ h.store.secretEnc id = Sealed.empty
  | .calendar => False

variable {h : Host} {id : Int} {r : CertRow} {s : Store} {actor : String} {β : Type}

/-! ### Statements on a deleted entry -/

/-- A statement on active rows finds nothing. -/
theorem updateActive_eq_none (hrow : s.certs.get? id = some r) (hgone : r.active = false)
    (f : CertRow → CertRow) : s.updateActive id f = none :=
  if_neg (Store.not_isActive hrow hgone)

theorem setSecret_eq_none (hrow : s.certs.get? id = some r) (hgone : r.active = false)
    (enc : Cipher) : s.setSecret id enc = none := by
  simp [Store.setSecret, hrow, hgone]

/-- But the entry is still read. -/
theorem getByID_eq_some (hrow : s.certs.get? id = some r) :
    s.getByID id = some (scanRowValues id r) := by
  rw [Store.getByID, hrow, Option.map_some]

/-! ### Answers -/

/-- Another status is not 404. -/
theorem ne_writeErr {status : Nat} {body : Except String β} {msg : String} {s' : Store}
    (hstatus : status ≠ 404) : (s', (⟨status, body⟩ : Answer β)) ≠ (s, writeErr 404 msg) := by
  intro heq
  exact hstatus (congrArg (fun p => p.2.status) heq)

theorem notFound_update (now : Int) (hrow : h.store.certs.get? id = some r)
    (hgone : r.active = false) (body : Option UpdateCertRequest) :
    NotFound actor now h id (.update body) ↔ SeesGone h id (.update body) := by
  simp only [NotFound, EntryRequest.handle, handleUpdateCert, withID, SeesGone]
  cases body with
  | none =>
    refine iff_of_false ?_ (by simp)
    rintro ⟨msg, heq⟩
    exact ne_writeErr (by decide) heq
  | some req =>
    by_cases hname : sanitizeLabel req.name = ""
    · simp only [if_pos hname]
      refine iff_of_false ?_ (by simp [hname])
      rintro ⟨msg, heq⟩
      exact ne_writeErr (by decide) heq
    · simp only [if_neg hname, Store.updateEntry, updateActive_eq_none hrow hgone]
      exact iff_of_true ⟨_, rfl⟩ ⟨req, rfl, hname⟩

theorem notFound_delete (now : Int) (hrow : h.store.certs.get? id = some r)
    (hgone : r.active = false) : NotFound actor now h id .delete := by
  simp only [NotFound, EntryRequest.handle, handleDeleteCert, withID, Store.softDelete,
    updateActive_eq_none hrow hgone]
  exact ⟨_, rfl⟩

theorem found_rescan (now : Int) (hrow : h.store.certs.get? id = some r) (env : SweepEnv) :
    ¬ NotFound actor now h id (.rescan env) := by
  rintro ⟨msg, heq⟩
  simp only [EntryRequest.handle, handleRescanCert, withID, getByID_eq_some hrow,
    rescanEntry] at heq
  split_ifs at heq
  · split at heq <;> exact ne_writeErr (by decide) heq
  · exact ne_writeErr (by decide) heq
  · split at heq <;> exact ne_writeErr (by decide) heq

theorem found_coverage (now : Int) (hrow : h.store.certs.get? id = some r) (env : SweepEnv) :
    ¬ NotFound actor now h id (.coverage env) := by
  rintro ⟨msg, heq⟩
  simp only [EntryRequest.handle, handleCoverage, withID, getByID_eq_some hrow] at heq
  split_ifs at heq <;> exact ne_writeErr (by decide) heq

theorem found_calendar (now : Int) (hrow : h.store.certs.get? id = some r) :
    ¬ NotFound actor now h id .calendar := by
  rintro ⟨msg, heq⟩
  simp only [EntryRequest.handle, handleCalendarOne, withID, getByID_eq_some hrow] at heq
  exact ne_writeErr (by decide) heq

theorem notFound_setSecret (now : Int) (hrow : h.store.certs.get? id = some r)
    (hgone : r.active = false) (body : Option SetSecretRequest) :
    NotFound actor now h id (.setSecret body) ↔ SeesGone h id (.setSecret body) := by
  simp only [NotFound, EntryRequest.handle, handleSetSecret, withID, SeesGone]
  cases henabled : h.vault.enabled with
  | false =>
    refine iff_of_false ?_ (by simp)
    rintro ⟨msg, heq⟩
    exact ne_writeErr (by decide) heq
  | true =>
    -- the answer is 404 exactly if the handler comes to its statement
    simp only [Bool.true_eq_false, if_false, true_and]
    cases body with
    | none =>
      refine iff_of_false ?_ (by simp)
      rintro ⟨msg, heq⟩
      exact ne_writeErr (by decide) heq
    | some req =>
      cases hzk : h.vault.zk with
      | true =>
        simp only [if_true, setSecret_eq_none hrow hgone, secretStored]
        exact iff_of_true ⟨_, rfl⟩ (by simp)
      | false =>
        cases hbox : h.vault.box with
        | none =>
          simp only [Bool.false_eq_true, if_false, Option.isNone_none, if_true]
          refine iff_of_false ?_ (by simp)
          rintro ⟨msg, heq⟩
          exact ne_writeErr (by decide) heq
        | some dek =>
          simp only [Bool.false_eq_true, if_false, Option.isNone_some]
          refine iff_of_true ?_ (by simp)
          have hstored : storeSecret h id req.value = .ok none := by
            unfold storeSecret
            split_ifs
            · rw [setSecret_eq_none hrow hgone]
            · simp only [Host.vaultSeal, hbox, setSecret_eq_none hrow hgone]
          rw [hstored]
          exact ⟨_, rfl⟩

theorem notFound_revealSecret (now : Int) (hrow : h.store.certs.get? id = some r) :
    NotFound actor now h id .revealSecret ↔ SeesGone h id .revealSecret := by
  have hsecret : h.store.secretEnc id = (scanRowValues id r).secretEnc := by
    rw [Store.secretEnc, hrow]
    rfl
  simp only [NotFound, EntryRequest.handle, handleRevealSecret, withID, SeesGone, hsecret,
    getByID_eq_some hrow]
  cases henabled : h.vault.enabled with
  | false =>
    refine iff_of_false ?_ (by simp)
    -- every other refusal has another status
    rintro ⟨msg, heq⟩
    exact ne_writeErr (by decide) heq
  | true =>
    simp only [Bool.true_eq_false, if_false, true_and]
    by_cases hempty : (scanRowValues id r).secretEnc = Sealed.empty
    · simp only [if_pos hempty]
      exact iff_of_true ⟨_, rfl⟩ hempty
    · refine iff_of_false ?_ hempty
      rintro ⟨msg, heq⟩
      simp only [if_neg hempty] at heq
      split_ifs at heq
      · exact ne_writeErr (by decide) heq
      · exact ne_writeErr (by decide) heq
      · split at heq <;> exact ne_writeErr (by decide) heq

/-- For every state of the server, every deleted entry and every request about its id: the
entry is not found, and nothing has changed, exactly if the request is to delete it, to change
it with a name that is left after cleaning, to set its secret with the vault enabled and in
zero-knowledge mode or unlocked, or to reveal its secret where none is stored, with the vault
enabled. -/
theorem gone_not_found_iff (actor : String) (now : Int) (h : Host) (id : Int) (r : CertRow)
    (q : EntryRequest) (hrow : h.store.certs.get? id = some r) (hgone : r.active = false) :
    NotFound actor now h id q ↔ SeesGone h id q := by
  cases q with
  | update body => exact notFound_update now hrow hgone body
  | delete => exact iff_of_true (notFound_delete now hrow hgone) trivial
  | rescan env => exact iff_of_false (found_rescan now hrow env) False.elim
  | coverage env => exact iff_of_false (found_coverage now hrow env) False.elim
  | setSecret body => exact notFound_setSecret now hrow hgone body
  | revealSecret => exact notFound_revealSecret now hrow
  | calendar => exact iff_of_false (found_calendar now hrow) False.elim

/-- An endpoint was deleted. -/
def goneEndpoint : Host where
  vault := {}
  keyFile := default
  store :=
    { certs := Table.empty.insert
        { name := "web", kind := .endpoint, host := "a", port := 443, sha256 := "aa"
          active := false, expiresAt := [], createdAt := [] } }

/-- The endpoint still answers. -/
def answeringEnv : SweepEnv where
  clock := 0
  scan _ := .ok { sha256 := "aa" }
  reach _ _ := .error "no such host"
  lookup _ := .error "no such domain"

/-- An entry with a secret was deleted; the vault is unlocked. -/
def goneSecret : Host where
  vault :=
    { enabled := true, dek := .fromString "key".toList, box := some (.fromString "key".toList) }
  keyFile := default
  store :=
    { certs := Table.empty.insert
        { name := "pin", kind := .manual, active := false, expiresAt := [], createdAt := []
          secretEnc := boxSeal (.fromString "key".toList) "1234" } }

/-- The secret cannot be set any more, but is shown. -/
theorem gone_not_found_demo :
    (NotFound "ann" 0 goneSecret 1 (.setSecret (some { value := "5678" })) ↔
      SeesGone goneSecret 1 (.setSecret (some { value := "5678" }))) ∧
    (NotFound "ann" 0 goneSecret 1 .revealSecret ↔ SeesGone goneSecret 1 .revealSecret) ∧
    (EntryRequest.revealSecret.handle "ann" 0 goneSecret 1).2 = writeJSON 200 (.value "1234") :=
  ⟨gone_not_found_iff "ann" 0 goneSecret 1 _ _ rfl rfl,
    gone_not_found_iff "ann" 0 goneSecret 1 _ _ rfl rfl, by decide⟩

/-- A request to rescan it answers 200, and there is an active entry again. -/
theorem rescanned_after_delete : ¬ NotFound "ann" 0 goneEndpoint 1 (.rescan answeringEnv) ∧
    ((EntryRequest.rescan answeringEnv).handle "ann" 0 goneEndpoint 1).1.list.map Cert.id =
      [2] := by
  have hstatus :
      ((EntryRequest.rescan answeringEnv).handle "ann" 0 goneEndpoint 1).2.status = 200 := by
    decide +kernel
  refine ⟨?_, by decide +kernel⟩
  rintro ⟨msg, heq⟩
  have hcode : 200 = 404 := hstatus.symm.trans (congrArg (fun p => p.2.status) heq)
  exact absurd hcode (by decide)

end CertGuard
