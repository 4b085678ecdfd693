import CertGuard.Server.KeySignIn

/-!
# Replay counters of security keys

The counter of an assertion is compared with the one in the row the key was loaded from, and
written back in a later statement, whatever the row holds by then and without a look at
whether the statement succeeds. Two sign-ins under way at once are compared with the same
count: both may be accepted with one counter, and the lower of two counters may be written
last.

## Main definitions

* `WebAuthn.CountsBy` — when the library warns of a clone
* `CountLog` — the counters accepted, and those whose `UPDATE` failed
* `SoundCounts` — a step lowers no stored count and accepts no counter again
* `CountsSettled` — what it must find

## Main results

* `counts_sound_iff` — the counts of a run are sound exactly if its steps find this
* `count_lowered` — and a run that lowers one
-/

namespace CertGuard

open Transition

/-- A credential is the answer to an assertion with a counter, compared with the row of one of
the keys of a user. -/
def Compared (counter : Nat) (wu : WebAuthnUser) (cred : WebAuthn.Credential) : Prop :=
  ∃ c ∈ wu.creds, c.credentialId = cred.id ∧
    (cred.cloneWarning = true ↔ counter ≤ c.signCount ∧ (counter ≠ 0 ∨ c.signCount ≠ 0)) ∧
    (cred.cloneWarning = false → cred.signCount = counter)

/-- The library warns of a clone exactly if the counter of the assertion is not greater than
the one loaded and one of them is not zero, and returns the counter otherwise. -/
structure WebAuthn.CountsBy (lib : WebAuthn) (counter : String → Nat) : Prop where
  finishLogin : ∀ wu session body cred,
    lib.finishLogin wu session body = some cred → Compared (counter body) wu cred
  /-- The user is the one the lookup has returned. -/
  finishPasskeyLogin : ∀ lookup session body wu cred,
    lib.finishPasskeyLogin lookup session body = some (wu, cred) →
      (∃ rawID userHandle, lookup rawID userHandle = some wu) ∧ Compared (counter body) wu cred

/-! ### What is recorded -/

/-- The non-zero counters accepted, with their keys, and those whose `UPDATE` failed. -/
structure CountLog where
  accepted : List (String × Nat) := []
  failed : List (String × Nat) := []

/-- The `UPDATE` a request is about to make. -/
def KeyPc.touches : KeyPc → Option (String × Nat)
  | .loginTouch _ cred _ | .passkeyTouch _ cred => some (cred.id, cred.signCount)
  | _ => none

namespace CountLog

variable (lib : WebAuthn) (counter : String → Nat) (cfg : AuthConfig)

/-- A counter is accepted. -/
def accept (g : CountLog) (id : String) (n : Nat) : CountLog :=
  if n = 0 then g else { g with accepted := (id, n) :: g.accepted }

/-- An `UPDATE` fails. -/
def fail (g : CountLog) (id : String) (n : Nat) : CountLog :=
  if n = 0 then g else { g with failed := (id, n) :: g.failed }

/-- A step of a request is recorded, by where the request stands before and after it. -/
def noteNext (g : CountLog) (eff : KeyEffect) : KeyPc → KeyPc → CountLog
  | .loginFinish _ _ body, .loginTouch _ cred _ => g.accept cred.id (counter body)
  | .passkeyFinish _ body, .passkeyTouch _ cred => g.accept cred.id (counter body)
  | .loginTouch _ cred _, _ | .passkeyTouch _ cred, _ =>
    if eff = .nothing then g.fail cred.id cred.signCount else g
  | _, _ => g

/-- Keeps the log of a run. -/
def note (g : CountLog) (y : Keys) (act : KeyAct) : CountLog :=
  match act with
  | .step i t =>
    match y.requests[i]?, y.move lib cfg i t with
    | some pc, some (eff, pc') => g.noteNext counter eff pc pc'
    | _, _ => g
  | _ => g

end CountLog

/-- The requests with the log. -/
abbrev countStep (lib : WebAuthn) (counter : String → Nat) (cfg : AuthConfig) :
    Keys × CountLog → KeyAct → Option (Keys × CountLog) :=
  watch (Keys.step lib cfg) (CountLog.note lib counter cfg)

/-! ### Sound counts -/

section Conditions

variable (lib : WebAuthn) (counter : String → Nat) (cfg : AuthConfig)

/-- No count stored is lower after an action, and no counter but zero has been accepted twice
for a key. -/
structure SoundCounts (w : Keys × CountLog) (act : KeyAct) : Prop where
  kept : ∀ w', countStep lib counter cfg w act = some w' → ∀ k row row',
    w.1.store.credentials.get? k = some row → w'.1.store.credentials.get? k = some row' →
      row.signCount ≤ row'.signCount
  once : ∀ w', countStep lib counter cfg w act = some w' → w'.2.accepted.Nodup

/-- What the library says of the assertion a request comes with. -/
def KeyPc.verdict (s : Store) (t : KeyTurn) : KeyPc → Option WebAuthn.Credential
  | .loginFinish user cer body =>
    if t.ok = true ∧ t.relyingParty = true then
      lib.finishLogin (webAuthnUserFor s user) cer.session body
    else none
  | .passkeyFinish cer body =>
    if t.ok = true ∧ t.relyingParty = true then
      (lib.finishPasskeyLogin (discoverableUser s) cer.session body).map Prod.snd
    else none
  | _ => none

/-- A request is about to make an `UPDATE`. -/
def InFlight (requests : List KeyPc) (e : String × Nat) : Prop :=
  ∃ (i : Nat) (pc : KeyPc), requests[i]? = some pc ∧ pc.touches = some e

/-- A counter of a key was accepted and is still to be written, or its `UPDATE` has failed. -/
def Outstanding (w : Keys × CountLog) (id : String) (n : Nat) : Prop :=
  InFlight w.1.requests (id, n) ∨ (id, n) ∈ w.2.failed

/-- No `UPDATE` finds a higher count than it writes, and no counter but zero passes while the
same one of the same key is outstanding. -/
structure CountsSettled (w : Keys × CountLog) (act : KeyAct) : Prop where
  touch : ∀ id n, w.1.effect lib cfg act = .touchCredential id n → ∀ k row,
    w.1.store.credentials.get? k = some row → row.credentialId = id → row.signCount ≤ n
  check : ∀ i t (pc : KeyPc) cred, act = .step i t → w.1.requests[i]? = some pc →
    pc.verdict lib w.1.store t = some cred → cred.cloneWarning = false → cred.signCount ≠ 0 →
      ¬ Outstanding w cred.id cred.signCount

end Conditions

/-- A counter of a key has reached the row of the key. -/
def Written (s : Store) (id : String) (n : Nat) : Prop :=
  ∀ k row, s.credentials.get? k = some row → row.credentialId = id → n ≤ row.signCount

/-- What holds as long as the counts are sound: what is outstanding was accepted, and what was
accepted is outstanding or has been written. -/
structure Tracked (w : Keys × CountLog) : Prop where
  nodup : w.2.accepted.Nodup
  accepted : ∀ id n, n ≠ 0 → Outstanding w id n → (id, n) ∈ w.2.accepted
  written : ∀ id n, (id, n) ∈ w.2.accepted → Outstanding w id n ∨ Written w.1.store id n
  there : ∀ e ∈ w.2.accepted, ∃ k row,
    w.1.store.credentials.get? k = some row ∧ row.credentialId = e.1

variable {lib : WebAuthn} {counter : String → Nat} {cfg : AuthConfig} {w w' : Keys × CountLog}
variable {act : KeyAct} {y : Keys} {s : Store} {m : CeremonyStore} {t : KeyTurn} {pc pc' : KeyPc}
variable {eff : KeyEffect} {g : CountLog} {i : Nat} {id : String} {n : Nat}

/-! ### One step of a request -/

/-- The keys of a user are in the table. -/
theorem get?_of_mem_creds {user : User} {c : CredentialRow}
    (h : c ∈ (webAuthnUserFor s user).creds) : ∃ k, s.credentials.get? k = some c := by
  obtain ⟨r, hr, rfl⟩ := List.mem_map.mp (List.mem_of_mem_filter h)
  exact ⟨r.1, Table.mem_rows_iff.mp hr⟩

/-- The user of a passkey is loaded with its keys. -/
theorem discoverableUser_eq_some {rawID userHandle : String} {wu : WebAuthnUser}
    (h : discoverableUser s rawID userHandle = some wu) : ∃ user, wu = webAuthnUserFor s user := by
  unfold discoverableUser at h
  split at h
  · exact absurd h (by simp)
  · split at h
    · exact absurd h (by simp)
    · next user _ =>
      split at h
      · exact absurd h (by simp)
      · split_ifs at h
        exact ⟨user, (Option.some.inj h).symm⟩

/-- A verdict is about a key in the table. -/
theorem compared_of_verdict (hlib : lib.CountsBy counter) {cred : WebAuthn.Credential}
    (h : pc.verdict lib s t = some cred) (hpass : cred.cloneWarning = false) :
    ∃ k row, s.credentials.get? k = some row ∧ row.credentialId = cred.id ∧
      (cred.signCount ≠ 0 → row.signCount < cred.signCount) := by
  -- the library compares with a row that it was given
  have hcompared : ∃ body user, Compared (counter body) (webAuthnUserFor s user) cred := by
    cases pc with
    | loginFinish user cer body =>
      have hfinish := (Option.ite_none_right_eq_some.mp h).2
      exact ⟨body, user, hlib.finishLogin _ _ _ _ hfinish⟩
    | passkeyFinish cer body =>
      obtain ⟨⟨wu, cred'⟩, hfinish, rfl⟩ :=
        Option.map_eq_some_iff.mp (Option.ite_none_right_eq_some.mp h).2
      obtain ⟨⟨rawID, handle, hlookup⟩, hcompared⟩ := hlib.finishPasskeyLogin _ _ _ _ _ hfinish
      obtain ⟨user, rfl⟩ := discoverableUser_eq_some hlookup
      exact ⟨body, user, hcompared⟩
    | _ => simp [KeyPc.verdict] at h
  obtain ⟨body, user, c, hmem, hid, hwarn, hcount⟩ := hcompared
  obtain ⟨k, hk⟩ := get?_of_mem_creds hmem
  refine ⟨k, c, hk, hid, fun hzero => ?_⟩
  rw [hcount hpass] at hzero ⊢
  by_contra hle
  rw [hwarn.mpr ⟨not_lt.mp hle, Or.inl hzero⟩] at hpass
  exact absurd hpass (by decide)

/-- A check is never refused. -/
theorem next_of_verdict {cred : WebAuthn.Credential} (h : pc.verdict lib s t = some cred) :
    pc.next lib cfg s m t ≠ none := by
  cases pc with
  | loginFinish user cer body =>
    simp only [KeyPc.next]
    split <;> simp
  | passkeyFinish cer body =>
    simp only [KeyPc.next]
    split <;> simp
  | _ => simp [KeyPc.verdict] at h

/-- Signing in and out leaves the keys. -/
theorem credentials_createSession {row : SessionRow} :
    (s.createSession row).credentials = s.credentials := by
  unfold Store.createSession
  split_ifs <;> rfl

theorem credentials_sweepSession {now : Int} {bearer cookie : Option String} :
    ((sweepSession s now bearer cookie).apply s).credentials = s.credentials := by
  unfold sweepSession
  split
  · split_ifs <;> rfl
  · rfl

/-- A step has nothing to do with counts. -/
structure LeavesCounts (lib : WebAuthn) (counter : String → Nat) (g : CountLog) (s : Store)
    (t : KeyTurn) (eff : KeyEffect) (pc pc' : KeyPc) : Prop where
  before : pc.touches = none
  after : pc'.touches = none
  warned : ∀ cred, pc.verdict lib s t = some cred → cred.cloneWarning = true
  log : g.noteNext counter eff pc pc' = g
  keys : (∃ row, eff = .addCredential row) ∨
    (eff.store s).credentials = s.credentials ∧ ∀ id n, eff ≠ .touchCredential id n

/-- Such is a step that leaves the keys, and checks no assertion. -/
theorem leavesCounts_of_credentials (hbefore : pc.touches = none) (hafter : pc'.touches = none)
    (hverdict : pc.verdict lib s t = none) (hlog : g.noteNext counter eff pc pc' = g)
    (hkeys : (eff.store s).credentials = s.credentials)
    (heff : ∀ id n, eff ≠ .touchCredential id n) : LeavesCounts lib counter g s t eff pc pc' where
  before := hbefore
  after := hafter
  warned cred hcred := absurd (hverdict.symm.trans hcred) (by simp)
  log := hlog
  keys := Or.inr ⟨hkeys, heff⟩

/-- Or only reads. -/
theorem leavesCounts_of_nothing (hbefore : pc.touches = none) (hafter : pc'.touches = none)
    (hverdict : pc.verdict lib s t = none) (hlog : g.noteNext counter .nothing pc pc' = g) :
    LeavesCounts lib counter g s t .nothing pc pc' :=
  leavesCounts_of_credentials hbefore hafter hverdict hlog rfl (by simp)

/-- Or comes upon an assertion that the library warns of. -/
theorem leavesCounts_of_warned {cred : WebAuthn.Credential} (hbefore : pc.touches = none)
    (hafter : pc'.touches = none) (hverdict : pc.verdict lib s t = some cred)
    (hclone : cred.cloneWarning = true) (hlog : g.noteNext counter .nothing pc pc' = g) :
    LeavesCounts lib counter g s t .nothing pc pc' where
  before := hbefore
  after := hafter
  warned cred' hcred' := Option.some.inj (hverdict.symm.trans hcred') ▸ hclone
  log := hlog
  keys := Or.inr ⟨rfl, by simp⟩

/-- What a step of a request does to the counts: it accepts a counter, it makes its `UPDATE` or
fails to, or it does nothing to them. -/
theorem count_cases (hlib : lib.CountsBy counter)
    (hnext : pc.next lib cfg s m t = some (eff, pc')) :
    (∃ cred, pc.verdict lib s t = some cred ∧ cred.cloneWarning = false ∧ pc.touches = none ∧
        pc'.touches = some (cred.id, cred.signCount) ∧ eff = .nothing ∧
        g.noteNext counter eff pc pc' = g.accept cred.id cred.signCount) ∨
      (∃ id n, pc.touches = some (id, n) ∧ pc'.touches = none ∧ pc.verdict lib s t = none ∧
        (eff = .touchCredential id n ∧ g.noteNext counter eff pc pc' = g ∨
          eff = .nothing ∧ g.noteNext counter eff pc pc' = g.fail id n)) ∨
      LeavesCounts lib counter g s t eff pc pc' := by
  cases pc with
  | loginFinish user cer body =>
    simp only [KeyPc.next] at hnext
    split at hnext <;> obtain ⟨rfl, rfl⟩ := Prod.mk.inj (Option.some.inj hnext)
    · next hverdict => exact Or.inr (Or.inr (leavesCounts_of_nothing rfl rfl hverdict rfl))
    · next cred hverdict =>
      cases hclone : cred.cloneWarning with
      | true => exact Or.inr (Or.inr (leavesCounts_of_warned rfl rfl hverdict hclone rfl))
      | false =>
        obtain ⟨-, -, -, -, hcount⟩ :=
          hlib.finishLogin _ _ _ _ (Option.ite_none_right_eq_some.mp hverdict).2
        exact Or.inl ⟨cred, hverdict, hclone, rfl, rfl, rfl, by
          rw [hcount hclone]
          rfl⟩
  | passkeyFinish cer body =>
    simp only [KeyPc.next] at hnext
    split at hnext <;> obtain ⟨rfl, rfl⟩ := Prod.mk.inj (Option.some.inj hnext)
    · next hfinish =>
      have hverdict : (KeyPc.passkeyFinish cer body).verdict lib s t = none := by
        simp only [KeyPc.verdict]
        split_ifs at hfinish ⊢
        · rw [hfinish, Option.map_none]
        · rfl
      exact Or.inr (Or.inr (leavesCounts_of_nothing rfl rfl hverdict rfl))
    · next wu cred hfinish =>
      obtain ⟨htried, hsome⟩ := Option.ite_none_right_eq_some.mp hfinish
      have hverdict : (KeyPc.passkeyFinish cer body).verdict lib s t = some cred := by
        simp only [KeyPc.verdict, if_pos htried, hsome, Option.map_some]
      cases hclone : cred.cloneWarning with
      | true => exact Or.inr (Or.inr (leavesCounts_of_warned rfl rfl hverdict hclone rfl))
      | false =>
        obtain ⟨-, -, -, -, -, hcount⟩ := hlib.finishPasskeyLogin _ _ _ _ _ hsome
        exact Or.inl ⟨cred, hverdict, hclone, rfl, rfl, rfl, by
          rw [hcount hclone]
          rfl⟩
  | loginTouch user cred body =>
    obtain ⟨rfl, rfl⟩ := Prod.mk.inj (Option.some.inj hnext)
    refine Or.inr (Or.inl ⟨cred.id, cred.signCount, rfl, rfl, rfl, ?_⟩)
    cases t.ok with
    | true => exact Or.inl ⟨rfl, by simp [CountLog.noteNext]⟩
    | false => exact Or.inr ⟨rfl, by simp [CountLog.noteNext]⟩
  | passkeyTouch user cred =>
    obtain ⟨rfl, rfl⟩ := Prod.mk.inj (Option.some.inj hnext)
    refine Or.inr (Or.inl ⟨cred.id, cred.signCount, rfl, rfl, rfl, ?_⟩)
    cases t.ok with
    | true => exact Or.inl ⟨rfl, by simp [CountLog.noteNext]⟩
    | false => exact Or.inr ⟨rfl, by simp [CountLog.noteNext]⟩
  | resolve bearer cookie op =>
    simp only [KeyPc.next] at hnext
    split at hnext <;> obtain ⟨rfl, rfl⟩ := Prod.mk.inj (Option.some.inj hnext)
    · refine Or.inr (Or.inr (leavesCounts_of_credentials rfl rfl rfl rfl ?_ (by simp)))
      cases t.ok with
      | true => exact credentials_sweepSession
      | false => rfl
    · refine Or.inr (Or.inr (leavesCounts_of_nothing rfl ?_ rfl rfl))
      cases op <;> rfl
  | loginStart user body =>
    obtain ⟨rfl, rfl⟩ := Prod.mk.inj (Option.some.inj hnext)
    refine Or.inr (Or.inr (leavesCounts_of_credentials rfl rfl rfl rfl ?_ (by simp)))
    cases t.ok with
    | true => exact credentials_createSession
    | false => rfl
  | passkeyStart user =>
    obtain ⟨rfl, rfl⟩ := Prod.mk.inj (Option.some.inj hnext)
    refine Or.inr (Or.inr (leavesCounts_of_credentials rfl rfl rfl rfl ?_ (by simp)))
    cases t.ok with
    | true => exact credentials_createSession
    | false => rfl
  | addCredential row =>
    obtain ⟨rfl, rfl⟩ := Prod.mk.inj (Option.some.inj hnext)
    refine Or.inr (Or.inr ⟨rfl, rfl, by simp [KeyPc.verdict], rfl, ?_⟩)
    cases t.ok with
    | true => exact Or.inl ⟨row, rfl⟩
    | false => exact Or.inr ⟨rfl, by simp⟩
  | setCeremony begun session userID =>
    obtain ⟨rfl, rfl⟩ := Prod.mk.inj (Option.some.inj hnext)
    refine Or.inr (Or.inr (leavesCounts_of_credentials rfl rfl rfl rfl ?_ ?_))
    · cases t.ok <;> rfl
    · cases t.ok <;> simp
  | takeCeremony finish token body =>
    have hresume : ∀ cer, (KeyPc.resume cer body finish).touches = none := by
      intro cer
      cases finish with
      | register me =>
        simp only [KeyPc.resume]
        split_ifs <;> rfl
      | _ => rfl
    cases token with
    | none =>
      obtain ⟨rfl, rfl⟩ := Prod.mk.inj (Option.some.inj hnext)
      exact Or.inr (Or.inr (leavesCounts_of_nothing rfl rfl rfl rfl))
    | some token =>
      simp only [KeyPc.next] at hnext
      split at hnext <;> obtain ⟨rfl, rfl⟩ := Prod.mk.inj (Option.some.inj hnext)
      · exact Or.inr (Or.inr (leavesCounts_of_credentials rfl rfl rfl rfl rfl (by simp)))
      · exact Or.inr (Or.inr (leavesCounts_of_credentials rfl (hresume _) rfl rfl rfl (by simp)))
  | loginFind email password =>
    simp only [KeyPc.next] at hnext
    split at hnext
    · obtain ⟨rfl, rfl⟩ := Prod.mk.inj (Option.some.inj hnext)
      exact Or.inr (Or.inr (leavesCounts_of_nothing rfl rfl rfl rfl))
    · split_ifs at hnext <;> obtain ⟨rfl, rfl⟩ := Prod.mk.inj (Option.some.inj hnext) <;>
        exact Or.inr (Or.inr (leavesCounts_of_nothing rfl rfl rfl rfl))
  | done => simp [KeyPc.next] at hnext
  | _ =>
    -- the others read
    simp only [KeyPc.next] at hnext
    split at hnext <;> obtain ⟨rfl, rfl⟩ := Prod.mk.inj (Option.some.inj hnext) <;>
      exact Or.inr (Or.inr (leavesCounts_of_nothing rfl rfl rfl rfl))

/-! ### Requests under way -/

section InFlight

variable {requests : List KeyPc} {e : String × Nat}

theorem inFlight_of_set (h : InFlight (requests.set i pc') e) :
    pc'.touches = some e ∨ InFlight requests e := by
  obtain ⟨j, pc, hpc, he⟩ := h
  rw [List.getElem?_set] at hpc
  split_ifs at hpc
  · obtain rfl := Option.some.inj hpc
    exact Or.inl he
  · exact Or.inr ⟨j, pc, hpc, he⟩

theorem inFlight_set (pc' : KeyPc) (hpc : requests[i]? = some pc) (h : InFlight requests e) :
    pc.touches = some e ∨ InFlight (requests.set i pc') e := by
  obtain ⟨j, pc'', hpc'', he⟩ := h
  by_cases hij : i = j
  · subst hij
    obtain rfl := Option.some.inj (hpc.symm.trans hpc'')
    exact Or.inl he
  · exact Or.inr ⟨j, pc'', (List.getElem?_set_ne hij).trans hpc'', he⟩

theorem inFlight_set_self (hpc : requests[i]? = some pc) (he : pc'.touches = some e) :
    InFlight (requests.set i pc') e := by
  obtain ⟨hi, -⟩ := List.getElem?_eq_some_iff.mp hpc
  exact ⟨i, pc', List.getElem?_set_self hi, he⟩

theorem inFlight_append (htouches : pc.touches = none) :
    InFlight (requests ++ [pc]) e ↔ InFlight requests e := by
  constructor
  · rintro ⟨j, pc', hpc', he⟩
    rw [List.getElem?_append] at hpc'
    split_ifs at hpc'
    · exact ⟨j, pc', hpc', he⟩
    · rw [List.getElem?_singleton] at hpc'
      split_ifs at hpc'
      rw [← Option.some.inj hpc', htouches] at he
      exact absurd he (by simp)
  · rintro ⟨j, pc', hpc', he⟩
    obtain ⟨hj, -⟩ := List.getElem?_eq_some_iff.mp hpc'
    exact ⟨j, pc', (List.getElem?_append_left hj).trans hpc', he⟩

end InFlight

/-! ### What keeps counts sound -/

/-- A step of the system with the log. -/
theorem countStep_step (counter : String → Nat) (hpc : w.1.requests[i]? = some pc)
    (hnext : pc.next lib cfg w.1.store w.1.ceremonies t = some (eff, pc')) :
    countStep lib counter cfg w (.step i t) = some
      ({ store := eff.store w.1.store
         ceremonies := eff.ceremonies w.1.ceremonies
         requests := w.1.requests.set i pc' }, w.2.noteNext counter eff pc pc') := by
  have hmove : w.1.move lib cfg i t = some (eff, pc') := by
    rw [Keys.move, hpc, Option.bind_some, hnext]
  simp only [watch, Keys.step, CountLog.note, hmove, hpc, Option.map_some]

theorem effect_step (hpc : w.1.requests[i]? = some pc)
    (hnext : pc.next lib cfg w.1.store w.1.ceremonies t = some (eff, pc')) :
    w.1.effect lib cfg (.step i t) = eff := by
  rw [Keys.effect, Keys.move, hpc, Option.bind_some, hnext, Option.map_some, Option.getD_some]

/-- What it takes that the step of a request is sound, said of the request. -/
theorem soundCounts_step (hpc : w.1.requests[i]? = some pc)
    (hnext : pc.next lib cfg w.1.store w.1.ceremonies t = some (eff, pc')) :
    SoundCounts lib counter cfg w (.step i t) ↔
      (∀ k row row', w.1.store.credentials.get? k = some row →
        (eff.store w.1.store).credentials.get? k = some row' → row.signCount ≤ row'.signCount) ∧
      (w.2.noteNext counter eff pc pc').accepted.Nodup := by
  have hstep := countStep_step counter hpc hnext
  constructor
  · exact fun h => ⟨h.kept _ hstep, h.once _ hstep⟩
  · rintro ⟨hkept, honce⟩
    refine ⟨fun w' hw' => ?_, fun w' hw' => ?_⟩
    · obtain rfl := Option.some.inj (hstep.symm.trans hw')
      exact hkept
    · obtain rfl := Option.some.inj (hstep.symm.trans hw')
      exact honce

theorem countsSettled_step (hpc : w.1.requests[i]? = some pc)
    (hnext : pc.next lib cfg w.1.store w.1.ceremonies t = some (eff, pc')) :
    CountsSettled lib cfg w (.step i t) ↔
      (∀ id n, eff = .touchCredential id n → ∀ k row,
        w.1.store.credentials.get? k = some row → row.credentialId = id → row.signCount ≤ n) ∧
      ∀ cred, pc.verdict lib w.1.store t = some cred → cred.cloneWarning = false →
        cred.signCount ≠ 0 → ¬ Outstanding w cred.id cred.signCount := by
  have heff : w.1.effect lib cfg (.step i t) = eff := effect_step hpc hnext
  constructor
  · rintro ⟨htouch, hcheck⟩
    exact ⟨heff ▸ htouch, fun cred => hcheck i t pc cred rfl hpc⟩
  · rintro ⟨htouch, hcheck⟩
    refine ⟨heff ▸ htouch, fun i' t' pc'' cred hact hpc'' => ?_⟩
    obtain ⟨rfl, rfl⟩ := KeyAct.step.inj hact
    obtain rfl := Option.some.inj (hpc.symm.trans hpc'')
    exact hcheck cred

theorem get?_touchCredential {k : Int} {row' : CredentialRow}
    (h : (s.touchCredential id n).credentials.get? k = some row') :
    ∃ row, s.credentials.get? k = some row ∧ row'.credentialId = row.credentialId ∧
      row'.signCount = if row.credentialId = id then n else row.signCount := by
  rw [Store.touchCredential, Table.get?_modifyAll] at h
  obtain ⟨row, hrow, rfl⟩ := Option.map_eq_some_iff.mp h
  refine ⟨row, hrow, ?_⟩
  split_ifs <;> exact ⟨rfl, rfl⟩

/-- Adding a key leaves those there are, and adds none with the handle of one. -/
theorem get?_addCredential {k : Int} {new row' : CredentialRow}
    (h : (s.addCredential new).credentials.get? k = some row') :
    s.credentials.get? k = some row' ∨ ∀ k' row, s.credentials.get? k' = some row →
      k' ≠ k ∧ row.credentialId ≠ row'.credentialId := by
  unfold Store.addCredential at h
  split_ifs at h with htakes
  · rw [Table.get?_insert] at h
    split_ifs at h with hk
    · obtain rfl := Option.some.inj h
      refine Or.inr fun k' row hrow => ⟨fun hkk => ?_, ?_⟩
      · rw [hkk, hk, Table.get?_nextKey] at hrow
        exact absurd hrow (by simp)
      · exact htakes.2 _ (Table.mem_rows_iff.mpr hrow)
    · exact Or.inl h
  · exact Or.inl h

theorem get?_addCredential_of_some {k : Int} {new row : CredentialRow}
    (h : s.credentials.get? k = some row) :
    (s.addCredential new).credentials.get? k = some row := by
  unfold Store.addCredential
  split_ifs
  · exact Table.get?_insert_of_some h
  · exact h

/-- A counter that passes was not accepted before, as long as it is not outstanding. -/
theorem notMem_accepted (hlib : lib.CountsBy counter) (htracked : Tracked w)
    {cred : WebAuthn.Credential} (hverdict : pc.verdict lib w.1.store t = some cred)
    (hpass : cred.cloneWarning = false) (hzero : cred.signCount ≠ 0)
    (hsettled : ¬ Outstanding w cred.id cred.signCount) :
    (cred.id, cred.signCount) ∉ w.2.accepted := by
  intro hmem
  rcases htracked.written _ _ hmem with hout | hwritten
  · exact hsettled hout
  · -- the library has seen a lower count
    obtain ⟨k, row, hrow, hid, hlt⟩ := compared_of_verdict hlib hverdict hpass
    exact absurd (hwritten k row hrow hid) (not_le.mpr (hlt hzero))

/-- The step of a request is sound exactly if it finds the counts settled. -/
theorem soundCounts_iff_step (hlib : lib.CountsBy counter) (htracked : Tracked w)
    (hpc : w.1.requests[i]? = some pc)
    (hnext : pc.next lib cfg w.1.store w.1.ceremonies t = some (eff, pc')) :
    SoundCounts lib counter cfg w (.step i t) ↔ CountsSettled lib cfg w (.step i t) := by
  rw [soundCounts_step hpc hnext, countsSettled_step hpc hnext]
  rcases count_cases (g := w.2) hlib hnext with
    ⟨cred, hverdict, hpass, -, -, rfl, hlog⟩ | ⟨id, n, htouches, -, hverdict, heff⟩ | hleaves
  · -- a counter passes
    rw [hlog]
    constructor
    · rintro ⟨-, honce⟩
      refine ⟨fun _ _ hcontra => absurd hcontra (by simp), fun cred' hcred' _ hzero hout => ?_⟩
      obtain rfl := Option.some.inj (hverdict.symm.trans hcred')
      rw [CountLog.accept, if_neg hzero] at honce
      exact (List.nodup_cons.mp honce).1 (htracked.accepted _ _ hzero hout)
    · rintro ⟨-, hcheck⟩
      refine ⟨fun k row row' hrow hrow' => ?_, ?_⟩
      · rw [Option.some.inj (hrow.symm.trans hrow')]
      · by_cases hzero : cred.signCount = 0
        · rw [CountLog.accept, if_pos hzero]
          exact htracked.nodup
        · rw [CountLog.accept, if_neg hzero]
          exact List.nodup_cons.mpr ⟨notMem_accepted hlib htracked hverdict hpass hzero
            (hcheck cred hverdict hpass hzero), htracked.nodup⟩
  · -- the `UPDATE` of one
    have hnone : ∀ cred, pc.verdict lib w.1.store t = some cred → cred.cloneWarning = false →
        cred.signCount ≠ 0 → ¬ Outstanding w cred.id cred.signCount := fun cred hcred =>
      absurd (hverdict.symm.trans hcred) (by simp)
    rcases heff with ⟨rfl, hlog⟩ | ⟨rfl, hlog⟩
    · rw [hlog]
      constructor
      · rintro ⟨hkept, -⟩
        refine ⟨fun id' n' heff' k row hrow hid => ?_, hnone⟩
        obtain ⟨rfl, rfl⟩ := KeyEffect.touchCredential.inj heff'
        have hrow' : (w.1.store.touchCredential id n).credentials.get? k =
            some { row with signCount := n } := by
          rw [Store.touchCredential, Table.get?_modifyAll, hrow, Option.map_some, if_pos hid]
        exact hkept k row _ hrow hrow'
      · rintro ⟨htouch, -⟩
        refine ⟨fun k row row' hrow hrow' => ?_, htracked.nodup⟩
        obtain ⟨row'', hrow'', -, hcount⟩ := get?_touchCredential hrow'
        obtain rfl := Option.some.inj (hrow.symm.trans hrow'')
        rw [hcount]
        split_ifs with hid
        · exact htouch id n rfl k row hrow hid
        · exact le_rfl
    · rw [hlog]
      refine iff_of_true ⟨fun k row row' hrow hrow' => ?_, ?_⟩
        ⟨fun _ _ hcontra => absurd hcontra (by simp), hnone⟩
      · rw [Option.some.inj (hrow.symm.trans hrow')]
      · unfold CountLog.fail
        split_ifs <;> exact htracked.nodup
  · rw [hleaves.log]
    refine iff_of_true ⟨fun k row row' hrow hrow' => ?_, htracked.nodup⟩
      ⟨fun id n heff => ?_, fun cred hcred hpass => ?_⟩
    · rcases hleaves.keys with ⟨new, rfl⟩ | ⟨hsame, -⟩
      · rw [Option.some.inj ((get?_addCredential_of_some hrow).symm.trans hrow')]
      · rw [hsame] at hrow'
        rw [Option.some.inj (hrow.symm.trans hrow')]
    · rcases hleaves.keys with ⟨new, rfl⟩ | ⟨-, hne⟩
      · exact absurd heff (by simp)
      · exact absurd heff (hne id n)
    · exact absurd (hpass.symm.trans (hleaves.warned cred hcred)) (by decide)

/-- A counter written stays so. -/
theorem Written.addCredential {new : CredentialRow} (h : Written s id n)
    (hthere : ∃ k row, s.credentials.get? k = some row ∧ row.credentialId = id) :
    Written (s.addCredential new) id n := by
  intro k row' hrow' hid
  rcases get?_addCredential hrow' with hrow | hnone
  · exact h k row' hrow hid
  · obtain ⟨k', row, hrow, hid'⟩ := hthere
    exact absurd (hid'.trans hid.symm) (hnone k' row hrow).2

theorem Written.touchCredential {id' : String} {n' : Nat} (h : Written s id n)
    (htouch : ∀ k row, s.credentials.get? k = some row → row.credentialId = id' →
      row.signCount ≤ n') : Written (s.touchCredential id' n') id n := by
  intro k row' hrow' hid
  obtain ⟨row, hrow, hsame, hcount⟩ := get?_touchCredential hrow'
  have hle : n ≤ row.signCount := h k row hrow (hsame ▸ hid)
  rw [hcount]
  split_ifs with hid'
  · exact hle.trans (htouch k row hrow hid')
  · exact hle

theorem written_touchCredential_self : Written (s.touchCredential id n) id n := by
  intro k row' hrow' hid
  obtain ⟨row, -, hsame, hcount⟩ := get?_touchCredential hrow'
  rw [hcount, if_pos (hsame ▸ hid)]

/-- A key in the table stays there. -/
theorem there_step (hlib : lib.CountsBy counter) (g : CountLog)
    (hnext : pc.next lib cfg s m t = some (eff, pc'))
    (h : ∃ k row, s.credentials.get? k = some row ∧ row.credentialId = id) :
    ∃ k row, (eff.store s).credentials.get? k = some row ∧ row.credentialId = id := by
  obtain ⟨k, row, hrow, hid⟩ := h
  rcases count_cases (g := g) hlib hnext with
    ⟨-, -, -, -, -, rfl, -⟩ | ⟨id', n, -, -, -, ⟨rfl, -⟩ | ⟨rfl, -⟩⟩ | hleaves
  · exact ⟨k, row, hrow, hid⟩
  · refine ⟨k, if row.credentialId = id' then { row with signCount := n } else row, ?_, ?_⟩
    · rw [KeyEffect.store, Store.touchCredential, Table.get?_modifyAll, hrow, Option.map_some]
    · split_ifs <;> exact hid
  · exact ⟨k, row, hrow, hid⟩
  · rcases hleaves.keys with ⟨new, rfl⟩ | ⟨hsame, -⟩
    · exact ⟨k, row, get?_addCredential_of_some hrow, hid⟩
    · exact ⟨k, row, by rw [hsame]; exact hrow, hid⟩

section Steps

variable {e : String × Nat}

theorem mem_accept : e ∈ (g.accept id n).accepted ↔ e = (id, n) ∧ n ≠ 0 ∨ e ∈ g.accepted := by
  unfold CountLog.accept
  split_ifs with hzero
  · simp [hzero]
  · simp [hzero]

theorem mem_fail : e ∈ (g.fail id n).failed ↔ e = (id, n) ∧ n ≠ 0 ∨ e ∈ g.failed := by
  unfold CountLog.fail
  split_ifs with hzero
  · simp [hzero]
  · simp [hzero]

theorem failed_accept : (g.accept id n).failed = g.failed := by
  unfold CountLog.accept
  split_ifs <;> rfl

theorem accepted_fail : (g.fail id n).accepted = g.accepted := by
  unfold CountLog.fail
  split_ifs <;> rfl

variable {y' : Keys}

/-- A request has a counter accepted. -/
theorem Tracked.accept (h : Tracked w) (hstore : y'.store = w.1.store)
    (hrequests : y'.requests = w.1.requests.set i pc') (hpc : w.1.requests[i]? = some pc)
    (hbefore : pc.touches = none) (hafter : pc'.touches = some (id, n))
    (hthere : ∃ k row, w.1.store.credentials.get? k = some row ∧ row.credentialId = id)
    (hnodup : (w.2.accept id n).accepted.Nodup) : Tracked (y', w.2.accept id n) where
  nodup := hnodup
  accepted id' n' hn hout := by
    refine mem_accept.mpr ?_
    rcases hout with hflight | hfailed
    · rw [hrequests] at hflight
      rcases inFlight_of_set hflight with hnow | hflight
      · obtain ⟨rfl, rfl⟩ := Prod.mk.inj (Option.some.inj (hafter.symm.trans hnow))
        exact Or.inl ⟨rfl, hn⟩
      · exact Or.inr (h.accepted id' n' hn (Or.inl hflight))
    · exact Or.inr (h.accepted id' n' hn (Or.inr (failed_accept ▸ hfailed)))
  written id' n' hmem := by
    rcases mem_accept.mp hmem with ⟨heq, -⟩ | hmem
    · -- the request is about to write it
      refine Or.inl (Or.inl ?_)
      rw [heq, hrequests]
      exact inFlight_set_self hpc hafter
    · rcases h.written id' n' hmem with (hflight | hfailed) | hwritten
      · refine Or.inl (Or.inl ?_)
        rw [hrequests]
        refine (inFlight_set _ hpc hflight).resolve_left fun hcontra => ?_
        exact absurd (hbefore.symm.trans hcontra) (by simp)
      · exact Or.inl (Or.inr (failed_accept.symm ▸ hfailed))
      · exact Or.inr (hstore.symm ▸ hwritten)
  there e he := by
    rw [hstore]
    rcases mem_accept.mp he with ⟨rfl, -⟩ | he
    · exact hthere
    · exact h.there e he

/-- A request is in flight no more: its counter has been written, or it is recorded that the
`UPDATE` has failed. -/
theorem Tracked.touch (h : Tracked w) {g' : CountLog}
    (hrequests : y'.requests = w.1.requests.set i pc') (hpc : w.1.requests[i]? = some pc)
    (hbefore : pc.touches = some (id, n)) (hafter : pc'.touches = none)
    (haccepted : g'.accepted = w.2.accepted)
    (hfailed : w.2.failed ⊆ g'.failed)
    (hnew : ∀ e ∈ g'.failed, e = (id, n) ∨ e ∈ w.2.failed)
    (hsettled : (id, n) ∈ g'.failed ∨ Written y'.store id n)
    (hwritten : ∀ id' n', Written w.1.store id' n' → Written y'.store id' n')
    (hthere : ∀ e ∈ w.2.accepted, ∃ k row,
      y'.store.credentials.get? k = some row ∧ row.credentialId = e.1) : Tracked (y', g') where
  nodup := haccepted ▸ h.nodup
  accepted id' n' hn hout := by
    have hin : InFlight w.1.requests (id, n) := ⟨i, pc, hpc, hbefore⟩
    rw [haccepted]
    rcases hout with hflight | hmem
    · rw [hrequests] at hflight
      refine h.accepted id' n' hn (Or.inl ((inFlight_of_set hflight).resolve_left ?_))
      exact fun hcontra => absurd (hafter.symm.trans hcontra) (by simp)
    · rcases hnew _ hmem with heq | hmem
      · -- the failed write is the one that was in flight
        obtain ⟨rfl, rfl⟩ := Prod.mk.inj heq
        exact h.accepted id' n' hn (Or.inl hin)
      · exact h.accepted id' n' hn (Or.inr hmem)
  written id' n' hmem := by
    rw [haccepted] at hmem
    rcases h.written id' n' hmem with (hflight | hmem) | hrow
    · rcases inFlight_set pc' hpc hflight with heq | hflight
      · obtain ⟨rfl, rfl⟩ := Prod.mk.inj (Option.some.inj (hbefore.symm.trans heq))
        exact hsettled.imp_left Or.inr
      · exact Or.inl (Or.inl (hrequests ▸ hflight))
    · exact Or.inl (Or.inr (hfailed hmem))
    · exact Or.inr (hwritten id' n' hrow)
  there e he := hthere e (haccepted ▸ he)

/-- A step leaves the counts. -/
theorem Tracked.leave (h : Tracked w)
    (hrequests : y'.requests = w.1.requests.set i pc') (hpc : w.1.requests[i]? = some pc)
    (hbefore : pc.touches = none) (hafter : pc'.touches = none)
    (hwritten : ∀ id n, (id, n) ∈ w.2.accepted → Written w.1.store id n → Written y'.store id n)
    (hthere : ∀ e ∈ w.2.accepted, ∃ k row,
      y'.store.credentials.get? k = some row ∧ row.credentialId = e.1) : Tracked (y', w.2) where
  nodup := h.nodup
  accepted id n hn hout := by
    refine h.accepted id n hn (hout.imp_left fun hflight => ?_)
    -- the request has no count in flight, before or after
    rw [hrequests] at hflight
    refine (inFlight_of_set hflight).resolve_left fun hcontra => ?_
    exact absurd (hafter.symm.trans hcontra) (by simp)
  written id n hmem := by
    rcases h.written id n hmem with (hflight | hfailed) | hrow
    · refine Or.inl (Or.inl ?_)
      rw [hrequests]
      refine (inFlight_set _ hpc hflight).resolve_left fun hcontra => ?_
      exact absurd (hbefore.symm.trans hcontra) (by simp)
    · exact Or.inl (Or.inr hfailed)
    · exact Or.inr (hwritten id n hmem hrow)
  there := hthere

end Steps

/-- What is tracked stays so after a sound step of a request. -/
theorem tracked_next (hlib : lib.CountsBy counter) (htracked : Tracked w)
    (hpc : w.1.requests[i]? = some pc)
    (hnext : pc.next lib cfg w.1.store w.1.ceremonies t = some (eff, pc'))
    (hsound : SoundCounts lib counter cfg w (.step i t)) :
    Tracked ({ store := eff.store w.1.store
               ceremonies := eff.ceremonies w.1.ceremonies
               requests := w.1.requests.set i pc' }, w.2.noteNext counter eff pc pc') := by
  have htouch := ((countsSettled_step hpc hnext).mp
    ((soundCounts_iff_step hlib htracked hpc hnext).mp hsound)).1
  have hthere : ∀ e ∈ w.2.accepted, ∃ k row,
      (eff.store w.1.store).credentials.get? k = some row ∧ row.credentialId = e.1 :=
    fun e he => there_step hlib w.2 hnext (htracked.there e he)
  have hnodup := ((soundCounts_step hpc hnext).mp hsound).2
  rcases count_cases (g := w.2) hlib hnext with
    ⟨cred, hverdict, hpass, hbefore, hafter, rfl, hlog⟩ |
      ⟨id, n, hbefore, hafter, -, ⟨rfl, hlog⟩ | ⟨rfl, hlog⟩⟩ | hleaves
  · obtain ⟨k, row, hrow, hid, -⟩ := compared_of_verdict hlib hverdict hpass
    rw [hlog] at hnodup ⊢
    exact htracked.accept rfl rfl hpc hbefore hafter ⟨k, row, hrow, hid⟩ hnodup
  · rw [hlog]
    refine htracked.touch rfl hpc hbefore hafter rfl (List.Subset.refl _) (fun e => Or.inr)
      (Or.inr written_touchCredential_self) (fun id' n' hrow => ?_) hthere
    exact hrow.touchCredential (htouch id n rfl)
  · rw [hlog]
    refine htracked.touch rfl hpc hbefore hafter accepted_fail
      (fun e he => mem_fail.mpr (Or.inr he)) (fun e he => (mem_fail.mp he).imp_left And.left) ?_
      (fun id' n' hrow => hrow) hthere
    · -- a count of zero is never above another, and is not tracked
      by_cases hzero : n = 0
      · exact Or.inr fun k row _ _ => hzero ▸ Nat.zero_le _
      · exact Or.inl (mem_fail.mpr (Or.inl ⟨rfl, hzero⟩))
  · rw [hleaves.log]
    refine htracked.leave rfl hpc hleaves.before hleaves.after (fun id n hmem hrow => ?_) hthere
    rcases hleaves.keys with ⟨new, rfl⟩ | ⟨hsame, -⟩
    · exact hrow.addCredential (htracked.there _ hmem)
    · exact fun k row hget => hrow k row (hsame ▸ hget)

theorem touches_arrival (h : act.arrival = some pc) : pc.touches = none := by
  cases act with
  | elsewhere s => simp [KeyAct.arrival] at h
  | step i t => simp [KeyAct.arrival] at h
  | _ =>
    obtain rfl := Option.some.inj h
    rfl

theorem note_arrival (h : act.arrival = some pc) : w.2.note lib counter cfg w.1 act = w.2 := by
  cases act with
  | step i t => simp [KeyAct.arrival] at h
  | _ => rfl

/-- Nothing is asked of an arrival. -/
theorem arrival_sound (htracked : Tracked w) (harrival : act.arrival = some pc) :
    SoundCounts lib counter cfg w act ∧ CountsSettled lib cfg w act := by
  -- an arrival changes nothing but the requests
  have hstore : ∀ w', countStep lib counter cfg w act = some w' →
      w'.1.store = w.1.store ∧ w'.2 = w.2 := by
    intro w' hw'
    obtain ⟨y', hy', rfl⟩ := Option.map_eq_some_iff.mp hw'
    refine ⟨?_, note_arrival harrival⟩
    rcases Keys.step_cases hy' with ⟨_, -, rfl⟩ | ⟨s, rfl, -⟩ | ⟨i, t, -, -, -, rfl, -⟩
    · rfl
    · simp [KeyAct.arrival] at harrival
    · simp [KeyAct.arrival] at harrival
  refine ⟨⟨fun w' hw' k row row' hrow hrow' => ?_, fun w' hw' => ?_⟩, fun id n heff => ?_, ?_⟩
  · rw [(hstore w' hw').1] at hrow'
    rw [Option.some.inj (hrow.symm.trans hrow')]
  · rw [(hstore w' hw').2]
    exact htracked.nodup
  · cases act with
    | step i t => simp [KeyAct.arrival] at harrival
    | _ => exact absurd heff (by simp [Keys.effect])
  · rintro i t pc' cred rfl
    simp [KeyAct.arrival] at harrival

/-- A step that a request cannot take changes no count. -/
theorem refused_sound {i : Nat} {t : KeyTurn} (hmove : w.1.move lib cfg i t = none) :
    SoundCounts lib counter cfg w (.step i t) ∧ CountsSettled lib cfg w (.step i t) := by
  refine ⟨⟨fun w' hw' => ?_, fun w' hw' => ?_⟩, fun id n heff => ?_, ?_⟩
  · simp [watch, Keys.step, hmove] at hw'
  · simp [watch, Keys.step, hmove] at hw'
  · simp [Keys.effect, hmove] at heff
  · -- where something is verified, there is a step to take
    intro i' t' pc cred hact hpc hverdict
    obtain ⟨rfl, rfl⟩ := KeyAct.step.inj hact
    rw [Keys.move, hpc, Option.bind_some] at hmove
    exact absurd hmove (next_of_verdict hverdict)

/-- A sign-in, or another request of the six endpoints, finds the counts settled exactly if its
action is sound. -/
theorem soundCounts_iff (hlib : lib.CountsBy counter) (htracked : Tracked w)
    (hact : ∀ s, act ≠ .elsewhere s) :
    SoundCounts lib counter cfg w act ↔ CountsSettled lib cfg w act := by
  cases harrival : act.arrival with
  | some pc =>
    obtain ⟨hsound, hsettled⟩ := arrival_sound htracked harrival
    exact iff_of_true hsound hsettled
  | none =>
    cases act with
    | step i t =>
      cases hmove : w.1.move lib cfg i t with
      | none =>
        obtain ⟨hsound, hsettled⟩ := refused_sound hmove
        exact iff_of_true hsound hsettled
      | some m =>
        obtain ⟨pc, hpc, hnext⟩ := Option.bind_eq_some_iff.mp hmove
        exact soundCounts_iff_step hlib htracked hpc hnext
    | elsewhere s => exact absurd rfl (hact s)
    | _ => simp [KeyAct.arrival] at harrival

theorem tracked_step (hlib : lib.CountsBy counter) (htracked : Tracked w)
    (hact : ∀ s, act ≠ .elsewhere s) (hsound : SoundCounts lib counter cfg w act)
    (hstep : countStep lib counter cfg w act = some w') : Tracked w' := by
  have hstep' := hstep
  obtain ⟨y', hy', rfl⟩ := Option.map_eq_some_iff.mp hstep
  rcases Keys.step_cases hy' with ⟨pc, harrival, rfl⟩ | ⟨s, rfl, -⟩ |
    ⟨i, t, pc, eff, pc', rfl, hpc, hnext, -, -⟩
  · rw [note_arrival harrival]
    have hflight : ∀ e, InFlight (w.1.requests ++ [pc]) e ↔ InFlight w.1.requests e :=
      fun e => inFlight_append (touches_arrival harrival)
    refine ⟨htracked.nodup, fun id n hn hout => ?_, fun id n hmem => ?_, htracked.there⟩
    · exact htracked.accepted id n hn (hout.imp_left (hflight _).mp)
    · exact (htracked.written id n hmem).imp_left (Or.imp_left (hflight _).mpr)
  · exact absurd rfl (hact s)
  · rw [← Option.some.inj ((countStep_step counter hpc hnext).symm.trans hstep')]
    exact tracked_next hlib htracked hpc hnext hsound

/-- Over every interleaving of sign-ins and of other requests to the six endpoints, whatever
fails in them: no count stored is ever lowered and no counter but zero of a key is accepted
twice, exactly if no `UPDATE` finds a higher count than it writes, and no counter passes while
a sign-in with the same one is still to make its `UPDATE` or has failed to. -/
theorem counts_sound_iff (lib : WebAuthn) (counter : String → Nat) (cfg : AuthConfig)
    (hlib : lib.CountsBy counter) (s : Store) (acts : List KeyAct)
    (hacts : ∀ s, KeyAct.elsewhere s ∉ acts) :
    Meets (countStep lib counter cfg) (SoundCounts lib counter cfg) ({ store := s }, {}) acts ↔
      Meets (countStep lib counter cfg) (CountsSettled lib cfg) ({ store := s }, {}) acts := by
  apply meets_iff_meets Tracked (D := fun _ act => ∀ s, act ≠ .elsewhere s)
  · refine ⟨List.nodup_nil, fun id n _ hout => ?_, fun id n hmem => ?_, fun e he => ?_⟩
    · rcases hout with ⟨i, pc, hpc, -⟩ | hfailed
      · simp at hpc
      · simp at hfailed
    · simp at hmem
    · simp at he
  · exact fun w act w' htracked hact hsound hstep => tracked_step hlib htracked hact hsound hstep
  · exact fun w act htracked hact => soundCounts_iff hlib htracked hact
  · rintro pre act w' hpre - s rfl
    exact hacts s (hpre.subset (List.mem_append_right _ (List.mem_singleton_self _)))

/-- The stars in an assertion are its counter. -/
def stars (body : String) : Nat := body.toList.count '*'

/-- A library whose assertions are the public key, the challenge and the counter; it knows no
passkeys. -/
def countingWebAuthn : WebAuthn where
  beginRegistration := demoWebAuthn.beginRegistration
  finishRegistration := demoWebAuthn.finishRegistration
  beginLogin := demoWebAuthn.beginLogin
  finishLogin wu session body :=
    if session.userID = wu.webAuthnID then
      (wu.creds.find? fun c => body.toList =
        c.publicKey.toList ++ session.challenge.toList ++ List.replicate (stars body) '*').map
        fun c =>
          if stars body ≤ c.signCount ∧ (stars body ≠ 0 ∨ c.signCount ≠ 0) then
            { id := c.credentialId, publicKey := c.publicKey, signCount := c.signCount
              cloneWarning := true }
          else { id := c.credentialId, publicKey := c.publicKey, signCount := stars body }
    else none
  beginDiscoverableLogin := demoWebAuthn.beginDiscoverableLogin
  finishPasskeyLogin _ _ _ := none
  signs c challenge body :=
    body.toList = c.publicKey.toList ++ challenge.toList ++ List.replicate (stars body) '*'
  userVerified _ := false

theorem countingWebAuthn_countsBy : countingWebAuthn.CountsBy stars where
  finishLogin wu session body cred h := by
    simp only [countingWebAuthn] at h
    split_ifs at h
    obtain ⟨c, hc, rfl⟩ := Option.map_eq_some_iff.mp h
    refine ⟨c, List.mem_of_find?_eq_some hc, ?_⟩
    split_ifs with hclone
    · exact ⟨rfl, iff_of_true rfl hclone, fun hcontra => absurd hcontra (by decide)⟩
    · exact ⟨rfl, iff_of_false (by decide) hclone, fun _ => rfl⟩
  finishPasskeyLogin lookup session body wu cred h := by
    simp [countingWebAuthn] at h

/-- Two sign-ins begun one after the other, and finished at once. -/
def twoSignIns : List KeyAct :=
  [.loginBegin "ann@example.org" "long enough", .step 0 {}, .step 0 { drawn := "one" },
    .step 0 { drawn := "a" }, .loginBegin "ann@example.org" "long enough", .step 1 {},
    .step 1 { drawn := "two" }, .step 1 { drawn := "b" },
    .loginFinish (some "a") "keyone*", .loginFinish (some "b") "keytwo**", .step 2 {}, .step 2 {},
    .step 2 {}, .step 3 {}, .step 3 {}, .step 3 {}, .step 3 {}, .step 2 {}]

theorem counts_sound_demo :
    Meets (countStep countingWebAuthn stars demoConfig)
        (SoundCounts countingWebAuthn stars demoConfig) ({ store := demoTokenHolder }, {})
        twoSignIns ↔
      Meets (countStep countingWebAuthn stars demoConfig)
        (CountsSettled countingWebAuthn demoConfig) ({ store := demoTokenHolder }, {})
        twoSignIns :=
  counts_sound_iff countingWebAuthn stars demoConfig countingWebAuthn_countsBy demoTokenHolder _
    (by simp [twoSignIns])

/-- The lower counter of the two is written last. -/
theorem count_lowered : ¬ ∀ lib counter cfg, WebAuthn.CountsBy lib counter → ∀ s acts,
    (∀ s, KeyAct.elsewhere s ∉ acts) → Meets (countStep lib counter cfg)
      (SoundCounts lib counter cfg) ({ store := s }, {}) acts := by
  intro hall
  have hend : ((run (countStep countingWebAuthn stars demoConfig) ({ store := demoTokenHolder }, {})
      twoSignIns.dropLast).map fun w =>
        ((w.1.store.credentials.get? 1).map CredentialRow.signCount,
          (countStep countingWebAuthn stars demoConfig w (.step 2 {})).map fun w' =>
            (w'.1.store.credentials.get? 1).map CredentialRow.signCount)) =
      some (some 2, some (some 1)) := by decide
  obtain ⟨w, hrun, hw⟩ := Option.map_eq_some_iff.mp hend
  obtain ⟨hbefore, hafter⟩ := Prod.mk.inj hw
  obtain ⟨w', hstep, hafter⟩ := Option.map_eq_some_iff.mp hafter
  obtain ⟨row, hrow, htwo⟩ := Option.map_eq_some_iff.mp hbefore
  obtain ⟨row', hrow', hone⟩ := Option.map_eq_some_iff.mp hafter
  have hsound := hall countingWebAuthn stars demoConfig countingWebAuthn_countsBy demoTokenHolder
    twoSignIns (by simp [twoSignIns]) twoSignIns.dropLast (.step 2 {}) w (List.prefix_refl _) hrun
  have hle := hsound.kept w' hstep 1 row row' hrow hrow'
  omega

end CertGuard
