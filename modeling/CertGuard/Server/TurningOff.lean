import CertGuard.Server.OneTimeCodes

/-!
# Turning the second factor off

`handle2FADisable` asks for a code, and `handle2FASetup` refuses to replace the secret of an
account whose second factor is on. Both decide by the user they have read, and
`handle2FASetup` by the one its session was resolved to; `SetUserTOTP` then writes over
whatever there is. A setup that was resolved before the second factor came on turns it off
again, without a code.

## Main definitions

* `CodeChecks` — the secret, the code and the time each request checked
* `OffWithCode` — what turns a second factor off, or replaces its secret, was given its code
* `OnWithSecret` — what turns it on stores the secret there is, which it was given a code of
* `FindsSecret` — a statement finds the secret its request decided by

## Main results

* `turned_off_with_code_iff` — the codes of a run protect it exactly if its statements find
  these secrets
* `turned_off_by_setup` — and a run in which no code does
-/

namespace CertGuard

open Transition

/-- What a code was checked against, and when. -/
structure CodeCheck where
  secret : String
  code : String
  now : Int
  deriving DecidableEq, Repr

/-- `twofa.Validate`, of the code against a secret at the time of the check. -/
def CodeCheck.Opens (c : CodeCheck) (secret : String) : Prop :=
  (validateStep secret c.code c.now).isSome

instance (c : CodeCheck) (secret : String) : Decidable (c.Opens secret) :=
  inferInstanceAs (Decidable ((validateStep secret c.code c.now).isSome = true))

/-- The last check of each request. -/
abbrev CodeChecks := Nat → Option CodeCheck

/-- Records the check of a request that reads a user. -/
def CodeChecks.noteNext (g : CodeChecks) (s : Store) (i : Nat) (t : Turn) : Request → CodeChecks
  | .authed (.findEnable me code) | .authed (.findDisable me code) =>
    Function.update g i ((s.getUserByID me.id).map fun user => ⟨user.totpSecret, code, t.now⟩)
  | _ => g

/-- Keeps the checks of a run. -/
def CodeChecks.note (g : CodeChecks) (y : Accounts) (act : AccountAct) : CodeChecks :=
  match act with
  | .step i t => y.requests[i]?.elim g (g.noteNext y.store i t)
  | _ => g

/-- Accounts with the checks. -/
abbrev checkStep (cfg : AuthConfig) :
    Accounts × CodeChecks → AccountAct → Option (Accounts × CodeChecks) :=
  watch (Accounts.step cfg) CodeChecks.note

/-! ### What codes protect -/

/-- A step that turns off the second factor of an account, or replaces its secret while it is
on, is one of a `handle2FADisable` that was given a code of the secret stored. -/
def OffWithCode (cfg : AuthConfig) (w : Accounts × CodeChecks) (act : AccountAct) : Prop :=
  ∀ y' id row row', w.1.step cfg act = some y' → w.1.store.users.get? id = some row →
    y'.store.users.get? id = some row' → row.totpEnabled = true →
      row'.totpEnabled = false ∨ row'.totpSecret ≠ row.totpSecret →
        ∃ i t user step c, act = .step i t ∧
          w.1.requests[i]? = some (.authed (.disable2FA user step)) ∧
            w.2 i = some c ∧ c.Opens row.totpSecret

/-- A step that turns on the second factor of an account stores the secret the account has,
and its request checked a code against this one. -/
def OnWithSecret (cfg : AuthConfig) (w : Accounts × CodeChecks) (act : AccountAct) : Prop :=
  ∀ id secret row, w.1.effect cfg act = .setUserTOTP id secret true →
    w.1.store.users.get? id = some row → secret = row.totpSecret ∧
      ∃ i t c, act = .step i t ∧ w.2 i = some c ∧ c.secret = secret ∧ c.Opens secret

/-- Both. -/
def GuardedByCodes (cfg : AuthConfig) (w : Accounts × CodeChecks) (act : AccountAct) : Prop :=
  OffWithCode cfg w act ∧ OnWithSecret cfg w act

/-- What the last statement of a request must find, if it finds the account: in
`handle2FASetup`, that its second factor is off; in `handle2FAEnable`, the secret that was
read; and in `handle2FADisable`, if the second factor is on, that secret as well, or one the
code happens to be a code of. -/
def FindsDecided (s : Store) (check : Option CodeCheck) : AccountEffect → Request → Prop
  | .setUserTOTP id _ _, .authed (.setup2FA _) =>
    ∀ row, s.users.get? id = some row → row.totpEnabled = false
  | .setUserTOTP id _ _, .authed (.enable2FA user _) =>
    ∀ row, s.users.get? id = some row → row.totpSecret = user.totpSecret
  | .setUserTOTP id _ _, .authed (.disable2FA user _) =>
    ∀ row, s.users.get? id = some row → row.totpEnabled = true →
      row.totpSecret = user.totpSecret ∨ ∃ c, check = some c ∧ c.Opens row.totpSecret
  | _, _ => True

/-- The statement of an action finds this. -/
def FindsSecret (cfg : AuthConfig) (w : Accounts × CodeChecks) (act : AccountAct) : Prop :=
  ∀ i t r, act = .step i t → w.1.requests[i]? = some r →
    FindsDecided w.1.store (w.2 i) (w.1.effect cfg act) r

/-- Whoever is about to turn the second factor on or off has given a code of the secret that
was read. -/
def Request.CheckedBy (check : Option CodeCheck) : Request → Prop
  | .authed (.enable2FA user _) | .authed (.disable2FA user _) =>
    ∃ c, check = some c ∧ c.secret = user.totpSecret ∧ c.Opens user.totpSecret
  | _ => True

/-- Every request under way has. -/
def EachChecked (w : Accounts × CodeChecks) : Prop :=
  ∀ i (r : Request), w.1.requests[i]? = some r → r.CheckedBy (w.2 i)

variable {cfg : AuthConfig} {w w' : Accounts × CodeChecks} {act : AccountAct} {s : Store}
variable {t : Turn} {eff : AccountEffect} {r r' : Request} {g : CodeChecks} {i j : Nat}

/-! ### What was checked -/

theorem noteNext_of_ne (hij : j ≠ i) : g.noteNext s i t r j = g j := by
  unfold CodeChecks.noteNext
  split
  · exact Function.update_of_ne hij _ _
  · exact Function.update_of_ne hij _ _
  · rfl

/-- A code is checked against the secret of the user that is read. -/
theorem findEnable_cases {me : User} {code : String} {m : AccountEffect × AuthedPc}
    (h : (AuthedPc.findEnable me code).next cfg s t = some m) :
    m.2 = .done ∨ ∃ user step, s.getUserByID me.id = some user ∧
      validateStep user.totpSecret code t.now = some step ∧ m.2 = .enable2FA user step := by
  rw [AuthedPc.next] at h
  split at h
  · exact Or.inl (Option.some.inj h ▸ rfl)
  · next user hread =>
    split at h
    · exact Or.inl (Option.some.inj h ▸ rfl)
    · next step hstep =>
      refine Or.inr ⟨user, step, ?_, ?_, Option.some.inj h ▸ rfl⟩
      · exact (Option.ite_none_right_eq_some.mp hread).2
      · exact (Option.ite_none_left_eq_some.mp hstep).2

theorem findDisable_cases {me : User} {code : String} {m : AccountEffect × AuthedPc}
    (h : (AuthedPc.findDisable me code).next cfg s t = some m) :
    m.2 = .done ∨ ∃ user step, s.getUserByID me.id = some user ∧
      validateStep user.totpSecret code t.now = some step ∧ m.2 = .disable2FA user step := by
  rw [AuthedPc.next] at h
  split at h
  · exact Or.inl (Option.some.inj h ▸ rfl)
  · next user hread =>
    split at h
    · exact Or.inl (Option.some.inj h ▸ rfl)
    · next step hstep =>
      refine Or.inr ⟨user, step, ?_, ?_, Option.some.inj h ▸ rfl⟩
      · exact (Option.ite_none_right_eq_some.mp hread).2
      · exact (Option.ite_none_right_eq_some.mp hstep).2

/-- Nobody is about to turn it on or off whose user was only just resolved. -/
theorem checkedBy_dispatch {me : User} {cookie : Option String} {op : AuthedOp}
    {check : Option CodeCheck} :
    (Request.authed (AuthedPc.dispatch cfg t me cookie op)).CheckedBy check := by
  cases op with
  | createUser email password role =>
    simp only [AuthedPc.dispatch]
    split
    · trivial
    · split <;> trivial
  | logout => cases cookie <;> trivial
  | deleteUser id =>
    simp only [AuthedPc.dispatch]
    split_ifs <;> trivial
  | setup2FA =>
    simp only [AuthedPc.dispatch]
    split_ifs <;> trivial
  | _ => trivial

/-- A request that has read its user goes on with a check that succeeded. -/
theorem checkedBy_next (h : r.next cfg s t = some (eff, r')) :
    r'.CheckedBy (g.noteNext s i t r i) := by
  cases r with
  | login pc =>
    obtain ⟨m, -, heq⟩ := Option.map_eq_some_iff.mp h
    obtain ⟨-, rfl⟩ := Prod.mk.inj heq
    trivial
  | setup pc =>
    obtain ⟨m, -, heq⟩ := Option.map_eq_some_iff.mp h
    obtain ⟨-, rfl⟩ := Prod.mk.inj heq
    trivial
  | reset pc =>
    obtain ⟨m, -, heq⟩ := Option.map_eq_some_iff.mp h
    obtain ⟨-, rfl⟩ := Prod.mk.inj heq
    trivial
  | authed pc =>
    obtain ⟨m, hm, heq⟩ := Option.map_eq_some_iff.mp h
    obtain ⟨-, rfl⟩ := Prod.mk.inj heq
    cases pc with
    | findEnable me code =>
      rcases findEnable_cases hm with hdone | ⟨user, step, hread, hstep, hnext⟩
      · rw [hdone]
        trivial
      · rw [hnext]
        exact ⟨⟨user.totpSecret, code, t.now⟩, by simp [CodeChecks.noteNext, hread], rfl,
          Option.isSome_of_eq_some hstep⟩
    | findDisable me code =>
      rcases findDisable_cases hm with hdone | ⟨user, step, hread, hstep, hnext⟩
      · rw [hdone]
        trivial
      · rw [hnext]
        exact ⟨⟨user.totpSecret, code, t.now⟩, by simp [CodeChecks.noteNext, hread], rfl,
          Option.isSome_of_eq_some hstep⟩
    | resolve bearer cookie op =>
      -- a request that was just dispatched has no code to check yet
      rw [AuthedPc.next] at hm
      split at hm
      · exact Option.some.inj hm ▸ trivial
      · exact Option.some.inj hm ▸ checkedBy_dispatch
    | insertUser email hash role =>
      rw [AuthedPc.next] at hm
      split_ifs at hm <;> exact Option.some.inj hm ▸ trivial
    | done => simp [AuthedPc.next] at hm
    | _ => exact Option.some.inj hm ▸ trivial

theorem checkedBy_arrival (h : act.arrival = some r) : r.CheckedBy (g i) := by
  cases act with
  | step i t => simp [AccountAct.arrival] at h
  | _ =>
    obtain rfl := Option.some.inj h
    trivial

theorem eachChecked_step (hchecked : EachChecked w) (hstep : checkStep cfg w act = some w') :
    EachChecked w' := by
  obtain ⟨y', hy', rfl⟩ := Option.map_eq_some_iff.mp hstep
  intro j r' hr'
  rcases Accounts.request_cases hy' hr' with ⟨hr, hother⟩ | harrival | ⟨t, r, rfl, hr, hnext⟩
  · -- its check is as it was
    have hlog : CodeChecks.note w.2 w.1 act j = w.2 j := by
      cases act with
      | step i t =>
        have hij : j ≠ i := fun hij => hother t (by rw [hij])
        simp only [CodeChecks.note]
        cases w.1.requests[i]? with
        | none => rfl
        | some r => exact noteNext_of_ne hij
      | _ => rfl
    simpa only [hlog] using hchecked j r' hr
  · exact checkedBy_arrival harrival
  · simp only [CodeChecks.note, hr, Option.elim_some]
    exact checkedBy_next hnext

/-! ### What a statement does to the second factor -/

/-- Only `SetUserTOTP` changes it. -/
theorem totp_apply {id : Int} {row row' : UserRow}
    (hset : ∀ id secret on, eff ≠ .setUserTOTP id secret on)
    (hrow : s.users.get? id = some row) (hrow' : (eff.apply s).users.get? id = some row') :
    row'.totpEnabled = row.totpEnabled ∧ row'.totpSecret = row.totpSecret := by
  -- a statement on one user leaves these columns, unless it is the one that sets them
  have hmodify : ∀ (id' : Int) (f : UserRow → UserRow),
      (∀ r, (f r).totpEnabled = r.totpEnabled ∧ (f r).totpSecret = r.totpSecret) →
        (s.users.modify id' f).get? id = some row' →
          row'.totpEnabled = row.totpEnabled ∧ row'.totpSecret = row.totpSecret := by
    intro id' f hf h
    rw [Table.get?_modify, hrow] at h
    split_ifs at h
    · exact Option.some.inj h ▸ hf row
    · exact Option.some.inj h ▸ ⟨rfl, rfl⟩
  have hsame : s.users.get? id = some row' →
      row'.totpEnabled = row.totpEnabled ∧ row'.totpSecret = row.totpSecret := fun h => by
    rw [Option.some.inj (h.symm.trans hrow)]
    exact ⟨rfl, rfl⟩
  cases eff with
  | createUser new =>
    rw [AccountEffect.apply, Store.createUser] at hrow'
    split_ifs at hrow'
    · exact hsame ((Table.get?_insert_of_some hrow).symm.trans hrow' ▸ hrow)
    · exact hsame hrow'
  | deleteUser id' =>
    rw [AccountEffect.apply, Store.deleteUser, Table.get?_erase] at hrow'
    split_ifs at hrow'
    exact hsame hrow'
  | setPasswordHash id' hash =>
    exact hmodify id' (fun r => { r with passwordHash := hash }) (fun _ => ⟨rfl, rfl⟩) hrow'
  | setUserTOTP id' secret on => exact absurd rfl (hset id' secret on)
  | consumeTOTPStep id' step =>
    refine hmodify id' _ (fun r => ?_) hrow'
    split_ifs <;> exact ⟨rfl, rfl⟩
  | createSession new =>
    rw [AccountEffect.apply, Store.createSession] at hrow'
    split_ifs at hrow' <;> exact hsame hrow'
  | _ => exact hsame hrow'

theorem get?_setUserTOTP {id id' : Int} {secret : String} {on : Bool} {row' : UserRow}
    (h : (s.setUserTOTP id secret on).users.get? id' = some row') :
    (id' = id ∧ row'.totpEnabled = on ∧ row'.totpSecret = secret) ∨
      id' ≠ id ∧ s.users.get? id' = some row' := by
  rw [Store.setUserTOTP, Table.get?_modify] at h
  split_ifs at h with hid
  · obtain ⟨row, -, rfl⟩ := Option.map_eq_some_iff.mp h
    exact Or.inl ⟨hid, rfl, rfl⟩
  · exact Or.inr ⟨hid, h⟩

/-- Three requests come to it. -/
theorem statement_setUserTOTP {id : Int} {secret : String} {on : Bool}
    (h : r.statement cfg t = .setUserTOTP id secret on) :
    (∃ me, r = .authed (.setup2FA me) ∧ on = false) ∨
      (∃ user step, r = .authed (.enable2FA user step) ∧ secret = user.totpSecret ∧ on = true) ∨
        ∃ user step, r = .authed (.disable2FA user step) ∧ on = false := by
  cases r with
  | login pc => cases pc <;> cases h
  | setup pc => cases pc <;> cases h
  | reset pc => cases pc <;> cases h
  | authed pc =>
    -- only three statements set the secret
    cases pc with
    | setup2FA me =>
      cases h
      exact Or.inl ⟨me, rfl, rfl⟩
    | enable2FA user step =>
      cases h
      exact Or.inr (Or.inl ⟨user, step, rfl, rfl, rfl⟩)
    | disable2FA user step =>
      cases h
      exact Or.inr (Or.inr ⟨user, step, rfl, rfl⟩)
    | resolve bearer cookie op => cases bearer <;> cases cookie <;> cases h
    | _ => cases h

/-! ### What keeps it guarded -/

/-- An action without such a statement turns nothing on or off. -/
theorem guardedByCodes_of_ne
    (hset : ∀ id secret on, w.1.effect cfg act ≠ .setUserTOTP id secret on) :
    GuardedByCodes cfg w act := by
  constructor
  · intro y' id row row' hy' hrow hrow' hon hchange
    rw [Accounts.store_step hy'] at hrow'
    obtain ⟨henabled, hsecret⟩ := totp_apply hset hrow hrow'
    rcases hchange with hoff | hne
    · rw [henabled, hon] at hoff
      exact absurd hoff (by decide)
    · exact absurd hsecret hne
  · intro id secret row heff
    exact absurd heff (hset id secret true)

theorem findsSecret_of_ne
    (hset : ∀ id secret on, w.1.effect cfg act ≠ .setUserTOTP id secret on) :
    FindsSecret cfg w act := by
  intro i t r hact hr
  cases heff : w.1.effect cfg act with
  | setUserTOTP id secret on => exact absurd heff (hset id secret on)
  | _ => trivial

section Statement

variable {id : Int} {secret : String} {on : Bool} {me user : User} {step : Int}

/-- The property of an action that is such a statement, said of the account it is about. -/
theorem guardedByCodes_iff (hr : w.1.requests[i]? = some r)
    (heff : w.1.effect cfg (.step i t) = .setUserTOTP id secret on) :
    GuardedByCodes cfg w (.step i t) ↔ ∀ row, w.1.store.users.get? id = some row →
      (row.totpEnabled = true → on = false ∨ secret ≠ row.totpSecret →
        ∃ user step c, r = .authed (.disable2FA user step) ∧ w.2 i = some c ∧
          c.Opens row.totpSecret) ∧
      (on = true → secret = row.totpSecret ∧
        ∃ c, w.2 i = some c ∧ c.secret = secret ∧ c.Opens secret) := by
  obtain ⟨y', hy'⟩ : ∃ y', w.1.step cfg (.step i t) = some y' := by
    cases hstep : w.1.step cfg (.step i t) with
    | none => simp [Accounts.effect_of_refused hstep] at heff
    | some y' => exact ⟨y', rfl⟩
  have hstore : y'.store = w.1.store.setUserTOTP id secret on := by
    rw [Accounts.store_step hy', heff]
    rfl
  constructor
  · rintro ⟨hoff, hon⟩ row hrow
    have hrow' : y'.store.users.get? id =
        some { row with totpSecret := secret, totpEnabled := on, totpLastStep := 0 } := by
      rw [hstore, Store.setUserTOTP, Table.get?_modify_self, hrow]
      rfl
    refine ⟨fun henabled hchange => ?_, ?_⟩
    · obtain ⟨i', t', user, step, c, hact, hr', hc, hopens⟩ :=
        hoff y' id row _ hy' hrow hrow' henabled hchange
      obtain ⟨rfl, rfl⟩ := AccountAct.step.inj hact
      exact ⟨user, step, c, Option.some.inj (hr.symm.trans hr'), hc, hopens⟩
    · rintro rfl
      obtain ⟨hsecret, i', t', c, hact, hc⟩ := hon id secret row heff hrow
      obtain ⟨rfl, rfl⟩ := AccountAct.step.inj hact
      exact ⟨hsecret, c, hc⟩
  · intro h
    constructor
    · intro y'' id' row row' hy'' hrow hrow' henabled hchange
      obtain rfl := Option.some.inj (hy'.symm.trans hy'')
      rw [hstore] at hrow'
      rcases get?_setUserTOTP hrow' with ⟨rfl, hon', hsecret'⟩ | ⟨-, hkept⟩
      · rw [hon', hsecret'] at hchange
        obtain ⟨user, step, c, rfl, hc, hopens⟩ := (h row hrow).1 henabled hchange
        exact ⟨i, t, user, step, c, rfl, hr, hc, hopens⟩
      · -- another account is as it was
        obtain rfl := Option.some.inj (hrow.symm.trans hkept)
        rcases hchange with hoff | hne
        · exact absurd (henabled.symm.trans hoff) (by decide)
        · exact absurd rfl hne
    · intro id' secret' row heff' hrow
      obtain ⟨rfl, rfl, rfl⟩ := AccountEffect.setUserTOTP.inj (heff.symm.trans heff')
      obtain ⟨hsecret, c, hc⟩ := (h row hrow).2 rfl
      exact ⟨hsecret, i, t, c, rfl, hc⟩

theorem findsSecret_iff (hr : w.1.requests[i]? = some r)
    (heff : w.1.effect cfg (.step i t) = eff) :
    FindsSecret cfg w (.step i t) ↔ FindsDecided w.1.store (w.2 i) eff r := by
  constructor
  · exact fun h => heff ▸ h i t r rfl hr
  · intro h i' t' r' hact hr'
    obtain ⟨rfl, rfl⟩ := AccountAct.step.inj hact
    obtain rfl := Option.some.inj (hr.symm.trans hr')
    exact heff ▸ h

end Statement

/-- An action is guarded exactly if its statement finds the secret its request decided by. -/
theorem guarded_iff_finds (hchecked : EachChecked w) :
    GuardedByCodes cfg w act ↔ FindsSecret cfg w act := by
  by_cases hset : ∃ id secret on, w.1.effect cfg act = .setUserTOTP id secret on
  · obtain ⟨id, secret, on, heff⟩ := hset
    cases hstep : w.1.step cfg act with
    | none => simp [Accounts.effect_of_refused hstep] at heff
    | some y' =>
      rcases Accounts.effect_cases hstep with hnothing | ⟨i, t, r, rfl, hr, hstatement⟩
      · simp [hnothing] at heff
      rw [guardedByCodes_iff hr heff, findsSecret_iff hr heff]
      have hby := hchecked i r hr
      rcases statement_setUserTOTP (hstatement.symm.trans heff) with
        ⟨me, rfl, rfl⟩ | ⟨user, step, rfl, rfl, rfl⟩ | ⟨user, step, rfl, rfl⟩
      · -- a setup never turns it off
        simp [FindsDecided]
      · obtain ⟨c, hc, hsecret, hopens⟩ := hby
        -- the code was checked against the secret that was read
        refine forall_congr' fun row => forall_congr' fun hrow => ?_
        constructor
        · exact fun h => (h.2 rfl).1.symm
        · intro hsame
          refine ⟨fun _ hchange => ?_, fun _ => ⟨hsame.symm, c, hc, hsecret, hopens⟩⟩
          rcases hchange with hoff | hne
          · exact absurd hoff (by decide)
          · exact absurd hsame.symm hne
      · obtain ⟨c, hc, -, hopens⟩ := hby
        refine forall_congr' fun row => forall_congr' fun hrow => ?_
        constructor
        · rintro ⟨hoff, -⟩ henabled
          obtain ⟨-, -, c', -, hc', hopens'⟩ := hoff henabled (Or.inl rfl)
          exact Or.inr ⟨c', hc', hopens'⟩
        · intro h
          refine ⟨fun henabled _ => ?_, fun hcontra => absurd hcontra (by decide)⟩
          rcases h henabled with hsame | ⟨c', hc', hopens'⟩
          · exact ⟨user, step, c, rfl, hc, hsame ▸ hopens⟩
          · exact ⟨user, step, c', rfl, hc', hopens'⟩
  · simp only [not_exists] at hset
    exact iff_of_true (guardedByCodes_of_ne hset) (findsSecret_of_ne hset)

/-- Over every interleaving of requests to set up, enable and disable a second factor and of
other requests, whatever fails in them: what turns the second factor of an account off, or
replaces the secret while it is on, is a `handle2FADisable` that was given a code of the
secret stored, and what turns it on stores the secret there is, which its code was checked
against, exactly if every setup finds the second factor off, and the other two the secret
they have read or, in `handle2FADisable`, one the code is a code of as well. -/
theorem turned_off_with_code_iff (cfg : AuthConfig) (s : Store) (acts : List AccountAct) :
    Meets (checkStep cfg) (GuardedByCodes cfg) (⟨s, []⟩, fun _ => none) acts ↔
      Meets (checkStep cfg) (FindsSecret cfg) (⟨s, []⟩, fun _ => none) acts := by
  apply meets_congr_of_inv EachChecked
  · intro i r hr
    simp at hr
  · exact fun w act w' => eachChecked_step
  · exact fun w act => guarded_iff_finds

/-- A setup is resolved, the second factor is turned on, and the setup goes on. -/
def lateSetup : List AccountAct :=
  [.authed (some "ann") none .setup2FA, .step 0 {},
    .authed (some "ann") none (.enable2FA "287082"), .step 1 {}, .step 1 demoTurn, .step 1 {},
    .step 0 { drawn := "JBSWY3DPEHPK3PXP" }]

/-- It turns the second factor off, and was given no code. -/
theorem turned_off_by_setup : ¬ ∀ cfg s acts,
    Meets (checkStep cfg) (GuardedByCodes cfg) (⟨s, []⟩, fun _ => none) acts := by
  intro hall
  have hend : ((run (checkStep demoConfig) (⟨demoPending, []⟩, fun _ => none)
      lateSetup.dropLast).map fun w => (w.1.store.users.get? 1, w.1.requests[0]?)) = some
        (some { email := "ann@example.org", passwordHash := "$2a$10$long enough", role := .admin
                totpSecret := "GEZDGNBVGY3TQOJQGEZDGNBVGY3TQOJQ", totpEnabled := true },
          some (.authed (.setup2FA ⟨1, "ann@example.org", "$2a$10$long enough", .admin,
            "GEZDGNBVGY3TQOJQGEZDGNBVGY3TQOJQ", false, 0⟩))) := by decide +kernel
  obtain ⟨w, hrun, hw⟩ := Option.map_eq_some_iff.mp hend
  obtain ⟨hrow, hr⟩ := Prod.mk.inj hw
  have hguarded := hall demoConfig demoPending lateSetup lateSetup.dropLast
    (.step 0 { drawn := "JBSWY3DPEHPK3PXP" }) w (List.prefix_refl _) hrun
  have heff : w.1.effect demoConfig (.step 0 { drawn := "JBSWY3DPEHPK3PXP" }) =
      .setUserTOTP 1 "JBSWY3DPEHPK3PXP" false := by
    simp [Accounts.effect, Accounts.move, hr, Request.next, AuthedPc.next]
  obtain ⟨user, step, c, hcontra, -⟩ :=
    ((guardedByCodes_iff hr heff).mp hguarded _ hrow).1 rfl (Or.inl rfl)
  exact absurd hcontra (by simp)

end CertGuard
