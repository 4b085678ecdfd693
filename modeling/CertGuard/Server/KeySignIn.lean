import CertGuard.Server.Ceremonies

/-!
# Ceremonies are used once, in time, and for what they were begun

A ceremony is taken out of the map by whoever finishes it, so nobody finishes it again, and
nobody gets it past its deadline. What it was begun for is another matter: a ceremony of a
passkey names no user and is of no use to `handleWebAuthnLoginFinish`, but one of a
registration names the user who asked for it, and demands no user verification.

## Main definitions

* `CeremonyLog` — the ceremonies begun and taken, and the sessions started
* `WellUsed` — every ceremony was used once and in time, and every session goes back to a
  login of its user, with the password or with user verification
* `NoRegistration` — a login is not finished with the ceremony of a registration

## Main results

* `well_used_iff` — a run uses its ceremonies well exactly if it finishes no login so
* `registration_signs_in` — and a run that does
-/

namespace CertGuard

open Transition

/-- What the log says about a ceremony: the request it was begun by, and when. -/
structure Beginning where
  begun : Begun
  time : Int

/-- A session `handleWebAuthnLoginFinish` has started, with the ceremony it goes back to. -/
structure KeySession where
  userID : Int
  ceremony : Nat
  /-- The assertion carried user verification. -/
  verified : Bool

/-- What happened to ceremonies in a run. -/
structure CeremonyLog where
  log : Pending.Log String Beginning := {}
  /-- The ceremony a request has taken, by the number of the request. -/
  taken : Nat → Nat := fun _ => 0
  started : List KeySession := []

namespace CeremonyLog

variable (lib : WebAuthn) (cfg : AuthConfig)

/-- A step of request `i` is recorded. -/
def noteNext (g : CeremonyLog) (y : Keys) (i : Nat) (t : KeyTurn) (eff : KeyEffect) :
    KeyPc → CeremonyLog
  | .setCeremony begun _ _ =>
    match eff with
    | .put token _ _ => { g with log := g.log.put token ⟨begun, t.now⟩ }
    | _ => g
  | .takeCeremony _ (some token) _ =>
    -- whether the request goes on with it or not
    if (y.ceremonies.take Ceremony.expires t.now token).isSome then
      { g with
        log := g.log.take token t.now
        taken := Function.update g.taken i (g.log.held token) }
    else g
  | .loginStart user body =>
    match eff with
    | .account (.createSession row) =>
      -- the constraints of the table may refuse the row
      if y.store.TakesSession row then
        { g with started := ⟨user.id, g.taken i, lib.userVerified body⟩ :: g.started }
      else g
    | _ => g
  | _ => g

/-- Keeps the log of a run. -/
def note (g : CeremonyLog) (y : Keys) (act : KeyAct) : CeremonyLog :=
  match act with
  | .step i t => y.requests[i]?.elim g (g.noteNext lib y i t (y.effect lib cfg act))
  | _ => g

end CeremonyLog

/-- The requests with the log. -/
abbrev keyStep (lib : WebAuthn) (cfg : AuthConfig) :
    Keys × CeremonyLog → KeyAct → Option (Keys × CeremonyLog) :=
  watch (Keys.step lib cfg) (CeremonyLog.note lib cfg)

/-- No ceremony was taken twice or more than five minutes after it was begun, and every
session `handleWebAuthnLoginFinish` has started goes back to a ceremony
`handleWebAuthnLoginBegin` began for its user, with the password proved there or user
verification in the assertion. -/
structure WellUsed (g : CeremonyLog) : Prop where
  once : (g.log.taken.map Prod.fst).Nodup
  inTime : ∀ e ∈ g.log.taken, ∃ b,
    g.log.issued[e.1]? = some b ∧ e.2 ≤ b.time + ceremonyTTL
  fromLogin : ∀ e ∈ g.started, ∃ b proved, g.log.issued[e.ceremony]? = some b ∧
    b.begun = .login e.userID proved ∧ (proved = true ∨ e.verified = true)

/-- `handleWebAuthnLoginFinish` starts no session with a ceremony `handleWebAuthnRegisterBegin`
began. -/
def NoRegistration (lib : WebAuthn) (cfg : AuthConfig) (w : Keys × CeremonyLog)
    (act : KeyAct) : Prop :=
  ∀ i t user body row, act = .step i t → w.1.requests[i]? = some (.loginStart user body) →
    w.1.effect lib cfg act = .account (.createSession row) → w.1.store.TakesSession row →
      ∀ b, w.2.log.issued[w.2.taken i]? = some b → ∀ id, b.begun ≠ .register id

/-! ### What a request leaves in its ceremony -/

/-- What a request that begins a ceremony leaves in it. -/
def BegunAs (session : SessionData) (userID : Int) : Begun → Prop
  | .register _ => True
  | .login id proved => userID = id ∧ (proved = true ∨ session.userVerification = .required)
  | .passkey => session.userID = ""

/-- A ceremony is as the log says. -/
def AsBegun (cer : Ceremony) (b : Beginning) : Prop :=
  cer.expires = b.time + ceremonyTTL ∧ BegunAs cer.session cer.userID b.begun

/-- What the library has checked when it accepts the assertion of a user. -/
def Checked (lib : WebAuthn) (userID : Int) (body : String) : Begun → Prop
  | .register _ => True
  | .login id proved => id = userID ∧ (proved = true ∨ lib.userVerified body = true)
  | .passkey => False

/-- The ceremony request `i` has taken was begun by a request of which `P` holds. -/
def CeremonyLog.TakenFrom (g : CeremonyLog) (i : Nat) (P : Begun → Prop) : Prop :=
  ∃ b, g.log.issued[g.taken i]? = some b ∧ P b.begun

/-- What is known of a request by where it stands. -/
def Standing (lib : WebAuthn) (cfg : AuthConfig) (g : CeremonyLog) (i : Nat) : KeyPc → Prop
  | .loginBegin user password => password ≠ "" → cfg.compare user.passwordHash password = true
  | .setCeremony begun session userID => BegunAs session userID begun
  | .loginUser cer _ => g.TakenFrom i (BegunAs cer.session cer.userID)
  | .loginFinish user cer _ =>
    user.id = cer.userID ∧ g.TakenFrom i (BegunAs cer.session cer.userID)
  | .loginTouch user _ body => g.TakenFrom i (Checked lib user.id body)
  | .loginStart user body => g.TakenFrom i (Checked lib user.id body)
  | _ => True

/-- What holds in every run. -/
structure Followed (lib : WebAuthn) (cfg : AuthConfig) (w : Keys × CeremonyLog) : Prop where
  agrees : w.2.log.Agrees AsBegun w.1.ceremonies
  standing : ∀ i pc, w.1.requests[i]? = some pc → Standing lib cfg w.2 i pc

variable {lib : WebAuthn} {cfg : AuthConfig} {w w' : Keys × CeremonyLog} {y : Keys}
variable {g g' : CeremonyLog} {act : KeyAct} {i j : Nat} {t : KeyTurn} {pc pc' : KeyPc}
variable {eff : KeyEffect} {P : Begun → Prop}

/-- The handle of a user is not empty. -/
theorem webAuthnID_ne_empty (wu : WebAuthnUser) : wu.webAuthnID ≠ "" := by
  unfold WebAuthnUser.webAuthnID
  cases wu.user.id with
  | ofNat n => exact Nat.repr_ne_empty
  | negSucc n => simp [toString, Int.repr]

/-- An assertion the library accepts was checked against what its ceremony demands. -/
theorem checked_of_accepts {wu : WebAuthnUser} {session : SessionData} {body : String}
    {begun : Begun} {userID : Int} (hacc : lib.Accepts wu session body)
    (hid : wu.user.id = userID) (hbegun : BegunAs session userID begun) :
    Checked lib wu.user.id body begun := by
  obtain ⟨hhandle, -, hverified⟩ := hacc
  cases begun with
  | register id => trivial
  | login id proved => exact ⟨hbegun.1.symm.trans hid.symm, hbegun.2.imp_right hverified⟩
  | passkey =>
    -- a ceremony of a passkey names no user, and the library compares handles
    have hempty : session.userID = "" := hbegun
    exact absurd (hhandle.symm.trans hempty) (webAuthnID_ne_empty wu)

/-! ### The log -/

theorem note_step (hpc : y.requests[i]? = some pc)
    (hnext : pc.next lib cfg y.store y.ceremonies t = some (eff, pc')) :
    g.note lib cfg y (.step i t) = g.noteNext lib y i t eff pc := by
  have hmove : y.move lib cfg i t = some (eff, pc') := by
    rw [Keys.move, hpc, Option.bind_some, hnext]
  have heff : y.effect lib cfg (.step i t) = eff := by
    rw [Keys.effect, hmove, Option.map_some, Option.getD_some]
  rw [CeremonyLog.note, hpc, Option.elim_some, heff]

/-- What was begun stays in the log. -/
theorem issued_note {n : Nat} {b : Beginning} (h : g.log.issued[n]? = some b) :
    (g.noteNext lib y i t eff pc).log.issued[n]? = some b := by
  unfold CeremonyLog.noteNext
  split
  · split
    · exact Pending.Log.issued_put h _ _
    · exact h
  · split_ifs <;> exact h
  · split
    · split_ifs <;> exact h
    · exact h
  · exact h

/-- A request takes a ceremony for itself only. -/
theorem taken_note (hij : j ≠ i) : (g.noteNext lib y i t eff pc).taken j = g.taken j := by
  unfold CeremonyLog.noteNext
  split
  · split <;> rfl
  · split_ifs
    · exact Function.update_of_ne hij _ _
    · rfl
  · split
    · split_ifs <;> rfl
    · rfl
  · rfl

theorem CeremonyLog.TakenFrom.note (h : g.TakenFrom j P) (hij : j ≠ i) :
    (g.noteNext lib y i t eff pc).TakenFrom j P := by
  obtain ⟨b, hb, hP⟩ := h
  exact ⟨b, by rw [taken_note hij]; exact issued_note hb, hP⟩

/-- What is known of a request stays so while another one takes a step. -/
theorem standing_note (h : Standing lib cfg g j pc') (hij : j ≠ i) :
    Standing lib cfg (g.noteNext lib y i t eff pc) j pc' := by
  cases pc' with
  | loginUser cer body => exact CeremonyLog.TakenFrom.note h hij
  | loginFinish user cer body => exact ⟨h.1, h.2.note hij⟩
  | loginTouch user cred body => exact CeremonyLog.TakenFrom.note h hij
  | loginStart user body => exact CeremonyLog.TakenFrom.note h hij
  | _ => exact h

/-! ### One step of a request -/

/-- What a request leaves in the ceremony it begins, and what it knows of the one it takes. -/
theorem standing_next (hlib : lib.Documented) (hagrees : g.log.Agrees AsBegun y.ceremonies)
    (h : Standing lib cfg g i pc)
    (hnext : pc.next lib cfg y.store y.ceremonies t = some (eff, pc')) :
    Standing lib cfg (g.noteNext lib y i t eff pc) i pc' := by
  cases pc with
  | resolve bearer cookie op =>
    simp only [KeyPc.next] at hnext
    split at hnext <;> obtain ⟨-, rfl⟩ := Prod.mk.inj (Option.some.inj hnext)
    · trivial
    · cases op <;> trivial
  | registerBegin me =>
    simp only [KeyPc.next] at hnext
    split at hnext <;> obtain ⟨-, rfl⟩ := Prod.mk.inj (Option.some.inj hnext) <;> trivial
  | loginFind email password =>
    simp only [KeyPc.next] at hnext
    split at hnext
    · obtain ⟨-, rfl⟩ := Prod.mk.inj (Option.some.inj hnext)
      trivial
    · rename_i user _
      split_ifs at hnext with hwrong <;> obtain ⟨-, rfl⟩ := Prod.mk.inj (Option.some.inj hnext)
      · trivial
      · -- a password that was given was compared
        intro hpassword
        exact Bool.eq_true_of_not_eq_false fun hcompare => hwrong ⟨hpassword, hcompare⟩
  | loginBegin user password =>
    simp only [KeyPc.next] at hnext
    split at hnext <;> obtain ⟨-, rfl⟩ := Prod.mk.inj (Option.some.inj hnext)
    · trivial
    · rename_i session hbegin
      refine ⟨rfl, ?_⟩
      by_cases hpassword : password = ""
      · -- without a password verification is demanded, and kept in the session
        rw [if_pos hpassword] at hbegin
        exact Or.inr (hlib.beginLogin _ _ _ _ (Option.ite_none_right_eq_some.mp hbegin).2)
      · exact Or.inl (by simp [hpassword, h hpassword])
  | passkeyBegin =>
    simp only [KeyPc.next] at hnext
    split at hnext <;> obtain ⟨-, rfl⟩ := Prod.mk.inj (Option.some.inj hnext)
    · trivial
    · rename_i session hbegin
      exact hlib.beginDiscoverableLogin _ _ _ (Option.ite_none_right_eq_some.mp hbegin).2
  | takeCeremony finish token body =>
    cases token with
    | none =>
      obtain ⟨-, rfl⟩ := Prod.mk.inj (Option.some.inj hnext)
      trivial
    | some token =>
      simp only [KeyPc.next] at hnext
      split at hnext <;> obtain ⟨-, rfl⟩ := Prod.mk.inj (Option.some.inj hnext)
      · trivial
      · rename_i cer htake
        obtain ⟨b, hb, -, hbegun⟩ := hagrees.of_live token cer (Pending.take_eq_some_iff.mp htake).1
        have hfrom : (g.noteNext lib y i t (.take token) (.takeCeremony finish (some token) body))
            |>.TakenFrom i (BegunAs cer.session cer.userID) := by
          refine ⟨b, ?_, hbegun⟩
          simp only [CeremonyLog.noteNext, htake, Option.isSome_some, if_true, Function.update_self]
          exact hb
        cases finish with
        | register me =>
          simp only [KeyPc.resume]
          split_ifs <;> trivial
        | login => exact hfrom
        | passkey => trivial
  | loginUser cer body =>
    simp only [KeyPc.next] at hnext
    split at hnext <;> obtain ⟨-, rfl⟩ := Prod.mk.inj (Option.some.inj hnext)
    · trivial
    · rename_i user hget
      obtain ⟨row, -, rfl⟩ := getUserByID_eq_some_iff.mp (Option.ite_none_right_eq_some.mp hget).2
      exact ⟨rfl, h⟩
  | loginFinish user cer body =>
    obtain ⟨hid, b, hb, hbegun⟩ := h
    simp only [KeyPc.next] at hnext
    split at hnext <;> obtain ⟨-, rfl⟩ := Prod.mk.inj (Option.some.inj hnext)
    · trivial
    · rename_i cred hfinish
      have hsome := Option.isSome_of_mem (Option.ite_none_right_eq_some.mp hfinish).2
      have hacc : lib.Accepts (webAuthnUserFor y.store user) cer.session body :=
        (hlib.finishLogin _ _ _).mp hsome
      split_ifs
      · trivial
      · exact ⟨b, hb, checked_of_accepts hacc hid hbegun⟩
  | loginTouch user cred body =>
    obtain ⟨-, rfl⟩ := Prod.mk.inj (Option.some.inj hnext)
    exact h
  | registerFinish me cer body =>
    simp only [KeyPc.next] at hnext
    split at hnext <;> obtain ⟨-, rfl⟩ := Prod.mk.inj (Option.some.inj hnext) <;> trivial
  | passkeyFinish cer body =>
    simp only [KeyPc.next] at hnext
    split at hnext <;> obtain ⟨-, rfl⟩ := Prod.mk.inj (Option.some.inj hnext)
    · trivial
    · split_ifs <;> trivial
  | done => simp [KeyPc.next] at hnext
  | _ =>
    obtain ⟨-, rfl⟩ := Prod.mk.inj (Option.some.inj hnext)
    trivial

/-- What a step of a request does to the ceremonies and the log: it puts a ceremony or takes
one, it finds none to take, it starts a session for a login, or it does nothing to them. -/
theorem next_cases (hnext : pc.next lib cfg y.store y.ceremonies t = some (eff, pc')) :
    (∃ begun session userID token, pc = .setCeremony begun session userID ∧
        eff = .put token ⟨session, userID, t.now + ceremonyTTL⟩ t.swept ∧
        g.noteNext lib y i t eff pc = { g with log := g.log.put token ⟨begun, t.now⟩ }) ∨
      (∃ token cer, y.ceremonies.take Ceremony.expires t.now token = some cer ∧
        eff = .take token ∧ g.noteNext lib y i t eff pc =
          { g with
            log := g.log.take token t.now
            taken := Function.update g.taken i (g.log.held token) }) ∨
      (∃ token, eff = .take token ∧ g.noteNext lib y i t eff pc = g) ∨
      (∃ user body row, pc = .loginStart user body ∧ eff = .account (.createSession row) ∧
        y.store.TakesSession row ∧ g.noteNext lib y i t eff pc =
          { g with started := ⟨user.id, g.taken i, lib.userVerified body⟩ :: g.started }) ∨
      g.noteNext lib y i t eff pc = g ∧ eff.ceremonies y.ceremonies = y.ceremonies ∧
        ∀ user body row, pc = .loginStart user body → eff = .account (.createSession row) →
          ¬ y.store.TakesSession row := by
  cases pc with
  | setCeremony begun session userID =>
    obtain ⟨rfl, -⟩ := Prod.mk.inj (Option.some.inj hnext)
    split_ifs
    · exact Or.inl ⟨begun, session, userID, t.drawn, rfl, rfl, rfl⟩
    · exact Or.inr (Or.inr (Or.inr (Or.inr ⟨rfl, rfl, fun _ _ _ hpc => hpc.elim⟩)))
  | takeCeremony finish token body =>
    cases token with
    | none =>
      obtain ⟨rfl, -⟩ := Prod.mk.inj (Option.some.inj hnext)
      exact Or.inr (Or.inr (Or.inr (Or.inr ⟨rfl, rfl, fun _ _ _ hpc => KeyPc.noConfusion hpc⟩)))
    | some token =>
      simp only [KeyPc.next] at hnext
      split at hnext <;> obtain ⟨rfl, -⟩ := Prod.mk.inj (Option.some.inj hnext)
      · rename_i htake
        refine Or.inr (Or.inr (Or.inl ⟨token, rfl, ?_⟩))
        simp [CeremonyLog.noteNext, htake]
      · rename_i cer htake
        refine Or.inr (Or.inl ⟨token, cer, htake, rfl, ?_⟩)
        simp [CeremonyLog.noteNext, htake]
  | loginStart user body =>
    obtain ⟨rfl, -⟩ := Prod.mk.inj (Option.some.inj hnext)
    split_ifs
    · by_cases htakes : y.store.TakesSession (sessionRow cfg t.now t.drawn user.id)
      · exact Or.inr (Or.inr (Or.inr (Or.inl ⟨user, body, _, rfl, rfl, htakes, if_pos htakes⟩)))
      · refine Or.inr (Or.inr (Or.inr (Or.inr ⟨if_neg htakes, rfl, ?_⟩)))
        rintro _ _ row - hrow
        obtain rfl : _ = row := AccountEffect.createSession.inj (KeyEffect.account.inj hrow)
        exact htakes
    · refine Or.inr (Or.inr (Or.inr (Or.inr ⟨rfl, rfl, fun _ _ _ _ hrow => ?_⟩)))
      exact absurd (KeyEffect.account.inj hrow) (by simp)
  | _ =>
    refine Or.inr (Or.inr (Or.inr (Or.inr ⟨rfl, ?_, fun _ _ _ hpc => KeyPc.noConfusion hpc⟩)))
    grind [KeyPc.next, KeyEffect.ceremonies]

/-- The map and the log stay in agreement. -/
theorem agrees_next (hagrees : g.log.Agrees AsBegun y.ceremonies)
    (h : Standing lib cfg g i pc)
    (hnext : pc.next lib cfg y.store y.ceremonies t = some (eff, pc')) :
    (g.noteNext lib y i t eff pc).log.Agrees AsBegun (eff.ceremonies y.ceremonies) := by
  rcases next_cases (g := g) (i := i) hnext with
    ⟨begun, session, userID, token, rfl, heff, hnote⟩ | ⟨token, cer, htake, heff, hnote⟩ |
      ⟨token, heff, hnote⟩ | ⟨user, body, row, -, heff, -, hnote⟩ | ⟨hnote, heff, -⟩
  · have hbegun : BegunAs session userID begun := h
    rw [hnote, heff]
    exact hagrees.put ⟨rfl, hbegun⟩ _ _
  · rw [hnote, heff]
    exact hagrees.take (Pending.take_eq_some_iff.mp htake).1 _
  · rw [hnote, heff]
    exact hagrees.remove token
  · rw [hnote, heff]
    exact hagrees
  · rw [hnote, heff]
    exact hagrees

/-- What holds in every run holds after a step. -/
theorem followed_step (hlib : lib.Documented) (h : Followed lib cfg w)
    (hstep : keyStep lib cfg w act = some w') : Followed lib cfg w' := by
  obtain ⟨y', hy', rfl⟩ := Option.map_eq_some_iff.mp hstep
  rcases Keys.step_cases hy' with ⟨pc, harrival, rfl⟩ | ⟨s, rfl, rfl⟩ |
    ⟨i, t, pc, eff, pc', rfl, hpc, hnext, -, rfl⟩
  · have hnote : w.2.note lib cfg w.1 act = w.2 := by
      cases act with
      | step i t => simp [KeyAct.arrival] at harrival
      | _ => rfl
    refine ⟨by rw [hnote]; exact h.agrees, fun j pc' hj => ?_⟩
    rw [hnote]
    rw [List.getElem?_append] at hj
    split_ifs at hj with hlt
    · exact h.standing j pc' hj
    · rw [List.getElem?_singleton] at hj
      split_ifs at hj
      obtain rfl := Option.some.inj hj
      -- nothing is known yet of a request that arrives
      cases act <;> simp only [KeyAct.arrival, Option.some.injEq, reduceCtorEq] at harrival <;>
        subst harrival <;> trivial
  · exact ⟨h.agrees, h.standing⟩
  · have hnote : w.2.note lib cfg w.1 (.step i t) = w.2.noteNext lib w.1 i t eff pc :=
      note_step hpc hnext
    refine ⟨by rw [hnote]; exact agrees_next h.agrees (h.standing i pc hpc) hnext, ?_⟩
    intro j pc'' hj
    rw [hnote]
    rw [List.getElem?_set] at hj
    split_ifs at hj with hij hlt
    · obtain rfl := Option.some.inj hj
      subst hij
      exact standing_next hlib h.agrees (h.standing i pc hpc) hnext
    · exact standing_note (h.standing j pc'' hj) (Ne.symm hij)

/-! ### Using ceremonies well -/

theorem WellUsed.put (h : WellUsed g) (token : String) (b : Beginning) :
    WellUsed { g with log := g.log.put token b } where
  once := h.once
  inTime e he := by
    obtain ⟨b', hb', htime⟩ := h.inTime e he
    exact ⟨b', Pending.Log.issued_put hb' token b, htime⟩
  fromLogin e he := by
    obtain ⟨b', proved, hb', hbegun⟩ := h.fromLogin e he
    exact ⟨b', proved, Pending.Log.issued_put hb' token b, hbegun⟩

/-- A ceremony is taken from the map. -/
theorem WellUsed.take (h : WellUsed g) {m : CeremonyStore} {token : String} {cer : Ceremony}
    (hagrees : g.log.Agrees AsBegun m) {now : Int}
    (htake : m.take Ceremony.expires now token = some cer) :
    WellUsed { g with
      log := g.log.take token now
      taken := Function.update g.taken i (g.log.held token) } where
  once := (hagrees.take (Pending.take_eq_some_iff.mp htake).1 now).nodup
  inTime e he := by
    obtain ⟨hlive, hle⟩ := Pending.take_eq_some_iff.mp htake
    rcases List.mem_cons.mp he with rfl | he
    · obtain ⟨b, hb, hexpires, -⟩ := hagrees.of_live token cer hlive
      exact ⟨b, hb, hexpires ▸ hle⟩
    · exact h.inTime e he
  fromLogin := h.fromLogin

/-- A login starts a session. It was checked against what its ceremony demands, so all that
matters is that the ceremony is none of a registration. -/
theorem wellUsed_start_iff (h : WellUsed g) {userID : Int} {body : String}
    (hfrom : g.TakenFrom i (Checked lib userID body)) :
    WellUsed { g with started := ⟨userID, g.taken i, lib.userVerified body⟩ :: g.started } ↔
      ∀ b, g.log.issued[g.taken i]? = some b → ∀ id, b.begun ≠ .register id := by
  constructor
  · intro hafter b hb id hregister
    obtain ⟨b', proved, hb', hlogin, -⟩ := hafter.fromLogin _ List.mem_cons_self
    obtain rfl := Option.some.inj (hb.symm.trans hb')
    rw [hregister] at hlogin
    exact absurd hlogin (by simp)
  · intro hnone
    refine ⟨h.once, h.inTime, fun e he => ?_⟩
    rcases List.mem_cons.mp he with rfl | he
    · -- the ceremony that was taken was begun for this sign-in, or for a registration
      obtain ⟨b, hb, hchecked⟩ := hfrom
      cases hbegun : b.begun with
      | register id => exact absurd hbegun (hnone b hb id)
      | login id proved =>
        rw [hbegun] at hchecked
        obtain ⟨rfl, hproved⟩ := hchecked
        exact ⟨b, proved, hb, hbegun, hproved⟩
      | passkey =>
        rw [hbegun] at hchecked
        exact hchecked.elim
    · exact h.fromLogin e he

/-- After a step ceremonies are well used exactly if it finished no login with the ceremony of
a registration. -/
theorem wellUsed_step (hinv : Followed lib cfg w) (h : WellUsed w.2)
    (hstep : keyStep lib cfg w act = some w') :
    WellUsed w'.2 ↔ NoRegistration lib cfg w act := by
  obtain ⟨y', hy', rfl⟩ := Option.map_eq_some_iff.mp hstep
  have hother : (∀ i t, act ≠ .step i t) →
      (WellUsed (w.2.note lib cfg w.1 act) ↔ NoRegistration lib cfg w act) := fun hact => by
    have hnote : w.2.note lib cfg w.1 act = w.2 := by
      cases act with
      | step i t => exact absurd rfl (hact i t)
      | _ => rfl
    rw [hnote]
    exact iff_of_true h fun i t user body row heq => absurd heq (hact i t)
  rcases Keys.step_cases hy' with ⟨pc, harrival, rfl⟩ | ⟨s, rfl, rfl⟩ |
    ⟨i, t, pc, eff, pc', rfl, hpc, hnext, heff, rfl⟩
  · refine hother fun i t hact => ?_
    rw [hact] at harrival
    exact absurd harrival (by simp [KeyAct.arrival])
  · exact hother fun i t => KeyAct.noConfusion
  · have hnote : w.2.note lib cfg w.1 (.step i t) = w.2.noteNext lib w.1 i t eff pc :=
      note_step hpc hnext
    -- nothing is asked of a step that starts no session
    have hquiet : (∀ user body row, pc = .loginStart user body →
        eff = .account (.createSession row) → ¬ w.1.store.TakesSession row) →
          NoRegistration lib cfg w (.step i t) := by
      rintro hstart i' t' user body row hact hpc' heff' htakes
      obtain ⟨rfl, rfl⟩ := KeyAct.step.inj hact
      exact absurd htakes (hstart user body row (Option.some.inj (hpc.symm.trans hpc'))
        (heff.symm.trans heff'))
    rw [hnote]
    rcases next_cases (g := w.2) (i := i) hnext with
      ⟨begun, session, userID, token, -, hput, hlog⟩ | ⟨token, cer, htake, heff', hlog⟩ |
        ⟨token, heff', hlog⟩ | ⟨user, body, row, rfl, hrow, htakes, hlog⟩ | ⟨hlog, -, hstart⟩
    · rw [hlog]
      exact iff_of_true (h.put token _) (hquiet fun _ _ _ _ hrow =>
        absurd (hput.symm.trans hrow) (by simp))
    · rw [hlog]
      exact iff_of_true (h.take hinv.agrees htake) (hquiet fun _ _ _ _ hrow =>
        absurd (heff'.symm.trans hrow) (by simp))
    · rw [hlog]
      exact iff_of_true h (hquiet fun _ _ _ _ hrow => absurd (heff'.symm.trans hrow) (by simp))
    · rw [hlog, wellUsed_start_iff h (hinv.standing i _ hpc)]
      constructor
      · rintro hnone i' t' user' body' row' hact - - -
        obtain ⟨rfl, rfl⟩ := KeyAct.step.inj hact
        exact hnone
      · exact fun hnone => hnone i t user body row rfl hpc (heff.trans hrow) htakes
    · rw [hlog]
      exact iff_of_true h (hquiet hstart)

/-- Over every interleaving of the six endpoints, whatever else changes the store and whatever
fails: ceremonies are taken once and in time, and a session of a login goes back to a login of
its user with two factors, exactly if no login is finished with the ceremony of a
registration. -/
theorem well_used_iff (lib : WebAuthn) (cfg : AuthConfig) (hlib : lib.Documented) (s : Store)
    (acts : List KeyAct) :
    Always (keyStep lib cfg) (fun w => WellUsed w.2) ({ store := s }, {}) acts ↔
      Meets (keyStep lib cfg) (NoRegistration lib cfg) ({ store := s }, {}) acts := by
  apply always_iff_meets_of_inv (Followed lib cfg)
  · exact ⟨Pending.Log.agrees_nil _, fun i pc hpc => absurd hpc (by simp)⟩
  · exact ⟨List.nodup_nil, fun e he => absurd he (by simp), fun e he => absurd he (by simp)⟩
  · intro w act w' hinv _ hstep _
    exact followed_step hlib hinv hstep
  · intro w act w' hinv hused hstep
    exact wellUsed_step hinv hused hstep
  · rintro w act hrefused i t user body row rfl - heff
    have hnone : w.1.step lib cfg (.step i t) = none := Option.map_eq_none_iff.mp hrefused
    rw [Keys.effect_of_refused hnone] at heff
    exact absurd (KeyEffect.account.inj heff) (by simp)

/-- A library whose assertions are the public key and the challenge, with a mark at the end if
the user was verified; it knows no passkeys. -/
def demoWebAuthn : WebAuthn where
  beginRegistration wu _ uv challenge :=
    some { challenge := challenge, userID := wu.webAuthnID, userVerification := uv }
  finishRegistration _ _ body := some { id := body, publicKey := body }
  beginLogin wu uv challenge :=
    some { challenge := challenge, userID := wu.webAuthnID
           allowedCredentialIDs := wu.creds.map CredentialRow.credentialId
           userVerification := uv.getD .preferred }
  finishLogin wu session body :=
    if session.userID = wu.webAuthnID ∧
        (session.userVerification = .required → body.toList.getLast? = some '!') then
      (wu.creds.find? fun c => (body = c.publicKey ++ session.challenge ∨
        body = c.publicKey ++ session.challenge ++ "!") ∧ (session.allowedCredentialIDs = [] ∨
          c.credentialId ∈ session.allowedCredentialIDs)).map fun c => { id := c.credentialId }
    else none
  beginDiscoverableLogin uv challenge :=
    some { challenge := challenge, userVerification := uv.getD .preferred }
  finishPasskeyLogin _ _ _ := none
  signs c challenge body :=
    body = c.publicKey ++ challenge ∨ body = c.publicKey ++ challenge ++ "!"
  userVerified body := body.toList.getLast? = some '!'

theorem demoWebAuthn_documented : demoWebAuthn.Documented where
  finishLogin wu session body := by
    simp only [demoWebAuthn, WebAuthn.Accepts, decide_eq_true_eq]
    split_ifs with haccepts
    · simp only [Option.isSome_map, List.find?_isSome, decide_eq_true_eq]
      exact ⟨fun hfound => ⟨haccepts.1, hfound, haccepts.2⟩, fun hacc => hacc.2.1⟩
    · exact iff_of_false (by simp) fun hacc => haccepts ⟨hacc.1, hacc.2.2⟩
  beginLogin wu uv challenge session h := by rw [← Option.some.inj h, Option.getD_some]
  beginDiscoverableLogin uv challenge session h := by rw [← Option.some.inj h]

/-- One user with a token and one key. -/
def demoTokenHolder : Store where
  users := Table.empty.insert
    { email := "ann@example.org", passwordHash := "$2a$10$long enough", role := .admin }
  tokens := Table.empty.insert { userId := 1, tokenHash := "api" }
  credentials := Table.empty.insert { userId := 1, credentialId := "cred", publicKey := "key" }

/-- The user signs in with the password and the key. -/
def signInWithKey : List KeyAct :=
  [.loginBegin "ann@example.org" "long enough", .step 0 {}, .step 0 { drawn := "challenge" },
    .step 0 { drawn := "token" }, .loginFinish (some "token") "keychallenge", .step 1 {},
    .step 1 {}, .step 1 {}, .step 1 {}, .step 1 { drawn := "session" }]

/-- There is a session in the end, and the ceremony was used well. -/
theorem well_used_demo :
    ((run (keyStep demoWebAuthn demoConfig) ({ store := demoTokenHolder }, {}) signInWithKey).map
        fun w => (w.2.started.map KeySession.ceremony, w.1.store.sessions.rows.length)) =
      some ([0], 1) ∧
    Always (keyStep demoWebAuthn demoConfig) (fun w => WellUsed w.2)
      ({ store := demoTokenHolder }, {}) signInWithKey := by
  -- nobody registers a key
  have hlogins : Meets (keyStep demoWebAuthn demoConfig)
      (fun w _ => w.2.log.issued.all fun b => decide (b.begun = .login 1 true))
      ({ store := demoTokenHolder }, {}) signInWithKey := by
    decide
  refine ⟨by decide, (well_used_iff demoWebAuthn demoConfig demoWebAuthn_documented demoTokenHolder
    _).mpr fun pre act w hpre hrun i t user body row _ _ _ _ b hb id hregister => ?_⟩
  have hlogin := of_decide_eq_true (List.all_eq_true.mp (hlogins pre act w hpre hrun) b
    (List.mem_of_getElem? hb))
  exact absurd (hregister.symm.trans hlogin) (by simp)

/-- A user with a token and a key asks to register another key, and signs in with the
ceremony. -/
def registerAndSignIn : List KeyAct :=
  [.registerBegin (some "api") none, .step 0 {}, .step 0 { drawn := "challenge" },
    .step 0 { drawn := "token" }, .loginFinish (some "token") "keychallenge", .step 1 {},
    .step 1 {}, .step 1 {}, .step 1 {}, .step 1 { drawn := "session" }]

/-- The session of the login goes back to a registration. -/
theorem registration_signs_in : ¬ ∀ lib cfg, WebAuthn.Documented lib → ∀ s acts,
    Always (keyStep lib cfg) (fun w => WellUsed w.2) ({ store := s }, {}) acts := by
  intro hall
  have hend : ((run (keyStep demoWebAuthn demoConfig) ({ store := demoTokenHolder }, {})
      registerAndSignIn).map fun w => (w.2.started.map KeySession.ceremony,
        w.2.log.issued.map Beginning.begun)) = some ([0], [.register 1]) := by decide
  obtain ⟨w, hrun, hw⟩ := Option.map_eq_some_iff.mp hend
  obtain ⟨hstarted, hissued⟩ := Prod.mk.inj hw
  obtain ⟨e, hmem, hceremony⟩ := List.mem_map.mp (hstarted ▸ List.mem_singleton_self 0)
  have hused : WellUsed w.2 := hall demoWebAuthn demoConfig demoWebAuthn_documented demoTokenHolder
    registerAndSignIn registerAndSignIn w (List.prefix_refl _) hrun
  obtain ⟨b, proved, hb, hlogin, -⟩ := hused.fromLogin e hmem
  have hbegun : (w.2.log.issued.map Beginning.begun)[e.ceremony]? = some b.begun := by
    rw [List.getElem?_map, hb, Option.map_some]
  rw [hissued, hceremony, hlogin] at hbegun
  simp at hbegun

end CertGuard
