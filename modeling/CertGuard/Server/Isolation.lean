import CertGuard.Lib.TransitionRun
import CertGuard.Server.Belongings
import CertGuard.Server.LogLines

/-!
# Users apart from one another

Whatever somebody asks behind a sign-in, what another user has stays as it is, and the answers
are the same whatever channels, keys and wrappers the other has. Left aside are requests that
delete the other account or turn zero-knowledge mode on or off, the cookie of one of the
other's sessions, and the answer that is the whole database. The activity log is everybody's, and
it shows the label of a key that somebody registers.

## Main definitions

* `routeStep` — requests one after another
* `MadeAs` — a request is made as one user, and spares another
* `SameFate` — a key to be registered is taken in both of two stores, or in neither
* `AddedBy` — a line a request adds to the log

## Main results

* `isolated_dispatch`, `logs_authed` — one request
* `users_apart` — any number of requests
* `label_shown` — a label in the log
-/

namespace CertGuard

open Transition

/-- What a handler makes of a store, and of the store without what a user has. -/
structure Spared {β : Type} (b : Int) (s : Store) (r r' : Store × β) : Prop where
  spares : SparesUser b s r.1 r'.1
  answer : r'.2 = r.2

variable {s s₁ s₁' : Store} {b c : Int} {me : User} {path : Option Int} {cid : String}

theorem SparesUser.answered {β : Type} (h : SparesUser b s s₁ s₁') (ans : β) :
    Spared b s (s₁, ans) (s₁', ans) :=
  ⟨h, rfl⟩

/-- Nothing happens. -/
theorem Spared.refl {β : Type} (hs : s.Constrained) (ans : β) :
    Spared b s (s, ans) (s.without b, ans) :=
  (SparesUser.refl hs).answered ans

theorem spared_withPathID {handle handle' : Int → Store × Answer RouteBody} (hs : s.Constrained)
    (hhandle : ∀ id, Spared b s (handle id) (handle' id)) :
    Spared b s (withPathID s path handle) (withPathID (s.without b) path handle') := by
  cases path with
  | none => exact Spared.refl hs _
  | some id => exact hhandle id

/-- A handler that leaves accounts alone. -/
theorem spared_of_apart {β : Type} {handle : Store → Store × β} (actor : String)
    (hs : s.Constrained) (happart : ApartFromAccounts actor handle) :
    Spared b s (handle s) (handle (s.without b)) := by
  obtain ⟨lines, -, hbesides⟩ := happart s
  have hself : (handle s).1.beside (s.addLines lines) = (handle s).1 :=
    (congrArg Prod.fst (hbesides s)).symm
  have hwithout : handle (s.without b) =
      ((handle s).1.beside ((s.without b).addLines lines), (handle s).2) :=
    hbesides (s.without b)
  refine ⟨⟨?_, ?_, ?_⟩, by rw [hwithout]⟩
  · exact hself ▸ rfl
  · exact hself ▸ ⟨hs.credentialIds, hs.userSeq, hs.userIds⟩
  · calc (handle (s.without b)).1 = (handle s).1.beside ((s.without b).addLines lines) :=
          congrArg Prod.fst hwithout
      _ = ((handle s).1.beside (s.addLines lines)).without b := rfl
      _ = (handle s).1.without b := by rw [hself]

/-! ### Users -/

theorem spared_handleCreateUser (cfg : AuthConfig) (salt : Nat) (hs : s.Constrained)
    (hb : (s.users.get? b).isSome) (body : Option CreateUserRequest) :
    Spared b s (handleCreateUser cfg salt s body)
      (handleCreateUser cfg salt (s.without b) body) := by
  have htakes : ∀ row, (s.without b).TakesUser row ↔ s.TakesUser row := fun _ => Iff.rfl
  have hkey : (s.without b).users = s.users := rfl
  cases body with
  | none => exact Spared.refl hs _
  | some req =>
    simp only [handleCreateUser]
    by_cases hemail : req.email = ""
    · rw [if_pos hemail, if_pos hemail]
      exact Spared.refl hs _
    · rw [if_neg hemail, if_neg hemail]
      cases Role.ofText (if req.role = "" then "viewer" else req.role) with
      | none => exact Spared.refl hs _
      | some role =>
        cases hashPasswordErr cfg req.password salt with
        | error msg => exact Spared.refl hs _
        | ok hash =>
          dsimp only
          by_cases htaken : s.TakesUser { email := req.email, passwordHash := hash, role := role }
          · rw [if_pos htaken, if_pos ((htakes _).mpr htaken)]
            exact (spares_createUser hs hb _).answered _
          · rw [if_neg htaken, if_neg (mt (htakes _).mp htaken)]
            exact Spared.refl hs _

theorem spared_handleDeleteUser (hs : s.Constrained) (hpath : path ≠ some b) :
    Spared b s (handleDeleteUser me s path) (handleDeleteUser me (s.without b) path) := by
  cases path with
  | none => exact Spared.refl hs _
  | some id =>
    have hid : id ≠ b := fun h => hpath (congrArg some h)
    have hget : (s.without b).users.get? id = s.users.get? id := rfl
    simp only [handleDeleteUser, withPathID, hget]
    split_ifs
    · exact Spared.refl hs _
    · exact (spares_deleteUser hs hid).answered _
    · exact Spared.refl hs _

theorem spared_handleLogout {deleted : Bool} {cookie : Option String} (hs : s.Constrained)
    (hcookie : ∀ r ∈ s.sessions.rows, r.2.userId = b → cookie ≠ some r.2.sessionHash) :
    Spared b s (handleLogout deleted cookie s) (handleLogout deleted cookie (s.without b)) := by
  cases deleted with
  | false => exact Spared.refl hs _
  | true =>
    cases cookie with
    | none => exact Spared.refl hs _
    | some sessionHash =>
      refine (spares_deleteSession hs fun r hr hrb hhash => ?_).answered _
      exact hcookie r hr hrb (congrArg some hhash.symm)

/-! ### TOTP -/

theorem spared_handle2FASetup (hs : s.Constrained) (hme : me.id ≠ b) (secret : String) :
    Spared b s (handle2FASetup me secret s) (handle2FASetup me secret (s.without b)) := by
  unfold handle2FASetup
  split_ifs
  · exact Spared.refl hs _
  · exact (spares_setUserTOTP hs hme _ _).answered _

theorem spared_handle2FAQR (hs : s.Constrained) (qr : String → Except String String) :
    Spared b s (handle2FAQR me qr s) (handle2FAQR me qr (s.without b)) := by
  have hget : (s.without b).getUserByID me.id = s.getUserByID me.id := rfl
  unfold handle2FAQR
  rw [hget]
  cases (s.getUserByID me.id).filter fun user => user.totpSecret ≠ "" with
  | none => exact Spared.refl hs _
  | some user =>
    dsimp only
    cases qr (provisioningURI user.totpSecret user.email "certguard") with
    | error msg => exact Spared.refl hs _
    | ok image => exact Spared.refl hs _

/-- A user found by an id has it. -/
theorem id_of_filter_getUserByID {p : User → Bool} {user : User}
    (h : (s.getUserByID c).filter p = some user) : user.id = c := by
  obtain ⟨row, -, rfl⟩ := getUserByID_eq_some_iff.mp (Option.filter_eq_some_iff.mp h).1
  rfl

theorem spared_handle2FAEnable (hs : s.Constrained) (hme : me.id ≠ b) (now : Int)
    (body : Option String) :
    Spared b s (handle2FAEnable me now s body) (handle2FAEnable me now (s.without b) body) := by
  have hget : (s.without b).getUserByID me.id = s.getUserByID me.id := rfl
  cases body with
  | none => exact Spared.refl hs _
  | some code =>
    simp only [handle2FAEnable, hget]
    cases huser : (s.getUserByID me.id).filter fun user => user.totpSecret ≠ "" with
    | none => exact Spared.refl hs _
    | some user =>
      dsimp only
      cases validateStep user.totpSecret code now with
      | none => exact Spared.refl hs _
      | some step =>
        have hid : user.id ≠ b := (id_of_filter_getUserByID huser).symm ▸ hme
        exact (spares_setUserTOTP hs hid _ _).answered _

theorem spared_handle2FADisable (hs : s.Constrained) (hme : me.id ≠ b) (now : Int)
    (body : Option String) :
    Spared b s (handle2FADisable me now s body) (handle2FADisable me now (s.without b) body) := by
  have hget : (s.without b).getUserByID me.id = s.getUserByID me.id := rfl
  cases body with
  | none => exact Spared.refl hs _
  | some code =>
    simp only [handle2FADisable, hget]
    cases huser : (s.getUserByID me.id).filter fun user => user.totpEnabled with
    | none => exact Spared.refl hs _
    | some user =>
      dsimp only
      cases validateStep user.totpSecret code now with
      | none => exact Spared.refl hs _
      | some step =>
        have hid : user.id ≠ b := (id_of_filter_getUserByID huser).symm ▸ hme
        exact (spares_setUserTOTP hs hid _ _).answered _

/-! ### Channels -/

theorem listChannels_without (hc : c ≠ b) : (s.without b).listChannels c = s.listChannels c := by
  have hpart := @Table.part_eraseAll_of_ne _ s.channels _ _ _ _ ChannelRow.userId hc
  exact congrArg (List.map fun r => scanChannel r.1 r.2) hpart

theorem spared_handleListChannels (hs : s.Constrained) (hme : me.id ≠ b) :
    Spared b s (handleListChannels me s) (handleListChannels me (s.without b)) := by
  simp only [handleListChannels, listChannels_without hme]
  exact Spared.refl hs _

theorem spared_handleCreateChannel (hs : s.Constrained) (hme : me.id ≠ b)
    (body : Option CreateChannelRequest) :
    Spared b s (handleCreateChannel me s body) (handleCreateChannel me (s.without b) body) := by
  cases body with
  | none => exact Spared.refl hs _
  | some req =>
    simp only [handleCreateChannel]
    cases ChannelType.ofText req.type with
    | none => exact Spared.refl hs _
    | some type =>
      dsimp only
      by_cases htarget : req.target = ""
      · rw [if_pos htarget, if_pos htarget]
        exact Spared.refl hs _
      · rw [if_neg htarget, if_neg htarget]
        exact (spares_insertChannel hs hme).answered _

/-- A channel is found by its id unless it is one of the user's. -/
theorem get?_channels_without {id : Int} : (s.without b).channels.get? id =
    (s.channels.get? id).filter fun r => !decide (r.userId = b) :=
  Table.get?_eraseAll

theorem spared_handleDeleteChannel (hs : s.Constrained) (hme : me.id ≠ b) (hpos : 0 < me.id) :
    Spared b s (handleDeleteChannel me s path) (handleDeleteChannel me (s.without b) path) := by
  refine spared_withPathID hs fun id => ?_
  have hzero : me.id ≠ 0 := ne_of_gt hpos
  simp only [Store.deleteChannel, get?_channels_without, hzero, false_or]
  cases hrow : s.channels.get? id with
  | none => exact Spared.refl hs _
  | some r =>
    by_cases hrb : r.userId = b
    · have hrme : r.userId ≠ me.id := fun h => hme (h.symm.trans hrb)
      simp only [Option.filter_some, hrb, decide_true, Bool.not_true, Bool.false_eq_true, if_false,
        if_neg (Ne.symm hme)]
      exact Spared.refl hs _
    · simp only [Option.filter_some, hrb, decide_false, Bool.not_false, if_true]
      by_cases hrme : r.userId = me.id
      · rw [if_pos hrme, if_pos hrme]
        exact (spares_eraseChannel hs hrow hrb).answered _
      · rw [if_neg hrme, if_neg hrme]
        exact Spared.refl hs _

theorem spared_handleTestChannel (hs : s.Constrained) (hme : me.id ≠ b) (t : RouteTurn) :
    Spared b s (handleTestChannel me t s path) (handleTestChannel me t (s.without b) path) := by
  refine spared_withPathID hs fun id => ?_
  have hget : ((s.without b).getChannel id).filter (fun ch => ch.userId = me.id) =
      (s.getChannel id).filter fun ch => ch.userId = me.id := by
    unfold Store.getChannel
    rw [get?_channels_without]
    cases s.channels.get? id with
    | none => rfl
    | some r =>
      by_cases hrb : r.userId = b
      · have hbme : b ≠ me.id := Ne.symm hme
        simp [Option.filter_some, hrb, scanChannel, hbme]
      · simp [Option.filter_some, hrb]
  rw [hget]
  cases (s.getChannel id).filter fun ch => ch.userId = me.id with
  | none => exact Spared.refl hs _
  | some ch =>
    dsimp only
    cases t.sender with
    | none => exact Spared.refl hs _
    | some send =>
      dsimp only
      cases send ch { buildMessage (sampleCert t.now) 3 t.now with
          subject := GoString.ofString "[certguard] test notification" } with
      | error text => exact Spared.refl hs _
      | ok u => exact Spared.refl hs _

/-! ### Keys -/

theorem webAuthnUserFor_without (hme : me.id ≠ b) :
    webAuthnUserFor (s.without b) me = webAuthnUserFor s me := by
  have hcreds : (s.without b).credentialsForUser me.id = s.credentialsForUser me.id := by
    have hpart := @Table.part_eraseAll_of_ne _ s.credentials _ _ _ _ CredentialRow.userId hme
    have hmap : ∀ t : Table CredentialRow,
        (t.rows.map Prod.snd).filter (fun r => decide (r.userId = me.id)) =
          (t.part fun r => r.userId = me.id).map Prod.snd := fun t => List.filter_map
    exact (hmap _).trans ((congrArg _ hpart).trans (hmap _).symm)
  rw [webAuthnUserFor, hcreds, webAuthnUserFor]

theorem spared_handleListCredentials (hs : s.Constrained) (hme : me.id ≠ b) :
    Spared b s (handleListCredentials me s) (handleListCredentials me (s.without b)) := by
  refine ⟨SparesUser.refl hs, ?_⟩
  have hpart := @Table.part_eraseAll_of_ne _ s.credentials _ _ _ _ CredentialRow.userId hme
  have hrows : (s.without b).credentials.rows.filter (fun r => r.2.userId = me.id) =
      s.credentials.rows.filter fun r => r.2.userId = me.id := hpart
  simp only [handleListCredentials, hrows]
  refine congrArg (fun creds => writeJSON 200 (RouteBody.credentials creds)) ?_
  refine List.map_congr_left fun r hr => ?_
  obtain ⟨hmem, hrme⟩ := List.mem_filter.mp hr
  have hown : r.2.credentialId ∈ s.keyIds me.id :=
    mem_keyIds_iff.mpr ⟨r.1, r.2, hmem, of_decide_eq_true hrme, rfl⟩
  rw [vaultWrapper_without (not_mem_keyIds hs hme hown)]

theorem spares_recordAccountEvent (hs : s.Constrained) (now : Int) (kind : EventKind)
    (actor subject : String) (detail : EventDetail) :
    SparesUser b s (recordAccountEvent now s kind actor subject detail)
      (recordAccountEvent now (s.without b) kind actor subject detail) :=
  spares_of_same hs rfl rfl rfl rfl rfl rfl

theorem spared_handleDeleteCredential (hs : s.Constrained) (hme : me.id ≠ b) (now : Int) :
    Spared b s (handleDeleteCredential me now s path)
      (handleDeleteCredential me now (s.without b) path) := by
  refine spared_withPathID hs fun id => SparesUser.answered ?_ _
  have hdelete := @spares_deleteCredential s b me.id id hs hme
  refine hdelete.trans fun hs₁ hwithout => ?_
  rw [hwithout]
  exact spares_recordAccountEvent hs₁ _ _ _ _ _

theorem spared_handleVaultWrapperGet (hs : s.Constrained) (hme : me.id ≠ b) :
    Spared b s (handleVaultWrapperGet me s cid) (handleVaultWrapperGet me (s.without b) cid) := by
  unfold handleVaultWrapperGet
  rw [ownedCredential_without hs hme]
  cases hown : ownedCredential me s cid with
  | none => exact Spared.refl hs _
  | some r =>
    dsimp only
    rw [vaultWrapper_without (not_mem_keyIds hs hme (mem_keyIds_of_ownedCredential hs hown))]
    cases s.vaultWrapper r.credentialId with
    | none => exact Spared.refl hs _
    | some w => exact Spared.refl hs _

theorem spared_handleVaultWrapperSet (hs : s.Constrained) (hme : me.id ≠ b)
    (body : Option (Wrapped × String)) :
    Spared b s (handleVaultWrapperSet me s cid body)
      (handleVaultWrapperSet me (s.without b) cid body) := by
  unfold handleVaultWrapperSet
  rw [ownedCredential_without hs hme]
  cases hown : ownedCredential me s cid with
  | none => exact Spared.refl hs _
  | some r =>
    cases body with
    | none => exact Spared.refl hs _
    | some w =>
      have hmem := mem_keyIds_of_ownedCredential hs hown
      dsimp only
      split_ifs
      · exact Spared.refl hs _
      · refine SparesUser.answered ?_ _
        have hdelete := spares_deleteVaultWrapper hs (not_mem_keyIds hs hme hmem)
        refine hdelete.trans fun hs₁ hwithout => ?_
        rw [hwithout]
        exact spares_insertVaultWrapper hs₁ hme hmem

theorem spared_handleVaultWrapperDelete (hs : s.Constrained) (hme : me.id ≠ b) :
    Spared b s (handleVaultWrapperDelete me s cid)
      (handleVaultWrapperDelete me (s.without b) cid) := by
  unfold handleVaultWrapperDelete
  rw [ownedCredential_without hs hme]
  cases hown : ownedCredential me s cid with
  | none => exact Spared.refl hs _
  | some r =>
    have hmem := mem_keyIds_of_ownedCredential hs hown
    exact (spares_deleteVaultWrapper hs (not_mem_keyIds hs hme hmem)).answered _

/-! ### Registering a key -/

/-- The row of the key a request is to register. -/
def KeyState.registering (y : KeyState) (t : RouteTurn) (me : User) (body : String) :
    Option CredentialRow :=
  let cer := t.ceremony.bind fun token => y.ceremonies.take Ceremony.expires t.now token
  match cer.filter fun cer => cer.userID = me.id, t.webAuthn with
  | some cer, .ok lib =>
    match lib.finishRegistration (webAuthnUserFor y.store me) cer.session body with
    | .ok cred => some (credentialRow me t.label cred)
    | .error _ => none
  | _, _ => none

/-- What a handler makes of a store with ceremonies, and of the store without what a user has. -/
structure KeySpared (b : Int) (y : KeyState) (r r' : KeyState × Answer RouteBody) : Prop where
  spares : SparesUser b y.store r.1.store r'.1.store
  ceremonies : r'.1.ceremonies = r.1.ceremonies
  answer : r'.2 = r.2

variable {t : RouteTurn} {ceremonies : CeremonyStore}

theorem KeySpared.refl (hs : s.Constrained) (after : CeremonyStore) (ans : Answer RouteBody) :
    KeySpared b ⟨s, ceremonies⟩ (⟨s, after⟩, ans) (⟨s.without b, after⟩, ans) :=
  ⟨SparesUser.refl hs, rfl, rfl⟩

theorem keySpared_registerBegin (hs : s.Constrained) (hme : me.id ≠ b) :
    KeySpared b ⟨s, ceremonies⟩ (handleWebAuthnRegisterBegin me t ⟨s, ceremonies⟩)
      (handleWebAuthnRegisterBegin me t ⟨s.without b, ceremonies⟩) := by
  simp only [handleWebAuthnRegisterBegin, webAuthnUserFor_without hme]
  cases t.webAuthn with
  | error msg => exact KeySpared.refl hs _ _
  | ok lib =>
    dsimp only
    cases lib.beginRegistration (webAuthnUserFor s me)
        ((webAuthnUserFor s me).creds.map CredentialRow.credentialId) t.challenge with
    | error err => exact KeySpared.refl hs _ _
    | ok begun => exact KeySpared.refl hs _ _

/-- A key to be registered that the other does not have. -/
theorem keySpared_registerFinish (hs : s.Constrained) (hme : me.id ≠ b) (body : String)
    (hfresh : ∀ row, (KeyState.mk s ceremonies).registering t me body = some row →
      row.credentialId ∉ s.keyIds b) :
    KeySpared b ⟨s, ceremonies⟩ (handleWebAuthnRegisterFinish me t ⟨s, ceremonies⟩ body)
      (handleWebAuthnRegisterFinish me t ⟨s.without b, ceremonies⟩ body) := by
  simp only [handleWebAuthnRegisterFinish, webAuthnUserFor_without hme]
  unfold KeyState.registering at hfresh
  cases hcer : (t.ceremony.bind fun token =>
      ceremonies.take Ceremony.expires t.now token).filter fun cer => cer.userID = me.id with
  | none => exact KeySpared.refl hs _ _
  | some cer =>
    cases hlib : t.webAuthn with
    | error msg => exact KeySpared.refl hs _ _
    | ok lib =>
      dsimp only
      cases hfinish : lib.finishRegistration (webAuthnUserFor s me) cer.session body with
      | error err => exact KeySpared.refl hs _ _
      | ok cred =>
        -- the new credential is none of the other user, who does not matter to whether it is taken
        have hnot : (credentialRow me t.label cred).credentialId ∉ s.keyIds b := by
          simp only [hcer, hlib, hfinish] at hfresh
          exact hfresh _ rfl
        have htakes := takesCredential_without hnot
        dsimp only
        by_cases htaken : s.TakesCredential (credentialRow me t.label cred)
        · rw [if_pos htaken, if_pos (htakes.mpr htaken)]
          have hadd := @spares_addCredential s b (credentialRow me t.label cred) hs hme hnot
          refine ⟨hadd.trans fun hs₁ hwithout => ?_, rfl, rfl⟩
          rw [hwithout]
          exact spares_recordAccountEvent hs₁ _ _ _ _ _
        · rw [if_neg htaken, if_neg (mt htakes.mp htaken)]
          exact KeySpared.refl hs _ _

/-- A key to be registered that somebody has is refused. -/
theorem registerFinish_of_taken (body : String) {row : CredentialRow}
    (hrow : (KeyState.mk s ceremonies).registering t me body = some row)
    (htaken : row.credentialId ∈ s.keyIds b) :
    handleWebAuthnRegisterFinish me t ⟨s, ceremonies⟩ body =
      (⟨s, t.ceremony.elim ceremonies ceremonies.remove⟩,
        writeErr 500 "could not save credential") := by
  simp only [handleWebAuthnRegisterFinish]
  unfold KeyState.registering at hrow
  cases hcer : (t.ceremony.bind fun token =>
      ceremonies.take Ceremony.expires t.now token).filter fun cer => cer.userID = me.id with
  | none => simp [hcer] at hrow
  | some cer =>
    cases hlib : t.webAuthn with
    | error msg => simp [hcer, hlib] at hrow
    | ok lib =>
      dsimp only
      cases hfinish : lib.finishRegistration (webAuthnUserFor s me) cer.session body with
      | error err => simp [hcer, hlib, hfinish] at hrow
      | ok cred =>
        simp only [hcer, hlib, hfinish, Option.some.injEq] at hrow
        obtain ⟨k, r, hr, -, hid⟩ := mem_keyIds_iff.mp htaken
        -- the id is taken, so that the `INSERT` fails
        have hnot : ¬ s.TakesCredential (credentialRow me t.label cred) := fun h =>
          h.2 (k, r) hr (hid.trans (congrArg CredentialRow.credentialId hrow).symm)
        dsimp only
        rw [if_neg hnot]

/-! ### Requests -/

namespace Server

/-- The server without the channels, the keys and the wrappers of a user. -/
def without (y : Server) (b : Int) : Server :=
  { y with host := { y.host with store := y.store.without b } }

/-- What the handlers of keys work on. -/
def keys (y : Server) : KeyState := ⟨y.store, y.ceremonies⟩

end Server

/-- What a request makes of a server, and of the server without what a user has. -/
structure Isolated (b : Int) (y : Server) (r r' : Server × Answer RouteBody) : Prop where
  belongings : r.1.store.belongings b = y.store.belongings b
  constrained : r.1.store.Constrained
  without : r'.1 = r.1.without b
  answer : r'.2 = r.2

variable {y y' : Server}

theorem Isolated.refl (hs : y.store.Constrained) (ans : Answer RouteBody) :
    Isolated b y (y, ans) (y.without b, ans) :=
  ⟨rfl, hs, rfl, rfl⟩

theorem isolated_onStore (handle : Store → Store × Answer RouteBody)
    (h : Spared b y.store (handle y.store) (handle (y.store.without b))) :
    Isolated b y (y.onStore handle) ((y.without b).onStore handle) := by
  refine ⟨h.spares.belongings, h.spares.constrained, ?_, h.answer⟩
  exact congrArg (fun s => { y with host := { y.host with store := s } }) h.spares.without

theorem isolated_onEntries {handle : Store → Store × Answer EntryBody} (actor : String)
    (hs : y.store.Constrained) (happart : ApartFromAccounts actor handle) :
    Isolated b y (y.onEntries handle) ((y.without b).onEntries handle) := by
  have h := @spared_of_apart y.store b _ _ actor hs happart
  exact isolated_onStore _ ⟨h.spares, congrArg Server.entryAnswer h.answer⟩

theorem isolated_onHost {handle : Host → Host × Answer RouteBody} (hs : y.store.Constrained)
    (happart : HostApart handle y.host) :
    Isolated b y (y.onHost handle) ((y.without b).onHost handle) := by
  have hself : (handle y.host).1.beside y.store = (handle y.host).1 :=
    (congrArg Prod.fst (happart y.store)).symm
  have hwithout : handle (y.without b).host =
      ((handle y.host).1.beside (y.store.without b), (handle y.host).2) :=
    happart (y.store.without b)
  refine ⟨?_, ?_, ?_, by rw [Server.onHost, hwithout, Server.onHost]⟩
  · exact (congrArg (fun h : Host => h.store.belongings b) hself).symm
  · have hbeside : ((handle y.host).1.beside y.store).store.Constrained :=
      ⟨hs.credentialIds, hs.userSeq, hs.userIds⟩
    exact (congrArg (fun h : Host => h.store.Constrained) hself).mp hbeside
  · have hbeside : (handle y.host).1.beside (y.store.without b) =
        { (handle y.host).1 with store := (handle y.host).1.store.without b } :=
      congrArg (fun h : Host => { h with store := h.store.without b }) hself
    simp only [Server.onHost, hwithout, hbeside]
    rfl

theorem isolated_onKeys (handle : KeyState → KeyState × Answer RouteBody)
    (h : KeySpared b y.keys (handle y.keys) (handle (y.without b).keys)) :
    Isolated b y (y.onKeys handle) ((y.without b).onKeys handle) := by
  refine ⟨h.spares.belongings, h.spares.constrained, ?_, h.answer⟩
  exact congrArg₂ (fun s c => Server.mk { y.host with store := s } c) h.spares.without h.ceremonies

/-- A request with what it comes with. -/
structure RouteAct where
  turn : RouteTurn
  req : RouteRequest

/-- Takes a request, and shows what was asked and answered. -/
def routeStep (cfg : Config) (y : Server) (act : RouteAct) :
    Server × List (RouteRequest × Answer RouteBody) :=
  ((y.authed cfg act.turn act.req).1, [(act.req, (y.authed cfg act.turn act.req).2)])

/-- What was asked and answered, but for the whole database. -/
def shown (out : List (RouteRequest × Answer RouteBody)) : List (RouteRequest × Answer RouteBody) :=
  out.filter fun r => !r.1.asksDatabase

/-- What was asked and answered, but for the whole database and the activity log. -/
def shownUnlogged (out : List (RouteRequest × Answer RouteBody)) :
    List (RouteRequest × Answer RouteBody) :=
  out.filter fun r => !(r.1.asksDatabase || r.1.asksLog)

/-- Who makes a request. -/
def Server.caller (y : Server) (act : RouteAct) : Option User :=
  resolveUser y.store act.turn.now act.turn.bearer act.turn.cookie

/-- A request is made as the user `a`, without a session of the user `b`. It neither deletes
`b`, nor turns zero-knowledge mode on or off. -/
structure MadeAs (a b : Int) (y : Server) (act : RouteAct) : Prop where
  caller : ∃ me, y.caller act = some me ∧ me.id = a
  cookie : ∀ r ∈ y.store.sessions.rows, r.2.userId = b → act.turn.cookie ≠ some r.2.sessionHash
  deleteUser : act.req ≠ .deleteUser (some b)
  turnOn : ∀ body, act.req = .zkKeyringSet body → y.host.vault.zk = true
  turnOff : act.req ≠ .zkKeyringDelete

/-- The user `b` has the key that a request is to register on both servers, or on neither. -/
def SameFate (b : Int) (y' y : Server) (act : RouteAct) : Prop :=
  ∀ me body row, y.caller act = some me → act.req = .webAuthnRegisterFinish body →
    y.keys.registering act.turn me body = some row →
      (row.credentialId ∈ y.store.keyIds b ↔ row.credentialId ∈ y'.store.keyIds b)

variable {a : Int} {act : RouteAct} {cfg : Config}

/-- Requests but for the whole database and for a key that is taken. -/
theorem isolated_dispatch (req : RouteRequest) (hs : y.store.Constrained)
    (hb : (y.store.users.get? b).isSome) (hme : me.id ≠ b) (hpos : 0 < me.id)
    (hmade : MadeAs a b y ⟨t, req⟩) (hdb : req ≠ .backupDB)
    (hfresh : ∀ body row, req = .webAuthnRegisterFinish body →
      y.keys.registering t me body = some row → row.credentialId ∉ y.store.keyIds b) :
    Isolated b y (y.dispatch cfg t me req) ((y.without b).dispatch cfg t me req) := by
  cases req with
  | logout => exact isolated_onStore _ (spared_handleLogout hs hmade.cookie)
  | whoami => exact isolated_onHost hs (apart_handleWhoami cfg me)
  | version => exact Isolated.refl hs _
  | listCerts => exact isolated_onStore _ (spared_of_apart me.email hs apart_handleListCerts)
  | calendar => exact isolated_onStore _ (spared_of_apart me.email hs apart_handleCalendar)
  | calendarOne id => exact isolated_onEntries me.email hs apart_handleCalendarOne
  | listChannels => exact isolated_onStore _ (spared_handleListChannels hs hme)
  | createChannel body =>
    exact isolated_onStore (handleCreateChannel me · body)
      (spared_handleCreateChannel hs hme body)
  | deleteChannel id =>
    exact isolated_onStore (handleDeleteChannel me · id)
      (spared_handleDeleteChannel hs hme hpos)
  | testChannel id =>
    exact isolated_onStore (handleTestChannel me t · id)
      (spared_handleTestChannel hs hme t)
  | listUsers => exact isolated_onStore _ (Spared.refl hs _)
  | createUser body =>
    exact isolated_onStore (handleCreateUser cfg.auth t.salt · body)
      (spared_handleCreateUser _ _ hs hb body)
  | deleteUser id =>
    -- the request does not name the other user
    have hid : id ≠ some b := fun hid => hmade.deleteUser (congrArg RouteRequest.deleteUser hid)
    exact isolated_onStore (handleDeleteUser me · id) (spared_handleDeleteUser hs hid)
  | scanStatus => exact Isolated.refl hs _
  | scanAll => exact isolated_onEntries me.email hs (apart_handleScanAll t.sweep)
  | backupKey => exact isolated_onHost hs (apart_handleBackupKey cfg)
  -- a copy of the whole database shows everything
  | backupDB => exact absurd rfl hdb
  | vaultStatus => exact Isolated.refl hs _
  | vaultUnlock body => exact isolated_onHost hs (apart_handleVaultUnlock body)
  | vaultLock => exact isolated_onHost hs apart_handleVaultLock
  | vaultPassphrase body => exact isolated_onHost hs (apart_handleVaultPassphrase t.vault body)
  | zkKeyringGet => exact isolated_onHost hs apart_handleZKKeyringGet
  | zkKeyringSet body =>
    exact isolated_onHost hs (apart_handleZKKeyringSet t.vault body (hmade.turnOn body rfl))
  | zkKeyringDelete => exact absurd rfl hmade.turnOff
  | webAuthnRegisterBegin => exact isolated_onKeys _ (keySpared_registerBegin hs hme)
  | webAuthnRegisterFinish body =>
    exact isolated_onKeys (handleWebAuthnRegisterFinish me t · body)
      (keySpared_registerFinish hs hme body fun row => hfresh body row rfl)
  | listCredentials => exact isolated_onStore _ (spared_handleListCredentials hs hme)
  | deleteCredential id =>
    exact isolated_onStore (handleDeleteCredential me t.now · id)
      (spared_handleDeleteCredential hs hme t.now)
  | vaultWrapperGet cid =>
    exact isolated_onStore (handleVaultWrapperGet me · cid)
      (spared_handleVaultWrapperGet hs hme)
  | vaultWrapperSet cid body =>
    exact isolated_onStore (handleVaultWrapperSet me · cid body)
      (spared_handleVaultWrapperSet hs hme body)
  | vaultWrapperDelete cid =>
    exact isolated_onStore (handleVaultWrapperDelete me · cid)
      (spared_handleVaultWrapperDelete hs hme)
  | setup2FA => exact isolated_onStore _ (spared_handle2FASetup hs hme t.secret)
  | qr2FA => exact isolated_onStore _ (spared_handle2FAQR hs t.qr)
  | enable2FA body =>
    exact isolated_onStore (handle2FAEnable me t.now · body)
      (spared_handle2FAEnable hs hme t.now body)
  | disable2FA body =>
    exact isolated_onStore (handle2FADisable me t.now · body)
      (spared_handle2FADisable hs hme t.now body)
  | scan body => exact isolated_onEntries me.email hs (apart_handleScan t.scan body)
  | createCert body => exact isolated_onEntries me.email hs (apart_handleCreateCert y.host body)
  | rescanCert id => exact isolated_onEntries me.email hs (apart_handleRescanCert t.sweep)
  | coverage id => exact isolated_onEntries me.email hs (apart_handleCoverage t.sweep)
  | trackDomain body => exact isolated_onEntries me.email hs (apart_handleTrackDomain t.lookup body)
  | domainCandidates body =>
    exact isolated_onStore _ (spared_of_apart me.email hs (apart_handleDomainCandidates t body))
  | updateCert id body => exact isolated_onEntries me.email hs (apart_handleUpdateCert body)
  | deleteCert id => exact isolated_onEntries me.email hs apart_handleDeleteCert
  | revealSecret id => exact isolated_onEntries me.email hs (apart_handleRevealSecret y.host)
  | setSecret id body => exact isolated_onEntries me.email hs (apart_handleSetSecret y.host body)
  -- the log is the same
  | listEvents kind limit =>
    exact isolated_onStore (handleListEvents · kind limit) (Spared.refl hs _)

/-- The ids of users are positive. -/
theorem caller_pos (hs : y.store.Constrained) (hme : y.caller act = some me) : 0 < me.id := by
  -- ids of users are positive
  have hfound : ∀ id, y.store.getUserByID id = some me → 0 < me.id := by
    intro id hid
    obtain ⟨row, hrow, rfl⟩ := getUserByID_eq_some_iff.mp hid
    exact hs.userIds id row hrow
  unfold Server.caller at hme
  cases hbearer : act.turn.bearer with
  | some tokenHash =>
    rw [hbearer] at hme
    obtain ⟨r, -, hid⟩ := Option.bind_eq_some_iff.mp hme
    exact hfound _ hid
  | none =>
    rw [hbearer] at hme
    cases hcookie : act.turn.cookie with
    | none => simp [hcookie, resolveUser] at hme
    | some sessionHash =>
      simp only [hcookie, resolveUser, Store.userBySessionHash] at hme
      cases hsession : y.store.findSession sessionHash with
      | none => simp [hsession] at hme
      | some row =>
        simp only [hsession] at hme
        split_ifs at hme
        exact hfound _ hme

/-- What the handler does, unless the route is for admins only. -/
theorem authed_of_caller (hme : y.caller act = some me) : y.authed cfg act.turn act.req =
    if act.req.adminOnly = true ∧ me.isAdmin = false then (y, writeErr 403 "admin role required")
    else y.dispatch cfg act.turn me act.req := by
  have hresolve : resolveUser y.store act.turn.now act.turn.bearer act.turn.cookie = some me := hme
  rw [Server.authed, hresolve]

/-- The request is to register a key the other has. -/
def TakenBy (b : Int) (y : Server) (act : RouteAct) : Prop :=
  ∃ me body row, y.caller act = some me ∧ act.req = .webAuthnRegisterFinish body ∧
    y.keys.registering act.turn me body = some row ∧ row.credentialId ∈ y.store.keyIds b

theorem isolated_authed (hs : y.store.Constrained) (hb : (y.store.users.get? b).isSome)
    (hab : a ≠ b) (hmade : MadeAs a b y act) (hdb : act.req ≠ .backupDB)
    (hfresh : ¬ TakenBy b y act) :
    Isolated b y (y.authed cfg act.turn act.req) ((y.without b).authed cfg act.turn act.req) := by
  obtain ⟨me, hme, rfl⟩ := hmade.caller
  have hme' : (y.without b).caller act = some me := hme
  rw [authed_of_caller hme, authed_of_caller hme']
  split_ifs
  · exact Isolated.refl hs _
  · refine isolated_dispatch act.req hs hb hab (caller_pos hs hme) hmade hdb ?_
    exact fun body row hreq hrow htaken => hfresh ⟨me, body, row, hme, hreq, hrow, htaken⟩

/-- The whole database is only looked at. -/
theorem authed_backupDB (hmade : MadeAs a b y act) (hdb : act.req = .backupDB) :
    (y.authed cfg act.turn act.req).1 = y := by
  obtain ⟨me, hme, -⟩ := hmade.caller
  rw [authed_of_caller hme, hdb]
  split_ifs
  · rfl
  · exact dispatch_asking cfg .backupDB (Or.inl rfl)

/-- A key the other has is refused. -/
theorem authed_of_takenBy (htaken : TakenBy b y act) : y.authed cfg act.turn act.req =
    ({ y with ceremonies := act.turn.ceremony.elim y.ceremonies y.ceremonies.remove },
      writeErr 500 "could not save credential") := by
  obtain ⟨me, body, row, hme, hreq, hrow, hmem⟩ := htaken
  rw [authed_of_caller hme, hreq, if_neg (by simp [RouteRequest.adminOnly])]
  have hfinish := registerFinish_of_taken body hrow hmem
  simp only [Server.dispatch, Server.onKeys, hfinish]

/-- A request leaves alone what another user has. -/
theorem stays_authed (hs : y.store.Constrained) (hb : (y.store.users.get? b).isSome)
    (hab : a ≠ b) (hmade : MadeAs a b y act) :
    (y.authed cfg act.turn act.req).1.store.belongings b = y.store.belongings b ∧
      (y.authed cfg act.turn act.req).1.store.Constrained := by
  by_cases htaken : TakenBy b y act
  · rw [authed_of_takenBy htaken]
    exact ⟨rfl, hs⟩
  · by_cases hdb : act.req = .backupDB
    · rw [authed_backupDB hmade hdb]
      exact ⟨rfl, hs⟩
    · have h := @isolated_authed b y a act cfg hs hb hab hmade hdb htaken
      exact ⟨h.belongings, h.constrained⟩

/-! ### Two servers that differ in what a user has -/

/-- The ids of a user's keys are among what the user has. -/
theorem keyIds_of_belongings (h : s₁.belongings b = s.belongings b) : s₁.keyIds b = s.keyIds b :=
  keyIds_of_part (congrArg Belongings.credentials h)

/-- Two servers that differ in nothing but the channels, the keys and the wrappers of a user,
who has what the user had at first. -/
structure Twins (b : Int) (y₀ y₀' y y' : Server) : Prop where
  constrained : y.store.Constrained
  constrained' : y'.store.Constrained
  same : y'.without b = y.without b
  belongings : y.store.belongings b = y₀.store.belongings b
  belongings' : y'.store.belongings b = y₀'.store.belongings b

variable {y₀ y₀' : Server}

theorem MadeAs.of_without (h : y'.without b = y.without b) (hmade : MadeAs a b y act) :
    MadeAs a b y' act := by
  have hwithout : MadeAs a b (y.without b) act :=
    ⟨hmade.caller, hmade.cookie, hmade.deleteUser, hmade.turnOn, hmade.turnOff⟩
  rw [← h] at hwithout
  exact ⟨hwithout.caller, hwithout.cookie, hwithout.deleteUser, hwithout.turnOn, hwithout.turnOff⟩

theorem caller_of_without (h : y'.without b = y.without b) : y'.caller act = y.caller act := by
  have hcaller := congrArg (fun y : Server => y.caller act) h
  exact hcaller

/-- The key to be registered does not depend on what another user has. -/
theorem registering_of_without {body : String} (hme : me.id ≠ b)
    (h : y'.without b = y.without b) :
    y'.keys.registering t me body = y.keys.registering t me body := by
  have hwithout : ∀ y : Server, (y.without b).keys.registering t me body =
      y.keys.registering t me body := by
    intro y
    have huser : webAuthnUserFor (y.without b).keys.store me = webAuthnUserFor y.keys.store me :=
      webAuthnUserFor_without hme
    unfold KeyState.registering
    rw [huser]
    rfl
  rw [← hwithout y', h, hwithout y]

/-- The user has the key to be registered on both servers or on neither. -/
theorem Twins.takenBy_iff (h : Twins b y₀ y₀' y y') (hab : a ≠ b) (hmade : MadeAs a b y act)
    (hfate : SameFate b y₀' y act) : TakenBy b y' act ↔ TakenBy b y act := by
  have hcaller : y'.caller act = y.caller act := caller_of_without h.same
  have hkeys : y'.store.keyIds b = y₀'.store.keyIds b := keyIds_of_belongings h.belongings'
  obtain ⟨me, hme, rfl⟩ := hmade.caller
  constructor
  · rintro ⟨me', body, row, hme', hreq, hrow, hmem⟩
    obtain rfl := Option.some.inj (hme.symm.trans (hcaller.symm.trans hme'))
    have hrow' := (registering_of_without hab h.same).symm.trans hrow
    exact ⟨me, body, row, hme, hreq, hrow',
      (hfate me body row hme hreq hrow').mpr (hkeys ▸ hmem)⟩
  · rintro ⟨me', body, row, hme', hreq, hrow, hmem⟩
    obtain rfl := Option.some.inj (hme.symm.trans hme')
    refine ⟨me, body, row, hcaller.trans hme, hreq,
      (registering_of_without hab h.same).trans hrow, ?_⟩
    rw [hkeys]
    exact (hfate me body row hme hreq hrow).mp hmem

/-- A request is answered alike, and leaves the servers with the same differences. -/
theorem Twins.step (h : Twins b y₀ y₀' y y') (hab : a ≠ b) (hb : (y.store.users.get? b).isSome)
    (hmade : MadeAs a b y act) (hfate : SameFate b y₀' y act) :
    Twins b y₀ y₀' (routeStep cfg y act).1 (routeStep cfg y' act).1 ∧
      shown (routeStep cfg y act).2 = shown (routeStep cfg y' act).2 := by
  have hmade' : MadeAs a b y' act := hmade.of_without h.same
  have hb' : (y'.store.users.get? b).isSome := by
    have husers := congrArg (fun y : Server => (y.store.users.get? b).isSome) h.same
    exact husers.trans hb
  have hstays := @stays_authed b y a act cfg h.constrained hb hab hmade
  have hstays' := @stays_authed b y' a act cfg h.constrained' hb' hab hmade'
  have hiff := h.takenBy_iff hab hmade hfate
  -- the other user keeps what it has; it is left to show that the rest is the same
  suffices hsame : (y'.authed cfg act.turn act.req).1.without b =
      (y.authed cfg act.turn act.req).1.without b ∧
      (act.req ≠ .backupDB → (y'.authed cfg act.turn act.req).2 =
        (y.authed cfg act.turn act.req).2) by
    refine ⟨⟨hstays.2, hstays'.2, hsame.1, hstays.1.trans h.belongings,
      hstays'.1.trans h.belongings'⟩, ?_⟩
    by_cases hdb : act.req = .backupDB
    · simp only [routeStep, hdb]
      rfl
    · simp [routeStep, shown, hsame.2 hdb]
  by_cases htaken : TakenBy b y act
  · rw [authed_of_takenBy htaken, authed_of_takenBy (hiff.mpr htaken)]
    refine ⟨?_, fun _ => rfl⟩
    have hremoved := congrArg (fun z : Server =>
      { z with ceremonies := act.turn.ceremony.elim z.ceremonies z.ceremonies.remove }) h.same
    exact hremoved
  · -- both requests do what they would do if the other user did not exist
    by_cases hdb : act.req = .backupDB
    · rw [authed_backupDB hmade hdb, authed_backupDB hmade' hdb]
      exact ⟨h.same, fun hne => absurd hdb hne⟩
    · have hiso := @isolated_authed b y a act cfg h.constrained hb hab hmade hdb htaken
      have hiso' := @isolated_authed b y' a act cfg h.constrained' hb' hab hmade' hdb
        (mt hiff.mp htaken)
      rw [h.same] at hiso'
      exact ⟨hiso'.without.symm.trans hiso.without, fun _ => hiso'.answer.symm.trans hiso.answer⟩

/-! ### The log -/

/-- A line that a request adds to the log. -/
def AddedBy (y : Server) (act : RouteAct) (y' : Server) (l : EventRow) : Prop :=
  ∃ me, y.caller act = some me ∧ RequestLine me act.turn y.store y'.store l

/-- A request of nobody removes at most an expired session. -/
theorem authed_withLog_of_nobody (cfg : Config) (hme : y.caller act = none)
    (log : Table EventRow) : (y.withLog log).authed cfg act.turn act.req =
      ((y.authed cfg act.turn act.req).1.withLog log, (y.authed cfg act.turn act.req).2) := by
  have hself : resolveUser y.store act.turn.now act.turn.bearer act.turn.cookie = none := hme
  have hresolve : resolveUser (y.withLog log).store act.turn.now act.turn.bearer
      act.turn.cookie = none := hme
  have hsweep : sweepSession (y.withLog log).store act.turn.now act.turn.bearer
      act.turn.cookie = sweepSession y.store act.turn.now act.turn.bearer act.turn.cookie := rfl
  simp only [Server.authed, hresolve, hself, hsweep]
  unfold sweepSession
  repeat' split
  all_goals rfl

/-- Whatever the log holds, a request adds the same lines, and unless it asks for the log or for
the whole database, it does the same and is answered alike. -/
theorem logs_authed (cfg : Config) (y : Server) (act : RouteAct) :
    ∃ lines, (∀ l ∈ lines, AddedBy y act (y.authed cfg act.turn act.req).1 l) ∧
      ∀ log, ((y.withLog log).authed cfg act.turn act.req).1 =
          (y.authed cfg act.turn act.req).1.withLog (log.insertAll lines) ∧
        ((act.req.asksDatabase || act.req.asksLog) = false →
          ((y.withLog log).authed cfg act.turn act.req).2 =
            (y.authed cfg act.turn act.req).2) := by
  cases hme : y.caller act with
  | none =>
    refine ⟨[], fun _ hl => absurd hl List.not_mem_nil, fun log => ?_⟩
    rw [authed_withLog_of_nobody cfg hme]
    exact ⟨rfl, fun _ => rfl⟩
  | some me =>
    have hme' : ∀ log, (y.withLog log).caller act = some me := fun _ => hme
    have hdispatch : ∀ z : Server, z.caller act = some me →
        ¬ (act.req.adminOnly = true ∧ me.isAdmin = false) →
        z.authed cfg act.turn act.req = z.dispatch cfg act.turn me act.req :=
      fun z hz hadmin => (authed_of_caller hz).trans (if_neg hadmin)
    by_cases hadmin : act.req.adminOnly = true ∧ me.isAdmin = false
    · refine ⟨[], fun _ hl => absurd hl List.not_mem_nil, fun log => ?_⟩
      rw [authed_of_caller hme, authed_of_caller (hme' log), if_pos hadmin, if_pos hadmin]
      exact ⟨rfl, fun _ => rfl⟩
    · by_cases hasks : (act.req.asksDatabase || act.req.asksLog) = false
      · obtain ⟨hdb, hlog⟩ := Bool.or_eq_false_iff.mp hasks
        obtain ⟨lines, hlines, hwith⟩ := @logs_dispatch me act.turn y cfg act.req hdb hlog
        refine ⟨lines, fun l hl => ⟨me, hme, ?_⟩, fun log => ?_⟩
        · rw [hdispatch y hme hadmin]
          exact hlines l hl
        · rw [hdispatch y hme hadmin, hdispatch _ (hme' log) hadmin]
          have hlog := hwith log
          exact ⟨congrArg Prod.fst hlog, fun _ => congrArg (fun r => r.2) hlog⟩
      · -- looking at the log or at the database adds nothing
        have hlooks : ∀ z : Server, (z.dispatch cfg act.turn me act.req).1 = z := fun z =>
          dispatch_asking cfg act.req (Bool.or_eq_true _ _ ▸ eq_true_of_ne_false hasks)
        refine ⟨[], fun _ hl => absurd hl List.not_mem_nil, fun log =>
          ⟨?_, fun h => absurd h hasks⟩⟩
        rw [hdispatch y hme hadmin, hdispatch _ (hme' log) hadmin, hlooks, hlooks]
        rfl

theorem shownUnlogged_eq (out : List (RouteRequest × Answer RouteBody)) :
    shownUnlogged out = (shown out).filter fun r => !r.1.asksLog := by
  rw [shown, List.filter_filter, shownUnlogged]
  exact List.filter_congr fun r _ => by rw [Bool.not_or, Bool.and_comm]

/-- Requests are answered alike whatever the log holds, unless they ask for it or for the whole
database. -/
theorem answered_unlogged (cfg : Config) (y : Server) (log : Table EventRow)
    (acts : List RouteAct) :
    shownUnlogged (runOut (routeStep cfg) (y.withLog log) acts).2 =
      shownUnlogged (runOut (routeStep cfg) y acts).2 := by
  have hrun : (∃ log', (runOut (routeStep cfg) (y.withLog log) acts).1 =
        (runOut (routeStep cfg) y acts).1.withLog log') ∧
      shownUnlogged (runOut (routeStep cfg) (y.withLog log) acts).2 =
        shownUnlogged (runOut (routeStep cfg) y acts).2 := by
    simp only [shownUnlogged, ← List.filterMap_eq_filter]
    refine runOut_rel (R := fun z' z : Server => ∃ log', z' = z.withLog log') (S := Eq)
      (List.forall₂_eq_eq_eq ▸ rfl) ⟨log, rfl⟩ ?_
    rintro _ z act _ rfl ⟨log, rfl⟩
    obtain ⟨lines, -, hsame⟩ := logs_authed cfg z act
    refine ⟨⟨_, (hsame log).1⟩, ?_⟩
    cases hasks : act.req.asksDatabase || act.req.asksLog with
    | true =>
      simp only [routeStep, List.filterMap_eq_filter, List.filter_cons, hasks, Bool.not_true,
        Bool.false_eq_true, if_false]
    | false => simp only [routeStep, (hsame log).2 hasks]
  exact hrun.2

/-- Requests made as one user leave alone what another has. They are answered alike whatever
channels, keys and wrappers the other has and, but for requests for the log, whatever the log
holds. Any request of anybody adds nothing to the log but lines about entries and about the key
that whoever asks registers, with its label, or removes. -/
theorem users_apart (cfg : Config) {a b : Int} (hab : a ≠ b) {y : Server}
    (hs : y.store.Constrained) (hb : (y.store.users.get? b).isSome) {acts : List RouteAct}
    (hmade : MeetsOut (routeStep cfg) (MadeAs a b) y acts) :
    (runOut (routeStep cfg) y acts).1.store.belongings b = y.store.belongings b ∧
      (∀ y' : Server, y'.store.Constrained → y'.without b = y.without b →
        MeetsOut (routeStep cfg) (SameFate b y') y acts →
          shown (runOut (routeStep cfg) y acts).2 = shown (runOut (routeStep cfg) y' acts).2) ∧
      (∀ (y' : Server) (log : Table EventRow), y'.store.Constrained →
        y'.without b = (y.without b).withLog log → MeetsOut (routeStep cfg) (SameFate b y') y acts →
          shownUnlogged (runOut (routeStep cfg) y acts).2 =
            shownUnlogged (runOut (routeStep cfg) y' acts).2) ∧
      ∀ (z : Server) (act : RouteAct), ∃ lines,
        (z.authed cfg act.turn act.req).1.store.events = z.store.events.insertAll lines ∧
          ∀ l ∈ lines, AddedBy z act (z.authed cfg act.turn act.req).1 l := by
  -- the other user is there as long as its belongings are the same
  have hb_of : ∀ z : Server, z.store.belongings b = y.store.belongings b →
      (z.store.users.get? b).isSome :=
    fun z hz => (congrArg (fun h : Belongings => h.user.isSome) hz).trans hb
  -- on two servers with one log, two runs side by side that differ in what the other user has
  have hsame : ∀ y' : Server, y'.store.Constrained → y'.without b = y.without b →
      MeetsOut (routeStep cfg) (SameFate b y') y acts →
        shown (runOut (routeStep cfg) y acts).2 = shown (runOut (routeStep cfg) y' acts).2 := by
    intro y' hs' hsame hfate
    have hrun : Twins b y y' (runOut (routeStep cfg) y acts).1 (runOut (routeStep cfg) y' acts).1 ∧
        shown (runOut (routeStep cfg) y acts).2 = shown (runOut (routeStep cfg) y' acts).2 := by
      simp only [shown, ← List.filterMap_eq_filter]
      refine runOut_rel_of_meets (C := fun z act => MadeAs a b z act ∧ SameFate b y' z act)
        (fun pre act post heq => ⟨hmade pre act post heq, hfate pre act post heq⟩)
        ⟨hs, hs', hsame, rfl, rfl⟩ fun z z' act _ hact hz => ?_
      have hstep := @Twins.step b z z' a act cfg y y' hz hab (hb_of z hz.belongings) hact.1 hact.2
      simpa only [shown, ← List.filterMap_eq_filter] using hstep
    exact hrun.2
  refine ⟨?_, hsame, fun y' log hs' hwith hfate => ?_, fun z act => ?_⟩
  · have hinv : (runOut (routeStep cfg) y acts).1.store.Constrained ∧
        (runOut (routeStep cfg) y acts).1.store.belongings b = y.store.belongings b := by
      refine runOut_induction_of_meets (P := fun z => z.store.Constrained ∧
        z.store.belongings b = y.store.belongings b) hmade ⟨hs, rfl⟩ ?_
      rintro z act hact ⟨hz, hbelongings⟩
      have hstays := @stays_authed b z a act cfg hz (hb_of z hbelongings) hab hact
      exact ⟨hstays.2, hstays.1.trans hbelongings⟩
    exact hinv.2
  · -- with the log of the first server, the second is one of those with one log
    have hlog : (y'.withLog y.store.events).without b = y.without b :=
      congrArg (Server.withLog · y.store.events) hwith
    have hshown := hsame (y'.withLog y.store.events)
      ⟨hs'.credentialIds, hs'.userSeq, hs'.userIds⟩ hlog hfate
    calc shownUnlogged (runOut (routeStep cfg) y acts).2
        = shownUnlogged (runOut (routeStep cfg) (y'.withLog y.store.events) acts).2 := by
          rw [shownUnlogged_eq, hshown, shownUnlogged_eq]
      _ = shownUnlogged (runOut (routeStep cfg) y' acts).2 :=
        answered_unlogged cfg y' y.store.events acts
  · obtain ⟨lines, hlines, hwith⟩ := logs_authed cfg z act
    refine ⟨lines, ?_, hlines⟩
    exact congrArg (fun z : Server => z.store.events) (hwith z.store.events).1

/-- A request with a token, which meets nobody outside. -/
def tokenAct (req : RouteRequest) : RouteAct where
  turn :=
    { bearer := some "token"
      webAuthn := .error "unknown host"
      qr _ := .error "no image"
      vault := .smooth demoFresh 0
      sweep :=
        ⟨0, fun _ => .error "refused", fun _ _ => .error "refused", fun _ => .error "refused"⟩
      scan _ _ _ := .error "refused"
      lookup _ := .error ⟨false, "refused"⟩
      registrable _ := none }
  req := req

/-- A server that reads nothing outside. -/
def demoServing : Config where
  auth := demoConfig
  version := { version := "dev" }

/-- Two users with a token each; the second has a channel and a key that opens the vault. -/
def twoUsers (target wrapSalt label : String) : Server where
  host :=
    { vault := {}
      keyFile := none
      store :=
        { users := (Table.empty.insert ⟨"ann@example.org", "", .admin, "", false, 0⟩).insert
            ⟨"bob@example.org", "", .viewer, "", false, 0⟩
          tokens := (Table.empty.insert ⟨1, "token"⟩).insert ⟨2, "other token"⟩
          channels := Table.empty.insert ⟨2, .slack, target, "", true⟩
          credentials := Table.empty.insert ⟨2, "key", "", 0, GoString.ofString label⟩
          wrappers := [⟨"key", Sealed.empty, wrapSalt⟩] } }

theorem twoUsers_constrained (target wrapSalt label : String) :
    (twoUsers target wrapSalt label).store.Constrained := by
  have hseq : (0 : Int) ≤ 0 + 1 + 1 := by decide
  refine ⟨List.nodup_singleton _, hseq, fun id row hrow => ?_⟩
  have hmem := Table.mem_rows_iff.mpr hrow
  simp only [twoUsers, Server.store, Table.insert, Table.empty, Table.nextKey, List.nil_append,
    List.cons_append, List.mem_cons, Prod.mk.injEq, List.not_mem_nil, or_false] at hmem
  omega

/-- The first user asks for what the second has, by its ids, and for the log. -/
def prying : List RouteAct :=
  [tokenAct .listChannels, tokenAct (.deleteChannel (some 1)), tokenAct (.testChannel (some 1)),
    tokenAct (.vaultWrapperGet "key"), tokenAct (.deleteCredential (some 1)),
    tokenAct (.listEvents "" none)]

/-- A line of long ago. -/
def someLog : Table EventRow := Table.empty.insert ⟨[], .added, none, "web", "", .plain []⟩

/-- Neither the channel, the wrapper nor the label of the key shows, and the first user adds a line
about a key to the log. -/
theorem users_apart_demo :
    (runOut (routeStep demoServing) (twoUsers "first" "salt" "mine") prying).1.store.belongings 2 =
      (twoUsers "first" "salt" "mine").store.belongings 2 ∧
    shown (runOut (routeStep demoServing) (twoUsers "first" "salt" "mine") prying).2 =
      shown (runOut (routeStep demoServing) (twoUsers "second" "other" "spare") prying).2 ∧
    shownUnlogged (runOut (routeStep demoServing) (twoUsers "first" "salt" "mine") prying).2 =
      shownUnlogged (runOut (routeStep demoServing)
        ((twoUsers "second" "other" "spare").withLog someLog) prying).2 ∧
    ∃ lines, ((twoUsers "first" "salt" "mine").authed demoServing
        (tokenAct (.deleteCredential (some 1))).turn (.deleteCredential (some 1))).1.store.events =
      Table.empty.insertAll lines := by
  have hmade : ∀ log, ∀ act ∈ prying,
      MadeAs 1 2 ((twoUsers "first" "salt" "mine").withLog log) act := by
    intro log
    have hcaller : ∀ req, ∃ me, ((twoUsers "first" "salt" "mine").withLog log).caller
        (tokenAct req) = some me ∧ me.id = 1 := fun _ => ⟨_, rfl, rfl⟩
    simp only [prying, List.forall_mem_cons]
    refine ⟨?_, ?_, ?_, ?_, ?_, ?_, fun _ h => absurd h List.not_mem_nil⟩
    all_goals
      exact ⟨hcaller _, by simp [tokenAct], by simp [tokenAct], by simp [tokenAct],
        by simp [tokenAct]⟩
  have hfate : ∀ z y', ∀ act ∈ prying, SameFate 2 y' z act := by
    intro z y'
    simp only [prying, List.forall_mem_cons]
    refine ⟨?_, ?_, ?_, ?_, ?_, ?_, fun _ h => absurd h List.not_mem_nil⟩
    all_goals exact fun me body row _ hreq => absurd hreq (by simp [tokenAct])
  have hmet : ∀ y', MeetsOut (routeStep demoServing) (SameFate 2 y')
      (twoUsers "first" "salt" "mine") prying := fun y' pre act post heq =>
    hfate _ y' act (heq ▸ List.mem_append_right _ List.mem_cons_self)
  -- the requests leave the server as it was, but for the log
  have hall : MeetsOut (routeStep demoServing) (MadeAs 1 2) (twoUsers "first" "salt" "mine")
      prying := by
    simp only [prying, List.forall_mem_cons] at hmade
    have h := hmade Table.empty
    exact meetsOut_cons.mpr ⟨h.1, meetsOut_cons.mpr ⟨h.2.1, meetsOut_cons.mpr ⟨h.2.2.1,
      meetsOut_cons.mpr ⟨h.2.2.2.1, meetsOut_cons.mpr ⟨h.2.2.2.2.1,
        meetsOut_cons.mpr ⟨(hmade _).2.2.2.2.2.1, meetsOut_nil⟩⟩⟩⟩⟩⟩
  obtain ⟨hkept, hsame, hwith, hlines⟩ := users_apart demoServing (by decide)
    (twoUsers_constrained "first" "salt" "mine") (by rfl) hall
  refine ⟨hkept, hsame _ (twoUsers_constrained _ _ _) rfl (hmet _),
    hwith _ someLog ?_ rfl (hmet _), ?_⟩
  · have h := twoUsers_constrained "second" "other" "spare"
    exact ⟨h.credentialIds, h.userSeq, h.userIds⟩
  · obtain ⟨lines, hlines, -⟩ := hlines (twoUsers "first" "salt" "mine")
      (tokenAct (.deleteCredential (some 1)))
    exact ⟨lines, hlines⟩

/-! ### The label of a key -/

/-- An answer with lines of the log shows a text in quotes. -/
def ShowsQuoted (tables : Char → Bool) (ans : Answer RouteBody) (text : GoString) : Prop :=
  ∃ lines, ans.body = .ok (.events lines) ∧
    ∃ r ∈ lines, quote tables text <:+: r.2.detail.text tables

/-- The second user registers a key. -/
def keyAct (label : String) (req : RouteRequest) : RouteAct where
  turn :=
    { (tokenAct req).turn with
      bearer := some "other token"
      ceremony := some "ceremony"
      label := label
      webAuthn := .ok demoKeys
      token := "ceremony" }
  req := req

/-- Once the second user has registered a key. -/
def registered : Server :=
  (runOut (routeStep demoServing) (twoUsers "first" "salt" "mine")
    [keyAct "" .webAuthnRegisterBegin, keyAct "Bob's key" (.webAuthnRegisterFinish "spare")]).1

/-- The log shows the first user the label of the key. -/
theorem label_shown : ¬ ∀ (cfg : Config) (a b : Int) (y : Server) (acts : List RouteAct), a ≠ b →
    y.store.Constrained → (y.store.users.get? b).isSome →
    MeetsOut (routeStep cfg) (MadeAs a b) y acts →
      ∀ r ∈ y.store.credentials.rows, r.2.userId = b →
        ∀ out ∈ shown (runOut (routeStep cfg) y acts).2,
          ¬ ShowsQuoted (fun _ => false) out.2 r.2.name := by
  intro h
  -- what the first user is answered
  set line : EventRow := keyAddedLine ⟨2, "bob@example.org", "", .viewer, "", false, 0⟩
    (keyAct "Bob's key" .webAuthnRegisterBegin).turn
  have hlisted : (runOut (routeStep demoServing) registered [tokenAct (.listEvents "" none)]).2 =
      [(.listEvents "" none, writeJSON 200 (.events [(1, line)]))] := by rfl
  have hconstrained : registered.store.Constrained := by
    have hids : registered.store.credentials.rows.map (fun r => r.2.credentialId) =
        ["key", "spare"] := by rfl
    have htwo := twoUsers_constrained "first" "salt" "mine"
    exact ⟨hids ▸ by decide, htwo.userSeq, htwo.userIds⟩
  have hmade : MeetsOut (routeStep demoServing) (MadeAs 1 2) registered
      [tokenAct (.listEvents "" none)] :=
    meetsOut_cons.mpr ⟨⟨⟨_, rfl, rfl⟩, by simp [tokenAct], by simp [tokenAct], by simp [tokenAct],
      by simp [tokenAct]⟩, meetsOut_nil⟩
  have hrow : (2, CredentialRow.mk 2 "spare" "" 0 (credentialLabel "Bob's key")) ∈
      registered.store.credentials.rows := List.mem_cons_of_mem _ List.mem_cons_self
  have hquoted : quote (fun _ => false) (credentialLabel "Bob's key") <:+:
      line.detail.text fun _ => false := (List.suffix_append _ _).isInfix
  refine h demoServing 1 2 registered _ (by decide) hconstrained rfl hmade _ hrow rfl
    (.listEvents "" none, writeJSON 200 (.events [(1, line)])) ?_
    ⟨[(1, line)], rfl, (1, line), List.mem_singleton_self _, hquoted⟩
  rw [hlisted]
  exact List.mem_singleton_self _

end CertGuard
