import CertGuard.Lib.TransitionRun
import CertGuard.Server.Vault

/-!
# Browser sessions

In zero-knowledge mode the browser holds the data key. What a user starts in a browser
tab, a switch to zero-knowledge mode or a change of a secret, is a sequence of requests,
and each request a sequence of statements on the server. Here both are cut at these
statements, and any number of them run at the same time in any number of tabs.

## Main definitions

* `Tab`, and the functions of `ZK` — what a browser tab holds and computes
* `Flow` — where something a user started stands
* `Effect`, `Flow.next` — what its next statement does
* `Site`, `Site.step` — the server, the tabs and everything under way
* `WebAct` — what users, tabs and statements do

## Main results

* `Site.step_cases` — what an action does to the server and to what is under way
-/

namespace CertGuard

open Transition

/-! ### Tabs -/

/-- A tab: the data key the page holds, if it is unlocked, and what it was told of the
mode when it was loaded. -/
structure Tab where
  dek : Option Key := none
  zkEnabled : Bool := false
  deriving DecidableEq, Repr

/-- The keyring a browser makes and the server keeps. -/
structure ClientKeyring where
  wrapped : Wrapped
  salt : String
  iters : String
  deriving DecidableEq, Repr

namespace ZK

/-- The iterations a keyring names, or as many as the page uses itself. -/
def iterations (iters : String) : Nat := (iters.toNat?.filter (· ≠ 0)).getD 310000

/-- `create`, with the data key drawn as the `n`-th. -/
def create (tab : Tab) (passphrase salt : String) (n : Nat) : Tab × ClientKeyring :=
  ({ tab with dek := some (.drawn n) },
    ⟨wrapKey (.drawn n) (.derived passphrase salt 310000), salt, "310000"⟩)

/-- `unlock`; nothing when the passphrase is wrong. -/
def unlock (tab : Tab) (passphrase : String) (keyring : ClientKeyring) : Option Tab :=
  (unwrapKey keyring.wrapped
    (.derived passphrase keyring.salt (iterations keyring.iters))).map fun dek =>
      { tab with dek := some dek }

/-- `rewrap`; nothing while the tab is locked. -/
def rewrap (tab : Tab) (passphrase salt : String) : Option ClientKeyring :=
  tab.dek.map fun dek => ⟨wrapKey dek (.derived passphrase salt 310000), salt, "310000"⟩

/-- `wrapForKey`, for what a security key derives. -/
def wrapForKey (tab : Tab) (prf : Key) : Option Wrapped := tab.dek.map fun dek => wrapKey dek prf

/-- `unlockWithKey`; nothing when the tag check fails. -/
def unlockWithKey (tab : Tab) (prf : Key) (wrapped : Wrapped) : Option Tab :=
  (unwrapKey wrapped prf).map fun dek => { tab with dek := some dek }

/-- `encrypt`; nothing while the tab is locked. -/
def encrypt (tab : Tab) (plaintext : String) : Option Cipher :=
  tab.dek.map fun dek => boxSeal dek plaintext

end ZK

/-! ### What is under way -/

/-- A switch to zero-knowledge mode while it collects the secrets there are. -/
structure Switch where
  tab : Nat
  passphrase : String
  salt : String
  /-- The data key it will draw. -/
  n : Nat
  /-- The entries it has still to ask for. -/
  todo : List Int := []
  /-- The secrets it got. -/
  plaintexts : List (Int × String) := []

/-- The body of `POST /vault/keyring`. -/
structure KeyringReq where
  keyring : ClientKeyring
  secrets : List (Int × Cipher) := []

/-- The body of `PUT /certs/{id}/secret`. -/
structure SecretReq where
  value : String := ""
  enc : Cipher := Sealed.empty
  deriving DecidableEq, Repr

/-- The request clears the secret and is meant to. -/
def SecretReq.Clears (req : SecretReq) : Bool := req.value = "" && req.enc = Sealed.empty

/-- Where something that was started stands: before one of its statements, or at its end.
The requests of `enableZK` and `changeZK` differ in what the tab does once they failed. -/
inductive Flow
  -- `enableZK` of the settings page
  | list (sw : Switch)
  | fetch (sw : Switch)
  | fetchZK (sw : Switch) (id : Int) (enc : Cipher)
  | fetchOpen (sw : Switch) (id : Int) (enc : Cipher)
  -- `changeZK`
  | change (tab : Nat) (cur next salt : String)
  -- `handleZKKeyringSet`
  | post (tab : Nat) (enables : Bool) (req : KeyringReq)
  | postEnable (tab : Nat) (enables : Bool) (req : KeyringReq) (wasOn : Bool)
  | postClear (tab : Nat) (enables : Bool) (wasOn : Bool) (secrets : List (Int × Cipher))
  | postStore (tab : Nat) (enables : Bool) (secrets : List (Int × Cipher))
  -- `handleZKKeyringDelete`
  | delete (tab : Nat)
  | deleteClear (tab : Nat)
  -- `handleSetSecret`
  | put (id : Int) (req : SecretReq)
  | putZK (id : Int) (req : SecretReq)
  | putSeal (id : Int) (req : SecretReq)
  | putStore (id : Int) (req : SecretReq) (enc : Cipher)
  -- `handleCreateCert`, as far as the secret goes
  | add (row : CertRow) (secret : String)
  | addZK (id : Int) (secret : String)
  -- `pairKeyWithVault` and `handleVaultWrapperSet`
  | pair (tab : Nat) (credentialId prfSalt : String) (userId : Int)
  | pairOwned (row : WrapperRow) (userId : Int)
  | pairDelete (row : WrapperRow)
  | pairInsert (row : WrapperRow)
  -- `handleVaultWrapperDelete`
  | unpair (credentialId : String) (userId : Int)
  | unpairDelete (credentialId : String)
  -- the deletion of a credential
  | removeKey (id userId : Int)
  | done

/-- What a statement does on the server. -/
inductive SiteEffect
  | nothing
  | enableZK (env : VaultEnv) (keyring : ClientKeyring)
  | disableZK (env : VaultEnv)
  | addCert (row : CertRow)
  /-- A secret is stored; `meant` if an empty one was asked for. -/
  | setSecret (id : Int) (enc : Cipher) (meant : Bool)
  /-- `POST /vault/keyring` answers 200. -/
  | answered
  | clearWrappers
  | deleteWrapper (credentialId : String)
  | insertWrapper (row : WrapperRow)
  | deleteCredential (id userId : Int)

/-- The server after a statement. -/
def SiteEffect.apply (h : Host) : SiteEffect → Host
  | enableZK env keyring => (h.enableZK env keyring.wrapped keyring.salt keyring.iters).1
  | disableZK env => (h.disableZK env).1
  | addCert row => { h with store := h.store.addCert row }
  | setSecret id enc _ => { h with store := (h.store.setSecret id enc).getD h.store }
  | clearWrappers => { h with store := h.store.clearVaultWrappers }
  | deleteWrapper credentialId => { h with store := h.store.deleteVaultWrapper credentialId }
  | insertWrapper row => { h with store := h.store.insertVaultWrapper row }
  | deleteCredential id userId => { h with store := h.store.deleteCredential id userId }
  | nothing => h
  | answered => h

/-- Only the switches change the vault and its rows. -/
theorem SiteEffect.keyring_apply (h : Host) (eff : SiteEffect)
    (hon : ∀ env keyring, eff ≠ .enableZK env keyring) (hoff : ∀ env, eff ≠ .disableZK env) :
    (eff.apply h).vault = h.vault ∧ (eff.apply h).store.keyring = h.store.keyring := by
  cases eff with
  | enableZK env keyring => exact absurd rfl (hon env keyring)
  | disableZK env => exact absurd rfl (hoff env)
  | setSecret id enc meant => exact ⟨rfl, (getD_setSecret h.store id enc).1⟩
  | insertWrapper row => exact ⟨rfl, keyring_insertVaultWrapper h.store row⟩
  | deleteCredential id userId => exact ⟨rfl, (deleteCredential_eq h.store id userId).1⟩
  | _ => exact ⟨rfl, rfl⟩

/-- Only a switch off, a new entry and a stored secret change entries. -/
theorem SiteEffect.certs_apply (h : Host) (eff : SiteEffect)
    (hoff : ∀ env, eff ≠ .disableZK env) (hadd : ∀ row, eff ≠ .addCert row)
    (hset : ∀ id enc meant, eff ≠ .setSecret id enc meant) :
    (eff.apply h).store.certs = h.store.certs := by
  cases eff with
  | disableZK env => exact absurd rfl (hoff env)
  | addCert row => exact absurd rfl (hadd row)
  | setSecret id enc meant => exact absurd rfl (hset id enc meant)
  | enableZK env keyring =>
    cases hok : env.setMeta .zkWrapped with
    | false => simp only [SiteEffect.apply, enableZK_of_failed hok]
    | true => exact (enableZK_of_ok hok (h := h) _ _ _).2.2.2.1
  | insertWrapper row =>
    simp only [SiteEffect.apply, Store.insertVaultWrapper]
    split_ifs <;> rfl
  | deleteCredential id userId => exact (deleteCredential_eq h.store id userId).2.1
  | _ => rfl

/-- What a statement meets: whether it, or the request it is part of, succeeds, and what
the vault meets in it. -/
structure Outcome where
  ok : Bool
  env : VaultEnv

/-- Everything succeeds. -/
def Outcome.smooth : Outcome := ⟨true, .smooth demoFresh 0⟩

/-- The statement fails, or the request it is part of. -/
def Outcome.failed : Outcome := { Outcome.smooth with ok := false }

/-- A statement: what it does, the tab after it, and where it leaves what it is part of. -/
structure Move where
  effect : SiteEffect := .nothing
  tab : Option (Nat × Tab) := none
  flow : Flow

/-- The keyring as `GET /vault/keyring` returns it. -/
def Host.zkKeyring (h : Host) : ClientKeyring where
  wrapped := h.store.keyring.zkWrapped.getD Sealed.empty
  salt := h.store.keyring.zkSalt.getD ""
  iters := h.store.keyring.zkIters.getD ""

/-- The entries `GET /certs` says have a secret. -/
def Host.withSecret (h : Host) : List Int :=
  (h.store.list.filter fun c => c.secretEnc ≠ Sealed.empty).map Cert.id

/-- The tab after a keyring request of the settings page failed. -/
def afterFailure (tabs : Nat → Tab) (tab : Nat) (enables : Bool) : Option (Nat × Tab) :=
  if enables then some (tab, { tabs tab with dek := none }) else none

/-- The next statement of something that is under way. -/
def Flow.next (h : Host) (tabs : Nat → Tab) (o : Outcome) : Flow → Option Move
  -- a failed request reads as an empty list
  | list sw => some { flow := .fetch { sw with todo := if o.ok then h.withSecret else [] } }
  | fetch sw =>
    match sw.todo with
    | id :: todo =>
      let skip : Move := { flow := .fetch { sw with todo := todo } }
      -- a secret that cannot be fetched is left out
      if o.ok = false ∨ h.vault.enabled = false then some skip
      else
        match h.store.getByID id with
        | none => some skip
        | some c =>
          if c.secretEnc = Sealed.empty then some skip
          else some { flow := .fetchZK { sw with todo := todo } id c.secretEnc }
    | [] =>
      let (tab, keyring) := ZK.create (tabs sw.tab) sw.passphrase sw.salt sw.n
      let secrets := sw.plaintexts.map fun p => (p.1, boxSeal (.drawn sw.n) p.2)
      some { tab := some (sw.tab, tab), flow := .post sw.tab true ⟨keyring, secrets⟩ }
  | fetchZK sw id enc =>
    -- in zero-knowledge mode there is no value in the answer
    some { flow := if h.vault.zk then .fetch sw else .fetchOpen sw id enc }
  | fetchOpen sw id enc =>
    match h.vaultOpen enc with
    | .ok value =>
      if value = "" then some { flow := .fetch sw }
      else some { flow := .fetch { sw with plaintexts := sw.plaintexts ++ [(id, value)] } }
    | .error _ => some { flow := .fetch sw }
  | change tab cur next salt =>
    let unlocked : Option Tab :=
      if (tabs tab).dek.isSome then some (tabs tab)
      else if o.ok ∧ h.vault.zk then ZK.unlock (tabs tab) cur h.zkKeyring
      else none
    match unlocked with
    | none => some { flow := .done }
    | some t =>
      match ZK.rewrap t next salt with
      | none => some { flow := .done }
      | some keyring => some { tab := some (tab, t), flow := .post tab false ⟨keyring, []⟩ }
  | post tab enables req =>
    if o.ok = false ∨ req.keyring.wrapped = Sealed.empty ∨ req.keyring.salt = "" ∨
        req.keyring.iters = "" then
      some { tab := afterFailure tabs tab enables, flow := .done }
    else some { flow := .postEnable tab enables req h.vault.zk }
  | postEnable tab enables req wasOn =>
    match (h.enableZK o.env req.keyring.wrapped req.keyring.salt req.keyring.iters).2 with
    | some _ =>
      some
        { effect := .enableZK o.env req.keyring
          tab := afterFailure tabs tab enables
          flow := .done }
    | none =>
      some
        { effect := .enableZK o.env req.keyring
          flow := .postClear tab enables wasOn req.secrets }
  | postClear tab enables wasOn secrets =>
    some
      { effect := if wasOn = false ∧ o.ok = true then .clearWrappers else .nothing
        flow := .postStore tab enables secrets }
  | postStore tab enables secrets =>
    match secrets with
    | (id, enc) :: rest =>
      -- whether the secret was stored is not looked at
      some
        { effect := if o.ok then .setSecret id enc false else .nothing
          flow := .postStore tab enables rest }
    | [] =>
      some
        { effect := .answered
          -- the answer may not reach the tab
          tab :=
            if o.ok = false then afterFailure tabs tab enables
            else if enables then some (tab, { tabs tab with zkEnabled := true })
            else none
          flow := .done }
  | delete tab =>
    match (h.disableZK o.env).2 with
    | some _ => some { effect := .disableZK o.env, flow := .done }
    | none => some { effect := .disableZK o.env, flow := .deleteClear tab }
  | deleteClear tab =>
    some
      { effect := if o.ok then .clearWrappers else .nothing
        tab := some (tab, {})
        flow := .done }
  | put id req => some { flow := if h.vault.enabled then .putZK id req else .done }
  | putZK id req =>
    some { flow := if h.vault.zk then .putStore id req req.enc else .putSeal id req }
  | putSeal id req =>
    match h.vaultSeal req.value with
    | .error _ => some { flow := .done }
    | .ok enc =>
      some { flow := .putStore id req (if req.value = "" then Sealed.empty else enc) }
  | putStore id req enc =>
    some { effect := if o.ok then .setSecret id enc req.Clears else .nothing, flow := .done }
  | add row secret =>
    if o.ok then
      some
        { effect := .addCert row
          flow := if secret = "" then .done else .addZK h.store.certs.nextKey secret }
    else some { flow := .done }
  | addZK id secret =>
    some { flow := if h.vault.zk then .done else .putSeal id { value := secret } }
  | pair tab credentialId prfSalt userId =>
    match ZK.wrapForKey (tabs tab) (.fromPRF credentialId prfSalt) with
    | none => some { flow := .done }
    | some wrapped => some { flow := .pairOwned ⟨credentialId, wrapped, prfSalt⟩ userId }
  | pairOwned row userId =>
    match h.store.credentialByID row.credentialId with
    | none => some { flow := .done }
    | some c =>
      if c.userId = userId ∧ row.wrapped ≠ Sealed.empty ∧ row.prfSalt ≠ "" then
        some { flow := .pairDelete row }
      else some { flow := .done }
  | pairDelete row =>
    if o.ok then some { effect := .deleteWrapper row.credentialId, flow := .pairInsert row }
    else some { flow := .done }
  | pairInsert row =>
    some { effect := if o.ok then .insertWrapper row else .nothing, flow := .done }
  | unpair credentialId userId =>
    match h.store.credentialByID credentialId with
    | none => some { flow := .done }
    | some c =>
      some { flow := if c.userId = userId then .unpairDelete credentialId else .done }
  | unpairDelete credentialId =>
    some { effect := if o.ok then .deleteWrapper credentialId else .nothing, flow := .done }
  | removeKey id userId =>
    some { effect := if o.ok then .deleteCredential id userId else .nothing, flow := .done }
  | done => none

/-! ### The site -/

/-- The server, the tabs and everything under way. -/
structure Site where
  host : Host
  tabs : Nat → Tab
  flows : List Flow

/-- A site where nothing is under way and the server has the data key, if anyone has. -/
def Site.idle (s : Store) (v : Vault) (file : KeyFile) : Site :=
  ⟨⟨{ v with zk := false }, s, file⟩, fun _ => {}, []⟩

/-- What users do, what tabs do at once, and the statements of what is under way. -/
inductive WebAct
  | load (tab : Nat)
  | lockTab (tab : Nat)
  | unlockTab (tab : Nat) (passphrase : String)
  | unlockWithKey (tab : Nat) (credentialId : String)
  | enableZK (tab : Nat) (passphrase salt : String) (n : Nat)
  | changeZK (tab : Nat) (cur next salt : String)
  | disableZK (tab : Nat)
  | saveSecret (tab : Nat) (id : Int) (plaintext : String)
  | addCert (tab : Nat) (row : CertRow) (plaintext : String)
  | pair (tab : Nat) (credentialId prfSalt : String) (userId : Int)
  | unpair (credentialId : String) (userId : Int)
  | removeKey (id userId : Int)
  | step (i : Nat) (o : Outcome)

/-- `secretBody`: what the page sends for a secret that was typed. -/
def secretBody (tab : Tab) (plaintext : String) : Option SecretReq :=
  if tab.zkEnabled = false then some { value := plaintext }
  else if plaintext = "" then some {}
  else (ZK.encrypt tab plaintext).map fun enc => { enc := enc }

namespace Site

/-- Something is started. -/
def start (y : Site) (f : Flow) : Site := { y with flows := y.flows ++ [f] }

/-- A tab changes. -/
def setTab (y : Site) (i : Nat) (t : Tab) : Site :=
  { y with tabs := fun j => if j = i then t else y.tabs j }

/-- The next statement of what stands at `i`. -/
def move (y : Site) (i : Nat) (o : Outcome) : Option Move :=
  y.flows[i]?.bind fun f => f.next y.host y.tabs o

/-- What an action does on the server. -/
def effect (y : Site) : WebAct → SiteEffect
  | .step i o => ((y.move i o).map Move.effect).getD .nothing
  | _ => .nothing

/-- Takes an action. -/
def step (y : Site) : WebAct → Option Site
  | .load i => some (y.setTab i { zkEnabled := y.host.vault.zk })
  | .lockTab i => some (y.setTab i { y.tabs i with dek := none })
  | .unlockTab i passphrase =>
    if y.host.vault.zk then (ZK.unlock (y.tabs i) passphrase y.host.zkKeyring).map (y.setTab i)
    else none
  | .unlockWithKey i credentialId =>
    (y.host.store.vaultWrapper credentialId).bind fun row =>
      (ZK.unlockWithKey (y.tabs i) (.fromPRF credentialId row.prfSalt) row.wrapped).map (y.setTab i)
  | .enableZK tab passphrase salt n =>
    some (y.start (.list { tab := tab, passphrase := passphrase, salt := salt, n := n }))
  | .changeZK tab cur next salt => some (y.start (.change tab cur next salt))
  | .disableZK tab => some (y.start (.delete tab))
  | .saveSecret tab id plaintext =>
    if (y.tabs tab).zkEnabled = true ∧ (y.tabs tab).dek = none then none
    else (secretBody (y.tabs tab) plaintext).map fun req => y.start (.put id req)
  | .addCert tab row plaintext =>
    -- in zero-knowledge mode the page sends the secret by itself afterwards
    some (y.start (.add row (if (y.tabs tab).zkEnabled then "" else plaintext)))
  | .pair tab credentialId prfSalt userId =>
    if (y.tabs tab).zkEnabled = true ∧ (y.tabs tab).dek.isSome = true then
      some (y.start (.pair tab credentialId prfSalt userId))
    else none
  | .unpair credentialId userId => some (y.start (.unpair credentialId userId))
  | .removeKey id userId => some (y.start (.removeKey id userId))
  | .step i o =>
    (y.move i o).map fun m =>
      { host := m.effect.apply y.host
        tabs := fun j =>
          if m.tab.map Prod.fst = some j then (m.tab.map Prod.snd).getD {} else y.tabs j
        flows := y.flows.set i m.flow }

variable {y y' : Site} {act : WebAct} {i : Nat} {o : Outcome} {f : Flow} {m : Move}

/-- An action takes a statement of something under way, or it leaves the server alone and
at most starts something. -/
theorem step_cases (h : y.step act = some y') :
    (∃ i o f m, act = .step i o ∧ y.flows[i]? = some f ∧ f.next y.host y.tabs o = some m ∧
        y.effect act = m.effect ∧ y'.host = m.effect.apply y.host ∧
        y'.flows = y.flows.set i m.flow) ∨
      ((∀ i o, act ≠ .step i o) ∧ y.effect act = .nothing ∧ y'.host = y.host ∧
        ∃ fs, y'.flows = y.flows ++ fs) := by
  -- what happens in a tab starts no flow
  have hnone : ∀ i t, ∃ fs, (y.setTab i t).flows = y.flows ++ fs := fun i t =>
    ⟨[], (List.append_nil _).symm⟩
  cases act with
  | step i o =>
    obtain ⟨m, hm, rfl⟩ := Option.map_eq_some_iff.mp h
    obtain ⟨f, hf, hnext⟩ := Option.bind_eq_some_iff.mp hm
    refine Or.inl ⟨i, o, f, m, rfl, hf, hnext, ?_, rfl, rfl⟩
    simp only [effect, hm, Option.map_some, Option.getD_some]
  | unlockTab i passphrase =>
    simp only [step, Option.ite_none_right_eq_some] at h
    obtain ⟨t, -, rfl⟩ := Option.map_eq_some_iff.mp h.2
    exact Or.inr ⟨by simp, rfl, rfl, hnone i t⟩
  | unlockWithKey i credentialId =>
    obtain ⟨row, -, hrow⟩ := Option.bind_eq_some_iff.mp h
    obtain ⟨t, -, rfl⟩ := Option.map_eq_some_iff.mp hrow
    exact Or.inr ⟨by simp, rfl, rfl, hnone i t⟩
  | saveSecret tab id plaintext =>
    simp only [step, Option.ite_none_left_eq_some] at h
    obtain ⟨req, -, rfl⟩ := Option.map_eq_some_iff.mp h.2
    exact Or.inr ⟨by simp, rfl, rfl, _, rfl⟩
  | pair tab credentialId prfSalt userId =>
    simp only [step, Option.ite_none_right_eq_some, Option.some.injEq] at h
    obtain ⟨-, rfl⟩ := h
    exact Or.inr ⟨by simp, rfl, rfl, _, rfl⟩
  | load i =>
    obtain rfl := Option.some.inj h
    exact Or.inr ⟨by simp, rfl, rfl, hnone _ _⟩
  | lockTab i =>
    obtain rfl := Option.some.inj h
    exact Or.inr ⟨by simp, rfl, rfl, hnone _ _⟩
  | _ =>
    obtain rfl := Option.some.inj h
    exact Or.inr ⟨by simp, rfl, rfl, _, rfl⟩

/-- What an action does to the server is its effect. -/
theorem host_step (h : y.step act = some y') : y'.host = (y.effect act).apply y.host := by
  rcases step_cases h with ⟨i, o, f, m, -, -, -, heff, hhost, -⟩ | ⟨-, heff, hhost, -⟩
  · rw [heff, hhost]
  · rw [heff, hhost]
    rfl

/-- A step that is refused would do nothing. -/
theorem effect_of_refused (h : y.step act = none) : y.effect act = .nothing := by
  cases act with
  | step i o =>
    have hm := Option.map_eq_none_iff.mp h
    simp only [effect, hm, Option.map_none, Option.getD_none]
  | _ => rfl

end Site

end CertGuard
