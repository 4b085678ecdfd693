import CertGuard.Server.Sessions

/-!
# Security keys as a second door

A security key holds a wrapped copy of the data key, in a row apart from the keyring. The
rows are cleared by a statement of their own when zero-knowledge mode is switched on, the
page that pairs a key wraps whatever data key it holds, and nothing tells a wrapper of an
earlier data key from one of the current: both unwrap under the key they were made for.

## Main definitions

* `SecondDoor` — what a security key unlocks is the data key of the keyring
* `DoorLog` — which keys are paired, and which data key pages held as they wrapped it
* `UpToDate` — the mode is switched on when no key is paired, and only the current data key is
  wrapped while it is on

## Main results

* `carries_next` — what a request carries is the data key its page held
* `listed_step` — a wrapper is left only of a key that is paired
* `second_door_kept` — runs that are up to date keep the doors to one room
* `other_room` — and a run in which a key opens another
-/

namespace CertGuard

open Transition

/-- The key a security key derives for its row. -/
def WrapperRow.prf (row : WrapperRow) : Key := .fromPRF row.credentialId row.prfSalt

/-- While zero-knowledge mode is on, whatever a page is unlocked with by a security key is
the data key wrapped in the keyring. -/
def SecondDoor (y : Site) : Prop :=
  y.host.vault.zk = true → ∀ row ∈ y.host.store.wrappers, ∀ tab tab',
    ZK.unlockWithKey tab row.prf row.wrapped = some tab' →
      tab'.dek = y.host.store.keyring.dataKey

/-! ### What happened so far -/

/-- The page that is to wrap its data key with its next statement. -/
def Flow.page : Flow → Option Nat
  | .fetch sw => some sw.tab
  | .change tab .. => some tab
  | .pair tab .. => some tab
  | _ => none

/-- The credentials that were paired, and since then neither paired anew, unpaired or removed nor
cleared with all the others; and the data key that the page of a request held as it wrapped it. -/
structure DoorLog where
  paired : List String
  held : Nat → Option Key := fun _ => none

/-- The deletion of a credential is of the one a wrapper is for. -/
def Store.removes (s : Store) (id userId : Int) (credentialId : String) : Bool :=
  (s.credentials.get? id).any fun r => r.userId = userId ∧ r.credentialId = credentialId

/-- Keeps the log. -/
def DoorLog.note (l : DoorLog) (y : Site) (act : WebAct) : DoorLog where
  paired := match y.effect act with
    | .insertWrapper row => row.credentialId :: l.paired
    | .deleteWrapper credentialId => l.paired.filter fun c => c ≠ credentialId
    | .deleteCredential id userId => l.paired.filter fun c => !y.host.store.removes id userId c
    | .clearWrappers => []
    | _ => l.paired
  held := match act with
    | .step i _ =>
      match y.flows[i]?.bind Flow.page, y.step act with
      | some tab, some y' => Function.update l.held i (y'.tabs tab).dek
      | _, _ => l.held
    | _ => l.held

/-- The site with the log. -/
abbrev doorStep : Site × DoorLog → WebAct → Option (Site × DoorLog) := watch Site.step DoorLog.note

/-- The mode is switched on when no key is paired: all were cleared, unpaired or removed. While it
is on, a keyring, unless no key is paired, and a wrapper take effect only if the page that wrapped
the data key held the current one. -/
def UpToDate (v : Site × DoorLog) : WebAct → Prop
  | .step i o =>
    match v.1.effect (.step i o) with
    | .enableZK env _ => env.setMeta .zkWrapped = true → v.2.paired ≠ [] →
        v.1.host.vault.zk = true ∧ v.2.held i = v.1.host.store.keyring.dataKey
    | .insertWrapper row => v.1.host.vault.zk = true → v.1.host.store.TakesWrapper row →
        v.2.held i = v.1.host.store.keyring.dataKey
    | _ => True
  | _ => True

instance : ∀ v act, Decidable (UpToDate v act)
  | v, .step i o => by
    unfold UpToDate
    dsimp only
    split <;> infer_instance
  | _, .load _ => isTrue trivial
  | _, .lockTab _ => isTrue trivial
  | _, .unlockTab .. => isTrue trivial
  | _, .unlockWithKey .. => isTrue trivial
  | _, .enableZK .. => isTrue trivial
  | _, .changeZK .. => isTrue trivial
  | _, .disableZK _ => isTrue trivial
  | _, .saveSecret .. => isTrue trivial
  | _, .addCert .. => isTrue trivial
  | _, .pair .. => isTrue trivial
  | _, .unpair .. => isTrue trivial
  | _, .removeKey .. => isTrue trivial

variable {y y' : Site} {l : DoorLog} {act : WebAct} {s : Store} {row row' : WrapperRow}
variable {i : Nat} {o : Outcome} {m : Move} {f : Flow} {k : Option Key}

theorem secondDoor_iff : SecondDoor y ↔
    (y.host.vault.zk = true → ∀ row ∈ y.host.store.wrappers, ∀ dek,
      unwrapKey row.wrapped row.prf = some dek → y.host.store.keyring.dataKey = some dek) := by
  constructor
  · intro h hzk row hrow dek hunwrap
    have hdek := h hzk row hrow {} { dek := some dek } (by simp [ZK.unlockWithKey, hunwrap])
    exact hdek.symm
  · intro h hzk row hrow tab tab' hunlock
    obtain ⟨dek, hunwrap, rfl⟩ := Option.map_eq_some_iff.mp hunlock
    exact (h hzk row hrow dek hunwrap).symm

/-- What is among the wrappers after one was stored. -/
theorem mem_insertVaultWrapper : row' ∈ (s.insertVaultWrapper row).wrappers ↔
    row' ∈ s.wrappers ∨ s.TakesWrapper row ∧ row' = row := by
  unfold Store.insertVaultWrapper
  split_ifs with htakes
  · simp [htakes]
  · simp [htakes]

/-- A statement that neither switches nor stores a wrapper keeps the doors to one room. -/
theorem SecondDoor.apply (h : SecondDoor y) (eff : SiteEffect)
    (hhost : y'.host = eff.apply y.host) (hon : ∀ env keyring, eff ≠ .enableZK env keyring)
    (hoff : ∀ env, eff ≠ .disableZK env)
    (hsub : (eff.apply y.host).store.wrappers ⊆ y.host.store.wrappers) : SecondDoor y' := by
  obtain ⟨hvault, hkeyring⟩ := SiteEffect.keyring_apply y.host eff hon hoff
  intro hzk row hrow tab tab' hunlock
  rw [hhost] at hzk hrow ⊢
  rw [hvault] at hzk
  rw [hkeyring]
  exact h hzk row (hsub hrow) tab tab' hunlock

/-! ### Which data key a request carries -/

/-- A request on its way carries the data key `k`, wrapped for a passphrase or a security key. -/
def Flow.Carries (k : Option Key) : Flow → Prop
  | .post _ _ req => req.keyring.wrapped.payload? = k
  | .postEnable _ _ req _ => req.keyring.wrapped.payload? = k
  | .pairOwned row _ => unwrapKey row.wrapped row.prf = k
  | .pairDelete row => unwrapKey row.wrapped row.prf = k
  | .pairInsert row => unwrapKey row.wrapped row.prf = k
  | _ => True

/-- The tabs after a statement. -/
def Move.tabs (m : Move) (tabs : Nat → Tab) (j : Nat) : Tab :=
  if m.tab.map Prod.fst = some j then (m.tab.map Prod.snd).getD {} else tabs j

/-- A request carries the data key that its page held as it was wrapped, and goes on with it. -/
theorem carries_next {h : Host} {tabs : Nat → Tab} (hcarries : f.Carries k)
    (hnext : f.next h tabs o = some m) :
    m.flow.Carries (match f.page with
      | some tab => (m.tabs tabs tab).dek
      | none => k) := by
  cases f with
  | fetch sw =>
    obtain ⟨tab, passphrase, salt, n, todo, plaintexts⟩ := sw
    cases todo with
    | cons id todo =>
      -- another secret is fetched, or left out
      simp only [Flow.next] at hnext
      split at hnext
      · obtain rfl := Option.some.inj hnext
        trivial
      · split at hnext
        · obtain rfl := Option.some.inj hnext
          trivial
        · split_ifs at hnext <;> obtain rfl := Option.some.inj hnext <;> trivial
    | nil =>
      -- the page draws a data key and wraps it
      obtain rfl := Option.some.inj hnext
      simp only [Flow.page, Flow.Carries, Move.tabs, Option.map_some, if_true, Option.getD_some]
      rfl
  | change tab cur next salt =>
    simp only [Flow.next] at hnext
    split at hnext
    · obtain rfl := Option.some.inj hnext
      trivial
    · next t =>
      split at hnext
      · obtain rfl := Option.some.inj hnext
        trivial
      · next keyring hrewrap =>
        obtain rfl := Option.some.inj hnext
        obtain ⟨dek, hdek, rfl⟩ := Option.map_eq_some_iff.mp hrewrap
        simp only [Flow.page, Flow.Carries, Move.tabs, Option.map_some, if_true, Option.getD_some,
          hdek]
        rfl
  | pair tab credentialId prfSalt userId =>
    simp only [Flow.next] at hnext
    split at hnext
    · obtain rfl := Option.some.inj hnext
      trivial
    · next wrapped hwrapped =>
      obtain rfl := Option.some.inj hnext
      obtain ⟨dek, hdek, rfl⟩ := Option.map_eq_some_iff.mp hwrapped
      simp [Flow.page, Flow.Carries, Move.tabs, WrapperRow.prf, hdek]
  | post tab enables req =>
    simp only [Flow.next] at hnext
    split_ifs at hnext <;> obtain rfl := Option.some.inj hnext
    · trivial
    · exact hcarries
  | pairOwned row userId =>
    simp only [Flow.next] at hnext
    split at hnext
    · obtain rfl := Option.some.inj hnext
      trivial
    · split_ifs at hnext <;> obtain rfl := Option.some.inj hnext
      · exact hcarries
      · trivial
  | pairDelete row =>
    simp only [Flow.next] at hnext
    split_ifs at hnext <;> obtain rfl := Option.some.inj hnext
    · exact hcarries
    · trivial
  | list sw =>
    obtain rfl := Option.some.inj hnext
    trivial
  | fetchZK sw id enc =>
    obtain rfl := Option.some.inj hnext
    dsimp only
    split_ifs <;> trivial
  | fetchOpen sw id enc =>
    simp only [Flow.next] at hnext
    split at hnext
    · split_ifs at hnext <;> obtain rfl := Option.some.inj hnext <;> trivial
    · obtain rfl := Option.some.inj hnext
      trivial
  | postEnable tab enables req wasOn =>
    simp only [Flow.next] at hnext
    split at hnext <;> obtain rfl := Option.some.inj hnext <;> trivial
  | postClear tab enables wasOn secrets =>
    obtain rfl := Option.some.inj hnext
    trivial
  | postStore tab enables secrets =>
    cases secrets <;> obtain rfl := Option.some.inj hnext <;> trivial
  | delete tab =>
    simp only [Flow.next] at hnext
    split at hnext <;> obtain rfl := Option.some.inj hnext <;> trivial
  | put id req =>
    obtain rfl := Option.some.inj hnext
    dsimp only
    split_ifs <;> trivial
  | putZK id req =>
    obtain rfl := Option.some.inj hnext
    dsimp only
    split_ifs <;> trivial
  | putSeal id req =>
    simp only [Flow.next] at hnext
    split at hnext <;> obtain rfl := Option.some.inj hnext <;> trivial
  | add row secret =>
    simp only [Flow.next] at hnext
    split_ifs at hnext <;> obtain rfl := Option.some.inj hnext <;> trivial
  | addZK id secret =>
    obtain rfl := Option.some.inj hnext
    dsimp only
    split_ifs <;> trivial
  | unpair credentialId userId =>
    simp only [Flow.next] at hnext
    split at hnext <;> obtain rfl := Option.some.inj hnext
    · trivial
    · dsimp only
      split_ifs <;> trivial
  | done => exact absurd hnext (by simp [Flow.next])
  | _ =>
    obtain rfl := Option.some.inj hnext
    trivial

/-- Every request carries the data key its page held, as the log has it. -/
def Carried (v : Site × DoorLog) : Prop :=
  ∀ (i : Nat) (f : Flow), v.1.flows[i]? = some f → f.Carries (v.2.held i)

theorem carried_step (h : Carried (y, l)) (hstep : y.step act = some y') :
    Carried (y', l.note y act) := by
  -- what is started has wrapped nothing yet
  have hstart : ∀ {f : Flow}, (∀ k, f.Carries k) → ∀ (i : Nat) (f' : Flow),
      (y.flows ++ [f])[i]? = some f' → f'.Carries (l.held i) := by
    intro f hf i f' hi
    rw [List.getElem?_append] at hi
    split_ifs at hi
    · exact h i f' hi
    · rw [List.getElem?_singleton] at hi
      split_ifs at hi
      obtain rfl := Option.some.inj hi
      exact hf _
  cases act with
  | step i o =>
    obtain ⟨m, hm, hy'⟩ := Option.map_eq_some_iff.mp hstep
    obtain ⟨f, hf, hnext⟩ := Option.bind_eq_some_iff.mp hm
    have hheld : (l.note y (.step i o)).held = match f.page with
        | some tab => Function.update l.held i (y'.tabs tab).dek
        | none => l.held := by
      simp only [DoorLog.note, hf, hstep, Option.bind_some]
      cases f.page <;> rfl
    have hcarries := carries_next (h i f hf) hnext
    intro j f' hj
    dsimp only
    rw [hheld]
    rw [← hy'] at hj ⊢
    rw [List.getElem?_set] at hj
    split_ifs at hj with hij
    · -- the page of the request itself
      obtain rfl := Option.some.inj hj
      subst hij
      cases hpage : f.page with
      | none =>
        rw [hpage] at hcarries
        exact hcarries
      | some tab =>
        rw [hpage] at hcarries
        simp only [Function.update_self]
        exact hcarries
    · have hold := h j f' hj
      cases f.page with
      | none => exact hold
      | some tab =>
        simp only [Function.update_of_ne (Ne.symm hij)]
        exact hold
  | load tab =>
    obtain rfl := Option.some.inj hstep
    exact h
  | lockTab tab =>
    obtain rfl := Option.some.inj hstep
    exact h
  | unlockTab tab passphrase =>
    simp only [Site.step, Option.ite_none_right_eq_some] at hstep
    obtain ⟨t, -, rfl⟩ := Option.map_eq_some_iff.mp hstep.2
    exact h
  | unlockWithKey tab credentialId =>
    obtain ⟨row, -, hrow⟩ := Option.bind_eq_some_iff.mp hstep
    obtain ⟨t, -, rfl⟩ := Option.map_eq_some_iff.mp hrow
    exact h
  | saveSecret tab id plaintext =>
    simp only [Site.step, Option.ite_none_left_eq_some] at hstep
    obtain ⟨req, -, rfl⟩ := Option.map_eq_some_iff.mp hstep.2
    exact hstart fun _ => trivial
  | pair tab credentialId prfSalt userId =>
    simp only [Site.step, Option.ite_none_right_eq_some, Option.some.injEq] at hstep
    obtain ⟨-, rfl⟩ := hstep
    exact hstart fun _ => trivial
  | _ =>
    obtain rfl := Option.some.inj hstep
    exact hstart fun _ => trivial

/-! ### Which keys are paired -/

theorem wrappers_disableZK (env : VaultEnv) (h : Host) :
    (h.disableZK env).1.store.wrappers = h.store.wrappers := by
  have hclear : ∀ s : Store,
      (if env.clearSecrets then s.clearAllSecrets else s).wrappers = s.wrappers := by
    intro s
    split_ifs <;> rfl
  unfold Host.disableZK
  dsimp only
  split <;> simp only [setMeta_wrappers, hclear]

theorem wrappers_enableZK (env : VaultEnv) (h : Host) (wrapped : Wrapped) (salt iters : String) :
    (h.enableZK env wrapped salt iters).1.store.wrappers = h.store.wrappers := by
  cases hok : env.setMeta .zkWrapped with
  | false => rw [enableZK_of_failed hok]
  | true => exact (enableZK_of_ok hok (h := h) wrapped salt iters).2.2.2.2

/-- A wrapper is left only of a key that is paired. -/
def Listed (v : Site × DoorLog) : Prop :=
  ∀ row ∈ v.1.host.store.wrappers, row.credentialId ∈ v.2.paired

theorem listed_step (h : Listed (y, l)) (hstep : y.step act = some y') :
    Listed (y', l.note y act) := by
  intro row hrow
  dsimp only [DoorLog.note] at hrow ⊢
  rw [Site.host_step hstep] at hrow
  cases heff : y.effect act with
  | insertWrapper new =>
    -- a key that gets a wrapper is paired
    rw [heff] at hrow
    rcases mem_insertVaultWrapper.mp hrow with hold | ⟨-, rfl⟩
    · exact List.mem_cons_of_mem _ (h row hold)
    · exact List.mem_cons_self
  | deleteWrapper credentialId =>
    rw [heff] at hrow
    obtain ⟨hold, hne⟩ := List.mem_filter.mp hrow
    exact List.mem_filter.mpr ⟨h row hold, hne⟩
  | deleteCredential id userId =>
    rw [heff] at hrow
    simp only [SiteEffect.apply, Store.deleteCredential] at hrow
    simp only [List.mem_filter, Store.removes]
    cases hcredential : y.host.store.credentials.get? id with
    | none =>
      rw [hcredential] at hrow
      exact ⟨h row hrow, rfl⟩
    | some r =>
      rw [hcredential] at hrow
      dsimp only at hrow
      split_ifs at hrow with hown
      · -- the wrapper of the credential goes with it
        obtain ⟨hold, hne⟩ := List.mem_filter.mp hrow
        have hother : ¬ r.credentialId = row.credentialId := fun heq => by simp [heq] at hne
        exact ⟨h row hold, by simp [hown, hother]⟩
      · exact ⟨h row hrow, by simp [hown]⟩
  | clearWrappers =>
    rw [heff] at hrow
    exact absurd hrow List.not_mem_nil
  | enableZK env keyring =>
    rw [heff, SiteEffect.apply, wrappers_enableZK] at hrow
    exact h row hrow
  | disableZK env =>
    rw [heff, SiteEffect.apply, wrappers_disableZK] at hrow
    exact h row hrow
  | setSecret id enc meant =>
    rw [heff, SiteEffect.apply, (getD_setSecret y.host.store id enc).2] at hrow
    exact h row hrow
  | _ =>
    rw [heff] at hrow
    exact h row hrow

/-! ### One room -/

/-- What holds throughout a run that is up to date. -/
structure OneRoom (v : Site × DoorLog) : Prop where
  door : SecondDoor v.1
  listed : Listed v
  carried : Carried v

/-- Only a request with a keyring puts one in place, and it puts that in place. -/
theorem payload_next {h : Host} {tabs : Nat → Tab} {env : VaultEnv} {keyring : ClientKeyring}
    (hcarries : f.Carries k) (hnext : f.next h tabs o = some m)
    (heff : m.effect = .enableZK env keyring) : keyring.wrapped.payload? = k := by
  cases f with
  | postEnable tab enables req wasOn =>
    simp only [Flow.next] at hnext
    split at hnext <;> obtain rfl := Option.some.inj hnext
    · obtain ⟨-, rfl⟩ := SiteEffect.enableZK.inj heff
      exact hcarries
    · obtain ⟨-, rfl⟩ := SiteEffect.enableZK.inj heff
      exact hcarries
  | postStore tab enables secrets => cases secrets <;> grind [Flow.next]
  | _ => grind [Flow.next]

/-- Only a request with a wrapper stores one, and it stores that. -/
theorem unwrap_next {h : Host} {tabs : Nat → Tab} (hcarries : f.Carries k)
    (hnext : f.next h tabs o = some m) (heff : m.effect = .insertWrapper row) :
    unwrapKey row.wrapped row.prf = k := by
  cases f with
  | pairInsert row' =>
    obtain rfl := Option.some.inj hnext
    dsimp only at heff
    split_ifs at heff
    obtain rfl := SiteEffect.insertWrapper.inj heff
    exact hcarries
  | postStore tab enables secrets => cases secrets <;> grind [Flow.next]
  | _ => grind [Flow.next]

/-- What is done on the server is done by a statement of something under way. -/
theorem exists_flow (hstep : y.step act = some y') (heff : y.effect act ≠ .nothing) :
    ∃ i o f m, act = .step i o ∧ y.flows[i]? = some f ∧ f.next y.host y.tabs o = some m ∧
      y.effect act = m.effect := by
  rcases Site.step_cases hstep with ⟨i, o, f, m, hact, hf, hnext, heff', -⟩ | ⟨-, hnothing, -⟩
  · exact ⟨i, o, f, m, hact, hf, hnext, heff'⟩
  · exact absurd hnothing heff

/-- Where no key is paired there is no wrapper, and where one is, the page of a keyring or of a new
wrapper held the current data key. -/
theorem secondDoor_step (h : OneRoom (y, l)) (hcurrent : UpToDate (y, l) act)
    (hstep : y.step act = some y') : SecondDoor y' := by
  have hhost := Site.host_step hstep
  have hdoor := h.door
  cases heff : y.effect act with
  | enableZK env keyring =>
    rw [heff, SiteEffect.apply] at hhost
    cases hok : env.setMeta .zkWrapped with
    | false =>
      rw [enableZK_of_failed hok] at hhost
      exact hdoor.apply .nothing hhost (by simp) (by simp) (List.Subset.refl _)
    | true =>
      obtain ⟨i, o, f, m, rfl, hf, hnext, heff'⟩ := exists_flow hstep (by simp [heff])
      obtain ⟨-, hzk, hwrapped, -, hwrappers⟩ := enableZK_of_ok hok (h := y.host) keyring.wrapped
        keyring.salt keyring.iters
      rw [secondDoor_iff, hhost, hzk, hwrappers, Keyring.dataKey, hwrapped, Option.bind_some]
      intro _ row hrow dek hunwrap
      -- there is a wrapper, so a key is paired, and the mode was on
      have hpaired : l.paired ≠ [] := List.ne_nil_of_mem (h.listed row hrow)
      simp only [UpToDate, heff] at hcurrent
      obtain ⟨hon, hheld⟩ := hcurrent hok hpaired
      rw [payload_next (h.carried i f hf) hnext (heff'.symm.trans heff), hheld]
      exact secondDoor_iff.mp hdoor hon row hrow dek hunwrap
  | insertWrapper row =>
    obtain ⟨i, o, f, m, rfl, hf, hnext, heff'⟩ := exists_flow hstep (by simp [heff])
    rw [heff, SiteEffect.apply] at hhost
    rw [secondDoor_iff, hhost]
    simp only [keyring_insertVaultWrapper]
    simp only [UpToDate, heff] at hcurrent
    intro hzk row' hmem dek hunwrap
    rcases mem_insertVaultWrapper.mp hmem with hold | ⟨htakes, rfl⟩
    · exact secondDoor_iff.mp hdoor hzk row' hold dek hunwrap
    · -- the new wrapper holds what its page held, and that is current
      have hheld := unwrap_next (h.carried i f hf) hnext (heff'.symm.trans heff)
      exact (hcurrent hzk htakes).symm.trans (hheld.symm.trans hunwrap)
  | disableZK env =>
    -- the door is only there while the mode is on
    intro hon
    rw [hhost, heff, SiteEffect.apply, zk_disableZK] at hon
    exact absurd hon (by simp)
  | deleteCredential id userId =>
    rw [heff] at hhost
    exact hdoor.apply _ hhost (by simp) (by simp) (deleteCredential_eq _ id userId).2.2
  | setSecret id enc meant =>
    rw [heff] at hhost
    refine hdoor.apply _ hhost (by simp) (by simp) ?_
    rw [SiteEffect.apply, (getD_setSecret y.host.store id enc).2]
    exact List.Subset.refl _
  | clearWrappers =>
    rw [heff] at hhost
    exact hdoor.apply _ hhost (by simp) (by simp) (List.nil_subset _)
  | deleteWrapper credentialId =>
    rw [heff] at hhost
    exact hdoor.apply _ hhost (by simp) (by simp) fun _ hw => List.mem_of_mem_filter hw
  | _ =>
    rw [heff] at hhost
    exact hdoor.apply _ hhost (by simp) (by simp) (List.Subset.refl _)

theorem oneRoom_step (h : OneRoom (y, l)) (hcurrent : UpToDate (y, l) act)
    (hstep : y.step act = some y') : OneRoom (y', l.note y act) where
  door := secondDoor_step h hcurrent hstep
  listed := listed_step h.listed hstep
  carried := carried_step h.carried hstep

/-- A site where nothing is under way; the keys that have a wrapper count as paired. -/
def DoorLog.start (s : Store) : DoorLog := { paired := s.wrappers.map WrapperRow.credentialId }

/-- Over any interleaving of what browsers and the server do, failed statements included, a
security key unlocks the data key of the keyring or nothing at all, in runs in which zero-knowledge
mode is switched on only when the wrappers were cleared or every paired key was unpaired or
removed, and in which only pages that hold the current data key rotate the passphrase or pair a key
while the mode is on. -/
theorem second_door_kept (s : Store) (v : Vault) (file : KeyFile) (acts : List WebAct)
    (hcurrent : Meets doorStep UpToDate (Site.idle s v file, DoorLog.start s) acts) :
    Always Site.step SecondDoor (Site.idle s v file) acts := by
  have hstart : OneRoom (Site.idle s v file, DoorLog.start s) :=
    { door := fun hzk => absurd hzk (by simp [Site.idle])
      listed := fun row hrow => List.mem_map_of_mem hrow
      carried := fun _ _ hi => absurd hi (by simp [Site.idle]) }
  have hall : Always doorStep OneRoom (Site.idle s v file, DoorLog.start s) acts := by
    refine always_of_meets hstart ?_ hcurrent
    rintro ⟨y, l⟩ act ⟨y', l'⟩ hroom hcurrent hstep
    obtain ⟨y'', hstep', heq⟩ := Option.map_eq_some_iff.mp hstep
    obtain ⟨rfl, rfl⟩ := Prod.mk.inj heq
    exact oneRoom_step hroom hcurrent hstep'
  exact (always_watch _ _).mp (hall.mono fun v hv => hv.door)

/-- A switch to zero-knowledge mode on a site without secrets, taken as the `i`-th thing
under way; the last of its statements but one clears the wrappers. -/
def switchOn (i : Nat) (passphrase : String) (n : Nat) (cleared : Outcome) : List WebAct :=
  [.enableZK 0 passphrase "salt" n, .step i .smooth, .step i .smooth, .step i .smooth,
    .step i .smooth, .step i cleared, .step i .smooth]

/-- A security key is paired, taken as the `i`-th thing under way. -/
def pairKey (i : Nat) : List WebAct :=
  [.pair 0 "cred" "prf" 1, .step i .smooth, .step i .smooth, .step i .smooth, .step i .smooth]

/-- A security key is paired; the mode is switched off and on again, the key is paired anew, and
the passphrase is changed. -/
def pairedAnew : List WebAct :=
  switchOn 0 "the first" 0 .smooth ++ pairKey 1 ++
    [.disableZK 0, .step 2 .smooth, .step 2 .smooth] ++ switchOn 3 "the second" 1 .smooth ++
      pairKey 4 ++ [.changeZK 0 "" "the third" "salt", .step 5 .smooth, .step 5 .smooth,
        .step 5 .smooth, .step 5 .smooth, .step 5 .smooth]

/-- A site with one security key. -/
def oneKey : Store :=
  { credentials := Table.empty.insert { userId := 1, credentialId := "cred" } }

theorem second_door_demo : Always Site.step SecondDoor (Site.idle oneKey {} none) pairedAnew :=
  second_door_kept oneKey {} none pairedAnew (by decide)

/-- A security key is paired; the mode is switched off and on again, and both times the
wrappers cannot be cleared. -/
def keptWrapper : List WebAct :=
  switchOn 0 "the first" 0 .smooth ++ pairKey 1 ++
    [.disableZK 0, .step 2 .smooth, .step 2 .failed] ++ switchOn 3 "the second" 1 .failed

/-- The security key opens the vault with the data key of before. -/
theorem other_room : ¬ ∀ s v file acts, Always Site.step SecondDoor (Site.idle s v file) acts := by
  intro h
  have hend : (run Site.step (Site.idle oneKey {} none) keptWrapper).map (fun y =>
      (y.host.vault.zk, y.host.store.keyring.dataKey, y.host.store.wrappers)) =
      some (true, some (.drawn 1),
        [⟨"cred", wrapKey (.drawn 0) (.fromPRF "cred" "prf"), "prf"⟩]) := by decide
  obtain ⟨y, hrun, hy⟩ := Option.map_eq_some_iff.mp hend
  obtain ⟨hzk, hdataKey, hwrappers⟩ : _ ∧ _ ∧ _ := by simpa only [Prod.mk.injEq] using hy
  have hdoor := h oneKey {} none keptWrapper keptWrapper y (List.prefix_refl _) hrun hzk _
    (hwrappers ▸ List.mem_singleton_self _) {} { dek := some (.drawn 0) } (by decide)
  rw [hdataKey] at hdoor
  exact absurd hdoor (by decide)

end CertGuard
