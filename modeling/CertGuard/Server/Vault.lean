import CertGuard.Store.Secrets

/-!
# The vault

The data key that seals the secrets, and how it is kept. In auto mode it is wrapped under
operator material, in passphrase mode under a passphrase, and in zero-knowledge mode the
server has none. The vault is the object in memory, the rows of `meta` and the key file;
each can fail on its own.

## Main definitions

* `Vault`, `Host` — the vault in memory, and with what it is kept in
* `newVault`, `Host.unlock`, `Host.lock`, `Host.setPassphrase`, `Host.enableZK`,
  `Host.disableZK`, `Host.vaultSeal`, `Host.vaultOpen` — its operations
* `VaultEnv` — what an operation meets outside the program
* `vaultStep`, `hostStep` — runs of calls where everything succeeds, and runs in which
  statements may fail, the process is started again and secrets are stored

## Main results

* `newVault_of_first` — the first start
* `setPassphrase_cases`, `disableZK_smooth` — the ways to wrap the data key anew
-/

namespace CertGuard

/-- The vault in memory. -/
structure Vault where
  enabled : Bool := false
  zk : Bool := false
  mode : VaultMode := .unset
  salt : Option Salt := none
  wrapped : Wrapped := Sealed.empty
  dek : Key := .zero
  /-- The data key of the box, when there is one. -/
  box : Option Key := none
  deriving DecidableEq, Repr

/-- The vault with the tables and the key file it works on. -/
structure Host where
  vault : Vault
  store : Store
  keyFile : KeyFile

/-- The rows of `meta` by their keys. -/
inductive MetaKey
  | wrapped
  | salt
  | mode
  | zkWrapped
  | zkSalt
  | zkIters
  deriving DecidableEq, Repr

/-- What an operation meets: which statements succeed, whether the key file can be written
and removed, and the random bytes it draws. -/
structure VaultEnv where
  getMeta : MetaKey → Bool
  setMeta : MetaKey → Bool
  clearSecrets : Bool
  written : Bool
  removed : Bool
  fresh : FreshKey
  salt : Salt

/-- Everything succeeds. -/
def VaultEnv.smooth (fresh : FreshKey) (salt : Salt) : VaultEnv :=
  ⟨fun _ => true, fun _ => true, true, true, true, fresh, salt⟩

/-- Why an operation fails. -/
inductive VaultError
  | locked
  | notEnabled
  | autoUnlocks
  | incorrect
  | currentIncorrect
  | store
  | keyFile
  | decrypt
  deriving DecidableEq, Repr

/-- The text of an error; the database, the file system and the box have their own. -/
def VaultError.message : VaultError → Option String
  | locked => some "vault is locked"
  | notEnabled => some "vault not enabled"
  | autoUnlocks => some "vault auto-unlocks; no passphrase set"
  | incorrect => some "incorrect passphrase"
  | currentIncorrect => some "current passphrase is incorrect"
  | store => none
  | keyFile => none
  | decrypt => none

def Vault.setUnlocked (v : Vault) (dek : Key) : Vault := { v with dek := dek, box := some dek }

/-- The operator material: the master key of the environment or, where it is empty, what is
in the key file; empty when there is none. -/
def resolveMaterial (env : VaultEnv) (master : List Char) (file : KeyFile) :
    List Char × KeyFile :=
  if master = [] then
    let loaded := loadOrCreateKey file env.fresh env.written
    (loaded.1.getD [], loaded.2)
  else (master, file)

/-- The vault at the start of the server: that of the keyring if there is one, and otherwise one
under the operator material, if there is any. -/
def newVault (env : VaultEnv) (master : List Char) (s : Store) (file : KeyFile) : Host :=
  if readMeta (env.getMeta .zkWrapped) s.keyring.zkWrapped Sealed.empty ≠ Sealed.empty then
    ⟨{ enabled := true, zk := true }, s, file⟩
  else
    let wrapped := readMeta (env.getMeta .wrapped) s.keyring.wrapped Sealed.empty
    if wrapped ≠ Sealed.empty then
      let v : Vault :=
        { enabled := true
          wrapped := wrapped
          mode := readMeta (env.getMeta .mode) s.keyring.mode .unset
          salt := readMeta (env.getMeta .salt) s.keyring.salt none }
      if v.mode = .auto then
        let material := resolveMaterial env master file
        let dek := if material.1 = [] then none
          else unwrapKey v.wrapped (.fromString material.1)
        ⟨(dek.map v.setUnlocked).getD v, s, material.2⟩
      else ⟨v, s, file⟩
    else
      let material := resolveMaterial env master file
      if material.1 = [] then ⟨{}, s, material.2⟩
      else
        -- the data key is the material's own key, which older installs sealed with
        let dek := Key.fromString material.1
        let wrapped := wrapKey dek dek
        let s := s.setMeta (env.setMeta .mode) fun k => { k with mode := some .auto }
        let s := s.setMeta (env.setMeta .salt) fun k => { k with salt := some none }
        let s := s.setMeta (env.setMeta .wrapped) fun k => { k with wrapped := some wrapped }
        let v : Vault := { enabled := true, mode := .auto, wrapped := wrapped }
        ⟨v.setUnlocked dek, s, material.2⟩

namespace Host

/-- `seal`: a secret under the data key, if the vault is open. -/
def vaultSeal (h : Host) (plaintext : String) : Except VaultError Cipher :=
  match h.vault.box with
  | some dek => .ok (boxSeal dek plaintext)
  | none => .error .locked

/-- `open`, of what was sealed. -/
def vaultOpen (h : Host) (enc : Cipher) : Except VaultError String :=
  match h.vault.box with
  | some dek =>
    match boxOpen dek enc with
    | some plaintext => .ok plaintext
    | none => .error .decrypt
  | none => .error .locked

/-- Opens the data key with the passphrase; a vault that is open stays open. -/
def unlock (h : Host) (passphrase : String) : Host × Option VaultError :=
  if h.vault.enabled = false then (h, some .notEnabled)
  else if h.vault.box.isSome then (h, none)
  else if h.vault.mode ≠ .passphrase then (h, some .autoUnlocks)
  else
    match unwrapKey h.vault.wrapped (.fromPassphrase passphrase h.vault.salt) with
    | none => (h, some .incorrect)
    | some dek => ({ h with vault := h.vault.setUnlocked dek }, none)

/-- Forgets the data key, in every mode. -/
def lock (h : Host) : Host := { h with vault := { h.vault with dek := .zero, box := none } }

/-- Writes the three rows of the keyring, and takes them over into memory once all are written. -/
def persist (env : VaultEnv) (h : Host) (mode : VaultMode) (salt : Option Salt)
    (wrapped : Wrapped) : Host × Option VaultError :=
  if env.setMeta .mode = false then (h, some .store)
  else
    let h := { h with store := h.store.setMeta true fun k => { k with mode := some mode } }
    if env.setMeta .salt = false then (h, some .store)
    else
      let h := { h with store := h.store.setMeta true fun k => { k with salt := some salt } }
      if env.setMeta .wrapped = false then (h, some .store)
      else
        let h :=
          { h with store := h.store.setMeta true fun k => { k with wrapped := some wrapped } }
        ({ h with vault := { h.vault with mode := mode, salt := salt, wrapped := wrapped } }, none)

/-- Puts the data key under a passphrase or, if the new one is empty, under the key file again. -/
def setPassphrase (env : VaultEnv) (h : Host) (currentPass newPass : String) :
    Host × Option VaultError :=
  match h.vault.box with
  | none => (h, some .locked)
  | some _ =>
    if h.vault.mode = .passphrase ∧ newPass ≠ "" ∧
        unwrapKey h.vault.wrapped (.fromPassphrase currentPass h.vault.salt) = none then
      (h, some .currentIncorrect)
    else if newPass = "" then
      match loadOrCreateKey h.keyFile env.fresh env.written with
      | (none, file) => ({ h with keyFile := file }, some .keyFile)
      | (some material, file) =>
        persist env { h with keyFile := file } .auto none
          (wrapKey h.vault.dek (.fromString material))
    else
      let persisted := persist env h .passphrase (some env.salt)
        (wrapKey h.vault.dek (.fromPassphrase newPass (some env.salt)))
      match persisted with
      | (h, some e) => (h, some e)
      | (h, none) => (if env.removed then { h with keyFile := none } else h, none)

/-- Takes the browser's keyring over and forgets the data key. Of the writes only the first may fail
the call. -/
def enableZK (env : VaultEnv) (h : Host) (wrapped : Wrapped) (salt iters : String) :
    Host × Option VaultError :=
  if env.setMeta .zkWrapped = false then (h, some .store)
  else
    let s := h.store.setMeta true fun k => { k with zkWrapped := some wrapped }
    let s := s.setMeta (env.setMeta .zkSalt) fun k => { k with zkSalt := some salt }
    let s := s.setMeta (env.setMeta .zkIters) fun k => { k with zkIters := some iters }
    let s := s.setMeta (env.setMeta .wrapped) fun k => { k with wrapped := some Sealed.empty }
    let s := s.setMeta (env.setMeta .mode) fun k => { k with mode := some .unset }
    let s := s.setMeta (env.setMeta .salt) fun k => { k with salt := some none }
    -- the mode, the salt and the wrapped key stay in memory
    ({ vault := { h.vault with enabled := true, zk := true, dek := .zero, box := none }
       store := s
       keyFile := if env.removed then none else h.keyFile }, none)

/-- Starts over under the key file, without the secrets sealed in the browser. -/
def disableZK (env : VaultEnv) (h : Host) : Host × Option VaultError :=
  let s := h.store.setMeta (env.setMeta .zkWrapped) fun k =>
    { k with zkWrapped := some Sealed.empty }
  let s := s.setMeta (env.setMeta .zkSalt) fun k => { k with zkSalt := some "" }
  let s := s.setMeta (env.setMeta .zkIters) fun k => { k with zkIters := some "" }
  let s := if env.clearSecrets then s.clearAllSecrets else s
  let v := { h.vault with zk := false }
  match loadOrCreateKey h.keyFile env.fresh env.written with
  | (none, file) => (⟨{ v with enabled := false }, s, file⟩, some .keyFile)
  | (some material, file) =>
    let dek := Key.fromString material
    let wrapped := wrapKey dek dek
    let s := s.setMeta (env.setMeta .mode) fun k => { k with mode := some .auto }
    let s := s.setMeta (env.setMeta .salt) fun k => { k with salt := some none }
    let s := s.setMeta (env.setMeta .wrapped) fun k => { k with wrapped := some wrapped }
    let v := { v with mode := .auto, wrapped := wrapped, enabled := true }
    (⟨v.setUnlocked dek, s, file⟩, none)

end Host

/-- A call on a vault. -/
inductive VaultOp
  | vaultSeal (plaintext : String)
  | unlock (passphrase : String)
  | lock
  | setPassphrase (currentPass newPass : String)
  | enableZK (wrapped : Wrapped) (salt iters : String)
  | disableZK
  deriving DecidableEq, Repr

/-- The vault after a call. -/
def Host.call (env : VaultEnv) (h : Host) : VaultOp → Host
  | .vaultSeal _ => h
  | .unlock passphrase => (h.unlock passphrase).1
  | .lock => h.lock
  | .setPassphrase currentPass newPass => (h.setPassphrase env currentPass newPass).1
  | .enableZK wrapped salt iters => (h.enableZK env wrapped salt iters).1
  | .disableZK => (h.disableZK env).1

/-- A call, with the random bytes it may draw. -/
structure VaultAct where
  fresh : FreshKey
  salt : Salt
  op : VaultOp

/-- What the call meets where everything succeeds. -/
def VaultAct.env (act : VaultAct) : VaultEnv := .smooth act.fresh act.salt

/-- Takes a call; none is refused. -/
def vaultStep (h : Host) (act : VaultAct) : Option Host := some (h.call act.env act.op)

/-- What happens to a host. -/
inductive HostAct
  | call (env : VaultEnv) (op : VaultOp)
  | restart (env : VaultEnv) (master : List Char)
  | setSecret (id : Int) (enc : Cipher)
  | addCert (row : CertRow)

/-- Takes a step; none is refused. -/
def hostStep (h : Host) : HostAct → Option Host
  | .call env op => some (h.call env op)
  | .restart env master => some (newVault env master h.store h.keyFile)
  | .setSecret id enc => some { h with store := (h.store.setSecret id enc).getD h.store }
  | .addCert row => some { h with store := h.store.addCert row }

/-- Random bytes that all came out as 0. -/
def demoFresh : FreshKey := ⟨List.replicate 32 0, rfl⟩

/-! ### Operator material -/

/-- Whatever happens, this is the operator material, and nothing needs to be written. -/
def Resolves (master : List Char) (file : KeyFile) (material : List Char) : Prop :=
  material ≠ [] ∧ ∀ env, resolveMaterial env master file = (material, file)

variable {master material : List Char} {file : KeyFile} {fresh : FreshKey} {salt : Salt}
variable {h : Host} {env : VaultEnv} {s : Store}

theorem exists_loadOrCreateKey (file : KeyFile) (fresh : FreshKey) :
    ∃ material, (loadOrCreateKey file fresh true).1 = some material := by
  cases file with
  | none => exact ⟨_, rfl⟩
  | some content =>
    by_cases hblank : trimSpace content ≠ []
    · exact ⟨trimSpace content, by simp only [loadOrCreateKey, if_pos hblank]⟩
    · exact ⟨hexEncode fresh, by simp [loadOrCreateKey, hblank, loadOrCreateKey.create]⟩

/-- The key file is the operator material once it was used, unless the environment has
another. -/
theorem resolves_of_load (hload : (loadOrCreateKey file fresh true).1 = some material)
    (hmaster : master = [] ∨ material = master) :
    Resolves master (loadOrCreateKey file fresh true).2 material := by
  refine ⟨loadOrCreateKey_ne_nil hload, fun env => ?_⟩
  unfold resolveMaterial
  by_cases hnil : master = []
  · simp only [if_pos hnil, loadOrCreateKey_again hload, Option.getD_some]
  · rw [if_neg hnil, hmaster.resolve_left hnil]

theorem resolves_of_resolve (hsucc : env.written = true) :
    Resolves master (resolveMaterial env master file).2 (resolveMaterial env master file).1 := by
  by_cases hnil : master = []
  · obtain ⟨material, hload⟩ := exists_loadOrCreateKey file env.fresh
    have hresolve : resolveMaterial env master file =
        (material, (loadOrCreateKey file env.fresh true).2) := by
      simp only [resolveMaterial, if_pos hnil, hsucc, hload, Option.getD_some]
    rw [hresolve]
    exact resolves_of_load hload (Or.inl hnil)
  · have hresolve : ∀ env file, resolveMaterial env master file = (master, file) :=
      fun env file => if_neg hnil
    rw [hresolve]
    exact ⟨hnil, fun env => hresolve env file⟩

theorem resolveMaterial_of_ne (hmaster : master ≠ []) :
    resolveMaterial env master file = (master, file) :=
  if_neg hmaster

/-! ### What the operations do where everything succeeds -/

/-- A start on a store without keyring rows. -/
theorem newVault_of_first (hfirst : s.keyring = {}) :
    newVault (.smooth fresh salt) master s file =
      let material := resolveMaterial (.smooth fresh salt) master file
      let dek := Key.fromString material.1
      ⟨{ enabled := true, mode := .auto, wrapped := wrapKey dek dek, dek := dek, box := some dek },
        { s with
          keyring := { mode := some .auto, salt := some none, wrapped := some (wrapKey dek dek) } },
        material.2⟩ := by
  have hne : (resolveMaterial (.smooth fresh salt) master file).1 ≠ [] :=
    (resolves_of_resolve rfl).1
  simp only [newVault, hfirst, VaultEnv.smooth, readMeta_true, Option.getD_none, ne_eq,
    not_true, if_false, setMeta_true, Vault.setUnlocked]
  exact if_neg hne

/-- The vault with its data key wrapped anew. -/
def Host.rewrapped (h : Host) (mode : VaultMode) (salt : Option Salt) (wrapped : Wrapped) :
    Host where
  vault := { h.vault with mode := mode, salt := salt, wrapped := wrapped }
  store := { h.store with
    keyring := { h.store.keyring with
      mode := some mode, salt := some salt, wrapped := some wrapped } }
  keyFile := h.keyFile

/-- What `setPassphrase` does: nothing, or it wraps the data key under the material in the
key file, or under the new passphrase. -/
theorem setPassphrase_cases (fresh : FreshKey) (salt : Salt) (h : Host)
    (currentPass newPass : String) :
    (∃ e, (h.vault.box = none ∨ newPass ≠ "") ∧
        h.setPassphrase (.smooth fresh salt) currentPass newPass = (h, some e)) ∨
      (∃ dek material, h.vault.box = some dek ∧ newPass = "" ∧
        (loadOrCreateKey h.keyFile fresh true).1 = some material ∧
        h.setPassphrase (.smooth fresh salt) currentPass newPass =
          (Host.rewrapped { h with keyFile := (loadOrCreateKey h.keyFile fresh true).2 } .auto none
            (wrapKey h.vault.dek (.fromString material)), none)) ∨
      ∃ dek, h.vault.box = some dek ∧ newPass ≠ "" ∧
        h.setPassphrase (.smooth fresh salt) currentPass newPass =
          (Host.rewrapped { h with keyFile := none } .passphrase (some salt)
            (wrapKey h.vault.dek (.fromPassphrase newPass (some salt))), none) := by
  unfold Host.setPassphrase
  cases hbox : h.vault.box with
  | none => exact Or.inl ⟨.locked, Or.inl rfl, rfl⟩
  | some dek =>
    simp only
    by_cases hwrong : h.vault.mode = .passphrase ∧ newPass ≠ "" ∧
        unwrapKey h.vault.wrapped (.fromPassphrase currentPass h.vault.salt) = none
    · exact Or.inl ⟨.currentIncorrect, Or.inr hwrong.2.1, if_pos hwrong⟩
    rw [if_neg hwrong]
    -- taking the passphrase away needs the key file, setting one removes it
    by_cases hnew : newPass = ""
    · obtain ⟨material, hload⟩ := exists_loadOrCreateKey h.keyFile fresh
      have hpair : loadOrCreateKey h.keyFile fresh true =
          (some material, (loadOrCreateKey h.keyFile fresh true).2) := Prod.ext hload rfl
      refine Or.inr (Or.inl ⟨dek, material, rfl, hnew, hload, ?_⟩)
      rw [if_pos hnew]
      simp only [VaultEnv.smooth]
      rw [hpair]
      rfl
    · exact Or.inr (Or.inr ⟨dek, rfl, hnew, if_neg hnew⟩)

/-- What `disableZK` leaves behind. -/
theorem disableZK_smooth (hload : (loadOrCreateKey h.keyFile fresh true).1 = some material) :
    h.disableZK (.smooth fresh salt) =
      (⟨{ h.vault with
          enabled := true
          zk := false
          mode := .auto
          wrapped := wrapKey (.fromString material) (.fromString material)
          dek := .fromString material
          box := some (.fromString material) },
        { h.store.clearAllSecrets with
          keyring :=
            { wrapped := some (wrapKey (.fromString material) (.fromString material))
              salt := some none
              mode := some .auto
              zkWrapped := some Sealed.empty
              zkSalt := some ""
              zkIters := some "" } },
        (loadOrCreateKey h.keyFile fresh true).2⟩, none) := by
  have hpair : loadOrCreateKey h.keyFile fresh true =
      (some material, (loadOrCreateKey h.keyFile fresh true).2) := Prod.ext hload rfl
  simp only [Host.disableZK, VaultEnv.smooth]
  rw [hpair]
  rfl

/-! ### Zero-knowledge mode -/

theorem zk_unlock (h : Host) (passphrase : String) :
    (h.unlock passphrase).1.vault.zk = h.vault.zk := by
  unfold Host.unlock
  split_ifs
  · rfl
  · rfl
  · rfl
  · cases unwrapKey h.vault.wrapped (.fromPassphrase passphrase h.vault.salt) <;> rfl

theorem zk_setPassphrase (h : Host) (currentPass newPass : String) :
    (h.setPassphrase (.smooth fresh salt) currentPass newPass).1.vault.zk = h.vault.zk := by
  rcases setPassphrase_cases fresh salt h currentPass newPass with
    ⟨e, -, heq⟩ | ⟨dek, material, -, -, -, heq⟩ | ⟨dek, -, -, heq⟩ <;> rw [heq] <;> rfl

/-- Only a row that is not empty makes a start a start in zero-knowledge mode. -/
theorem newVault_of_not_zk (fresh : FreshKey) (salt : Salt) (master : List Char) (file : KeyFile)
    (hzk : s.keyring.zkWrapped.getD Sealed.empty = Sealed.empty) :
    (newVault (.smooth fresh salt) master s file).vault.zk = false ∧
      (newVault (.smooth fresh salt) master s file).store.keyring.zkWrapped =
        s.keyring.zkWrapped := by
  have hoff : ¬ readMeta ((VaultEnv.smooth fresh salt).getMeta .zkWrapped) s.keyring.zkWrapped
      Sealed.empty ≠ Sealed.empty := not_not.mpr hzk
  generalize hstarted : newVault (.smooth fresh salt) master s file = started
  rw [newVault, if_neg hoff] at hstarted
  dsimp only at hstarted
  split_ifs at hstarted <;> subst hstarted
  · exact ⟨rfl, rfl⟩
  · -- unwrapping the data key or failing to changes neither
    refine ⟨?_, rfl⟩
    dsimp only
    generalize unwrapKey _ _ = unwrapped
    cases unwrapped <;> rfl
  · exact ⟨rfl, rfl⟩
  · exact ⟨rfl, rfl⟩
  · exact ⟨rfl, rfl⟩

/-- What `enableZK` does unless its first statement fails. -/
theorem enableZK_of_ok (hok : env.setMeta .zkWrapped = true) (wrapped : Wrapped)
    (saltText iters : String) :
    (h.enableZK env wrapped saltText iters).2 = none ∧
      (h.enableZK env wrapped saltText iters).1.vault.zk = true ∧
      (h.enableZK env wrapped saltText iters).1.store.keyring.zkWrapped = some wrapped ∧
      (h.enableZK env wrapped saltText iters).1.store.certs = h.store.certs ∧
      (h.enableZK env wrapped saltText iters).1.store.wrappers = h.store.wrappers := by
  have hkeep : ∀ (s : Store) (ok : Bool) (f : Keyring → Keyring),
      (∀ k, (f k).zkWrapped = k.zkWrapped) → s.keyring.zkWrapped = some wrapped →
        (s.setMeta ok f).keyring.zkWrapped = some wrapped :=
    fun s ok f hf hs => (setMeta_zkWrapped s ok hf).trans hs
  rw [Host.enableZK, if_neg (by simp [hok])]
  refine ⟨rfl, rfl, ?_, by simp, by simp⟩
  dsimp only
  -- the five statements that follow are on other rows
  iterate 5 refine hkeep _ _ _ (fun _ => rfl) ?_
  rfl

theorem enableZK_of_failed (hfailed : env.setMeta .zkWrapped = false) (wrapped : Wrapped)
    (saltText iters : String) :
    h.enableZK env wrapped saltText iters = (h, some .store) :=
  if_pos hfailed

/-- `disableZK` leaves zero-knowledge mode also when it fails. -/
theorem zk_disableZK (env : VaultEnv) (h : Host) : (h.disableZK env).1.vault.zk = false := by
  unfold Host.disableZK
  rcases loadOrCreateKey h.keyFile env.fresh env.written with ⟨_ | material, file⟩ <;> rfl

end CertGuard
