import CertGuard.Server.Sessions

/-!
# Writes of a keyring

A keyring is stored in several rows, and every row is written by a statement of its own.
The process can stop between two of them, and any of them can fail; `persist` gives up at
the first that fails, `enableZK` and `newVault` go on. What is then stored is what the next
start, or the next browser, has to get a data key from.

## Main definitions

* `MetaWrite`, `landed` — a statement on `meta`, and the rows after some of them
* `Keyring.opens` — the data key a credential gives
* `KeyringCall` — the calls that replace a keyring, with `resting` for the rows they leave
* `newVaultWrites` — the statements `newVault` runs

## Main results

* `opens_material`, `opens_passphrase`, `opens_zkPassphrase` — the readers of the rows
* `resting_of_returned` — calls that run to their end leave what the vault's methods leave
* `all_or_nothing_iff` — when a keyring survives its replacement
* `starts_safely_iff` — when a start keeps the keyring there is
-/

namespace CertGuard

/-! ### Statements on `meta` -/

/-- A statement on a row of `meta`. -/
structure MetaWrite where
  key : MetaKey
  update : Keyring → Keyring

/-- The rows after statements that all took effect. -/
def landed (writes : List MetaWrite) (k : Keyring) : Keyring :=
  writes.foldl (fun k w => w.update k) k

/-- The statements of `persist`, and of the end of `newVault`. -/
def persistWrites (mode : VaultMode) (salt : Option Salt) (wrapped : Wrapped) : List MetaWrite :=
  [⟨.mode, fun k => { k with mode := some mode }⟩, ⟨.salt, fun k => { k with salt := some salt }⟩,
    ⟨.wrapped, fun k => { k with wrapped := some wrapped }⟩]

/-- The statements of `enableZK`. -/
def enableZKWrites (wrapped : Wrapped) (salt iters : String) : List MetaWrite :=
  [⟨.zkWrapped, fun k => { k with zkWrapped := some wrapped }⟩,
    ⟨.zkSalt, fun k => { k with zkSalt := some salt }⟩,
    ⟨.zkIters, fun k => { k with zkIters := some iters }⟩,
    ⟨.wrapped, fun k => { k with wrapped := some Sealed.empty }⟩,
    ⟨.mode, fun k => { k with mode := some .unset }⟩,
    ⟨.salt, fun k => { k with salt := some none }⟩]

/-! ### Readers -/

/-- What a data key is unwrapped with. -/
inductive Credential
  /-- The operator material. -/
  | material (m : List Char)
  /-- The passphrase of the server's vault. -/
  | passphrase (p : String)
  /-- The passphrase of zero-knowledge mode. -/
  | zkPassphrase (p : String)
  deriving DecidableEq, Repr

/-- The data key a credential gives, as the rows are read. -/
def Keyring.opens (k : Keyring) (c : Credential) : Option Key :=
  if k.zkWrapped.getD Sealed.empty ≠ Sealed.empty then
    match c with
    | .zkPassphrase p =>
      unwrapKey (k.zkWrapped.getD Sealed.empty)
        (.derived p (k.zkSalt.getD "") (ZK.iterations (k.zkIters.getD "")))
    | _ => none
  else
    match c with
    | .material m =>
      if k.mode.getD .unset = .auto ∧ m ≠ [] then
        unwrapKey (k.wrapped.getD Sealed.empty) (.fromString m)
      else none
    | .passphrase p =>
      if k.mode.getD .unset = .passphrase then
        unwrapKey (k.wrapped.getD Sealed.empty) (.fromPassphrase p (k.salt.getD none))
      else none
    | .zkPassphrase _ => none

variable {s : Store} {k : Keyring} {fresh : FreshKey} {salt : Salt} {master : List Char}
variable {file : KeyFile} {env : VaultEnv} {h : Host} {dek dek' : Key} {old new : Credential}

/-- A start with operator material in auto mode ends up with what the material opens. -/
theorem opens_material (hzk : s.keyring.zkWrapped.getD Sealed.empty = Sealed.empty)
    (hwrapped : s.keyring.wrapped.getD Sealed.empty ≠ Sealed.empty)
    (hmode : s.keyring.mode = some .auto) (hmaster : master ≠ []) :
    (newVault (.smooth fresh salt) master s file).vault.box =
      s.keyring.opens (.material master) := by
  have hresolve : resolveMaterial (.smooth fresh salt) master file = (master, file) :=
    resolveMaterial_of_ne hmaster
  simp only [VaultEnv.smooth] at hresolve
  simp only [newVault, VaultEnv.smooth, readMeta_true, hzk, ne_eq, not_true, if_false, hwrapped,
    not_false_iff, if_true, hmode, Option.getD_some, hresolve, Keyring.opens, hmaster]
  cases unwrapKey (s.keyring.wrapped.getD Sealed.empty) (.fromString master) <;> rfl

/-- Unlocking after a start in passphrase mode ends up with what the passphrase opens. -/
theorem opens_passphrase (hzk : s.keyring.zkWrapped.getD Sealed.empty = Sealed.empty)
    (hwrapped : s.keyring.wrapped.getD Sealed.empty ≠ Sealed.empty)
    (hmode : s.keyring.mode = some .passphrase) (p : String) :
    ((newVault (.smooth fresh salt) master s file).unlock p).1.vault.box =
      s.keyring.opens (.passphrase p) := by
  simp only [newVault, VaultEnv.smooth, readMeta_true, hzk, ne_eq, not_true, if_false, hwrapped,
    not_false_iff, if_true, hmode, Option.getD_some, Keyring.opens, Host.unlock, reduceCtorEq,
    Option.isSome_none, Bool.false_eq_true, Bool.true_eq_false]
  cases unwrapKey (s.keyring.wrapped.getD Sealed.empty)
    (.fromPassphrase p (s.keyring.salt.getD none)) <;> rfl

/-- A page in zero-knowledge mode ends up with what its passphrase opens. -/
theorem opens_zkPassphrase (hzk : h.store.keyring.zkWrapped.getD Sealed.empty ≠ Sealed.empty)
    (p : String) :
    (ZK.unlock {} p h.zkKeyring).bind Tab.dek = h.store.keyring.opens (.zkPassphrase p) := by
  simp only [ZK.unlock, Host.zkKeyring, Keyring.opens, ne_eq, hzk, not_false_iff, if_true]
  cases unwrapKey (h.store.keyring.zkWrapped.getD Sealed.empty) (.derived p
    (h.store.keyring.zkSalt.getD "") (ZK.iterations (h.store.keyring.zkIters.getD ""))) <;> rfl

/-! ### Calls that replace a keyring -/

/-- What `setPassphrase` has `persist` store, unless it fails before. -/
def Host.passphraseKeyring (env : VaultEnv) (h : Host) (currentPass newPass : String) :
    Option (VaultMode × Option Salt × Wrapped) :=
  if h.vault.box = none then none
  else if h.vault.mode = .passphrase ∧ newPass ≠ "" ∧
      unwrapKey h.vault.wrapped (.fromPassphrase currentPass h.vault.salt) = none then none
  else if newPass = "" then
    (loadOrCreateKey h.keyFile env.fresh env.written).1.map fun material =>
      (.auto, none, wrapKey h.vault.dek (.fromString material))
  else
    some (.passphrase, some env.salt, wrapKey h.vault.dek (.fromPassphrase newPass (some env.salt)))

/-- A call that replaces a keyring. -/
inductive KeyringCall
  | setPassphrase (currentPass newPass : String)
  | enableZK (wrapped : Wrapped) (salt iters : String)
  deriving DecidableEq, Repr

namespace KeyringCall

/-- The call as a method of the vault. -/
def run (env : VaultEnv) (h : Host) : KeyringCall → Host × Option VaultError
  | setPassphrase currentPass newPass => h.setPassphrase env currentPass newPass
  | enableZK wrapped salt iters => h.enableZK env wrapped salt iters

/-- The rows after the first `n` statements of a call, or after fewer where it gives up. -/
def resting (env : VaultEnv) (h : Host) (n : Nat) : KeyringCall → Keyring
  | setPassphrase currentPass newPass =>
    match h.passphraseKeyring env currentPass newPass with
    | none => h.store.keyring
    | some (mode, salt, wrapped) =>
      landed (((persistWrites mode salt wrapped).take n).takeWhile fun w => env.setMeta w.key)
        h.store.keyring
  | enableZK wrapped salt iters =>
    if env.setMeta .zkWrapped then
      landed (((enableZKWrites wrapped salt iters).take n).filter fun w => env.setMeta w.key)
        h.store.keyring
    else h.store.keyring

/-- The rows a call is to leave. -/
def given (env : VaultEnv) (h : Host) : KeyringCall → Keyring
  | setPassphrase currentPass newPass =>
    match h.passphraseKeyring env currentPass newPass with
    | none => h.store.keyring
    | some (mode, salt, wrapped) => landed (persistWrites mode salt wrapped) h.store.keyring
  | enableZK wrapped salt iters => landed (enableZKWrites wrapped salt iters) h.store.keyring

/-- The rows are the ones the call was given. -/
def Stored (env : VaultEnv) (h : Host) (k : Keyring) : KeyringCall → Prop
  | setPassphrase currentPass newPass =>
    ∀ mode salt wrapped,
      h.passphraseKeyring env currentPass newPass = some (mode, salt, wrapped) →
        k.mode.getD .unset = mode ∧ k.salt.getD none = salt ∧ k.wrapped.getD Sealed.empty = wrapped
  | enableZK wrapped salt iters =>
    k.zkWrapped.getD Sealed.empty = wrapped ∧ k.zkSalt.getD "" = salt ∧ k.zkIters.getD "" = iters

end KeyringCall

/-- After the first `n` statements of a call, or where it gave up, the rows give the old
data key for the old credential or the new one for the new credential; and a call that ran
to its end and reports no error left the rows it was given. -/
def AllOrNothing (env : VaultEnv) (h : Host) (n : Nat) (call : KeyringCall)
    (old new : Credential) : Prop :=
  ((call.resting env h n).opens old = h.store.keyring.opens old ∨
      (call.resting env h n).opens new = (call.given env h).opens new) ∧
    (6 ≤ n → (call.run env h).2 = none → call.Stored env h (call.resting env h n))

/-- The `i`-th statement of a call is reached and does not fail. -/
def lands (env : VaultEnv) (n i : Nat) (key : MetaKey) : Bool := decide (i < n) && env.setMeta key

/-- What has to land together: in passphrase mode the wrapped key with its mode and its
salt, unless these are the ones stored; in zero-knowledge mode the salt and the iterations
with the wrapped key, likewise. -/
def WritesTogether (env : VaultEnv) (h : Host) (n : Nat) : KeyringCall → Prop
  | .setPassphrase currentPass newPass =>
    ∀ mode salt wrapped,
      h.passphraseKeyring env currentPass newPass = some (mode, salt, wrapped) →
        h.store.keyring.zkWrapped.getD Sealed.empty ≠ Sealed.empty ∨
          (lands env n 0 .mode && lands env n 1 .salt && lands env n 2 .wrapped) = true ∨
          (lands env n 0 .mode = true → h.store.keyring.mode.getD .unset = mode) ∧
            ((lands env n 0 .mode && lands env n 1 .salt) = true →
              mode = .auto ∨ h.store.keyring.salt.getD none = salt)
  | .enableZK _ salt iters =>
    lands env n 0 .zkWrapped = true →
      (lands env n 1 .zkSalt = true ∨ h.store.keyring.zkSalt.getD "" = salt) ∧
        (lands env n 2 .zkIters = true ∨
          ZK.iterations (h.store.keyring.zkIters.getD "") = ZK.iterations iters) ∧
        (6 ≤ n → env.setMeta .zkIters = true ∨ h.store.keyring.zkIters.getD "" = iters)

theorem persist_eq (env : VaultEnv) (h : Host) (mode : VaultMode) (salt : Option Salt)
    (wrapped : Wrapped) :
    (Host.persist env h mode salt wrapped).1.store.keyring =
        landed ((persistWrites mode salt wrapped).takeWhile fun w => env.setMeta w.key)
          h.store.keyring ∧
      ((Host.persist env h mode salt wrapped).2 = none ↔
        env.setMeta .mode = true ∧ env.setMeta .salt = true ∧ env.setMeta .wrapped = true) := by
  unfold Host.persist
  cases hmode : env.setMeta .mode with
  | false => simp [persistWrites, landed, hmode]
  | true =>
    cases hsalt : env.setMeta .salt with
    | false => simp [persistWrites, landed, hmode, hsalt]
    | true => cases hwrapped : env.setMeta .wrapped <;>
        simp [persistWrites, landed, hmode, hsalt, hwrapped]

/-- `setPassphrase` fails before anything is written, or does what `persist` does. -/
theorem setPassphrase_eq (env : VaultEnv) (h : Host) (currentPass newPass : String) :
    (h.passphraseKeyring env currentPass newPass = none ∧
        (h.setPassphrase env currentPass newPass).1.store = h.store ∧
        (h.setPassphrase env currentPass newPass).2 ≠ none) ∨
      ∃ mode salt wrapped file,
        h.passphraseKeyring env currentPass newPass = some (mode, salt, wrapped) ∧
        (h.setPassphrase env currentPass newPass).1.store.keyring =
          (Host.persist env { h with keyFile := file } mode salt wrapped).1.store.keyring ∧
        (h.setPassphrase env currentPass newPass).2 =
          (Host.persist env { h with keyFile := file } mode salt wrapped).2 := by
  unfold Host.setPassphrase Host.passphraseKeyring
  cases hbox : h.vault.box with
  | none => exact Or.inl ⟨rfl, rfl, by simp⟩
  | some dek =>
    simp only [reduceCtorEq, if_false]
    by_cases hwrong : h.vault.mode = .passphrase ∧ newPass ≠ "" ∧
        unwrapKey h.vault.wrapped (.fromPassphrase currentPass h.vault.salt) = none
    · rw [if_pos hwrong, if_pos hwrong]
      exact Or.inl ⟨rfl, rfl, by simp⟩
    rw [if_neg hwrong, if_neg hwrong]
    by_cases hnew : newPass = ""
    · rw [if_pos hnew, if_pos hnew]
      rcases hload : loadOrCreateKey h.keyFile env.fresh env.written with ⟨_ | material, file⟩
      · exact Or.inl ⟨rfl, rfl, by simp⟩
      · exact Or.inr ⟨_, _, _, file, rfl, rfl, rfl⟩
    · rw [if_neg hnew, if_neg hnew]
      refine Or.inr ⟨_, _, _, h.keyFile, rfl, ?_⟩
      -- taking the key file away changes no row
      rcases Host.persist env h .passphrase (some env.salt)
        (wrapKey h.vault.dek (.fromPassphrase newPass (some env.salt))) with ⟨h', _ | e⟩
      · dsimp only
        split_ifs <;> exact ⟨rfl, rfl⟩
      · exact ⟨rfl, rfl⟩

theorem enableZK_keyring (env : VaultEnv) (h : Host) (wrapped : Wrapped) (saltText iters : String)
    (hok : env.setMeta .zkWrapped = true) :
    (h.enableZK env wrapped saltText iters).1.store.keyring =
      landed ((enableZKWrites wrapped saltText iters).filter fun w => env.setMeta w.key)
        h.store.keyring := by
  rw [Host.enableZK, if_neg (by simp [hok])]
  simp only [landed, List.foldl_filter, enableZKWrites, List.foldl_cons, List.foldl_nil,
    keyring_setMeta, hok, if_true]

/-- A call whose last statement was reached leaves what the method leaves. -/
theorem resting_of_returned (env : VaultEnv) (h : Host) {n : Nat} (hn : 6 ≤ n)
    (call : KeyringCall) : call.resting env h n = (call.run env h).1.store.keyring := by
  cases call with
  | setPassphrase currentPass newPass =>
    rcases setPassphrase_eq env h currentPass newPass with
      ⟨hnone, hstore, -⟩ | ⟨mode, salt, wrapped, file, hsome, hstore, -⟩
    · simp only [KeyringCall.resting, KeyringCall.run, hnone, hstore]
    · -- all writes are reached
      have htake : (persistWrites mode salt wrapped).take n = persistWrites mode salt wrapped :=
        List.take_of_length_le (by
          simp only [persistWrites, List.length_cons, List.length_nil]
          omega)
      simp only [KeyringCall.resting, KeyringCall.run, hsome, hstore, htake]
      exact (persist_eq env { h with keyFile := file } mode salt wrapped).1.symm
  | enableZK wrapped saltText iters =>
    simp only [KeyringCall.resting, KeyringCall.run]
    cases hok : env.setMeta .zkWrapped with
    | false => rw [enableZK_of_failed hok, if_neg (by simp)]
    | true =>
      rw [enableZK_keyring env h wrapped saltText iters hok, if_pos rfl, List.take_of_length_le]
      simp only [enableZKWrites, List.length_cons, List.length_nil]
      omega

/-! ### Replacing a server keyring -/

/-- The rows after some of the statements of `persist`. -/
theorem landed_persist (env : VaultEnv) (n : Nat) (mode : VaultMode) (salt : Option Salt)
    (wrapped : Wrapped) (k : Keyring) :
    landed (((persistWrites mode salt wrapped).take n).takeWhile fun w => env.setMeta w.key) k =
      if lands env n 0 .mode && lands env n 1 .salt && lands env n 2 .wrapped then
        { k with mode := some mode, salt := some salt, wrapped := some wrapped }
      else if lands env n 0 .mode && lands env n 1 .salt then
        { k with mode := some mode, salt := some salt }
      else if lands env n 0 .mode then { k with mode := some mode }
      else k := by
  rcases n with _ | _ | _ | n <;> cases hmode : env.setMeta .mode <;>
    cases hsalt : env.setMeta .salt <;> cases hwrapped : env.setMeta .wrapped <;>
      simp [persistWrites, landed, lands, hmode, hsalt, hwrapped]

/-- What a credential opens outside zero-knowledge mode is wrapped under the key derived
from it, in the mode it belongs to. -/
theorem opens_eq_some_iff (hzk : k.zkWrapped.getD Sealed.empty = Sealed.empty) {c : Credential} :
    k.opens c = some dek ↔
      (∃ m, c = .material m ∧ m ≠ [] ∧ k.mode.getD .unset = .auto ∧
        k.wrapped.getD Sealed.empty = wrapKey dek (.fromString m)) ∨
      ∃ p, c = .passphrase p ∧ k.mode.getD .unset = .passphrase ∧
        k.wrapped.getD Sealed.empty = wrapKey dek (.fromPassphrase p (k.salt.getD none)) := by
  unfold Keyring.opens
  -- outside zero-knowledge mode the mode says what opens it
  rw [if_neg (not_not.mpr hzk)]
  cases c with
  | material m =>
    dsimp only
    split_ifs with hauto
    · simp [unwrapKey_eq_some_iff, hauto.1, hauto.2]
    · refine iff_of_false (by simp) ?_
      rintro (⟨m', heq, hne, hmode, -⟩ | ⟨p, heq, -⟩)
      · exact hauto ⟨hmode, Credential.material.inj heq ▸ hne⟩
      · exact absurd heq (by simp)
  | passphrase p =>
    dsimp only
    split_ifs with hpass
    · simp [unwrapKey_eq_some_iff, hpass]
    · simp [hpass]
  | zkPassphrase p => simp

/-- The wrapped key of one keyring with the mode, or in passphrase mode the salt, of another
opens with no credential at all. -/
theorem opens_mixed {mixed : Keyring} (hzk : k.zkWrapped.getD Sealed.empty = Sealed.empty)
    (hzk' : mixed.zkWrapped.getD Sealed.empty = Sealed.empty) (hold : k.opens old = some dek)
    (hwrapped : mixed.wrapped = k.wrapped)
    (hdiffers : k.mode.getD .unset ≠ mixed.mode.getD .unset ∨
      mixed.mode.getD .unset = .passphrase ∧ k.salt.getD none ≠ mixed.salt.getD none)
    (c : Credential) : mixed.opens c = none := by
  have hkek : ∀ {d d' kek kek'}, k.wrapped.getD Sealed.empty = wrapKey d kek →
      k.wrapped.getD Sealed.empty = wrapKey d' kek' → kek = kek' := fun h h' =>
    (Sealed.under.inj (h.symm.trans h')).1
  rw [opens_eq_some_iff hzk] at hold
  rw [Option.eq_none_iff_forall_ne_some]
  intro d hopen
  rw [opens_eq_some_iff hzk', hwrapped] at hopen
  -- what opens it would open a key wrapped by the old credential, under the new mode
  rcases hold with ⟨m, -, -, hauto, hw⟩ | ⟨p, -, hpass, hw⟩
  · rcases hopen with ⟨m', -, -, hmode', -⟩ | ⟨p', -, -, hw'⟩
    · rcases hdiffers with hne | ⟨hpass, -⟩
      · exact hne (hauto.trans hmode'.symm)
      · exact absurd (hmode'.symm.trans hpass) (by decide)
    · exact absurd (hkek hw hw') (by simp)
  · rcases hopen with ⟨m', -, -, -, hw'⟩ | ⟨p', -, hmode', hw'⟩
    · exact absurd (hkek hw hw') (by simp)
    · rcases hdiffers with hne | ⟨-, hne⟩
      · exact hne (hpass.trans hmode'.symm)
      · exact hne (Key.fromPassphrase.inj (hkek hw hw')).2

/-- Rows that agree where they are read open alike. -/
theorem opens_congr {k' : Keyring} (hzk : k.zkWrapped.getD Sealed.empty = Sealed.empty)
    (hzk' : k'.zkWrapped = k.zkWrapped) (hwrapped : k'.wrapped = k.wrapped)
    (hmode : k'.mode.getD .unset = k.mode.getD .unset)
    (hsalt : k.mode.getD .unset = .passphrase → k'.salt.getD none = k.salt.getD none)
    (c : Credential) : k'.opens c = k.opens c := by
  unfold Keyring.opens
  rw [hzk', if_neg (not_not.mpr hzk), if_neg (not_not.mpr hzk), hwrapped, hmode]
  cases c with
  | passphrase p =>
    dsimp only
    split_ifs with hpass
    · rw [hsalt hpass]
    · rfl
  | _ => rfl

/-- In zero-knowledge mode the server's rows are not read. -/
theorem opens_of_zk {k' : Keyring} (hzk : k.zkWrapped.getD Sealed.empty ≠ Sealed.empty)
    (hwrapped : k'.zkWrapped = k.zkWrapped) (hsalt : k'.zkSalt = k.zkSalt)
    (hiters : k'.zkIters = k.zkIters) (c : Credential) : k'.opens c = k.opens c := by
  unfold Keyring.opens
  rw [hwrapped, hsalt, hiters, if_pos hzk, if_pos hzk]

/-- The rows `persist` leaves open with one of the two credentials exactly if nothing is
mixed. -/
theorem persist_opens_iff (env : VaultEnv) {n : Nat} {mode : VaultMode} {salt : Option Salt}
    {wrapped : Wrapped} {given rows : Keyring}
    (hgiven : given = landed (persistWrites mode salt wrapped) k)
    (hrows : rows = landed (((persistWrites mode salt wrapped).take n).takeWhile fun w =>
      env.setMeta w.key) k)
    (hold : k.opens old = some dek) (hnew : given.opens new = some dek') :
    rows.opens old = k.opens old ∨ rows.opens new = given.opens new ↔
      k.zkWrapped.getD Sealed.empty ≠ Sealed.empty ∨
        (lands env n 0 .mode && lands env n 1 .salt && lands env n 2 .wrapped) = true ∨
        (lands env n 0 .mode = true → k.mode.getD .unset = mode) ∧
          ((lands env n 0 .mode && lands env n 1 .salt) = true →
            mode = .auto ∨ k.salt.getD none = salt) := by
  rw [landed_persist] at hrows
  subst hrows
  by_cases hzk : k.zkWrapped.getD Sealed.empty = Sealed.empty
  swap
  · refine iff_of_true (Or.inl ?_) (Or.inl hzk)
    split_ifs
    · refine opens_of_zk hzk ?_ ?_ ?_ old <;> rfl
    · refine opens_of_zk hzk ?_ ?_ ?_ old <;> rfl
    · refine opens_of_zk hzk ?_ ?_ ?_ old <;> rfl
    · rfl
  have hmixed : ∀ mixed : Keyring, mixed.zkWrapped = k.zkWrapped → mixed.wrapped = k.wrapped →
      (k.mode.getD .unset ≠ mixed.mode.getD .unset ∨ mixed.mode.getD .unset = .passphrase ∧
        k.salt.getD none ≠ mixed.salt.getD none) →
      ¬ (mixed.opens old = k.opens old ∨ mixed.opens new = given.opens new) := by
    intro mixed hzk' hwrapped hdiffers
    have hnone := opens_mixed hzk (hzk' ▸ hzk) hold hwrapped hdiffers
    rw [hold, hnew, hnone, hnone]
    simp
  simp only [hzk, ne_eq, not_true, false_or]
  cases hfirst : lands env n 0 .mode with
  | false => simp
  | true =>
    cases hsecond : lands env n 1 .salt with
    | false =>
      -- the mode alone landed
      simp only [Bool.and_false, Bool.false_and, Bool.false_eq_true, if_false, if_true, false_or,
        false_imp_iff, and_true, true_imp_iff]
      constructor
      · intro hopens
        by_contra hne
        refine absurd hopens (hmixed _ ?_ ?_ (Or.inl hne)) <;> rfl
      · intro hmode
        left
        refine opens_congr hzk ?_ ?_ ?_ ?_ old
        · rfl
        · rfl
        · exact hmode.symm
        · exact fun _ => rfl
    | true =>
      cases hthird : lands env n 2 .wrapped with
      | true => simp [hgiven, persistWrites, landed]
      | false =>
        -- the wrapped key is the old one
        simp only [Bool.and_false, Bool.and_true, Bool.false_eq_true, if_false, if_true, false_or,
          true_imp_iff]
        constructor
        · intro hopens
          by_contra hcond
          refine absurd hopens (hmixed _ rfl rfl ?_)
          rcases not_and_or.mp hcond with hne | hsalt
          · exact Or.inl hne
          · by_cases hmode : k.mode.getD .unset = mode
            · right
              obtain ⟨hauto, hne⟩ := not_or.mp hsalt
              refine ⟨?_, hne⟩
              rcases (opens_eq_some_iff hzk).mp hold with ⟨m, -, -, hstored, -⟩ | ⟨p, -, hstored, -⟩
              · exact absurd (hmode.symm.trans hstored) hauto
              · exact hmode.symm.trans hstored
            · exact Or.inl hmode
        · rintro ⟨hmode, hsalt⟩
          left
          refine opens_congr hzk ?_ ?_ ?_ (fun hpass => ?_) old
          · rfl
          · rfl
          · exact hmode.symm
          rcases hsalt with rfl | hsalt
          · exact absurd (hmode.symm.trans hpass) (by decide)
          · exact hsalt.symm

/-! ### Replacing a zero-knowledge keyring -/

theorem landed_filter_cons (ok : MetaWrite → Bool) (n : Nat) (w : MetaWrite)
    (ws : List MetaWrite) (k : Keyring) :
    landed (((w :: ws).take n).filter ok) k =
      landed ((ws.take (n - 1)).filter ok)
        (if (decide (0 < n) && ok w) = true then w.update k else k) := by
  cases n with
  | zero => simp
  | succ n =>
    rw [List.take_succ_cons, List.filter_cons]
    cases ok w <;> simp [landed]

/-- Statements on the server's rows leave the rows of zero-knowledge mode. -/
theorem zk_landed {ws : List MetaWrite} (hws : ∀ w ∈ ws, ∀ k : Keyring,
      (w.update k).zkWrapped = k.zkWrapped ∧ (w.update k).zkSalt = k.zkSalt ∧
        (w.update k).zkIters = k.zkIters) (k : Keyring) :
    (landed ws k).zkWrapped = k.zkWrapped ∧ (landed ws k).zkSalt = k.zkSalt ∧
      (landed ws k).zkIters = k.zkIters := by
  induction ws generalizing k with
  | nil => exact ⟨rfl, rfl, rfl⟩
  | cons w ws ih =>
    obtain ⟨hw, hsalt, hiters⟩ := hws w List.mem_cons_self k
    obtain ⟨hw', hsalt', hiters'⟩ :=
      ih (fun w' hw' => hws w' (List.mem_cons_of_mem _ hw')) (w.update k)
    exact ⟨hw'.trans hw, hsalt'.trans hsalt, hiters'.trans hiters⟩

/-- The rows after some of the statements of `enableZK`. -/
theorem landed_enableZK (env : VaultEnv) (n : Nat) (wrapped : Wrapped) (saltText iters : String)
    (k : Keyring) {rows : Keyring}
    (hrows : rows = landed (((enableZKWrites wrapped saltText iters).take n).filter fun w =>
      env.setMeta w.key) k) :
    rows.zkWrapped = (if lands env n 0 .zkWrapped then some wrapped else k.zkWrapped) ∧
      rows.zkSalt = (if lands env n 1 .zkSalt then some saltText else k.zkSalt) ∧
      rows.zkIters = if lands env n 2 .zkIters then some iters else k.zkIters := by
  have hone : decide (0 < n - 1) = decide (1 < n) := decide_eq_decide.mpr (by omega)
  have htwo : decide (0 < n - 1 - 1) = decide (2 < n) := decide_eq_decide.mpr (by omega)
  rw [enableZKWrites, landed_filter_cons, landed_filter_cons, landed_filter_cons, hone,
    htwo] at hrows
  subst hrows
  -- the three statements left are on the server's rows
  have hserver : ∀ w ∈ (([⟨.wrapped, fun k => { k with wrapped := some Sealed.empty }⟩,
      ⟨.mode, fun k => { k with mode := some .unset }⟩,
      ⟨.salt, fun k => { k with salt := some none }⟩] : List MetaWrite).take
        (n - 1 - 1 - 1)).filter (fun w => env.setMeta w.key), ∀ k : Keyring,
      (w.update k).zkWrapped = k.zkWrapped ∧ (w.update k).zkSalt = k.zkSalt ∧
        (w.update k).zkIters = k.zkIters := by
    intro w hw k
    have hmem := List.mem_of_mem_take (List.mem_of_mem_filter hw)
    simp only [List.mem_cons, List.not_mem_nil, or_false] at hmem
    rcases hmem with rfl | rfl | rfl <;> exact ⟨rfl, rfl, rfl⟩
  obtain ⟨hw, hsalt, hiters⟩ := zk_landed hserver _
  rw [hw, hsalt, hiters]
  simp only [lands, apply_ite Keyring.zkWrapped, apply_ite Keyring.zkSalt,
    apply_ite Keyring.zkIters, ite_self]
  exact ⟨rfl, rfl, rfl⟩

/-- What a zero-knowledge passphrase opens. -/
theorem opens_zk_eq_some_iff (hzk : k.zkWrapped.getD Sealed.empty ≠ Sealed.empty)
    {c : Credential} : k.opens c = some dek ↔
      ∃ p, c = .zkPassphrase p ∧ k.zkWrapped.getD Sealed.empty =
        wrapKey dek (.derived p (k.zkSalt.getD "") (ZK.iterations (k.zkIters.getD ""))) := by
  unfold Keyring.opens
  rw [if_pos hzk]
  cases c <;> simp [unwrapKey_eq_some_iff]

/-- The keyring `enableZK` leaves opens with one of the two credentials exactly if the salt
and the iterations are those of the wrapped key. -/
theorem enableZK_opens_iff {n : Nat} {wrapped : Wrapped} {saltText iters : String}
    {given rows : Keyring} (hgiven : given = landed (enableZKWrites wrapped saltText iters) k)
    (hrows : rows = landed (((enableZKWrites wrapped saltText iters).take n).filter fun w =>
      env.setMeta w.key) k)
    (hok : env.setMeta .zkWrapped = true) (hold : k.opens old = some dek)
    (hnew : given.opens new = some dek') :
    rows.opens old = k.opens old ∨ rows.opens new = given.opens new ↔
      (lands env n 0 .zkWrapped = true →
        (lands env n 1 .zkSalt = true ∨ k.zkSalt.getD "" = saltText) ∧
          (lands env n 2 .zkIters = true ∨
            ZK.iterations (k.zkIters.getD "") = ZK.iterations iters)) := by
  obtain ⟨hw, hsalt, hiters⟩ := landed_enableZK env n wrapped saltText iters k hrows
  cases hfirst : lands env n 0 .zkWrapped with
  | false =>
    -- nothing was reached
    have hzero : n = 0 := by simpa [lands, hok] using hfirst
    subst hzero
    exact iff_of_true (Or.inl (by rw [hrows]; rfl)) (by simp)
  | true =>
    rw [hfirst, if_pos rfl] at hw
    have hgivenw : given.zkWrapped = some wrapped := by rw [hgiven]; rfl
    have hgivens : given.zkSalt = some saltText := by rw [hgiven]; rfl
    have hgiveni : given.zkIters = some iters := by rw [hgiven]; rfl
    have hgivenserver : given.wrapped = some Sealed.empty := by rw [hgiven]; rfl
    have hne : wrapped ≠ Sealed.empty := by
      rintro rfl
      have hzk : given.zkWrapped.getD Sealed.empty = Sealed.empty := by rw [hgivenw]; rfl
      rcases (opens_eq_some_iff hzk).mp hnew with ⟨m, -, -, -, hwrap⟩ | ⟨p, -, -, hwrap⟩ <;>
        simp [hgivenserver, wrapKey, Sealed.empty] at hwrap
    have hzk : given.zkWrapped.getD Sealed.empty ≠ Sealed.empty := by rw [hgivenw]; exact hne
    have hzk' : rows.zkWrapped.getD Sealed.empty ≠ Sealed.empty := by rw [hw]; exact hne
    obtain ⟨p, rfl, hwrap⟩ := (opens_zk_eq_some_iff hzk).mp hnew
    rw [hgivenw, hgivens, hgiveni] at hwrap
    simp only [Option.getD_some] at hwrap
    have hread : ∀ c d, rows.opens c = some d →
        rows.zkSalt.getD "" = saltText ∧
          ZK.iterations (rows.zkIters.getD "") = ZK.iterations iters := by
      intro c d hopen
      obtain ⟨q, -, hwrap'⟩ := (opens_zk_eq_some_iff hzk').mp hopen
      rw [hw, Option.getD_some, hwrap] at hwrap'
      obtain ⟨-, hs, hi⟩ := Key.derived.inj (Sealed.under.inj hwrap').1
      exact ⟨hs.symm, hi.symm⟩
    have hcond : rows.zkSalt.getD "" = saltText ∧
        ZK.iterations (rows.zkIters.getD "") = ZK.iterations iters ↔
      (lands env n 1 .zkSalt = true ∨ k.zkSalt.getD "" = saltText) ∧
        (lands env n 2 .zkIters = true ∨
          ZK.iterations (k.zkIters.getD "") = ZK.iterations iters) := by
      rw [hsalt, hiters]
      refine and_congr ?_ ?_
      · cases lands env n 1 .zkSalt <;> simp
      · cases lands env n 2 .zkIters <;> simp
    rw [forall_prop_of_true rfl, ← hcond]
    constructor
    · rintro (hopen | hopen)
      · exact hread old dek (hopen.trans hold)
      · exact hread _ dek' (hopen.trans hnew)
    · rintro ⟨hs, hi⟩
      right
      rw [hnew, opens_zk_eq_some_iff hzk', hw]
      exact ⟨p, rfl, by rw [hs, hi]; exact hwrap⟩

/-! ### All or nothing -/

theorem allOrNothing_setPassphrase (env : VaultEnv) (h : Host) (n : Nat)
    (currentPass newPass : String) (hold : h.store.keyring.opens old = some dek)
    (hnew : ((KeyringCall.setPassphrase currentPass newPass).given env h).opens new = some dek') :
    AllOrNothing env h n (.setPassphrase currentPass newPass) old new ↔
      WritesTogether env h n (.setPassphrase currentPass newPass) := by
  rcases setPassphrase_eq env h currentPass newPass with
    ⟨hnone, -, hfailed⟩ | ⟨mode, salt, wrapped, file, hsome, -, hreturn⟩
  · -- nothing was written
    refine iff_of_true ⟨Or.inl ?_, fun _ hreturn => absurd hreturn hfailed⟩ ?_
    · simp only [KeyringCall.resting, hnone]
    · intro mode salt wrapped hsome
      rw [hnone] at hsome
      exact absurd hsome (by simp)
  · -- where all six writes are reached and return nil, each of the values is stored
    have hstored : 6 ≤ n → ((KeyringCall.setPassphrase currentPass newPass).run env h).2 = none →
        (KeyringCall.setPassphrase currentPass newPass).Stored env h
          ((KeyringCall.setPassphrase currentPass newPass).resting env h n) := by
      intro hn hnil mode' salt' wrapped' hsome'
      obtain ⟨rfl, rfl, rfl⟩ : mode = mode' ∧ salt = salt' ∧ wrapped = wrapped' := by
        simpa using hsome.symm.trans hsome'
      obtain ⟨hmode, hsalt, hwrapped⟩ := (persist_eq env { h with keyFile := file } mode salt
        wrapped).2.mp (hreturn.symm.trans hnil)
      have hall : ∀ i < 3, decide (i < n) = true := fun i hi => decide_eq_true (by omega)
      simp only [KeyringCall.resting, hsome, landed_persist, lands, hmode, hsalt, hwrapped,
        hall 0 (by omega), hall 1 (by omega), hall 2 (by omega), Bool.and_self, if_true,
        Option.getD_some, and_self]
    simp only [KeyringCall.given, hsome] at hnew
    have hopens := persist_opens_iff env (n := n) rfl rfl hold hnew
    rw [AllOrNothing, and_iff_left hstored]
    simp only [KeyringCall.resting, KeyringCall.given, hsome, WritesTogether, Option.some.injEq,
      Prod.mk.injEq]
    rw [hopens]
    constructor
    · rintro hcond mode' salt' wrapped' ⟨rfl, rfl, rfl⟩
      exact hcond
    · exact fun hcond => hcond mode salt wrapped ⟨rfl, rfl, rfl⟩

theorem allOrNothing_enableZK (env : VaultEnv) (h : Host) (n : Nat) (wrapped : Wrapped)
    (saltText iters : String) (hold : h.store.keyring.opens old = some dek)
    (hnew : ((KeyringCall.enableZK wrapped saltText iters).given env h).opens new = some dek') :
    AllOrNothing env h n (.enableZK wrapped saltText iters) old new ↔
      WritesTogether env h n (.enableZK wrapped saltText iters) := by
  cases hok : env.setMeta .zkWrapped with
  | false =>
    refine iff_of_true ⟨Or.inl ?_, fun _ hreturn => ?_⟩ fun hland => ?_
    · simp only [KeyringCall.resting, hok, Bool.false_eq_true, if_false]
    · simp [KeyringCall.run, enableZK_of_failed hok] at hreturn
    · simp [lands, hok] at hland
  | true =>
    -- the rows that land are those reached whose write succeeds
    have hrows : (KeyringCall.enableZK wrapped saltText iters).resting env h n =
        landed (((enableZKWrites wrapped saltText iters).take n).filter fun w =>
          env.setMeta w.key) h.store.keyring := by
      rw [KeyringCall.resting, if_pos hok]
    have hopens := enableZK_opens_iff rfl hrows hok hold hnew
    have hfields := landed_enableZK env n wrapped saltText iters h.store.keyring hrows
    have hnil : ((KeyringCall.enableZK wrapped saltText iters).run env h).2 = none :=
      (enableZK_of_ok hok _ _ _).1
    rw [AllOrNothing, KeyringCall.given, hopens, WritesTogether, KeyringCall.Stored]
    constructor
    · rintro ⟨hcond, hstored⟩ hland
      obtain ⟨hsalt, hiters⟩ := hcond hland
      refine ⟨hsalt, hiters, fun hn => ?_⟩
      have hexact := (hstored hn hnil).2.2
      rw [hfields.2.2] at hexact
      cases hset : env.setMeta .zkIters with
      | true => exact Or.inl rfl
      | false =>
        rw [lands, hset, Bool.and_false, if_neg (by decide)] at hexact
        exact Or.inr hexact
    · intro hcond
      refine ⟨fun hland => ⟨(hcond hland).1, (hcond hland).2.1⟩, fun hn _ => ?_⟩
      have hreach : ∀ i < 3, decide (i < n) = true := fun i hi => decide_eq_true (by omega)
      have hland : lands env n 0 .zkWrapped = true := by
        rw [lands, hreach 0 (by omega), hok, Bool.and_self]
      obtain ⟨hsalt, -, hiters⟩ := hcond hland
      rw [hfields.1, hfields.2.1, hfields.2.2, hland, if_pos rfl]
      refine ⟨rfl, ?_, ?_⟩
      · cases hset : lands env n 1 .zkSalt with
        | true => rfl
        | false => exact hsalt.resolve_left (by simp [hset])
      · cases hset : lands env n 2 .zkIters with
        | true => rfl
        | false =>
          rw [lands, hreach 2 (by omega), Bool.true_and] at hset
          exact (hiters hn).resolve_left (by simp [hset])

/-- For every state of the vault, every set of failing statements and every point where
the process stops: a call that replaces a keyring leaves rows that the old credential
opens as before or the new one as it is meant to, and where it reports no error the rows it
was given, exactly if the statements that belong together landed together. -/
theorem all_or_nothing_iff (env : VaultEnv) (h : Host) (n : Nat) (call : KeyringCall)
    (hold : h.store.keyring.opens old = some dek)
    (hnew : (call.given env h).opens new = some dek') :
    AllOrNothing env h n call old new ↔ WritesTogether env h n call := by
  cases call with
  | setPassphrase currentPass newPass =>
    exact allOrNothing_setPassphrase env h n currentPass newPass hold hnew
  | enableZK wrapped saltText iters =>
    exact allOrNothing_enableZK env h n wrapped saltText iters hold hnew

/-- A vault somebody unlocked with their passphrase. -/
def demoUnlocked : Host where
  vault :=
    { enabled := true
      mode := .passphrase
      salt := some 0
      wrapped := wrapKey (.fromString ['k']) (.fromPassphrase "the first" (some 0))
      dek := .fromString ['k']
      box := some (.fromString ['k']) }
  store :=
    { keyring :=
        { mode := some .passphrase
          salt := some (some 0)
          wrapped := some (wrapKey (.fromString ['k']) (.fromPassphrase "the first" (some 0))) } }
  keyFile := none

theorem all_or_nothing_demo : AllOrNothing (.smooth demoFresh 1) demoUnlocked 6
    (.setPassphrase "the first" "the second") (.passphrase "the first")
    (.passphrase "the second") := by
  have hold : demoUnlocked.store.keyring.opens (.passphrase "the first") =
      some (.fromString ['k']) := by decide
  have hnew : (KeyringCall.given (.smooth demoFresh 1) demoUnlocked
      (.setPassphrase "the first" "the second")).opens (.passphrase "the second") =
        some (.fromString ['k']) := by decide
  exact (all_or_nothing_iff (.smooth demoFresh 1) demoUnlocked 6
    (.setPassphrase "the first" "the second") hold hnew).mpr fun _ _ _ _ => Or.inr (Or.inl rfl)

/-- The third of the three statements fails: the new salt is stored with the key wrapped
under the old one. -/
theorem salt_without_key : ¬ ∀ env h n call old new dek dek',
    h.store.keyring.opens old = some dek →
      (KeyringCall.given env h call).opens new = some dek' → AllOrNothing env h n call old new := by
  intro hall
  obtain ⟨hopen | hopen, -⟩ := hall
    { VaultEnv.smooth demoFresh 1 with setMeta := fun key => decide (key ≠ .wrapped) }
    demoUnlocked 6
    (.setPassphrase "the first" "the second") (.passphrase "the first") (.passphrase "the second")
    (.fromString ['k']) (.fromString ['k']) (by decide) (by decide)
  · exact absurd hopen (by decide)
  · exact absurd hopen (by decide)

/-! ### Starting -/

/-- The statements `newVault` runs on `meta`. -/
def newVaultWrites (env : VaultEnv) (master : List Char) (s : Store) (file : KeyFile) :
    List MetaWrite :=
  if readMeta (env.getMeta .zkWrapped) s.keyring.zkWrapped Sealed.empty ≠ Sealed.empty then []
  else if readMeta (env.getMeta .wrapped) s.keyring.wrapped Sealed.empty ≠ Sealed.empty then []
  else
    let material := (resolveMaterial env master file).1
    if material = [] then []
    else persistWrites .auto none (wrapKey (.fromString material) (.fromString material))

/-- They are all that `newVault` changes of the store. -/
theorem newVault_store (env : VaultEnv) (master : List Char) (s : Store) (file : KeyFile) :
    (newVault env master s file).store =
      { s with
        keyring := landed ((newVaultWrites env master s file).filter fun w => env.setMeta w.key)
          s.keyring } := by
  by_cases hzk : readMeta (env.getMeta .zkWrapped) s.keyring.zkWrapped Sealed.empty ≠ Sealed.empty
  · rw [newVault, if_pos hzk, newVaultWrites, if_pos hzk]
    rfl
  rw [newVault, if_neg hzk, newVaultWrites, if_neg hzk]
  dsimp only
  by_cases hwrapped : readMeta (env.getMeta .wrapped) s.keyring.wrapped Sealed.empty ≠ Sealed.empty
  · rw [if_pos hwrapped, if_pos hwrapped]
    split_ifs <;> rfl
  rw [if_neg hwrapped, if_neg hwrapped]
  by_cases hmaterial : (resolveMaterial env master file).1 = []
  · rw [if_pos hmaterial, if_pos hmaterial]
    rfl
  rw [if_neg hmaterial, if_neg hmaterial]
  -- a first start writes all three rows, as far as they land
  cases hmode : env.setMeta .mode <;> cases hsalt : env.setMeta .salt <;>
    cases hset : env.setMeta .wrapped <;>
      simp [persistWrites, landed, Store.setMeta, hmode, hsalt, hset]

/-- While a key is stored, of the server or of zero-knowledge mode, a start runs no
statement on `meta`. -/
def StartsSafely (env : VaultEnv) (master : List Char) (s : Store) (file : KeyFile) : Prop :=
  s.keyring.zkWrapped.getD Sealed.empty ≠ Sealed.empty ∨
      s.keyring.wrapped.getD Sealed.empty ≠ Sealed.empty →
    newVaultWrites env master s file = [] ∧ (newVault env master s file).store = s

/-- One of the keys there are is read, or there is no operator material. -/
def SeesKeyring (env : VaultEnv) (master : List Char) (s : Store) (file : KeyFile) : Prop :=
  s.keyring.zkWrapped.getD Sealed.empty = Sealed.empty ∧
      s.keyring.wrapped.getD Sealed.empty = Sealed.empty ∨
    env.getMeta .zkWrapped = true ∧ s.keyring.zkWrapped.getD Sealed.empty ≠ Sealed.empty ∨
      env.getMeta .wrapped = true ∧ s.keyring.wrapped.getD Sealed.empty ≠ Sealed.empty ∨
        (resolveMaterial env master file).1 = []

theorem readMeta_ne_iff {α : Type*} {ok : Bool} {row : Option α} {empty : α} :
    readMeta ok row empty ≠ empty ↔ ok = true ∧ row.getD empty ≠ empty := by
  cases ok <;> simp [readMeta]

/-- For every content of `meta` and every outcome of the reads: a start keeps the keyring
there is exactly if it gets to see it, or has no material to make another. -/
theorem starts_safely_iff (env : VaultEnv) (master : List Char) (s : Store) (file : KeyFile) :
    StartsSafely env master s file ↔ SeesKeyring env master s file := by
  -- what a start writes: nothing, unless no key is found and there is one to wrap
  have hwrites : newVaultWrites env master s file = [] ↔
      env.getMeta .zkWrapped = true ∧ s.keyring.zkWrapped.getD Sealed.empty ≠ Sealed.empty ∨
        env.getMeta .wrapped = true ∧ s.keyring.wrapped.getD Sealed.empty ≠ Sealed.empty ∨
          (resolveMaterial env master file).1 = [] := by
    rw [newVaultWrites, ← readMeta_ne_iff, ← readMeta_ne_iff]
    dsimp only
    split_ifs with hzk hwrapped hmaterial
    · simp [hzk]
    · simp [hwrapped]
    · simp [hmaterial]
    · simp [hzk, hwrapped, hmaterial, persistWrites]
  have hstore : newVaultWrites env master s file = [] →
      (newVault env master s file).store = s := by
    intro hnil
    rw [newVault_store, hnil]
    rfl
  unfold StartsSafely SeesKeyring
  rw [← hwrites]
  constructor
  · intro hsafe
    by_cases hkey : s.keyring.zkWrapped.getD Sealed.empty ≠ Sealed.empty ∨
        s.keyring.wrapped.getD Sealed.empty ≠ Sealed.empty
    · exact Or.inr (hsafe hkey).1
    · obtain ⟨hzk, hwrapped⟩ := not_or.mp hkey
      exact Or.inl ⟨not_not.mp hzk, not_not.mp hwrapped⟩
  · rintro (⟨hzk, hwrapped⟩ | hnil) hkey
    · exact absurd hkey (not_or.mpr ⟨not_not.mpr hzk, not_not.mpr hwrapped⟩)
    · exact ⟨hnil, hstore hnil⟩

/-- The one read that matters fails, and the only wrapped copy of the data key is
replaced. -/
theorem replaced_on_start : ¬ ∀ env master s file, StartsSafely env master s file := by
  intro hall
  obtain ⟨-, hstore⟩ := hall
    { VaultEnv.smooth demoFresh 0 with getMeta := fun key => decide (key ≠ .wrapped) } ['k']
    demoUnlocked.store none (Or.inr (by decide))
  exact absurd (congrArg (fun s => s.keyring.wrapped) hstore) (by decide)

end CertGuard
