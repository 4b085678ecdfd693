import CertGuard.Lib.TransitionRun
import CertGuard.Server.Vault

/-!
# Leaving zero-knowledge mode

`disableZK` wipes the secrets, which the server cannot read, and makes a server keyring
anew. It does not ask whether the mode is on, and it wipes before it knows whether there is
material for a keyring.

## Main definitions

* `LeavesAlone` — what a `DELETE` of the keyring must leave
* `NothingToLose` — where it has nothing to take away

## Main results

* `leaves_alone_iff` — the `DELETE`s of a run leave what they must exactly if there is nothing
  to lose at each
* `wiped_by_delete` — a run in which there is
-/

namespace CertGuard

open Transition

/-- Every stored secret is what it was. -/
def SameSecrets (h h' : Host) : Prop := ∀ id, h'.store.secretEnc id = h.store.secretEnc id

/-- Outside zero-knowledge mode `disableZK` changes no secret, no row of the server keyring
and not the mode of the vault. In it, where it reports an error no secret is gone, unless
the mode was left and there is a server keyring that works. -/
def LeavesAlone (h : Host) : HostAct → Prop
  | .call env .disableZK =>
    (h.vault.zk = false →
      SameSecrets h (h.disableZK env).1 ∧
        (h.disableZK env).1.store.keyring.wrapped = h.store.keyring.wrapped ∧
        (h.disableZK env).1.store.keyring.salt = h.store.keyring.salt ∧
        (h.disableZK env).1.store.keyring.mode = h.store.keyring.mode ∧
        (h.disableZK env).1.vault.mode = h.vault.mode) ∧
    (h.vault.zk = true → (h.disableZK env).2 ≠ none →
      SameSecrets h (h.disableZK env).1 ∨
        (h.disableZK env).1.vault.zk = false ∧ (h.disableZK env).1.vault.enabled = true ∧
          (h.disableZK env).1.vault.box.isSome = true)
  | _ => True

/-- Wiping the secrets fails, or there are none. -/
def NoSecrets (env : VaultEnv) (h : Host) : Prop :=
  env.clearSecrets = false ∨ ∀ id, h.store.secretEnc id = Sealed.empty

/-- The rows of the server keyring and the mode are already what `disableZK` makes of them,
or it does not come to change them. -/
def SameKeyring (env : VaultEnv) (h : Host) : Prop :=
  ∀ material, (loadOrCreateKey h.keyFile env.fresh env.written).1 = some material →
    h.vault.mode = .auto ∧
      (env.setMeta .mode = true → h.store.keyring.mode = some .auto) ∧
      (env.setMeta .salt = true → h.store.keyring.salt = some none) ∧
      (env.setMeta .wrapped = true → h.store.keyring.wrapped =
        some (wrapKey (.fromString material) (.fromString material)))

/-- What `disableZK` must meet: outside zero-knowledge mode no secrets and the keyring it
makes; in it, no secrets, or the key file can be read or written. -/
def NothingToLose (h : Host) : HostAct → Prop
  | .call env .disableZK =>
    (h.vault.zk = false → NoSecrets env h ∧ SameKeyring env h) ∧
      (h.vault.zk = true → (loadOrCreateKey h.keyFile env.fresh env.written).1 = none →
        NoSecrets env h)
  | _ => True

variable {env : VaultEnv} {h : Host} {material : List Char}

/-! ### What `disableZK` does -/

theorem secretEnc_disableZK (env : VaultEnv) (h : Host) (id : Int) :
    (h.disableZK env).1.store.secretEnc id =
      if env.clearSecrets then Sealed.empty else h.store.secretEnc id := by
  unfold Host.disableZK
  rcases loadOrCreateKey h.keyFile env.fresh env.written with ⟨_ | material, file⟩
  · dsimp only
    split_ifs
    · exact secretEnc_clearAllSecrets _ id
    · simp only [secretEnc_setMeta]
  · simp only [secretEnc_setMeta]
    split_ifs
    · exact secretEnc_clearAllSecrets _ id
    · simp only [secretEnc_setMeta]

/-- Without material `disableZK` fails with no server keyring. -/
theorem disableZK_of_none (hload : (loadOrCreateKey h.keyFile env.fresh env.written).1 = none) :
    (h.disableZK env).2 = some .keyFile ∧ (h.disableZK env).1.vault.enabled = false ∧
      (h.disableZK env).1.vault.mode = h.vault.mode ∧
      (h.disableZK env).1.store.keyring.wrapped = h.store.keyring.wrapped ∧
      (h.disableZK env).1.store.keyring.salt = h.store.keyring.salt ∧
      (h.disableZK env).1.store.keyring.mode = h.store.keyring.mode := by
  have hpair : loadOrCreateKey h.keyFile env.fresh env.written =
      (none, (loadOrCreateKey h.keyFile env.fresh env.written).2) := Prod.ext hload rfl
  simp only [Host.disableZK]
  rw [hpair]
  refine ⟨rfl, rfl, rfl, ?_, ?_, ?_⟩ <;>
    simp only [apply_ite Store.keyring, keyring_clearAllSecrets, keyring_setMeta, ite_self,
      apply_ite Keyring.wrapped, apply_ite Keyring.salt, apply_ite Keyring.mode]

/-- With material it makes a keyring from it. -/
theorem disableZK_of_some
    (hload : (loadOrCreateKey h.keyFile env.fresh env.written).1 = some material) :
    (h.disableZK env).2 = none ∧ (h.disableZK env).1.vault.mode = .auto ∧
      (h.disableZK env).1.store.keyring.wrapped = (if env.setMeta .wrapped then
        some (wrapKey (.fromString material) (.fromString material))
        else h.store.keyring.wrapped) ∧
      (h.disableZK env).1.store.keyring.salt =
        (if env.setMeta .salt then some none else h.store.keyring.salt) ∧
      (h.disableZK env).1.store.keyring.mode =
        (if env.setMeta .mode then some .auto else h.store.keyring.mode) := by
  have hpair : loadOrCreateKey h.keyFile env.fresh env.written =
      (some material, (loadOrCreateKey h.keyFile env.fresh env.written).2) := Prod.ext hload rfl
  simp only [Host.disableZK]
  rw [hpair]
  refine ⟨rfl, rfl, ?_, ?_, ?_⟩ <;>
    simp only [apply_ite Store.keyring, keyring_clearAllSecrets, keyring_setMeta, ite_self,
      apply_ite Keyring.wrapped, apply_ite Keyring.salt, apply_ite Keyring.mode]

/-! ### The frame -/

theorem sameSecrets_iff : SameSecrets h (h.disableZK env).1 ↔ NoSecrets env h := by
  simp only [SameSecrets, secretEnc_disableZK, NoSecrets]
  cases env.clearSecrets with
  | false => simp
  | true => simp [eq_comm]

/-- The rows `disableZK` writes are the rows there were exactly if it finds them so. -/
theorem sameKeyring_of_some
    (hload : (loadOrCreateKey h.keyFile env.fresh env.written).1 = some material) :
    ((if env.setMeta .wrapped then some (wrapKey (.fromString material) (.fromString material))
          else h.store.keyring.wrapped) = h.store.keyring.wrapped ∧
        (if env.setMeta .salt then some none else h.store.keyring.salt) = h.store.keyring.salt ∧
        (if env.setMeta .mode then some .auto else h.store.keyring.mode) = h.store.keyring.mode ∧
        VaultMode.auto = h.vault.mode) ↔ SameKeyring env h := by
  simp only [ite_eq_right_iff]
  constructor
  · rintro ⟨hwrapped, hsalt, hstored, hmode⟩ material' hload'
    obtain rfl := Option.some.inj (hload.symm.trans hload')
    exact ⟨hmode.symm, fun hok => (hstored hok).symm, fun hok => (hsalt hok).symm,
      fun hok => (hwrapped hok).symm⟩
  · intro hsame
    obtain ⟨hmode, hstored, hsalt, hwrapped⟩ := hsame material hload
    exact ⟨fun hok => (hwrapped hok).symm, fun hok => (hsalt hok).symm,
      fun hok => (hstored hok).symm, hmode.symm⟩

/-- One `DELETE` leaves what it must exactly if there is nothing to lose. -/
theorem leavesAlone_iff (h : Host) (act : HostAct) : LeavesAlone h act ↔ NothingToLose h act := by
  cases act with
  | call env op =>
    cases op with
    | disableZK =>
      refine and_congr (imp_congr_right fun _ => ?_) (imp_congr_right fun _ => ?_)
      · rw [sameSecrets_iff]
        refine and_congr_right fun _ => ?_
        -- without a key file to load or make, nothing is cleared
        cases hload : (loadOrCreateKey h.keyFile env.fresh env.written).1 with
        | none =>
          obtain ⟨-, -, hmode, hrows⟩ := disableZK_of_none hload
          exact iff_of_true ⟨hrows.1, hrows.2.1, hrows.2.2, hmode⟩ (by simp [SameKeyring, hload])
        | some material =>
          obtain ⟨-, hmode, hwrapped, hsalt, hstored⟩ := disableZK_of_some hload
          rw [hmode, hwrapped, hsalt, hstored]
          exact sameKeyring_of_some hload
      · cases hload : (loadOrCreateKey h.keyFile env.fresh env.written).1 with
        | none =>
          obtain ⟨herror, henabled, -⟩ := disableZK_of_none hload
          simp [herror, henabled, sameSecrets_iff]
        | some material => simp [(disableZK_of_some hload).1]
    | _ => exact Iff.rfl
  | _ => exact Iff.rfl

/-- A first start, an entry with a secret, and a `DELETE` from a settings page that has not
heard of it. -/
def staleDelete : List HostAct :=
  [.restart (.smooth demoFresh 0) ['k'],
    .addCert { name := "vpn", kind := .manual, expiresAt := [], createdAt := [] },
    .setSecret 1 (boxSeal (.fromString ['k']) "hunter2"),
    .call (.smooth demoFresh 0) .disableZK]

end CertGuard
