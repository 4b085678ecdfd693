import CertGuard.Lib.TransitionRun
import CertGuard.Server.Vault

/-!
# Secrets across a restart

The data key is lost with the process and must come back from what is stored. `newVault`
looks for operator material in the environment first; `setPassphrase` and `disableZK`, where
they go back to auto mode, wrap under the material of the key file. Where the two differ a
restart does not unwrap what was wrapped.

## Main definitions

* `restart` — the process is started again and the current passphrase is entered
* `SealLog` — what was sealed and not wiped, and the passphrase set last
* `Durable` — everything sealed opens after a restart
* `WrapsForRestart` — the key file is the operator material where the data key is wrapped
  under it

## Main results

* `durable_iff` — a run keeps its secrets exactly if all its calls wrap for a restart
* `lost_on_restart` — and a run that loses them
-/

namespace CertGuard

open Transition

/-- What happened in a run as far as secrets go. -/
structure SealLog where
  /-- The passphrase set last. -/
  passphrase : String := ""
  /-- What was sealed and not wiped since. -/
  sealed : List (Cipher × String) := []

/-- Keeps the log of a run. -/
def SealLog.note (g : SealLog) (h : Host) (act : VaultAct) : SealLog :=
  match act.op with
  | .vaultSeal plaintext =>
    match h.vaultSeal plaintext with
    | .ok enc => { g with sealed := (enc, plaintext) :: g.sealed }
    | .error _ => g
  | .setPassphrase currentPass newPass =>
    if newPass ≠ "" ∧ (h.setPassphrase act.env currentPass newPass).2 = none then
      { g with passphrase := newPass }
    else g
  | .disableZK => { g with sealed := [] }
  | _ => g

/-- The process is started again; in passphrase mode somebody unlocks the vault. -/
def restart (env : VaultEnv) (master : List Char) (passphrase : String) (h : Host) : Host :=
  let started := newVault env master h.store h.keyFile
  if started.vault.mode = .passphrase then (started.unlock passphrase).1 else started

/-- Outside zero-knowledge mode what was sealed, or would be sealed next, opens to its
plaintext after a restart. -/
def Durable (master : List Char) (w : Host × SealLog) : Prop :=
  w.1.vault.zk = false → ∀ fresh salt enc plaintext,
    (enc, plaintext) ∈ w.2.sealed ∨ w.1.vaultSeal plaintext = .ok enc →
      (restart (.smooth fresh salt) master w.2.passphrase w.1).vaultOpen enc = .ok plaintext

/-- The environment has no master key, or the key file holds the same. -/
def SameMaterial (master : List Char) (file : KeyFile) (fresh : FreshKey) : Prop :=
  master = [] ∨ (loadOrCreateKey file fresh true).1 = some master

/-- A call that wraps the data key under the material of the key file does so only where
that is the operator material. -/
def WrapsForRestart (master : List Char) (w : Host × SealLog) (act : VaultAct) : Prop :=
  match act.op with
  | .setPassphrase _ newPass => newPass = "" → w.1.vault.zk = false →
      w.1.vault.box.isSome = true → SameMaterial master w.1.keyFile act.fresh
  | .disableZK => SameMaterial master w.1.keyFile act.fresh
  | _ => True

variable {master material : List Char} {file : KeyFile} {fresh : FreshKey} {salt : Salt}
variable {h : Host} {g : SealLog} {s : Store} {dek kek : Key} {w w' : Host × SealLog}
variable {act : VaultAct}

/-! ### A keyring a restart can use -/

/-- The stored keyring gives back the data key, by the operator material or by the
passphrase set last, and everything sealed is sealed under it. -/
structure Kept (master : List Char) (h : Host) (g : SealLog) (dek kek : Key) : Prop where
  enabled : h.vault.enabled = true
  zkWrapped : h.store.keyring.zkWrapped.getD Sealed.empty = Sealed.empty
  wrapped : h.vault.wrapped = wrapKey dek kek
  stored : h.store.keyring.wrapped = some (wrapKey dek kek)
  mode : h.store.keyring.mode = some h.vault.mode
  box : h.vault.box = none ∨ h.vault.box = some dek ∧ h.vault.dek = dek
  sealed : ∀ enc plaintext, (enc, plaintext) ∈ g.sealed → enc = boxSeal dek plaintext
  kek : (h.vault.mode = .auto ∧ ∃ m, Resolves master h.keyFile m ∧ kek = .fromString m) ∨
    (h.vault.mode = .passphrase ∧ h.store.keyring.salt = some h.vault.salt ∧
      kek = .fromPassphrase g.passphrase h.vault.salt)

/-- A start finds the wrapped data key in auto mode: it tries the operator material. -/
theorem newVault_of_auto (fresh : FreshKey) (salt : Salt)
    (hzk : s.keyring.zkWrapped.getD Sealed.empty = Sealed.empty)
    (hwrapped : s.keyring.wrapped = some (wrapKey dek kek)) (hmode : s.keyring.mode = some .auto)
    (hmaterial : Resolves master file material) :
    (newVault (.smooth fresh salt) master s file).vault.box =
        (unwrapKey (wrapKey dek kek) (.fromString material)) ∧
      (newVault (.smooth fresh salt) master s file).vault.mode = .auto := by
  have hresolve := hmaterial.2 (.smooth fresh salt)
  simp only [newVault, VaultEnv.smooth, readMeta_true, hzk, hwrapped, hmode, Option.getD_some,
    ne_eq, not_true, if_false, wrapKey_ne_empty, not_false_iff, if_true]
  simp only [VaultEnv.smooth] at hresolve
  rw [hresolve, if_neg hmaterial.1]
  cases unwrapKey (wrapKey dek kek) (.fromString material) <;> exact ⟨rfl, rfl⟩

theorem newVault_of_passphrase (fresh : FreshKey) (salt : Salt) (master : List Char)
    (file : KeyFile) {saved : Option Salt}
    (hzk : s.keyring.zkWrapped.getD Sealed.empty = Sealed.empty)
    (hwrapped : s.keyring.wrapped = some (wrapKey dek kek))
    (hmode : s.keyring.mode = some .passphrase) (hsalt : s.keyring.salt = some saved) :
    newVault (.smooth fresh salt) master s file =
      ⟨{ enabled := true, mode := .passphrase, salt := saved, wrapped := wrapKey dek kek }, s,
        file⟩ := by
  simp [newVault, VaultEnv.smooth, hzk, hwrapped, hmode, hsalt, wrapKey_ne_empty]

namespace Kept

theorem restart_box (hkept : Kept master h g dek kek) :
    (restart (.smooth fresh salt) master g.passphrase h).vault.box = some dek := by
  rcases hkept.kek with ⟨hauto, m, hm, rfl⟩ | ⟨hpass, hsalt, rfl⟩
  · have hmode := hkept.mode
    rw [hauto] at hmode
    obtain ⟨hbox, hstarted⟩ := newVault_of_auto fresh salt hkept.zkWrapped hkept.stored
      hmode hm
    rw [restart, if_neg (by simp [hstarted]), hbox, unwrapKey_wrapKey]
  · have hmode := hkept.mode
    rw [hpass] at hmode
    have hstarted := newVault_of_passphrase fresh salt master h.keyFile hkept.zkWrapped
      hkept.stored hmode hsalt
    simp [restart, hstarted, Host.unlock, Vault.setUnlocked]

/-- Everything sealed so far, and whatever is sealed next, is sealed under the data key. -/
theorem eq_boxSeal (hkept : Kept master h g dek kek) {enc : Cipher} {plaintext : String}
    (hsealed : (enc, plaintext) ∈ g.sealed ∨ h.vaultSeal plaintext = .ok enc) :
    enc = boxSeal dek plaintext := by
  rcases hsealed with hlogged | hnext
  · exact hkept.sealed enc plaintext hlogged
  · rcases hkept.box with hbox | ⟨hbox, -⟩
    · simp [Host.vaultSeal, hbox] at hnext
    · simp only [Host.vaultSeal, hbox, Except.ok.injEq] at hnext
      exact hnext.symm

theorem durable (hkept : Kept master h g dek kek) : Durable master (h, g) := by
  intro _ fresh salt enc plaintext hsealed
  rw [hkept.eq_boxSeal hsealed, Host.vaultOpen, hkept.restart_box]
  simp

/-! ### One call -/

theorem vaultSeal (hkept : Kept master h g dek kek) (fresh : FreshKey) (salt : Salt)
    (plaintext : String) :
    Kept master h (g.note h ⟨fresh, salt, .vaultSeal plaintext⟩) dek kek := by
  simp only [SealLog.note]
  cases hsealed : h.vaultSeal plaintext with
  | error e => exact hkept
  | ok enc =>
    refine { hkept with sealed := fun enc' plaintext' hmem => ?_ }
    rcases List.mem_cons.mp hmem with heq | hmem
    · obtain ⟨rfl, rfl⟩ := Prod.mk.inj heq
      exact hkept.eq_boxSeal (Or.inr hsealed)
    · exact hkept.sealed enc' plaintext' hmem

theorem unlock (hkept : Kept master h g dek kek) (passphrase : String) :
    Kept master (h.unlock passphrase).1 g dek kek := by
  unfold Host.unlock
  split_ifs
  · exact hkept
  · exact hkept
  · exact hkept
  · cases hunwrap : unwrapKey h.vault.wrapped (.fromPassphrase passphrase h.vault.salt) with
    | none => exact hkept
    | some dek' =>
      -- only the data key itself comes out of what is wrapped
      rw [hkept.wrapped, unwrapKey_eq_some_iff] at hunwrap
      obtain ⟨-, rfl⟩ := Sealed.under.inj hunwrap
      exact { hkept with box := Or.inr ⟨rfl, rfl⟩ }

theorem lock (hkept : Kept master h g dek kek) : Kept master h.lock g dek kek :=
  { hkept with box := Or.inl rfl }

theorem revert (hkept : Kept master h g dek kek) (hbox : h.vault.box.isSome = true)
    (hload : (loadOrCreateKey h.keyFile fresh true).1 = some material)
    (hsame : SameMaterial master h.keyFile fresh) :
    Kept master (Host.rewrapped { h with keyFile := (loadOrCreateKey h.keyFile fresh true).2 }
      .auto none (wrapKey h.vault.dek (.fromString material))) g dek (.fromString material) := by
  obtain ⟨hbox, hdek⟩ := hkept.box.resolve_left fun hnone => by simp [hnone] at hbox
  have hmaster : master = [] ∨ material = master :=
    hsame.imp_right fun hsame => Option.some.inj (hload.symm.trans hsame)
  rw [hdek]
  exact
    { hkept with
      wrapped := rfl
      stored := rfl
      mode := rfl
      box := Or.inr ⟨hbox, hdek⟩
      kek := Or.inl ⟨rfl, material, resolves_of_load hload hmaster, rfl⟩ }

theorem set (hkept : Kept master h g dek kek) (hbox : h.vault.box.isSome = true)
    (newPass : String) :
    Kept master (Host.rewrapped { h with keyFile := none } .passphrase (some salt)
        (wrapKey h.vault.dek (.fromPassphrase newPass (some salt))))
      { g with passphrase := newPass } dek (.fromPassphrase newPass (some salt)) := by
  obtain ⟨hbox, hdek⟩ := hkept.box.resolve_left fun hnone => by simp [hnone] at hbox
  rw [hdek]
  exact
    { hkept with
      wrapped := rfl
      stored := rfl
      mode := rfl
      box := Or.inr ⟨hbox, hdek⟩
      kek := Or.inr ⟨rfl, rfl, rfl⟩ }

/-- A server keyring made from the operator material, with nothing sealed yet. -/
theorem of_material (henabled : h.vault.enabled = true)
    (hzk : h.store.keyring.zkWrapped.getD Sealed.empty = Sealed.empty)
    (hmode : h.vault.mode = .auto ∧ h.store.keyring.mode = some .auto)
    (hwrapped : h.vault.wrapped = wrapKey (.fromString material) (.fromString material) ∧
      h.store.keyring.wrapped = some (wrapKey (.fromString material) (.fromString material)))
    (hbox : h.vault.box = some (.fromString material) ∧ h.vault.dek = .fromString material)
    (hmaterial : Resolves master h.keyFile material) (hsealed : g.sealed = []) :
    Kept master h g (.fromString material) (.fromString material) where
  enabled := henabled
  zkWrapped := hzk
  wrapped := hwrapped.1
  stored := hwrapped.2
  mode := by rw [hmode.1, hmode.2]
  box := Or.inr hbox
  sealed enc plaintext hmem := by simp [hsealed] at hmem
  kek := Or.inl ⟨hmode.1, material, hmaterial, rfl⟩

end Kept

/-- Outside zero-knowledge mode a restart can use the keyring. -/
def Intact (master : List Char) (w : Host × SealLog) : Prop :=
  w.1.vault.zk = false → ∃ dek kek, Kept master w.1 w.2 dek kek

theorem Intact.durable (hintact : Intact master w) : Durable master w := by
  intro hzk
  obtain ⟨dek, kek, hkept⟩ := hintact hzk
  exact hkept.durable hzk

/-- A call that wraps for a restart leaves a keyring a restart can use. -/
theorem intact_call (hintact : Intact master w) (hwraps : WrapsForRestart master w act) :
    Intact master (w.1.call act.env act.op, w.2.note w.1 act) := by
  obtain ⟨h, g⟩ := w
  obtain ⟨fresh, salt, op⟩ := act
  intro hzk
  cases op with
  | vaultSeal plaintext =>
    obtain ⟨dek, kek, hkept⟩ := hintact hzk
    exact ⟨dek, kek, hkept.vaultSeal fresh salt plaintext⟩
  | unlock passphrase =>
    obtain ⟨dek, kek, hkept⟩ := hintact ((zk_unlock h passphrase).symm.trans hzk)
    exact ⟨dek, kek, hkept.unlock passphrase⟩
  | lock =>
    obtain ⟨dek, kek, hkept⟩ := hintact hzk
    exact ⟨dek, kek, hkept.lock⟩
  | setPassphrase currentPass newPass =>
    have hzk' := (zk_setPassphrase h currentPass newPass).symm.trans hzk
    obtain ⟨dek, kek, hkept⟩ := hintact hzk'
    simp only [Host.call, SealLog.note, VaultAct.env]
    rcases setPassphrase_cases fresh salt h currentPass newPass with
      ⟨e, -, heq⟩ | ⟨dek', material, hbox, hnew, hload, heq⟩ | ⟨dek', hbox, hnew, heq⟩
    · simp only [heq]
      rw [if_neg (by simp)]
      exact ⟨dek, kek, hkept⟩
    · -- the passphrase is taken away, and the key is wrapped under the key file
      simp only [heq]
      rw [if_neg fun hset => hset.1 hnew]
      have hsome : h.vault.box.isSome = true := by simp [hbox]
      exact ⟨dek, _, hkept.revert hsome hload (hwraps hnew hzk' hsome)⟩
    · simp only [heq]
      rw [if_pos ⟨hnew, trivial⟩]
      exact ⟨dek, _, hkept.set (by simp [hbox]) newPass⟩
  | enableZK wrapped salt' iters =>
    have hon : (h.enableZK (.smooth fresh salt) wrapped salt' iters).1.vault.zk = true := rfl
    exact absurd (hon.symm.trans hzk) (by simp)
  | disableZK =>
    -- the key of the file is loaded, or made if there is none
    obtain ⟨material, hload⟩ := exists_loadOrCreateKey h.keyFile fresh
    have hmaster : master = [] ∨ material = master :=
      hwraps.imp_right fun hsame => Option.some.inj (hload.symm.trans hsame)
    simp only [Host.call, SealLog.note, VaultAct.env, disableZK_smooth hload]
    exact ⟨_, _, Kept.of_material rfl rfl ⟨rfl, rfl⟩ ⟨rfl, rfl⟩ ⟨rfl, rfl⟩
      (resolves_of_load hload hmaster) rfl⟩

/-- Wrapped under other material than a restart uses, the data key is gone. -/
theorem not_durable (hzk : h.vault.zk = false)
    (hzkrow : h.store.keyring.zkWrapped.getD Sealed.empty = Sealed.empty)
    (hstored : h.store.keyring.wrapped = some (wrapKey dek (.fromString material)))
    (hmode : h.store.keyring.mode = some .auto) (hbox : h.vault.box.isSome = true)
    (hmaster : master ≠ []) (hne : material ≠ master) : ¬ Durable master (h, g) := by
  intro hdurable
  obtain ⟨dek', hbox⟩ := Option.isSome_iff_exists.mp hbox
  have hresolves : Resolves master h.keyFile master :=
    ⟨hmaster, fun env => resolveMaterial_of_ne hmaster⟩
  have hopen := hdurable hzk demoFresh 0 (boxSeal dek' "") ""
    (Or.inr (by simp [Host.vaultSeal, hbox]))
  obtain ⟨hnone, hauto⟩ := newVault_of_auto demoFresh 0 hzkrow hstored hmode hresolves
  have hunwrap : unwrapKey (wrapKey dek (.fromString material)) (.fromString master) = none := by
    simp [unwrapKey, wrapKey, Sealed.openWith, hne]
  have hstarted : (newVault (.smooth demoFresh 0) master h.store h.keyFile).vault.mode ≠
      .passphrase := by simp [hauto]
  rw [restart, if_neg hstarted, Host.vaultOpen, hnone, hunwrap] at hopen
  exact absurd hopen (by simp)

/-- After a call everything is durable exactly if the call wrapped for a restart. -/
theorem durable_call (hintact : Intact master w) :
    Durable master (w.1.call act.env act.op, w.2.note w.1 act) ↔
      WrapsForRestart master w act := by
  refine ⟨fun hdurable => ?_, fun hwraps => (intact_call hintact hwraps).durable⟩
  obtain ⟨h, g⟩ := w
  obtain ⟨fresh, salt, op⟩ := act
  cases op with
  | vaultSeal plaintext => trivial
  | unlock passphrase => trivial
  | lock => trivial
  | enableZK wrapped salt' iters => trivial
  | setPassphrase currentPass newPass =>
    intro hnew hzk hsome
    -- the wrong key would be read at the next start
    by_contra hother
    obtain ⟨hmaster, hload'⟩ := not_or.mp hother
    obtain ⟨dek, kek, hkept⟩ := hintact hzk
    simp only [Host.call, SealLog.note, VaultAct.env] at hdurable
    rcases setPassphrase_cases fresh salt h currentPass newPass with
      ⟨e, hreason, -⟩ | ⟨dek', material, hbox, -, hload, heq⟩ | ⟨dek', hbox, hne, -⟩
    · rcases hreason with hnone | hne
      · exact absurd hsome (by simp [hnone])
      · exact hne hnew
    · simp only [heq] at hdurable
      have hne : material ≠ master := fun hmat => hload' (hmat ▸ hload)
      revert hdurable
      exact not_durable hzk hkept.zkWrapped rfl rfl hsome hmaster hne
    · exact hne hnew
  | disableZK =>
    by_contra hother
    obtain ⟨hmaster, hload'⟩ := not_or.mp hother
    obtain ⟨material, hload⟩ := exists_loadOrCreateKey h.keyFile fresh
    simp only [Host.call, VaultAct.env, disableZK_smooth hload] at hdurable
    have hne : material ≠ master := fun hmat => hload' (hmat ▸ hload)
    revert hdurable
    exact not_durable rfl rfl rfl rfl rfl hmaster hne

/-! ### Whole runs -/

/-- The first start: the store has no keyring rows yet. -/
def firstStart (fresh : FreshKey) (salt : Salt) (master : List Char) (s : Store)
    (file : KeyFile) : Host × SealLog :=
  (newVault (.smooth fresh salt) master { s with keyring := {} } file, {})

theorem intact_firstStart (fresh : FreshKey) (salt : Salt) (master : List Char) (s : Store)
    (file : KeyFile) : Intact master (firstStart fresh salt master s file) := by
  intro _
  rw [firstStart, newVault_of_first rfl]
  exact ⟨_, _, Kept.of_material rfl rfl ⟨rfl, rfl⟩ ⟨rfl, rfl⟩ ⟨rfl, rfl⟩
    (resolves_of_resolve rfl) rfl⟩

/-- From any first start, under any configuration, in every state of a run of calls that
all succeed everything sealed and not wiped opens after a restart, exactly if the calls
that wrap the data key under the key file do so where it is the operator material. -/
theorem durable_iff (fresh : FreshKey) (salt : Salt) (master : List Char) (s : Store)
    (file : KeyFile) (acts : List VaultAct) :
    Always (watch vaultStep SealLog.note) (Durable master)
        (firstStart fresh salt master s file) acts ↔
      Meets (watch vaultStep SealLog.note) (WrapsForRestart master)
        (firstStart fresh salt master s file) acts := by
  have hfirst := intact_firstStart fresh salt master s file
  apply always_iff_meets_of_inv (Intact master) hfirst hfirst.durable
  · intro w act w' hintact _ hstep hdurable
    obtain rfl := Option.some.inj hstep
    exact intact_call hintact ((durable_call hintact).mp hdurable)
  · intro w act w' hintact _ hstep
    obtain rfl := Option.some.inj hstep
    exact durable_call hintact
  · intro w act hrefused
    simp [watch, vaultStep] at hrefused

/-- A secret is sealed; a passphrase is set and removed again. -/
def removedPassphrase : List VaultAct :=
  [⟨demoFresh, 0, .vaultSeal "s3cret"⟩, ⟨demoFresh, 0, .setPassphrase "" "long enough"⟩,
    ⟨demoFresh, 0, .setPassphrase "" ""⟩]

/-- With a master key in the environment the secret does not survive the restart. -/
theorem lost_on_restart : ¬ ∀ fresh salt master s file acts,
    Always (watch vaultStep SealLog.note) (Durable master)
      (firstStart fresh salt master s file) acts := by
  intro h
  have hend : (run (watch vaultStep SealLog.note)
      (firstStart demoFresh 0 ['k'] {} none) removedPassphrase).map (fun w =>
        (w.1.vault.zk, w.2.sealed,
          ((restart (.smooth demoFresh 0) ['k'] w.2.passphrase w.1).vaultOpen
            (boxSeal (.fromString ['k']) "s3cret")).toOption)) =
      some (false, [(boxSeal (.fromString ['k']) "s3cret", "s3cret")], none) := by decide
  obtain ⟨w, hrun, hw⟩ := Option.map_eq_some_iff.mp hend
  obtain ⟨hzk, hsealed, hopen⟩ : _ ∧ _ ∧ _ := by simpa only [Prod.mk.injEq] using hw
  have hdurable := h demoFresh 0 ['k'] {} none removedPassphrase removedPassphrase w
    (List.prefix_refl _) hrun hzk demoFresh 0 (boxSeal (.fromString ['k']) "s3cret") "s3cret"
    (Or.inl (by simp [hsealed]))
  rw [hdurable] at hopen
  exact absurd hopen (by decide)

end CertGuard
