import CertGuard.Server.Durability

/-!
# Locking the vault

`lock` drops the data key and `unlock` brings it back from the wrapped key in memory, under
the passphrase. In auto mode there is none, and the operator material is looked for by
`newVault` only; so what `lock` drops there stays away until the next start. The page offers
to lock only where there is a passphrase, the endpoint does not ask.

## Main definitions

* `SealLog.noteHost` — what was sealed since the last start, and the current passphrase
* `Reversible` — what was locked can be unlocked and opens what it opened
* `Lockable` — the vault is in passphrase mode
* `Recoverable` — what holds in every state: the wrapped key in memory is that of the box

## Main results

* `reversible_iff` — in every state of every run a lock can be undone exactly if the vault is
  in passphrase mode
* `locked_for_good` — and a run to a state where it cannot
-/

namespace CertGuard

open Transition

/-- Keeps the log of a process: a start begins it anew, and who unlocks the vault knows the
passphrase. -/
def SealLog.noteHost (g : SealLog) (h : Host) : HostAct → SealLog
  | .call _ (.vaultSeal plaintext) =>
    match h.vaultSeal plaintext with
    | .ok enc => { g with sealed := (enc, plaintext) :: g.sealed }
    | .error _ => g
  | .call _ (.unlock passphrase) =>
    if h.vault.box = none ∧ (h.unlock passphrase).2 = none then { g with passphrase := passphrase }
    else g
  | .call env (.setPassphrase currentPass newPass) =>
    if newPass ≠ "" ∧ (h.setPassphrase env currentPass newPass).2 = none then
      { g with passphrase := newPass }
    else g
  | .call _ .disableZK => { g with sealed := [] }
  | .restart _ _ => { g with sealed := [] }
  | _ => g

/-- A host with the log of its process. -/
abbrev loggedStep : Host × SealLog → HostAct → Option (Host × SealLog) :=
  watch hostStep SealLog.noteHost

/-- What the mode calls for: the current passphrase, or nothing. -/
def credential (w : Host × SealLog) : String :=
  if w.1.vault.mode = .passphrase then w.2.passphrase else ""

/-- Where the server's vault is unlocked, unlocking it after a lock succeeds, and it opens
what it opened before and all that was sealed. -/
def Reversible (w : Host × SealLog) : Prop :=
  w.1.vault.enabled = true → w.1.vault.zk = false → w.1.vault.box.isSome = true →
    (w.1.lock.unlock (credential w)).2 = none ∧
      (∀ enc plaintext, w.1.vaultOpen enc = .ok plaintext →
        (w.1.lock.unlock (credential w)).1.vaultOpen enc = .ok plaintext) ∧
      ∀ sealed ∈ w.2.sealed,
        (w.1.lock.unlock (credential w)).1.vaultOpen sealed.1 = .ok sealed.2

/-- An unlocked vault of the server is in passphrase mode. -/
def Lockable (v : Vault) : Prop :=
  v.enabled = true → v.zk = false → v.box.isSome = true → v.mode = .passphrase

/-- The key of the box is the one in memory and wrapped there, in passphrase mode under the
current passphrase, and everything sealed is sealed under it. -/
structure Recoverable (w : Host × SealLog) : Prop where
  box : ∀ dek, w.1.vault.box = some dek →
    w.1.vault.dek = dek ∧ w.1.vault.wrapped.payload? = some dek
  passphrase : ∀ dek, w.1.vault.box = some dek → w.1.vault.mode = .passphrase →
    unwrapKey w.1.vault.wrapped (.fromPassphrase w.2.passphrase w.1.vault.salt) = some dek
  log : ∀ sealed ∈ w.2.sealed, ∃ dek, w.1.vault.wrapped.payload? = some dek ∧
    sealed.1 = boxSeal dek sealed.2

variable {env : VaultEnv} {h : Host} {w w' : Host × SealLog} {g : SealLog} {master : List Char}
variable {s : Store} {file : KeyFile}

/-! ### What the operations do to the vault in memory -/

/-- `persist` changes the vault only where all its statements succeed. -/
theorem vault_persist (env : VaultEnv) (h : Host) (mode : VaultMode) (salt : Option Salt)
    (wrapped : Wrapped) :
    (Host.persist env h mode salt wrapped).2 ≠ none ∧
        (Host.persist env h mode salt wrapped).1.vault = h.vault ∨
      (Host.persist env h mode salt wrapped).2 = none ∧
        (Host.persist env h mode salt wrapped).1.vault =
          { h.vault with mode := mode, salt := salt, wrapped := wrapped } := by
  unfold Host.persist
  split_ifs
  · exact Or.inl ⟨by simp, rfl⟩
  · exact Or.inl ⟨by simp, rfl⟩
  · exact Or.inl ⟨by simp, rfl⟩
  · exact Or.inr ⟨rfl, rfl⟩

/-- `setPassphrase` leaves the vault with an error, or wraps its data key anew. -/
theorem vault_setPassphrase (env : VaultEnv) (h : Host) (currentPass newPass : String) :
    (h.setPassphrase env currentPass newPass).2 ≠ none ∧
        (h.setPassphrase env currentPass newPass).1.vault = h.vault ∨
      (h.setPassphrase env currentPass newPass).2 = none ∧ h.vault.box.isSome = true ∧
        ((newPass = "" ∧ ∃ material, (h.setPassphrase env currentPass newPass).1.vault =
            { h.vault with
              mode := .auto
              salt := none
              wrapped := wrapKey h.vault.dek (.fromString material) }) ∨
          newPass ≠ "" ∧ (h.setPassphrase env currentPass newPass).1.vault =
            { h.vault with
              mode := .passphrase
              salt := some env.salt
              wrapped := wrapKey h.vault.dek (.fromPassphrase newPass (some env.salt)) }) := by
  unfold Host.setPassphrase
  cases hbox : h.vault.box with
  | none => exact Or.inl ⟨by simp, rfl⟩
  | some dek =>
    simp only
    by_cases hwrong : h.vault.mode = .passphrase ∧ newPass ≠ "" ∧
        unwrapKey h.vault.wrapped (.fromPassphrase currentPass h.vault.salt) = none
    · rw [if_pos hwrong]
      exact Or.inl ⟨by simp, rfl⟩
    rw [if_neg hwrong]
    by_cases hnew : newPass = ""
    · rw [if_pos hnew]
      rcases loadOrCreateKey h.keyFile env.fresh env.written with ⟨_ | material, file⟩
      · exact Or.inl ⟨by simp, rfl⟩
      · rcases vault_persist env { h with keyFile := file } .auto none
          (wrapKey h.vault.dek (.fromString material)) with ⟨herror, hvault⟩ | ⟨hok, hvault⟩
        · exact Or.inl ⟨herror, hvault⟩
        · exact Or.inr ⟨hok, rfl, Or.inl ⟨hnew, material, hvault.trans (by simp only [hbox])⟩⟩
    · rw [if_neg hnew]
      have hcases := vault_persist env h .passphrase (some env.salt)
        (wrapKey h.vault.dek (.fromPassphrase newPass (some env.salt)))
      rcases hpersist : Host.persist env h .passphrase (some env.salt)
        (wrapKey h.vault.dek (.fromPassphrase newPass (some env.salt))) with ⟨h', _ | e⟩
      · rw [hpersist] at hcases
        obtain ⟨-, hvault⟩ := hcases.resolve_left fun hleft => hleft.1 rfl
        refine Or.inr ⟨rfl, rfl, Or.inr ⟨hnew, ?_⟩⟩
        -- taking the key file away does not change the vault
        dsimp only
        split_ifs <;> exact hvault
      · rw [hpersist] at hcases
        obtain ⟨-, hvault⟩ := hcases.resolve_right fun hright => by simp at hright
        exact Or.inl ⟨by simp, hvault⟩

/-- A start makes a box, if it does, from the key it finds wrapped or wraps, and in auto mode
only. -/
theorem box_newVault {dek : Key} (hbox : (newVault env master s file).vault.box = some dek) :
    (newVault env master s file).vault.mode = .auto ∧
      (newVault env master s file).vault.dek = dek ∧
      (newVault env master s file).vault.wrapped.payload? = some dek := by
  generalize hstarted : newVault env master s file = started at hbox
  unfold newVault at hstarted
  dsimp only at hstarted
  split_ifs at hstarted with _ _ hmode <;> subst hstarted
  · simp at hbox
  · simp at hbox
  · -- auto mode, with material to unwrap the data key with
    dsimp only at hbox ⊢
    generalize hunwrap : unwrapKey _ _ = unwrapped at hbox ⊢
    cases unwrapped with
    | none => simp at hbox
    | some dek' =>
      obtain rfl : dek' = dek := Option.some.inj hbox
      refine ⟨hmode, rfl, ?_⟩
      simp only [Option.map_some, Option.getD_some, Vault.setUnlocked]
      rw [unwrapKey_eq_some_iff.mp hunwrap]
      rfl
  · simp at hbox
  · simp at hbox
  · -- the first start
    obtain rfl := Option.some.inj hbox
    exact ⟨rfl, rfl, rfl⟩

/-! ### The invariant -/

/-- A step that leaves the vault in memory and seals nothing. -/
theorem Recoverable.congr (hw : Recoverable w) (hvault : w'.1.vault = w.1.vault)
    (hlog : w'.2 = w.2) : Recoverable w' := by
  obtain ⟨hbox, hpassphrase, hsealed⟩ := hw
  rw [← hvault] at hbox hpassphrase hsealed
  rw [← hlog] at hpassphrase hsealed
  exact ⟨hbox, hpassphrase, hsealed⟩

/-- With no data key in memory there is nothing to keep but the log. -/
theorem Recoverable.of_box_none (hbox : w.1.vault.box = none)
    (hlog : ∀ sealed ∈ w.2.sealed, ∃ dek, w.1.vault.wrapped.payload? = some dek ∧
      sealed.1 = boxSeal dek sealed.2) : Recoverable w where
  box dek hdek := by simp [hbox] at hdek
  passphrase dek hdek := by simp [hbox] at hdek
  log := hlog

theorem recoverable_newVault (g : SealLog) (hsealed : g.sealed = []) :
    Recoverable (newVault env master s file, g) where
  box _ hbox := (box_newVault hbox).2
  passphrase _ hbox hmode := by
    rw [(box_newVault hbox).1] at hmode
    exact absurd hmode (by decide)
  log := by simp [hsealed]

theorem Recoverable.unlock (hw : Recoverable (h, g)) (passphrase : String) :
    Recoverable ((h.unlock passphrase).1, g.noteHost h (.call env (.unlock passphrase))) := by
  unfold SealLog.noteHost Host.unlock
  by_cases henabled : h.vault.enabled = false
  · simp only [if_pos henabled]
    simpa using hw
  by_cases hbox : h.vault.box.isSome = true
  · have hsome : h.vault.box ≠ none := Option.isSome_iff_ne_none.mp hbox
    simpa [henabled, hbox, hsome] using hw
  have hnone : h.vault.box = none := by simpa using hbox
  by_cases hmode : h.vault.mode ≠ .passphrase
  · simpa [henabled, hnone, hmode] using hw
  cases hunwrap : unwrapKey h.vault.wrapped (.fromPassphrase passphrase h.vault.salt) with
  | none => simpa [henabled, hnone, hmode, hunwrap] using hw
  | some dek =>
    -- the passphrase opened the key that is wrapped
    have hpayload : h.vault.wrapped.payload? = some dek := by
      rw [unwrapKey_eq_some_iff.mp hunwrap]
      rfl
    simp only [henabled, hnone, hmode, hunwrap, Option.isSome_none, Bool.false_eq_true, if_false]
    refine ⟨fun dek' hdek' => ?_, fun dek' hdek' _ => ?_, hw.log⟩
    · obtain rfl := Option.some.inj hdek'
      exact ⟨rfl, hpayload⟩
    · obtain rfl := Option.some.inj hdek'
      exact hunwrap

/-- The data key of the box is wrapped anew, in passphrase mode under the passphrase that is
current from then on. -/
theorem Recoverable.rewrap (hw : Recoverable (h, g)) (hbox : h.vault.box.isSome = true)
    {h' : Host} {g' : SealLog} {mode : VaultMode} {salt : Option Salt} {kek : Key}
    (hvault : h'.vault =
      { h.vault with mode := mode, salt := salt, wrapped := wrapKey h.vault.dek kek })
    (hsealed : g'.sealed = g.sealed)
    (hkek : mode = .passphrase → kek = .fromPassphrase g'.passphrase salt) :
    Recoverable (h', g') := by
  obtain ⟨dek, hdek⟩ := Option.isSome_iff_exists.mp hbox
  -- the key in memory is the one that was wrapped, and is wrapped again
  obtain ⟨hmemory, hpayload⟩ := hw.box dek hdek
  refine ⟨fun dek' hdek' => ?_, fun dek' hdek' hmode => ?_, fun sealed hmem => ?_⟩
  · simp only [hvault, hdek, Option.some.injEq] at hdek' ⊢
    subst hdek'
    exact ⟨hmemory, congrArg some hmemory⟩
  · simp only [hvault, hdek, Option.some.injEq] at hdek' hmode ⊢
    rw [hkek hmode, unwrapKey_wrapKey, hmemory, hdek']
  · obtain ⟨dek', hdek', hseal⟩ := hw.log sealed (hsealed ▸ hmem)
    obtain rfl := Option.some.inj (hpayload.symm.trans hdek')
    refine ⟨dek, ?_, hseal⟩
    simp only [hvault]
    exact congrArg some hmemory

theorem Recoverable.setPassphrase (hw : Recoverable (h, g)) (currentPass newPass : String) :
    Recoverable ((h.setPassphrase env currentPass newPass).1,
      g.noteHost h (.call env (.setPassphrase currentPass newPass))) := by
  unfold SealLog.noteHost
  dsimp only
  rcases vault_setPassphrase env h currentPass newPass with
    ⟨herror, hvault⟩ | ⟨hok, hbox, ⟨hnew, material, hvault⟩ | ⟨hnew, hvault⟩⟩
  · simp only [herror, and_false, if_false]
    exact hw.congr hvault rfl
  · rw [if_neg fun hcontra => hcontra.1 hnew]
    exact hw.rewrap hbox hvault rfl fun hmode => absurd hmode (by decide)
  · rw [if_pos ⟨hnew, hok⟩]
    exact hw.rewrap hbox hvault rfl fun _ => rfl

theorem Recoverable.vaultSeal (hw : Recoverable (h, g)) (plaintext : String) :
    Recoverable (h, g.noteHost h (.call env (.vaultSeal plaintext))) := by
  unfold SealLog.noteHost Host.vaultSeal
  cases hbox : h.vault.box with
  | none => exact hw
  | some dek =>
    refine ⟨hw.box, hw.passphrase, fun sealed hmem => ?_⟩
    rcases List.mem_cons.mp hmem with rfl | hold
    · exact ⟨dek, (hw.box dek hbox).2, rfl⟩
    · exact hw.log sealed hold

theorem Recoverable.disableZK (hw : Recoverable (h, g)) :
    Recoverable ((h.disableZK env).1, g.noteHost h (.call env .disableZK)) := by
  unfold SealLog.noteHost Host.disableZK
  rcases loadOrCreateKey h.keyFile env.fresh env.written with ⟨_ | material, file⟩
  · exact ⟨hw.box, hw.passphrase, by simp⟩
  · refine ⟨fun dek hdek => ?_, fun dek hdek hmode => ?_, by simp⟩
    · obtain rfl := Option.some.inj hdek
      exact ⟨rfl, rfl⟩
    · have hauto : VaultMode.auto = .passphrase := hmode
      exact absurd hauto (by decide)

theorem Recoverable.enableZK (hw : Recoverable (h, g)) (wrapped : Wrapped) (salt iters : String) :
    Recoverable ((h.enableZK env wrapped salt iters).1, g) := by
  unfold Host.enableZK
  by_cases hfailed : env.setMeta .zkWrapped = false
  · rw [if_pos hfailed]
    exact hw
  · rw [if_neg hfailed]
    exact Recoverable.of_box_none rfl hw.log

/-- Every step keeps the data key where an unlock finds it. -/
theorem recoverable_step (hw : Recoverable w) {act : HostAct} (hstep : loggedStep w act = some w') :
    Recoverable w' := by
  obtain ⟨h, g⟩ := w
  cases act with
  | call env op =>
    obtain rfl := Option.some.inj hstep
    cases op with
    | vaultSeal plaintext => exact hw.vaultSeal plaintext
    | unlock passphrase => exact hw.unlock passphrase
    | lock => exact Recoverable.of_box_none rfl hw.log
    | setPassphrase currentPass newPass => exact hw.setPassphrase currentPass newPass
    | enableZK wrapped salt iters => exact hw.enableZK wrapped salt iters
    | disableZK => exact hw.disableZK
  | restart env master =>
    obtain rfl := Option.some.inj hstep
    exact recoverable_newVault _ rfl
  | setSecret id enc =>
    obtain rfl := Option.some.inj hstep
    exact hw.congr rfl rfl
  | addCert row =>
    obtain rfl := Option.some.inj hstep
    exact hw.congr rfl rfl

/-! ### Locking and unlocking -/

/-- Where the vault is in passphrase mode, unlocking after a lock restores it. -/
theorem unlock_lock {dek : Key} {passphrase : String} (henabled : h.vault.enabled = true)
    (hmode : h.vault.mode = .passphrase)
    (hunwrap : unwrapKey h.vault.wrapped (.fromPassphrase passphrase h.vault.salt) = some dek)
    (hbox : h.vault.box = some dek) (hdek : h.vault.dek = dek) :
    h.lock.unlock passphrase = (h, none) := by
  obtain ⟨⟨enabled, zk, mode, salt, wrapped, dek', box⟩, s, file⟩ := h
  dsimp only at henabled hmode hunwrap hbox hdek
  subst henabled hmode hbox hdek
  simp [Host.lock, Host.unlock, hunwrap, Vault.setUnlocked]

/-- A lock can be undone exactly in passphrase mode. -/
theorem reversible_of_recoverable (hw : Recoverable w) : Reversible w ↔ Lockable w.1.vault := by
  constructor
  · intro hrev henabled hzk hbox
    by_contra hmode
    obtain ⟨hok, -⟩ := hrev henabled hzk hbox
    simp [Host.lock, Host.unlock, henabled, hmode] at hok
  · intro hlockable henabled hzk hbox
    have hmode := hlockable henabled hzk hbox
    obtain ⟨dek, hdek⟩ := Option.isSome_iff_exists.mp hbox
    have hunlock : w.1.lock.unlock (credential w) = (w.1, none) := by
      rw [credential, if_pos hmode]
      exact unlock_lock henabled hmode (hw.passphrase dek hdek hmode) hdek (hw.box dek hdek).1
    rw [hunlock]
    refine ⟨rfl, fun _ _ hopen => hopen, fun sealed hmem => ?_⟩
    obtain ⟨dek', hdek', hseal⟩ := hw.log sealed hmem
    obtain rfl := Option.some.inj ((hw.box dek hdek).2.symm.trans hdek')
    simp only [Host.vaultOpen, hdek, hseal, boxOpen_boxSeal]

/-- From every start, over every sequence of calls, restarts and stored secrets, whatever
fails in them: where the server's vault is unlocked, locking it and unlocking it with what
its mode calls for succeeds and restores the box, exactly if it is in passphrase mode. -/
theorem reversible_iff (env : VaultEnv) (master : List Char) (s : Store) (file : KeyFile)
    (acts : List HostAct) :
    Always loggedStep (fun w => Reversible w ↔ Lockable w.1.vault)
      (newVault env master s file, {}) acts := by
  have hinv : Always loggedStep Recoverable (newVault env master s file, {}) acts :=
    always_of_meets (C := fun _ _ => True) (recoverable_newVault {} rfl)
      (fun _ _ _ hw _ hstep => recoverable_step hw hstep) fun _ _ _ _ _ => trivial
  exact hinv.mono fun _ hw => reversible_of_recoverable hw

/-- After a first start the vault is unlocked in auto mode: what a lock takes away comes back
with the next start only. -/
theorem locked_for_good : ¬ ∀ env master s file acts,
    Always loggedStep Reversible (newVault env master s file, {}) acts := by
  intro hall
  obtain ⟨hok, -⟩ := hall (.smooth demoFresh 0) ['k'] {} none [] [] _ (List.prefix_refl _) rfl
    (by decide) (by decide) (by decide)
  exact absurd hok (by decide)

end CertGuard
