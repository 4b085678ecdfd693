import CertGuard.Lib.TransitionRun
import CertGuard.Server.Vault

/-!
# Zero-knowledge mode

In zero-knowledge mode the server is to hold no key and nothing it could make one from.
`enableZK` drops the data key, the stored keyring and the key file, but the mode, the salt
and the wrapped key stay in memory, and neither `unlock` nor `setPassphrase` looks at the
mode: the old passphrase still opens the vault.

## Main definitions

* `VaultCall` — a call on a vault, or a new start
* `Blind` — the server cannot decrypt, and no call but `disableZK` lets it
* `VaultCall.Enables` — the call is `enableZK`
* `ServerHeld` — the server still keeps its own keyring

## Main results

* `not_blind_enableZK` — from the first start on `enableZK` leaves a wrapped key in memory
* `blind_iff` — the server is blind throughout a run exactly if `enableZK` is never called
* `unlocked_by_old_passphrase` — and a run that calls it
-/

namespace CertGuard

open Transition

/-- A call on a vault, or a start of the process. -/
inductive VaultCall
  | newVault (fresh : FreshKey) (salt : Salt) (master : List Char)
  | method (act : VaultAct)

/-- Takes a call; none is refused. -/
def callStep (h : Host) : VaultCall → Option Host
  | .newVault fresh salt master =>
    some (CertGuard.newVault (.smooth fresh salt) master h.store h.keyFile)
  | .method act => vaultStep h act

/-- The rows of the server keyring are empty. -/
def Keyring.NoServerKey (k : Keyring) : Prop :=
  k.wrapped.getD Sealed.empty = Sealed.empty ∧ k.mode.getD .unset = .unset ∧
    k.salt.getD none = none

/-- The call is `disableZK`. -/
def VaultCall.Disables : VaultCall → Prop
  | .method act => act.op = .disableZK
  | .newVault .. => False

/-- The call is `enableZK`. -/
def VaultCall.Enables : VaultCall → Prop
  | .method act => ∃ wrapped salt iters, act.op = .enableZK wrapped salt iters
  | .newVault .. => False

/-- In zero-knowledge mode the server has no box and no data key, holds no wrapped key in
memory or in the keyring rows, and no call but `disableZK` gives it one. -/
def Blind (h : Host) : Prop :=
  h.vault.zk = true →
    (h.vault.box = none ∧ h.vault.dek = .zero ∧ h.vault.wrapped = Sealed.empty ∧
      h.store.keyring.NoServerKey) ∧
    ∀ call h', ¬ call.Disables → callStep h call = some h' →
      h'.vault.box = none ∧ h'.store.keyring.NoServerKey

variable {h h' : Host} {call : VaultCall} {calls : List VaultCall} {fresh : FreshKey}
variable {salt : Salt} {master : List Char} {s : Store} {file : KeyFile}

/-- The server keeps its own keyring: the mode was not switched on, no start will find it on,
and there is a wrapped key in memory. -/
structure ServerHeld (h : Host) : Prop where
  off : h.vault.zk = false
  row : h.store.keyring.zkWrapped.getD Sealed.empty = Sealed.empty
  wrapped : h.vault.wrapped ≠ Sealed.empty

/-! ### One call -/

theorem unlock_cases (h : Host) (passphrase : String) : (h.unlock passphrase).1 = h ∨
    ∃ dek, (h.unlock passphrase).1 = { h with vault := h.vault.setUnlocked dek } := by
  unfold Host.unlock
  split_ifs
  · exact Or.inl rfl
  · exact Or.inl rfl
  · exact Or.inl rfl
  · cases unwrapKey h.vault.wrapped (.fromPassphrase passphrase h.vault.salt) with
    | none => exact Or.inl rfl
    | some dek => exact Or.inr ⟨dek, rfl⟩

/-- A start outside zero-knowledge mode has a wrapped key: that of the rows, or one of its own. -/
theorem ServerHeld.newVault (hrow : s.keyring.zkWrapped.getD Sealed.empty = Sealed.empty) :
    ServerHeld (newVault (.smooth fresh salt) master s file) := by
  obtain ⟨hoff, hsame⟩ := newVault_of_not_zk fresh salt master file hrow
  refine ⟨hoff, hsame.symm ▸ hrow, ?_⟩
  have hzk : ¬ readMeta ((VaultEnv.smooth fresh salt).getMeta .zkWrapped) s.keyring.zkWrapped
      Sealed.empty ≠ Sealed.empty := not_not.mpr hrow
  have hmaterial : (resolveMaterial (.smooth fresh salt) master file).1 ≠ [] :=
    (resolves_of_resolve rfl).1
  rw [CertGuard.newVault, if_neg hzk]
  dsimp only
  split_ifs with hwrapped
  · -- unwrapping the data key or failing to leaves what was read
    dsimp only
    generalize unwrapKey _ _ = unwrapped
    cases unwrapped <;> exact hwrapped
  · exact hwrapped
  · exact wrapKey_ne_empty

/-- A call that does not enable leaves the server its keyring. -/
theorem ServerHeld.step (hheld : ServerHeld h) (henables : ¬ call.Enables)
    (hstep : callStep h call = some h') : ServerHeld h' := by
  cases call with
  | newVault fresh salt master =>
    obtain rfl := Option.some.inj hstep
    exact ServerHeld.newVault hheld.row
  | method act =>
    obtain rfl := Option.some.inj hstep
    obtain ⟨fresh, salt, op⟩ := act
    cases op with
    | vaultSeal plaintext => exact hheld
    | unlock passphrase =>
      simp only [Host.call]
      rcases unlock_cases h passphrase with heq | ⟨dek, heq⟩ <;> rw [heq]
      · exact hheld
      · exact ⟨hheld.off, hheld.row, hheld.wrapped⟩
    | lock => exact ⟨hheld.off, hheld.row, hheld.wrapped⟩
    | setPassphrase currentPass newPass =>
      simp only [Host.call, VaultAct.env]
      rcases setPassphrase_cases fresh salt h currentPass newPass with
        ⟨e, -, heq⟩ | ⟨dek, material, -, -, -, heq⟩ | ⟨dek, -, -, heq⟩ <;> rw [heq]
      · exact hheld
      · exact ⟨hheld.off, hheld.row, wrapKey_ne_empty⟩
      · exact ⟨hheld.off, hheld.row, wrapKey_ne_empty⟩
    | enableZK wrapped salt' iters => exact absurd ⟨wrapped, salt', iters, rfl⟩ henables
    | disableZK =>
      obtain ⟨material, hload⟩ := exists_loadOrCreateKey h.keyFile fresh
      simp only [Host.call, VaultAct.env, disableZK_smooth hload]
      exact ⟨rfl, rfl, wrapKey_ne_empty⟩

/-- Outside zero-knowledge mode nothing is asked of the server. -/
theorem ServerHeld.blind (hheld : ServerHeld h) : Blind h :=
  fun hzk => absurd (hheld.off.symm.trans hzk) (by decide)

/-- The wrapped key the server has stays in memory when it is to forget it. -/
theorem not_blind_enableZK (hheld : ServerHeld h) (henables : call.Enables)
    (hstep : callStep h call = some h') : ¬ Blind h' := by
  intro hblind
  cases call with
  | newVault fresh salt master => exact henables
  | method act =>
    obtain rfl := Option.some.inj hstep
    obtain ⟨fresh, salt, op⟩ := act
    obtain ⟨wrapped, salt', iters, rfl⟩ := henables
    obtain ⟨⟨-, -, hempty, -⟩, -⟩ := hblind rfl
    exact hheld.wrapped hempty

theorem callStep_ne_none (h : Host) (call : VaultCall) : callStep h call ≠ none := by
  cases call <;> simp [callStep, vaultStep]

/-- From any first start, the server is blind in every state of a run of calls and new starts
that all succeed exactly if none of them is `enableZK`. -/
theorem blind_iff (fresh : FreshKey) (salt : Salt) (master : List Char) (s : Store)
    (file : KeyFile) (calls : List VaultCall) :
    Always callStep Blind (newVault (.smooth fresh salt) master { s with keyring := {} } file)
        calls ↔
      ∀ call ∈ calls, ¬ call.Enables := by
  have hstart : ServerHeld
      (newVault (.smooth fresh salt) master { s with keyring := {} } file) :=
    ServerHeld.newVault rfl
  generalize newVault (.smooth fresh salt) master { s with keyring := {} } file = h at hstart
  induction calls generalizing h with
  | nil => exact iff_of_true (always_nil.mpr hstart.blind) (by simp)
  | cons call calls ih =>
    obtain ⟨h', hstep⟩ := Option.ne_none_iff_exists'.mp (callStep_ne_none h call)
    rw [always_cons, List.forall_mem_cons]
    constructor
    · rintro ⟨-, hrest⟩
      have hrest := hrest h' hstep
      -- the state after this call is already in sight
      have hblind : Blind h' := hrest [] h' List.nil_prefix rfl
      have henables : ¬ call.Enables := fun h => not_blind_enableZK hstart h hstep hblind
      exact ⟨henables, (ih h' (hstart.step henables hstep)).mp hrest⟩
    · rintro ⟨henables, hrest⟩
      refine ⟨hstart.blind, fun h'' hstep' => ?_⟩
      obtain rfl := Option.some.inj (hstep.symm.trans hstep')
      exact (ih h' (hstart.step henables hstep)).mpr hrest

/-- A passphrase is set, zero-knowledge mode is switched on, and the old passphrase is
entered. -/
def oldPassphrase : List VaultCall :=
  [.method ⟨demoFresh, 0, .setPassphrase "" "long enough"⟩,
    .method ⟨demoFresh, 0, .enableZK (wrapKey (.drawn 0) (.derived "new" "c2FsdA==" 310000))
      "c2FsdA==" "310000"⟩,
    .method ⟨demoFresh, 0, .unlock "long enough"⟩]

/-- The server has its data key back in zero-knowledge mode. -/
theorem unlocked_by_old_passphrase : ¬ ∀ fresh salt master (s : Store) file calls,
    Always callStep Blind (newVault (.smooth fresh salt) master { s with keyring := {} } file)
      calls := by
  intro h
  have hend : (run callStep (newVault (.smooth demoFresh 0) [] {} none) oldPassphrase).map
      (fun h => (h.vault.zk, h.vault.box)) =
        some (true, some (.fromString (hexEncode demoFresh))) := by decide
  obtain ⟨h', hrun, hh'⟩ := Option.map_eq_some_iff.mp hend
  obtain ⟨hzk, hbox⟩ := Prod.mk.inj hh'
  have hblind := h demoFresh 0 [] {} none oldPassphrase oldPassphrase h' (List.prefix_refl _) hrun
  rw [(hblind hzk).1.1] at hbox
  exact absurd hbox (by simp)

end CertGuard
