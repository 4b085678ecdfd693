import CertGuard.Lib.Secrecy
import CertGuard.Server.Sessions

/-!
# What the server holds

The keys, wrapped keys and secrets in the memory, the database and the key file of the server, as
pieces of knowledge that others can be made of. The program's calls and statements are no more
than that: whatever they leave can be made of what there was, what they are given and what they
draw.

## Main definitions

* `Key.piece`, `cipherPiece`, `wrappedPiece` — keys, and what is sealed under them
* `Host.held` — everything of keys and secrets on the server
* `Made` — what can be made of a set of pieces

## Main results

* `made_call`, `made_newVault` — what a call and a new start leave
* `made_apply` — what a statement of a request leaves
-/

namespace CertGuard

open Secrecy

/-! ### Pieces of knowledge -/

/-- What they are built from. -/
inductive Datum
  | text (s : String)
  | units (us : List UInt16)
  | number (n : Nat)
  | salt (s : Option Salt)
  | zero
  | drawn (n : Nat)
  | prf (credentialId prfSalt : String)
  deriving DecidableEq

/-- Drawn by a page, or derived by a security key. -/
def Datum.ofPages : Datum → Bool
  | .drawn _ => true
  | .prf _ _ => true
  | _ => false

/-- The functions that make keys. -/
inductive KeyFunction
  | sha256
  | argon2id
  | pbkdf2
  deriving DecidableEq

abbrev Piece := Term Datum KeyFunction

/-- A text. -/
def text (s : String) : Piece := .atom (.text s)

/-- The text, of one. -/
def text? : Piece → Option String
  | .atom (.text s) => some s
  | _ => none

/-- A key, by what it is made of. -/
def Key.piece : Key → Piece
  | .zero => .atom .zero
  | .fromString material => .image .sha256 (text (String.ofList material))
  | .fromPassphrase passphrase salt =>
    .image .argon2id (.pair (text passphrase) (.atom (.salt salt)))
  | .drawn n => .atom (.drawn n)
  | .derived passphrase salt iters =>
    .image .pbkdf2 (.pair (text passphrase) (.pair (text salt) (.atom (.number iters))))
  | .fromPRF credentialId prfSalt => .atom (.prf credentialId prfSalt)

/-- A sealed secret. -/
def cipherPiece : Cipher → Piece
  | .under key plaintext => .sealed key.piece (text plaintext)
  | .text s => text s

/-- A wrapped data key. -/
def wrappedPiece : Wrapped → Piece
  | .under key dek => .sealed key.piece dek.piece
  | .text s => text s

/-! ### What the server holds -/

/-- The rows of `meta`. -/
def Keyring.held (k : Keyring) : List Piece :=
  k.wrapped.toList.map wrappedPiece ++ k.salt.toList.map (fun s => .atom (.salt s)) ++
    k.zkWrapped.toList.map wrappedPiece ++ k.zkSalt.toList.map text ++ k.zkIters.toList.map text

/-- A row of `vault_key_wrappers`. -/
def WrapperRow.held (row : WrapperRow) : List Piece :=
  [text row.credentialId, wrappedPiece row.wrapped, text row.prfSalt]

/-- What is stored of secrets and keys. -/
def Store.held (s : Store) : List Piece :=
  s.keyring.held ++ s.certs.rows.map (fun r => cipherPiece r.2.secretEnc) ++
    s.wrappers.flatMap WrapperRow.held

/-- The vault in memory. -/
def Vault.held (v : Vault) : List Piece :=
  [.atom (.salt v.salt), wrappedPiece v.wrapped, v.dek.piece] ++ v.box.toList.map Key.piece

/-- The key file, as it is and as it is read. -/
def keyFileHeld (file : KeyFile) : List Piece :=
  file.toList.flatMap fun content =>
    [text (String.ofList content), text (String.ofList (trimSpace content))]

/-- Everything of keys and secrets in the memory, the database and the key file. -/
def Host.held (h : Host) : List Piece :=
  [.atom .zero, .atom (.salt none), text ""] ++ h.vault.held ++ h.store.held ++
    keyFileHeld h.keyFile

/-- The body of `POST /vault/keyring`. -/
def ClientKeyring.body (k : ClientKeyring) : List Piece :=
  [wrappedPiece k.wrapped, text k.salt, text k.iters]

/-- The secrets that come with it. -/
def secretsBody (secrets : List (Int × Cipher)) : List Piece :=
  secrets.map fun p => cipherPiece p.2

/-- The body of `PUT /certs/{id}/secret`. -/
def SecretReq.body (req : SecretReq) : List Piece := [text req.value, cipherPiece req.enc]

/-- The texts a call is given. -/
def VaultOp.texts : VaultOp → List String
  | .unlock passphrase => [passphrase]
  | .setPassphrase currentPass newPass => [currentPass, newPass]
  | .enableZK _ salt iters => [salt, iters]
  | _ => []

/-! ### What the server makes of what it holds -/

/-- All of these can be made. -/
def Made (K : Set Piece) (ms : List Piece) : Prop := ∀ m ∈ ms, Derives K m

variable {K : Set Piece} {ms ms' : List Piece} {k : Keyring} {s : Store} {v : Vault} {h : Host}
variable {file : KeyFile} {env : VaultEnv} {ok : Bool} {f : Keyring → Keyring}

@[simp] theorem made_nil : Made K [] := by simp [Made]

@[simp] theorem made_cons {m : Piece} : Made K (m :: ms) ↔ Derives K m ∧ Made K ms := by
  simp [Made]

@[simp] theorem made_append : Made K (ms ++ ms') ↔ Made K ms ∧ Made K ms' := by
  simp [Made, or_imp, forall_and]

theorem made_keyring : Made K k.held ↔
    (∀ w ∈ k.wrapped, Derives K (wrappedPiece w)) ∧
      (∀ salt ∈ k.salt, Derives K (.atom (.salt salt))) ∧
      (∀ w ∈ k.zkWrapped, Derives K (wrappedPiece w)) ∧ (∀ t ∈ k.zkSalt, Derives K (text t)) ∧
      ∀ t ∈ k.zkIters, Derives K (text t) := by
  simp [Keyring.held, Made, or_imp, forall_and]

theorem made_store : Made K s.held ↔ Made K s.keyring.held ∧
    (∀ r ∈ s.certs.rows, Derives K (cipherPiece r.2.secretEnc)) ∧
      ∀ row ∈ s.wrappers, Made K row.held := by
  simp [Store.held, Made, or_imp, forall_and]
  grind

theorem made_vault : Made K v.held ↔ Derives K (.atom (.salt v.salt)) ∧
    Derives K (wrappedPiece v.wrapped) ∧ Derives K v.dek.piece ∧
      ∀ dek ∈ v.box, Derives K dek.piece := by
  simp [Vault.held, Made, or_imp, forall_and]

theorem made_host : Made K h.held ↔
    (Derives K (.atom .zero) ∧ Derives K (.atom (.salt none)) ∧ Derives K (text "")) ∧
      Made K h.vault.held ∧ Made K h.store.held ∧ Made K (keyFileHeld h.keyFile) := by
  simp [Host.held, and_assoc]

theorem made_setMeta (hs : Made K s.held) (hf : ∀ k, Made K k.held → Made K (f k).held) :
    Made K (s.setMeta ok f).held := by
  rw [made_store] at hs
  cases ok with
  | false => exact made_store.mpr hs
  | true => exact made_store.mpr ⟨hf _ hs.1, hs.2⟩

/-- The rows of the operator's vault are set. -/
theorem made_setMode (hs : Made K s.held) (mode : VaultMode) :
    Made K (s.setMeta ok fun k => { k with mode := some mode }).held :=
  made_setMeta hs fun _ hk => hk

theorem made_setSalt (hs : Made K s.held) {salt : Option Salt}
    (hsalt : Derives K (.atom (.salt salt))) :
    Made K (s.setMeta ok fun k => { k with salt := some salt }).held := by
  refine made_setMeta hs fun k hk => ?_
  rw [made_keyring] at hk ⊢
  simpa [hsalt] using ⟨hk.1, hk.2.2⟩

theorem made_setWrapped (hs : Made K s.held) {wrapped : Wrapped}
    (hwrapped : Derives K (wrappedPiece wrapped)) :
    Made K (s.setMeta ok fun k => { k with wrapped := some wrapped }).held := by
  refine made_setMeta hs fun k hk => ?_
  rw [made_keyring] at hk ⊢
  simpa [hwrapped] using hk.2

theorem made_setZKWrapped (hs : Made K s.held) {wrapped : Wrapped}
    (hwrapped : Derives K (wrappedPiece wrapped)) :
    Made K (s.setMeta ok fun k => { k with zkWrapped := some wrapped }).held := by
  refine made_setMeta hs fun k hk => ?_
  rw [made_keyring] at hk ⊢
  simpa [hwrapped] using ⟨hk.1, hk.2.1, hk.2.2.2⟩

theorem made_setZKSalt (hs : Made K s.held) {salt : String} (hsalt : Derives K (text salt)) :
    Made K (s.setMeta ok fun k => { k with zkSalt := some salt }).held := by
  refine made_setMeta hs fun k hk => ?_
  rw [made_keyring] at hk ⊢
  simpa [hsalt] using ⟨hk.1, hk.2.1, hk.2.2.1, hk.2.2.2.2⟩

theorem made_setZKIters (hs : Made K s.held) {iters : String} (hiters : Derives K (text iters)) :
    Made K (s.setMeta ok fun k => { k with zkIters := some iters }).held := by
  refine made_setMeta hs fun k hk => ?_
  rw [made_keyring] at hk ⊢
  simpa [hiters] using ⟨hk.1, hk.2.1, hk.2.2.1, hk.2.2.2.1⟩

theorem made_clearAllSecrets (hs : Made K s.held) (hempty : Derives K (text "")) :
    Made K s.clearAllSecrets.held := by
  rw [made_store] at hs ⊢
  refine ⟨hs.1, fun r hr => ?_, hs.2.2⟩
  obtain ⟨r', -, rfl⟩ := List.mem_map.mp hr
  exact hempty

/-- The material in the key file, or drawn for it. -/
theorem made_loadOrCreateKey (hfile : Made K (keyFileHeld file)) {fresh : FreshKey}
    (hfresh : Derives K (text (String.ofList (hexEncode fresh)))) (written : Bool) :
    Made K (keyFileHeld (loadOrCreateKey file fresh written).2) ∧
      ∀ material ∈ (loadOrCreateKey file fresh written).1,
        Derives K (text (String.ofList material)) := by
  have hcreate : Made K (keyFileHeld file) →
      Made K (keyFileHeld (loadOrCreateKey.create file fresh written).2) ∧
        ∀ material ∈ (loadOrCreateKey.create file fresh written).1,
          Derives K (text (String.ofList material)) := by
    intro hfile
    rw [loadOrCreateKey.create]
    split_ifs
    · simp [keyFileHeld, trimSpace_hexEncode, hfresh]
    · exact ⟨hfile, by simp⟩
  cases file with
  | none => exact hcreate hfile
  | some content =>
    rw [loadOrCreateKey]
    split_ifs
    · simp only [keyFileHeld, Option.toList_some, List.flatMap_cons, List.flatMap_nil,
        List.append_nil, made_cons, made_nil, and_true] at hfile ⊢
      refine ⟨hfile, ?_⟩
      simp [hfile.2]
    · exact hcreate hfile

theorem made_resolveMaterial (hfile : Made K (keyFileHeld file)) {master : List Char}
    (hmaster : Derives K (text (String.ofList master))) (hempty : Derives K (text ""))
    (hfresh : Derives K (text (String.ofList (hexEncode env.fresh)))) :
    Made K (keyFileHeld (resolveMaterial env master file).2) ∧
      Derives K (text (String.ofList (resolveMaterial env master file).1)) := by
  rw [resolveMaterial]
  split_ifs
  · obtain ⟨hfile, hmaterial⟩ := made_loadOrCreateKey hfile hfresh env.written
    refine ⟨hfile, ?_⟩
    simp only
    cases hloaded : (loadOrCreateKey file env.fresh env.written).1 with
    | none => exact hempty
    | some material => exact hmaterial material hloaded
  · exact ⟨hfile, hmaster⟩

/-! ### Calls -/

theorem made_enableZK (hh : Made K h.held) {wrapped : Wrapped} {salt iters : String}
    (hwrapped : Derives K (wrappedPiece wrapped)) (hsalt : Derives K (text salt))
    (hiters : Derives K (text iters)) :
    Made K (h.enableZK env wrapped salt iters).1.held := by
  obtain ⟨⟨hzero, hnone, hempty⟩, hvault, hstore, hfile⟩ := made_host.mp hh
  rw [Host.enableZK]
  by_cases hok : env.setMeta .zkWrapped = false
  · rw [if_pos hok]
    exact hh
  · rw [if_neg hok]
    refine made_host.mpr ⟨⟨hzero, hnone, hempty⟩, ?_, ?_, ?_⟩
    · rw [made_vault] at hvault ⊢
      exact ⟨hvault.1, hvault.2.1, hzero, by simp⟩
    · apply made_setSalt _ hnone
      apply made_setMode
      apply made_setWrapped _ hempty
      apply made_setZKIters _ hiters
      apply made_setZKSalt _ hsalt
      exact made_setZKWrapped hstore hwrapped
    · have hgone : Made K (keyFileHeld (if env.removed then none else h.keyFile)) := by
        split_ifs
        · exact made_nil
        · exact hfile
      exact hgone

/-- The key an opened vault works with. -/
theorem made_setUnlocked (hv : Made K v.held) {dek : Key} (hdek : Derives K dek.piece) :
    Made K (v.setUnlocked dek).held := by
  rw [made_vault] at hv ⊢
  exact ⟨hv.1, hv.2.1, hdek, by simpa [Vault.setUnlocked] using hdek⟩

theorem made_wrapKey {dek kek : Key} (hdek : Derives K dek.piece) (hkek : Derives K kek.piece) :
    Derives K (wrappedPiece (wrapKey dek kek)) :=
  .sealed hkek hdek

theorem made_unwrapKey {wrapped : Wrapped} {dek kek : Key}
    (h : unwrapKey wrapped kek = some dek) (hwrapped : Derives K (wrappedPiece wrapped))
    (hkek : Derives K kek.piece) : Derives K dek.piece := by
  rw [unwrapKey_eq_some_iff.mp h] at hwrapped
  exact .opened hwrapped hkek

theorem made_disableZK (hh : Made K h.held)
    (hfresh : Derives K (text (String.ofList (hexEncode env.fresh)))) :
    Made K (h.disableZK env).1.held := by
  obtain ⟨⟨hzero, hnone, hempty⟩, hvault, hstore, hfile⟩ := made_host.mp hh
  obtain ⟨hfile', hmaterial⟩ := made_loadOrCreateKey hfile hfresh env.written
  have hcleared : Made K (if env.clearSecrets then
      (((h.store.setMeta (env.setMeta .zkWrapped) fun k =>
        { k with zkWrapped := some Sealed.empty }).setMeta (env.setMeta .zkSalt) fun k =>
        { k with zkSalt := some "" }).setMeta (env.setMeta .zkIters) fun k =>
        { k with zkIters := some "" }).clearAllSecrets
      else ((h.store.setMeta (env.setMeta .zkWrapped) fun k =>
        { k with zkWrapped := some Sealed.empty }).setMeta (env.setMeta .zkSalt) fun k =>
        { k with zkSalt := some "" }).setMeta (env.setMeta .zkIters) fun k =>
        { k with zkIters := some "" }).held := by
    split_ifs
    · apply made_clearAllSecrets _ hempty
      apply made_setZKIters _ hempty
      apply made_setZKSalt _ hempty
      exact made_setZKWrapped hstore hempty
    · apply made_setZKIters _ hempty
      apply made_setZKSalt _ hempty
      exact made_setZKWrapped hstore hempty
  rw [Host.disableZK]
  split
  · rename_i heq
    rw [heq] at hfile'
    exact made_host.mpr ⟨⟨hzero, hnone, hempty⟩, hvault, hcleared, hfile'⟩
  · rename_i material file heq
    rw [heq] at hfile' hmaterial
    have hdek : Derives K (Key.fromString material).piece := .image _ (hmaterial material rfl)
    have hwrapped := made_wrapKey hdek hdek
    refine made_host.mpr ⟨⟨hzero, hnone, hempty⟩, made_setUnlocked ?_ hdek, ?_, hfile'⟩
    · rw [made_vault] at hvault ⊢
      exact ⟨hvault.1, hwrapped, hvault.2.2⟩
    · exact made_setWrapped (made_setSalt (made_setMode hcleared _) hnone) hwrapped

theorem made_persist (hh : Made K h.held) (env : VaultEnv) (mode : VaultMode)
    {salt : Option Salt} {wrapped : Wrapped} (hsalt : Derives K (.atom (.salt salt)))
    (hwrapped : Derives K (wrappedPiece wrapped)) :
    Made K (h.persist env mode salt wrapped).1.held := by
  obtain ⟨hconst, hvault, hstore, hfile⟩ := made_host.mp hh
  have hmode : Made K (h.store.setMeta true fun k => { k with mode := some mode }).held :=
    made_setMode hstore mode
  have hsalted : Made K ((h.store.setMeta true fun k => { k with mode := some mode }).setMeta true
      fun k => { k with salt := some salt }).held :=
    made_setSalt hmode hsalt
  rw [Host.persist]
  split_ifs
  · exact hh
  · exact made_host.mpr ⟨hconst, hvault, hmode, hfile⟩
  · exact made_host.mpr ⟨hconst, hvault, hsalted, hfile⟩
  · refine made_host.mpr ⟨hconst, ?_, made_setWrapped hsalted hwrapped, hfile⟩
    rw [made_vault] at hvault ⊢
    exact ⟨hsalt, hwrapped, hvault.2.2⟩

theorem made_setPassphrase (hh : Made K h.held) {currentPass newPass : String}
    (hnew : Derives K (text newPass)) (hsalt : Derives K (.atom (.salt (some env.salt))))
    (hfresh : Derives K (text (String.ofList (hexEncode env.fresh)))) :
    Made K (h.setPassphrase env currentPass newPass).1.held := by
  obtain ⟨⟨hzero, hnone, hempty⟩, hvault, hstore, hfile⟩ := made_host.mp hh
  have hdek := (made_vault.mp hvault).2.2.1
  rw [Host.setPassphrase]
  split
  · exact hh
  · split
    · exact hh
    split
    · -- back under the operator material
      obtain ⟨hfile', hmaterial⟩ := made_loadOrCreateKey hfile hfresh env.written
      split
      · rename_i heq
        rw [heq] at hfile'
        exact made_host.mpr ⟨⟨hzero, hnone, hempty⟩, hvault, hstore, hfile'⟩
      · rename_i material file heq
        rw [heq] at hfile' hmaterial
        refine made_persist ?_ env _ hnone (made_wrapKey hdek (.image _ (hmaterial material rfl)))
        exact made_host.mpr ⟨⟨hzero, hnone, hempty⟩, hvault, hstore, hfile'⟩
    · have hkek : Derives K (Key.fromPassphrase newPass (some env.salt)).piece :=
        .image _ (.pair hnew hsalt)
      have hpersisted := made_persist hh env .passphrase hsalt (made_wrapKey hdek hkek)
      simp only
      split
      · rename_i heq
        rw [heq] at hpersisted
        exact hpersisted
      · rename_i h' heq
        rw [heq] at hpersisted
        obtain ⟨hconst, hvault', hstore', -⟩ := made_host.mp hpersisted
        cases env.removed with
        | false => exact hpersisted
        | true => exact made_host.mpr ⟨hconst, hvault', hstore', made_nil⟩

theorem made_unlock (hh : Made K h.held) {passphrase : String}
    (hpass : Derives K (text passphrase)) : Made K (h.unlock passphrase).1.held := by
  obtain ⟨hconst, hvault, hstore, hfile⟩ := made_host.mp hh
  rw [Host.unlock]
  split_ifs
  · exact hh
  · exact hh
  · exact hh
  · split
    · exact hh
    · rename_i dek hunwrap
      obtain ⟨hsalt, hwrapped, -⟩ := made_vault.mp hvault
      have hdek := made_unwrapKey hunwrap hwrapped (.image _ (.pair hpass hsalt))
      exact made_host.mpr ⟨hconst, made_setUnlocked hvault hdek, hstore, hfile⟩

theorem made_lock (hh : Made K h.held) : Made K h.lock.held := by
  obtain ⟨hconst, hvault, hstore, hfile⟩ := made_host.mp hh
  refine made_host.mpr ⟨hconst, ?_, hstore, hfile⟩
  rw [made_vault] at hvault ⊢
  exact ⟨hvault.1, hvault.2.1, hconst.1, by simp [Host.lock]⟩

/-- What is read of a row of `meta`. -/
theorem made_readMeta {π : Type} {P : π → Prop} {ok : Bool} {row : Option π} {other : π}
    (hrow : ∀ x ∈ row, P x) (hother : P other) : P (readMeta ok row other) := by
  rw [readMeta]
  split_ifs
  · cases row with
    | none => exact hother
    | some x => exact hrow x rfl
  · exact hother

theorem made_newVault (hs : Made K s.held) (hfile : Made K (keyFileHeld file))
    (hconst : Derives K (.atom .zero) ∧ Derives K (.atom (.salt none)) ∧ Derives K (text ""))
    {master : List Char} (hmaster : Derives K (text (String.ofList master)))
    (hfresh : Derives K (text (String.ofList (hexEncode env.fresh)))) :
    Made K (newVault env master s file).held := by
  have hnew : ∀ enabled zk, Made K ({ enabled := enabled, zk := zk } : Vault).held := fun _ _ =>
    made_vault.mpr ⟨hconst.2.1, hconst.2.2, hconst.1, by simp⟩
  obtain ⟨hfile', hmaterial⟩ := made_resolveMaterial hfile hmaster hconst.2.2 hfresh
  obtain ⟨hwrapped, hsalt, -⟩ := made_keyring.mp (made_store.mp hs).1
  rw [newVault]
  split
  · exact made_host.mpr ⟨hconst, hnew _ _, hs, hfile⟩
  · simp only
    split
    · -- the stored keyring, opened in auto mode
      have hwrapped' : Derives K (wrappedPiece
          (readMeta (env.getMeta .wrapped) s.keyring.wrapped Sealed.empty)) :=
        made_readMeta hwrapped hconst.2.2
      have hsalt' : Derives K (.atom (.salt (readMeta (env.getMeta .salt) s.keyring.salt none))) :=
        made_readMeta hsalt hconst.2.1
      have hv : Made K (Vault.held
          { enabled := true
            wrapped := readMeta (env.getMeta .wrapped) s.keyring.wrapped Sealed.empty
            mode := readMeta (env.getMeta .mode) s.keyring.mode .unset
            salt := readMeta (env.getMeta .salt) s.keyring.salt none }) :=
        made_vault.mpr ⟨hsalt', hwrapped', hconst.1, by simp⟩
      split
      · refine made_host.mpr ⟨hconst, ?_, hs, hfile'⟩
        simp only
        split_ifs
        · exact hv
        · cases hunwrap : unwrapKey (readMeta (env.getMeta .wrapped) s.keyring.wrapped Sealed.empty)
              (.fromString (resolveMaterial env master file).1) with
          | none => exact hv
          | some dek =>
            exact made_setUnlocked hv (made_unwrapKey hunwrap (made_vault.mp hv).2.1
              (.image _ hmaterial))
      · exact made_host.mpr ⟨hconst, hv, hs, hfile⟩
    · split
      · exact made_host.mpr ⟨hconst, hnew _ _, hs, hfile'⟩
      · -- a first start
        have hdek : Derives K (Key.fromString (resolveMaterial env master file).1).piece :=
          .image _ hmaterial
        have hwrapped := made_wrapKey hdek hdek
        refine made_host.mpr ⟨hconst, made_setUnlocked ?_ hdek, ?_, hfile'⟩
        · exact made_vault.mpr ⟨hconst.2.1, hwrapped, hconst.1, by simp⟩
        · exact made_setWrapped (made_setSalt (made_setMode hs _) hconst.2.1) hwrapped

theorem made_call (hh : Made K h.held) {op : VaultOp}
    (hsalt : Derives K (.atom (.salt (some env.salt))))
    (hfresh : Derives K (text (String.ofList (hexEncode env.fresh))))
    (htexts : ∀ t ∈ op.texts, Derives K (text t))
    (hwrapped : ∀ wrapped salt iters, op = .enableZK wrapped salt iters →
      Derives K (wrappedPiece wrapped)) : Made K (h.call env op).held := by
  cases op with
  | vaultSeal plaintext => exact hh
  | unlock passphrase => exact made_unlock hh (htexts _ (by simp [VaultOp.texts]))
  | lock => exact made_lock hh
  | setPassphrase currentPass newPass =>
    exact made_setPassphrase hh (htexts _ (by simp [VaultOp.texts])) hsalt hfresh
  | enableZK wrapped salt iters =>
    exact made_enableZK hh (hwrapped _ _ _ rfl) (htexts _ (by simp [VaultOp.texts]))
      (htexts _ (by simp [VaultOp.texts]))
  | disableZK => exact made_disableZK hh hfresh

/-! ### Statements -/

/-- What a statement is given. -/
def SiteEffect.writes : SiteEffect → List Piece
  | enableZK _ keyring => keyring.body
  | disableZK env => [text (String.ofList (hexEncode env.fresh))]
  | setSecret _ enc _ => [cipherPiece enc]
  | insertWrapper row => row.held
  | _ => []

/-- A statement leaves what can be made of what there was and what it is given. -/
theorem made_apply {eff : SiteEffect} (hh : Made K h.held) (heff : Made K eff.writes) :
    Made K (eff.apply h).held := by
  obtain ⟨hconst, hvault, hstore, hfile⟩ := made_host.mp hh
  obtain ⟨hkeyring, hcerts, hwrappers⟩ := made_store.mp hstore
  -- statements on entries and on wrappers
  have hrows : ∀ s' : Store, s'.keyring = h.store.keyring →
      (∀ r ∈ s'.certs.rows, Derives K (cipherPiece r.2.secretEnc)) →
      (∀ row ∈ s'.wrappers, Made K row.held) → Made K ({ h with store := s' } : Host).held :=
    fun s' hk hc hw => made_host.mpr ⟨hconst, hvault, made_store.mpr ⟨hk ▸ hkeyring, hc, hw⟩, hfile⟩
  cases eff with
  | nothing => exact hh
  | answered => exact hh
  | enableZK env keyring =>
    simp only [SiteEffect.writes, ClientKeyring.body, made_cons] at heff
    exact made_enableZK hh heff.1 heff.2.1 heff.2.2.1
  | disableZK env => exact made_disableZK hh (heff _ (by simp [SiteEffect.writes]))
  | addCert row =>
    refine hrows _ rfl (fun r hr => ?_) hwrappers
    rcases List.mem_append.mp hr with hold | hnew
    · exact hcerts r hold
    · rw [List.mem_singleton.mp hnew]
      exact hconst.2.2
  | setSecret id enc meant =>
    obtain ⟨hk, hw⟩ := getD_setSecret h.store id enc
    refine hrows _ hk (fun r hr => ?_) (hw ▸ hwrappers)
    rw [Store.setSecret] at hr
    cases hrow : h.store.certs.get? id with
    | none =>
      rw [hrow] at hr
      exact hcerts r hr
    | some row =>
      simp only [hrow] at hr
      split_ifs at hr
      · obtain ⟨r', hr', rfl⟩ := List.mem_map.mp hr
        by_cases hid : r'.1 = id
        · simpa [hid] using heff _ (List.mem_singleton_self _)
        · simpa [hid] using hcerts r' hr'
      · exact hcerts r hr
  | clearWrappers => exact hrows _ rfl hcerts (by simp [Store.clearVaultWrappers])
  | deleteWrapper credentialId =>
    refine hrows _ rfl hcerts fun row hrow => ?_
    exact hwrappers row (List.mem_of_mem_filter hrow)
  | insertWrapper row =>
    refine hrows _ (keyring_insertVaultWrapper _ _) ?_ ?_
    · rw [Store.insertVaultWrapper]
      split_ifs <;> exact hcerts
    · rw [Store.insertVaultWrapper]
      split_ifs
      · intro row' hrow'
        rcases List.mem_append.mp hrow' with hold | hnew
        · exact hwrappers row' hold
        · rw [List.mem_singleton.mp hnew]
          exact heff
      · exact hwrappers
  | deleteCredential id userId =>
    obtain ⟨hk, hc, hw⟩ := deleteCredential_eq h.store id userId
    exact hrows _ hk (hc ▸ hcerts) fun row hrow => hwrappers row (hw hrow)

end CertGuard
