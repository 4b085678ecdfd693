import CertGuard.Server.Holdings
import CertGuard.Server.Truncation

/-!
# What pages give away

In zero-knowledge mode pages seal what they send. What reaches the server nevertheless is listed
here: requests as they come, texts a page hands over as they are, and hints. Everything else a
page has stays with it: the data key it draws, the passphrases it derives keys from and what a
security key derives.

## Main definitions

* `Flow.body`, `Site.held` — what has come with requests, and everything on the server's side
* `Site.tells`, `Site.seals` — the texts a page hands over in the clear, and those it seals
* `MayHave` — what the server may have where it was given some texts
* `Site.Kept` — nothing else was given away

## Main results

* `Flow.kept_next`, `Site.kept_step` — no step gives away more than it tells
-/

namespace CertGuard

open Secrecy Utf8

/-! ### What has come with requests -/

/-- What has reached the server of something that is under way. -/
def Flow.body : Flow → List Piece
  | post _ _ req => req.keyring.body ++ secretsBody req.secrets
  | postEnable _ _ req _ => req.keyring.body ++ secretsBody req.secrets
  | postClear _ _ _ secrets => secretsBody secrets
  | postStore _ _ secrets => secretsBody secrets
  | put _ req => req.body
  | putZK _ req => req.body
  | putSeal _ req => req.body
  | putStore _ req enc => cipherPiece enc :: req.body
  | add _ secret => [text secret]
  | addZK _ secret => [text secret]
  | pairOwned row _ => row.held
  | pairDelete row => row.held
  | pairInsert row => row.held
  | _ => []

/-- Everything on the server's side. -/
def Site.held (y : Site) : List Piece := y.host.held ++ y.flows.flatMap Flow.body

/-! ### What pages hand over -/

/-- `hint` of a text, as code units. -/
def hintOf (plaintext : String) : List UInt16 := ZK.hint (Utf16.encode plaintext.toList)

/-- The text can be read off its hint. -/
def ShownByHint (plaintext : String) : Prop := (Utf16.encode plaintext.toList).length ≤ 4

instance (plaintext : String) : Decidable (ShownByHint plaintext) :=
  inferInstanceAs (Decidable (_ ≤ _))

/-- The secrets a page seals in an action, each with a hint beside it. -/
def Site.seals (y : Site) : WebAct → List String
  | .saveSecret tab _ plaintext =>
    if (y.tabs tab).zkEnabled ∧ (y.tabs tab).dek.isSome ∧ plaintext ≠ "" then [plaintext] else []
  | .step i _ =>
    match y.flows[i]? with
    | some (.fetch sw) => if sw.todo = [] then sw.plaintexts.map Prod.snd else []
    | _ => []
  | _ => []

/-- The texts that reach the server as they are in an action: what a page sends in the clear, the
secrets that a hint gives away, and the material the server draws. -/
def Site.tells (y : Site) (act : WebAct) : List String :=
  (y.seals act).filter (fun s => ShownByHint s) ++
    match act with
    -- a page that takes the mode to be off sends the passphrase to the server
    | .unlockTab i passphrase => if (y.tabs i).zkEnabled then [] else [passphrase]
    | .enableZK _ _ salt _ => [salt, "310000"]
    | .changeZK _ _ _ salt => [salt, "310000"]
    | .saveSecret tab _ plaintext => if (y.tabs tab).zkEnabled then [] else [plaintext]
    | .addCert tab _ plaintext => if (y.tabs tab).zkEnabled then [] else [plaintext]
    | .pair tab credentialId prfSalt _ =>
      if (y.tabs tab).zkEnabled ∧ (y.tabs tab).dek.isSome then [credentialId, prfSalt] else []
    | .step i o =>
      match y.flows[i]? with
      | some (.delete _) => [String.ofList (hexEncode o.env.fresh)]
      | _ => []
    | _ => []

/-- The passphrases typed into pages, for keys to be derived from. -/
def WebAct.passphrases : WebAct → List String
  | .unlockTab _ passphrase => [passphrase]
  | .enableZK _ passphrase _ _ => [passphrase]
  | .changeZK _ cur next _ => [cur, next]
  | _ => []

/-! ### What may be shown -/

/-- Where these texts are known, the others are not, and neither are the keys that pages draw and
what security keys derive. -/
def hiddenData (plain : Set String) : Set Datum :=
  {d | d.ofPages = true ∨ ∃ s, d = .text s ∧ s ∉ plain}

/-- A data key of a page seals anything, a key made of a passphrase or by a security key a data key
of a page. -/
def pageSeals : Piece → Piece → Prop
  | .atom (.drawn _), _ => True
  | _, m => ∃ n, m = .atom (.drawn n)

/-- The server may have it. -/
def MayHave (plain : Set String) : Piece → Prop := Public (hiddenData plain) pageSeals

variable {A : Set String} {tab : Tab} {y y' : Site}

@[simp] theorem mayHave_text {t : String} : MayHave A (text t) ↔ t ∈ A := by
  simp [MayHave, text, Public, hiddenData, Datum.ofPages]

/-- A data key that a page drew. -/
def Key.Drawn (k : Key) : Prop := ∃ n, k = .drawn n

theorem Key.Drawn.not_mayHave {k : Key} (hk : k.Drawn) : ¬ MayHave A k.piece := by
  obtain ⟨n, rfl⟩ := hk
  exact fun h => h (Or.inl rfl)

theorem not_mayHave_derived {passphrase salt : String} {iters : Nat} (hp : passphrase ∉ A) :
    ¬ MayHave A (Key.derived passphrase salt iters).piece :=
  fun h => hp (mayHave_text.mp h.1)

/-- What is wrapped under a key that the server has not is a data key of a page. -/
theorem drawn_of_unwrapKey {wrapped : Wrapped} {kek dek : Key}
    (h : unwrapKey wrapped kek = some dek) (hwrapped : MayHave A (wrappedPiece wrapped))
    (hkek : ¬ MayHave A kek.piece) (hdrawn : ¬ kek.Drawn) : dek.Drawn := by
  rw [unwrapKey_eq_some_iff.mp h] at hwrapped
  have hcarries : pageSeals kek.piece dek.piece := carries_of_public hwrapped hkek
  have hdek : ∃ n, dek.piece = .atom (.drawn n) := by
    cases kek with
    | drawn n => exact absurd ⟨n, rfl⟩ hdrawn
    | _ => exact hcarries
  obtain ⟨n, hn⟩ := hdek
  cases dek with
  | drawn n => exact ⟨n, rfl⟩
  | _ => simp [Key.piece] at hn

/-- A page may show what it wrapped under a key of its own. -/
theorem mayHave_wrapKey {dek kek : Key} (hdek : dek.Drawn) (hkek : ¬ MayHave A kek.piece) :
    MayHave A (wrappedPiece (wrapKey dek kek)) := by
  obtain ⟨n, rfl⟩ := hdek
  refine Or.inl ⟨hkek, ?_⟩
  unfold pageSeals
  split
  · trivial
  · exact ⟨n, rfl⟩

theorem mayHave_boxSeal {dek : Key} (hdek : dek.Drawn) (plaintext : String) :
    MayHave A (cipherPiece (boxSeal dek plaintext)) := by
  obtain ⟨n, rfl⟩ := hdek
  exact Or.inl ⟨fun h => h (Or.inl rfl), trivial⟩

/-! ### What is under way -/

/-- The passphrases a page has still to use. -/
def Flow.passphrases : Flow → List String
  | list sw => [sw.passphrase]
  | fetch sw => [sw.passphrase]
  | fetchZK sw _ _ => [sw.passphrase]
  | fetchOpen sw _ _ => [sw.passphrase]
  | change _ cur next _ => [cur, next]
  | _ => []

/-- The texts it will send along in the clear. -/
def Flow.clear : Flow → List String
  | list sw => [sw.salt, "310000"]
  | fetch sw => [sw.salt, "310000"]
  | fetchZK sw _ _ => [sw.salt, "310000"]
  | fetchOpen sw _ _ => [sw.salt, "310000"]
  | change _ _ _ salt => [salt, "310000"]
  | pair _ credentialId prfSalt _ => [credentialId, prfSalt]
  | _ => []

/-- What is under way gives nothing away. -/
structure Flow.Kept (A : Set String) (f : Flow) : Prop where
  body : ∀ m ∈ f.body, MayHave A m
  passphrases : ∀ p ∈ f.passphrases, p ∉ A
  clear : ∀ s ∈ f.clear, s ∈ A

/-- A tab is locked, or it has a data key that a page drew. -/
def Tab.Kept (tab : Tab) : Prop := ∀ dek ∈ tab.dek, dek.Drawn

theorem Tab.kept_of_unlock {passphrase : String} {keyring : ClientKeyring} {tab' : Tab}
    (h : ZK.unlock tab passphrase keyring = some tab') (hp : passphrase ∉ A)
    (hkeyring : MayHave A (wrappedPiece keyring.wrapped)) : tab'.Kept := by
  obtain ⟨dek, hdek, rfl⟩ := Option.map_eq_some_iff.mp h
  intro dek' hdek'
  obtain rfl := Option.some.inj hdek'
  exact drawn_of_unwrapKey hdek hkeyring (not_mayHave_derived hp) (by rintro ⟨n, hn⟩; simp at hn)

theorem ClientKeyring.mayHave_body {dek : Key} {passphrase salt : String} (hdek : dek.Drawn)
    (hp : passphrase ∉ A) (hsalt : salt ∈ A) (hiters : "310000" ∈ A) :
    ∀ m ∈ ClientKeyring.body
      ⟨wrapKey dek (.derived passphrase salt 310000), salt, "310000"⟩, MayHave A m := by
  simp only [ClientKeyring.body, List.mem_cons, List.not_mem_nil, or_false, forall_eq_or_imp,
    forall_eq, mayHave_text]
  exact ⟨mayHave_wrapKey hdek (not_mayHave_derived hp), hsalt, hiters⟩

variable {A : Set String} {h : Host} {tabs : Nat → Tab} {o : Outcome} {f : Flow} {m : Move}

/-- A statement gives nothing away. -/
structure Move.Kept (A : Set String) (m : Move) : Prop where
  flow : m.flow.Kept A
  effect : ∀ p ∈ m.effect.writes, MayHave A p
  tab : ∀ t ∈ m.tab, t.2.Kept

/-- One that only moves on. -/
theorem Move.kept_of_flow (hf : f.Kept A) : Move.Kept A { flow := f } :=
  ⟨hf, by simp [SiteEffect.writes], by simp⟩

namespace Flow

/-- What is left to the server. -/
theorem kept_of_body (hbody : ∀ m ∈ f.body, MayHave A m) (hp : f.passphrases = [])
    (hc : f.clear = []) : f.Kept A :=
  ⟨hbody, by simp [hp], by simp [hc]⟩

theorem kept_done : done.Kept A := kept_of_body (by simp [body]) rfl rfl

/-- A page whose request failed. -/
theorem kept_afterFailure (tab : Nat) (enables : Bool) :
    ∀ t ∈ afterFailure tabs tab enables, t.2.Kept := by
  intro t ht
  rw [afterFailure, Option.mem_def, Option.ite_none_right_eq_some, Option.some.injEq] at ht
  obtain ⟨-, rfl⟩ := ht
  simp [Tab.Kept]

/-- A page that collects the secrets there are goes on, or draws its data key. -/
theorem kept_next_fetch {sw : Switch} (hnext : (fetch sw).next h tabs o = some m)
    (hf : (fetch sw).Kept A) : m.Kept A := by
  have hon : ∀ f', f'.body = [] → f'.passphrases = [sw.passphrase] →
      f'.clear = [sw.salt, "310000"] → Move.Kept A { flow := f' } := fun f' hb hp hc =>
    Move.kept_of_flow ⟨by simp [hb], hp ▸ hf.passphrases, hc ▸ hf.clear⟩
  simp only [next] at hnext
  split at hnext
  · split_ifs at hnext
    · obtain rfl := Option.some.inj hnext
      exact hon _ rfl rfl rfl
    · split at hnext
      · obtain rfl := Option.some.inj hnext
        exact hon _ rfl rfl rfl
      · split_ifs at hnext
        · obtain rfl := Option.some.inj hnext
          exact hon _ rfl rfl rfl
        · obtain rfl := Option.some.inj hnext
          exact hon _ rfl rfl rfl
  · -- everything it got is sealed under the data key it draws
    obtain rfl := Option.some.inj hnext
    refine ⟨kept_of_body (fun m hm => ?_) rfl rfl, by simp [SiteEffect.writes], ?_⟩
    · rcases List.mem_append.mp hm with hkeyring | hsecret
      · exact ClientKeyring.mayHave_body ⟨sw.n, rfl⟩ (hf.passphrases _ (by simp [passphrases]))
          (hf.clear _ (by simp [clear])) (hf.clear _ (by simp [clear])) m hkeyring
      · simp only [secretsBody, List.map_map, List.mem_map, Function.comp_apply] at hsecret
        obtain ⟨p, -, rfl⟩ := hsecret
        exact mayHave_boxSeal ⟨sw.n, rfl⟩ p.2
    · simp [Tab.Kept, ZK.create, Key.Drawn]

theorem kept_next_fetchOpen {sw : Switch} {id : Int} {enc : Cipher}
    (hnext : (fetchOpen sw id enc).next h tabs o = some m) (hf : (fetchOpen sw id enc).Kept A) :
    m.Kept A := by
  have hon : ∀ f', f'.body = [] → f'.passphrases = [sw.passphrase] →
      f'.clear = [sw.salt, "310000"] → Move.Kept A { flow := f' } := fun f' hb hp hc =>
    Move.kept_of_flow ⟨by simp [hb], hp ▸ hf.passphrases, hc ▸ hf.clear⟩
  simp only [next] at hnext
  split at hnext
  · split_ifs at hnext
    · obtain rfl := Option.some.inj hnext
      exact hon _ rfl rfl rfl
    · obtain rfl := Option.some.inj hnext
      exact hon _ rfl rfl rfl
  · obtain rfl := Option.some.inj hnext
    exact hon _ rfl rfl rfl

/-- The keyring that is stored. -/
theorem mayHave_zkKeyring (hheld : ∀ m ∈ h.held, MayHave A m) :
    MayHave A (wrappedPiece h.zkKeyring.wrapped) := by
  have hmade : Made {m | m ∈ h.held} h.held := fun _ hm => .known hm
  obtain ⟨⟨-, -, hempty⟩, -, hstore, -⟩ := made_host.mp hmade
  have hrow := (made_keyring.mp (made_store.mp hstore).1).2.2.1
  refine public_of_derives (K := {m | m ∈ h.held}) ?_ hheld
  simp only [Host.zkKeyring]
  cases hzk : h.store.keyring.zkWrapped with
  | none => exact hempty
  | some w => exact hrow w hzk

/-- A page that changes the passphrase wraps the data key it has, or gets from the keyring. -/
theorem kept_next_change {tab : Nat} {cur new salt : String}
    (hnext : (change tab cur new salt).next h tabs o = some m)
    (hf : (change tab cur new salt).Kept A) (hheld : ∀ m ∈ h.held, MayHave A m)
    (htabs : ∀ i, (tabs i).Kept) : m.Kept A := by
  have hunlocked : ∀ t, (if (tabs tab).dek.isSome then some (tabs tab)
      else if o.ok ∧ h.vault.zk then ZK.unlock (tabs tab) cur h.zkKeyring else none) = some t →
        t.Kept := by
    intro t ht
    split_ifs at ht
    · exact Option.some.inj ht ▸ htabs tab
    · exact Tab.kept_of_unlock ht (hf.passphrases _ (by simp [passphrases]))
        (mayHave_zkKeyring hheld)
  simp only [next] at hnext
  split at hnext
  · obtain rfl := Option.some.inj hnext
    exact Move.kept_of_flow kept_done
  · rename_i t ht
    split at hnext
    · obtain rfl := Option.some.inj hnext
      exact Move.kept_of_flow kept_done
    · rename_i keyring hrewrap
      obtain rfl := Option.some.inj hnext
      obtain ⟨dek, hdek, rfl⟩ := Option.map_eq_some_iff.mp hrewrap
      have hkept := hunlocked t ht
      refine ⟨kept_of_body ?_ rfl rfl, by simp [SiteEffect.writes], by simpa using hkept⟩
      have hbody := ClientKeyring.mayHave_body (hkept dek hdek)
        (hf.passphrases new (by simp [passphrases])) (hf.clear salt (by simp [clear]))
        (hf.clear _ (by simp [clear]))
      simpa [body, secretsBody] using hbody

/-- The statements of `handleZKKeyringSet` store what came with the request. -/
theorem kept_next_postEnable {tab : Nat} {enables wasOn : Bool} {req : KeyringReq}
    (hnext : (postEnable tab enables req wasOn).next h tabs o = some m)
    (hf : (postEnable tab enables req wasOn).Kept A) : m.Kept A := by
  have hkeyring : ∀ m ∈ req.keyring.body, MayHave A m := fun m hm =>
    hf.body m (List.mem_append_left _ hm)
  simp only [next] at hnext
  split at hnext
  · obtain rfl := Option.some.inj hnext
    exact ⟨kept_done, hkeyring, kept_afterFailure tab enables⟩
  · obtain rfl := Option.some.inj hnext
    refine ⟨kept_of_body (fun m hm => ?_) rfl rfl, hkeyring, by simp⟩
    exact hf.body m (List.mem_append_right _ hm)

theorem kept_next_postStore {tab : Nat} {enables : Bool} {secrets : List (Int × Cipher)}
    (hnext : (postStore tab enables secrets).next h tabs o = some m)
    (hf : (postStore tab enables secrets).Kept A) (htabs : ∀ i, (tabs i).Kept) : m.Kept A := by
  cases secrets with
  | cons p rest =>
    obtain rfl := Option.some.inj hnext
    have hbody : ∀ m ∈ cipherPiece p.2 :: secretsBody rest, MayHave A m := hf.body
    refine ⟨kept_of_body (fun m hm => hbody m (List.mem_cons_of_mem _ hm)) rfl rfl, ?_, by simp⟩
    simp only
    split_ifs
    · simpa [SiteEffect.writes] using hbody _ List.mem_cons_self
    · simp [SiteEffect.writes]
  | nil =>
    obtain rfl := Option.some.inj hnext
    refine ⟨kept_done, by simp [SiteEffect.writes], fun t ht => ?_⟩
    simp only at ht
    split_ifs at ht
    · exact kept_afterFailure tab enables t ht
    · obtain rfl := Option.some.inj ht
      exact htabs tab
    · simp at ht

/-- What the server seals was sent to it in the clear. -/
theorem kept_next_putSeal {id : Int} {req : SecretReq}
    (hnext : (putSeal id req).next h tabs o = some m) (hf : (putSeal id req).Kept A)
    (hheld : ∀ m ∈ h.held, MayHave A m) : m.Kept A := by
  have hmade : Made ({m | m ∈ h.held} ∪ {m | m ∈ req.body}) h.held := fun _ hm =>
    .known (Or.inl hm)
  obtain ⟨⟨-, -, hempty⟩, hvault, -, -⟩ := made_host.mp hmade
  have hreq : ∀ m ∈ req.body, MayHave A m := hf.body
  have hshown : ∀ m ∈ ({m | m ∈ h.held} ∪ {m | m ∈ req.body} : Set Piece), MayHave A m :=
    fun m hm => hm.elim (hheld m) (hreq m)
  simp only [next] at hnext
  split at hnext
  · obtain rfl := Option.some.inj hnext
    exact Move.kept_of_flow kept_done
  · rename_i enc hseal
    obtain rfl := Option.some.inj hnext
    have henc : MayHave A (cipherPiece (if req.value = "" then Sealed.empty else enc)) := by
      refine public_of_derives ?_ hshown
      split_ifs
      · exact hempty
      · rw [Host.vaultSeal] at hseal
        split at hseal
        · rename_i dek hdek
          obtain rfl := Except.ok.inj hseal
          exact .sealed ((made_vault.mp hvault).2.2.2 dek hdek)
            (.known (Or.inr (by simp [SecretReq.body])))
        · simp at hseal
    refine Move.kept_of_flow (kept_of_body (fun m hm => ?_) rfl rfl)
    rcases List.mem_cons.mp hm with rfl | hm
    · exact henc
    · exact hreq m hm

/-- A page that pairs a security key wraps the data key it has. -/
theorem kept_next_pair {tab : Nat} {credentialId prfSalt : String} {userId : Int}
    (hnext : (pair tab credentialId prfSalt userId).next h tabs o = some m)
    (hf : (pair tab credentialId prfSalt userId).Kept A) (htabs : ∀ i, (tabs i).Kept) :
    m.Kept A := by
  simp only [next] at hnext
  split at hnext
  · obtain rfl := Option.some.inj hnext
    exact Move.kept_of_flow kept_done
  · rename_i wrapped hwrap
    obtain rfl := Option.some.inj hnext
    obtain ⟨dek, hdek, rfl⟩ := Option.map_eq_some_iff.mp hwrap
    refine Move.kept_of_flow (kept_of_body ?_ rfl rfl)
    simp only [body, WrapperRow.held, List.mem_cons, List.not_mem_nil, or_false, forall_eq_or_imp,
      forall_eq, mayHave_text]
    refine ⟨hf.clear _ (by simp [clear]), ?_, hf.clear _ (by simp [clear])⟩
    exact mayHave_wrapKey (htabs tab dek hdek) fun h => h (Or.inl rfl)

/-- The next statement of something that gives nothing away gives nothing away. -/
theorem kept_next (hnext : f.next h tabs o = some m) (hf : f.Kept A)
    (hheld : ∀ m ∈ h.held, MayHave A m) (htabs : ∀ i, (tabs i).Kept)
    (hfresh : ∀ tab, f = .delete tab → String.ofList (hexEncode o.env.fresh) ∈ A) : m.Kept A := by
  have hwrite : ∀ (eff : SiteEffect), (∀ p ∈ eff.writes, MayHave A p) →
      ∀ p ∈ (if o.ok then eff else .nothing : SiteEffect).writes, MayHave A p := by
    intro eff heff
    split_ifs
    · exact heff
    · simp [SiteEffect.writes]
  cases f with
  | fetch sw => exact kept_next_fetch hnext hf
  | fetchOpen sw id enc => exact kept_next_fetchOpen hnext hf
  | change tab cur new salt => exact kept_next_change hnext hf hheld htabs
  | postEnable tab enables req wasOn => exact kept_next_postEnable hnext hf
  | postStore tab enables secrets => exact kept_next_postStore hnext hf htabs
  | putSeal id req => exact kept_next_putSeal hnext hf hheld
  | pair tab credentialId prfSalt userId => exact kept_next_pair hnext hf htabs
  | list sw =>
    obtain rfl := Option.some.inj hnext
    exact Move.kept_of_flow ⟨by simp [body], hf.passphrases, hf.clear⟩
  | fetchZK sw id enc =>
    obtain rfl := Option.some.inj hnext
    apply Move.kept_of_flow
    split_ifs
    · exact ⟨by simp [body], hf.passphrases, hf.clear⟩
    · exact ⟨by simp [body], hf.passphrases, hf.clear⟩
  | post tab enables req =>
    simp only [next] at hnext
    split_ifs at hnext
    · obtain rfl := Option.some.inj hnext
      exact ⟨kept_done, by simp [SiteEffect.writes], kept_afterFailure tab enables⟩
    · obtain rfl := Option.some.inj hnext
      exact Move.kept_of_flow (kept_of_body hf.body rfl rfl)
  | postClear tab enables wasOn secrets =>
    obtain rfl := Option.some.inj hnext
    refine ⟨kept_of_body hf.body rfl rfl, ?_, by simp⟩
    simp only
    split_ifs
    · simp [SiteEffect.writes]
    · simp [SiteEffect.writes]
  | delete tab =>
    have hmaterial := hfresh tab rfl
    simp only [next] at hnext
    split at hnext
    · obtain rfl := Option.some.inj hnext
      exact ⟨kept_done, by simpa [SiteEffect.writes] using hmaterial, by simp⟩
    · obtain rfl := Option.some.inj hnext
      exact ⟨kept_of_body (by simp [body]) rfl rfl, by simpa [SiteEffect.writes] using hmaterial,
        by simp⟩
  | deleteClear tab =>
    obtain rfl := Option.some.inj hnext
    exact ⟨kept_done, hwrite .clearWrappers (by simp [SiteEffect.writes]), by simp [Tab.Kept]⟩
  | put id req =>
    obtain rfl := Option.some.inj hnext
    apply Move.kept_of_flow
    split_ifs
    · exact kept_of_body hf.body rfl rfl
    · exact kept_done
  | putZK id req =>
    obtain rfl := Option.some.inj hnext
    apply Move.kept_of_flow
    split_ifs
    · refine kept_of_body (fun m hm => ?_) rfl rfl
      rcases List.mem_cons.mp hm with rfl | hm
      · exact hf.body _ (by simp [body, SecretReq.body])
      · exact hf.body m hm
    · exact kept_of_body hf.body rfl rfl
  | putStore id req enc =>
    obtain rfl := Option.some.inj hnext
    refine ⟨kept_done, hwrite (.setSecret id enc req.Clears) ?_, by simp⟩
    simpa [SiteEffect.writes] using hf.body _ List.mem_cons_self
  | add row secret =>
    simp only [next] at hnext
    split_ifs at hnext
    · obtain rfl := Option.some.inj hnext
      exact ⟨kept_done, by simp [SiteEffect.writes], by simp⟩
    · obtain rfl := Option.some.inj hnext
      exact ⟨kept_of_body hf.body rfl rfl, by simp [SiteEffect.writes], by simp⟩
    · obtain rfl := Option.some.inj hnext
      exact Move.kept_of_flow kept_done
  | addZK id secret =>
    obtain rfl := Option.some.inj hnext
    apply Move.kept_of_flow
    split_ifs
    · exact kept_done
    · have hempty : MayHave A (text "") := hheld _ (by simp [Host.held])
      refine kept_of_body (fun m hm => ?_) rfl rfl
      rcases List.mem_pair.mp hm with rfl | rfl
      · exact hf.body _ List.mem_cons_self
      · exact hempty
  | pairOwned row userId =>
    simp only [next] at hnext
    split at hnext
    · obtain rfl := Option.some.inj hnext
      exact Move.kept_of_flow kept_done
    · split_ifs at hnext
      · obtain rfl := Option.some.inj hnext
        exact Move.kept_of_flow (kept_of_body hf.body rfl rfl)
      · obtain rfl := Option.some.inj hnext
        exact Move.kept_of_flow kept_done
  | pairDelete row =>
    simp only [next] at hnext
    split_ifs at hnext
    · obtain rfl := Option.some.inj hnext
      exact ⟨kept_of_body hf.body rfl rfl, by simp [SiteEffect.writes], by simp⟩
    · obtain rfl := Option.some.inj hnext
      exact Move.kept_of_flow kept_done
  | pairInsert row =>
    obtain rfl := Option.some.inj hnext
    exact ⟨kept_done, hwrite (.insertWrapper row) hf.body, by simp⟩
  | unpair credentialId userId =>
    simp only [next] at hnext
    split at hnext
    · obtain rfl := Option.some.inj hnext
      exact Move.kept_of_flow kept_done
    · obtain rfl := Option.some.inj hnext
      apply Move.kept_of_flow
      split_ifs
      · exact kept_of_body (by simp [body]) rfl rfl
      · exact kept_done
  | unpairDelete credentialId =>
    obtain rfl := Option.some.inj hnext
    exact ⟨kept_done, hwrite (.deleteWrapper credentialId) (by simp [SiteEffect.writes]), by simp⟩
  | removeKey id userId =>
    obtain rfl := Option.some.inj hnext
    exact ⟨kept_done, hwrite (.deleteCredential id userId) (by simp [SiteEffect.writes]), by simp⟩
  | done => simp [next] at hnext

end Flow

/-! ### Steps -/

/-- The server has what it may have, the tabs have keys of pages, and nothing under way gives
anything away. -/
structure Site.Kept (A : Set String) (y : Site) : Prop where
  host : ∀ m ∈ y.host.held, MayHave A m
  tabs : ∀ i, (y.tabs i).Kept
  flows : ∀ f ∈ y.flows, f.Kept A

namespace Site

variable {y y' : Site} {act : WebAct}

theorem Kept.start (hy : y.Kept A) (hf : f.Kept A) : (y.start f).Kept A := by
  refine ⟨hy.host, hy.tabs, fun f' hf' => ?_⟩
  rcases List.mem_append.mp hf' with hold | hnew
  · exact hy.flows f' hold
  · rw [List.mem_singleton.mp hnew]
    exact hf

theorem Kept.setTab (hy : y.Kept A) {i : Nat} {t : Tab} (ht : t.Kept) : (y.setTab i t).Kept A := by
  refine ⟨hy.host, fun j => ?_, hy.flows⟩
  simp only [Site.setTab]
  split_ifs
  · exact ht
  · exact hy.tabs j

/-- What a page sends for a secret that was typed. -/
theorem Kept.secretBody (hy : y.Kept A) {tab : Nat} {plaintext : String} {req : SecretReq}
    (hreq : secretBody (y.tabs tab) plaintext = some req)
    (htold : (y.tabs tab).zkEnabled = false → plaintext ∈ A) : ∀ m ∈ req.body, MayHave A m := by
  have hempty : MayHave A (text "") := hy.host _ (by simp [Host.held])
  rw [CertGuard.secretBody] at hreq
  split_ifs at hreq with hoff hblank
  · obtain rfl := Option.some.inj hreq
    intro m hm
    rcases List.mem_pair.mp hm with rfl | rfl
    · exact mayHave_text.mpr (htold hoff)
    · exact hempty
  · obtain rfl := Option.some.inj hreq
    intro m hm
    rcases List.mem_pair.mp hm with rfl | rfl
    · exact hempty
    · exact hempty
  · obtain ⟨enc, henc, rfl⟩ := Option.map_eq_some_iff.mp hreq
    obtain ⟨dek, hdek, rfl⟩ := Option.map_eq_some_iff.mp henc
    intro m hm
    rcases List.mem_pair.mp hm with rfl | rfl
    · exact hempty
    · exact mayHave_boxSeal (hy.tabs tab dek hdek) plaintext

/-- A page that is unlocked with a security key gets a data key of a page. -/
theorem Kept.unlockWithKey (hy : y.Kept A) {credentialId : String} {row : WrapperRow}
    {tab tab' : Tab} (hrow : y.host.store.vaultWrapper credentialId = some row)
    (h : ZK.unlockWithKey tab (.fromPRF credentialId row.prfSalt) row.wrapped = some tab') :
    tab'.Kept := by
  have hmade : Made {m | m ∈ y.host.held} y.host.held := fun _ hm => .known hm
  have hwrappers := (made_store.mp (made_host.mp hmade).2.2.1).2.2
  have hwrapped := hwrappers row (List.mem_of_find?_eq_some hrow) (wrappedPiece row.wrapped)
    (by simp [WrapperRow.held])
  obtain ⟨dek, hdek, rfl⟩ := Option.map_eq_some_iff.mp h
  intro dek' hdek'
  obtain rfl := Option.some.inj hdek'
  exact drawn_of_unwrapKey hdek (public_of_derives hwrapped hy.host) (fun h => h (Or.inl rfl))
    (by rintro ⟨n, hn⟩; simp at hn)

/-- A step gives nothing away but what it tells. -/
theorem kept_step (h : y.step act = some y') (hy : y.Kept A)
    (hpass : ∀ p ∈ act.passphrases, p ∉ A) (htold : ∀ s ∈ y.tells act, s ∈ A) : y'.Kept A := by
  have hempty : MayHave A (text "") := hy.host _ (by simp [Host.held])
  cases act with
  | load i =>
    obtain rfl := Option.some.inj h
    exact hy.setTab (by simp [Tab.Kept])
  | lockTab i =>
    obtain rfl := Option.some.inj h
    exact hy.setTab (by simp [Tab.Kept])
  | unlockTab i passphrase =>
    simp only [step, Option.ite_none_right_eq_some] at h
    obtain ⟨t, ht, rfl⟩ := Option.map_eq_some_iff.mp h.2
    exact hy.setTab (Tab.kept_of_unlock ht (hpass _ (by simp [WebAct.passphrases]))
      (Flow.mayHave_zkKeyring hy.host))
  | unlockWithKey i credentialId =>
    obtain ⟨row, hrow, hunlock⟩ := Option.bind_eq_some_iff.mp h
    obtain ⟨t, ht, rfl⟩ := Option.map_eq_some_iff.mp hunlock
    exact hy.setTab (hy.unlockWithKey hrow ht)
  | enableZK tab passphrase salt n =>
    obtain rfl := Option.some.inj h
    refine hy.start ⟨by simp [Flow.body], hpass, fun s hs => htold s ?_⟩
    simpa [tells, seals, Flow.clear] using hs
  | changeZK tab cur new salt =>
    obtain rfl := Option.some.inj h
    refine hy.start ⟨by simp [Flow.body], hpass, fun s hs => htold s ?_⟩
    simpa [tells, seals, Flow.clear] using hs
  | disableZK tab =>
    obtain rfl := Option.some.inj h
    exact hy.start (Flow.kept_of_body (by simp [Flow.body]) rfl rfl)
  | saveSecret tab id plaintext =>
    simp only [step, Option.ite_none_left_eq_some] at h
    obtain ⟨req, hreq, rfl⟩ := Option.map_eq_some_iff.mp h.2
    refine hy.start (Flow.kept_of_body (hy.secretBody hreq fun hoff => htold _ ?_) rfl rfl)
    simp [tells, hoff]
  | addCert tab row plaintext =>
    obtain rfl := Option.some.inj h
    refine hy.start (Flow.kept_of_body (fun m hm => ?_) rfl rfl)
    rw [List.mem_singleton.mp hm]
    cases hzk : (y.tabs tab).zkEnabled with
    | false => exact mayHave_text.mpr (htold _ (by simp [tells, hzk]))
    | true => exact hempty
  | pair tab credentialId prfSalt userId =>
    simp only [step, Option.ite_none_right_eq_some, Option.some.injEq] at h
    obtain ⟨hopen, rfl⟩ := h
    refine hy.start ⟨by simp [Flow.body], by simp [Flow.passphrases], fun s hs => htold s ?_⟩
    simpa [tells, seals, hopen.1, hopen.2, Flow.clear] using hs
  | unpair credentialId userId =>
    obtain rfl := Option.some.inj h
    exact hy.start (Flow.kept_of_body (by simp [Flow.body]) rfl rfl)
  | removeKey id userId =>
    obtain rfl := Option.some.inj h
    exact hy.start (Flow.kept_of_body (by simp [Flow.body]) rfl rfl)
  | step i o =>
    obtain ⟨m, hm, rfl⟩ := Option.map_eq_some_iff.mp h
    obtain ⟨f, hf, hnext⟩ := Option.bind_eq_some_iff.mp hm
    have hkept := Flow.kept_next hnext (hy.flows f (List.mem_of_getElem? hf)) hy.host hy.tabs
      (by
        rintro tab rfl
        exact htold _ (by simp [tells, hf]))
    refine ⟨fun p hp => ?_, fun j => ?_, fun f' hf' => ?_⟩
    · -- the statement makes what it leaves of what there was and what it is given
      have hmade : Made ({m | m ∈ y.host.held} ∪ {p | p ∈ m.effect.writes})
          (m.effect.apply y.host).held :=
        made_apply (fun _ hp => .known (Or.inl hp)) fun _ hp => .known (Or.inr hp)
      exact public_of_derives (hmade p hp) fun q hq => hq.elim (hy.host q) (hkept.effect q)
    · simp only
      cases htab : m.tab with
      | none => simpa [htab] using hy.tabs j
      | some t =>
        by_cases hj : t.1 = j
        · simpa [hj] using hkept.tab t htab
        · simpa [hj] using hy.tabs j
    · rcases List.mem_or_eq_of_mem_set hf' with hold | rfl
      · exact hy.flows f' hold
      · exact hkept.flow

end Site

end CertGuard
