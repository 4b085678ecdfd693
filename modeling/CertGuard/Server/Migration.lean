import CertGuard.Server.Sessions

/-!
# Secrets across the switch

To switch to zero-knowledge mode a page asks for every secret, seals what it got under a
data key of its own and sends it with the keyring. The server drops its key and then
stores what was sent, one statement after the other, while other pages go on. What
becomes of the secret of one entry is followed through such a run.

## Main definitions

* `SwitchRecord` — what is remembered of a run for an entry
* `Unharmed`, `InTransit` — the entry has what it had, or the switch has it still to store
* `SecretKept` — nothing is lost
* `Carries` — what an action must meet for this

## Main results

* `secret_kept` — where every action meets this, nothing is lost over any run
* `secret_left_behind` — a run that loses a secret
-/

namespace CertGuard

open Transition

/-- What is remembered of a run for an entry. -/
structure SwitchRecord where
  /-- Where the request that switched the mode on stands, until it is answered. -/
  switching : Option Nat := none
  /-- The entry had a secret then, and it was not cleared on purpose since. -/
  had : Bool := false
  deriving DecidableEq, Repr

/-- The entries whose secrets a request that switched the mode on has still to store. -/
def Flow.unstored : Flow → List Int
  | postClear _ _ _ secrets => secrets.map Prod.fst
  | postStore _ _ secrets => secrets.map Prod.fst
  | _ => []

/-- The entries whose secrets come with a request that is about to switch. -/
def Flow.carried : Flow → List Int
  | postEnable _ _ req _ => req.secrets.map Prod.fst
  | _ => []

/-- The secret the next statement of a switch stores. -/
def Flow.storing : Flow → Option (Int × Cipher)
  | postStore _ _ (p :: _) => some p
  | _ => none

/-- The text opens under a data key. -/
def Readable (enc : Cipher) (dek : Option Key) : Prop :=
  (dek.bind fun k => boxOpen k enc).isSome = true

instance (enc : Cipher) (dek : Option Key) : Decidable (Readable enc dek) :=
  inferInstanceAs (Decidable (_ = true))

variable (id : Int)

/-- What a step adds to the record of an entry. -/
def SwitchRecord.note (w : SwitchRecord) (y : Site) : WebAct → SwitchRecord
  | .step i o =>
    match y.effect (.step i o) with
    | .enableZK env _ =>
      if env.setMeta .zkWrapped = true ∧ y.host.vault.zk = false then
        ⟨some i, decide (y.host.store.secretEnc id ≠ Sealed.empty)⟩
      else w
    | .disableZK _ => {}
    | .answered => if w.switching = some i then { w with switching := none } else w
    | .setSecret id' enc meant =>
      if id' = id ∧ enc = Sealed.empty ∧ meant = true ∧
          (y.host.store.setSecret id' enc).isSome then
        { w with had := false }
      else w
    | _ => w
  | _ => w

/-- A secret there is opens under the data key wrapped in the keyring, and an entry that
had one has one. -/
def Unharmed (v : Site × SwitchRecord) : Prop :=
  (v.1.host.store.secretEnc id ≠ Sealed.empty →
      Readable (v.1.host.store.secretEnc id) v.1.host.store.keyring.dataKey) ∧
    (v.2.had = true → v.1.host.store.secretEnc id ≠ Sealed.empty)

/-- The mode is on, and the switch has the secret of the entry still to store. -/
def InTransit (v : Site × SwitchRecord) : Prop :=
  v.1.host.vault.zk = true ∧ ∃ f ∈ v.2.switching.bind fun i => v.1.flows[i]?, id ∈ f.unstored

/-- Once the request that switched the mode on has answered, nothing of the entry is lost
while the mode is on. -/
def SecretKept (v : Site × SwitchRecord) : Prop :=
  v.1.host.vault.zk = true → v.2.switching = none → Unharmed id v

/-- The switch stores the secret if it is to. -/
def Stores (v : Site × SwitchRecord) (i : Nat) (o : Outcome) : Prop :=
  ∀ f ∈ v.1.flows[i]?, ∀ p ∈ f.storing, v.2.switching = some i → p.1 = id →
    Unharmed id v ∨ o.ok = true ∧ (v.1.host.store.setSecret p.1 p.2).isSome

/-- A keyring that takes effect wraps the data key the secret is sealed under, or it comes
with the secret and switches the mode on; and a secret that is stored is sealed under the
data key of the keyring, or it is cleared on purpose. -/
def Fits (v : Site × SwitchRecord) (i : Nat) : SiteEffect → Prop
  | .enableZK env keyring =>
    env.setMeta .zkWrapped = true → v.1.host.store.secretEnc id ≠ Sealed.empty →
      Readable (v.1.host.store.secretEnc id) keyring.wrapped.payload? ∨
        v.1.host.vault.zk = false ∧ ∃ f ∈ v.1.flows[i]?, id ∈ f.carried
  | .setSecret id' enc meant =>
    v.1.host.vault.zk = true → id' = id → (v.1.host.store.setSecret id' enc).isSome →
      Readable enc v.1.host.store.keyring.dataKey ∨
        enc = Sealed.empty ∧ (meant = true ∨ v.2.had = false)
  | _ => True

/-- What a statement must meet. -/
def Carries (v : Site × SwitchRecord) (i : Nat) (o : Outcome) : Prop :=
  Stores id v i o ∧ Fits id v i (v.1.effect (.step i o))

/-- What an action must meet, unless the switch has the secret still to store anyway. -/
def KeepsSecret (v : Site × SwitchRecord) : WebAct → Prop
  | .step i o => v.2.switching ≠ some i ∧ InTransit id v ∨ Carries id v i o
  | _ => True

variable {id} {y y' : Site} {w w' : SwitchRecord} {v : Site × SwitchRecord} {act : WebAct}
variable {i j : Nat} {o : Outcome} {f : Flow} {m : Move} {h : Host} {tabs : Nat → Tab}

/-! ### Single statements -/

/-- A statement of a request that stores secrets leaves one to be stored, or it is to store
it. -/
theorem unstored_next (hid : id ∈ f.unstored) (hnext : f.next h tabs o = some m) :
    id ∈ m.flow.unstored ∨ ∃ enc, f.storing = some (id, enc) := by
  cases f with
  | postClear tab enables wasOn secrets =>
    obtain rfl := Option.some.inj hnext
    exact Or.inl hid
  | postStore tab enables secrets =>
    cases secrets with
    | nil => exact absurd hid List.not_mem_nil
    | cons p rest =>
      obtain rfl := Option.some.inj hnext
      rcases List.mem_cons.mp hid with rfl | hrest
      · exact Or.inr ⟨p.2, rfl⟩
      · exact Or.inl hrest
  | _ => exact absurd hid List.not_mem_nil

/-- A secret that is to be stored is stored unless the statement fails. -/
theorem storing_next {p : Int × Cipher} (hstore : f.storing = some p)
    (hnext : f.next h tabs o = some m) (hok : o.ok = true) :
    m.effect = .setSecret p.1 p.2 false := by
  cases f with
  | postStore tab enables secrets =>
    cases secrets with
    | nil => exact absurd hstore (by simp [Flow.storing])
    | cons q rest =>
      obtain rfl := Option.some.inj hstore
      obtain rfl := Option.some.inj hnext
      exact if_pos hok
  | _ => exact absurd hstore (by simp [Flow.storing])

/-- Only a request with a keyring switches the mode on, and it goes on to store what came
with the keyring. -/
theorem enableZK_next {env : VaultEnv} {keyring : ClientKeyring}
    (hnext : f.next h tabs o = some m) (heff : m.effect = .enableZK env keyring) :
    f.unstored = [] ∧ (env.setMeta .zkWrapped = true → m.flow.unstored = f.carried) := by
  cases f with
  | postEnable tab enables req wasOn =>
    refine ⟨rfl, fun hok => ?_⟩
    simp only [Flow.next] at hnext
    split at hnext
    · next e hfailed =>
      obtain rfl := Option.some.inj hnext
      obtain ⟨rfl, -⟩ := SiteEffect.enableZK.inj heff
      exact absurd ((enableZK_of_ok hok _ _ _).1 ▸ hfailed) (by simp)
    · obtain rfl := Option.some.inj hnext
      rfl
  | postStore tab enables secrets => cases secrets <;> grind [Flow.next]
  | _ => grind [Flow.next]

/-! ### What a step leaves of the record -/

/-- Once the mode is on, only the answer to the request that switched it on ends the
switch. -/
theorem switching_note (hzk : y.host.vault.zk = true)
    (hoff : ∀ env, y.effect (.step i o) ≠ .disableZK env)
    (hanswer : y.effect (.step i o) = .answered → w.switching ≠ some i) :
    (w.note id y (.step i o)).switching = w.switching := by
  simp only [SwitchRecord.note]
  cases heff : y.effect (.step i o) with
  | enableZK env keyring => simp [hzk]
  | disableZK env => exact absurd heff (hoff env)
  | answered => simp [hanswer heff]
  | setSecret id' enc meant =>
    dsimp only
    split_ifs <;> rfl
  | _ => rfl

/-- Once the mode is on, an entry is never counted as having had a secret anew. -/
theorem had_of_note (hzk : y.host.vault.zk = true)
    (hhad : (w.note id y (.step i o)).had = true) : w.had = true := by
  simp only [SwitchRecord.note] at hhad
  cases heff : y.effect (.step i o) with
  | enableZK env keyring => simpa [heff, hzk] using hhad
  | disableZK env => simp [heff] at hhad
  | answered =>
    simp only [heff] at hhad
    split_ifs at hhad
    · exact hhad
    · exact hhad
  | setSecret id' enc meant =>
    simp only [heff] at hhad
    split_ifs at hhad
    exact hhad
  | _ => simpa [heff] using hhad

/-! ### Steps of others, and of the switch -/

/-- Whatever another request does, what the switch has still to store it has still to
store. -/
theorem InTransit.step_other (h : InTransit id (y, w)) (hne : w.switching ≠ some i)
    (hoff : ∀ env, y.effect (.step i o) ≠ .disableZK env) (hzk : y'.host.vault.zk = true)
    (hflows : y'.flows = y.flows.set i m.flow) :
    InTransit id (y', w.note id y (.step i o)) := by
  obtain ⟨hon, f, hf, hid⟩ := h
  obtain ⟨j, hj, hfj⟩ := Option.bind_eq_some_iff.mp hf
  have hij : i ≠ j := fun hij => hne (hij ▸ hj)
  refine ⟨hzk, f, ?_, hid⟩
  rw [switching_note hon hoff fun _ => hne]
  refine Option.bind_eq_some_iff.mpr ⟨j, hj, ?_⟩
  rw [hflows, List.getElem?_set_ne hij, hfj]

/-- A step that leaves the secret and the data key alone harms nothing, unless the switch
was to store the secret and did not. -/
theorem step_frame (hzk : y.host.vault.zk = true) (hzk' : y'.host.vault.zk = true)
    (hinv : Unharmed id (y, w) ∨ InTransit id (y, w)) (hf : y.flows[i]? = some f)
    (hnext : f.next y.host y.tabs o = some m) (heff : y.effect (.step i o) = m.effect)
    (hflows : y'.flows = y.flows.set i m.flow) (hoff : ∀ env, m.effect ≠ .disableZK env)
    (henc : y'.host.store.secretEnc id = y.host.store.secretEnc id)
    (hkey : y'.host.store.keyring.dataKey = y.host.store.keyring.dataKey)
    (hstores : ∀ enc, w.switching = some i → f.storing = some (id, enc) → Unharmed id (y, w)) :
    Unharmed id (y', w.note id y (.step i o)) ∨ InTransit id (y', w.note id y (.step i o)) := by
  have hoff' : ∀ env, y.effect (.step i o) ≠ .disableZK env := fun env => heff ▸ hoff env
  have hunharmed : Unharmed id (y, w) → Unharmed id (y', w.note id y (.step i o)) := by
    rintro ⟨hreadable, hhad⟩
    refine ⟨?_, fun hhad' => ?_⟩
    · rw [henc, hkey]
      exact hreadable
    · rw [henc]
      exact hhad (had_of_note hzk hhad')
  rcases hinv with hsafe | htransit
  · exact Or.inl (hunharmed hsafe)
  -- the flow that switches either goes on or stores what it had in hand
  by_cases hi : w.switching = some i
  · obtain ⟨-, f', hf', hid⟩ := htransit
    have hff' : f' = f := by
      rw [hi, Option.bind_some, hf] at hf'
      exact (Option.some.inj hf').symm
    subst hff'
    rcases unstored_next hid hnext with hid' | ⟨enc, hstoring⟩
    · right
      refine ⟨hzk', m.flow, ?_, hid'⟩
      have hlt := (List.getElem?_eq_some_iff.mp hf).1
      rw [switching_note hzk hoff', hi, Option.bind_some, hflows, List.getElem?_set_self hlt]
      · rfl
      · -- once it has answered it has nothing to store
        intro hanswer _
        rw [heff] at hanswer
        cases f' with
        | postStore tab enables secrets => cases secrets <;> grind [Flow.next, Flow.unstored]
        | _ => grind [Flow.next, Flow.unstored]
    · exact Or.inl (hunharmed (hstores enc hi hstoring))
  · exact Or.inr (htransit.step_other hi hoff' hzk' hflows)

/-- The statement that switches the mode on takes the secret along, unless there is none. -/
theorem switch_step (hzk : y.host.vault.zk = false) (hzk' : y'.host.vault.zk = true)
    (hf : y.flows[i]? = some f) (hnext : f.next y.host y.tabs o = some m)
    (heff : y.effect (.step i o) = m.effect) (hhost : y'.host = m.effect.apply y.host)
    (hflows : y'.flows = y.flows.set i m.flow) (hcarries : Carries id (y, w) i o) :
    Unharmed id (y', w.note id y (.step i o)) ∨ InTransit id (y', w.note id y (.step i o)) := by
  -- only turning zero-knowledge mode on makes it on
  obtain ⟨env, keyring, henable⟩ : ∃ env keyring, m.effect = .enableZK env keyring := by
    by_contra hother
    push Not at hother
    cases hm : m.effect with
    | disableZK env =>
      rw [hhost, hm, SiteEffect.apply, zk_disableZK] at hzk'
      exact absurd hzk' (by decide)
    | _ =>
      rw [hhost, (SiteEffect.keyring_apply y.host m.effect hother (by simp [hm])).1, hzk] at hzk'
      exact absurd hzk' (by decide)
  rw [hhost, henable, SiteEffect.apply] at hzk'
  cases hok : env.setMeta .zkWrapped with
  | false =>
    rw [enableZK_of_failed hok, hzk] at hzk'
    exact absurd hzk' (by decide)
  | true =>
    obtain ⟨-, hon, hwrapped, hcerts, -⟩ := enableZK_of_ok hok (h := y.host) keyring.wrapped
      keyring.salt keyring.iters
    have henc : y'.host.store.secretEnc id = y.host.store.secretEnc id := by
      rw [hhost, henable, SiteEffect.apply]
      exact secretEnc_congr hcerts id
    have hkey : y'.host.store.keyring.dataKey = keyring.wrapped.payload? := by
      rw [hhost, henable, SiteEffect.apply, Keyring.dataKey, hwrapped, Option.bind_some]
    have hrecord : w.note id y (.step i o) =
        ⟨some i, decide (y.host.store.secretEnc id ≠ Sealed.empty)⟩ := by
      simp [SwitchRecord.note, heff, henable, hok, hzk]
    -- an empty secret cannot be harmed; another was carried by the flow or readable already
    by_cases hempty : y.host.store.secretEnc id = Sealed.empty
    · left
      rw [hrecord]
      exact ⟨fun hne => absurd (henc.trans hempty) hne,
        fun hhad => absurd hempty (by simpa using hhad)⟩
    · have hcarried := hcarries.2
      rw [heff, henable] at hcarried
      rcases hcarried hok hempty with hreadable | ⟨-, f', hf', hid⟩
      · left
        refine ⟨fun _ => ?_, fun _ => ?_⟩
        · rw [henc, hkey]
          exact hreadable
        · rw [henc]
          exact hempty
      · right
        obtain rfl := Option.some.inj (hf.symm.trans hf')
        have hlt := (List.getElem?_eq_some_iff.mp hf).1
        refine ⟨hhost ▸ henable ▸ hon, m.flow, ?_, ?_⟩
        · rw [hrecord, Option.bind_some, hflows, List.getElem?_set_self hlt]
          rfl
        · rw [(enableZK_next hnext henable).2 hok]
          exact hid

/-- A keyring under which the secret opens as well may replace the keyring. -/
theorem Unharmed.rewrap (h : Unharmed id (y, w)) (hzk : y.host.vault.zk = true)
    (henc : y'.host.store.secretEnc id = y.host.store.secretEnc id)
    (hopen : y.host.store.secretEnc id ≠ Sealed.empty →
      Readable (y.host.store.secretEnc id) y'.host.store.keyring.dataKey) :
    Unharmed id (y', w.note id y (.step i o)) := by
  refine ⟨fun hne => ?_, fun hhad => ?_⟩
  · rw [henc] at hne ⊢
    exact hopen hne
  · rw [henc]
    exact h.2 (had_of_note hzk hhad)

/-- A secret stored for the entry that opens, or that was to be empty, leaves it unharmed. -/
theorem unharmed_stored {enc : Cipher} {meant : Bool} (hzk : y.host.vault.zk = true)
    (heff : y.effect (.step i o) = .setSecret id enc meant)
    (hset : (y.host.store.setSecret id enc).isSome) (henc : y'.host.store.secretEnc id = enc)
    (hcarried : Readable enc y'.host.store.keyring.dataKey ∨
      enc = Sealed.empty ∧ (meant = true ∨ w.had = false)) :
    Unharmed id (y', w.note id y (.step i o)) := by
  rcases hcarried with hopen | ⟨rfl, hclear⟩
  · refine ⟨fun _ => henc ▸ hopen, fun _ => ?_⟩
    rw [henc]
    rintro rfl
    -- the empty text opens under no key
    cases hdek : y'.host.store.keyring.dataKey <;> simp [Readable, hdek, boxOpen] at hopen
  · refine ⟨fun hne => absurd henc hne, fun hhad => ?_⟩
    rcases hclear with rfl | hnot
    · simp [SwitchRecord.note, heff, hset] at hhad
    · exact absurd ((had_of_note hzk hhad).symm.trans hnot) (by decide)

/-- Where the switch is to store a secret and the statement does not, the entry was
unharmed already. -/
theorem unharmed_of_not_stored (hf : y.flows[i]? = some f)
    (hnext : f.next y.host y.tabs o = some m) (hcarries : Carries id (y, w) i o)
    (hnone : ∀ enc meant, m.effect = .setSecret id enc meant →
      y.host.store.setSecret id enc = none) {enc : Cipher} (hi : w.switching = some i)
    (hstore : f.storing = some (id, enc)) : Unharmed id (y, w) := by
  rcases hcarries.1 f hf (id, enc) hstore hi rfl with hsafe | ⟨hok, hfound⟩
  · exact hsafe
  rw [hnone enc false (storing_next hstore hnext hok)] at hfound
  exact absurd hfound (by simp)

/-- Once the mode is on, a statement that meets what it must leaves an entry unharmed, or
its secret still to be stored. -/
theorem on_step (hzk : y.host.vault.zk = true) (hzk' : y'.host.vault.zk = true)
    (hinv : Unharmed id (y, w) ∨ InTransit id (y, w)) (hf : y.flows[i]? = some f)
    (hnext : f.next y.host y.tabs o = some m) (heff : y.effect (.step i o) = m.effect)
    (hhost : y'.host = m.effect.apply y.host) (hflows : y'.flows = y.flows.set i m.flow)
    (hcarries : Carries id (y, w) i o) :
    Unharmed id (y', w.note id y (.step i o)) ∨ InTransit id (y', w.note id y (.step i o)) := by
  have hoff : ∀ env, m.effect ≠ .disableZK env := by
    intro env hm
    rw [hhost, hm, SiteEffect.apply, zk_disableZK] at hzk'
    exact absurd hzk' (by decide)
  have hcarried := hcarries.2
  have hstores : (∀ enc meant, m.effect = .setSecret id enc meant →
      y.host.store.setSecret id enc = none) →
        ∀ enc, w.switching = some i → f.storing = some (id, enc) → Unharmed id (y, w) :=
    fun hnone _ hi hstore => unharmed_of_not_stored hf hnext hcarries hnone hi hstore
  cases hm : m.effect with
  | enableZK env keyring =>
    cases hok : env.setMeta .zkWrapped with
    | false =>
      have hsame : y'.host = y.host := by
        rw [hhost, hm, SiteEffect.apply, enableZK_of_failed hok]
      exact step_frame hzk hzk' hinv hf hnext heff hflows hoff (by rw [hsame]) (by rw [hsame])
        (hstores (by simp [hm]))
    | true =>
      obtain ⟨-, -, hwrapped, hcerts, -⟩ := enableZK_of_ok hok (h := y.host) keyring.wrapped
        keyring.salt keyring.iters
      rcases hinv with hsafe | htransit
      · left
        refine hsafe.rewrap hzk ?_ fun hne => ?_
        · rw [hhost, hm, SiteEffect.apply]
          exact secretEnc_congr hcerts id
        · rw [heff, hm] at hcarried
          rcases hcarried hok hne with hopen | ⟨hzk'', -⟩
          · rw [hhost, hm, SiteEffect.apply, Keyring.dataKey, hwrapped, Option.bind_some]
            exact hopen
          · exact absurd (hzk.symm.trans hzk'') (by decide)
      · refine Or.inr (htransit.step_other (fun hi => ?_) (heff ▸ hoff) hzk' hflows)
        -- a request that is about to switch has not switched the mode on
        obtain ⟨-, f', hf', hid⟩ := htransit
        rw [hi, Option.bind_some, hf] at hf'
        obtain rfl := Option.some.inj hf'
        rw [(enableZK_next hnext hm).1] at hid
        exact absurd hid List.not_mem_nil
  | disableZK env => exact absurd hm (hoff env)
  | addCert row =>
    have hkeyring := SiteEffect.keyring_apply y.host (.addCert row) (by simp) (by simp)
    refine step_frame hzk hzk' hinv hf hnext heff hflows hoff ?_ ?_ (hstores (by simp [hm]))
    · rw [hhost, hm]
      exact secretEnc_addCert y.host.store row id
    · rw [hhost, hm, hkeyring.2]
  | setSecret id' enc meant =>
    have hkeyring := SiteEffect.keyring_apply y.host (.setSecret id' enc meant)
      (by simp) (by simp)
    have hkey : y'.host.store.keyring.dataKey = y.host.store.keyring.dataKey := by
      rw [hhost, hm, hkeyring.2]
    cases hset : y.host.store.setSecret id' enc with
    | none =>
      refine step_frame hzk hzk' hinv hf hnext heff hflows hoff ?_ hkey (hstores ?_)
      · rw [hhost, hm, SiteEffect.apply, hset, Option.getD_none]
      · intro enc' meant' hm'
        obtain ⟨rfl, rfl, -⟩ := SiteEffect.setSecret.inj (hm.symm.trans hm')
        exact hset
    | some s =>
      have hstore : y'.host.store = s := by rw [hhost, hm, SiteEffect.apply, hset, Option.getD_some]
      by_cases hid : id' = id
      · subst hid
        rw [heff, hm] at hcarried
        have hfound : (y.host.store.setSecret id' enc).isSome := by rw [hset, Option.isSome_some]
        refine Or.inl (unharmed_stored hzk (heff.trans hm) hfound ?_ ?_)
        · rw [hstore, secretEnc_setSecret hset, if_pos rfl]
        · rw [hkey]
          exact hcarried hzk rfl hfound
      · refine step_frame hzk hzk' hinv hf hnext heff hflows hoff ?_ hkey (hstores ?_)
        · rw [hstore, secretEnc_setSecret hset, if_neg (Ne.symm hid)]
        · intro enc' meant' hm'
          exact absurd (SiteEffect.setSecret.inj (hm.symm.trans hm')).1 hid
  | _ =>
    have hcerts := SiteEffect.certs_apply y.host m.effect (by simp [hm])
      (by simp [hm]) (by simp [hm])
    have hkeyring := SiteEffect.keyring_apply y.host m.effect (by simp [hm])
      (by simp [hm])
    refine step_frame hzk hzk' hinv hf hnext heff hflows hoff ?_ ?_ (hstores (by simp [hm]))
    · rw [hhost]
      exact secretEnc_congr hcerts id
    · rw [hhost, hkeyring.2]

/-! ### Whole runs -/

/-- While the mode is on the entry is unharmed or its secret is still to be stored. -/
def Accounted (id : Int) (v : Site × SwitchRecord) : Prop :=
  v.1.host.vault.zk = true → Unharmed id v ∨ InTransit id v

theorem accounted_step (hinv : Accounted id v) (hkeeps : KeepsSecret id v act)
    {v' : Site × SwitchRecord}
    (hstep : watch Site.step (SwitchRecord.note id) v act = some v') : Accounted id v' := by
  obtain ⟨y, w⟩ := v
  obtain ⟨y', hstep', rfl⟩ := Option.map_eq_some_iff.mp hstep
  intro hzk'
  rcases Site.step_cases hstep' with
    ⟨i, o, f, m, rfl, hf, hnext, heff, hhost, hflows⟩ | ⟨hno, -, hhost, fs, hflows⟩
  · rcases hkeeps with ⟨hne, htransit⟩ | hcarries
    · refine Or.inr (htransit.step_other hne (fun env hoff => ?_) hzk' hflows)
      rw [hhost, heff.symm.trans hoff, SiteEffect.apply, zk_disableZK] at hzk'
      exact absurd hzk' (by decide)
    · cases hzk : y.host.vault.zk with
      | false => exact switch_step hzk hzk' hf hnext heff hhost hflows hcarries
      | true => exact on_step hzk hzk' (hinv hzk) hf hnext heff hhost hflows hcarries
  · -- nothing but a step of a flow is noted
    have hnote : w.note id y act = w := by
      cases act with
      | step i o => exact absurd rfl (hno i o)
      | _ => rfl
    simp only [hnote]
    have hzk : y.host.vault.zk = true := hhost.symm ▸ hzk'
    rcases hinv hzk with hsafe | ⟨-, f, hf, hid⟩
    · left
      unfold Unharmed at hsafe ⊢
      rwa [hhost]
    · right
      obtain ⟨j, hj, hfj⟩ := Option.bind_eq_some_iff.mp hf
      refine ⟨hzk', f, Option.bind_eq_some_iff.mpr ⟨j, hj, ?_⟩, hid⟩
      rw [hflows, List.getElem?_append_left (List.getElem?_eq_some_iff.mp hfj).1, hfj]

theorem Accounted.secretKept (h : Accounted id v) : SecretKept id v := by
  intro hzk hanswered
  rcases h hzk with hsafe | ⟨-, f, hf, -⟩
  · exact hsafe
  · rw [hanswered] at hf
    exact absurd hf (by simp)

/-- In every run of requests in any number of tabs, failed ones included, in which every
action meets what it must for an entry, nothing of the entry is lost by switching to
zero-knowledge mode. -/
theorem secret_kept (id : Int) (s : Store) (v : Vault) (file : KeyFile) (acts : List WebAct)
    (hkeeps : Meets (watch Site.step (SwitchRecord.note id)) (KeepsSecret id)
      (Site.idle s v file, {}) acts) :
    Always (watch Site.step (SwitchRecord.note id)) (SecretKept id) (Site.idle s v file, {})
      acts := by
  have hstart : Accounted id (Site.idle s v file, {}) := fun hzk => absurd hzk (by simp [Site.idle])
  refine Always.mono (always_of_meets hstart ?_ hkeeps) fun _ => Accounted.secretKept
  intro v act v' hinv hcond hstep
  exact accounted_step hinv hcond hstep

/-! ### Runs -/

instance (v : Site × SwitchRecord) : Decidable (Unharmed id v) :=
  inferInstanceAs (Decidable (_ ∧ _))

instance (v : Site × SwitchRecord) : Decidable (InTransit id v) :=
  inferInstanceAs (Decidable (_ ∧ _))

instance (v : Site × SwitchRecord) (i : Nat) (o : Outcome) : Decidable (Stores id v i o) := by
  unfold Stores
  infer_instance

instance (v : Site × SwitchRecord) (i : Nat) (eff : SiteEffect) : Decidable (Fits id v i eff) := by
  unfold Fits
  split <;> infer_instance

instance (v : Site × SwitchRecord) (i : Nat) (o : Outcome) : Decidable (Carries id v i o) :=
  inferInstanceAs (Decidable (_ ∧ _))

instance (v : Site × SwitchRecord) (act : WebAct) : Decidable (KeepsSecret id v act) := by
  unfold KeepsSecret
  split <;> infer_instance

/-- An entry with a secret the server can read. -/
def demoSecret : Store where
  certs := Table.empty.insert
    { name := "web", kind := .endpoint, expiresAt := [], createdAt := []
      secretEnc := boxSeal (.fromString ['k']) "s3cret" }

/-- The vault that can read it. -/
def demoVault : Vault where
  enabled := true
  mode := .auto
  dek := .fromString ['k']
  box := some (.fromString ['k'])

/-- A switch with nothing else going on. -/
def switchAlone : List WebAct :=
  .enableZK 0 "long enough" "salt" 0 :: List.replicate 10 (.step 0 .smooth)

theorem secret_kept_demo : Always (watch Site.step (SwitchRecord.note 1)) (SecretKept 1)
    (Site.idle demoSecret demoVault none, {}) switchAlone :=
  secret_kept 1 demoSecret demoVault none switchAlone (by decide)

/-- The page cannot fetch the secret and switches without it. -/
def fetchFails : List WebAct :=
  [.enableZK 0 "long enough" "salt" 0, .step 0 .smooth, .step 0 .failed] ++
    List.replicate 5 (.step 0 .smooth)

/-- The switch has answered, and what is stored for the entry opens under the key the server
has thrown away. -/
theorem secret_left_behind : ¬ ∀ id s v file acts,
    Always (watch Site.step (SwitchRecord.note id)) (SecretKept id) (Site.idle s v file, {})
      acts := by
  intro h
  have hend : (run (watch Site.step (SwitchRecord.note 1))
      (Site.idle demoSecret demoVault none, {}) fetchFails).map (fun v =>
        (v.1.host.vault.zk, v.2.switching, v.1.host.store.keyring.dataKey,
          v.1.host.store.secretEnc 1)) =
      some (true, none, some (.drawn 0), boxSeal (.fromString ['k']) "s3cret") := by decide
  obtain ⟨v, hrun, hv⟩ := Option.map_eq_some_iff.mp hend
  obtain ⟨hzk, hanswered, hkey, henc⟩ : _ ∧ _ ∧ _ ∧ _ := by simpa only [Prod.mk.injEq] using hv
  have hsafe := h 1 demoSecret demoVault none fetchFails fetchFails v (List.prefix_refl _) hrun hzk
    hanswered
  have hopen := hsafe.1 (by rw [henc]; decide)
  rw [henc, hkey] at hopen
  exact absurd hopen (by decide)

end CertGuard
