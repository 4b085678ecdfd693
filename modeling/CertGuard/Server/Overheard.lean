import CertGuard.Server.Migration
import CertGuard.Server.PagesHide

/-!
# What the server comes to know

In zero-knowledge mode the server is to hold ciphertext only. Here everything is collected that
reaches it over a run. The server may do more than the program does: between any two statements it
may put anything in place of what it holds, as long as it can make it of what it has come to know.
Pages follow the source.

## Main definitions

* `Overheard` — a site with what has reached the server
* `ServerAct` — what pages do, what the server's own calls do, and what they do not

## Main results

* `zero_knowledge` — whatever the server makes of it all, it gets none of the keys of the pages
  and no text but those it was handed in the clear
* `opened_by_stale_page` — a page that was loaded before the switch hands over all there is
-/

namespace CertGuard

open Secrecy Transition

/-! ### The site, overheard -/

/-- A site, with what has reached the server. -/
structure Overheard where
  site : Site
  /-- Everything that has reached the server. -/
  known : Set Piece
  /-- The texts pages and the operator gave it as they are. -/
  told : List String

/-- What goes on: what pages and the program do, a call on the vault, a new start, and the server
with anything else in place of what it holds. -/
inductive ServerAct
  | web (act : WebAct)
  | call (env : VaultEnv) (op : VaultOp)
  | restart (env : VaultEnv) (master : List Char)
  | tamper (h : Host)

/-- The passphrases typed into pages. -/
def ServerAct.passphrases : ServerAct → List String
  | .web act => act.passphrases
  | _ => []

namespace Overheard

variable (w : Overheard)

/-- What reaches the server apart from requests: texts in the clear, hints, and what a call of its
own is given or draws. -/
def reaches : ServerAct → List Piece
  | .web act =>
    (w.site.tells act).map text ++ (w.site.seals act).map fun s => .atom (.units (hintOf s))
  | .call env op =>
    .atom (.salt (some env.salt)) :: text (String.ofList (hexEncode env.fresh)) :: op.texts.map text
  | .restart env master => [text (String.ofList (hexEncode env.fresh)), text (String.ofList master)]
  | .tamper _ => []

/-- The site after an action; one that a page refuses leaves it as it is. -/
def next : ServerAct → Site
  | .web act => (w.site.step act).getD w.site
  | .call env op => { w.site with host := w.site.host.call env op }
  | .restart env master =>
    { w.site with host := newVault env master w.site.host.store w.site.host.keyFile }
  | .tamper h => { w.site with host := h }

/-- Takes an action; none is refused. -/
def step (act : ServerAct) : Option Overheard :=
  some
    { site := w.next act
      known := w.known ∪ {m | m ∈ w.reaches act} ∪ {m | m ∈ (w.next act).held}
      told := w.told ++ (w.reaches act).filterMap text? }

/-- What the server puts in place is made of what it knows. -/
def Makes : ServerAct → Prop
  | .tamper h => ∀ m ∈ h.held, Derives w.known m
  | .call _ (.enableZK wrapped _ _) => Derives w.known (wrappedPiece wrapped)
  | _ => True

/-- A site on which zero-knowledge mode was never on, with what else is known at first. -/
def start (s : Store) (v : Vault) (file : KeyFile) (others : Set Piece) : Overheard where
  site := Site.idle s v file
  known := others ∪ {m | m ∈ (Site.idle s v file).held}
  told := []

/-- The texts there are anywhere in what is known, sealed or not. -/
def texts (K : Set Piece) : Set String := {t | ∃ m ∈ K, Datum.text t ∈ m.atoms}

end Overheard

namespace Overheard

variable {w w' : Overheard} {act : ServerAct} {acts : List ServerAct}

/-- Nothing was given away so far but the texts in `A`. -/
structure Kept (A : Set String) (w : Overheard) : Prop where
  site : w.site.Kept A
  known : ∀ m ∈ w.known, MayHave A m

theorem mem_told_iff {t : String} :
    t ∈ (w.reaches act).filterMap text? ↔ text t ∈ w.reaches act := by
  rw [List.mem_filterMap]
  constructor
  · rintro ⟨m, hm, ht⟩
    unfold text? at ht
    split at ht
    · obtain rfl := Option.some.inj ht
      exact hm
    · exact absurd ht (by simp)
  · exact fun h => ⟨text t, h, rfl⟩

/-- What reaches the server besides requests are texts, and nothing that pages hide. -/
theorem mayHave_reaches (htold : ∀ t, text t ∈ w.reaches act → t ∈ A) :
    ∀ m ∈ w.reaches act, MayHave A m := by
  intro m hm
  cases act with
  | web act =>
    rcases List.mem_append.mp hm with htext | hhint
    · obtain ⟨t, -, rfl⟩ := List.mem_map.mp htext
      exact mayHave_text.mpr (htold t hm)
    · obtain ⟨t, -, rfl⟩ := List.mem_map.mp hhint
      simp [MayHave, Public, hiddenData, Datum.ofPages]
  | call env op =>
    rcases List.mem_cons.mp hm with rfl | htext
    · simp [MayHave, Public, hiddenData, Datum.ofPages]
    · rcases List.mem_cons.mp htext with rfl | htext
      · exact mayHave_text.mpr (htold _ hm)
      · obtain ⟨t, -, rfl⟩ := List.mem_map.mp htext
        exact mayHave_text.mpr (htold t hm)
  | restart env master =>
    rcases List.mem_pair.mp hm with rfl | rfl
    · exact mayHave_text.mpr (htold _ hm)
    · exact mayHave_text.mpr (htold _ hm)
  | tamper h => exact absurd hm List.not_mem_nil

/-- The calls of the server, and what is put in place of what it holds, leave what it can make. -/
theorem made_next (hact : ∀ a, act ≠ .web a) (hmakes : w.Makes act) :
    Made (w.known ∪ {m | m ∈ w.site.host.held} ∪ {m | m ∈ w.reaches act})
      (w.next act).host.held := by
  have hheld : Made (w.known ∪ {m | m ∈ w.site.host.held} ∪ {m | m ∈ w.reaches act})
      w.site.host.held := fun _ hm => .known (Or.inl (Or.inr hm))
  have htext : ∀ m ∈ w.reaches act,
      Derives (w.known ∪ {m | m ∈ w.site.host.held} ∪ {m | m ∈ w.reaches act}) m :=
    fun _ hm => .known (Or.inr hm)
  cases act with
  | web a => exact absurd rfl (hact a)
  | call env op =>
    refine made_call hheld (htext _ (by simp [reaches])) (htext _ (by simp [reaches]))
      (fun t ht => htext _ ?_) ?_
    · exact List.mem_cons_of_mem _ (List.mem_cons_of_mem _ (List.mem_map_of_mem ht))
    rintro wrapped salt iters rfl
    exact hmakes.mono fun m hm => Or.inl (Or.inl hm)
  | restart env master =>
    obtain ⟨hconst, -, hstore, hfile⟩ := made_host.mp hheld
    exact made_newVault hstore hfile hconst (htext _ (by simp [reaches]))
      (htext _ (by simp [reaches]))
  | tamper h => exact fun m hm => (hmakes m hm).mono fun m hm => Or.inl (Or.inl hm)

theorem kept_step (hstep : w.step act = some w') (hw : w.Kept A)
    (hpass : ∀ p ∈ act.passphrases, p ∉ A) (hmakes : w.Makes act) (htold : ∀ t ∈ w'.told, t ∈ A) :
    w'.Kept A := by
  obtain rfl := Option.some.inj hstep
  have hreaches : ∀ m ∈ w.reaches act, MayHave A m := mayHave_reaches fun t ht =>
    htold t (List.mem_append_right _ (mem_told_iff.mpr ht))
  have hsite : (w.next act).Kept A := by
    cases act with
    | web act =>
      simp only [next]
      cases hstep : w.site.step act with
      | none => exact hw.site
      | some y' =>
        refine Site.kept_step hstep hw.site hpass fun t ht => ?_
        refine htold t (List.mem_append_right _ (mem_told_iff.mpr ?_))
        exact List.mem_append_left _ (List.mem_map_of_mem ht)
    | _ =>
      refine ⟨fun m hm => ?_, hw.site.tabs, hw.site.flows⟩
      refine public_of_derives (made_next (by simp) hmakes m hm) fun q hq => ?_
      rcases hq with (hknown | hheld) | hreach
      · exact hw.known q hknown
      · exact hw.site.host q hheld
      · exact hreaches q hreach
  refine ⟨hsite, fun m hm => ?_⟩
  rcases hm with (hknown | hreach) | hheld
  · exact hw.known m hknown
  · exact hreaches m hreach
  · rcases List.mem_append.mp hheld with hhost | hbody
    · exact hsite.host m hhost
    · obtain ⟨f, hf, hm⟩ := List.mem_flatMap.mp hbody
      exact (hsite.flows f hf).body m hm

/-- What reached the server stays with it. -/
theorem subset_of_run (hrun : run step w acts = some w') :
    w.known ⊆ w'.known ∧ w.told ⊆ w'.told := by
  induction acts generalizing w with
  | nil =>
    obtain rfl := Option.some.inj hrun
    exact ⟨subset_rfl, List.Subset.refl _⟩
  | cons act acts ih =>
    obtain ⟨hknown, htold⟩ := ih hrun
    exact ⟨fun m hm => hknown (Or.inl (Or.inl hm)), fun t ht => htold (List.mem_append_left _ ht)⟩

theorem kept_run (hrun : run step w acts = some w') (hw : w.Kept A)
    (hpass : ∀ act ∈ acts, ∀ p ∈ act.passphrases, p ∉ A) (hmakes : Meets step Makes w acts)
    (htold : ∀ t ∈ w'.told, t ∈ A) : w'.Kept A := by
  induction acts generalizing w with
  | nil =>
    obtain rfl := Option.some.inj hrun
    exact hw
  | cons act acts ih =>
    obtain ⟨hmake, hmakes⟩ := meets_cons.mp hmakes
    refine ih hrun (kept_step rfl hw (hpass act List.mem_cons_self) hmake fun t ht => ?_)
      (fun act hact => hpass act (List.mem_cons_of_mem _ hact)) (hmakes _ rfl)
    exact htold t ((subset_of_run (w := (w.step act).get rfl) hrun).2 ht)

variable {s : Store} {v : Vault} {file : KeyFile} {others : Set Piece}

theorem kept_start (hfresh : ∀ m ∈ (start s v file others).known, ∀ a ∈ m.atoms, a.ofPages = false)
    (told : List String) :
    (start s v file others).Kept {t | t ∈ texts (start s v file others).known ∨ t ∈ told} := by
  have hknown : ∀ m ∈ (start s v file others).known,
      MayHave {t | t ∈ texts (start s v file others).known ∨ t ∈ told} m := by
    intro m hm
    refine public_of_atoms fun a ha hhidden => ?_
    rcases hhidden with hpages | ⟨t, rfl, ht⟩
    · exact absurd (hfresh m hm a ha) (by simp [hpages])
    · exact ht (Or.inl ⟨m, hm, ha⟩)
  refine ⟨⟨fun m hm => hknown m (Or.inr ?_), fun _ => ?_, ?_⟩, hknown⟩
  · exact List.mem_append_left _ hm
  · simp [start, Site.idle, Tab.Kept]
  · simp [start, Site.idle]

end Overheard

variable {s : Store} {v : Vault} {file : KeyFile} {others : Set Piece} {acts : List ServerAct}
variable {w : Overheard}

/-- Zero-knowledge mode was never on before, and no page has drawn or derived a key yet. Then
whatever pages do, whatever calls the server gets and whatever it puts in place of what it holds:
from all it comes to know it makes no text but those it had or was told, no data key of a page,
and no key that one is wrapped under, as long as no passphrase typed into a page is told to it. -/
theorem zero_knowledge (hrun : run Overheard.step (.start s v file others) acts = some w)
    (hmakes : Meets Overheard.step Overheard.Makes (.start s v file others) acts)
    (hfresh : ∀ m ∈ (Overheard.start s v file others).known, ∀ a ∈ m.atoms, a.ofPages = false)
    (hpass : ∀ act ∈ acts, ∀ p ∈ act.passphrases,
      p ∉ Overheard.texts (Overheard.start s v file others).known ∧ p ∉ w.told) :
    (∀ t, Derives w.known (text t) →
      t ∈ Overheard.texts (Overheard.start s v file others).known ∨ t ∈ w.told) ∧
    (∀ n, ¬ Derives w.known (Key.drawn n).piece) ∧
    (∀ credentialId prfSalt, ¬ Derives w.known (Key.fromPRF credentialId prfSalt).piece) ∧
    ∀ act ∈ acts, ∀ p ∈ act.passphrases, ∀ salt iters,
      ¬ Derives w.known (Key.derived p salt iters).piece := by
  have hstart := Overheard.kept_start hfresh w.told
  have hw := Overheard.kept_run hrun hstart
    (fun act hact p hp hA => hA.elim (hpass act hact p hp).1 (hpass act hact p hp).2) hmakes
    fun t ht => Or.inr ht
  have hmay : ∀ {m}, Derives w.known m → MayHave _ m := fun h => public_of_derives h hw.known
  refine ⟨fun t ht => mayHave_text.mp (hmay ht), fun n h => ?_, fun c salt h => ?_, ?_⟩
  · exact Key.Drawn.not_mayHave ⟨n, rfl⟩ (hmay h)
  · exact hmay h (Or.inl rfl)
  · intro act hact p hp salt iters h
    refine not_mayHave_derived (fun hA => ?_) (hmay h)
    exact hA.elim (hpass act hact p hp).1 (hpass act hact p hp).2

/-- A page that was loaded before the mode was on takes the passphrase for one of the server. With
it the server has the data key, and every secret sealed under it. -/
theorem opened_by_stale_page {w' : Overheard} {i : Nat} {passphrase : String} {dek : Key}
    (hstep : w.step (.web (.unlockTab i passphrase)) = some w')
    (hstale : (w.site.tabs i).zkEnabled = false)
    (hkeyring : unwrapKey w.site.host.zkKeyring.wrapped (.derived passphrase
      w.site.host.zkKeyring.salt (ZK.iterations w.site.host.zkKeyring.iters)) = some dek)
    (hnumber : .atom (.number (ZK.iterations w.site.host.zkKeyring.iters)) ∈ w.known) :
    Derives w'.known dek.piece ∧ ∀ id t, w.site.host.store.secretEnc id = boxSeal dek t →
      Derives w'.known (text t) := by
  have hknown : w'.known = w.known ∪ {m | m ∈ w.reaches (.web (.unlockTab i passphrase))} ∪
      {m | m ∈ (w.next (.web (.unlockTab i passphrase))).held} := by
    rw [← Option.some.inj hstep]
  have hhost : (w.next (.web (.unlockTab i passphrase))).host = w.site.host := by
    simp only [Overheard.next]
    cases hweb : w.site.step (.unlockTab i passphrase) with
    | none => rfl
    | some y' => exact Site.host_step hweb
  have hheld : Made w'.known w.site.host.held := by
    intro m hm
    rw [hknown]
    refine .known (Or.inr (List.mem_append_left _ ?_))
    rwa [hhost]
  obtain ⟨⟨-, -, hempty⟩, -, hstore, -⟩ := made_host.mp hheld
  obtain ⟨hrows, hcerts, -⟩ := made_store.mp hstore
  obtain ⟨-, -, hwrapped, hsalt, -⟩ := made_keyring.mp hrows
  have htold : Derives w'.known (text passphrase) := by
    rw [hknown]
    refine .known (Or.inl (Or.inr (List.mem_append_left _ ?_)))
    simp [Site.tells, Site.seals, hstale]
  have hkek : Derives w'.known (Key.derived passphrase w.site.host.zkKeyring.salt
      (ZK.iterations w.site.host.zkKeyring.iters)).piece := by
    refine .image _ (.pair htold (.pair ?_ (.known (hknown ▸ Or.inl (Or.inl hnumber)))))
    simp only [Host.zkKeyring]
    cases hrow : w.site.host.store.keyring.zkSalt with
    | none => exact hempty
    | some salt => exact hsalt salt hrow
  have hdek : Derives w'.known dek.piece := by
    refine made_unwrapKey hkeyring ?_ hkek
    simp only [Host.zkKeyring]
    cases hrow : w.site.host.store.keyring.zkWrapped with
    | none => exact hempty
    | some wrapped => exact hwrapped wrapped hrow
  refine ⟨hdek, fun id t ht => ?_⟩
  rw [Store.secretEnc] at ht
  cases hrow : w.site.host.store.certs.get? id with
  | none => simp [hrow, boxSeal, Sealed.empty] at ht
  | some row =>
    have henc := hcerts (id, row) (Table.mem_rows_iff.mpr hrow)
    simp only [hrow, Option.map_some, Option.getD_some] at ht
    rw [ht] at henc
    exact .opened henc hdek

/-- A page switches the mode on and saves a secret. -/
def switchAndSave : List WebAct :=
  switchAlone ++ .saveSecret 0 1 "brand new" :: List.replicate 4 (.step 1 .smooth)

/-- After that the server is started again. -/
def switchAndRestart : List ServerAct :=
  switchAndSave.map .web ++ [.restart (.smooth demoFresh 0) ['k']]

/-- The server knows what was there before, and does not know the new secret. -/
theorem zero_knowledge_demo :
    ∃ w, run Overheard.step (.start demoSecret demoVault none ∅) switchAndRestart = some w ∧
      Derives w.known (text "s3cret") ∧ ¬ Derives w.known (text "brand new") := by
  have hmakes : Meets Overheard.step Overheard.Makes (.start demoSecret demoVault none ∅)
      switchAndRestart := by
    intro pre act w hpre _
    have hmem : act ∈ switchAndRestart := hpre.subset (by simp)
    rcases List.mem_append.mp hmem with hweb | hrestart
    · obtain ⟨a, -, rfl⟩ := List.mem_map.mp hweb
      trivial
    · rw [List.mem_singleton.mp hrestart]
      trivial
  have hheld : ∀ m ∈ (Site.idle demoSecret demoVault none).held, ∀ a ∈ m.atoms,
      a.ofPages = false ∧ a ≠ .text "long enough" ∧ a ≠ .text "brand new" := by decide
  have hfresh : ∀ m ∈ (Overheard.start demoSecret demoVault none ∅).known, ∀ a ∈ m.atoms,
      a.ofPages = false ∧ a ≠ .text "long enough" ∧ a ≠ .text "brand new" := by
    rintro m (hnone | hm)
    · exact absurd hnone (Set.notMem_empty m)
    · exact hheld m hm
  have hpasses : ∀ act ∈ switchAndRestart, ∀ p ∈ act.passphrases, p = "long enough" := by decide
  have htold : (run Overheard.step (.start demoSecret demoVault none ∅) switchAndRestart).map
      Overheard.told = some ["salt", "310000", String.ofList (hexEncode demoFresh), "k"] := by
    decide +kernel
  obtain ⟨w, hrun, htold⟩ := Option.map_eq_some_iff.mp htold
  have hnot : ∀ t ∈ ["long enough", "brand new"],
      t ∉ Overheard.texts (Overheard.start demoSecret demoVault none ∅).known ∧ t ∉ w.told := by
    intro t ht
    rw [htold]
    refine ⟨?_, (by decide +kernel : ∀ t ∈ ["long enough", "brand new"], t ∉
      ["salt", "310000", String.ofList (hexEncode demoFresh), "k"]) t ht⟩
    rintro ⟨m, hm, hatom⟩
    rcases List.mem_pair.mp ht with rfl | rfl
    · exact (hfresh m hm _ hatom).2.1 rfl
    · exact (hfresh m hm _ hatom).2.2 rfl
  obtain ⟨hsecret, -⟩ := zero_knowledge hrun hmakes (fun m hm a ha => (hfresh m hm a ha).1)
    fun act hact p hp => hnot p (by simp [hpasses act hact p hp])
  refine ⟨w, hrun, ?_, fun h => ?_⟩
  · have hknown := (Overheard.subset_of_run hrun).1
    have hsealed : .sealed (Key.fromString ['k']).piece (text "s3cret") ∈
        (Site.idle demoSecret demoVault none).held := by decide
    have hkey : (Key.fromString ['k']).piece ∈ (Site.idle demoSecret demoVault none).held := by
      decide
    exact .opened (.known (hknown (Or.inr hsealed))) (.known (hknown (Or.inr hkey)))
  · exact (hsecret _ h).elim (hnot _ (by simp)).1 (hnot _ (by simp)).2

end CertGuard
