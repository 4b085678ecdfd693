import CertGuard.Lib.FirstLeast
import CertGuard.Store.Schema

/-!
# The link at risk, and the one the page shows

`ChainRisk` looks for the link that ends first, of those that end before the certificate. The page
looks for it once more, in what it was sent. A date that is not known is sent as the zero time,
which the page can read; and it reads dates to the millisecond.

## Main definitions

* `PageLink`, `PageEntry`, `Cert.served` — an entry as the page has it
* `dateParse` — `Date.parse`
* `PageEntry.chainRisk` — the page's search
* `Cert.DatesAgree` — the dates for which that makes no difference

## Main results

* `Cert.chainRisk_spec` — what `ChainRisk` finds, and what its date does not depend on
* `Cert.chainRisk_eq_find`, `PageEntry.chainRisk_served` — both look for the first of the soonest
* `page_chainRisk_iff` — when they find the same link
* `page_chainRisk_unknown` — they do not where a date is not known
-/

namespace CertGuard

open FirstLeast

/-! ### What the page is sent -/

/-- A link as the page has it: the members of an object. -/
abbrev PageLink := List (List Char × List Char)

/-- The members of an entry that the search looks at, as the page has them. -/
structure PageEntry where
  expiresAt : List Char
  chain : List PageLink
  deriving DecidableEq, Repr

/-- A link as `JSON.parse` makes it of what is sent. -/
def ChainCert.pageLink (ic : ChainCert) : PageLink :=
  ChainCert.readMembers (ic.members.getD [])

/-- An entry as `JSON.parse` makes it of what `handleListCerts` sends; nothing is sent when a date
cannot be printed. -/
def Cert.served (c : Cert) : Option PageEntry :=
  if 0 ≤ Rfc3339.year c.expiresAt ∧ Rfc3339.year c.expiresAt ≤ 9999 then
    (c.chain.mapM ChainCert.members).map fun objects =>
      ⟨Rfc3339.formatNano c.expiresAt, objects.map ChainCert.readMembers⟩
  else none

/-- The instant from which scripts count. -/
def unixEpoch : Int := 62135596800 * Rfc3339.oneSecond

/-- The milliseconds of an instant. -/
def millis (t : Int) : Int := (t - unixEpoch) / 1000000

/-- `Date.parse`, of the texts in which times are sent; digits of a fraction after the third are
dropped. -/
def dateParse (s : List Char) : Option Int := (Rfc3339.parse s).map millis

/-! ### The search of the page -/

/-- One turn of the loop of `chainRisk`: `best` and `bestAt`. -/
def pageRiskTurn (leaf : Option Int) (best : Option (PageLink × Int)) (link : PageLink) :
    Option (PageLink × Int) :=
  match dateParse (ChainCert.field link keyNotAfter) with
  | none => best
  | some t =>
    if leaf.any (fun leaf => leaf ≤ t) then best
    else
      match best with
      | none => some (link, t)
      | some (_, bestAt) => if t < bestAt then some (link, t) else best

/-- The link with the earliest date before that of the certificate, as the page finds it. -/
def PageEntry.chainRisk (c : PageEntry) : Option PageLink :=
  (c.chain.foldl (pageRiskTurn (dateParse c.expiresAt)) none).map Prod.fst

/-! ### Two ways to look for the soonest link -/

/-- `ChainRisk` considers the link. -/
def Cert.Considers (c : Cert) (ic : ChainCert) : Prop :=
  ic.notAfter ≠ 0 ∧ (c.expiresAt = 0 ∨ ic.notAfter < c.expiresAt)

instance (c : Cert) : DecidablePred c.Considers := fun _ => inferInstanceAs (Decidable (_ ∧ _))

/-- The page considers it. -/
def Cert.PageConsiders (c : Cert) (ic : ChainCert) : Prop :=
  millis ic.notAfter < millis c.expiresAt

instance (c : Cert) : DecidablePred c.PageConsiders := fun _ => inferInstanceAs (Decidable (_ < _))

variable {c : Cert} {ic : ChainCert} {page : PageEntry} {ms : List (GoString × GoString)}

theorem millis_mono {t u : Int} (h : t ≤ u) : millis t ≤ millis u := by
  unfold millis
  omega

theorem lt_of_millis_lt {t u : Int} (h : millis t < millis u) : t < u := by
  by_contra hle
  exact absurd (millis_mono (not_lt.mp hle)) (not_le.mpr h)

/-- Of whole milliseconds nothing is dropped. -/
theorem millis_lt_iff {t u : Int} (ht : 1000000 ∣ t) (hu : 1000000 ∣ u) :
    millis t < millis u ↔ t < u := by
  unfold millis unixEpoch Rfc3339.oneSecond
  omega

theorem eq_of_millis_eq {t u : Int} (ht : 1000000 ∣ t) (hu : 1000000 ∣ u)
    (h : millis t = millis u) : t = u := by
  have htu := (millis_lt_iff ht hu).mpr.mt h.not_lt
  have hut := (millis_lt_iff hu ht).mpr.mt h.not_gt
  exact le_antisymm (not_lt.mp hut) (not_lt.mp htu)

theorem Cert.chainRisk_eq_find (c : Cert) :
    c.chainRisk = find c.Considers ChainCert.notAfter c.chain := by
  have hstep : chainRiskStep c.expiresAt = keep c.Considers ChainCert.notAfter := by
    funext best ic
    by_cases h : c.Considers ic
    · have hnot : ¬ (c.expiresAt ≠ 0 ∧ ¬ ic.notAfter < c.expiresAt) := fun hafter =>
        h.2.elim hafter.1 hafter.2
      unfold chainRiskStep
      rw [if_neg h.1, if_neg hnot]
      cases best with
      | none => exact (keep_none h).symm
      | some b => exact (keep_some h).symm
    · rw [keep_of_not h]
      unfold chainRiskStep
      split_ifs with hzero hafter
      · rfl
      · rfl
      · -- a link that is not passed over is considered
        exact absurd ⟨hzero, by tauto⟩ h
  rw [chainRisk, hstep, find]

/-! ### What `ChainRisk` finds -/

/-- The link is the first in the chain of those whose date is the soonest that is known. -/
def Cert.IsSoonest (c : Cert) (ic : ChainCert) : Prop :=
  ∃ pre post, c.chain = pre ++ ic :: post ∧
    IsFirst (fun ic => ic.notAfter ≠ 0) ChainCert.notAfter pre ic post

/-- A link with a known date that ends no later than one that is considered is considered. -/
theorem Cert.Considers.of_le {a b : ChainCert} (h : c.Considers a) (hb : b.notAfter ≠ 0)
    (hle : b.notAfter ≤ a.notAfter) : c.Considers b :=
  ⟨hb, h.2.imp_right hle.trans_lt⟩

theorem Cert.chainRisk_eq_none_iff : c.chainRisk = none ↔ ∀ ic ∈ c.chain, ¬ c.Considers ic := by
  rw [chainRisk_eq_find, find_eq_none_iff]

/-- The link that is found is the soonest of the whole chain, not only of the links that are
considered. -/
theorem Cert.chainRisk_eq_some_iff :
    c.chainRisk = some ic ↔ c.Considers ic ∧ c.IsSoonest ic := by
  have hfirst : ∀ pre post, IsFirst c.Considers ChainCert.notAfter pre ic post ↔
      c.Considers ic ∧ IsFirst (fun ic => ic.notAfter ≠ 0) ChainCert.notAfter pre ic post :=
    fun pre post => isFirst_iff_of_lower (fun _ h => h.1) fun _ _ h hb hle => h.of_le hb hle
  rw [chainRisk_eq_find, find_eq_some_iff]
  constructor
  · rintro ⟨pre, post, hchain, h⟩
    obtain ⟨hconsiders, hsoonest⟩ := (hfirst pre post).mp h
    exact ⟨hconsiders, pre, post, hchain, hsoonest⟩
  · rintro ⟨hconsiders, pre, post, hchain, hsoonest⟩
    exact ⟨pre, post, hchain, (hfirst pre post).mpr ⟨hconsiders, hsoonest⟩⟩

/-- The date that is found is the same for every order of the links, and with links added that do
not end before the certificate. -/
theorem Cert.chainRisk_perm {added chain : List ChainCert}
    (hadded : ∀ ic ∈ added, ¬ c.Considers ic) (hperm : chain.Perm (c.chain ++ added)) :
    { c with chain := chain }.chainRisk.map ChainCert.notAfter =
      c.chainRisk.map ChainCert.notAfter := by
  have hconsiders : { c with chain := chain }.Considers = c.Considers := rfl
  rw [chainRisk_eq_find, chainRisk_eq_find]
  refine find_map_key_congr fun ic hic => ?_
  rw [hperm.mem_iff, List.mem_append]
  exact or_iff_left fun hmem => hadded ic hmem (hconsiders ▸ hic)

/-- `ChainRisk` finds no link exactly if it considers none. What it finds is considered, and is
the first link of the chain whose date is the soonest of all that are known; and that date does
not change with the order of the chain, nor with links that are not considered. -/
theorem Cert.chainRisk_spec (c : Cert) :
    (c.chainRisk = none ↔ ∀ ic ∈ c.chain, ¬ c.Considers ic) ∧
    (∀ ic, c.chainRisk = some ic ↔ c.Considers ic ∧ c.IsSoonest ic) ∧
    ∀ added chain : List ChainCert, (∀ ic ∈ added, ¬ c.Considers ic) →
      chain.Perm (c.chain ++ added) →
        { c with chain := chain }.chainRisk.map ChainCert.notAfter =
          c.chainRisk.map ChainCert.notAfter :=
  ⟨chainRisk_eq_none_iff, fun _ => chainRisk_eq_some_iff,
    fun _ _ hadded hperm => chainRisk_perm hadded hperm⟩

/-! ### What the page finds -/

/-- The date of a link that was sent. -/
theorem dateParse_readMembers (h : ic.members = some ms) :
    dateParse (ChainCert.field (ChainCert.readMembers ms) keyNotAfter) =
      some (millis ic.notAfter) := by
  have hlink := ChainCert.ofMembers_readMembers h
  rw [ChainCert.ofMembers, Option.map_eq_some_iff] at hlink
  obtain ⟨t, ht, hlink⟩ := hlink
  have hdate : t = ic.notAfter := congrArg ChainCert.notAfter hlink
  rw [dateParse, ht, hdate]
  rfl

/-- What the page keeps of a link. -/
def ChainCert.seen (ic : ChainCert) : PageLink × Int := (ic.pageLink, millis ic.notAfter)

theorem pageRiskTurn_seen (h : ic.members = some ms) (best : Option ChainCert) :
    pageRiskTurn (some (millis c.expiresAt)) (best.map ChainCert.seen)
        (ChainCert.readMembers ms) =
      (keep c.PageConsiders (fun ic => millis ic.notAfter) best ic).map ChainCert.seen := by
  have hlink : ic.seen = (ChainCert.readMembers ms, millis ic.notAfter) := by
    rw [ChainCert.seen, ChainCert.pageLink, h, Option.getD_some]
  simp only [pageRiskTurn, dateParse_readMembers h, Option.any_some, decide_eq_true_eq]
  by_cases hp : c.PageConsiders ic
  · rw [if_neg (not_le.mpr hp)]
    cases best with
    | none => rw [keep_none hp, Option.map_none, Option.map_some, hlink]
    | some b =>
      rw [keep_some hp]
      split_ifs with hlt
      · rw [Option.map_some, Option.map_some, hlink]
        simp [ChainCert.seen, hlt]
      · simp [ChainCert.seen, hlt]
  · rw [keep_of_not hp, if_pos (not_lt.mp hp)]

theorem foldl_pageRiskTurn {chain : List ChainCert} {objects : List (List (GoString × GoString))}
    (h : chain.mapM ChainCert.members = some objects) (best : Option ChainCert) :
    (objects.map ChainCert.readMembers).foldl (pageRiskTurn (some (millis c.expiresAt)))
        (best.map ChainCert.seen) =
      (chain.foldl (keep c.PageConsiders fun ic => millis ic.notAfter) best).map
        ChainCert.seen := by
  induction chain generalizing objects best with
  | nil =>
    simp only [List.mapM_nil, Option.pure_def, Option.some.injEq] at h
    subst h
    rfl
  | cons ic chain ih =>
    simp only [List.mapM_cons, Option.bind_eq_bind, Option.bind_eq_some_iff, Option.pure_def,
      Option.some.injEq] at h
    obtain ⟨ms, hms, tail, htail, rfl⟩ := h
    rw [List.map_cons, List.foldl_cons, List.foldl_cons, pageRiskTurn_seen hms, ih htail]

/-- The page finds the first of the links that end before the certificate and, to the
millisecond, soonest. -/
theorem PageEntry.chainRisk_served (h : c.served = some page) : page.chainRisk =
    (find c.PageConsiders (fun ic => millis ic.notAfter) c.chain).map ChainCert.pageLink := by
  unfold Cert.served at h
  split_ifs at h with hyear
  obtain ⟨objects, hobjects, rfl⟩ := Option.map_eq_some_iff.mp h
  have hleaf : dateParse (Rfc3339.formatNano c.expiresAt) = some (millis c.expiresAt) := by
    rw [dateParse, Rfc3339.parse_formatNano hyear.1 hyear.2]
    rfl
  have hfold := foldl_pageRiskTurn (c := c) hobjects none
  rw [Option.map_none] at hfold
  simp only [chainRisk, hleaf, hfold, find, Option.map_map]
  rfl

/-! ### Where they agree -/

/-- The dates of an entry for which the page finds what `ChainRisk` finds. -/
structure Cert.DatesAgree (c : Cert) : Prop where
  /-- If `ChainRisk` considers a link that the page passes over, there is another that both
  consider. -/
  seen : ∀ l ∈ c.chain, c.Considers l → ¬ c.PageConsiders l →
    ∃ b ∈ c.chain, c.Considers b ∧ c.PageConsiders b
  /-- If the page considers a link whose date is not known, there is one from before year 1, or
  one before it in the chain from the first millisecond of year 1. -/
  unknown : ∀ pre l post, c.chain = pre ++ l :: post → l.notAfter = 0 → c.PageConsiders l →
    (∃ b ∈ c.chain, millis b.notAfter < millis 0) ∨
      ∃ b ∈ pre, b.notAfter ≠ 0 ∧ millis b.notAfter = millis 0
  /-- If two links that both consider end in the same millisecond, the later one in the chain first,
  there is a link from an earlier millisecond, or one before them in the chain from the same
  millisecond that ends no later than either. -/
  close : ∀ pre l mid m post, c.chain = pre ++ l :: (mid ++ m :: post) → c.PageConsiders l →
    l.notAfter ≠ 0 → m.notAfter ≠ 0 → millis l.notAfter = millis m.notAfter →
    m.notAfter < l.notAfter →
    (∃ b ∈ c.chain, millis b.notAfter < millis l.notAfter) ∨
      ∃ b ∈ pre, b.notAfter ≠ 0 ∧ millis b.notAfter = millis l.notAfter ∧
        b.notAfter ≤ m.notAfter

/-- What the page finds is found by `ChainRisk` as well, if the dates agree. -/
theorem Cert.DatesAgree.find_eq (h : c.DatesAgree) :
    find c.PageConsiders (fun ic => millis ic.notAfter) c.chain =
      find c.Considers ChainCert.notAfter c.chain := by
  cases hpage : find c.PageConsiders (fun ic => millis ic.notAfter) c.chain with
  | none =>
    have hnone := find_eq_none_iff.mp hpage
    refine (find_eq_none_iff.mpr fun l hl hconsiders => ?_).symm
    obtain ⟨b, hb, -, hseen⟩ := h.seen l hl hconsiders (hnone l hl)
    exact hnone b hb hseen
  | some j =>
    obtain ⟨pre, post, hchain, hj⟩ := exists_isFirst hpage
    have hmem : j ∈ c.chain := hchain ▸ by simp
    have hleast : ∀ b ∈ c.chain, c.PageConsiders b → millis j.notAfter ≤ millis b.notAfter :=
      fun b hb => hj.le (hchain ▸ hb)
    -- a date that is not known is beaten by one that is
    have hdate : j.notAfter ≠ 0 := by
      intro hzero
      rcases h.unknown pre j post hchain hzero hj.counts with ⟨b, hb, hlt⟩ | ⟨b, hb, -, heq⟩
      · rw [← hzero] at hlt
        exact absurd (hleast b hb (hlt.trans hj.counts)) (not_le.mpr hlt)
      · rw [← hzero] at heq
        have hbefore := hj.lt_before b hb (heq.trans_lt hj.counts)
        exact absurd heq.le (not_le.mpr hbefore)
    have hconsiders : c.Considers j := ⟨hdate, .inr (lt_of_millis_lt hj.counts)⟩
    cases hserver : find c.Considers ChainCert.notAfter c.chain with
    | none => exact absurd hconsiders (find_eq_none_iff.mp hserver j hmem)
    | some g =>
      obtain ⟨pre', post', hchain', hg⟩ := exists_isFirst hserver
      have hle : millis g.notAfter ≤ millis j.notAfter :=
        millis_mono (hg.le (hchain' ▸ hmem) hconsiders)
      have hseen : c.PageConsiders g := hle.trans_lt hj.counts
      rcases split_cases (hchain.symm.trans hchain') with ⟨-, rfl⟩ | ⟨hbefore, hafter⟩ |
        ⟨hbefore, -⟩
      · rfl
      · -- both end in one millisecond, the one the page finds later than the other
        have heq : millis j.notAfter = millis g.notAfter :=
          le_antisymm (hj.le_after g hafter hseen) hle
        obtain ⟨mid, post'', rfl⟩ := List.append_of_mem hafter
        rcases h.close pre j mid g post'' hchain hj.counts hdate hg.counts.1 heq
          (hg.lt_before j hbefore hconsiders) with ⟨b, hb, hlt⟩ | ⟨b, hb, -, hsame, -⟩
        · exact absurd (hleast b hb (hlt.trans hj.counts)) (not_le.mpr hlt)
        · exact absurd hsame.le (not_le.mpr (hj.lt_before b hb (hsame.trans_lt hj.counts)))
      · exact absurd hle (not_le.mpr (hj.lt_before g hbefore hseen))

/-- If they find links with the same date, or both none, the dates agree. -/
theorem Cert.datesAgree_of_find
    (h : (find c.PageConsiders (fun ic => millis ic.notAfter) c.chain).map ChainCert.notAfter =
      (find c.Considers ChainCert.notAfter c.chain).map ChainCert.notAfter) :
    c.DatesAgree := by
  cases hpage : find c.PageConsiders (fun ic => millis ic.notAfter) c.chain with
  | none =>
    rw [hpage] at h
    have hserver := find_eq_none_iff.mp (Option.map_eq_none_iff.mp h.symm)
    have hnone := find_eq_none_iff.mp hpage
    exact {
      seen := fun l hl hconsiders => absurd hconsiders (hserver l hl)
      unknown := fun pre l post hchain _ hseen => absurd hseen (hnone l (hchain ▸ by simp))
      close := fun pre l mid m post hchain hseen => absurd hseen (hnone l (hchain ▸ by simp)) }
  | some j =>
    rw [hpage] at h
    obtain ⟨g, hserver, hdates⟩ := Option.map_eq_some_iff.mp h.symm
    obtain ⟨pre', post', hchain', hg⟩ := exists_isFirst hserver
    obtain ⟨pre, post, hchain, hj⟩ := exists_isFirst hpage
    have hmem : j ∈ c.chain := hchain ▸ by simp
    have hconsiders : c.Considers j := by
      unfold Considers
      rw [← hdates]
      exact hg.counts
    refine ⟨fun _ _ _ _ => ⟨j, hmem, hconsiders, hj.counts⟩, ?_, ?_⟩
    · intro pre₁ l post₁ hchain₁ hzero hseen
      have hl : l ∈ pre ++ j :: post := hchain ▸ hchain₁ ▸ by simp
      rcases (hj.le hl hseen).lt_or_eq with hlt | heq
      · exact .inl ⟨j, hmem, hzero ▸ hlt⟩
      · rcases split_cases (hchain.symm.trans hchain₁) with ⟨-, rfl⟩ | ⟨hbefore, -⟩ | ⟨hafter, -⟩
        · exact absurd hzero hconsiders.1
        · exact .inr ⟨j, hbefore, hconsiders.1, hzero ▸ heq⟩
        · exact absurd heq.ge (not_le.mpr (hj.lt_before l hafter hseen))
    · intro pre₁ l mid m post₁ hchain₁ hseen _ hm _ hlt
      have hl : l ∈ pre ++ j :: post := hchain ▸ hchain₁ ▸ by simp
      have hm' : m ∈ pre' ++ g :: post' := hchain' ▸ hchain₁ ▸ by simp
      -- `ChainRisk` finds nothing later than the second of the two
      have hle : j.notAfter ≤ m.notAfter :=
        hdates ▸ hg.le hm' ⟨hm, .inr (hlt.trans (lt_of_millis_lt hseen))⟩
      rcases (hj.le hl hseen).lt_or_eq with hsooner | heq
      · exact .inl ⟨j, hmem, hsooner⟩
      · rcases split_cases (hchain.symm.trans hchain₁) with ⟨-, rfl⟩ | ⟨hbefore, -⟩ | ⟨hafter, -⟩
        · exact absurd hle (not_le.mpr hlt)
        · exact .inr ⟨j, hbefore, hconsiders.1, heq, hle⟩
        · exact absurd heq.ge (not_le.mpr (hj.lt_before l hafter hseen))

/-- Where all dates are whole milliseconds, they agree if some link is from before year 1, if the
certificate is, if the date of no link is unknown, or if the certificate's is and no other. -/
theorem Cert.datesAgree_iff_of_whole (hleaf : 1000000 ∣ c.expiresAt)
    (hlinks : ∀ l ∈ c.chain, 1000000 ∣ l.notAfter) : c.DatesAgree ↔
      (∃ l ∈ c.chain, l.notAfter < 0) ∨ c.expiresAt < 0 ∨
        (0 < c.expiresAt ∧ ∀ l ∈ c.chain, l.notAfter ≠ 0) ∨
        (c.expiresAt = 0 ∧ ∀ l ∈ c.chain, ¬ 0 < l.notAfter) := by
  have hseen : ∀ l ∈ c.chain, (c.PageConsiders l ↔ l.notAfter < c.expiresAt) := fun l hl =>
    millis_lt_iff (hlinks l hl) hleaf
  have hearly : ∀ l ∈ c.chain, (millis l.notAfter < millis 0 ↔ l.notAfter < 0) := fun l hl =>
    millis_lt_iff (hlinks l hl) (dvd_zero _)
  have hmem : ∀ {pre post : List ChainCert} {l : ChainCert}, c.chain = pre ++ l :: post →
      l ∈ c.chain := fun hchain => hchain ▸ by simp
  constructor
  · intro h
    by_contra hnot
    simp only [not_or, not_exists, not_and, not_forall, not_lt, not_not] at hnot
    obtain ⟨hbefore, hafter, hzero, hunknown⟩ := hnot
    rcases hafter.lt_or_eq with hpos | heq
    · -- a link without a date, and none from before year 1
      obtain ⟨l, hl, hdate⟩ := hzero hpos
      obtain ⟨pre, post, hchain⟩ := List.append_of_mem hl
      have hconsiders : c.PageConsiders l := (hseen l hl).mpr (hdate ▸ hpos)
      rcases h.unknown pre l post hchain hdate hconsiders with
        ⟨b, hb, hsooner⟩ | ⟨b, hb, hdate', hsame⟩
      · exact absurd ((hearly b hb).mp hsooner) (not_lt.mpr (hbefore b hb))
      · have hb' : b ∈ c.chain := hchain ▸ List.mem_append_left _ hb
        exact hdate' (eq_of_millis_eq (hlinks b hb') (dvd_zero _) hsame)
    · -- a certificate without a date and a link with one, and none from before year 1
      obtain ⟨l, hl, hpos⟩ := hunknown heq.symm
      have hnot : ¬ c.PageConsiders l := fun hconsiders =>
        absurd ((hseen l hl).mp hconsiders) (by omega)
      obtain ⟨b, hb, -, hconsiders⟩ := h.seen l hl ⟨by omega, .inl heq.symm⟩ hnot
      exact absurd (heq ▸ (hseen b hb).mp hconsiders) (not_lt.mpr (hbefore b hb))
  · intro h
    refine ⟨fun l hl hconsiders hnot => ?_, fun pre l post hchain hzero hconsiders => ?_, ?_⟩
    · -- without a date of the certificate the page considers only what is from before year 1
      rw [hseen l hl] at hnot
      have hleaf0 : c.expiresAt = 0 := hconsiders.2.resolve_right hnot
      rcases h with ⟨b, hb, hneg⟩ | hneg | ⟨hpos, -⟩ | ⟨-, hnone⟩
      · exact ⟨b, hb, ⟨by omega, .inl hleaf0⟩, (hseen b hb).mpr (by omega)⟩
      · omega
      · omega
      · have hdate := hconsiders.1
        have hnever := hnone l hl
        omega
    · have hpos := (hseen l (hmem hchain)).mp hconsiders
      rcases h with ⟨b, hb, hneg⟩ | hneg | ⟨-, hdates⟩ | ⟨hleaf0, -⟩
      · exact .inl ⟨b, hb, (hearly b hb).mpr hneg⟩
      · omega
      · exact absurd hzero (hdates l (hmem hchain))
      · omega
    · -- no two whole milliseconds are close
      intro pre l mid m post hchain _ _ _ heq hlater
      have hm : m ∈ c.chain := hchain ▸ by simp
      exact absurd (eq_of_millis_eq (hlinks l (hmem hchain)) (hlinks m hm) heq) hlater.ne'

theorem ChainCert.notAfter_of_pageLink_eq {a b : ChainCert} (ha : a.members.isSome = true)
    (hb : b.members.isSome = true) (h : a.pageLink = b.pageLink) : a.notAfter = b.notAfter := by
  obtain ⟨ms, hms⟩ := Option.isSome_iff_exists.mp ha
  obtain ⟨ms', hms'⟩ := Option.isSome_iff_exists.mp hb
  simp only [pageLink, hms, hms', Option.getD_some] at h
  have hlink := (ofMembers_readMembers hms).symm.trans (h ▸ ofMembers_readMembers hms')
  have hdate := congrArg ChainCert.notAfter (Option.some.inj hlink)
  exact hdate

/-- Every link of an entry that is sent can be printed. -/
theorem Cert.members_of_served (h : c.served = some page) :
    ∀ ic ∈ c.chain, ic.members.isSome = true := by
  unfold Cert.served at h
  split_ifs at h
  obtain ⟨objects, hobjects, -⟩ := Option.map_eq_some_iff.mp h
  clear h
  generalize c.chain = chain at hobjects ⊢
  induction chain generalizing objects with
  | nil => simp
  | cons ic chain ih =>
    simp only [List.mapM_cons, Option.bind_eq_bind, Option.bind_eq_some_iff] at hobjects
    obtain ⟨ms, hms, tail, htail, -⟩ := hobjects
    exact List.forall_mem_cons.mpr ⟨by simp [hms], ih tail htail⟩

/-- The page shows the link that `ChainRisk` finds, and none where it finds none, exactly if the
dates of the entry agree. -/
theorem page_chainRisk_iff (h : c.served = some page) :
    page.chainRisk = c.chainRisk.map ChainCert.pageLink ↔ c.DatesAgree := by
  rw [PageEntry.chainRisk_served h, Cert.chainRisk_eq_find]
  constructor
  · intro heq
    refine Cert.datesAgree_of_find ?_
    cases hpage : find c.PageConsiders (fun ic => millis ic.notAfter) c.chain with
    | none =>
      rw [hpage] at heq
      rw [Option.map_eq_none_iff.mp heq.symm]
    | some j =>
      rw [hpage] at heq
      obtain ⟨g, hserver, hlinks⟩ := Option.map_eq_some_iff.mp heq.symm
      obtain ⟨pre, post, hchain, -⟩ := exists_isFirst hpage
      obtain ⟨pre', post', hchain', -⟩ := exists_isFirst hserver
      have hmembers := Cert.members_of_served h
      have hdate := ChainCert.notAfter_of_pageLink_eq (hmembers g (hchain' ▸ by simp))
        (hmembers j (hchain ▸ by simp)) hlinks
      rw [hserver, Option.map_some, Option.map_some, hdate]
  · intro hagree
    rw [hagree.find_eq]

/-- An endpoint whose chain was stored without a date. -/
def undatedEntry : Cert := scanRowValues 1
  { name := "a.de"
    kind := .endpoint
    expiresAt := Rfc3339.format 63900000000000000000
    chainJson := marshalChain [⟨GoString.ofString "CN=Unknown", [], 0, []⟩]
    createdAt := Rfc3339.format 63800000000000000000 }

/-- The entry as the page has it. -/
def undatedPage : PageEntry :=
  ⟨Rfc3339.formatNano 63900000000000000000,
    [[("subject".toList, "CN=Unknown".toList), ("not_after".toList, Rfc3339.formatNano 0)]]⟩

/-- Its dates do not agree. -/
theorem not_datesAgree_undatedEntry : ¬ undatedEntry.DatesAgree := by
  intro h
  have hserved : undatedEntry.served = some undatedPage := by decide
  exact absurd ((page_chainRisk_iff hserved).mpr h) (by decide)

/-- The page shows a risk at the link without a date, where `ChainRisk` finds none. -/
theorem page_chainRisk_unknown : undatedEntry.served = some undatedPage ∧
    undatedEntry.chainRisk = none ∧ undatedPage.chainRisk = undatedPage.chain.head? := by
  decide

end CertGuard
