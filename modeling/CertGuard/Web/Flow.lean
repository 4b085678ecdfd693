import CertGuard.Web.Arrangement

/-!
# Cards that flow into columns

Tidying up and reading a record of the masonry version both take cards one after the other and
put each below what is in its columns already. A record of the present version puts the cards
back where they were.

## Main definitions

* `Flowed` — what holds while cards are taken

## Main results

* `arranged_compact` — tidying up
* `placedApart_migrate`, `arranged_reload` — loading a page with a record
-/

namespace CertGuard.Widgets

/-- Some cards were taken: they are placed, apart from each other, and end before the columns
they are in do; the others are as they were. -/
structure Flowed (g₀ : Grid) (done : List String) (s : Grid × (Int → Int)) : Prop where
  kept : ∀ a, a ∉ done → s.1.find? a = g₀.find? a
  shown : ∀ a c, s.1.find? a = some c → ∃ c₀, g₀.find? a = some c₀ ∧ c.off = c₀.off
  taken : ∀ a ∈ done, ∀ c, s.1.find? a = some c → c.isPlaced = true ∧
    ∀ x, c.rectOf.c ≤ x → x < c.rectOf.c + c.rectOf.w → c.rectOf.r + c.rectOf.h ≤ s.2 x
  apart : ∀ a ∈ done, ∀ b ∈ done, ∀ ca cb, s.1.find? a = some ca → s.1.find? b = some cb →
    a ≠ b → ¬ ca.rectOf.overlaps cb.rectOf
  nonneg : ∀ x, 0 ≤ s.2 x

namespace Grid

variable {g g₀ : Grid} {id a b : String} {c ca cb : Card} {r : Rect} {win : Window}
  {done ids : List String} {s : Grid × (Int → Int)} {bottoms : Int → Int} {w x k : Int}

theorem flowed_nil (g : Grid) : Flowed g [] (g, fun _ => 0) where
  kept _ _ := rfl
  shown _ c hc := ⟨c, hc, rfl⟩
  taken _ h := absurd h List.not_mem_nil
  apart _ h := absurd h List.not_mem_nil
  nonneg _ := le_rfl

/-- A card goes below what is in its columns. -/
theorem flowed_flowInto (h : Flowed g₀ done s) (hgrid : r.InGrid)
    (hfree : ∀ x, r.c ≤ x → x < r.c + r.w → s.2 x ≤ r.r) :
    Flowed g₀ (id :: done) (flowInto s id r) := by
  have hpos := hgrid.pos
  have hrect : ∀ c : Card, (c.setRect r).rectOf = r := fun c => by
    rw [Card.rectOf_setRect, Rect.clamp_of_inGrid hgrid]
  have hfind : ∀ a c, (flowInto s id r).1.find? a = some c →
      ∃ c₀, s.1.find? a = some c₀ ∧ c = if a = id then c₀.setRect r else c₀ := by
    intro a c hc
    rw [flowInto, find?_setRect] at hc
    obtain ⟨c₀, hc₀, rfl⟩ := Option.map_eq_some_iff.mp hc
    exact ⟨c₀, hc₀, rfl⟩
  -- a column does not end earlier than before
  have hgrows : ∀ x, s.2 x ≤ (flowInto s id r).2 x := by
    intro x
    simp only [flowInto]
    split_ifs with hx
    · have := hfree x hx.1 hx.2
      omega
    · exact le_rfl
  -- a card that was taken before ends where this one begins, or earlier
  have hclear : ∀ a c, a ∈ done → s.1.find? a = some c → ¬ c.rectOf.overlaps r := by
    rintro a c ha hc ⟨h₁, h₂, h₃, h₄⟩
    have hwide := c.inGrid_rectOf.wide
    have hwide' := hgrid.wide
    have hends := (h.taken a ha c hc).2 (max c.rectOf.c r.c) (by omega) (by omega)
    have hbegins := hfree (max c.rectOf.c r.c) (by omega) (by omega)
    omega
  have hrest : ∀ a, a ∈ id :: done → a ≠ id → a ∈ done := fun a ha hne =>
    (List.mem_cons.mp ha).resolve_left hne
  refine ⟨fun a ha => ?_, fun a c hc => ?_, fun a ha c hc => ?_,
    fun a ha b hb ca cb hca hcb hne => ?_, fun x => (h.nonneg x).trans (hgrows x)⟩
  · rw [List.mem_cons, not_or] at ha
    obtain ⟨hne, ha⟩ := ha
    rw [flowInto, find?_setRect, h.kept a ha]
    simp [hne]
  · obtain ⟨c₁, hc₁, rfl⟩ := hfind a c hc
    obtain ⟨c₀, hc₀, hoff⟩ := h.shown a c₁ hc₁
    refine ⟨c₀, hc₀, ?_⟩
    split_ifs <;> exact hoff
  · -- the columns of the new card end with it, and no other column ends earlier than before
    obtain ⟨c₁, hc₁, rfl⟩ := hfind a c hc
    by_cases haid : a = id
    · rw [if_pos haid, hrect]
      refine ⟨Card.isPlaced_setRect _ _, fun x hleft hright => ?_⟩
      simp only [flowInto]
      rw [if_pos ⟨hleft, hright⟩]
    · rw [if_neg haid]
      obtain ⟨hplaced, hends⟩ := h.taken a (hrest a ha haid) c₁ hc₁
      exact ⟨hplaced, fun x hleft hright => (hends x hleft hright).trans (hgrows x)⟩
  · obtain ⟨ca₁, hca₁, rfl⟩ := hfind a ca hca
    obtain ⟨cb₁, hcb₁, rfl⟩ := hfind b cb hcb
    by_cases haid : a = id
    · have hbid : b ≠ id := fun heq => hne (haid.trans heq.symm)
      rw [if_pos haid, if_neg hbid, hrect, Rect.overlaps_comm]
      exact hclear b cb₁ (hrest b hb hbid) hcb₁
    · rw [if_neg haid]
      by_cases hbid : b = id
      · rw [if_pos hbid, hrect]
        exact hclear a ca₁ (hrest a ha haid) hca₁
      · rw [if_neg hbid]
        exact h.apart a (hrest a ha haid) b (hrest b hb hbid) ca₁ cb₁ hca₁ hcb₁ hne

/-- Cards taken one after the other. -/
theorem flowed_foldl {α : Type} {key : α → String}
    {step : Grid × (Int → Int) → α → Grid × (Int → Int)}
    (hstep : ∀ done s x, Flowed g₀ done s → Flowed g₀ (key x :: done) (step s x))
    (xs : List α) (h : Flowed g₀ done s) :
    Flowed g₀ ((xs.map key).reverse ++ done) (xs.foldl step s) := by
  induction xs generalizing done s with
  | nil => exact h
  | cons x xs ih =>
    have hnext := ih (hstep done s x h)
    rw [List.map_cons, List.reverse_cons, List.append_assoc]
    exact hnext

/-! ### Tidying up -/

theorem mem_columns_iff : x ∈ columns k w ↔ k ≤ x ∧ x < k + w := by
  simp only [columns, List.mem_map, List.mem_range]
  constructor
  · rintro ⟨i, hi, rfl⟩
    omega
  · rintro ⟨hleft, hright⟩
    exact ⟨(x - k).toNat, by omega, by omega⟩

/-- A card is taken by `compact`. -/
theorem flowed_compactCard (h : Flowed g₀ done s) (c : Card) :
    Flowed g₀ (c.id :: done) (compactCard s c) := by
  obtain ⟨htop, hcolumns⟩ := le_foldl_max s.2 (columns c.rectOf.c c.rectOf.w) 0
  have hgrid := c.inGrid_rectOf
  refine flowed_flowInto h { hgrid with top := htop } fun x hleft hright => ?_
  exact hcolumns x (mem_columns_iff.mpr ⟨hleft, hright⟩)

/-- Tidying up takes every visible card. -/
theorem arranged_compact (h : Arranged g) : Arranged g.compact := by
  obtain ⟨hplaced, -⟩ := arranged_iff.mp h
  set cs := (g.visible.filter Card.isPlaced).mergeSort readingOrder with hcs
  have hflowed : Flowed g ((cs.map Card.id).reverse ++ []) (cs.foldl compactCard (g, fun _ => 0)) :=
    flowed_foldl (fun _ _ c hs => flowed_compactCard hs c) cs (flowed_nil g)
  have hdone : ∀ a c, g.compact.Shows a c → a ∈ (cs.map Card.id).reverse ++ [] := by
    intro a c hc
    -- a card that is visible now was so before, and was placed
    obtain ⟨c₀, hc₀, hoff⟩ := hflowed.shown a c hc.1
    have hshows : g.Shows a c₀ := ⟨hc₀, hoff ▸ hc.2⟩
    obtain ⟨hmem, rfl⟩ := hshows.mem
    rw [List.append_nil, List.mem_reverse]
    refine List.mem_map_of_mem (List.mem_mergeSort.mpr ?_)
    exact List.mem_filter.mpr ⟨hmem, hplaced _ c₀ hshows⟩
  refine arranged_iff.mpr ⟨fun a c hc => (hflowed.taken a (hdone a c hc) c hc.1).1, ?_⟩
  exact fun a ca b cb ha hb => hflowed.apart a (hdone a ca ha) b (hdone b cb hb) ca cb ha.1 hb.1

/-! ### Records of the masonry version -/

/-- If a column was chosen, a card of the width fits there, and begins in a row where what is in
its columns has ended. -/
def Fits (bottoms : Int → Int) (w : Int) (best : Int × Option Int) : Prop :=
  ∀ top, best.2 = some top → 0 ≤ best.1 ∧ best.1 + w ≤ cols ∧
    ∀ x, best.1 ≤ x → x < best.1 + w → bottoms x ≤ top

theorem fits_betterColumn {best : Int × Option Int} (hk : k ∈ columns 0 (cols - w + 1))
    (h : Fits bottoms w best) : Fits bottoms w (betterColumn bottoms w best k) ∧
      (betterColumn bottoms w best k).2.isSome = true := by
  obtain ⟨-, hcolumns⟩ := le_foldl_max bottoms (columns k w) (bottoms k)
  obtain ⟨hleft, hright⟩ := mem_columns_iff.mp hk
  simp only [betterColumn]
  split_ifs with hbetter
  · refine ⟨fun top htop => ?_, rfl⟩
    obtain rfl := Option.some.inj htop
    exact ⟨hleft, by simp only; omega, fun x hx hx' => hcolumns x (mem_columns_iff.mpr ⟨hx, hx'⟩)⟩
  · refine ⟨h, ?_⟩
    cases hbest : best.2 with
    | none => simp [hbest] at hbetter
    | some top => rfl

/-- A column is chosen, where a card of the width fits. -/
theorem exists_bestColumn (bottoms : Int → Int) (hw : w ≤ cols) :
    ∃ top, (bestColumn bottoms w).2 = some top ∧ Fits bottoms w (bestColumn bottoms w) := by
  have hfold : ∀ (ks : List Int) (best : Int × Option Int),
      (∀ k ∈ ks, k ∈ columns 0 (cols - w + 1)) → Fits bottoms w best → best.2.isSome = true →
        Fits bottoms w (ks.foldl (betterColumn bottoms w) best) ∧
          (ks.foldl (betterColumn bottoms w) best).2.isSome = true := by
    intro ks
    induction ks with
    | nil => exact fun best _ h hsome => ⟨h, hsome⟩
    | cons k ks ih =>
      intro best hks h _
      obtain ⟨hk, hks⟩ := List.forall_mem_cons.mp hks
      obtain ⟨hfits, hsome⟩ := fits_betterColumn hk h
      exact ih _ hks hfits hsome
  have hnone : Fits bottoms w (0, none) := fun top htop => absurd htop (by simp)
  have hzero : (0 : Int) ∈ columns 0 (cols - w + 1) := mem_columns_iff.mpr ⟨le_rfl, by omega⟩
  unfold bestColumn
  -- the first column is better than none, so that one is chosen from then on
  cases hcolumns : columns 0 (cols - w + 1) with
  | nil => exact absurd (hcolumns ▸ hzero) List.not_mem_nil
  | cons k ks =>
    obtain ⟨hfits, hsome⟩ := fits_betterColumn (k := k) (by simp [hcolumns]) hnone
    obtain ⟨hfits', hsome'⟩ := hfold ks _ (fun k' hk' => by simp [hcolumns, hk']) hfits hsome
    obtain ⟨top, htop⟩ := Option.isSome_iff_exists.mp hsome'
    exact ⟨top, htop, hfits'⟩

/-- A card is taken by `migrate`. -/
theorem flowed_migrateCard {spans heights : String → Option Int} (h : Flowed g₀ done s)
    (id : String) : Flowed g₀ (id :: done) (migrateCard win spans heights s id) := by
  unfold migrateCard
  cases hfind : s.1.find? id with
  | none =>
    -- an id of the record that no card has
    have hrest : ∀ a c, s.1.find? a = some c → a ∈ id :: done → a ∈ done := fun a c hc ha =>
      (List.mem_cons.mp ha).resolve_left (ne_of_find? hfind hc)
    exact {
      kept := fun a ha => h.kept a fun hmem => ha (List.mem_cons_of_mem _ hmem)
      shown := h.shown
      taken := fun a ha c hc => h.taken a (hrest a c hc ha) c hc
      apart := fun a ha b hb ca cb hca hcb =>
        h.apart a (hrest a ca hca ha) b (hrest b cb hcb hb) ca cb hca hcb
      nonneg := h.nonneg }
  | some el =>
    simp only
    set w := max 1 (min cols (if (spans id).getD 0 = 0 then el.spanOf else (spans id).getD 0))
      with hw
    set height := if (heights id).getD 0 = 0 then win.contentRows id true
      else max minH (-(-((heights id).getD 0 + gap) / row)) with hheight
    have hwide : 1 ≤ w ∧ w ≤ cols := by
      rw [hw]
      exact ⟨le_max_left _ _, max_le (by decide) (min_le_left _ _)⟩
    have htall : minH ≤ height := by
      rw [hheight]
      split_ifs
      · exact minH_le_contentRows _ _ true
      · exact le_max_left _ _
    obtain ⟨top, htop, hfits⟩ := exists_bestColumn s.2 hwide.2
    obtain ⟨hleft, hright, hcolumns⟩ := hfits top htop
    rw [htop, Option.getD_some]
    have hnonneg : 0 ≤ top :=
      (h.nonneg _).trans (hcolumns (bestColumn s.2 w).1 le_rfl (by omega))
    exact flowed_flowInto h ⟨hleft, hright, hwide.1, hnonneg, htall⟩ hcolumns

theorem find?_toggle {hidden known : List String} : (g.toggle hidden known).find? a =
    (g.find? a).map fun c =>
      if a ∈ hidden then { c with off := true }
      else if a ∈ known then { c with off := false }
      else c :=
  find?_mapCards_of _ fun c hc => by rw [hc]

/-- Hiding and showing cards changes nothing else about them. -/
theorem rectOf_of_find?_toggle {hidden known : List String}
    (h : (g.toggle hidden known).find? a = some c) :
    ∃ c₀, g.find? a = some c₀ ∧ c.rectOf = c₀.rectOf ∧ c.isPlaced = c₀.isPlaced := by
  rw [find?_toggle] at h
  obtain ⟨c₀, hc₀, rfl⟩ := Option.map_eq_some_iff.mp h
  refine ⟨c₀, hc₀, ?_⟩
  split_ifs <;> exact ⟨rfl, rfl⟩

/-- The cards that `migrate` placed are apart, hidden ones included. -/
theorem placedApart_migrate (win : Window) (page : Page) (order : Option (List String))
    (spans heights : String → Option Int) (hidden known : List String) :
    PlacedApart ((page.toGrid.migrate win order spans heights).toggle hidden known) := by
  set ids := order.getD (page.cards.map Card.id) with hids
  have hstep : ∀ done s id, Flowed page.toGrid done s →
      Flowed page.toGrid (id :: done) (migrateCard win spans heights s id) :=
    fun _ _ id hs => flowed_migrateCard hs id
  have hflowed := flowed_foldl hstep ids (flowed_nil page.toGrid)
  have hdone : ∀ a c, (page.toGrid.migrate win order spans heights).find? a = some c →
      c.isPlaced = true → a ∈ (ids.map fun id => id).reverse ++ [] := by
    intro a c hc hplaced
    -- a card that was not taken is as it was on the page, where none is placed
    by_contra hnot
    have hfresh := (hflowed.kept a hnot).symm.trans hc
    have hmem := mem_cards_iff.mpr ((id_of_find? hfresh).symm ▸ hfresh)
    rw [page.unplaced c hmem] at hplaced
    exact absurd hplaced (by simp)
  rw [placedApart_iff]
  intro a ca b cb ha hb hpa hpb hne
  obtain ⟨ca₀, hca₀, hrecta, hplaceda⟩ := rectOf_of_find?_toggle ha.1
  obtain ⟨cb₀, hcb₀, hrectb, hplacedb⟩ := rectOf_of_find?_toggle hb.1
  rw [hrecta, hrectb]
  exact hflowed.apart a (hdone a ca₀ hca₀ (hplaceda ▸ hpa)) b
    (hdone b cb₀ hcb₀ (hplacedb ▸ hpb)) ca₀ cb₀ hca₀ hcb₀ hne

/-! ### Records of this version -/

/-- Cards are put where they are said to be; each is said to be in one place. -/
theorem find?_foldl_setRect {pos : List (String × Rect)} (hnodup : (pos.map Prod.fst).Nodup) :
    (pos.foldl (fun g p => g.setRect p.1 p.2) g).find? a = (g.find? a).map fun c =>
      match pos.find? fun p => p.1 = a with
      | none => c
      | some p => c.setRect p.2 := by
  induction pos generalizing g with
  | nil => simp
  | cons p pos ih =>
    rw [List.map_cons, List.nodup_cons] at hnodup
    rw [List.foldl_cons, ih hnodup.2, find?_setRect, Option.map_map]
    congr 1
    funext c
    by_cases ha : a = p.1
    · subst ha
      -- the card is not spoken of again
      have hnone : pos.find? (fun q => q.1 = p.1) = none := by
        rw [List.find?_eq_none]
        intro q hq heq
        exact hnodup.1 (of_decide_eq_true heq ▸ List.mem_map_of_mem hq)
      simp [hnone]
    · have hne : ¬ p.1 = a := fun h => ha h.symm
      simp [ha, hne]

/-- A page that is loaded with the record of an arrangement. -/
theorem arranged_reload (h : Arranged g) (win : Window) (page : Page) :
    Arranged (page.toGrid.apply win (some g.save)) := by
  obtain ⟨-, hapart⟩ := arranged_iff.mp h
  refine arranged_placeUnplaced win (placedApart_iff.mpr ?_)
  set pos := g.cards.map fun c => (c.id, c.rectOf) with hpos
  set hidden := (g.cards.filter Card.off).map Card.id with hhidden
  -- a card that is visible and placed was so when the record was made
  have hsaved : ∀ a c, ((pos.foldl (fun g p => g.setRect p.1 p.2) page.toGrid).toggle hidden
      (pos.map Prod.fst)).Shows a c → c.isPlaced = true →
        ∃ c₀, g.Shows a c₀ ∧ c.rectOf = c₀.rectOf := by
    rintro a c ⟨hfind, hoff⟩ hplaced
    obtain ⟨c₁, hc₁, hrect, hplaced₁⟩ := rectOf_of_find?_toggle hfind
    have hnodup : (pos.map Prod.fst).Nodup := by
      rw [hpos, List.map_map]
      exact g.nodup
    have hlookup : pos.find? (fun p => p.1 = a) = (g.find? a).map fun c => (c.id, c.rectOf) := by
      rw [hpos, List.find?_map]
      rfl
    rw [find?_foldl_setRect hnodup, hlookup] at hc₁
    obtain ⟨c₂, hc₂, hset⟩ := Option.map_eq_some_iff.mp hc₁
    cases hcard : g.find? a with
    | none =>
      -- the record does not know the card, and so nothing placed it
      simp only [hcard, Option.map_none] at hset
      have hmem := mem_cards_iff.mpr ((id_of_find? hc₂).symm ▸ hc₂)
      rw [hplaced₁, ← hset, page.unplaced c₂ hmem] at hplaced
      exact absurd hplaced (by simp)
    | some c₀ =>
      simp only [hcard, Option.map_some] at hset
      refine ⟨c₀, ⟨hcard, ?_⟩, ?_⟩
      · -- a card that was hidden when the record was made is hidden again
        by_contra hc₀
        have hmem : a ∈ hidden := by
          have hid := id_of_find? hcard
          subst hid
          refine List.mem_map_of_mem (List.mem_filter.mpr ⟨mem_cards_iff.mpr hcard, ?_⟩)
          simpa using hc₀
        rw [find?_toggle] at hfind
        obtain ⟨c₃, -, rfl⟩ := Option.map_eq_some_iff.mp hfind
        rw [if_pos hmem] at hoff
        exact absurd hoff (by simp)
      · rw [hrect, ← hset, Card.rectOf_setRect, Rect.clamp_of_inGrid c₀.inGrid_rectOf]
  intro a ca b cb ha hb hpa hpb hne
  obtain ⟨ca₀, ha₀, hrecta⟩ := hsaved a ca ha hpa
  obtain ⟨cb₀, hb₀, hrectb⟩ := hsaved b cb hb hpb
  rw [hrecta, hrectb]
  exact hapart a ca₀ b cb₀ ha₀ hb₀ hne

end Grid

end CertGuard.Widgets
