import CertGuard.Web.Resolve

/-!
# Arranged cards

Hiding a card leaves the others apart from each other. A card that is shown keeps its place only
if that is free, and what has no place yet goes below everything else.

## Main definitions

* `Arranged` — the visible cards are placed, within the columns, and disjoint
* `PlacedApart` — those that are placed are disjoint
* `Grid.Stacked` — and end before a row

## Main results

* `arranged_placeUnplaced` — placing what is not placed
* `arranged_hide`, `arranged_unhide` — hiding a card, and showing one
-/

namespace CertGuard.Widgets

/-- The visible cards are placed within the columns, and no two of them have a cell in common. -/
structure Arranged (g : Grid) : Prop where
  placed : ∀ c ∈ g.visible, c.isPlaced = true
  inGrid : ∀ c ∈ g.visible, c.rectOf.InGrid
  apart : ∀ a ∈ g.visible, ∀ b ∈ g.visible, a.id ≠ b.id → Disjoint a.rectOf.cells b.rectOf.cells

/-- The visible cards that are placed have no cell in common. -/
def PlacedApart (g : Grid) : Prop :=
  ∀ a ∈ g.visible, ∀ b ∈ g.visible, a.isPlaced = true → b.isPlaced = true → a.id ≠ b.id →
    Disjoint a.rectOf.cells b.rectOf.cells

namespace Grid

/-- A card is there, and visible. -/
def Shows (g : Grid) (id : String) (c : Card) : Prop := g.find? id = some c ∧ c.off = false

variable {g g' : Grid} {id a b : String} {c ca cb : Card} {r : Rect} {win : Window}

theorem shows_of_mem (h : c ∈ g.visible) : g.Shows c.id c := mem_visible_iff.mp h

theorem Shows.mem (h : g.Shows a c) : c ∈ g.visible ∧ c.id = a := by
  have hid := id_of_find? h.1
  subst hid
  exact ⟨mem_visible_iff.mpr h, rfl⟩

theorem placedApart_iff : PlacedApart g ↔ ∀ a ca b cb, g.Shows a ca → g.Shows b cb →
    ca.isPlaced = true → cb.isPlaced = true → a ≠ b → ¬ ca.rectOf.overlaps cb.rectOf := by
  constructor
  · intro h a ca b cb ha hb hpa hpb hne
    obtain ⟨hma, rfl⟩ := ha.mem
    obtain ⟨hmb, rfl⟩ := hb.mem
    exact (Rect.disjoint_cells_iff ca.inGrid_rectOf cb.inGrid_rectOf).mp
      (h ca hma cb hmb hpa hpb hne)
  · intro h a ha b hb hpa hpb hne
    exact (Rect.disjoint_cells_iff a.inGrid_rectOf b.inGrid_rectOf).mpr
      (h a.id a b.id b (shows_of_mem ha) (shows_of_mem hb) hpa hpb hne)

theorem arranged_iff : Arranged g ↔ (∀ a c, g.Shows a c → c.isPlaced = true) ∧
    ∀ a ca b cb, g.Shows a ca → g.Shows b cb → a ≠ b → ¬ ca.rectOf.overlaps cb.rectOf := by
  constructor
  · rintro ⟨hplaced, -, hapart⟩
    refine ⟨fun a c hc => hplaced c hc.mem.1, fun a ca b cb ha hb hne => ?_⟩
    obtain ⟨hma, rfl⟩ := ha.mem
    obtain ⟨hmb, rfl⟩ := hb.mem
    exact (Rect.disjoint_cells_iff ca.inGrid_rectOf cb.inGrid_rectOf).mp (hapart ca hma cb hmb hne)
  · rintro ⟨hplaced, hapart⟩
    refine ⟨fun c hc => hplaced c.id c (shows_of_mem hc), fun c _ => c.inGrid_rectOf,
      fun a ha b hb hne => ?_⟩
    exact (Rect.disjoint_cells_iff a.inGrid_rectOf b.inGrid_rectOf).mpr
      (hapart a.id a b.id b (shows_of_mem ha) (shows_of_mem hb) hne)

/-- Where the placed cards are apart, it is enough that all are placed. -/
theorem arranged_of_placed (hapart : PlacedApart g)
    (hplaced : ∀ a c, g.Shows a c → c.isPlaced = true) : Arranged g := by
  refine arranged_iff.mpr ⟨hplaced, fun a ca b cb ha hb hne => ?_⟩
  exact placedApart_iff.mp hapart a ca b cb ha hb (hplaced a ca ha) (hplaced b cb hb) hne

/-! ### Cards below others -/

/-- A card is visible after a rectangle was set exactly if it was before. -/
theorem shows_setRect : (g.setRect id r).Shows a c ↔
    ∃ c₀, g.Shows a c₀ ∧ c = if a = id then c₀.setRect r else c₀ := by
  rw [Shows, find?_setRect, Option.map_eq_some_iff]
  constructor
  · rintro ⟨⟨c₀, hfind, rfl⟩, hoff⟩
    refine ⟨c₀, ⟨hfind, ?_⟩, rfl⟩
    split_ifs at hoff <;> exact hoff
  · rintro ⟨c₀, ⟨hfind, hoff⟩, rfl⟩
    refine ⟨⟨c₀, hfind, rfl⟩, ?_⟩
    split_ifs <;> exact hoff

theorem le_foldl_max {α : Type} (f : α → Int) (l : List α) (m : Int) :
    m ≤ l.foldl (fun m x => max m (f x)) m ∧ ∀ x ∈ l, f x ≤ l.foldl (fun m x => max m (f x)) m := by
  induction l generalizing m with
  | nil => simp
  | cons x l ih =>
    obtain ⟨hm, hl⟩ := ih (max m (f x))
    rw [List.foldl_cons]
    exact ⟨(le_max_left _ _).trans hm,
      List.forall_mem_cons.mpr ⟨(le_max_right _ _).trans hm, hl⟩⟩

/-- The row below some cards is below each of them that is placed. -/
theorem le_bottomOf {cs : List Card} (hc : c ∈ cs) (hplaced : c.isPlaced = true) :
    c.rectOf.r + c.rectOf.h ≤ bottomOf cs :=
  (le_foldl_max (fun c : Card => c.rowOf + c.hOf) _ 0).2 c (List.mem_filter.mpr ⟨hc, hplaced⟩)

theorem bottomOf_nonneg (cs : List Card) : 0 ≤ bottomOf cs := (le_foldl_max _ _ 0).1

/-- A card that begins where another ends, or later, does not overlap it. -/
theorem not_overlaps_of_le {r' : Rect} (h : r.r + r.h ≤ r'.r) : ¬ r.overlaps r' := by
  rintro ⟨-, -, -, hover⟩
  omega

theorem minH_le_contentRows (win : Window) (id : String) (capped : Bool) :
    minH ≤ win.contentRows id capped := le_max_left _ _

/-- Where a card goes that has no place: at the left, as wide as its span and as high as its
content. -/
theorem inGrid_below {bottom : Int} (hbottom : 0 ≤ bottom) (win : Window) (id : String)
    (c : Card) :
    (⟨0, bottom, max 1 (min cols c.spanOf), win.contentRows id true⟩ : Rect).InGrid := by
  have htall := minH_le_contentRows win id true
  constructor <;> simp only [cols] <;> omega

/-- A card whose rectangle was set is placed, and the others are where they were. -/
theorem placed_of_shows_setRect (h : (g.setRect id r).Shows a c) :
    ∃ c₀, g.Shows a c₀ ∧ (c₀.isPlaced = true ∨ a = id → c.isPlaced = true) := by
  obtain ⟨c₀, hc₀, rfl⟩ := shows_setRect.mp h
  refine ⟨c₀, hc₀, fun hcase => ?_⟩
  by_cases haid : a = id
  · rw [if_pos haid]
    exact Card.isPlaced_setRect _ _
  · rw [if_neg haid]
    exact hcase.resolve_right haid

/-- A card is put where no other is. -/
theorem placedApart_setRect (hgrid : r.InGrid)
    (hothers : ∀ a ca b cb, a ≠ id → b ≠ id → g.Shows a ca → g.Shows b cb → ca.isPlaced = true →
      cb.isPlaced = true → a ≠ b → ¬ ca.rectOf.overlaps cb.rectOf)
    (hfree : ∀ a c, a ≠ id → g.Shows a c → c.isPlaced = true → ¬ c.rectOf.overlaps r) :
    PlacedApart (g.setRect id r) := by
  have hrect : ∀ c : Card, (c.setRect r).rectOf = r := fun c => by
    rw [Card.rectOf_setRect, Rect.clamp_of_inGrid hgrid]
  rw [placedApart_iff]
  intro a ca b cb ha hb hpa hpb hne
  obtain ⟨ca₀, ha₀, rfl⟩ := shows_setRect.mp ha
  obtain ⟨cb₀, hb₀, rfl⟩ := shows_setRect.mp hb
  -- at most one of the two is the card that was put
  by_cases haid : a = id
  · have hbid : b ≠ id := fun h => hne (haid.trans h.symm)
    rw [if_neg hbid] at hpb ⊢
    rw [if_pos haid, hrect, Rect.overlaps_comm]
    exact hfree b cb₀ hbid hb₀ hpb
  · rw [if_neg haid] at hpa ⊢
    by_cases hbid : b = id
    · rw [if_pos hbid, hrect]
      exact hfree a ca₀ haid ha₀ hpa
    · rw [if_neg hbid] at hpb ⊢
      exact hothers a ca₀ b cb₀ haid hbid ha₀ hb₀ hpa hpb hne

/-! ### Placing what is not placed -/

/-- The visible cards that are placed are apart, and end before a row. -/
structure Stacked (g : Grid) (bottom : Int) : Prop where
  apart : PlacedApart g
  above : ∀ a c, g.Shows a c → c.isPlaced = true → c.rectOf.r + c.rectOf.h ≤ bottom
  nonneg : 0 ≤ bottom

/-- A step of `placeUnplaced`: cards stay visible and placed, and one more is placed. -/
theorem stacked_placeNext (win : Window) (id : String) {s : Grid × Int}
    (h : Stacked s.1 s.2) :
    Stacked (placeNext win s id).1 (placeNext win s id).2 ∧
      (∀ a c, (placeNext win s id).1.Shows a c → ∃ c₀, s.1.Shows a c₀ ∧
        (c₀.isPlaced = true ∨ a = id → c.isPlaced = true)) := by
  unfold placeNext
  cases hfind : s.1.find? id with
  | none =>
    exact ⟨h, fun a c hc => ⟨c, hc, fun hplaced =>
      hplaced.resolve_right (ne_of_find? hfind hc.1)⟩⟩
  | some c₁ =>
    by_cases hplaced : c₁.isPlaced = true
    · simp only [if_pos hplaced]
      refine ⟨h, fun a c hc => ⟨c, hc, fun hcase => hcase.elim (fun hp => hp) ?_⟩⟩
      rintro rfl
      obtain rfl := Option.some.inj (hfind.symm.trans hc.1)
      exact hplaced
    · simp only [if_neg hplaced]
      set r : Rect := ⟨0, s.2, max 1 (min cols c₁.spanOf), win.contentRows id true⟩
      have hgrid : r.InGrid := inGrid_below h.nonneg win id c₁
      have hrect : ∀ c : Card, (c.setRect r).rectOf = r := fun c => by
        rw [Card.rectOf_setRect, Rect.clamp_of_inGrid hgrid]
      have hend : s.2 + (c₁.setRect r).hOf = r.r + r.h := by
        change s.2 + (c₁.setRect r).rectOf.h = _
        rw [hrect]
      rw [hend]
      have hpos := hgrid.pos
      have hlow : s.2 = r.r := rfl
      refine ⟨⟨?_, fun a c hc hp => ?_, ?_⟩, fun a c hc => placed_of_shows_setRect hc⟩
      · refine placedApart_setRect hgrid (fun a ca b cb _ _ => ?_) fun a c _ hc hp => ?_
        · exact placedApart_iff.mp h.apart a ca b cb
        · exact not_overlaps_of_le (hlow ▸ h.above a c hc hp)
      · -- the card ends where the next one will begin, and the others end above it
        obtain ⟨c₀, hc₀, rfl⟩ := shows_setRect.mp hc
        by_cases haid : a = id
        · rw [if_pos haid, hrect]
        · rw [if_neg haid] at hp ⊢
          have := h.above a c₀ hc₀ hp
          omega
      · have := h.nonneg
        omega

theorem stacked_foldl (win : Window) (ids : List String) {s : Grid × Int}
    (h : Stacked s.1 s.2) :
    Stacked (ids.foldl (placeNext win) s).1 (ids.foldl (placeNext win) s).2 ∧
      ∀ a c, (ids.foldl (placeNext win) s).1.Shows a c → ∃ c₀, s.1.Shows a c₀ ∧
        (c₀.isPlaced = true ∨ a ∈ ids → c.isPlaced = true) := by
  induction ids generalizing s with
  | nil => exact ⟨h, fun a c hc => ⟨c, hc, fun hcase => hcase.resolve_right List.not_mem_nil⟩⟩
  | cons id ids ih =>
    obtain ⟨hfirst, hcards⟩ := stacked_placeNext win id h
    obtain ⟨hrest, hcards'⟩ := ih hfirst
    refine ⟨hrest, fun a c hc => ?_⟩
    obtain ⟨c₁, hc₁, hplaced₁⟩ := hcards' a c hc
    obtain ⟨c₀, hc₀, hplaced₀⟩ := hcards a c₁ hc₁
    refine ⟨c₀, hc₀, ?_⟩
    rintro (hp | hmem)
    · exact hplaced₁ (Or.inl (hplaced₀ (Or.inl hp)))
    · rcases List.mem_cons.mp hmem with rfl | hmem
      · exact hplaced₁ (Or.inl (hplaced₀ (Or.inr rfl)))
      · exact hplaced₁ (Or.inr hmem)

/-- What is not placed yet goes below everything else. -/
theorem arranged_placeUnplaced (win : Window) (h : PlacedApart g) :
    Arranged (g.placeUnplaced win) := by
  have hstacked : Stacked (g, bottomOf g.visible).1 (g, bottomOf g.visible).2 :=
    ⟨h, fun a c hc hp => le_bottomOf hc.mem.1 hp, bottomOf_nonneg _⟩
  obtain ⟨hend, hcards⟩ := stacked_foldl win (g.visible.map Card.id) hstacked
  refine arranged_of_placed hend.apart fun a c hc => ?_
  obtain ⟨c₀, hc₀, hplaced⟩ := hcards a c hc
  obtain ⟨hmem, rfl⟩ := hc₀.mem
  exact hplaced (Or.inr (List.mem_map_of_mem hmem))

/-! ### Hiding and showing -/

theorem shows_setOff {off : Bool} : (g.setOff id off).Shows a c ↔
    ∃ c₀, g.find? a = some c₀ ∧ c.off = false ∧
      c = if a = id then { c₀ with off := off } else c₀ := by
  rw [Shows, find?_setOff, Option.map_eq_some_iff]
  constructor
  · rintro ⟨⟨c₀, hfind, rfl⟩, hoff⟩
    exact ⟨c₀, hfind, hoff, rfl⟩
  · rintro ⟨c₀, hfind, hoff, rfl⟩
    exact ⟨⟨c₀, hfind, rfl⟩, hoff⟩

/-- The cards other than the one that is hidden or shown are as they were. -/
theorem shows_of_setOff {off : Bool} (h : (g.setOff id off).Shows a c) (hne : a ≠ id) :
    g.Shows a c := by
  obtain ⟨c₀, hfind, hoff, rfl⟩ := shows_setOff.mp h
  rw [if_neg hne] at hoff ⊢
  exact ⟨hfind, hoff⟩

theorem arranged_hide (h : Arranged g) (id : String) : Arranged (g.setOff id true) := by
  have hothers : ∀ a c, (g.setOff id true).Shows a c → g.Shows a c := by
    intro a c hc
    refine shows_of_setOff hc fun haid => ?_
    obtain ⟨c₀, -, hoff, rfl⟩ := shows_setOff.mp hc
    rw [if_pos haid] at hoff
    exact absurd hoff (by simp)
  obtain ⟨hplaced, hapart⟩ := arranged_iff.mp h
  refine arranged_iff.mpr ⟨fun a c hc => hplaced a c (hothers a c hc), ?_⟩
  exact fun a ca b cb ha hb => hapart a ca b cb (hothers a ca ha) (hothers b cb hb)

/-- A card that is shown keeps its place if that is free, and goes below all others if not. -/
theorem arranged_placeIntoFreeSpace (win : Window)
    (hplaced : ∀ a c, a ≠ id → g.Shows a c → c.isPlaced = true)
    (hapart : ∀ a ca b cb, a ≠ id → b ≠ id → g.Shows a ca → g.Shows b cb → a ≠ b →
      ¬ ca.rectOf.overlaps cb.rectOf) (hshown : ∀ c, g.find? id = some c → c.off = false) :
    Arranged (g.placeIntoFreeSpace win id) := by
  unfold placeIntoFreeSpace
  cases hfind : g.find? id with
  | none =>
    have hother : ∀ a c, g.Shows a c → a ≠ id := fun a c hc => ne_of_find? hfind hc.1
    refine arranged_iff.mpr ⟨fun a c hc => hplaced a c (hother a c hc) hc, ?_⟩
    exact fun a ca b cb ha hb => hapart a ca b cb (hother a ca ha) (hother b cb hb) ha hb
  | some card =>
    set others := g.visible.filter fun x => x.id ≠ id with hothers
    have hmem : ∀ a c, a ≠ id → g.Shows a c → c ∈ others := by
      intro a c hne hc
      obtain ⟨hvisible, rfl⟩ := hc.mem
      exact List.mem_filter.mpr ⟨hvisible, by simpa using hne⟩
    simp only
    split_ifs with hclash
    · -- it goes below the others
      have hgrid := inGrid_below (bottomOf_nonneg others) win id card
      refine arranged_of_placed (placedApart_setRect hgrid ?_ fun a c hne hc hp => ?_)
        fun a c hc => ?_
      · exact fun a ca b cb hna hnb ha hb _ _ => hapart a ca b cb hna hnb ha hb
      · exact not_overlaps_of_le (le_bottomOf (hmem a c hne hc) hp)
      · obtain ⟨c₀, hc₀, hcase⟩ := placed_of_shows_setRect hc
        by_cases haid : a = id
        · exact hcase (Or.inr haid)
        · exact hcase (Or.inl (hplaced a c₀ haid hc₀))
    · -- it stays where it was when it was hidden
      rw [not_or, Bool.not_eq_false, not_exists] at hclash
      obtain ⟨hcard, hfree⟩ := hclash
      have hsame : ∀ c, g.Shows id c → c = card := fun c hc =>
        Option.some.inj (hc.1.symm.trans hfind)
      have hclear : ∀ a c, a ≠ id → g.Shows a c → ¬ card.rectOf.overlaps c.rectOf :=
        fun a c hne hc hover => hfree c ⟨hmem a c hne hc, hplaced a c hne hc, hover⟩
      refine arranged_iff.mpr ⟨fun a c hc => ?_, fun a ca b cb ha hb hne => ?_⟩
      · by_cases haid : a = id
        · subst haid
          rw [hsame c hc]
          exact hcard
        · exact hplaced a c haid hc
      · by_cases haid : a = id
        · subst haid
          rw [hsame ca ha]
          exact hclear b cb hne.symm hb
        · by_cases hbid : b = id
          · subst hbid
            rw [hsame cb hb, Rect.overlaps_comm]
            exact hclear a ca haid ha
          · exact hapart a ca b cb haid hbid ha hb hne

theorem arranged_unhide (h : Arranged g) (win : Window) (id : String) :
    Arranged ((g.setOff id false).placeIntoFreeSpace win id) := by
  obtain ⟨hplaced, hapart⟩ := arranged_iff.mp h
  refine arranged_placeIntoFreeSpace win (fun a c hne hc => ?_)
    (fun a ca b cb hna hnb ha hb => ?_) fun c hc => ?_
  · exact hplaced a c (shows_of_setOff hc hne)
  · exact hapart a ca b cb (shows_of_setOff ha hna) (shows_of_setOff hb hnb)
  · rw [find?_setOff] at hc
    obtain ⟨c₀, -, rfl⟩ := Option.map_eq_some_iff.mp hc
    rw [if_pos rfl]

end Grid

end CertGuard.Widgets
