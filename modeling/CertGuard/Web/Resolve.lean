import Mathlib.Order.CompletePartialOrder
import CertGuard.Lib.PushDown
import CertGuard.Web.Widgets

/-!
# Pushing cards out of the way

`resolve` is a loop over passes, cut off by a guard. The cards it goes through are blocks that
push each other down, those in the same columns, and the guard is more than the number of cards.

## Main definitions

* `Rect.InGrid`, `Rect.cells` — rectangles within the columns, and the cells they cover
* `Grid.blocks` — the cards of a page, as blocks
* `MovesOnly` — what putting a card somewhere leaves of the others

## Main results

* `resolveLoop_stops` — the loop ends because nothing overlaps any more
* `not_overlaps_place` — where a card was put, nothing overlaps
* `movesOnly_place` — the card is where it was put, and others moved down at most
-/

namespace CertGuard.Widgets

/-- A card was put at a rectangle, as far as it fits there; the others keep their column, width
and height, and none moved up. -/
structure MovesOnly (g g' : Grid) (id : String) (target : Rect) : Prop where
  moved : ∀ c, g.find? id = some c →
    ∃ c', g'.find? id = some c' ∧ c'.off = c.off ∧ c'.rectOf = target.clamp
  others : ∀ a c, a ≠ id → g.find? a = some c → ∃ c', g'.find? a = some c' ∧ c'.off = c.off ∧
    ∃ r, c.rectOf.r ≤ r ∧ c'.rectOf = { c.rectOf with r := r }

/-! ### Rectangles -/

namespace Rect

/-- A rectangle within the columns, that begins in some row and has some height. -/
structure InGrid (r : Rect) : Prop where
  left : 0 ≤ r.c
  right : r.c + r.w ≤ cols
  wide : 1 ≤ r.w
  top : 0 ≤ r.r
  tall : minH ≤ r.h

/-- The cells a rectangle covers, each with its column and its row. -/
def cells (r : Rect) : Set (Int × Int) :=
  {x | r.c ≤ x.1 ∧ x.1 < r.c + r.w ∧ r.r ≤ x.2 ∧ x.2 < r.r + r.h}

variable {a b r : Rect}

theorem overlaps_comm : a.overlaps b ↔ b.overlaps a := by
  unfold overlaps
  constructor <;> rintro ⟨h₁, h₂, h₃, h₄⟩ <;> exact ⟨h₂, h₁, h₄, h₃⟩

theorem InGrid.pos (h : r.InGrid) : 0 < r.h := by
  have := h.tall
  simp only [minH] at this
  omega

theorem clamp_of_inGrid (h : r.InGrid) : r.clamp = r := by
  obtain ⟨hleft, hright, hwide, htop, htall⟩ := h
  obtain ⟨c, r, w, h⟩ := r
  simp only [cols, minH] at hleft hright hwide htop htall
  simp only [clamp, cols, minH, mk.injEq]
  omega

/-- Two rectangles overlap if they have a cell in common. -/
theorem disjoint_cells_iff (ha : a.InGrid) (hb : b.InGrid) :
    Disjoint a.cells b.cells ↔ ¬ a.overlaps b := by
  have := ha.pos
  have := hb.pos
  have := ha.wide
  have := hb.wide
  rw [Set.disjoint_left]
  constructor
  · -- where they overlap, they have the cell in common where the later one begins
    rintro hdisjoint ⟨h₁, h₂, h₃, h₄⟩
    refine @hdisjoint (max a.c b.c, max a.r b.r) ?_ ?_
    · exact ⟨le_max_left _ _, by simp only; omega, le_max_left _ _, by simp only; omega⟩
    · exact ⟨le_max_right _ _, by simp only; omega, le_max_right _ _, by simp only; omega⟩
  · rintro hfree ⟨x, y⟩ ⟨h₁, h₂, h₃, h₄⟩ ⟨h₅, h₆, h₇, h₈⟩
    simp only at h₁ h₂ h₃ h₄ h₅ h₆ h₇ h₈
    exact hfree ⟨by omega, by omega, by omega, by omega⟩

end Rect

/-! ### Cards -/

namespace Card

variable {c : Card} {r : Rect}

theorem rectOf_setRect (c : Card) (r : Rect) : (c.setRect r).rectOf = r.clamp := by
  simp only [rectOf, setRect, colOf, rowOf, wOf, hOf, Option.getD_some, Rect.clamp, cols, minH,
    Rect.mk.injEq]
  omega

theorem inGrid_rectOf (c : Card) : c.rectOf.InGrid := by
  constructor <;> simp only [rectOf, colOf, rowOf, wOf, hOf, cols, minH] <;> omega

theorem isPlaced_setRect (c : Card) (r : Rect) : (c.setRect r).isPlaced = true := rfl

end Card

/-! ### The cards of a page -/

namespace Grid

variable {g : Grid} {id id' moved : String} {c : Card} {f : Card → Card} {r : Rect}

theorem id_of_find? (h : g.find? id = some c) : c.id = id := by
  simpa using List.find?_some h

/-- A card is not the one that is missing. -/
theorem ne_of_find? (hnone : g.find? id' = none) (h : g.find? id = some c) : id ≠ id' := by
  rintro rfl
  rw [hnone] at h
  exact absurd h (by simp)

theorem mem_cards_iff : c ∈ g.cards ↔ g.find? c.id = some c := by
  constructor
  · intro hmem
    cases hfind : g.find? c.id with
    | none => exact absurd (List.find?_eq_none.mp hfind c hmem) (by simp)
    | some c' =>
      have hids : c'.id = c.id := id_of_find? hfind
      rw [List.inj_on_of_nodup_map g.nodup (List.mem_of_find?_eq_some hfind) hmem hids]
  · exact List.mem_of_find?_eq_some

theorem mem_visible_iff : c ∈ g.visible ↔ g.find? c.id = some c ∧ c.off = false := by
  rw [visible, List.mem_filter, mem_cards_iff, Bool.not_eq_true']

theorem find?_mapCards (hf : ∀ c, (f c).id = c.id) :
    (g.mapCards f hf).find? id = (g.find? id).map f := by
  simp only [find?, mapCards, List.find?_map, Function.comp_def, hf]

/-- What is done to a card may go by its id. -/
theorem find?_mapCards_of {f' : Card → Card} (hf : ∀ c, (f c).id = c.id)
    (h : ∀ c, c.id = id → f c = f' c) : (g.mapCards f hf).find? id = (g.find? id).map f' := by
  rw [find?_mapCards]
  cases hfind : g.find? id with
  | none => rfl
  | some c => rw [Option.map_some, Option.map_some, h c (id_of_find? hfind)]

theorem find?_setRect : (g.setRect id r).find? id' =
    (g.find? id').map fun c => if id' = id then c.setRect r else c :=
  find?_mapCards_of _ fun c hc => by rw [hc]

theorem find?_setOff {off : Bool} : (g.setOff id off).find? id' =
    (g.find? id').map fun c => if id' = id then { c with off := off } else c :=
  find?_mapCards_of _ fun c hc => by rw [hc]

theorem rects_of_find? (h : g.find? id = some c) : g.rects id = c.rectOf := by
  rw [rects, h, Option.getD_some]

theorem inGrid_rects (g : Grid) (id : String) : (g.rects id).InGrid := Card.inGrid_rectOf _

theorem mem_others_iff : id ∈ g.others moved ↔
    id ≠ moved ∧ ∃ c, g.find? id = some c ∧ c.off = false := by
  simp only [others, List.mem_filter, List.mem_map, decide_eq_true_eq]
  constructor
  · rintro ⟨⟨c, hc, rfl⟩, hne⟩
    exact ⟨hne, c, mem_visible_iff.mp hc⟩
  · rintro ⟨hne, c, hfind, hoff⟩
    have hid := id_of_find? hfind
    subst hid
    exact ⟨⟨c, mem_visible_iff.mpr ⟨hfind, hoff⟩, rfl⟩, hne⟩

/-! ### Cards as blocks -/

/-- The cards, as blocks in the columns they have. -/
def blocks (g : Grid) : PushDown.Blocks String where
  meets a b := (g.rects a).c < (g.rects b).c + (g.rects b).w ∧
    (g.rects b).c < (g.rects a).c + (g.rects a).w
  size a := (g.rects a).h
  symm h := ⟨h.2, h.1⟩
  size_pos a := (g.inGrid_rects a).pos

instance (g : Grid) : DecidableRel g.blocks.meets := fun _ _ => inferInstanceAs (Decidable (_ ∧ _))

/-- The rectangles of the cards, moved to other rows. -/
def withRows (g : Grid) (rows : String → Int) (id : String) : Rect :=
  { g.rects id with r := rows id }

variable {rows : String → Int} {all : List String} {a b p : String}

theorem overlaps_withRows : (g.withRows rows a).overlaps (g.withRows rows b) ↔
    PushDown.Overlap g.blocks rows a b := by
  simp only [Rect.overlaps, withRows, PushDown.Overlap, blocks, and_assoc]

theorem pushTurn_withRows : pushTurn moved all (g.withRows rows) p =
    g.withRows (PushDown.turn g.blocks moved all rows p) := by
  funext q
  simp only [pushTurn, overlaps_withRows]
  by_cases hpushed : PushDown.Pushed g.blocks moved all rows p q
  · have hrow := PushDown.turn_of_pushed hpushed
    simp only [withRows, hrow]
    exact if_pos hpushed
  · have hrow := PushDown.turn_of_not_pushed hpushed
    simp only [withRows, hrow]
    exact if_neg hpushed

theorem pushPass_withRows : pushPass moved all (g.withRows rows) =
    (g.withRows (PushDown.pass g.blocks moved all rows).1,
      (PushDown.pass g.blocks moved all rows).2) := by
  have hfold : ∀ (ps : List String) (rows : String → Int) (again : Bool),
      ps.foldl (fun t p => (pushTurn moved all t.1 p, t.2 || decide (Pushing moved all t.1 p)))
          (g.withRows rows, again) =
        Prod.map g.withRows id (ps.foldl (fun t p => (PushDown.turn g.blocks moved all t.1 p,
          t.2 || decide (PushDown.Pushes g.blocks moved all t.1 p))) (rows, again)) := by
    intro ps
    induction ps with
    | nil => exact fun _ _ => rfl
    | cons p ps ih =>
      intro rows again
      have hpushes : Pushing moved all (g.withRows rows) p ↔
          PushDown.Pushes g.blocks moved all rows p := by
        simp only [Pushing, PushDown.Pushes, overlaps_withRows]
      simp only [List.foldl_cons, pushTurn_withRows, hpushes]
      exact ih _ _
  exact hfold all rows false

theorem pushLoop_withRows (guard : Nat) : pushLoop moved all guard (g.withRows rows) =
    (g.withRows (PushDown.loop g.blocks moved all guard rows).1,
      (PushDown.loop g.blocks moved all guard rows).2) := by
  induction guard generalizing rows with
  | zero => rfl
  | succ guard ih =>
    simp only [pushLoop, PushDown.loop, pushPass_withRows]
    split_ifs
    · exact ih
    · rfl

/-- The cards that `resolve` goes through, the moved one first. -/
def allCards (g : Grid) (moved : String) : List String := moved :: g.others moved

/-- The guard of `resolve`. -/
def guard (g : Grid) (moved : String) : Nat := ((g.others moved).length + 1) * cols.toNat + 16

theorem resolveLoop_eq (g : Grid) (moved : String) : g.resolveLoop moved =
    (g.withRows (PushDown.loop g.blocks moved (g.allCards moved) (g.guard moved)
        fun id => (g.rects id).r).1,
      (PushDown.loop g.blocks moved (g.allCards moved) (g.guard moved)
        fun id => (g.rects id).r).2) :=
  pushLoop_withRows _

/-- The loop of `resolve` is never cut off: its last pass pushed nothing. -/
theorem resolveLoop_stops (g : Grid) (moved : String) : (g.resolveLoop moved).2 = false := by
  rw [resolveLoop_eq]
  refine PushDown.loop_stops rfl ?_ _
  have hcols : cols.toNat = 4 := rfl
  simp only [List.length_cons, guard, hcols]
  omega

/-- And so nothing overlaps after it. -/
theorem not_overlaps_resolveLoop (ha : a ∈ g.allCards moved) (hb : b ∈ g.allCards moved)
    (hne : a ≠ b) : ¬ ((g.resolveLoop moved).1 a).overlaps ((g.resolveLoop moved).1 b) := by
  have hstops := resolveLoop_stops g moved
  rw [resolveLoop_eq] at hstops ⊢
  rw [overlaps_withRows]
  exact PushDown.not_overlap_of_loop List.mem_cons_self hstops ha hb hne

/-- It moves cards down only, and the moved one not at all. -/
theorem resolveLoop_rect (g : Grid) (moved id : String) :
    (∃ r, (g.rects id).r ≤ r ∧ (g.resolveLoop moved).1 id = { g.rects id with r := r }) ∧
      (g.resolveLoop moved).1 moved = g.rects moved := by
  rw [resolveLoop_eq]
  obtain ⟨hle, hpinned⟩ := PushDown.le_loop (B := g.blocks) (m := moved) (g.guard moved)
    (fun id => (g.rects id).r) id
  refine ⟨⟨_, hle, rfl⟩, ?_⟩
  simp only [withRows, hpinned]

theorem inGrid_resolveLoop (g : Grid) (moved id : String) :
    ((g.resolveLoop moved).1 id).InGrid := by
  obtain ⟨⟨r, hle, hrect⟩, -⟩ := resolveLoop_rect g moved id
  have hrects := g.inGrid_rects id
  rw [hrect]
  exact { hrects with top := hrects.top.trans hle }

/-! ### What a card that is put somewhere leaves -/

theorem find?_resolve : (g.resolve moved).find? id = (g.find? id).map fun c =>
    if id ∈ g.others moved then c.setRect ((g.resolveLoop moved).1 id) else c :=
  find?_mapCards_of _ fun c hc => by rw [hc]

/-- After the loop, cards are where it put them. -/
theorem rectOf_resolve (h : (g.resolve moved).find? id = some c) (hoff : c.off = false) :
    id ∈ g.allCards moved ∧ c.rectOf = (g.resolveLoop moved).1 id := by
  rw [find?_resolve] at h
  obtain ⟨c₀, hfind, hc⟩ := Option.map_eq_some_iff.mp h
  by_cases hother : id ∈ g.others moved
  · rw [if_pos hother] at hc
    refine ⟨List.mem_cons_of_mem _ hother, ?_⟩
    rw [← hc, Card.rectOf_setRect, Rect.clamp_of_inGrid (inGrid_resolveLoop g moved id)]
  · -- a visible card that is none of the others is the moved one, which the loop leaves alone
    rw [if_neg hother] at hc
    subst hc
    have hid : id = moved := by
      by_contra hne
      exact hother (mem_others_iff.mpr ⟨hne, c₀, hfind, hoff⟩)
    subst hid
    refine ⟨List.mem_cons_self, ?_⟩
    rw [(resolveLoop_rect g id id).2, rects_of_find? hfind]

theorem place_of_none (h : g.find? id = none) (r : Rect) : g.place id r = g := by
  rw [place, h]

theorem place_of_some (h : g.find? id = some c) (r : Rect) :
    g.place id r = (g.setRect id r).resolve id := by
  rw [place, h]

/-- Where a card was put somewhere, the visible cards do not overlap. -/
theorem not_overlaps_place {ca cb : Card} (hid : g.find? id = some c)
    (ha : (g.place id r).find? a = some ca) (hb : (g.place id r).find? b = some cb)
    (hoffa : ca.off = false) (hoffb : cb.off = false) (hne : a ≠ b) :
    ¬ ca.rectOf.overlaps cb.rectOf := by
  rw [place_of_some hid] at ha hb
  obtain ⟨hmema, hrecta⟩ := rectOf_resolve ha hoffa
  obtain ⟨hmemb, hrectb⟩ := rectOf_resolve hb hoffb
  rw [hrecta, hrectb]
  exact not_overlaps_resolveLoop hmema hmemb hne

/-- And they are placed. -/
theorem isPlaced_place {ca : Card} (hid : g.find? id = some c)
    (ha : (g.place id r).find? a = some ca) (hoff : ca.off = false) : ca.isPlaced = true := by
  rw [place_of_some hid, find?_resolve] at ha
  obtain ⟨c₁, hfind, rfl⟩ := Option.map_eq_some_iff.mp ha
  by_cases hother : a ∈ (g.setRect id r).others id
  · rw [if_pos hother]
    exact Card.isPlaced_setRect _ _
  · rw [if_neg hother] at hoff ⊢
    have haid : a = id := by
      by_contra hne
      exact hother (mem_others_iff.mpr ⟨hne, c₁, hfind, hoff⟩)
    rw [find?_setRect] at hfind
    obtain ⟨c₀, -, rfl⟩ := Option.map_eq_some_iff.mp hfind
    rw [if_pos haid]
    exact Card.isPlaced_setRect _ _

theorem movesOnly_place (g : Grid) (id : String) (r : Rect) : MovesOnly g (g.place id r) id r := by
  cases hid : g.find? id with
  | none =>
    rw [place_of_none hid]
    exact {
      moved := fun c hc => absurd (hid.symm.trans hc) (by simp)
      others := fun a c _ hc => ⟨c, hc, rfl, c.rectOf.r, le_rfl, rfl⟩ }
  | some c₀ =>
    rw [place_of_some hid]
    refine ⟨fun c hc => ?_, fun a c hne hc => ?_⟩
    · -- the moved card is written once, before the loop
      have hnot : id ∉ (g.setRect id r).others id := fun h => (mem_others_iff.mp h).1 rfl
      refine ⟨c.setRect r, ?_, rfl, Card.rectOf_setRect c r⟩
      rw [find?_resolve, find?_setRect, hc, Option.map_some, Option.map_some, if_neg hnot,
        if_pos rfl]
    · have hset : (g.setRect id r).find? a = some c := by
        rw [find?_setRect, hc, Option.map_some, if_neg hne]
      by_cases hother : a ∈ (g.setRect id r).others id
      · obtain ⟨⟨r', hle, hrect⟩, -⟩ := resolveLoop_rect (g.setRect id r) id a
        rw [rects_of_find? hset] at hle hrect
        refine ⟨c.setRect ((g.setRect id r).resolveLoop id |>.1 a), ?_, rfl, r', hle, ?_⟩
        · rw [find?_resolve, hset, Option.map_some, if_pos hother]
        · rw [Card.rectOf_setRect, Rect.clamp_of_inGrid (inGrid_resolveLoop _ _ _), hrect]
      · -- a hidden card takes no part in the loop
        refine ⟨c, ?_, rfl, c.rectOf.r, le_rfl, rfl⟩
        rw [find?_resolve, hset, Option.map_some, if_neg hother]

end Grid

end CertGuard.Widgets
