import CertGuard.Lib.Stacking
import CertGuard.Web.Flow

/-!
# Tidying up

Taking the cards in reading order and putting each below what is in its columns is stacking
boxes, upside down. The cards of a page that is tidy rest already, in the order in which they
would be taken again.

## Main definitions

* `Grid.placed` — the cards that tidying up takes
* `boxes` — cards as boxes

## Main results

* `Grid.compact_eq` — tidying up is stacking
* `Grid.find?_compact` — the cards of a tidy page
* `compact_tidies` — what tidying up does
-/

namespace CertGuard.Widgets

open Stacking

/-- Two rectangles have a column in common. -/
def Rect.SharesColumn (a b : Rect) : Prop := a.c < b.c + b.w ∧ b.c < a.c + a.w

instance (a b : Rect) : Decidable (a.SharesColumn b) := inferInstanceAs (Decidable (_ ∧ _))

/-- Rectangles that do not overlap and share a column are one above the other. -/
theorem Rect.apart_of_sharesColumn {a b : Rect} (h : ¬ a.overlaps b) (hshares : a.SharesColumn b) :
    a.r + a.h ≤ b.r ∨ b.r + b.h ≤ a.r := by
  by_contra hnot
  obtain ⟨habove, hbelow⟩ := not_or.mp hnot
  exact h ⟨hshares.1, hshares.2, by omega, by omega⟩

/-- The columns and heights of cards. -/
def boxes : Boxes Card Int where
  lanes c := Grid.columns c.colOf c.wOf
  size c := c.hOf
  size_pos c := c.inGrid_rectOf.pos

namespace Grid

/-- The cards that are taken: the visible ones that have a place. -/
def placed (g : Grid) : List Card := g.visible.filter Card.isPlaced

/-- The cards in the order in which they are taken, each with the row it gets. -/
def stacked (g : Grid) : List (Card × Int) :=
  boxes.stack (fun _ => 0) (g.placed.mergeSort readingOrder)

/-- Where a card is, with another row. -/
def atRow (c : Card) (row : Int) : Rect := { c.rectOf with r := row }

/-- The cards that are taken do not overlap in some places. -/
def Apart (g : Grid) (rects : String → Rect) : Prop :=
  ∀ a ∈ g.placed, ∀ b ∈ g.placed, a.id ≠ b.id → ¬ (rects a.id).overlaps (rects b.id)

variable {g g' : Grid} {a b c : Card} {id : String} {row : Int} {y : Card × Int}

theorem shares_iff : boxes.Shares a b ↔ a.rectOf.SharesColumn b.rectOf := by
  have ha := a.inGrid_rectOf.wide
  have hb := b.inGrid_rectOf.wide
  constructor
  · rintro ⟨x, hxa, hxb⟩
    have hxa' := mem_columns_iff.mp hxa
    have hxb' := mem_columns_iff.mp hxb
    exact ⟨hxa'.1.trans_lt hxb'.2, hxb'.1.trans_lt hxa'.2⟩
  · rintro ⟨h, h'⟩
    refine ⟨max a.rectOf.c b.rectOf.c, mem_columns_iff.mpr ?_, mem_columns_iff.mpr ?_⟩
    · constructor <;> simp only [Card.rectOf] at * <;> omega
    · constructor <;> simp only [Card.rectOf] at * <;> omega

/-! ### Tidying up is stacking -/

/-- A card is taken. -/
theorem compactCard_eq (g : Grid) (pile : Int → Int) (c : Card) : compactCard (g, pile) c =
    (g.setRect c.id (atRow c (boxes.rest pile c)), boxes.drop pile c) := by
  have hpile : (compactCard (g, pile) c).2 = boxes.drop pile c := by
    funext x
    exact if_congr mem_columns_iff.symm rfl rfl
  exact Prod.ext rfl hpile

theorem compact_eq (g : Grid) : g.compact = (g.stacked.map fun y =>
    (y.1.id, atRow y.1 y.2)).foldl (fun g p => g.setRect p.1 p.2) g := by
  have hfold : ∀ (cs : List Card) (g : Grid) (pile : Int → Int),
      (cs.foldl compactCard (g, pile)).1 = ((boxes.stack pile cs).map fun y =>
        (y.1.id, atRow y.1 y.2)).foldl (fun g p => g.setRect p.1 p.2) g := by
    intro cs
    induction cs with
    | nil => exact fun _ _ => rfl
    | cons c cs ih =>
      intro g pile
      rw [List.foldl_cons, compactCard_eq, ih]
      rfl
  exact hfold _ g _

theorem mem_stacked_fst (h : y ∈ g.stacked) : y.1 ∈ g.placed := by
  have hmem : y.1 ∈ g.stacked.map Prod.fst := List.mem_map_of_mem h
  rw [stacked, Boxes.map_fst_stack] at hmem
  exact List.mem_mergeSort.mp hmem

theorem exists_mem_stacked (h : c ∈ g.placed) : ∃ row, (c, row) ∈ g.stacked := by
  have hmem : c ∈ g.stacked.map Prod.fst := by
    rw [stacked, Boxes.map_fst_stack]
    exact List.mem_mergeSort.mpr h
  obtain ⟨y, hy, rfl⟩ := List.mem_map.mp hmem
  exact ⟨y.2, hy⟩

theorem nodup_placed (g : Grid) : ((g.placed.mergeSort readingOrder).map Card.id).Nodup := by
  have hsub : g.placed.Sublist g.cards := List.filter_sublist.trans List.filter_sublist
  exact ((List.mergeSort_perm _ _).map Card.id).nodup_iff.mpr
    (g.nodup.sublist (hsub.map Card.id))

theorem nodup_stacked (g : Grid) : (g.stacked.map fun y => y.1.id).Nodup := by
  have hids := g.nodup_placed
  rw [← Boxes.map_fst_stack (B := boxes) (fun _ => 0) (g.placed.mergeSort readingOrder),
    List.map_map] at hids
  exact hids

theorem mem_placed_iff : c ∈ g.placed ↔ g.Shows c.id c ∧ c.isPlaced = true := by
  rw [placed, List.mem_filter, mem_visible_iff]
  rfl

/-- A card of a tidy page. -/
theorem find?_compact (id : String) : g.compact.find? id = (g.find? id).map fun c =>
    match g.stacked.find? fun y => y.1.id = id with
    | none => c
    | some y => c.setRect (atRow y.1 y.2) := by
  have hnodup : ((g.stacked.map fun y => (y.1.id, atRow y.1 y.2)).map Prod.fst).Nodup := by
    rw [List.map_map]
    exact g.nodup_stacked
  rw [compact_eq, find?_foldl_setRect hnodup, List.find?_map]
  congr 1
  funext c
  cases h : g.stacked.find? fun y => y.1.id = id with
  | none => simp only [Function.comp_def, h, Option.map_none]
  | some y => simp only [Function.comp_def, h, Option.map_some]

/-- A card that is taken, on the tidy page. -/
theorem find?_compact_of_mem (h : y ∈ g.stacked) :
    g.compact.find? y.1.id = some (y.1.setRect (atRow y.1 y.2)) := by
  have hfind : g.find? y.1.id = some y.1 := (mem_placed_iff.mp (mem_stacked_fst h)).1.1
  have hsome : (g.stacked.find? fun z => z.1.id = y.1.id).isSome = true :=
    List.find?_isSome.mpr ⟨y, h, by simp⟩
  obtain ⟨z, hz⟩ := Option.isSome_iff_exists.mp hsome
  have hid : z.1.id = y.1.id := by simpa using List.find?_some hz
  obtain rfl := List.inj_on_of_nodup_map g.nodup_stacked (List.mem_of_find?_eq_some hz) h hid
  rw [find?_compact, hfind, hz, Option.map_some]

theorem inGrid_atRow (h : y ∈ g.stacked) : (atRow y.1 y.2).InGrid :=
  { y.1.inGrid_rectOf with top := Boxes.nonneg_of_mem_stack h }

/-- Where a card is on the tidy page. -/
theorem rects_compact (h : y ∈ g.stacked) : g.compact.rects y.1.id = atRow y.1 y.2 := by
  rw [rects_of_find? (find?_compact_of_mem h), Card.rectOf_setRect,
    Rect.clamp_of_inGrid (inGrid_atRow h)]

theorem rects_of_mem_placed (h : c ∈ g.placed) : g.rects c.id = c.rectOf :=
  rects_of_find? (mem_placed_iff.mp h).1.1

/-- The cards that would be taken on the tidy page. -/
theorem mem_placed_compact_iff : c ∈ g.compact.placed ↔
    ∃ y ∈ g.stacked, c = y.1.setRect (atRow y.1 y.2) := by
  constructor
  · intro h
    obtain ⟨⟨hfind, hoff⟩, hplaced⟩ := mem_placed_iff.mp h
    rw [find?_compact] at hfind
    obtain ⟨c₀, hc₀, hset⟩ := Option.map_eq_some_iff.mp hfind
    cases hlook : g.stacked.find? fun y => y.1.id = c.id with
    | none =>
      -- a card that was not taken is as it was, and so would have been taken
      rw [hlook] at hset
      obtain rfl : c₀ = c := hset
      obtain ⟨row, hrow⟩ := exists_mem_stacked (mem_placed_iff.mpr ⟨⟨hc₀, hoff⟩, hplaced⟩)
      exact (List.find?_eq_none.mp hlook _ hrow (by simp)).elim
    | some y =>
      have hy := List.mem_of_find?_eq_some hlook
      have hid : y.1.id = c.id := by simpa using List.find?_some hlook
      have hcompact := find?_compact_of_mem hy
      rw [hid, find?_compact, hc₀, hlook] at hcompact
      rw [hlook] at hset
      exact ⟨y, hy, hset.symm.trans (Option.some.inj hcompact)⟩
  · rintro ⟨y, hy, rfl⟩
    have hshows := (mem_placed_iff.mp (mem_stacked_fst hy)).1
    exact mem_placed_iff.mpr ⟨⟨find?_compact_of_mem hy, hshows.2⟩, Card.isPlaced_setRect _ _⟩

/-! ### The order of the cards -/

theorem pairwise_readingOrder (g : Grid) :
    (g.placed.mergeSort readingOrder).Pairwise fun a b => readingOrder a b = true := by
  refine List.pairwise_mergeSort (fun a b c hab hbc => ?_) (fun a b => ?_) _
  · simp only [readingOrder, Bool.or_eq_true, Bool.and_eq_true, decide_eq_true_eq] at *
    omega
  · simp only [readingOrder, Bool.or_eq_true, Bool.and_eq_true, decide_eq_true_eq]
    omega

/-- Cards that do not overlap are taken in an order that they are in already. -/
theorem inTurn_of_apart (h : g.Apart g.rects) : (g.placed.mergeSort readingOrder).Pairwise
    fun a b => boxes.Shares a b → a.rowOf + boxes.size a ≤ b.rowOf := by
  have hsorted := g.pairwise_readingOrder.imp (S := fun a b : Card => a.rowOf ≤ b.rowOf)
    fun {a b} hab => by
      simp only [readingOrder, Bool.or_eq_true, Bool.and_eq_true, decide_eq_true_eq] at hab
      omega
  have hne : (g.placed.mergeSort readingOrder).Pairwise fun a b => a.id ≠ b.id :=
    List.pairwise_map.mp g.nodup_placed
  refine Boxes.inTurn_of_sorted hsorted (hne.imp_of_mem fun {a b} ha hb hne hshares => ?_)
  have ha' := List.mem_mergeSort.mp ha
  have hb' := List.mem_mergeSort.mp hb
  have hover := h a ha' b hb' hne
  rw [rects_of_mem_placed ha', rects_of_mem_placed hb'] at hover
  exact Rect.apart_of_sharesColumn hover (shares_iff.mp hshares)

/-! ### The rows of a tidy page -/

/-- Two cards of a tidy page that share a column are one above the other. -/
theorem inTurn_or_inTurn {z : Card × Int} (hy : y ∈ g.stacked) (hz : z ∈ g.stacked)
    (hne : y.1.id ≠ z.1.id) (hshares : y.1.rectOf.SharesColumn z.1.rectOf) :
    y.2 + y.1.hOf ≤ z.2 ∨ z.2 + z.1.hOf ≤ y.2 := by
  have hne' : y ≠ z := fun heq => hne (by rw [heq])
  have hboxes := shares_iff.mpr hshares
  rcases rel_or_rel (Boxes.inTurn_stack _ _) hy hz hne' with h | h
  · exact .inl (h hboxes)
  · exact .inr (h hboxes.symm)

theorem apart_compact (g : Grid) : g.Apart g.compact.rects := by
  intro a ha b hb hne hover
  obtain ⟨ra, hya⟩ := exists_mem_stacked ha
  obtain ⟨rb, hyb⟩ := exists_mem_stacked hb
  rw [rects_compact hya, rects_compact hyb] at hover
  obtain ⟨hleft, hright, habove, hbelow⟩ := hover
  rcases inTurn_or_inTurn hya hyb hne ⟨hleft, hright⟩ with h | h
  · exact absurd hbelow (by simpa [atRow, Card.rectOf] using h)
  · exact absurd habove (by simpa [atRow, Card.rectOf] using h)

/-- A card of a tidy page rests on another or begins in the first row. -/
theorem rests_compact (h : a ∈ g.placed) : (g.compact.rects a.id).r = 0 ∨ ∃ b ∈ g.placed,
    (g.compact.rects b.id).SharesColumn (g.compact.rects a.id) ∧
      (g.compact.rects b.id).r + (g.compact.rects b.id).h = (g.compact.rects a.id).r := by
  obtain ⟨row, hy⟩ := exists_mem_stacked h
  rcases Boxes.rests_stack _ _ hy with hzero | ⟨z, hz, hshares, hon⟩
  · refine .inl ?_
    rw [rects_compact hy]
    exact hzero
  · refine .inr ⟨z.1, mem_stacked_fst hz, ?_⟩
    rw [rects_compact hy, rects_compact hz]
    exact ⟨shares_iff.mp hshares, hon⟩

/-- A card that overlapped none is put no lower than it was. -/
theorem row_compact_le (hapart : g.Apart g.rects) (h : y ∈ g.stacked) : y.2 ≤ y.1.rowOf :=
  Boxes.le_of_mem_stack (fun _ _ => le_max_left _ _) (inTurn_of_apart hapart)
    (fun _ _ _ _ => le_max_left _ _) h

/-- Cards that overlapped none stay above the ones of their columns that they were above. -/
theorem row_compact_lt (hapart : g.Apart g.rects) {z : Card × Int} (hy : y ∈ g.stacked)
    (hz : z ∈ g.stacked) (hshares : y.1.rectOf.SharesColumn z.1.rectOf)
    (hlt : y.1.rowOf < z.1.rowOf) : y.2 < z.2 := by
  have hne : y ≠ z := by
    rintro rfl
    omega
  have hpos := boxes.size_pos y.1
  have hpos' := boxes.size_pos z.1
  rcases rel_or_rel (Boxes.inTurn_both (inTurn_of_apart hapart)) hy hz hne with h | h
  · have hafter := (h (shares_iff.mpr hshares)).1
    omega
  · have hbefore := (h (shares_iff.mpr hshares).symm).2
    omega

theorem row_compact_lt_iff (hapart : g.Apart g.rects) {z : Card × Int} (hy : y ∈ g.stacked)
    (hz : z ∈ g.stacked) (hshares : y.1.rectOf.SharesColumn z.1.rectOf) :
    y.2 < z.2 ↔ y.1.rowOf < z.1.rowOf := by
  refine ⟨fun hlt => ?_, row_compact_lt hapart hy hz hshares⟩
  have hne : y.1.id ≠ z.1.id := by
    intro hid
    obtain rfl := List.inj_on_of_nodup_map g.nodup_stacked hy hz hid
    omega
  have hy' := mem_stacked_fst hy
  have hz' := mem_stacked_fst hz
  have hover := hapart _ hy' _ hz' hne
  rw [rects_of_mem_placed hy', rects_of_mem_placed hz'] at hover
  have hpos : 0 < y.1.rectOf.h := y.1.inGrid_rectOf.pos
  have hpos' : 0 < z.1.rectOf.h := z.1.inGrid_rectOf.pos
  rcases Rect.apart_of_sharesColumn hover hshares with h | h
  · have hrow : y.1.rectOf.r < z.1.rectOf.r := by omega
    exact hrow
  · -- they would have got past each other
    have hrow : z.1.rectOf.r < y.1.rectOf.r := by omega
    have hpast := row_compact_lt hapart hz hy ⟨hshares.2, hshares.1⟩ hrow
    omega

/-! ### Tidying up twice -/

/-- A card that was put somewhere and is put where it is stays as it is. -/
theorem setRect_rectOf_setRect (c : Card) (r : Rect) :
    (c.setRect r).setRect (c.setRect r).rectOf = c.setRect r := by
  rw [Card.rectOf_setRect]
  simp only [Card.setRect, Rect.clamp, Card.mk.injEq, Option.some.injEq, true_and, cols, minH]
  omega

/-- Cards with the same ids that are found alike are the same. -/
theorem ext_find? (hids : g.cards.map Card.id = g'.cards.map Card.id)
    (hfind : ∀ id, g.find? id = g'.find? id) : g = g' := by
  have hcards : g.cards = g'.cards := by
    have hlen : g.cards.length = g'.cards.length := by simpa using congrArg List.length hids
    refine List.ext_getElem hlen fun i hi hi' => ?_
    have hid : g.cards[i].id = g'.cards[i].id := by
      have hget := congrArg (fun l => l[i]?) hids
      simpa [hi, hi'] using hget
    have hfound := mem_cards_iff.mp (List.getElem_mem hi)
    rw [hfind, hid, mem_cards_iff.mp (List.getElem_mem hi')] at hfound
    exact (Option.some.inj hfound).symm
  cases g
  cases g'
  cases hcards
  rfl

theorem map_id_compact (g : Grid) : g.compact.cards.map Card.id = g.cards.map Card.id := by
  have hset : ∀ (g : Grid) (id : String) (r : Rect),
      (g.setRect id r).cards.map Card.id = g.cards.map Card.id := by
    intro g id r
    simp only [setRect, mapCards, List.map_map]
    refine List.map_congr_left fun c _ => ?_
    simp only [Function.comp_apply]
    split_ifs <;> rfl
  rw [compact_eq]
  generalize g.stacked.map (fun y => (y.1.id, atRow y.1 y.2)) = pos
  induction pos generalizing g with
  | nil => rfl
  | cons p pos ih => rw [List.foldl_cons, ih, hset]

/-- The cards of a tidy page would be taken in an order in which they rest. -/
theorem row_eq_of_mem_stacked_compact (h : y ∈ g.compact.stacked) : y.2 = y.1.rowOf := by
  have hapart : g.compact.Apart g.compact.rects := by
    intro a ha b hb hne
    obtain ⟨ya, hya, rfl⟩ := mem_placed_compact_iff.mp ha
    obtain ⟨yb, hyb, rfl⟩ := mem_placed_compact_iff.mp hb
    exact g.apart_compact ya.1 (mem_stacked_fst hya) yb.1 (mem_stacked_fst hyb) hne
  refine Boxes.stack_eq_of_rests Card.rowOf (fun _ _ => le_max_left _ _)
    (inTurn_of_apart hapart) (fun x hx => ?_) h
  obtain ⟨c, hc, rfl⟩ := List.mem_map.mp hx
  have hc' := List.mem_mergeSort.mp hc
  obtain ⟨y, hy, rfl⟩ := mem_placed_compact_iff.mp hc'
  have hrect := rects_of_mem_placed hc'
  rcases rests_compact (mem_stacked_fst hy) with hzero | ⟨b, hb, hshares, hon⟩
  · exact .inl ((congrArg Rect.r hrect).symm.trans hzero)
  · -- what it rests on is taken again as well
    obtain ⟨row, hz⟩ := exists_mem_stacked hb
    have hb' : b.setRect (atRow b row) ∈ g.compact.placed :=
      mem_placed_compact_iff.mpr ⟨_, hz, rfl⟩
    have hrectb := rects_of_mem_placed hb'
    refine .inr ⟨(b.setRect (atRow b row), _), List.mem_map_of_mem (List.mem_mergeSort.mpr hb'), ?_⟩
    have hid : (b.setRect (atRow b row)).id = b.id := rfl
    have hid' : (y.1.setRect (atRow y.1 y.2)).id = y.1.id := rfl
    rw [hid] at hrectb
    rw [hid'] at hrect
    rw [hrect, hrectb] at hshares hon
    exact ⟨shares_iff.mpr hshares, hon⟩

theorem compact_compact (g : Grid) : g.compact.compact = g.compact := by
  refine ext_find? (map_id_compact _) fun id => ?_
  rw [find?_compact]
  cases hlook : g.compact.stacked.find? fun y => y.1.id = id with
  | none => simp
  | some y =>
    have hy := List.mem_of_find?_eq_some hlook
    have hid : y.1.id = id := by simpa using List.find?_some hlook
    have hplaced := mem_stacked_fst hy
    have hfind : g.compact.find? id = some y.1 := hid ▸ (mem_placed_iff.mp hplaced).1.1
    have hrow : atRow y.1 y.2 = y.1.rectOf := by
      rw [row_eq_of_mem_stacked_compact hy]
      rfl
    obtain ⟨z, -, hz⟩ := mem_placed_compact_iff.mp hplaced
    simp only [hfind, Option.map_some, hrow, Option.some.injEq]
    rw [hz, setRect_rectOf_setRect]

end Grid

open Grid

/-- Tidying up leaves the cards apart, in their columns and with their sizes, and each of them
resting on another or in the first row. Where they were apart before, none goes down, and none
gets past another of its columns. And a tidy page stays as it is. -/
theorem compact_tidies (g : Grid) :
    g.Apart g.compact.rects ∧
    (∀ a ∈ g.placed, (g.compact.rects a.id).c = (g.rects a.id).c ∧
      (g.compact.rects a.id).w = (g.rects a.id).w ∧
      (g.compact.rects a.id).h = (g.rects a.id).h) ∧
    (∀ a ∈ g.placed, (g.compact.rects a.id).r = 0 ∨ ∃ b ∈ g.placed,
      (g.compact.rects b.id).SharesColumn (g.compact.rects a.id) ∧
        (g.compact.rects b.id).r + (g.compact.rects b.id).h = (g.compact.rects a.id).r) ∧
    (g.Apart g.rects →
      (∀ a ∈ g.placed, (g.compact.rects a.id).r ≤ (g.rects a.id).r) ∧
      ∀ a ∈ g.placed, ∀ b ∈ g.placed, (g.rects a.id).SharesColumn (g.rects b.id) →
        ((g.compact.rects a.id).r < (g.compact.rects b.id).r ↔
          (g.rects a.id).r < (g.rects b.id).r)) ∧
    g.compact.compact = g.compact := by
  refine ⟨g.apart_compact, fun a ha => ?_, fun a ha => rests_compact ha, fun hapart => ?_,
    g.compact_compact⟩
  · obtain ⟨row, hy⟩ := exists_mem_stacked ha
    rw [rects_compact hy, rects_of_mem_placed ha]
    exact ⟨rfl, rfl, rfl⟩
  · have hrow : ∀ y ∈ g.stacked, (g.compact.rects y.1.id).r = y.2 := fun y hy => by
      rw [rects_compact hy]
      rfl
    refine ⟨fun a ha => ?_, fun a ha b hb hshares => ?_⟩
    · obtain ⟨row, hy⟩ := exists_mem_stacked ha
      rw [hrow _ hy, rects_of_mem_placed ha]
      exact row_compact_le hapart hy
    · obtain ⟨ra, hya⟩ := exists_mem_stacked ha
      obtain ⟨rb, hyb⟩ := exists_mem_stacked hb
      rw [hrow _ hya, hrow _ hyb, rects_of_mem_placed ha, rects_of_mem_placed hb]
      rw [rects_of_mem_placed ha, rects_of_mem_placed hb] at hshares
      exact row_compact_lt_iff hapart hya hyb hshares

end CertGuard.Widgets
