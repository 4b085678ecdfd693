import CertGuard.Lib.TransitionRun
import CertGuard.Web.Flow

/-!
# Cards never overlap

Whatever a user does to the cards of a page, the visible ones stay within the columns and apart
from each other, and a card that is put somewhere is there afterwards.

## Main definitions

* `Start` — a page to start from
* `MovesRight` — what an operation that moves a card does to the others

## Main results

* `arranged_apply` — every operation keeps cards arranged
* `cards_never_overlap` — what holds throughout every run
-/

namespace CertGuard.Widgets

open Transition

/-- A page to start from: one whose visible cards are all placed, and apart; one where some are
not placed, once they are; or one that was loaded with a record of the masonry version. -/
inductive Start : Grid → Prop
  | layout (g : Grid) (hplaced : ∀ c ∈ g.visible, c.isPlaced = true) (h : PlacedApart g) : Start g
  | loaded (win : Window) (g : Grid) (h : PlacedApart g) : Start (g.placeUnplaced win)
  | migrated (win : Window) (page : Page) (order : Option (List String))
      (spans heights : String → Option Int) (hidden : List String) :
      Start (page.toGrid.apply win (some (.v1 order spans heights hidden)))

/-- Operations come one at a time, and none is refused. -/
def gridStep (g : Grid) (op : GridOp) : Option Grid := some (op.apply g)

/-- An operation that moves a card puts it where it is to go, leaves the others in their columns
and moves none of them up; and its loop ends because nothing overlaps any more. -/
def MovesRight (g : Grid) (op : GridOp) : Prop :=
  ∀ id r, op.target g = some (id, r) → MovesOnly g (op.apply g) id r ∧
    ((g.setRect id r).resolveLoop id).2 = false

variable {g : Grid} {op : GridOp} {id : String} {r : Rect}

/-- An operation that moves a card comes to `place`. -/
theorem apply_of_target (h : op.target g = some (id, r)) : op.apply g = g.place id r := by
  cases op with
  | place | resize | fit =>
    simp only [GridOp.apply]
    rw [h]
  | hide | unhide | tidy | reload => exact absurd h (by simp [GridOp.target])

theorem movesRight (g : Grid) (op : GridOp) : MovesRight g op := by
  intro id r htarget
  rw [apply_of_target htarget]
  exact ⟨Grid.movesOnly_place g id r, Grid.resolveLoop_stops _ _⟩

theorem arranged_place (h : Arranged g) (id : String) (r : Rect) : Arranged (g.place id r) := by
  cases hid : g.find? id with
  | none =>
    rw [Grid.place_of_none hid]
    exact h
  | some c =>
    refine Grid.arranged_iff.mpr ⟨fun a c ha => Grid.isPlaced_place hid ha.1 ha.2, ?_⟩
    exact fun a ca b cb ha hb => Grid.not_overlaps_place hid ha.1 hb.1 ha.2 hb.2

theorem arranged_start (h : Start g) : Arranged g := by
  cases h with
  | layout g hplaced h => exact Grid.arranged_of_placed h fun a c hc => hplaced c hc.mem.1
  | loaded win g h => exact Grid.arranged_placeUnplaced win h
  | migrated win page order spans heights hidden =>
    exact Grid.arranged_placeUnplaced win
      (Grid.placedApart_migrate win page order spans heights hidden _)

/-- Every operation keeps cards arranged. -/
theorem arranged_apply (h : Arranged g) (op : GridOp) : Arranged (op.apply g) := by
  cases op with
  | place id r => exact arranged_place h id r
  | resize id w height => exact arranged_place h id _
  | fit win id => exact arranged_place h id _
  | hide id => exact Grid.arranged_hide h id
  | unhide win id => exact Grid.arranged_unhide h win id
  | tidy => exact Grid.arranged_compact h
  | reload win page => exact Grid.arranged_reload h win page

/-- For any number of cards, every page to start from and every run of operations: in every
state the visible cards are placed within the columns and disjoint; and where an operation moves
a card, it is exactly where it was put, the others keep their columns, widths and heights and
none moves up, and the loop that pushes them ends because nothing overlaps. -/
theorem cards_never_overlap (hstart : Start g) (ops : List GridOp) :
    Always gridStep Arranged g ops ∧ Meets gridStep MovesRight g ops := by
  have hall : Meets gridStep (fun _ _ => True) g ops := fun _ _ _ _ _ => trivial
  refine ⟨always_of_meets (arranged_start hstart) (fun g op g' h _ hstep => ?_) hall,
    fun _ op g' _ _ => movesRight g' op⟩
  obtain rfl := Option.some.inj hstep
  exact arranged_apply h op

/-- A page with three cards. -/
def demoPage : Page where
  cards := [{ id := "soon", span := some 2 }, { id := "audit", span := some 4 },
    { id := "notes", span := some 1, off := true }]
  nodup := by decide
  unplaced := by decide

/-- A window in which cards take seven rows. -/
def demoWindow : Window where
  offsetHeight _ := 120
  fitRows := 40

/-- Cards are put on top of others, hidden and shown, and the page is loaded again. -/
def demoOps : List GridOp :=
  [.place "audit" ⟨-3, 2, 9, 1⟩, .resize "soon" (some 3) (some 12), .unhide demoWindow "notes",
    .hide "audit", .tidy, .unhide demoWindow "audit", .reload demoWindow demoPage]

theorem cards_never_overlap_demo :
    Always gridStep Arranged (demoPage.toGrid.apply demoWindow
      (some (.v1 none (fun _ => none) (fun _ => none) []))) demoOps ∧
    Meets gridStep MovesRight (demoPage.toGrid.apply demoWindow
      (some (.v1 none (fun _ => none) (fun _ => none) []))) demoOps :=
  cards_never_overlap (.migrated demoWindow demoPage none _ _ []) demoOps

end CertGuard.Widgets
