import Mathlib.Data.List.Nodup
import Mathlib.Data.List.Sort

/-!
# The widget grid

The cards of the dashboard, each of which owns a rectangle: a column, a row, a width in columns
and a height in row units. The numbers are the integers that the grid keeps in the attributes of
its elements.

## Main definitions

* `Rect`, `Card`, `Grid` — rectangles, cards, and the cards of a page
* `Grid.resolve`, `Grid.place` — putting a card somewhere and pushing others out of its way
* `Grid.placeIntoFreeSpace`, `Grid.compact` — showing a card, and tidying up
* `Grid.save`, `Grid.apply`, `Grid.migrate`, `Grid.placeUnplaced` — what is kept in the browser
* `GridOp` — what a user can do
-/

namespace CertGuard.Widgets

/-! ### Rectangles and cards -/

/-- The number of columns. -/
def cols : Int := 4

/-- `MIN_H`, in row units. -/
def minH : Int := 5

/-- `ROW` and `GAP`, in pixels. -/
def row : Int := 20

@[inherit_doc row]
def gap : Int := 20

/-- A rectangle: column, row, width and height. -/
structure Rect where
  c : Int
  r : Int
  w : Int
  h : Int
  deriving DecidableEq, Repr

namespace Rect

def overlaps (a b : Rect) : Prop :=
  a.c < b.c + b.w ∧ b.c < a.c + a.w ∧ a.r < b.r + b.h ∧ b.r < a.r + a.h

instance (a b : Rect) : Decidable (a.overlaps b) := inferInstanceAs (Decidable (_ ∧ _))

/-- What `setRect` makes of a rectangle. -/
def clamp (r : Rect) : Rect where
  c := max 0 (min (cols - max 1 (min cols r.w)) r.c)
  r := max 0 r.r
  w := max 1 (min cols r.w)
  h := max minH r.h

end Rect

/-- A card: whether it is hidden (`widget-off`), and its attributes, where it has them. -/
structure Card where
  id : String
  off : Bool := false
  span : Option Int := none
  col : Option Int := none
  row : Option Int := none
  w : Option Int := none
  h : Option Int := none
  deriving DecidableEq, Repr

namespace Card

/-- `spanOf`; a span of zero counts as none. -/
def spanOf (c : Card) : Int := max 1 (min cols (if c.span.getD 0 = 0 then 4 else c.span.getD 0))

def wOf (c : Card) : Int := max 1 (min cols (c.w.getD c.spanOf))

def colOf (c : Card) : Int := max 0 (min (cols - c.wOf) (c.col.getD 0))

def rowOf (c : Card) : Int := max 0 (c.row.getD 0)

def hOf (c : Card) : Int := max minH (c.h.getD 12)

def rectOf (c : Card) : Rect := ⟨c.colOf, c.rowOf, c.wOf, c.hOf⟩

def isPlaced (c : Card) : Bool := c.col.isSome && c.row.isSome

/-- Puts a card at a rectangle, brought into the grid. -/
def setRect (c : Card) (r : Rect) : Card :=
  let w := max 1 (min cols r.w)
  let col := max 0 (min (cols - w) r.c)
  { c with col := some col, row := some (max 0 r.r), w := some w, h := some (max minH r.h)
           span := some w }

end Card

/-! ### Pages -/

/-- The cards of a page, in the order of its elements; their ids differ. -/
structure Grid where
  cards : List Card
  nodup : (cards.map Card.id).Nodup
  deriving DecidableEq, Repr

namespace Grid

/-- The card with an id. -/
def find? (g : Grid) (id : String) : Option Card := g.cards.find? fun c => c.id = id

/-- The cards that are not hidden. -/
def visible (g : Grid) : List Card := g.cards.filter fun c => !c.off

/-- Changes the attributes of cards, but not their ids. -/
def mapCards (g : Grid) (f : Card → Card) (hf : ∀ c, (f c).id = c.id) : Grid where
  cards := g.cards.map f
  nodup := by
    have hids : (g.cards.map f).map Card.id = g.cards.map Card.id := by
      rw [List.map_map]
      exact List.map_congr_left fun c _ => hf c
    rw [hids]
    exact g.nodup

/-- `setRect`, of the card with an id. -/
def setRect (g : Grid) (id : String) (r : Rect) : Grid :=
  g.mapCards (fun c => if c.id = id then c.setRect r else c) fun c => by split_ifs <;> rfl

/-- Hides the card with an id, or shows it. -/
def setOff (g : Grid) (id : String) (off : Bool) : Grid :=
  g.mapCards (fun c => if c.id = id then { c with off := off } else c) fun c => by split_ifs <;> rfl

/-- Where the card with an id is. -/
def rects (g : Grid) (id : String) : Rect := ((g.find? id).getD { id := id }).rectOf

end Grid

/-! ### Pushing cards down -/

/-- The turn of a card in `resolve`: it pushes those it overlaps, but never the moved one. -/
def pushTurn (moved : String) (all : List String) (rects : String → Rect) (p : String) :
    String → Rect := fun q =>
  if q ∈ all ∧ q ≠ p ∧ q ≠ moved ∧ (rects p).overlaps (rects q) then
    { rects q with r := (rects p).r + (rects p).h }
  else rects q

/-- It pushes something. -/
def Pushing (moved : String) (all : List String) (rects : String → Rect) (p : String) : Prop :=
  ∃ q ∈ all, q ≠ p ∧ q ≠ moved ∧ (rects p).overlaps (rects q)

instance (moved : String) (all : List String) (rects : String → Rect) (p : String) :
    Decidable (Pushing moved all rects p) := inferInstanceAs (Decidable (∃ q ∈ all, _))

/-- The loop body of `resolve`: where the cards are, and `again`. -/
def pushPass (moved : String) (all : List String) (rects : String → Rect) :
    (String → Rect) × Bool :=
  all.foldl (fun t p => (pushTurn moved all t.1 p, t.2 || decide (Pushing moved all t.1 p)))
    (rects, false)

/-- The loop of `resolve`; `again` is true at the end if it was cut off by its guard. -/
def pushLoop (moved : String) (all : List String) : Nat → (String → Rect) → (String → Rect) × Bool
  | 0, rects => (rects, true)
  | guard + 1, rects =>
    let t := pushPass moved all rects
    if t.2 then pushLoop moved all guard t.1 else t

namespace Grid

/-- The cards besides the moved one. -/
def others (g : Grid) (moved : String) : List String :=
  (g.visible.map Card.id).filter fun id => id ≠ moved

/-- The loop of `resolve`, for the cards of a page. -/
def resolveLoop (g : Grid) (moved : String) : (String → Rect) × Bool :=
  pushLoop moved (moved :: g.others moved) (((g.others moved).length + 1) * cols.toNat + 16) g.rects

/-- Pushes down what a moved card overlaps, and what that overlaps then. -/
def resolve (g : Grid) (moved : String) : Grid :=
  g.mapCards (fun c =>
    if c.id ∈ g.others moved then c.setRect ((g.resolveLoop moved).1 c.id) else c)
    fun c => by split_ifs <;> rfl

/-- Moves a card, and makes room for it. -/
def place (g : Grid) (id : String) (target : Rect) : Grid :=
  match g.find? id with
  | none => g
  | some _ => (g.setRect id target).resolve id

end Grid

/-- What the edges of a card are dragged to: a width and a height, where they are dragged. -/
def resizeTarget (start : Rect) (w h : Option Int) : Rect where
  c := start.c
  r := start.r
  w := match w with
    | none => start.w
    | some w => max 1 (min (cols - start.c) w)
  h := match h with
    | none => start.h
    | some h => max minH h

/-! ### Free space -/

/-- What is measured in the window: the height of a card's content in pixels, and the rows that
fit into 78% of the window. -/
structure Window where
  offsetHeight : String → Int
  fitRows : Int

namespace Window

def maxAutoRows (win : Window) : Int := max minH win.fitRows

/-- The rows a card's content takes; if capped, no more than fit into the window. -/
def contentRows (win : Window) (id : String) (capped : Bool) : Int :=
  let want := -(-(win.offsetHeight id + gap) / row)
  max minH (if capped then min win.maxAutoRows want else want)

end Window

/-- The row below all cards of a list that are placed. -/
def bottomOf (cs : List Card) : Int :=
  (cs.filter Card.isPlaced).foldl (fun m c => max m (c.rowOf + c.hOf)) 0

namespace Grid

/-- A card without a place, or with one that is taken, goes below the others. -/
def placeIntoFreeSpace (win : Window) (g : Grid) (id : String) : Grid :=
  match g.find? id with
  | none => g
  | some card =>
    let others := g.visible.filter fun x => x.id ≠ id
    if card.isPlaced = false ∨
        ∃ x ∈ others, x.isPlaced = true ∧ card.rectOf.overlaps x.rectOf then
      g.setRect id
        ⟨0, bottomOf others, max 1 (min cols card.spanOf), win.contentRows id true⟩
    else g

/-- The loop body of `placeUnplaced`. -/
def placeNext (win : Window) (s : Grid × Int) (id : String) : Grid × Int :=
  match s.1.find? id with
  | none => s
  | some c =>
    if c.isPlaced then s
    else
      let r : Rect := ⟨0, s.2, max 1 (min cols c.spanOf), win.contentRows id true⟩
      (s.1.setRect id r, s.2 + (c.setRect r).hOf)

def placeUnplaced (win : Window) (g : Grid) : Grid :=
  ((g.visible.map Card.id).foldl (placeNext win) (g, bottomOf g.visible)).1

/-! ### Flowing cards into columns -/

/-- The columns from `c` on, as many as `w`. -/
def columns (c w : Int) : List Int := (List.range w.toNat).map fun i : Nat => c + (i : Int)

/-- A card is put at a rectangle, and its columns are taken down to its end. -/
def flowInto (s : Grid × (Int → Int)) (id : String) (r : Rect) : Grid × (Int → Int) :=
  (s.1.setRect id r, fun x => if r.c ≤ x ∧ x < r.c + r.w then r.r + r.h else s.2 x)

/-- The loop body of `compact`. -/
def compactCard (s : Grid × (Int → Int)) (c : Card) : Grid × (Int → Int) :=
  let r := c.rectOf
  let top := (columns r.c r.w).foldl (fun top x => max top (s.2 x)) 0
  flowInto s c.id ⟨r.c, top, r.w, r.h⟩

/-- The order in which `compact` looks at cards. -/
def readingOrder (a b : Card) : Bool :=
  a.rowOf < b.rowOf || a.rowOf = b.rowOf && a.colOf ≤ b.colOf

/-- Moves every card up as far as it goes, in reading order. -/
def compact (g : Grid) : Grid :=
  (((g.visible.filter Card.isPlaced).mergeSort readingOrder).foldl compactCard (g, fun _ => 0)).1

/-- A column that `migrate` looks at for a width, with the row there, if that is higher than the
best so far; the row is `none` before the first column. -/
def betterColumn (bottoms : Int → Int) (w : Int) (best : Int × Option Int) (c : Int) :
    Int × Option Int :=
  let top := (columns c w).foldl (fun top x => max top (bottoms x)) (bottoms c)
  if best.2.all fun bestTop => top < bestTop then (c, some top) else best

/-- The column it chooses. -/
def bestColumn (bottoms : Int → Int) (w : Int) : Int × Option Int :=
  (columns 0 (cols - w + 1)).foldl (betterColumn bottoms w) (0, none)

/-- The loop body of `migrate`. -/
def migrateCard (win : Window) (spans heights : String → Option Int) (s : Grid × (Int → Int))
    (id : String) : Grid × (Int → Int) :=
  match s.1.find? id with
  | none => s
  | some el =>
    let span := (spans id).getD 0
    let w := max 1 (min cols (if span = 0 then el.spanOf else span))
    let px := (heights id).getD 0
    let h := if px = 0 then win.contentRows id true else max minH (-(-(px + gap) / row))
    let best := bestColumn s.2 w
    flowInto s id ⟨best.1, best.2.getD 0, w, h⟩

/-- `migrate`, of a record with an order, or else in the order of the page. -/
def migrate (win : Window) (g : Grid) (order : Option (List String))
    (spans heights : String → Option Int) : Grid :=
  ((order.getD (g.cards.map Card.id)).foldl (migrateCard win spans heights) (g, fun _ => 0)).1

end Grid

/-! ### What is kept in the browser -/

/-- A record: the rectangles of all cards, or what the masonry version saved. -/
inductive Saved
  | v2 (pos : List (String × Rect)) (hidden : List String)
  | v1 (order : Option (List String)) (spans heights : String → Option Int)
      (hidden : List String)

namespace Grid

def save (g : Grid) : Saved :=
  .v2 (g.cards.map fun c => (c.id, c.rectOf)) ((g.cards.filter Card.off).map Card.id)

/-- Hides and shows the cards of a record. -/
def toggle (g : Grid) (hidden known : List String) : Grid :=
  g.mapCards (fun c =>
    if c.id ∈ hidden then { c with off := true }
    else if c.id ∈ known then { c with off := false }
    else c) fun c => by split_ifs <;> rfl

/-- `apply`; the record is the one that was saved, or the shipped default. -/
def apply (win : Window) (g : Grid) (data : Option Saved) : Grid :=
  placeUnplaced win <|
    match data with
    | none => g
    | some (.v2 pos hidden) =>
      (pos.foldl (fun g p => g.setRect p.1 p.2) g).toggle hidden (pos.map Prod.fst)
    | some (.v1 order spans heights hidden) =>
      (g.migrate win order spans heights).toggle hidden (order.getD [])

end Grid

/-- A page as it is loaded, where no card is placed yet. -/
structure Page extends Grid where
  unplaced : ∀ c ∈ cards, c.isPlaced = false

/-! ### What a user can do -/

/-- An operation. The edges of a card may be dragged to a width, a height or both; `fit` is a
double click; `reload` saves the arrangement and loads a page, which may have other cards. -/
inductive GridOp
  | place (id : String) (target : Rect)
  | resize (id : String) (w h : Option Int)
  | fit (win : Window) (id : String)
  | hide (id : String)
  | unhide (win : Window) (id : String)
  | tidy
  | reload (win : Window) (page : Page)

namespace GridOp

/-- The card that an operation moves, and where to. -/
def target (g : Grid) : GridOp → Option (String × Rect)
  | place id r => some (id, r)
  | resize id w h => some (id, resizeTarget (g.rects id) w h)
  | fit win id => some (id, { g.rects id with h := win.contentRows id false })
  | _ => none

/-- The page after an operation. -/
def apply (g : Grid) (op : GridOp) : Grid :=
  match op with
  | hide id => g.setOff id true
  | unhide win id => (g.setOff id false).placeIntoFreeSpace win id
  | tidy => g.compact
  | reload win page => page.toGrid.apply win (some g.save)
  | op =>
    match op.target g with
    | none => g
    | some (id, r) => g.place id r

end GridOp

end CertGuard.Widgets
