import Mathlib.Algebra.Order.Group.Unbundled.Int
import Mathlib.Data.List.Pairwise
import Mathlib.Order.Lattice

/-!
# Boxes that are stacked

Boxes take some lanes each. They are dropped one after the other, and each comes to rest on what
has piled up in its lanes, or on the floor. Rows are counted from the floor.

Of all the ways to put the boxes so that each ends before every later box of its lanes begins,
this is the one in which every box is lowest, and it is the only one in which every box rests on
another or on the floor.

## Main definitions

* `Stacking.Boxes` — the lanes and the sizes of boxes
* `Boxes.rest`, `Boxes.drop`, `Boxes.stack` — dropping boxes
* `Boxes.InTurn` — every box ends before the later ones of its lanes begin
* `Boxes.Rests` — every box rests on another or on the floor

## Main results

* `Boxes.inTurn_stack`, `Boxes.rests_stack` — what dropping boxes comes to
* `Boxes.le_of_mem_stack` — no box can be put lower
* `Boxes.stack_eq_of_rests` — and nothing else rests
* `Boxes.inTurn_of_sorted` — boxes that are apart, taken from the floor up
-/

namespace Stacking

/-- The lanes that boxes take, and their sizes. -/
structure Boxes (β κ : Type*) where
  lanes : β → List κ
  size : β → Int
  size_pos : ∀ b, 0 < size b

/-- In a list whose elements are related in order, two of them are related one way or the
other. -/
theorem rel_or_rel {α : Type*} {R : α → α → Prop} {l : List α} {u v : α} (h : l.Pairwise R)
    (hu : u ∈ l) (hv : v ∈ l) (hne : u ≠ v) : R u v ∨ R v u := by
  induction h with
  | nil => exact absurd hu List.not_mem_nil
  | cons hhead _ ih =>
    rcases List.mem_cons.mp hu with rfl | hu'
    · exact .inl (hhead v ((List.mem_cons.mp hv).resolve_left (Ne.symm hne)))
    · rcases List.mem_cons.mp hv with rfl | hv'
      · exact .inr (hhead u hu')
      · exact ih hu' hv'

namespace Boxes

variable {β κ : Type*} (B : Boxes β κ)

/-- Two boxes have a lane in common. -/
def Shares (a b : β) : Prop := ∃ x ∈ B.lanes a, x ∈ B.lanes b

/-- Where a box comes to rest on what has piled up. -/
def rest (pile : κ → Int) (b : β) : Int := (B.lanes b).foldl (fun top x => max top (pile x)) 0

/-- What has piled up once a box has come to rest. -/
def drop [DecidableEq κ] (pile : κ → Int) (b : β) : κ → Int := fun x =>
  if x ∈ B.lanes b then B.rest pile b + B.size b else pile x

/-- The boxes, each with the row where it comes to rest. -/
def stack [DecidableEq κ] (pile : κ → Int) : List β → List (β × Int)
  | [] => []
  | b :: bs => (b, B.rest pile b) :: stack (B.drop pile b) bs

/-- Every box ends before the later boxes of its lanes begin. -/
def InTurn (rows : List (β × Int)) : Prop :=
  rows.Pairwise fun a b => B.Shares a.1 b.1 → a.2 + B.size a.1 ≤ b.2

/-- Every box rests on another of its lanes or on the floor. -/
def Rests (rows : List (β × Int)) : Prop :=
  ∀ b ∈ rows, b.2 = 0 ∨ ∃ a ∈ rows, B.Shares a.1 b.1 ∧ a.2 + B.size a.1 = b.2

variable {B} {pile : κ → Int} {a b : β} {bs : List β} {x : κ} {m : Int} {y : β × Int}

theorem Shares.symm (h : B.Shares a b) : B.Shares b a :=
  h.imp fun _ hx => ⟨hx.2, hx.1⟩

variable {row : β → Int}

/-- Boxes that are apart, taken from the floor up. -/
theorem inTurn_of_sorted (hsorted : bs.Pairwise fun a b => row a ≤ row b)
    (hapart : bs.Pairwise fun a b => B.Shares a b →
      row a + B.size a ≤ row b ∨ row b + B.size b ≤ row a) :
    bs.Pairwise fun a b => B.Shares a b → row a + B.size a ≤ row b := by
  refine (hsorted.and hapart).imp fun {a b} hab hshares => ?_
  obtain ⟨hle, hab⟩ := hab
  have hpos := B.size_pos b
  rcases hab hshares with h | h <;> omega

/-! ### One box -/

/-- A box comes to rest no higher than it has to. -/
theorem rest_le_iff : B.rest pile b ≤ m ↔ 0 ≤ m ∧ ∀ x ∈ B.lanes b, pile x ≤ m := by
  have hfold : ∀ (l : List κ) (m₀ : Int),
      l.foldl (fun top x => max top (pile x)) m₀ ≤ m ↔ m₀ ≤ m ∧ ∀ x ∈ l, pile x ≤ m := by
    intro l
    induction l with
    | nil => simp
    | cons x l ih =>
      intro m₀
      rw [List.foldl_cons, ih, max_le_iff, List.forall_mem_cons, and_assoc]
  exact hfold _ 0

theorem rest_nonneg : 0 ≤ B.rest pile b := (rest_le_iff.mp le_rfl).1

theorem le_rest (hx : x ∈ B.lanes b) : pile x ≤ B.rest pile b := (rest_le_iff.mp le_rfl).2 x hx

/-- A box comes to rest on the floor or on what has piled up in one of its lanes. -/
theorem rest_cases : B.rest pile b = 0 ∨ ∃ x ∈ B.lanes b, pile x = B.rest pile b := by
  by_contra hnot
  obtain ⟨hzero, hlanes⟩ := not_or.mp hnot
  have hpos : 0 < B.rest pile b := lt_of_le_of_ne rest_nonneg (Ne.symm hzero)
  -- it would fit one row lower
  have hlower : B.rest pile b ≤ B.rest pile b - 1 := by
    refine rest_le_iff.mpr ⟨by omega, fun x hx => ?_⟩
    have hle : pile x ≤ B.rest pile b := le_rest hx
    have hne : pile x ≠ B.rest pile b := fun heq => hlanes ⟨x, hx, heq⟩
    omega
  omega

variable [DecidableEq κ]

theorem drop_of_mem (hx : x ∈ B.lanes b) : B.drop pile b x = B.rest pile b + B.size b := if_pos hx

/-- No pile gets lower. -/
theorem le_drop : pile x ≤ B.drop pile b x := by
  unfold drop
  split_ifs with hx
  · have hrest : pile x ≤ B.rest pile b := le_rest hx
    have hpos := B.size_pos b
    omega
  · exact le_rfl

/-! ### All of them -/

@[simp] theorem map_fst_stack (pile : κ → Int) (bs : List β) :
    (B.stack pile bs).map Prod.fst = bs := by
  induction bs generalizing pile with
  | nil => rfl
  | cons b bs ih => rw [stack, List.map_cons, ih]

theorem nonneg_of_mem_stack (hy : y ∈ B.stack pile bs) : 0 ≤ y.2 := by
  induction bs generalizing pile with
  | nil => exact absurd hy List.not_mem_nil
  | cons b bs ih =>
    rcases List.mem_cons.mp hy with rfl | hy
    · exact rest_nonneg
    · exact ih hy

/-- Every box comes to rest on top of what had piled up before. -/
theorem pile_le_of_mem_stack (hy : y ∈ B.stack pile bs) (hx : x ∈ B.lanes y.1) : pile x ≤ y.2 := by
  induction bs generalizing pile with
  | nil => exact absurd hy List.not_mem_nil
  | cons b bs ih =>
    rcases List.mem_cons.mp hy with rfl | hy
    · exact le_rest hx
    · exact le_drop.trans (ih hy)

theorem inTurn_stack (pile : κ → Int) (bs : List β) : B.InTurn (B.stack pile bs) := by
  induction bs generalizing pile with
  | nil => exact List.Pairwise.nil
  | cons b bs ih =>
    refine List.pairwise_cons.mpr ⟨fun y hy hshares => ?_, ih (B.drop pile b)⟩
    obtain ⟨x, hx, hx'⟩ := hshares
    have hpile := pile_le_of_mem_stack hy hx'
    rwa [drop_of_mem hx] at hpile

/-- Every box rests on the floor, on what had piled up before, or on another box. -/
theorem rests_on_of_mem_stack (hy : y ∈ B.stack pile bs) :
    y.2 = 0 ∨ (∃ x ∈ B.lanes y.1, pile x = y.2) ∨
      ∃ z ∈ B.stack pile bs, B.Shares z.1 y.1 ∧ z.2 + B.size z.1 = y.2 := by
  induction bs generalizing pile with
  | nil => exact absurd hy List.not_mem_nil
  | cons b bs ih =>
    rcases List.mem_cons.mp hy with rfl | hy
    · exact rest_cases.imp_right .inl
    · rcases ih hy with hzero | ⟨x, hx, hpile⟩ | ⟨z, hz, hz'⟩
      · exact .inl hzero
      · -- what had piled up is the first box, or was there before it
        by_cases hb : x ∈ B.lanes b
        · rw [drop_of_mem hb] at hpile
          exact .inr (.inr ⟨_, List.mem_cons_self, ⟨x, hb, hx⟩, hpile⟩)
        · rw [drop, if_neg hb] at hpile
          exact .inr (.inl ⟨x, hx, hpile⟩)
      · exact .inr (.inr ⟨z, List.mem_cons_of_mem _ hz, hz'⟩)

theorem rests_stack (bs : List β) : B.Rests (B.stack (fun _ => 0) bs) := by
  intro y hy
  rcases rests_on_of_mem_stack hy with hzero | ⟨x, -, hpile⟩ | hz
  · exact .inl hzero
  · exact .inl hpile.symm
  · exact .inr hz

/-! ### Other ways to put them -/

/-- No box can be put lower, as long as each ends before the later ones of its lanes begin. -/
theorem le_of_mem_stack (hnonneg : ∀ b ∈ bs, 0 ≤ row b)
    (hturn : bs.Pairwise fun a b => B.Shares a b → row a + B.size a ≤ row b)
    (hpile : ∀ b ∈ bs, ∀ x ∈ B.lanes b, pile x ≤ row b) (hy : y ∈ B.stack pile bs) :
    y.2 ≤ row y.1 := by
  induction bs generalizing pile with
  | nil => exact absurd hy List.not_mem_nil
  | cons b bs ih =>
    obtain ⟨hb, hbs⟩ := List.pairwise_cons.mp hturn
    obtain ⟨hrow, hrows⟩ := List.forall_mem_cons.mp hnonneg
    have hrest : B.rest pile b ≤ row b := rest_le_iff.mpr ⟨hrow, hpile b List.mem_cons_self⟩
    rcases List.mem_cons.mp hy with rfl | hy
    · exact hrest
    · refine ih hrows hbs (fun b' hb' x hx => ?_) hy
      by_cases hx' : x ∈ B.lanes b
      · rw [drop_of_mem hx']
        have hafter := hb b' hb' ⟨x, hx', hx⟩
        omega
      · rw [drop, if_neg hx']
        exact hpile b' (List.mem_cons_of_mem _ hb') x hx

/-- Two boxes with a common lane are in the same order in both. -/
theorem inTurn_both (hturn : bs.Pairwise fun a b => B.Shares a b → row a + B.size a ≤ row b) :
    (B.stack pile bs).Pairwise fun a b => B.Shares a.1 b.1 →
      a.2 + B.size a.1 ≤ b.2 ∧ row a.1 + B.size a.1 ≤ row b.1 := by
  rw [← map_fst_stack (B := B) pile bs, List.pairwise_map] at hturn
  exact ((inTurn_stack pile bs).and hturn).imp fun h hshares => ⟨h.1 hshares, h.2 hshares⟩

/-- If every box rests already, none moves. -/
theorem stack_eq_of_rests (row : β → Int) (hnonneg : ∀ b ∈ bs, 0 ≤ row b)
    (hturn : bs.Pairwise fun a b => B.Shares a b → row a + B.size a ≤ row b)
    (hrests : B.Rests (bs.map fun b => (b, row b))) (hy : y ∈ B.stack (fun _ => 0) bs) :
    y.2 = row y.1 := by
  have hleast : ∀ z ∈ B.stack (fun _ => 0) bs, z.2 ≤ row z.1 := fun z hz =>
    le_of_mem_stack hnonneg hturn (fun b hb _ _ => hnonneg b hb) hz
  have hmem : ∀ z ∈ B.stack (fun _ => 0) bs, z.1 ∈ bs := fun z hz =>
    map_fst_stack (B := B) (fun _ => 0) bs ▸ List.mem_map_of_mem hz
  refine le_antisymm (hleast y hy) ?_
  -- from the floor up: a box rests on one that is below it
  induction hn : (row y.1).toNat using Nat.strong_induction_on generalizing y with
  | _ n ih =>
    rcases hrests (y.1, row y.1) (List.mem_map_of_mem (hmem y hy)) with
      hzero | ⟨w, hw, hshares, hon⟩
    · exact hzero.le.trans (nonneg_of_mem_stack hy)
    · obtain ⟨a, ha, rfl⟩ := List.mem_map.mp hw
      rw [← map_fst_stack (B := B) (fun _ => 0) bs] at ha
      obtain ⟨z, hz, rfl⟩ := List.mem_map.mp ha
      simp only at hon hshares
      have hpos := B.size_pos z.1
      have hpos' := B.size_pos y.1
      have hfloor := hnonneg z.1 (hmem z hz)
      have hlower : row z.1 ≤ z.2 := ih (row z.1).toNat (by omega) hz rfl
      have hne : z ≠ y := by
        rintro rfl
        omega
      rcases rel_or_rel (inTurn_both hturn) hz hy hne with hbefore | hafter
      · have hbelow := (hbefore hshares).1
        omega
      · have habove := (hafter hshares.symm).2
        omega

end Boxes

end Stacking
