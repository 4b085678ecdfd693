import Mathlib.Data.Finset.Card
import Mathlib.Data.Set.Finite.Lemmas

/-!
# Blocks that push each other down

Blocks of given lengths stand at heights that are counted downwards, and two blocks that share a
lane must not overlap. One of them is pinned. A block's turn puts every other block that it
overlaps right below it, except the pinned one; a pass gives each block a turn, the pinned one
first; and passes are made until one of them pushes nothing.

A turn may push a block onto others, above or below those that had their turn, and a block that
is overlapped from above may push the upper one below itself. What makes the passes come to an
end is that the highest block that pushes in a pass is done for good.

## Main definitions

* `PushDown.Blocks` — which blocks share a lane, and their lengths
* `PushDown.turn`, `PushDown.sweep`, `PushDown.pass`, `PushDown.loop` — pushing down
* `PushDown.Settled` — a block that nothing will ever overlap again

## Main results

* `PushDown.settled_sweep` — a settled block stays settled
* `PushDown.exists_newly_settled` — every pass that pushes settles a block
* `PushDown.loop_stops` — as many passes as there are blocks, and one more, are enough
* `PushDown.not_overlap_of_loop` — and then nothing overlaps
-/

namespace PushDown

/-- Which blocks share a lane, and the lengths of the blocks. -/
structure Blocks (ι : Type*) where
  meets : ι → ι → Prop
  size : ι → Int
  symm : ∀ {a b}, meets a b → meets b a
  size_pos : ∀ a, 0 < size a

variable {ι : Type*} (B : Blocks ι) (m : ι) (all : List ι)

/-- Two blocks overlap, where the blocks stand as in `r`. -/
def Overlap (r : ι → Int) (a b : ι) : Prop :=
  B.meets a b ∧ r a < r b + B.size b ∧ r b < r a + B.size a

instance [DecidableRel B.meets] (r : ι → Int) (a b : ι) : Decidable (Overlap B r a b) :=
  inferInstanceAs (Decidable (_ ∧ _))

theorem Overlap.symm {B : Blocks ι} {r : ι → Int} {a b : ι} (h : Overlap B r a b) :
    Overlap B r b a := ⟨B.symm h.1, h.2.2, h.2.1⟩

theorem overlap_congr {B : Blocks ι} {r s : ι → Int} {a b : ι} (ha : r a = s a) (hb : r b = s b) :
    Overlap B r a b ↔ Overlap B s a b := by
  rw [Overlap, Overlap, ha, hb]

/-- In its turn `p` pushes `q`. -/
def Pushed (r : ι → Int) (p q : ι) : Prop := q ∈ all ∧ q ≠ p ∧ q ≠ m ∧ Overlap B r p q

/-- In its turn `p` pushes something. -/
def Pushes (r : ι → Int) (p : ι) : Prop := ∃ q ∈ all, q ≠ p ∧ q ≠ m ∧ Overlap B r p q

variable [DecidableEq ι] [DecidableRel B.meets]

instance (r : ι → Int) (p q : ι) : Decidable (Pushed B m all r p q) :=
  inferInstanceAs (Decidable (_ ∧ _))

instance (r : ι → Int) (p : ι) : Decidable (Pushes B m all r p) :=
  inferInstanceAs (Decidable (∃ q ∈ all, _))

/-- The turn of a block. -/
def turn (r : ι → Int) (p : ι) : ι → Int :=
  fun q => if Pushed B m all r p q then r p + B.size p else r q

/-- The turns of some blocks. -/
def sweep (ps : List ι) (r : ι → Int) : ι → Int := ps.foldl (turn B m all) r

/-- A turn of every block, and whether any of them pushed something. -/
def pass (r : ι → Int) : (ι → Int) × Bool :=
  all.foldl (fun t p => (turn B m all t.1 p, t.2 || decide (Pushes B m all t.1 p))) (r, false)

/-- Passes until one pushes nothing, at most a given number; and whether the last one pushed
something. -/
def loop : Nat → (ι → Int) → (ι → Int) × Bool
  | 0, r => (r, true)
  | guard + 1, r =>
    let t := pass B m all r
    if t.2 then loop guard t.1 else t

/-- A block overlaps no other. -/
def Clear (r : ι → Int) (c : ι) : Prop := ∀ d ∈ all, d ≠ c → ¬ Overlap B r c d

/-- A block overlaps no other, and where others overlap they begin to do so no higher than it
stands. -/
structure Settled (r : ι → Int) (c : ι) : Prop where
  clear : Clear B all r c
  level : ∀ x ∈ all, ∀ y ∈ all, x ≠ y → Overlap B r x y → r c ≤ max (r x) (r y)

/-- The turns of some blocks, each with where the blocks stand before it. -/
def turns (r : ι → Int) : List ι → List ((ι → Int) × ι)
  | [] => []
  | p :: ps => (r, p) :: turns (turn B m all r p) ps

/-- No block that pushes in these turns stands higher than `l`. -/
def Above (l : Int) (ps : List ι) (r : ι → Int) : Prop :=
  ∀ t ∈ turns B m all r ps, Pushes B m all t.1 t.2 → l ≤ t.1 t.2

variable {B m all} {r s : ι → Int} {a b c d p q x y : ι} {ps qs : List ι} {l : Int} {guard : Nat}

/-! ### A turn -/

theorem turn_of_pushed (h : Pushed B m all r p q) : turn B m all r p q = r p + B.size p := if_pos h

theorem turn_of_not_pushed (h : ¬ Pushed B m all r p q) : turn B m all r p q = r q := if_neg h

/-- A push moves a block down, and below where the overlap began. -/
theorem lt_turn_of_pushed (h : Pushed B m all r p q) :
    r q < turn B m all r p q ∧ r p < turn B m all r p q := by
  have hsize := B.size_pos p
  rw [turn_of_pushed h]
  exact ⟨h.2.2.2.2.2, by omega⟩

variable (B m all) in
theorem le_turn (r : ι → Int) (p q : ι) : r q ≤ turn B m all r p q := by
  by_cases h : Pushed B m all r p q
  · exact (lt_turn_of_pushed h).1.le
  · exact (turn_of_not_pushed h).ge

/-- A block that pushes stays where it is. -/
theorem turn_self : turn B m all r p p = r p := turn_of_not_pushed fun h => h.2.1 rfl

theorem turn_pinned : turn B m all r p m = r m := turn_of_not_pushed fun h => h.2.2.1 rfl

/-- A block that overlaps nothing is not pushed, and nothing falls on it, unless an overlap
begins higher than it stands: what falls on it comes from above, and so does what pushed that. -/
theorem clear_turn (hclear : Clear B all r c) (hp : p ∈ all)
    (hlevel : ∀ d, Pushed B m all r p d → r c ≤ max (r p) (r d)) :
    Clear B all (turn B m all r p) c ∧ turn B m all r p c = r c := by
  have hstays : turn B m all r p c = r c := by
    refine turn_of_not_pushed fun hpushed => ?_
    exact hclear p hp hpushed.2.1.symm hpushed.2.2.2.symm
  refine ⟨fun d hd hne hover => ?_, hstays⟩
  by_cases hpushed : Pushed B m all r p d
  · have hfree := hclear d hd hne
    have hmoved := lt_turn_of_pushed hpushed
    obtain ⟨hmeets, hcd, hdc⟩ := hover
    rw [hstays] at hcd hdc
    -- before it was pushed, `d` stood above `c`
    have habove : r d + B.size d ≤ r c := by
      by_contra hbelow
      exact hfree ⟨hmeets, by omega, by omega⟩
    have hover := hpushed.2.2.2.2.1
    have hsize := B.size_pos d
    have := hlevel d hpushed
    omega
  · have hsame := turn_of_not_pushed hpushed
    exact hclear d hd hne ((overlap_congr hstays hsame).mp hover)

/-- A settled block stays settled. -/
theorem settled_turn (h : Settled B all r c) (hp : p ∈ all) :
    Settled B all (turn B m all r p) c := by
  have hpushes : ∀ d, Pushed B m all r p d → r c ≤ max (r p) (r d) := fun d hd =>
    h.level p hp d hd.1 hd.2.1.symm hd.2.2.2
  obtain ⟨hclear, hstays⟩ := clear_turn h.clear hp hpushes
  refine ⟨hclear, fun x hx y hy hne hover => ?_⟩
  -- where a block was pushed to is lower than where it overlapped
  have hlow : ∀ z, Pushed B m all r p z → r c ≤ turn B m all r p z := by
    intro z hz
    have hmoved := lt_turn_of_pushed hz
    have := hpushes z hz
    omega
  rw [hstays]
  by_cases hpx : Pushed B m all r p x
  · exact (hlow x hpx).trans (le_max_left _ _)
  by_cases hpy : Pushed B m all r p y
  · exact (hlow y hpy).trans (le_max_right _ _)
  have hsx := turn_of_not_pushed hpx
  have hsy := turn_of_not_pushed hpy
  rw [hsx, hsy]
  exact h.level x hx y hy hne ((overlap_congr hsx hsy).mp hover)

/-! ### Turns one after the other -/

theorem sweep_append : sweep B m all (ps ++ qs) r = sweep B m all qs (sweep B m all ps r) :=
  List.foldl_append

theorem turns_append : turns B m all r (ps ++ qs) =
    turns B m all r ps ++ turns B m all (sweep B m all ps r) qs := by
  induction ps generalizing r with
  | nil => rfl
  | cons p ps ih =>
    simp only [List.cons_append, turns, ih]
    rfl

theorem exists_split_of_mem_turns {t : (ι → Int) × ι} (h : t ∈ turns B m all r ps) :
    ∃ pre post, ps = pre ++ t.2 :: post ∧ t.1 = sweep B m all pre r := by
  induction ps generalizing r with
  | nil => exact absurd h List.not_mem_nil
  | cons p ps ih =>
    rcases List.mem_cons.mp h with rfl | h
    · exact ⟨[], ps, rfl, rfl⟩
    · obtain ⟨pre, post, rfl, hstate⟩ := ih h
      exact ⟨p :: pre, post, rfl, hstate⟩

theorem above_append : Above B m all l (ps ++ qs) r ↔
    Above B m all l ps r ∧ Above B m all l qs (sweep B m all ps r) := by
  simp only [Above, turns_append, List.forall_mem_append]

theorem above_cons : Above B m all l (p :: ps) r ↔
    (Pushes B m all r p → l ≤ r p) ∧ Above B m all l ps (turn B m all r p) := by
  simp only [Above, turns, List.forall_mem_cons]

/-- The turns before that of `p`, and those after it. -/
theorem above_of_split {pre post : List ι} (hsplit : ps = pre ++ p :: post)
    (h : Above B m all l ps r) : Above B m all l pre r ∧
      Above B m all l post (turn B m all (sweep B m all pre r) p) := by
  subst hsplit
  obtain ⟨hpre, hrest⟩ := above_append.mp h
  exact ⟨hpre, (above_cons.mp hrest).2⟩

theorem sweep_of_split {pre post : List ι} (hsplit : ps = pre ++ p :: post) :
    sweep B m all ps r = sweep B m all post (turn B m all (sweep B m all pre r) p) := by
  subst hsplit
  exact sweep_append

variable (B m all) in
theorem le_sweep (ps : List ι) (r : ι → Int) (q : ι) : r q ≤ sweep B m all ps r q := by
  induction ps generalizing r with
  | nil => exact le_rfl
  | cons p ps ih => exact (le_turn B m all r p q).trans (ih _)

theorem sweep_pinned (ps : List ι) : sweep B m all ps r m = r m := by
  induction ps generalizing r with
  | nil => rfl
  | cons p ps ih => exact (ih (r := turn B m all r p)).trans turn_pinned

/-- Settled blocks stay settled. -/
theorem settled_sweep (h : Settled B all r c) (hps : ∀ p ∈ ps, p ∈ all) :
    Settled B all (sweep B m all ps r) c := by
  induction ps generalizing r with
  | nil => exact h
  | cons p ps ih =>
    obtain ⟨hp, hps⟩ := List.forall_mem_cons.mp hps
    exact ih (settled_turn h hp) hps

/-- Where no block pushes that stands higher than `l`, a block stays where it is or comes to
stand lower than `l`. -/
theorem sweep_eq_or_lt (habove : Above B m all l ps r) (q : ι) :
    sweep B m all ps r q = r q ∨ l < sweep B m all ps r q := by
  induction ps generalizing r with
  | nil => exact Or.inl rfl
  | cons p ps ih =>
    obtain ⟨hfirst, hrest⟩ := above_cons.mp habove
    rcases ih hrest with hsame | hlow
    · by_cases hpushed : Pushed B m all r p q
      · have hmoved := lt_turn_of_pushed hpushed
        have hl := hfirst ⟨q, hpushed⟩
        refine Or.inr ?_
        change l < sweep B m all ps (turn B m all r p) q
        omega
      · exact Or.inl (hsame.trans (turn_of_not_pushed hpushed))
    · exact Or.inr hlow

/-- A block that overlaps nothing goes on to do so where no block pushes that stands higher. -/
theorem clear_sweep (hclear : Clear B all r c) (hps : ∀ p ∈ ps, p ∈ all)
    (habove : Above B m all (r c) ps r) :
    Clear B all (sweep B m all ps r) c ∧ sweep B m all ps r c = r c := by
  induction ps generalizing r with
  | nil => exact ⟨hclear, rfl⟩
  | cons p ps ih =>
    obtain ⟨hp, hps⟩ := List.forall_mem_cons.mp hps
    obtain ⟨hfirst, hrest⟩ := above_cons.mp habove
    obtain ⟨hclear', hstays⟩ := clear_turn hclear hp fun d hd =>
      (hfirst ⟨d, hd⟩).trans (le_max_left _ _)
    obtain ⟨hclear'', hstays'⟩ := ih hclear' hps (hstays.symm ▸ hrest)
    exact ⟨hclear'', hstays'.trans hstays⟩

/-! ### A pass -/

/-- Of two blocks that overlap after all turns, one was moved. -/
theorem moved_of_overlap (hps : p ∈ ps) (hq : q ∈ all) (hne : q ≠ p) (hpin : q ≠ m)
    (hover : Overlap B (sweep B m all ps r) p q) :
    sweep B m all ps r p ≠ r p ∨ sweep B m all ps r q ≠ r q := by
  by_contra! hsame
  obtain ⟨pre, post, hsplit⟩ := List.append_of_mem hps
  rw [sweep_of_split hsplit] at hsame hover
  set before := sweep B m all pre r
  have hp₁ : r p ≤ before p := le_sweep B m all pre r p
  have hq₁ : r q ≤ before q := le_sweep B m all pre r q
  have hp₂ := le_turn B m all before p p
  have hq₂ := le_turn B m all before p q
  have hp₃ := le_sweep B m all post (turn B m all before p) p
  have hq₃ := le_sweep B m all post (turn B m all before p) q
  -- neither moves, so that they overlap in the turn of `p`
  have hthen : Overlap B before p q := (overlap_congr (by omega) (by omega)).mp hover
  have hmoved := lt_turn_of_pushed (m := m) ⟨hq, hne, hpin, hthen⟩
  omega

/-- After all turns, blocks overlap only below every block that pushed. -/
theorem lt_level_of_above (hpin : m ∈ all) (habove : Above B m all l all r) (hx : x ∈ all)
    (hy : y ∈ all) (hne : x ≠ y) (hover : Overlap B (sweep B m all all r) x y) :
    l < max (sweep B m all all r x) (sweep B m all all r y) := by
  have hmoved : sweep B m all all r x ≠ r x ∨ sweep B m all all r y ≠ r y := by
    by_cases hym : y = m
    · subst hym
      exact (moved_of_overlap hpin hx hne hne hover.symm).symm
    · exact moved_of_overlap hx hy hne.symm hym hover
  rw [lt_max_iff]
  rcases hmoved with hx' | hy'
  · exact Or.inl ((sweep_eq_or_lt habove x).resolve_left hx')
  · exact Or.inr ((sweep_eq_or_lt habove y).resolve_left hy')

/-- In its turn, the highest block that pushes does not overlap the pinned one, which had its
turn before. -/
theorem not_overlap_pinned {others pre post : List ι} (hall : m :: others = pre ++ p :: post)
    (hp : p ∈ all) (hne : p ≠ m)
    (habove : Above B m all (sweep B m all pre r p) pre r) :
    ¬ Overlap B (sweep B m all pre r) p m := by
  intro hover
  have hsame : sweep B m all pre r p = r p :=
    (sweep_eq_or_lt habove p).resolve_right (lt_irrefl _)
  have hpinned : sweep B m all pre r m = r m := sweep_pinned pre
  cases pre with
  | nil => exact hne (List.cons.inj hall).1.symm
  | cons p' pre =>
    obtain ⟨rfl, -⟩ := List.cons.inj hall
    have hfirst : Overlap B r m p := ((overlap_congr hsame hpinned).mp hover).symm
    have hmoved := lt_turn_of_pushed (m := m) ⟨hp, hne, hne, hfirst⟩
    have hlater := le_sweep B m all pre (turn B m all r m) p
    change sweep B m all pre (turn B m all r m) p = r p at hsame
    omega

/-- After its turn, a block overlaps nothing, if it does not overlap the pinned one. -/
theorem clear_turn_self (hpin : p = m ∨ ¬ Overlap B r p m) :
    Clear B all (turn B m all r p) p := by
  intro d hd hne hover
  by_cases hpushed : Pushed B m all r p d
  · have hbelow := hover.2.2
    rw [turn_of_pushed hpushed, turn_self] at hbelow
    omega
  · have hthen : Overlap B r p d :=
      (overlap_congr turn_self (turn_of_not_pushed hpushed)).mp hover
    by_cases hdm : d = m
    · subst hdm
      rcases hpin with rfl | hfree
      · exact hne rfl
      · exact hfree hthen
    · exact hpushed ⟨hd, hne, hdm, hthen⟩

/-- Among the turns of a pass in which something is pushed, there is one of a highest block. -/
theorem exists_highest (h : ∃ t ∈ turns B m all r ps, Pushes B m all t.1 t.2) :
    ∃ pre p post, ps = pre ++ p :: post ∧ Pushes B m all (sweep B m all pre r) p ∧
      Above B m all (sweep B m all pre r p) ps r := by
  have hfinite : {t | t ∈ turns B m all r ps ∧ Pushes B m all t.1 t.2}.Finite :=
    (List.finite_toSet _).subset fun t ht => ht.1
  obtain ⟨t, ⟨ht, hpushes⟩, hleast⟩ :=
    Set.exists_min_image _ (fun t : (ι → Int) × ι => t.1 t.2) hfinite h
  obtain ⟨pre, post, hsplit, hstate⟩ := exists_split_of_mem_turns ht
  rw [hstate] at hpushes
  refine ⟨pre, t.2, post, hsplit, hpushes, fun t' ht' hpushes' => ?_⟩
  rw [← hstate]
  exact hleast t' ⟨ht', hpushes'⟩

/-- Every pass in which something is pushed settles a block that was not settled before: the
highest of those that push. -/
theorem exists_newly_settled {others : List ι} (hall : all = m :: others)
    (h : ∃ t ∈ turns B m all r all, Pushes B m all t.1 t.2) :
    ∃ c ∈ all, ¬ Settled B all r c ∧ Settled B all (sweep B m all all r) c := by
  obtain ⟨pre, p, post, hsplit, hpushes, habove⟩ := exists_highest h
  have hp : p ∈ all := hsplit ▸ List.mem_append_right _ List.mem_cons_self
  have hpre : ∀ q ∈ pre, q ∈ all := fun q hq => hsplit ▸ List.mem_append_left _ hq
  have hpost : ∀ q ∈ post, q ∈ all := fun q hq =>
    hsplit ▸ List.mem_append_right _ (List.mem_cons_of_mem _ hq)
  refine ⟨p, hp, fun hsettled => ?_, ?_⟩
  · -- a settled block would not have overlapped anything in its turn
    obtain ⟨q, hq, hne, -, hover⟩ := hpushes
    exact (settled_sweep hsettled hpre).clear q hq hne hover
  · set s := sweep B m all pre r with hs
    obtain ⟨hbefore, hafter⟩ := above_of_split hsplit habove
    have hpin : p = m ∨ ¬ Overlap B s p m := by
      by_cases hpm : p = m
      · exact Or.inl hpm
      · exact Or.inr (not_overlap_pinned (hall ▸ hsplit) hp hpm hbefore)
    have hself : turn B m all s p p = s p := turn_self
    rw [← hs, ← hself] at hafter
    obtain ⟨hclear, hstays⟩ := clear_sweep (clear_turn_self hpin) hpost hafter
    have hend : sweep B m all all r = sweep B m all post (turn B m all s p) :=
      sweep_of_split hsplit
    have hfixed : sweep B m all all r p = s p := by
      rw [hend, hstays, hself]
    refine ⟨hend ▸ hclear, fun x hx y hy hne hover => ?_⟩
    rw [hfixed]
    have hpinned : m ∈ all := hall ▸ List.mem_cons_self
    exact (lt_level_of_above hpinned habove hx hy hne hover).le

/-! ### Passes until nothing is pushed -/

theorem foldl_pass (ps : List ι) (t : (ι → Int) × Bool) :
    ps.foldl (fun t p => (turn B m all t.1 p, t.2 || decide (Pushes B m all t.1 p))) t =
      (sweep B m all ps t.1,
        t.2 || decide (∃ u ∈ turns B m all t.1 ps, Pushes B m all u.1 u.2)) := by
  induction ps generalizing t with
  | nil => simp [sweep, turns]
  | cons p ps ih =>
    rw [List.foldl_cons, ih]
    simp only [turns, List.exists_mem_cons_iff, Bool.or_assoc, Bool.decide_or]
    rfl

theorem pass_fst : (pass B m all r).1 = sweep B m all all r := by
  rw [pass, foldl_pass]

theorem pass_snd : (pass B m all r).2 = true ↔
    ∃ t ∈ turns B m all r all, Pushes B m all t.1 t.2 := by
  rw [pass, foldl_pass, Bool.false_or, decide_eq_true_iff]

/-- Turns that push nothing change nothing. -/
theorem sweep_of_not_pushes (h : ∀ t ∈ turns B m all r ps, ¬ Pushes B m all t.1 t.2) :
    sweep B m all ps r = r ∧ ∀ p ∈ ps, ¬ Pushes B m all r p := by
  induction ps generalizing r with
  | nil => exact ⟨rfl, by simp⟩
  | cons p ps ih =>
    obtain ⟨hfirst, hrest⟩ := List.forall_mem_cons.mp h
    have hsame : turn B m all r p = r := by
      funext q
      exact turn_of_not_pushed fun hpushed => hfirst ⟨q, hpushed⟩
    rw [hsame] at hrest
    obtain ⟨hend, hnone⟩ := ih hrest
    refine ⟨?_, List.forall_mem_cons.mpr ⟨hfirst, hnone⟩⟩
    change sweep B m all ps (turn B m all r p) = r
    rw [hsame, hend]

/-- After a pass that pushed nothing, nothing overlaps. -/
theorem not_overlap_of_pass (hpin : m ∈ all) (h : (pass B m all r).2 = false) (hx : x ∈ all)
    (hy : y ∈ all) (hne : x ≠ y) : ¬ Overlap B (pass B m all r).1 x y := by
  have hnone : ∀ t ∈ turns B m all r all, ¬ Pushes B m all t.1 t.2 := by
    intro t ht hpushes
    exact Bool.false_ne_true (h.symm.trans (pass_snd.mpr ⟨t, ht, hpushes⟩))
  obtain ⟨hsame, hpushes⟩ := sweep_of_not_pushes hnone
  rw [pass_fst, hsame]
  intro hover
  by_cases hym : y = m
  · subst hym
    exact hpushes y hpin ⟨x, hx, hne, hne, hover.symm⟩
  · exact hpushes x hx ⟨y, hy, hne.symm, hym, hover⟩

open Classical in
/-- The settled blocks. -/
noncomputable def settledSet (B : Blocks ι) (all : List ι) (r : ι → Int) : Finset ι :=
  all.toFinset.filter (Settled B all r)

omit [DecidableRel B.meets] in
theorem mem_settledSet : c ∈ settledSet B all r ↔ c ∈ all ∧ Settled B all r c := by
  simp [settledSet]

omit [DecidableRel B.meets] in
theorem card_settledSet_le : (settledSet B all r).card ≤ all.length := by
  classical
  exact (Finset.card_filter_le _ _).trans (List.toFinset_card_le all)

/-- A pass that pushes something leaves more blocks settled. -/
theorem card_settledSet_lt {others : List ι} (hall : all = m :: others)
    (h : (pass B m all r).2 = true) :
    (settledSet B all r).card < (settledSet B all (pass B m all r).1).card := by
  obtain ⟨c, hc, hbefore, hafter⟩ := exists_newly_settled hall (pass_snd.mp h)
  rw [pass_fst]
  refine Finset.card_lt_card ⟨fun d hd => ?_, fun hsub => ?_⟩
  · obtain ⟨hd, hsettled⟩ := mem_settledSet.mp hd
    exact mem_settledSet.mpr ⟨hd, settled_sweep hsettled fun _ hp => hp⟩
  · exact hbefore (mem_settledSet.mp (hsub (mem_settledSet.mpr ⟨hc, hafter⟩))).2

/-- The passes come to an end before they are cut off, where there are more of them than blocks
that are not settled. -/
theorem loop_stops_of_settled {others : List ι} (hall : all = m :: others)
    (hguard : all.length < guard + (settledSet B all r).card) :
    (loop B m all guard r).2 = false := by
  induction guard generalizing r with
  | zero =>
    have hmost : (settledSet B all r).card ≤ all.length := card_settledSet_le
    omega
  | succ guard ih =>
    simp only [loop]
    cases hpass : (pass B m all r).2 with
    | false =>
      rw [if_neg Bool.false_ne_true]
      exact hpass
    | true =>
      have hmore := card_settledSet_lt hall hpass
      rw [if_pos rfl]
      exact ih (by omega)

/-- The passes come to an end, where there are more of them than blocks. -/
theorem loop_stops {others : List ι} (hall : all = m :: others) (hguard : all.length < guard)
    (r : ι → Int) : (loop B m all guard r).2 = false :=
  loop_stops_of_settled hall (by omega)

/-- What the passes leave where they come to an end: nothing overlaps. -/
theorem not_overlap_of_loop (hpin : m ∈ all) (h : (loop B m all guard r).2 = false)
    (hx : x ∈ all) (hy : y ∈ all) (hne : x ≠ y) :
    ¬ Overlap B (loop B m all guard r).1 x y := by
  induction guard generalizing r with
  | zero => exact absurd h (by simp [loop])
  | succ guard ih =>
    simp only [loop] at h ⊢
    cases hpass : (pass B m all r).2 with
    | false =>
      rw [if_neg Bool.false_ne_true]
      exact not_overlap_of_pass hpin hpass hx hy hne
    | true =>
      rw [hpass, if_pos rfl] at h
      rw [if_pos rfl]
      exact ih h

/-- No block comes to stand higher, and the pinned one stays where it is. -/
theorem le_loop (guard : Nat) (r : ι → Int) (q : ι) :
    r q ≤ (loop B m all guard r).1 q ∧ (loop B m all guard r).1 m = r m := by
  induction guard generalizing r with
  | zero => exact ⟨le_rfl, rfl⟩
  | succ guard ih =>
    have hpass : r q ≤ (pass B m all r).1 q ∧ (pass B m all r).1 m = r m := by
      rw [pass_fst]
      exact ⟨le_sweep B m all all r q, sweep_pinned all⟩
    simp only [loop]
    split_ifs
    · obtain ⟨hle, hpinned⟩ := ih (pass B m all r).1
      exact ⟨hpass.1.trans hle, hpinned.trans hpass.2⟩
    · exact hpass

end PushDown
