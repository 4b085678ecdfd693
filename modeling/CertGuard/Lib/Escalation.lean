import Mathlib.Order.WithBot
import Mathlib.Data.List.Pairwise

/-!
# Escalating alerts

Something is looked at from time to time. Each look finds it on some rung of a
ladder, lower rungs being more urgent, or off the ladder altogether (`⊤`). An
alert is due when the rung found is more urgent than the last one alerted on.
Whether the rung then counts as alerted on is noted for all receivers together.

## Main definitions

* `Escalation.Look` — the rung found, whether an alert for it would be noted, and
  whether the receiver under study would accept it
* `Escalation.mark` — what a look leaves as the last rung alerted on
* `Escalation.received` — the alerts the receiver under study gets

## Main results

* `Escalation.pairwise_received` — rungs received go strictly down when what is
  received is noted, whatever is looked at and whenever
* `Escalation.mem_received_iff` — when rungs found only go down, the receiver
  gets exactly the rungs found that it accepts
-/

namespace Escalation

variable {α : Type*}

/-- What one look finds. -/
structure Look (α : Type*) where
  rung : WithTop α
  noted : Bool
  mine : Bool

/-- What the receiver under study gets is noted. -/
def Noted (ls : List (Look α)) : Prop := ∀ l ∈ ls, l.mine = true → l.noted = true

theorem Noted.tail {l : Look α} {ls : List (Look α)} (h : Noted (l :: ls)) : Noted ls :=
  fun m hm => h m (List.mem_cons_of_mem _ hm)

variable [LinearOrder α]

/-- The last rung alerted on, after a look. -/
def mark (last : WithTop α) (l : Look α) : WithTop α :=
  if l.rung < last ∧ l.noted = true then l.rung else last

/-- The last rung alerted on, after a list of looks. -/
def marks (last : WithTop α) (ls : List (Look α)) : WithTop α := ls.foldl mark last

/-- The rungs the receiver under study gets alerts for, in order. -/
def received (last : WithTop α) : List (Look α) → List (WithTop α)
  | [] => []
  | l :: ls =>
    (if l.rung < last ∧ l.mine = true then [l.rung] else []) ++ received (mark last l) ls

variable {last : WithTop α} {l : Look α} {ls ls' : List (Look α)} {r : WithTop α}

theorem mark_le : mark last l ≤ last := by
  unfold mark
  split_ifs with h
  · exact h.1.le
  · exact le_rfl

theorem received_append :
    received last (ls ++ ls') = received last ls ++ received (marks last ls) ls' := by
  induction ls generalizing last with
  | nil => rfl
  | cons l ls ih => simp [received, marks, ih]

theorem mark_eq_of_mine (hdue : l.rung < last) (hnoted : l.noted = true) : mark last l = l.rung :=
  if_pos ⟨hdue, hnoted⟩

/-- Every rung received is more urgent than the last one alerted on at the start. -/
theorem lt_of_mem_received (h : r ∈ received last ls) : r < last := by
  induction ls generalizing last with
  | nil => simp [received] at h
  | cons l ls ih =>
    rw [received, List.mem_append] at h
    rcases h with h | h
    · split_ifs at h with hl
      · obtain rfl := List.mem_singleton.mp h
        exact hl.1
      · simp at h
    · exact (ih h).trans_le mark_le

theorem marks_le (last : WithTop α) (ls : List (Look α)) : marks last ls ≤ last := by
  induction ls generalizing last with
  | nil => exact le_rfl
  | cons l ls ih => exact (ih (mark last l)).trans mark_le

/-- Looks that find only less urgent rungs do not keep an alert from being due. -/
theorem lt_marks_iff (h : ∀ l ∈ ls, r < l.rung) : r < marks last ls ↔ r < last := by
  induction ls generalizing last with
  | nil => exact Iff.rfl
  | cons l ls ih =>
    rw [marks, List.foldl_cons, ← marks, ih fun m hm => h m (List.mem_cons_of_mem _ hm)]
    constructor
    · exact fun hlt => hlt.trans_le mark_le
    · intro hlt
      unfold mark
      split_ifs
      · exact h l List.mem_cons_self
      · exact hlt

/-- What is received later is more urgent than what was received, and noted, before. -/
theorem lt_of_mem_received_later (hnoted : Noted ls) {r' : WithTop α} (h : r ∈ received last ls)
    (h' : r' ∈ received (marks last ls) ls') : r' < r := by
  induction ls generalizing last with
  | nil => simp [received] at h
  | cons l ls ih =>
    rw [received, List.mem_append] at h
    rcases h with h | h
    · split_ifs at h with hl
      · obtain rfl := List.mem_singleton.mp h
        have hlt := (lt_of_mem_received h').trans_le (marks_le (mark last l) ls)
        rwa [mark_eq_of_mine hl.1 (hnoted l (by simp) hl.2)] at hlt
      · simp at h
    · exact ih hnoted.tail h h'

theorem pairwise_received (hnoted : Noted ls) : (received last ls).Pairwise (· > ·) := by
  induction ls generalizing last with
  | nil => exact List.Pairwise.nil
  | cons l ls ih =>
    have hl : received last (l :: ls) = received last [l] ++ received (mark last l) ls := by
      simp [received]
    have hnoted1 : Noted [l] := fun m hm => hnoted m (List.mem_singleton.mp hm ▸ by simp)
    rw [hl, List.pairwise_append]
    refine ⟨?_, ih hnoted.tail, fun r hr r' hr' => ?_⟩
    · rw [received]
      split_ifs <;> simp [received]
    · exact lt_of_mem_received_later hnoted1 hr hr'

/-- When the rungs found never go up, and the receiver accepts by the rung alone,
it receives exactly the rungs found that it accepts and that are still ahead. -/
theorem mem_received_iff {wants : WithTop α → Bool} (hnoted : Noted ls)
    (hdown : (last :: ls.map Look.rung).Pairwise (· ≥ ·))
    (hwants : ∀ l ∈ ls, l.mine = wants l.rung) :
    r ∈ received last ls ↔ wants r = true ∧ r ∈ ls.map Look.rung ∧ r < last := by
  induction ls generalizing last with
  | nil => simp [received]
  | cons l ls ih =>
    have hmine := hwants l (by simp)
    have hls : ∀ m ∈ ls, m.mine = wants m.rung := fun m hm => hwants m (List.mem_cons_of_mem _ hm)
    rw [List.map_cons, List.pairwise_cons, List.pairwise_cons] at hdown
    obtain ⟨hlast, hl, hrest⟩ := hdown
    have hle : ∀ q ∈ ls.map Look.rung, q ≤ l.rung := hl
    -- the tail is governed by whatever this look marks, which is `last` or the rung found
    have hdown' : (mark last l :: ls.map Look.rung).Pairwise (· ≥ ·) := by
      refine List.pairwise_cons.mpr ⟨fun q hq => ?_, hrest⟩
      unfold mark
      split_ifs
      · exact hle q hq
      · exact hlast q (by simp [hq])
    rw [received, List.mem_append, ih hnoted.tail hdown' hls, List.map_cons, List.mem_cons]
    by_cases hdue : l.rung < last
    · by_cases hw : wants l.rung = true
      · have hmineNow := hmine.trans hw
        rw [mark_eq_of_mine hdue (hnoted l (by simp) hmineNow), if_pos ⟨hdue, hmineNow⟩,
          List.mem_singleton]
        constructor
        · rintro (rfl | ⟨hr, hmem, hlt⟩)
          · exact ⟨hw, Or.inl rfl, hdue⟩
          · exact ⟨hr, Or.inr hmem, hlt.trans hdue⟩
        · rintro ⟨hr, rfl | hmem, hlt⟩
          · exact Or.inl rfl
          · rcases (hle r hmem).lt_or_eq with h | h
            · exact Or.inr ⟨hr, hmem, h⟩
            · exact Or.inl h
      · have hm : l.mine = false := by simpa [hmine] using hw
        rw [if_neg (by simp [hm])]
        simp only [List.not_mem_nil, false_or]
        constructor
        · rintro ⟨hr, hmem, hlt⟩
          exact ⟨hr, Or.inr hmem, hlt.trans_le mark_le⟩
        · rintro ⟨hr, rfl | hmem, hlt⟩
          · exact absurd hr hw
          · refine ⟨hr, hmem, ?_⟩
            unfold mark
            split_ifs
            · refine lt_of_le_of_ne (hle r hmem) fun h => ?_
              exact hw (h ▸ hr)
            · exact hlt
    · have hmark : mark last l = last := if_neg fun h => hdue h.1
      rw [hmark, if_neg fun h => hdue h.1]
      simp only [List.not_mem_nil, false_or]
      constructor
      · rintro ⟨hr, hmem, hlt⟩
        exact ⟨hr, Or.inr hmem, hlt⟩
      · rintro ⟨hr, rfl | hmem, hlt⟩
        · exact absurd hlt hdue
        · exact ⟨hr, hmem, hlt⟩

end Escalation
