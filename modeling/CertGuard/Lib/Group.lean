import Mathlib.Algebra.GroupWithZero.Nat
import Mathlib.Data.List.Nodup

/-!
# Grouping by a key

A table of lists that is filled value by value: the first of a key opens its list, the others are
added at its end.

## Main definitions

* `Group.add`, `Group.groups` — the table, filled
* `Group.under` — what is found under a key

## Main results

* `Group.under_groups` — under a key are the values of the key, in their order
* `Group.sum_groups`, `Group.sum_filter` — lists of some keys together have the values of these
  keys
-/

namespace Group

variable {α κ : Type*} [DecidableEq κ] (key : α → κ)

/-- One more value under its key. -/
def add (k : κ) (a : α) : List (κ × List α) → List (κ × List α)
  | [] => [(k, [a])]
  | g :: gs => if g.1 = k then (k, g.2 ++ [a]) :: gs else g :: add k a gs

/-- The values of a list, grouped. -/
def groups (as : List α) : List (κ × List α) := as.foldl (fun gs a => add (key a) a gs) []

/-- What is found under a key. -/
def under (k : κ) (gs : List (κ × List α)) : List α :=
  match gs.find? fun g => g.1 = k with
  | some g => g.2
  | none => []

variable {key} {k l : κ} {a : α} {gs : List (κ × List α)}

@[simp] theorem under_nil : under k ([] : List (κ × List α)) = [] := rfl

theorem under_cons (g : κ × List α) :
    under k (g :: gs) = if g.1 = k then g.2 else under k gs := by
  unfold under
  by_cases h : g.1 = k
  · simp [h]
  · simp [h]

theorem under_add : under l (add k a gs) = if k = l then under l gs ++ [a] else under l gs := by
  induction gs with
  | nil =>
    rw [add, under_cons]
    split_ifs <;> rfl
  | cons g gs ih =>
    rw [add]
    by_cases hg : g.1 = k
    · rw [if_pos hg, under_cons, under_cons, hg]
      split_ifs <;> rfl
    · rw [if_neg hg, under_cons, under_cons, ih]
      by_cases hl : g.1 = l
      · have hne : k ≠ l := fun h => hg (hl.trans h.symm)
        simp only [if_pos hl, if_neg hne]
      · simp only [if_neg hl]

/-- Under a key are the values of the key, in their order. -/
theorem under_groups (k : κ) (as : List α) :
    under k (groups key as) = as.filter fun a => key a = k := by
  have hall : ∀ gs, under k (as.foldl (fun gs a => add (key a) a gs) gs) =
      under k gs ++ as.filter fun a => key a = k := by
    induction as with
    | nil => intro gs; simp
    | cons a as ih =>
      intro gs
      rw [List.foldl_cons, ih, under_add, List.filter_cons]
      by_cases h : key a = k
      · simp [h]
      · simp [h]
  exact hall []

theorem length_add (p : κ → Bool) :
    (((add k a gs).filter fun g => p g.1).map fun g => g.2.length).sum =
      ((gs.filter fun g => p g.1).map fun g => g.2.length).sum + if p k then 1 else 0 := by
  induction gs with
  | nil =>
    rw [add]
    cases hp : p k <;> simp [hp]
  | cons g gs ih =>
    rw [add]
    by_cases hg : g.1 = k
    · rw [if_pos hg]
      cases hp : p k
      · simp [hp, hg]
      · simp only [List.filter_cons, hp, hg, if_true, List.map_cons, List.sum_cons,
          List.length_append, List.length_singleton]
        omega
    · rw [if_neg hg]
      cases hp : p g.1
      · simp only [List.filter_cons, hp, Bool.false_eq_true, if_false]
        exact ih
      · simp only [List.filter_cons, hp, if_true, List.map_cons, List.sum_cons]
        omega

/-- The lists of some keys have together as many values as there are of these keys. -/
theorem sum_groups (p : κ → Bool) (as : List α) :
    (((groups key as).filter fun g => p g.1).map fun g => g.2.length).sum =
      as.countP fun a => p (key a) := by
  have hall : ∀ gs : List (κ × List α),
      (((as.foldl (fun gs a => add (key a) a gs) gs).filter fun g => p g.1).map
        fun g => g.2.length).sum =
      ((gs.filter fun g => p g.1).map fun g => g.2.length).sum +
        as.countP fun a => p (key a) := by
    induction as with
    | nil => intro gs; simp
    | cons a as ih =>
      intro gs
      rw [List.foldl_cons, ih, length_add, List.countP_cons]
      omega
  have h := hall []
  simpa [groups] using h

/-- The values of one key, and of others. -/
theorem length_filter_add {ks : List κ} (hk : k ∉ ks) (as : List α) :
    (as.filter fun a => key a = k).length + as.countP (fun a => key a ∈ ks) =
      as.countP fun a => key a ∈ k :: ks := by
  induction as with
  | nil => rfl
  | cons a as ih =>
    rw [List.filter_cons, List.countP_cons, List.countP_cons, ← ih]
    -- a value of the first key has none of the others
    by_cases hfirst : key a = k
    · subst hfirst
      simp only [hk, List.mem_cons_self, decide_true, decide_false, if_true, if_false,
        Bool.false_eq_true, List.length_cons]
      omega
    · have hmem : key a ∈ k :: ks ↔ key a ∈ ks := by
        rw [List.mem_cons, or_iff_right hfirst]
      simp only [hfirst, decide_false, Bool.false_eq_true, if_false, hmem]
      omega

/-- The values of several keys, key by key. -/
theorem sum_filter {ks : List κ} (hks : ks.Nodup) (as : List α) :
    (ks.map fun k => (as.filter fun a => key a = k).length).sum =
      as.countP fun a => key a ∈ ks := by
  induction ks with
  | nil => simp
  | cons k ks ih =>
    obtain ⟨hk, hks⟩ := List.nodup_cons.mp hks
    rw [List.map_cons, List.sum_cons, ih hks, length_filter_add hk]

end Group
