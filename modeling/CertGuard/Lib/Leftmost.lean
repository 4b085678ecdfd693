import Mathlib.Data.List.Infix
import Mathlib.Data.List.TakeWhile

/-!
# The first place where something is found

A search goes through a list from the left and takes what it finds first. A search that looks
behind separators only goes through the parts between them.

## Main definitions

* `leftmost` — what is found at the first suffix where something is
* `leftmostBefore` — the same at the suffixes that begin in front of another list
* `behind` — a search behind a separator

## Main results

* `leftmost_append` — what is found in front of a list comes first
* `or_leftmost_behind` — a search at the start and behind separators, part by part
* `splitOn_intercalate_flatMap`, `intercalate_append_cons` — lists that were joined
-/

variable {α β : Type*} {f g : List α → Option β} {s t u : List α} {a sep : α} {b : β}

/-- What is found at the first suffix at which something is. -/
def leftmost (f : List α → Option β) : List α → Option β
  | [] => f []
  | a :: s => (f (a :: s)).or (leftmost f s)

/-- What is found at the first place in a list that stands in front of another. -/
def leftmostBefore (f : List α → Option β) (t : List α) : List α → Option β
  | [] => none
  | a :: s => (f (a :: s ++ t)).or (leftmostBefore f t s)

/-- What is found in front of a list comes first. -/
theorem leftmost_append : leftmost f (s ++ t) = (leftmostBefore f t s).or (leftmost f t) := by
  induction s with
  | nil => rfl
  | cons a s ih =>
    rw [List.cons_append, leftmost, ih, leftmostBefore, Option.or_assoc]
    rfl

theorem leftmostBefore_congr (h : ∀ r, r ≠ [] → r <:+ s → f (r ++ t) = f (r ++ u)) :
    leftmostBefore f t s = leftmostBefore f u s := by
  induction s with
  | nil => rfl
  | cons a s ih =>
    rw [leftmostBefore, leftmostBefore, h (a :: s) (List.cons_ne_nil a s) (List.suffix_refl _),
      ih fun r hr hsuffix => h r hr (hsuffix.trans (List.suffix_cons a s))]

/-- What is found is found somewhere. -/
theorem exists_of_leftmost (h : leftmost f s = some b) : ∃ t, t <:+ s ∧ f t = some b := by
  induction s with
  | nil => exact ⟨[], List.suffix_refl _, h⟩
  | cons a s ih =>
    rcases Option.or_eq_some_iff.mp h with hhere | ⟨-, hlater⟩
    · exact ⟨a :: s, List.suffix_refl _, hhere⟩
    · obtain ⟨t, hsuffix, ht⟩ := ih hlater
      exact ⟨t, hsuffix.trans (List.suffix_cons a s), ht⟩

/-! ### Parts -/

section Parts

variable [DecidableEq α]

theorem splitOn_eq_takeWhile_cons : s.splitOn sep =
    s.takeWhile (fun a => a ≠ sep) :: (s.splitOn sep).tail := by
  induction s with
  | nil => rfl
  | cons a s ih =>
    rw [List.splitOn_cons_eq_if_modifyHead]
    by_cases ha : a = sep
    · simp [ha]
    · rw [if_neg (by simpa using ha), ih]
      simp [ha]

/-- A part stands in the list. -/
theorem isInfix_of_mem_splitOn (h : t ∈ s.splitOn sep) : t <:+: s := by
  induction s generalizing t with
  | nil =>
    obtain rfl := List.mem_singleton.mp h
    exact List.infix_refl _
  | cons a s ih =>
    rw [List.splitOn_cons_eq_if_modifyHead] at h
    split_ifs at h
    · rcases List.mem_cons.mp h with rfl | h
      · exact List.nil_infix
      · exact (ih h).trans (List.suffix_cons a s).isInfix
    · -- the first part is one longer, the others are those of `s`
      rw [splitOn_eq_takeWhile_cons, List.modifyHead_cons] at h
      rcases List.mem_cons.mp h with rfl | h
      · exact (List.prefix_cons_inj a |>.mpr (List.takeWhile_prefix _)).isInfix
      · exact (ih (List.mem_of_mem_tail h)).trans (List.suffix_cons a s).isInfix

/-- A part has no separator. -/
theorem not_mem_of_mem_splitOn (h : t ∈ s.splitOn sep) : sep ∉ t := by
  induction s generalizing t with
  | nil =>
    obtain rfl := List.mem_singleton.mp h
    exact List.not_mem_nil
  | cons a s ih =>
    rw [List.splitOn_cons_eq_if_modifyHead] at h
    split_ifs at h with ha
    · rcases List.mem_cons.mp h with rfl | h
      · exact List.not_mem_nil
      · exact ih h
    · rw [splitOn_eq_takeWhile_cons, List.modifyHead_cons] at h
      rcases List.mem_cons.mp h with rfl | h
      · intro hmem
        rcases List.mem_cons.mp hmem with rfl | hmem
        · exact ha (beq_self_eq_true _)
        · exact absurd (List.mem_takeWhile_imp hmem) (by simp)
      · exact ih (List.mem_of_mem_tail h)

/-- Lists that were joined have the parts of each. -/
theorem splitOn_intercalate_flatMap {ls : List (List α)} (hls : ls ≠ []) :
    ([sep].intercalate ls).splitOn sep = ls.flatMap fun l => l.splitOn sep := by
  induction ls with
  | nil => exact absurd rfl hls
  | cons l ls ih =>
    cases ls with
    | nil => simp
    | cons m ls =>
      rw [List.intercalate_cons_cons, List.append_assoc, List.singleton_append,
        List.splitOn_append_cons_self, ih (List.cons_ne_nil m ls)]
      exact List.flatMap_cons.symm

omit [DecidableEq α] in
theorem intercalate_cons_eq {l : List α} {ls : List (List α)} :
    [sep].intercalate (l :: ls) = l ++ ls.flatMap fun l => sep :: l := by
  induction ls generalizing l with
  | nil => simp
  | cons m ls ih =>
    rw [List.intercalate_cons_cons, ih, List.flatMap_cons, List.append_assoc]
    rfl

omit [DecidableEq α] in
/-- Lists that are joined have a separator behind those before one of them, and in front of
those after it. -/
theorem intercalate_append_cons {ls ms : List (List α)} {m : List α} :
    [sep].intercalate (ls ++ m :: ms) =
      ls.flatMap (fun l => l ++ [sep]) ++ (m ++ ms.flatMap fun l => sep :: l) := by
  induction ls with
  | nil => exact intercalate_cons_eq
  | cons l ls ih =>
    rw [List.cons_append, List.intercalate_cons_of_ne_nil (by simp), ih, List.flatMap_cons]
    simp only [List.append_assoc]

/-- A search behind a separator. -/
def behind (sep : α) (f : List α → Option β) : List α → Option β
  | [] => none
  | a :: s => if a = sep then f s else none

/-- A search that ends at a separator finds the same in the first part. -/
theorem findSome?_splitOn (hf : ∀ s, f s = f (s.takeWhile fun a => a ≠ sep)) (s : List α) :
    (s.splitOn sep).findSome? f = (f s).or ((s.splitOn sep).tail.findSome? f) := by
  rw [hf s]
  nth_rewrite 1 [splitOn_eq_takeWhile_cons]
  rw [List.findSome?_cons]
  cases f (s.takeWhile fun a => a ≠ sep) <;> rfl

/-- Made behind separators it goes through the other parts. -/
theorem leftmost_behind (hf : ∀ s, f s = f (s.takeWhile fun a => a ≠ sep)) (s : List α) :
    leftmost (behind sep f) s = (s.splitOn sep).tail.findSome? f := by
  induction s with
  | nil => rfl
  | cons a s ih =>
    rw [leftmost, ih, behind, List.splitOn_cons_eq_if_modifyHead]
    by_cases ha : a = sep
    · -- the list behind the separator has all its parts still to come
      rw [if_pos ha, if_pos (by simpa using ha), List.tail_cons, findSome?_splitOn hf]
    · rw [if_neg ha, if_neg (by simpa using ha), Option.none_or, List.tail_modifyHead]

/-- Made at the start as well it goes through all parts. -/
theorem or_leftmost_behind (hf : ∀ s, f s = f (s.takeWhile fun a => a ≠ sep)) (s : List α) :
    (f s).or (leftmost (behind sep f) s) = (s.splitOn sep).findSome? f := by
  rw [leftmost_behind hf, findSome?_splitOn hf]

end Parts
