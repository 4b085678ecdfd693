import Mathlib.Data.List.Induction
import Mathlib.Order.Lattice

/-!
# The first of the least

A loop over a list that keeps the best element so far, of those that count, and replaces it only
by one with a smaller key. What it ends with is the first of the elements with the least key.

## Main definitions

* `FirstLeast.keep`, `FirstLeast.find` — the loop
* `FirstLeast.IsFirst` — what it looks for

## Main results

* `FirstLeast.find_eq_some_iff`, `FirstLeast.find_eq_none_iff` — what it finds
* `FirstLeast.isFirst_iff_of_lower` — it is the first among more elements, where those that do
  not count have larger keys
* `FirstLeast.find_map_key_congr` — its key does not depend on the order, nor on what does not
  count
* `FirstLeast.split_cases` — where an element of a list is in relation to another
-/

namespace FirstLeast

variable {α β : Type*} [LinearOrder β] (p : α → Prop) [DecidablePred p] (key : α → β)

/-- One turn of the loop. -/
def keep (best : Option α) (a : α) : Option α :=
  if p a then
    match best with
    | none => some a
    | some b => if key a < key b then some a else some b
  else best

/-- The loop. -/
def find (l : List α) : Option α := l.foldl (keep p key) none

/-- An element that counts, with no smaller key in the list and no key as small before it. -/
structure IsFirst (pre : List α) (a : α) (post : List α) : Prop where
  counts : p a
  lt_before : ∀ b ∈ pre, p b → key a < key b
  le_after : ∀ b ∈ post, p b → key a ≤ key b

variable {p key} {l pre post pre' post' : List α} {a b : α} {best : Option α}

theorem keep_of_not (h : ¬ p a) : keep p key best a = best := if_neg h

theorem keep_none (h : p a) : keep p key none a = some a := if_pos h

theorem keep_some (h : p a) :
    keep p key (some b) a = if key a < key b then some a else some b := if_pos h

theorem foldl_keep_some (hpost : ∀ b ∈ post, p b → key a ≤ key b) :
    post.foldl (keep p key) (some a) = some a := by
  induction post with
  | nil => rfl
  | cons b post ih =>
    obtain ⟨hb, hpost⟩ := List.forall_mem_cons.mp hpost
    have hkeep : keep p key (some a) b = some a := by
      unfold keep
      split_ifs with hp
      · exact if_neg (not_lt.mpr (hb hp))
      · rfl
    rw [List.foldl_cons, hkeep, ih hpost]

theorem find_concat (l : List α) (a : α) :
    find p key (l ++ [a]) = keep p key (find p key l) a := by
  simp [find, List.foldl_append]

omit [DecidablePred p] in
theorem IsFirst.le (h : IsFirst p key pre a post) (hb : b ∈ pre ++ a :: post) (hp : p b) :
    key a ≤ key b := by
  rcases List.mem_append.mp hb with hb | hb
  · exact le_of_lt (h.lt_before b hb hp)
  · rcases List.mem_cons.mp hb with rfl | hb
    · exact le_rfl
    · exact h.le_after b hb hp

theorem find_eq_none_iff : find p key l = none ↔ ∀ a ∈ l, ¬ p a := by
  induction l using List.reverseRecOn with
  | nil => simp [find]
  | append_singleton l b ih =>
    rw [find_concat]
    constructor
    · intro h
      by_cases hp : p b
      · simp only [keep, if_pos hp] at h
        split at h
        · exact absurd h (by simp)
        · split_ifs at h
      · rw [keep_of_not hp, ih] at h
        exact fun a ha => (List.mem_append.mp ha).elim (h a) fun ha =>
          List.mem_singleton.mp ha ▸ hp
    · intro h
      rw [keep_of_not (h b (by simp)), ih]
      exact fun a ha => h a (List.mem_append_left _ ha)

theorem exists_isFirst (h : find p key l = some a) :
    ∃ pre post, l = pre ++ a :: post ∧ IsFirst p key pre a post := by
  induction l using List.reverseRecOn generalizing a with
  | nil => exact absurd h (by simp [find])
  | append_singleton l b ih =>
    rw [find_concat] at h
    by_cases hp : p b
    · cases hl : find p key l with
      | none =>
        -- nothing counted before
        simp only [keep, if_pos hp, hl, Option.some.injEq] at h
        have hnone := find_eq_none_iff.mp hl
        exact ⟨l, [], by rw [h], h ▸ hp, fun c hc hpc => absurd hpc (hnone c hc), by simp⟩
      | some c =>
        obtain ⟨pre, post, rfl, hfirst⟩ := ih hl
        simp only [keep, if_pos hp, hl] at h
        split_ifs at h with hlt
        · obtain rfl := Option.some.inj h
          exact ⟨_, [], rfl, hp, fun d hd hpd => lt_of_lt_of_le hlt (hfirst.le hd hpd), by simp⟩
        · obtain rfl := Option.some.inj h
          refine ⟨pre, post ++ [b], by simp, hfirst.counts, hfirst.lt_before, fun d hd hpd => ?_⟩
          rcases List.mem_append.mp hd with hd | hd
          · exact hfirst.le_after d hd hpd
          · exact List.mem_singleton.mp hd ▸ not_lt.mp hlt
    · rw [keep_of_not hp] at h
      obtain ⟨pre, post, rfl, hfirst⟩ := ih h
      refine ⟨pre, post ++ [b], by simp, hfirst.counts, hfirst.lt_before, fun d hd hpd => ?_⟩
      rcases List.mem_append.mp hd with hd | hd
      · exact hfirst.le_after d hd hpd
      · exact absurd hpd (List.mem_singleton.mp hd ▸ hp)

/-- Nothing else is found. -/
theorem find_of_isFirst (h : IsFirst p key pre a post) :
    find p key (pre ++ a :: post) = some a := by
  have hkeep : keep p key (find p key pre) a = some a := by
    cases hpre : find p key pre with
    | none => exact keep_none h.counts
    | some b =>
      obtain ⟨pre', post', rfl, hfirst⟩ := exists_isFirst hpre
      rw [keep_some h.counts, if_pos (h.lt_before b (by simp) hfirst.counts)]
  have hsplit : find p key (pre ++ a :: post) =
      post.foldl (keep p key) (keep p key (find p key pre) a) := by
    simp [find, List.foldl_append]
  rw [hsplit, hkeep, foldl_keep_some h.le_after]

theorem find_eq_some_iff : find p key l = some a ↔
    ∃ pre post, l = pre ++ a :: post ∧ IsFirst p key pre a post := by
  constructor
  · exact exists_isFirst
  · rintro ⟨pre, post, rfl, hfirst⟩
    exact find_of_isFirst hfirst

omit [DecidablePred p] in
/-- Where whatever has a key as small as one that counts does count, the first of the least that
count is the first of the least of all, if that counts. -/
theorem isFirst_iff_of_lower {q : α → Prop} (hq : ∀ a, p a → q a)
    (hlower : ∀ a b, p a → q b → key b ≤ key a → p b) :
    IsFirst p key pre a post ↔ p a ∧ IsFirst q key pre a post := by
  constructor
  · intro h
    refine ⟨h.counts, hq a h.counts, fun b hb hqb => ?_, fun b hb hqb => ?_⟩
    · by_contra hle
      exact hle (h.lt_before b hb (hlower a b h.counts hqb (not_lt.mp hle)))
    · by_contra hlt
      exact hlt (h.le_after b hb (hlower a b h.counts hqb (le_of_not_ge hlt)))
  · rintro ⟨ha, h⟩
    exact ⟨ha, fun b hb hpb => h.lt_before b hb (hq b hpb),
      fun b hb hpb => h.le_after b hb (hq b hpb)⟩

/-- The key that is found is the least of the keys that count. -/
theorem find_map_key_eq_some_iff {k : β} : (find p key l).map key = some k ↔
    (∃ a ∈ l, p a ∧ key a = k) ∧ ∀ b ∈ l, p b → k ≤ key b := by
  constructor
  · intro h
    obtain ⟨a, hfind, rfl⟩ := Option.map_eq_some_iff.mp h
    obtain ⟨pre, post, rfl, hfirst⟩ := exists_isFirst hfind
    exact ⟨⟨a, by simp, hfirst.counts, rfl⟩, fun b hb hpb => hfirst.le hb hpb⟩
  · rintro ⟨⟨a, ha, hpa, rfl⟩, hleast⟩
    cases hfind : find p key l with
    | none => exact absurd hpa (find_eq_none_iff.mp hfind a ha)
    | some b =>
      obtain ⟨pre, post, rfl, hfirst⟩ := exists_isFirst hfind
      exact congrArg some
        (le_antisymm (hfirst.le ha hpa) (hleast b (by simp) hfirst.counts))

/-- Neither the order of the list nor what does not count matters to the key. -/
theorem find_map_key_congr {l' : List α} (h : ∀ a, p a → (a ∈ l ↔ a ∈ l')) :
    (find p key l).map key = (find p key l').map key := by
  ext k
  rw [find_map_key_eq_some_iff, find_map_key_eq_some_iff]
  constructor
  · rintro ⟨⟨a, ha, hpa, hk⟩, hleast⟩
    exact ⟨⟨a, (h a hpa).mp ha, hpa, hk⟩, fun b hb hpb => hleast b ((h b hpb).mpr hb) hpb⟩
  · rintro ⟨⟨a, ha, hpa, hk⟩, hleast⟩
    exact ⟨⟨a, (h a hpa).mpr ha, hpa, hk⟩, fun b hb hpb => hleast b ((h b hpb).mp hb) hpb⟩

/-- Two places of a list are the same, or one comes before the other. -/
theorem split_cases (h : pre ++ a :: post = pre' ++ b :: post') :
    (pre = pre' ∧ a = b) ∨ (a ∈ pre' ∧ b ∈ post) ∨ (b ∈ pre ∧ a ∈ post') := by
  rcases List.append_eq_append_iff.mp h with ⟨mid, rfl, hmid⟩ | ⟨mid, rfl, hmid⟩
  · cases mid with
    | nil =>
      obtain ⟨rfl, -⟩ := List.cons.inj hmid
      exact .inl ⟨by simp, rfl⟩
    | cons c mid =>
      obtain ⟨rfl, rfl⟩ := List.cons.inj hmid
      exact .inr (.inl ⟨by simp, by simp⟩)
  · cases mid with
    | nil =>
      obtain ⟨rfl, -⟩ := List.cons.inj hmid
      exact .inl ⟨by simp, rfl⟩
    | cons c mid =>
      obtain ⟨rfl, rfl⟩ := List.cons.inj hmid
      exact .inr (.inr ⟨by simp, by simp⟩)

end FirstLeast
