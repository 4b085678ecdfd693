import Mathlib.Data.List.DropRight

/-!
# Stripping both ends

Elements of a kind are removed from both ends of a list, such as white space from those of a
text. The parts of a list between separators are stripped as if the list had been stripped first.

## Main definitions

* `strip` — removing elements from both ends

## Main results

* `strip_append` — what is stripped makes no difference
* `exists_strip` — and nothing else is
* `strip_eq_iff` — when a list is what another is stripped to
* `any_splitOn_strip` — the parts of a stripped list
* `strip_strip` — a stripped list is left as it is
* `count_strip` — what is kept loses no element of another kind
-/

variable {α : Type*} {p : α → Bool} {s m u v : List α} {a sep : α}

/-- Removes elements that meet a condition from both ends. -/
def strip (p : α → Bool) (s : List α) : List α := (s.dropWhile p).rdropWhile p

theorem strip_cons_of_pos (h : p a = true) : strip p (a :: s) = strip p s := by
  rw [strip, List.dropWhile_cons_of_pos h]
  rfl

theorem strip_concat_of_pos (h : p a = true) : strip p (s ++ [a]) = strip p s := by
  unfold strip
  induction s with
  | nil => simp [h]
  | cons b s ih =>
    by_cases hb : p b = true
    · rw [List.cons_append, List.dropWhile_cons_of_pos hb, List.dropWhile_cons_of_pos hb]
      exact ih
    · rw [List.cons_append, List.dropWhile_cons_of_neg hb, List.dropWhile_cons_of_neg hb,
        ← List.cons_append, List.rdropWhile_concat_pos _ _ _ h]

/-- What is stripped makes no difference. -/
theorem strip_append (hu : ∀ a ∈ u, p a = true) (hv : ∀ a ∈ v, p a = true) :
    strip p (u ++ m ++ v) = strip p m := by
  have hright : ∀ s, strip p (s ++ v) = strip p s := by
    induction v using List.reverseRecOn with
    | nil => simp
    | append_singleton v a ih =>
      intro s
      rw [← List.append_assoc, strip_concat_of_pos (hv a (by simp))]
      exact ih (fun b hb => hv b (List.mem_append_left _ hb)) s
  rw [hright]
  clear hright hv
  induction u with
  | nil => rfl
  | cons a u ih =>
    rw [List.cons_append, strip_cons_of_pos (hu a List.mem_cons_self)]
    exact ih fun b hb => hu b (List.mem_cons_of_mem _ hb)

/-- Nothing else is stripped. -/
theorem exists_strip (p : α → Bool) (s : List α) : ∃ u v, s = u ++ strip p s ++ v ∧
    (∀ a ∈ u, p a = true) ∧ ∀ a ∈ v, p a = true := by
  refine ⟨s.takeWhile p, (s.dropWhile p).rtakeWhile p, ?_, fun a => List.mem_takeWhile_imp,
    fun a => List.mem_rtakeWhile_imp⟩
  rw [strip, List.append_assoc, List.rdropWhile_append_rtakeWhile, List.takeWhile_append_dropWhile]

theorem strip_eq_nil_iff : strip p s = [] ↔ ∀ a ∈ s, p a = true := by
  constructor
  · intro h
    obtain ⟨u, v, hs, hu, hv⟩ := exists_strip p s
    rw [h, List.append_nil] at hs
    rw [hs]
    exact fun a ha => (List.mem_append.mp ha).elim (hu a) (hv a)
  · intro h
    have hall := strip_append (m := []) h (v := []) (by simp)
    simpa [strip] using hall

/-- A list whose ends are not to be removed stays as it is. -/
theorem strip_eq_self (hhead : ∀ a ∈ m.head?, p a = false)
    (hlast : ∀ a ∈ m.getLast?, p a = false) : strip p m = m := by
  have hdrop : m.dropWhile p = m := by
    cases m with
    | nil => rfl
    | cons a m => exact List.dropWhile_cons_of_neg (by simpa using hhead a rfl)
  rw [strip, hdrop, List.rdropWhile_eq_self_iff]
  intro hm
  have := hlast (m.getLast hm) (List.getLast?_eq_some_getLast hm)
  simpa using this

/-- A list with such ends is what another is stripped to if it stands between elements that are
removed. -/
theorem strip_eq_iff (hhead : ∀ a ∈ m.head?, p a = false)
    (hlast : ∀ a ∈ m.getLast?, p a = false) : strip p s = m ↔
      ∃ u v, s = u ++ m ++ v ∧ (∀ a ∈ u, p a = true) ∧ ∀ a ∈ v, p a = true := by
  constructor
  · rintro rfl
    exact exists_strip p s
  · rintro ⟨u, v, rfl, hu, hv⟩
    rw [strip_append hu hv, strip_eq_self hhead hlast]

/-- What is left begins with an element that is not removed. -/
theorem head?_strip (h : (strip p s).head? = some a) : p a = false := by
  have hprefix : strip p s <+: s.dropWhile p := List.rdropWhile_prefix p (s.dropWhile p)
  have hhead : (s.dropWhile p).head? = some a := by
    obtain ⟨r, hr⟩ := hprefix
    rw [← hr, List.head?_append, h, Option.some_or]
  simpa [hhead] using List.head?_dropWhile_not p s

/-- And it ends with one. -/
theorem getLast?_strip (h : (strip p s).getLast? = some a) : p a = false := by
  have hne : strip p s ≠ [] := by
    rintro hnil
    rw [hnil] at h
    exact absurd h (by simp)
  have hlast := List.rdropWhile_last_not p (s.dropWhile p) hne
  rw [List.getLast?_eq_some_getLast hne] at h
  rw [← Option.some.inj h]
  simpa [strip] using hlast

@[simp] theorem strip_strip : strip p (strip p s) = strip p s :=
  strip_eq_self (fun _ h => head?_strip h) fun _ h => getLast?_strip h

theorem mem_of_mem_strip (h : a ∈ strip p s) : a ∈ s := by
  obtain ⟨u, v, hs, -, -⟩ := exists_strip p s
  rw [hs]
  exact List.mem_append_left _ (List.mem_append_right _ h)

/-- What is not removed is still there, as often as it was. -/
theorem count_strip [BEq α] [LawfulBEq α] (h : p a = false) : (strip p s).count a = s.count a := by
  obtain ⟨u, v, hs, hu, hv⟩ := exists_strip p s
  have hnot : ∀ w : List α, (∀ b ∈ w, p b = true) → w.count a = 0 := fun w hw =>
    List.count_eq_zero.mpr fun hmem => absurd (hw a hmem) (by simp [h])
  conv_rhs => rw [hs, List.count_append, List.count_append, hnot u hu, hnot v hv]
  rw [Nat.zero_add, Nat.add_zero]

/-- Nothing is removed from an element on that is not. -/
theorem dropWhile_append_cons (h : p a = false) (s v : List α) :
    (s ++ a :: v).dropWhile p = s.dropWhile p ++ a :: v := by
  induction s with
  | nil => exact List.dropWhile_cons_of_neg (by simp [h])
  | cons b s ih =>
    by_cases hb : p b = true
    · rw [List.cons_append, List.dropWhile_cons_of_pos hb, List.dropWhile_cons_of_pos hb, ih]
    · rw [List.cons_append, List.dropWhile_cons_of_neg hb, List.dropWhile_cons_of_neg hb,
        List.cons_append]

/-- Nothing is kept from an element on that is not. -/
theorem takeWhile_append_cons (h : p a = false) (s v : List α) :
    (s ++ a :: v).takeWhile p = s.takeWhile p := by
  induction s with
  | nil => exact List.takeWhile_cons_of_neg (by simp [h])
  | cons b s ih =>
    by_cases hb : p b = true
    · rw [List.cons_append, List.takeWhile_cons_of_pos hb, List.takeWhile_cons_of_pos hb, ih]
    · rw [List.cons_append, List.takeWhile_cons_of_neg hb, List.takeWhile_cons_of_neg hb]

/-- Nothing is removed in front of an element that is not. -/
theorem rdropWhile_append_of_last (h : s.getLast? = some a) (ha : p a = false) (v : List α) :
    (s ++ v).rdropWhile p = s ++ v.rdropWhile p := by
  induction v using List.reverseRecOn with
  | nil =>
    rw [List.append_nil, List.rdropWhile_nil, List.append_nil, List.rdropWhile_eq_self_iff]
    intro hs
    rw [List.getLast?_eq_some_getLast hs] at h
    simp [Option.some.inj h, ha]
  | append_singleton v b ih =>
    rw [← List.append_assoc]
    by_cases hb : p b = true
    · rw [List.rdropWhile_concat_pos _ _ _ hb, List.rdropWhile_concat_pos _ _ _ hb, ih]
    · rw [List.rdropWhile_concat_neg _ _ _ hb, List.rdropWhile_concat_neg _ _ _ hb,
        List.append_assoc]

/-! ### Parts -/

variable [BEq α] [LawfulBEq α] {f : List α → Bool}

omit [LawfulBEq α] in
/-- What is in a part is in the list. -/
theorem mem_of_mem_splitOn {q : List α} (hq : q ∈ s.splitOn sep) (ha : a ∈ q) : a ∈ s := by
  induction s generalizing q with
  | nil =>
    obtain rfl := List.mem_singleton.mp hq
    exact ha
  | cons b s ih =>
    rw [List.splitOn_cons_eq_if_modifyHead] at hq
    split_ifs at hq
    · rcases List.mem_cons.mp hq with rfl | hq
      · exact absurd ha List.not_mem_nil
      · exact List.mem_cons_of_mem _ (ih hq ha)
    · cases hs : s.splitOn sep with
      | nil => simp [hs] at hq
      | cons r rs =>
        rw [hs, List.modifyHead_cons] at hq
        rcases List.mem_cons.mp hq with rfl | hq
        · rcases List.mem_cons.mp ha with rfl | ha
          · exact List.mem_cons_self
          · exact List.mem_cons_of_mem _ (ih (hs ▸ List.mem_cons_self) ha)
        · exact List.mem_cons_of_mem _ (ih (hs ▸ List.mem_cons_of_mem _ hq) ha)

theorem any_splitOn_cons (hsep : a ≠ sep) (hf : ∀ s, f (a :: s) = f s) :
    ((a :: s).splitOn sep).any f = (s.splitOn sep).any f := by
  rw [List.splitOn_cons_eq_if_modifyHead, if_neg (by simpa using hsep)]
  cases s.splitOn sep with
  | nil => rfl
  | cons q qs => simp [hf]

/-- What is added at the end is added to the last part. -/
theorem splitOn_concat (hsep : a ≠ sep) (s : List α) : ∃ parts last,
    s.splitOn sep = parts ++ [last] ∧ (s ++ [a]).splitOn sep = parts ++ [last ++ [a]] := by
  induction s with
  | nil => exact ⟨[], [], rfl, List.splitOn_eq_singleton (by simpa using Ne.symm hsep)⟩
  | cons b s ih =>
    obtain ⟨parts, last, hs, hs'⟩ := ih
    simp only [List.cons_append, List.splitOn_cons_eq_if_modifyHead, hs, hs']
    split_ifs with hb
    · exact ⟨[] :: parts, last, rfl, rfl⟩
    · cases parts with
      | nil => exact ⟨[], b :: last, rfl, rfl⟩
      | cons q parts => exact ⟨(b :: q) :: parts, last, rfl, rfl⟩

theorem any_splitOn_concat (hsep : a ≠ sep) (hf : ∀ s, f (s ++ [a]) = f s) :
    ((s ++ [a]).splitOn sep).any f = (s.splitOn sep).any f := by
  obtain ⟨parts, last, hs, hs'⟩ := splitOn_concat hsep s
  simp [hs, hs', hf]

/-- To strip a list before it is split makes no difference where the parts are stripped. -/
theorem any_splitOn_strip (hsep : p sep = false) (f : List α → Bool) (s : List α) :
    ((strip p s).splitOn sep).any (fun q => f (strip p q)) =
      (s.splitOn sep).any fun q => f (strip p q) := by
  have hne : ∀ {a}, p a = true → a ≠ sep := by
    rintro a ha rfl
    simp [hsep] at ha
  obtain ⟨u, v, hs, hu, hv⟩ := exists_strip p s
  have hright : ∀ t, ((t ++ v).splitOn sep).any (fun q => f (strip p q)) =
      (t.splitOn sep).any fun q => f (strip p q) := by
    clear hs
    induction v using List.reverseRecOn with
    | nil => simp
    | append_singleton v a ih =>
      intro t
      have ha := hv a (by simp)
      rw [← List.append_assoc, any_splitOn_concat (hne ha) fun q => by rw [strip_concat_of_pos ha]]
      exact ih (fun b hb => hv b (List.mem_append_left _ hb)) t
  have hleft : ∀ t, ((u ++ t).splitOn sep).any (fun q => f (strip p q)) =
      (t.splitOn sep).any fun q => f (strip p q) := by
    clear hs
    induction u with
    | nil => simp
    | cons a u ih =>
      intro t
      have ha := hu a List.mem_cons_self
      rw [List.cons_append, any_splitOn_cons (hne ha) fun q => by rw [strip_cons_of_pos ha]]
      exact ih (fun b hb => hu b (List.mem_cons_of_mem _ hb)) t
  conv_rhs => rw [hs]
  rw [hright, hleft]
