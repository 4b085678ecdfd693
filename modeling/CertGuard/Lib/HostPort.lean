import Mathlib.Data.List.TakeWhile

/-!
# Hosts with ports

A host and a port are written with a colon between them, and the host in brackets where it has a
colon of its own.

## Main definitions

* `HostPort.Gives` — a text is a host and a port
* `HostPort.join` — writing them
* `HostPort.split` — reading them

## Main results

* `HostPort.split_eq_some_iff` — what is read is what the text gives
* `HostPort.split_join` — what is written is read
-/

namespace HostPort

variable {s h t : List Char}

/-- A text that has no brackets. -/
def Bare (s : List Char) : Prop := '[' ∉ s ∧ ']' ∉ s

instance (s : List Char) : Decidable (Bare s) := inferInstanceAs (Decidable (_ ∧ _))

/-- The text is `host:port`, or `[host]:port`. -/
structure Gives (s h t : List Char) : Prop where
  host_bare : Bare h
  port_bare : Bare t
  no_colon : ':' ∉ t
  form : s = h ++ ':' :: t ∧ ':' ∉ h ∨ s = '[' :: h ++ ']' :: ':' :: t

/-- `net.JoinHostPort`. -/
def join (h t : List Char) : List Char :=
  if ':' ∈ h then '[' :: h ++ ']' :: ':' :: t else h ++ ':' :: t

/-- What is before the last of some character, and what is after it. -/
def splitLast (c : Char) : List Char → Option (List Char × List Char)
  | [] => none
  | x :: s =>
    match splitLast c s with
    | some (b, a) => some (x :: b, a)
    | none => if x = c then some ([], s) else none

/-- `net.SplitHostPort`; `none` is an error. -/
def split (s : List Char) : Option (List Char × List Char) :=
  -- the port starts after the last colon
  match splitLast ':' s with
  | none => none
  | some (before, port) =>
    if s.head? = some '[' then
      -- the first closing bracket has to be just before it
      let host := s.tail.takeWhile (· ≠ ']')
      if before ≠ '[' :: host ++ [']'] then none
      else if '[' ∈ s.tail ∨ ']' ∈ port then none
      else some (host, port)
    else if ':' ∈ before then none
    else if '[' ∈ s ∨ ']' ∈ s then none
    else some (before, port)

theorem Gives.ne_nil (hs : Gives s h t) : s ≠ [] := by
  rcases hs.form with ⟨rfl, -⟩ | rfl <;> simp

/-! ### Reading -/

theorem splitLast_eq_none_iff {c : Char} : splitLast c s = none ↔ c ∉ s := by
  induction s with
  | nil => simp [splitLast]
  | cons x s ih =>
    simp only [splitLast, List.mem_cons, not_or]
    cases h : splitLast c s with
    | none =>
      rw [h] at ih
      simp [ih.mp rfl, eq_comm]
    | some r =>
      have hmem : c ∈ s := by
        by_contra hnot
        exact absurd (ih.mpr hnot) (by simp [h])
      simp [hmem]

theorem splitLast_eq_some_iff {c : Char} {b a : List Char} :
    splitLast c s = some (b, a) ↔ s = b ++ c :: a ∧ c ∉ a := by
  induction s generalizing b a with
  | nil => simp [splitLast]
  | cons x s ih =>
    simp only [splitLast]
    cases h : splitLast c s with
    | none =>
      have hnot := splitLast_eq_none_iff.mp h
      constructor
      · intro hsome
        split_ifs at hsome with hx
        obtain ⟨rfl, rfl⟩ : [] = b ∧ s = a := by simpa using hsome
        exact ⟨by rw [hx, List.nil_append], hnot⟩
      · rintro ⟨hs, -⟩
        cases b with
        | nil =>
          obtain ⟨rfl, rfl⟩ : x = c ∧ s = a := by simpa using hs
          simp
        | cons y b =>
          obtain ⟨rfl, rfl⟩ : x = y ∧ s = b ++ c :: a := by simpa using hs
          exact absurd (by simp) hnot
    | some r =>
      obtain ⟨b', a'⟩ := r
      have hs := (ih.mp h)
      constructor
      · intro hsome
        obtain ⟨rfl, rfl⟩ : x :: b' = b ∧ a' = a := by simpa using hsome
        exact ⟨by rw [hs.1, List.cons_append], hs.2⟩
      · rintro ⟨hsame, hnot⟩
        cases b with
        | nil =>
          obtain ⟨rfl, rfl⟩ : x = c ∧ s = a := by simpa using hsame
          exact absurd h (by rw [splitLast_eq_none_iff.mpr hnot]; simp)
        | cons y b =>
          obtain ⟨rfl, rfl⟩ : x = y ∧ s = b ++ c :: a := by simpa using hsame
          obtain ⟨rfl, rfl⟩ : b' = b ∧ a' = a := by simpa [h] using ih.mpr ⟨rfl, hnot⟩
          rfl

/-- What is read is what the text gives. -/
theorem split_eq_some_iff : split s = some (h, t) ↔ Gives s h t := by
  constructor
  · intro hsplit
    unfold split at hsplit
    cases hlast : splitLast ':' s with
    | none => simp [hlast] at hsplit
    | some r =>
      obtain ⟨before, port⟩ := r
      obtain ⟨hs, hport⟩ := splitLast_eq_some_iff.mp hlast
      simp only [hlast] at hsplit
      split_ifs at hsplit with hopen hend hother hcolon hbare
      · -- in brackets
        obtain ⟨rfl, rfl⟩ : s.tail.takeWhile (· ≠ ']') = h ∧ port = t := by simpa using hsplit
        rw [not_or] at hother
        have hshape : s = '[' :: s.tail.takeWhile (· ≠ ']') ++ ']' :: ':' :: port := by
          refine hs.trans ?_
          rw [not_not.mp hend]
          simp
        have hopenless : '[' ∉ s.tail.takeWhile (· ≠ ']') := fun hmem =>
          hother.1 ((List.takeWhile_prefix _).subset hmem)
        refine ⟨⟨hopenless, fun hmem => ?_⟩, ⟨fun hmem => ?_, hother.2⟩, hport, .inr hshape⟩
        · simpa using List.mem_takeWhile_imp hmem
        · refine hother.1 ?_
          rw [hshape]
          simp [hmem]
      · obtain ⟨rfl, rfl⟩ : before = h ∧ port = t := by simpa using hsplit
        rw [not_or] at hbare
        rw [hs] at hbare
        simp only [List.mem_append, List.mem_cons, not_or] at hbare
        exact ⟨⟨hbare.1.1, hbare.2.1⟩, ⟨hbare.1.2.2, hbare.2.2.2⟩, hport, .inl ⟨hs, hcolon⟩⟩
  · rintro ⟨hbare, tbare, hcolon, hform⟩
    rcases hform with ⟨rfl, hnot⟩ | rfl
    · have hlast : splitLast ':' (h ++ ':' :: t) = some (h, t) :=
        splitLast_eq_some_iff.mpr ⟨rfl, hcolon⟩
      have hhead : (h ++ ':' :: t).head? ≠ some '[' := by
        cases h with
        | nil => simp
        | cons c h => exact fun heq => hbare.1 (by simp [Option.some.inj heq])
      have hopen : '[' ∉ h ++ ':' :: t := by simp [hbare.1, tbare.1]
      have hclose : ']' ∉ h ++ ':' :: t := by simp [hbare.2, tbare.2]
      simp only [split, hlast, if_neg hhead, if_neg hnot, hopen, hclose, or_self, if_false]
    · have hlast : splitLast ':' ('[' :: h ++ ']' :: ':' :: t) = some ('[' :: h ++ [']'], t) :=
        splitLast_eq_some_iff.mpr ⟨by simp, hcolon⟩
      have htail : (('[' :: h ++ ']' :: ':' :: t).tail.takeWhile (· ≠ ']')) = h := by
        have hkeep : ∀ c ∈ h, (decide (c ≠ ']')) = true := fun c hc =>
          decide_eq_true fun heq => hbare.2 (heq ▸ hc)
        rw [List.cons_append, List.tail_cons, List.takeWhile_append_of_pos hkeep]
        simp
      have hopen : '[' ∉ ('[' :: h ++ ']' :: ':' :: t).tail := by simp [hbare.1, tbare.1]
      simp only [split, hlast, htail]
      simp [hbare.1, tbare.1, tbare.2]

/-- What is written is read. -/
theorem split_join (hh : Bare h) (ht : Bare t) (hcolon : ':' ∉ t) :
    split (join h t) = some (h, t) := by
  refine split_eq_some_iff.mpr ⟨hh, ht, hcolon, ?_⟩
  unfold join
  split_ifs with hmem
  · exact .inr rfl
  · exact .inl ⟨rfl, hmem⟩

end HostPort
