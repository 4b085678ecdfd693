import Mathlib.Data.List.Nodup
import Mathlib.Logic.Function.Basic

/-!
# Values that are handed out once

A map from keys to values with a deadline. A value is put under a key and can be taken
from there once, up to its deadline; what was put there before is lost. The log of a run
numbers the values in the order they are put and says which of them were taken.

## Main definitions

* `Pending`, `Pending.put`, `Pending.take`, `Pending.remove` — the map
* `Pending.SameDeadlines` — two maps that hold something under the same keys, as long
* `Pending.Log` — what was put and taken
* `Pending.Log.Agrees` — the map holds what the log says, and nothing that was taken

## Main results

* `Pending.Log.Agrees.put`, `Pending.Log.Agrees.take`, `Pending.Log.Agrees.remove` — every
  operation keeps the two in agreement, so that nothing is taken twice
* `Pending.SameDeadlines.isSome_take` — such maps hand out something or nothing alike
-/

/-- Values by key. -/
abbrev Pending (κ α : Type*) := κ → Option α

namespace Pending

variable {κ α : Type*} [DecidableEq κ] (deadline : α → Int)

/-- Puts a value under a key and drops what is past its deadline. -/
def put (m : Pending κ α) (now : Int) (k : κ) (a : α) : Pending κ α :=
  Function.update (fun k' => (m k').filter fun a => now ≤ deadline a) k (some a)

/-- What is handed out under a key: nothing that is past its deadline. -/
def take (m : Pending κ α) (now : Int) (k : κ) : Option α :=
  (m k).filter fun a => now ≤ deadline a

/-- Drops what is under a key. -/
def remove (m : Pending κ α) (k : κ) : Pending κ α := Function.update m k none

variable {deadline} {m : Pending κ α} {now : Int} {k k' : κ} {a a' : α}

omit [DecidableEq κ] in
theorem take_eq_some_iff : m.take deadline now k = some a ↔ m k = some a ∧ now ≤ deadline a := by
  rw [take, Option.filter_eq_some_iff, decide_eq_true_iff]

/-- What is in the map after `put`: the new value under its key, and old ones elsewhere. -/
theorem eq_some_of_put (h : m.put deadline now k a k' = some a') :
    k' = k ∧ a' = a ∨ k' ≠ k ∧ m k' = some a' := by
  by_cases hk : k' = k
  · subst hk
    rw [put, Function.update_self] at h
    exact Or.inl ⟨rfl, (Option.some.inj h).symm⟩
  · rw [put, Function.update_of_ne hk, Option.filter_eq_some_iff] at h
    exact Or.inr ⟨hk, h.1⟩

theorem eq_some_of_remove (h : m.remove k k' = some a') : k' ≠ k ∧ m k' = some a' := by
  by_cases hk : k' = k
  · subst hk
    rw [remove, Function.update_self] at h
    exact absurd h (by simp)
  · rw [remove, Function.update_of_ne hk] at h
    exact ⟨hk, h⟩

/-! ### Two maps side by side -/

/-- Two maps that hold something under the same keys, up to the same deadlines. -/
def SameDeadlines (deadline : α → Int) (m m' : Pending κ α) : Prop :=
  ∀ k, (m k).map deadline = (m' k).map deadline

namespace SameDeadlines

variable {m' : Pending κ α}

omit [DecidableEq κ] in
/-- What is past its deadline is so in both. -/
theorem map_filter (h : SameDeadlines deadline m m') (now : Int) (k : κ) :
    ((m k).filter fun a => now ≤ deadline a).map deadline =
      ((m' k).filter fun a => now ≤ deadline a).map deadline := by
  have hfilter : ∀ o : Option α, (o.map deadline).filter (fun d => now ≤ d) =
      (o.filter fun a => now ≤ deadline a).map deadline := fun o => Option.filter_map
  rw [← hfilter, ← hfilter, h k]

theorem put (h : SameDeadlines deadline m m') (now : Int) (k : κ)
    (hd : deadline a = deadline a') :
    SameDeadlines deadline (m.put deadline now k a) (m'.put deadline now k a') := by
  intro k'
  by_cases hk : k' = k
  · subst hk
    rw [Pending.put, Pending.put, Function.update_self, Function.update_self, Option.map_some,
      Option.map_some, hd]
  · rw [Pending.put, Pending.put, Function.update_of_ne hk, Function.update_of_ne hk]
    exact h.map_filter now k'

theorem remove (h : SameDeadlines deadline m m') (k : κ) :
    SameDeadlines deadline (m.remove k) (m'.remove k) := by
  intro k'
  by_cases hk : k' = k
  · subst hk
    rw [Pending.remove, Pending.remove, Function.update_self, Function.update_self]
  · rw [Pending.remove, Pending.remove, Function.update_of_ne hk, Function.update_of_ne hk]
    exact h k'

omit [DecidableEq κ] in
theorem isSome_take (h : SameDeadlines deadline m m') (now : Int) (k : κ) :
    (m.take deadline now k).isSome = (m'.take deadline now k).isSome := by
  have hmap := congrArg Option.isSome (h.map_filter now k)
  rwa [Option.isSome_map, Option.isSome_map] at hmap

end SameDeadlines

end Pending

/-- What was put and taken in a run. A value is known by its place in the list of what was
put; what is written down about it there is up to whoever keeps the log. -/
structure Pending.Log (κ β : Type*) where
  issued : List β := []
  /-- The value last put under a key. -/
  held : κ → Nat := fun _ => 0
  /-- What was taken, and when; the latest first. -/
  taken : List (Nat × Int) := []

namespace Pending.Log

variable {κ α β : Type*} [DecidableEq κ]

/-- A value is put. -/
def put (l : Log κ β) (k : κ) (b : β) : Log κ β :=
  { l with
    issued := l.issued ++ [b]
    held := Function.update l.held k l.issued.length }

/-- The value under a key is taken. -/
def take (l : Log κ β) (k : κ) (now : Int) : Log κ β :=
  { l with taken := (l.held k, now) :: l.taken }

/-- What is in the map is in the log, with an entry that `R` relates to it, under no other
key and not taken. -/
structure Agrees (R : α → β → Prop) (m : Pending κ α) (l : Log κ β) : Prop where
  of_live : ∀ k a, m k = some a → ∃ b, l.issued[l.held k]? = some b ∧ R a b
  distinct : ∀ k k' a a', m k = some a → m k' = some a' → l.held k = l.held k' → k = k'
  unspent : ∀ k a, m k = some a → l.held k ∉ l.taken.map Prod.fst
  known : ∀ n ∈ l.taken.map Prod.fst, n < l.issued.length
  nodup : (l.taken.map Prod.fst).Nodup

variable {R : α → β → Prop} {m : Pending κ α} {l : Log κ β} {deadline : α → Int}
variable {now : Int} {k : κ} {a : α} {b : β} {n : Nat}

omit [DecidableEq κ] in
theorem agrees_nil (R : α → β → Prop) : Agrees R (fun _ : κ => none) {} where
  of_live k a h := absurd h (by simp)
  distinct k k' a a' h := absurd h (by simp)
  unspent k a h := absurd h (by simp)
  known n h := absurd h (by simp)
  nodup := List.nodup_nil

/-- What was put stays in the log. -/
theorem issued_put (h : l.issued[n]? = some b) (k : κ) (b' : β) :
    (l.put k b').issued[n]? = some b := by
  obtain ⟨hn, -⟩ := List.getElem?_eq_some_iff.mp h
  exact (List.getElem?_append_left hn).trans h

omit [DecidableEq κ] in
theorem Agrees.lt (hl : Agrees R m l) (h : m k = some a) : l.held k < l.issued.length := by
  obtain ⟨b, hb, -⟩ := hl.of_live k a h
  exact (List.getElem?_eq_some_iff.mp hb).1

theorem Agrees.put (hl : Agrees R m l) (hR : R a b) (now : Int) (k : κ) :
    Agrees R (m.put deadline now k a) (l.put k b) := by
  have hself : (l.put k b).held k = l.issued.length := Function.update_self ..
  have hother : ∀ k', k' ≠ k → (l.put k b).held k' = l.held k' := fun k' hk =>
    Function.update_of_ne hk ..
  -- under `k` the new value, under any other key what was there
  constructor
  · intro k' a' h
    rcases Pending.eq_some_of_put h with ⟨rfl, rfl⟩ | ⟨hk, hold⟩
    · exact ⟨b, by rw [hself, put, List.getElem?_concat_length], hR⟩
    · obtain ⟨b', hb', hR'⟩ := hl.of_live k' a' hold
      exact ⟨b', by rw [hother k' hk]; exact issued_put hb' k b, hR'⟩
  · intro k' k'' a' a'' h h' heq
    rcases Pending.eq_some_of_put h with ⟨rfl, -⟩ | ⟨hk, hold⟩ <;>
      rcases Pending.eq_some_of_put h' with ⟨rfl, -⟩ | ⟨hk', hold'⟩
    · rfl
    · -- an old value is not the new one
      rw [hself, hother k'' hk'] at heq
      exact absurd heq (Nat.ne_of_gt (hl.lt hold'))
    · rw [hself, hother k' hk] at heq
      exact absurd heq (Nat.ne_of_lt (hl.lt hold))
    · rw [hother k' hk, hother k'' hk'] at heq
      exact hl.distinct k' k'' a' a'' hold hold' heq
  · intro k' a' h
    rcases Pending.eq_some_of_put h with ⟨rfl, -⟩ | ⟨hk, hold⟩
    · rw [hself]
      exact fun hmem => Nat.lt_irrefl _ (hl.known _ hmem)
    · rw [hother k' hk]
      exact hl.unspent k' a' hold
  · intro n hn
    rw [Log.put, List.length_append]
    exact Nat.lt_add_right _ (hl.known n hn)
  · exact hl.nodup

theorem Agrees.remove (hl : Agrees R m l) (k : κ) : Agrees R (m.remove k) l where
  of_live k' a' h := hl.of_live k' a' (Pending.eq_some_of_remove h).2
  distinct k' k'' a' a'' h h' :=
    hl.distinct k' k'' a' a'' (Pending.eq_some_of_remove h).2 (Pending.eq_some_of_remove h').2
  unspent k' a' h := hl.unspent k' a' (Pending.eq_some_of_remove h).2
  known := hl.known
  nodup := hl.nodup

/-- A value is taken from the map. -/
theorem Agrees.take (hl : Agrees R m l) (h : m k = some a) (now : Int) :
    Agrees R (m.remove k) (l.take k now) where
  of_live k' a' h' := hl.of_live k' a' (Pending.eq_some_of_remove h').2
  distinct := (hl.remove k).distinct
  unspent k' a' h' := by
    obtain ⟨hk, hold⟩ := Pending.eq_some_of_remove h'
    rw [Log.take, List.map_cons, List.mem_cons, not_or]
    exact ⟨fun heq => hk (hl.distinct k' k a' a hold h heq), hl.unspent k' a' hold⟩
  known n hn := by
    rcases List.mem_cons.mp hn with rfl | hn
    · exact hl.lt h
    · exact hl.known n hn
  nodup := List.nodup_cons.mpr ⟨hl.unspent k a h, hl.nodup⟩

end Pending.Log
