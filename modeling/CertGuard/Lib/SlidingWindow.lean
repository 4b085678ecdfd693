import Mathlib.Algebra.Order.Group.Defs
import Mathlib.Data.List.Basic
import Mathlib.Data.List.Induction

/-!
# Sliding windows

A rule for how often a client may call: a call is admitted when fewer than `limit` calls of its
client were admitted in the window of time that ends with it. The rule looks at the whole past;
what an implementation keeps of it is its own affair.

## Main definitions

* `SlidingWindow.Call`, `SlidingWindow.Entry` — a call, and a call with its answer
* `SlidingWindow.admittedTimes` — when a client's calls were admitted
* `SlidingWindow.admits` — the rule
* `SlidingWindow.entries` — the answers to a list of calls, given what came before

## Main results

* `SlidingWindow.entries_congr` — answers depend on what was admitted only
* `SlidingWindow.entries_filter` — each client is answered as if it were alone
* `SlidingWindow.entries_concat_of_not_admits` — and as if denied calls had not been made
* `SlidingWindow.length_admitted_Ioc_le`, `SlidingWindow.length_admitted_Ico_le` — no window of
  time, whichever of its ends it includes, holds more than `limit` admitted calls
-/

namespace SlidingWindow

/-- A client calls at an instant. -/
structure Call (κ τ : Type*) where
  key : κ
  time : τ
  deriving DecidableEq, Repr

/-- A call and its answer. -/
structure Entry (κ τ : Type*) extends Call κ τ where
  admitted : Bool
  deriving DecidableEq, Repr

variable {κ τ : Type*} [DecidableEq κ]

/-- When the calls of `key` were admitted. -/
def admittedTimes (past : List (Entry κ τ)) (key : κ) : List τ :=
  (past.filter fun e => e.admitted ∧ e.key = key).map fun e => e.time

@[simp] theorem admittedTimes_nil (key : κ) : admittedTimes ([] : List (Entry κ τ)) key = [] := rfl

theorem admittedTimes_append (past past' : List (Entry κ τ)) (key : κ) :
    admittedTimes (past ++ past') key = admittedTimes past key ++ admittedTimes past' key := by
  simp [admittedTimes]

theorem admittedTimes_singleton (e : Entry κ τ) (key : κ) :
    admittedTimes [e] key = if e.admitted ∧ e.key = key then [e.time] else [] := by
  by_cases h : e.admitted ∧ e.key = key <;> simp [admittedTimes, h]

theorem exists_of_mem_admittedTimes {past : List (Entry κ τ)} {key : κ} {t : τ}
    (h : t ∈ admittedTimes past key) :
    ∃ e ∈ past, e.admitted = true ∧ e.key = key ∧ e.time = t := by
  obtain ⟨e, he, rfl⟩ := List.mem_map.mp h
  have hmem := List.mem_filter.mp he
  simp only [decide_eq_true_eq] at hmem
  exact ⟨e, hmem.1, hmem.2.1, hmem.2.2, rfl⟩

variable [AddCommGroup τ] [LinearOrder τ]

section Rule

variable (limit : ℕ) (window : τ)

/-- Fewer than `limit` calls of this client were admitted in the window that ends now. -/
def admits (past : List (Entry κ τ)) (c : Call κ τ) : Prop :=
  ((admittedTimes past c.key).filter fun t => c.time - window < t).length < limit

instance (past : List (Entry κ τ)) (c : Call κ τ) : Decidable (admits limit window past c) :=
  inferInstanceAs (Decidable (_ < _))

/-- A call as it is answered after `past`. -/
def entry (past : List (Entry κ τ)) (c : Call κ τ) : Entry κ τ where
  toCall := c
  admitted := admits limit window past c

/-- The calls, each answered after those before it. -/
def entries (past : List (Entry κ τ)) : List (Call κ τ) → List (Entry κ τ)
  | [] => []
  | c :: cs => entry limit window past c :: entries (past ++ [entry limit window past c]) cs

end Rule

variable {limit : ℕ} {window : τ} {past past' : List (Entry κ τ)} {calls : List (Call κ τ)}

theorem entries_append (calls' : List (Call κ τ)) :
    entries limit window past (calls ++ calls') =
      entries limit window past calls ++
        entries limit window (past ++ entries limit window past calls) calls' := by
  induction calls generalizing past with
  | nil => simp [entries]
  | cons c cs ih => simp [entries, ih]

@[simp] theorem map_toCall_entries :
    (entries limit window past calls).map Entry.toCall = calls := by
  induction calls generalizing past with
  | nil => rfl
  | cons c cs ih => simp [entries, entry, ih]

theorem toCall_mem_of_mem_entries {e : Entry κ τ} (h : e ∈ entries limit window past calls) :
    e.toCall ∈ calls := by
  have hmem := List.mem_map_of_mem (f := Entry.toCall) h
  rwa [map_toCall_entries] at hmem

theorem entry_congr {c : Call κ τ} (h : admittedTimes past c.key = admittedTimes past' c.key) :
    entry limit window past c = entry limit window past' c := by
  have hiff : admits limit window past c ↔ admits limit window past' c := by
    rw [admits, admits, h]
  simp only [entry, decide_eq_decide.mpr hiff]

/-- Of the past, only what was admitted counts. -/
theorem entries_congr (h : ∀ key, admittedTimes past key = admittedTimes past' key) :
    entries limit window past calls = entries limit window past' calls := by
  induction calls generalizing past past' with
  | nil => rfl
  | cons c cs ih =>
    rw [entries, entries, entry_congr (h c.key), ih]
    intro key
    rw [admittedTimes_append, admittedTimes_append, h key]

/-- The same for what was admitted of one client, when only that client calls. -/
theorem entries_congr_of_key {key : κ} (h : admittedTimes past key = admittedTimes past' key)
    (hkey : ∀ c ∈ calls, c.key = key) :
    entries limit window past calls = entries limit window past' calls := by
  induction calls generalizing past past' with
  | nil => rfl
  | cons c cs ih =>
    have hc : c.key = key := hkey c (by simp)
    rw [entries, entries, entry_congr (hc ▸ h), ih]
    · rw [admittedTimes_append, admittedTimes_append, h]
    · exact fun d hd => hkey d (List.mem_cons_of_mem _ hd)

/-- A client is answered as if no other client called. -/
theorem entries_filter (key : κ) :
    (entries limit window past calls).filter (fun e => e.key = key) =
      entries limit window past (calls.filter fun c => c.key = key) := by
  induction calls generalizing past with
  | nil => rfl
  | cons c cs ih =>
    by_cases hc : c.key = key
    · have hentry : (entry limit window past c).key = key := hc
      simp [entries, hc, hentry, ih]
    · have hentry : (entry limit window past c).key ≠ key := hc
      rw [entries, List.filter_cons_of_neg (by simpa using hentry),
        List.filter_cons_of_neg (by simpa using hc), ih]
      refine entries_congr_of_key (?_ : admittedTimes _ key = admittedTimes _ key) fun d hd => by
        simpa using (List.mem_filter.mp hd).2
      simp [admittedTimes_append, admittedTimes_singleton, hentry]

/-- A denied call leaves no trace in the answers after it. -/
theorem entries_concat_of_not_admits {c : Call κ τ} (h : ¬ admits limit window past c) :
    entries limit window (past ++ [entry limit window past c]) calls =
      entries limit window past calls := by
  refine entries_congr fun key => ?_
  simp [admittedTimes_append, admittedTimes_singleton, entry, h]

omit [AddCommGroup τ] in
/-- What has left the window now does not count later. -/
theorem filter_lt_filter_lt {times : List τ} {cutoff cutoff' : τ} (h : cutoff ≤ cutoff') :
    (times.filter fun t => cutoff < t).filter (fun t => cutoff' < t) =
      times.filter fun t => cutoff' < t := by
  rw [List.filter_filter]
  refine List.filter_congr fun t _ => ?_
  rw [Bool.and_eq_left_iff_imp, decide_eq_true_eq, decide_eq_true_eq]
  exact h.trans_lt

omit [DecidableEq κ] [AddCommGroup τ] in
theorem time_le_of_mem_cons {c : Call κ τ} (hord : ((c :: calls).map Call.time).Pairwise (· ≤ ·)) :
    ∀ d ∈ c :: calls, c.time ≤ d.time := by
  intro d hd
  rcases List.mem_cons.mp hd with rfl | hd
  · exact le_rfl
  · exact (List.pairwise_cons.mp hord).1 _ (List.mem_map_of_mem hd)

/-! ### How many are admitted -/

/-- What a further call adds to the admitted calls of `key`. -/
theorem admittedTimes_entries_concat (c : Call κ τ) (key : κ) :
    admittedTimes (entries limit window past (calls ++ [c])) key =
      admittedTimes (entries limit window past calls) key ++
        if admits limit window (past ++ entries limit window past calls) c ∧ c.key = key
          then [c.time] else [] := by
  rw [entries_append, admittedTimes_append, entries, entries, admittedTimes_singleton]
  simp only [entry, decide_eq_true_eq]

/-- Of instants less than a window apart, at most `limit` are admitted. -/
theorem length_admitted_le {S : τ → Prop} [DecidablePred S]
    (hS : ∀ a b, S a → S b → b - window < a) (key : κ) :
    ((admittedTimes (entries limit window [] calls) key).filter S).length ≤ limit := by
  induction calls using List.reverseRecOn with
  | nil => simp [entries]
  | append_singleton calls c ih =>
    rw [admittedTimes_entries_concat, List.filter_append, List.length_append, List.nil_append]
    split
    · rename_i hadm
      by_cases hin : S c.time
      · -- what counts in `S` before `c` counts in the window that ends with `c`
        have hsub : ((admittedTimes (entries limit window [] calls) key).filter S).length ≤
            ((admittedTimes (entries limit window [] calls) key).filter
              fun t => c.time - window < t).length := by
          refine (List.monotone_filter_right _ fun a ha => ?_).length_le
          exact decide_eq_true (hS a c.time (of_decide_eq_true ha) hin)
        have hlt := hadm.1
        rw [admits, hadm.2] at hlt
        have hone : ([c.time].filter S).length = 1 := by simp [hin]
        omega
      · simpa [hin] using ih
    · simpa using ih

variable [IsOrderedAddMonoid τ]

/-- Whoever calls has an admitted call in the window, be it an earlier one. -/
theorem exists_admittedTimes_of_entry (hlimit : 0 < limit) (hwindow : 0 < window) (c : Call κ τ) :
    ∃ t ∈ admittedTimes (past ++ [entry limit window past c]) c.key, c.time - window < t := by
  rw [admittedTimes_append, admittedTimes_singleton]
  by_cases hadm : admits limit window past c
  · exact ⟨c.time, by simp [entry, hadm], sub_lt_self _ hwindow⟩
  · have hfull := hlimit.trans_le (not_lt.mp hadm)
    obtain ⟨t, ht⟩ := List.exists_mem_of_length_pos hfull
    obtain ⟨hmem, hin⟩ := List.mem_filter.mp ht
    exact ⟨t, List.mem_append_left _ hmem, of_decide_eq_true hin⟩

/-- No window that ends at `t`, with `t` in it, holds more than `limit` admitted calls. -/
theorem length_admitted_Ioc_le (key : κ) (t : τ) :
    ((admittedTimes (entries limit window [] calls) key).filter
      fun a => t - window < a ∧ a ≤ t).length ≤ limit :=
  length_admitted_le (S := fun a => t - window < a ∧ a ≤ t)
    (fun _ _ ha hb => (sub_le_sub_right hb.2 window).trans_lt ha.1) key

/-- No window that begins at `t`, with `t` in it, holds more than `limit` admitted calls. -/
theorem length_admitted_Ico_le (key : κ) (t : τ) :
    ((admittedTimes (entries limit window [] calls) key).filter
      fun a => t ≤ a ∧ a < t + window).length ≤ limit :=
  length_admitted_le (S := fun a => t ≤ a ∧ a < t + window)
    (fun _ _ ha hb => (sub_lt_iff_lt_add.mpr hb.2).trans_le ha.1) key

end SlidingWindow
