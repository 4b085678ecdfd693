import CertGuard.Lib.TransitionRun
import Mathlib.Algebra.BigOperators.Group.Finset.Basic
import Mathlib.Algebra.Order.BigOperators.Group.Finset
import Mathlib.Data.Finset.Range

/-!
# Bounded fan-out

A loop goes through its jobs and starts a thread for each one that needs it. A thread takes
one of a fixed number of permits, works, fills the slot of its own job, gives the permit back
and signs off; once the loop is through and every thread has signed off, the slots are handed
out. The threads and the loop take their steps in any order.

## Main definitions

* `FanOut.Plan` — the jobs: what the loop puts in their slots, and what their threads make of it
* `FanOut.Phase`, `FanOut.State`, `FanOut.Action`, `FanOut.step` — the threads and the loop
* `FanOut.Plan.result` — the slots as a plain loop fills them
* `FanOut.inFlight`, `FanOut.worksOf` — how many threads are at work, and which have worked

## Main results

* `FanOut.inFlight_le` — never more than there are permits
* `FanOut.returned_eq` — what is handed out is what the plain loop computes
* `FanOut.returned_of_stuck`, `FanOut.exists_run_returned` — a run that cannot go on has handed
  the slots out, after the same number of steps whatever the order; there is always a way on
* `FanOut.nodup_worksOf`, `FanOut.of_mem_worksOf` — the thread of a job works once, and only
  where one is needed
* `FanOut.step_of_returned` — once the slots are handed out, nobody writes to them
-/

namespace FanOut

/-- The jobs of a loop, by their place. -/
structure Plan (β : Type*) where
  size : ℕ
  /-- what a slot is made with -/
  blank : β
  /-- what the loop itself puts there -/
  first : ℕ → β
  needs : ℕ → Bool
  /-- what the thread of a job makes of its slot -/
  fill : ℕ → β → β

/-- Where a job stands. -/
inductive Phase
  | ahead
  | aside
  | waiting
  | working
  | written
  | leaving
  | done
  deriving DecidableEq, Repr

/-- The loop, its threads and what they share: the permits taken, the count of threads that
have not signed off, the slots, and what was handed out. -/
structure State (β : Type*) where
  next : ℕ := 0
  phase : ℕ → Phase := fun _ => .ahead
  taken : ℕ := 0
  pending : ℕ := 0
  slot : ℕ → β
  returned : Option (List β) := none

/-- A step of the loop or of the thread of a job. -/
inductive Action
  | start
  | acquire (i : ℕ)
  | work (i : ℕ)
  | release (i : ℕ)
  | signOff (i : ℕ)
  | collect
  deriving DecidableEq, Repr

variable {β : Type*}

/-- Nothing has happened. -/
def Plan.initial (p : Plan β) : State β where
  slot := fun _ => p.blank

/-- The slots in order. -/
def Plan.collect (p : Plan β) (s : State β) : List β := (List.range p.size).map s.slot

/-- One step with `k` permits, if it can be taken. -/
def step (p : Plan β) (k : ℕ) (s : State β) : Action → Option (State β)
  | .start =>
    if s.next < p.size then
      some { s with
        next := s.next + 1
        phase := Function.update s.phase s.next (if p.needs s.next then .waiting else .aside)
        pending := s.pending + if p.needs s.next then 1 else 0
        slot := Function.update s.slot s.next (p.first s.next) }
    else none
  | .acquire i =>
    if s.phase i = .waiting ∧ s.taken < k then
      some { s with phase := Function.update s.phase i .working, taken := s.taken + 1 }
    else none
  | .work i =>
    if s.phase i = .working then
      some { s with
        phase := Function.update s.phase i .written
        slot := Function.update s.slot i (p.fill i (s.slot i)) }
    else none
  | .release i =>
    if s.phase i = .written ∧ 0 < s.taken then
      some { s with phase := Function.update s.phase i .leaving, taken := s.taken - 1 }
    else none
  | .signOff i =>
    if s.phase i = .leaving ∧ 0 < s.pending then
      some { s with phase := Function.update s.phase i .done, pending := s.pending - 1 }
    else none
  | .collect =>
    -- the loop is through, and waits for the count to reach zero
    if s.next = p.size ∧ s.pending = 0 ∧ s.returned.isNone then
      some { s with returned := some (p.collect s) }
    else none

/-- What a plain loop leaves in the slot of a job. -/
def Plan.final (p : Plan β) (i : ℕ) : β :=
  if p.needs i then p.fill i (p.first i) else p.first i

/-- The slots as a plain loop fills them. -/
def Plan.result (p : Plan β) : List β := (List.range p.size).map p.final

/-! ### Counting by phase -/

/-- The jobs weighed by where they stand. -/
def weigh (p : Plan β) (w : ℕ → Phase → ℕ) (s : State β) : ℕ :=
  ∑ i ∈ Finset.range p.size, w i (s.phase i)

/-- A permit is held. -/
def holds : Phase → ℕ
  | .working | .written => 1
  | _ => 0

/-- A thread was started and has not signed off. -/
def unsigned : Phase → ℕ
  | .waiting | .working | .written | .leaving => 1
  | _ => 0

/-- How many threads are at work. -/
def inFlight (p : Plan β) (s : State β) : ℕ :=
  weigh p (fun _ ph => if ph = .working then 1 else 0) s

/-- One job that moves changes a weight by its own. -/
theorem weigh_update {p : Plan β} {s s' : State β} {w : ℕ → Phase → ℕ} {i : ℕ} {ph : Phase}
    (hi : i < p.size) (hphase : s'.phase = Function.update s.phase i ph) :
    weigh p w s' + w i (s.phase i) = weigh p w s + w i ph := by
  have hmem : i ∈ Finset.range p.size := Finset.mem_range.mpr hi
  have hrest : ∑ j ∈ (Finset.range p.size).erase i, w j (s'.phase j)
      = ∑ j ∈ (Finset.range p.size).erase i, w j (s.phase j) := by
    refine Finset.sum_congr rfl fun j hj => ?_
    rw [hphase, Function.update_of_ne (Finset.ne_of_mem_erase hj)]
  have hself : s'.phase i = ph := by rw [hphase, Function.update_self]
  have hnew := Finset.add_sum_erase (Finset.range p.size) (fun j => w j (s'.phase j)) hmem
  have hold := Finset.add_sum_erase (Finset.range p.size) (fun j => w j (s.phase j)) hmem
  rw [weigh, weigh, ← hnew, ← hold, hrest, hself]
  omega

/-- A job that weighs something is counted. -/
theorem weigh_pos {p : Plan β} {s : State β} {w : ℕ → Phase → ℕ} {i : ℕ} (hi : i < p.size)
    (h : 0 < w i (s.phase i)) : 0 < weigh p w s :=
  Finset.sum_pos' (fun _ _ => Nat.zero_le _) ⟨i, Finset.mem_range.mpr hi, h⟩

/-- Something weighs where the sum does. -/
theorem exists_of_weigh_ne_zero {p : Plan β} {s : State β} {w : ℕ → Phase → ℕ}
    (h : weigh p w s ≠ 0) : ∃ i < p.size, w i (s.phase i) ≠ 0 := by
  obtain ⟨i, hi, hne⟩ := Finset.exists_ne_zero_of_sum_ne_zero h
  exact ⟨i, Finset.mem_range.mp hi, hne⟩

/-! ### What holds in every state -/

/-- What is in the slot of a job. -/
def Plan.slotAt (p : Plan β) (i : ℕ) : Phase → β
  | .ahead => p.blank
  | .aside | .waiting | .working => p.first i
  | .written | .leaving | .done => p.fill i (p.first i)

/-- The state is one the loop and its threads can be in. -/
structure Inv (p : Plan β) (k : ℕ) (s : State β) : Prop where
  next_le : s.next ≤ p.size
  ahead : ∀ i, s.phase i = .ahead ↔ s.next ≤ i
  aside : ∀ i < s.next, s.phase i = .aside ↔ p.needs i = false
  taken_eq : s.taken = weigh p (fun _ => holds) s
  taken_le : s.taken ≤ k
  pending_eq : s.pending = weigh p (fun _ => unsigned) s
  slot_eq : ∀ i, s.slot i = p.slotAt i (s.phase i)
  returned : s.returned.isSome → s.next = p.size ∧ s.pending = 0

variable {p : Plan β} {k : ℕ} {s s' : State β}

theorem inv_initial : Inv p k p.initial where
  next_le := Nat.zero_le _
  ahead i := by simp [Plan.initial]
  aside i hi := absurd hi (Nat.not_lt_zero i)
  taken_eq := by simp [Plan.initial, weigh, holds]
  taken_le := Nat.zero_le _
  pending_eq := by simp [Plan.initial, weigh, unsigned]
  slot_eq i := by simp [Plan.initial, Plan.slotAt]
  returned h := by simp [Plan.initial] at h

/-- A job the loop has come to has its place among the jobs. -/
theorem Inv.lt_size (h : Inv p k s) {i : ℕ} (hi : s.phase i ≠ .ahead) : i < p.size := by
  have hlt : i < s.next := Nat.not_le.mp fun hle => hi ((h.ahead i).mpr hle)
  exact lt_of_lt_of_le hlt h.next_le

theorem ne_of_unsigned {ph : Phase} (h : unsigned ph = 1) : ph ≠ .ahead ∧ ph ≠ .aside := by
  cases ph <;> simp_all [unsigned]

/-- A thread keeps the invariant by moving on as its new place wants it. -/
theorem Inv.move (h : Inv p k s) {i : ℕ} {ph : Phase} (hi : unsigned (s.phase i) = 1)
    (hph : ph ≠ .ahead ∧ ph ≠ .aside)
    (hphase : s'.phase = Function.update s.phase i ph)
    (hslot : s'.slot = Function.update s.slot i (p.slotAt i ph))
    (hnext : s'.next = s.next) (hret : s'.returned = s.returned)
    (htaken : s'.taken + holds (s.phase i) = s.taken + holds ph) (hle : s'.taken ≤ k)
    (hpending : s'.pending + 1 = s.pending + unsigned ph) : Inv p k s' := by
  have hold := ne_of_unsigned hi
  have hsize : i < p.size := h.lt_size hold.1
  have hheld := weigh_update (w := fun _ => holds) hsize hphase
  have hopen := weigh_update (w := fun _ => unsigned) hsize hphase
  have htaken' := h.taken_eq
  have hpending' := h.pending_eq
  refine ⟨hnext ▸ h.next_le, fun j => ?_, fun j hj => ?_, by omega, hle, by omega, fun j => ?_,
    fun hr => ?_⟩
  · by_cases hji : j = i
    · subst hji
      rw [hphase, Function.update_self, hnext, ← h.ahead j]
      exact iff_of_false hph.1 hold.1
    · rw [hphase, Function.update_of_ne hji, hnext]
      exact h.ahead j
  · rw [hnext] at hj
    by_cases hji : j = i
    · subst hji
      rw [hphase, Function.update_self, ← h.aside j hj]
      exact iff_of_false hph.2 hold.2
    · rw [hphase, Function.update_of_ne hji]
      exact h.aside j hj
  · by_cases hji : j = i
    · subst hji
      rw [hslot, hphase, Function.update_self, Function.update_self]
    · rw [hslot, hphase, Function.update_of_ne hji, Function.update_of_ne hji]
      exact h.slot_eq j
  · -- nothing was handed out while a thread had not signed off
    have hzero := (h.returned (hret ▸ hr)).2
    have hpos := weigh_pos (w := fun _ => unsigned) hsize (by rw [hi]; exact Nat.one_pos)
    omega

/-- The loop keeps the invariant by coming to its next job. -/
theorem inv_start (h : Inv p k s) (hs : step p k s .start = some s') : Inv p k s' := by
  simp only [step, Option.ite_none_right_eq_some, Option.some.injEq] at hs
  obtain ⟨hlt, rfl⟩ := hs
  have hahead : s.phase s.next = .ahead := (h.ahead s.next).mpr le_rfl
  set ph : Phase := if p.needs s.next then .waiting else .aside with hph
  have hne : ph ≠ .ahead := by rw [hph]; split <;> simp
  have hweigh : ∀ w : ℕ → Phase → ℕ,
      weigh p w { s with phase := Function.update s.phase s.next ph } + w s.next (s.phase s.next) =
        weigh p w s + w s.next ph := fun w => weigh_update hlt rfl
  have hheld := hweigh fun _ => holds
  have hopen := hweigh fun _ => unsigned
  have hold0 : holds ph = 0 := by rw [hph]; split <;> rfl
  have hopen1 : unsigned ph = if p.needs s.next then 1 else 0 := by rw [hph]; split <;> rfl
  have htaken := h.taken_eq
  have hpending := h.pending_eq
  simp only [hahead, hold0, hopen1] at hheld hopen
  refine ⟨hlt, fun j => ?_, fun j hj => ?_, ?_, h.taken_le, ?_, fun j => ?_, fun hr => ?_⟩
  · by_cases hj : j = s.next
    · subst hj
      simp [hne]
    · have hcmp : s.next + 1 ≤ j ↔ s.next ≤ j := by omega
      simp only [Function.update_of_ne hj, hcmp]
      exact h.ahead j
  · by_cases hjn : j = s.next
    · subst hjn
      simp only [Function.update_self, hph]
      cases p.needs s.next <;> simp
    · have hlt' : j < s.next := by simp only at hj; omega
      simp only [Function.update_of_ne hjn]
      exact h.aside j hlt'
  · simp only [weigh, holds] at hheld htaken ⊢
    omega
  · simp only [weigh, unsigned] at hopen hpending ⊢
    omega
  · by_cases hj : j = s.next
    · subst hj
      simp only [Function.update_self, hph]
      cases p.needs s.next <;> rfl
    · simp only [Function.update_of_ne hj]
      exact h.slot_eq j
  · exact absurd (h.returned hr).1 hlt.ne

/-- A thread that holds a permit is counted. -/
theorem Inv.taken_pos (h : Inv p k s) {i : ℕ} (hi : holds (s.phase i) = 1) : 0 < s.taken := by
  have hne : s.phase i ≠ .ahead := fun hp => by simp [hp, holds] at hi
  have hpos := weigh_pos (w := fun _ => holds) (h.lt_size hne) (by rw [hi]; exact Nat.one_pos)
  exact h.taken_eq ▸ hpos

/-- A thread that has not signed off is counted. -/
theorem Inv.pending_pos (h : Inv p k s) {i : ℕ} (hi : unsigned (s.phase i) = 1) :
    0 < s.pending := by
  have hsize := h.lt_size (ne_of_unsigned hi).1
  have hpos := weigh_pos (w := fun _ => unsigned) hsize (by rw [hi]; exact Nat.one_pos)
  exact h.pending_eq ▸ hpos

/-- A slot that a step does not write is the one of the new place too. -/
theorem slot_eq_update (h : Inv p k s) {i : ℕ} {ph : Phase}
    (hsame : p.slotAt i ph = p.slotAt i (s.phase i)) :
    s.slot = Function.update s.slot i (p.slotAt i ph) := by
  rw [hsame, ← h.slot_eq i, Function.update_eq_self]

theorem inv_acquire {i : ℕ} (h : Inv p k s) (hs : step p k s (.acquire i) = some s') :
    Inv p k s' := by
  simp only [step, Option.ite_none_right_eq_some, Option.some.injEq] at hs
  obtain ⟨⟨hi, hlt⟩, rfl⟩ := hs
  refine h.move (by rw [hi]; rfl) (by simp) rfl ?_ rfl rfl ?_ hlt ?_
  · exact slot_eq_update h (by rw [hi]; rfl)
  · simp [hi, holds]
  · simp [unsigned]

theorem inv_work {i : ℕ} (h : Inv p k s) (hs : step p k s (.work i) = some s') :
    Inv p k s' := by
  simp only [step, Option.ite_none_right_eq_some, Option.some.injEq] at hs
  obtain ⟨hi, rfl⟩ := hs
  refine h.move (by rw [hi]; rfl) (by simp) rfl ?_ rfl rfl ?_ h.taken_le ?_
  · -- the thread works on what the loop has put there
    have hslot : s.slot i = p.first i := by rw [h.slot_eq i, hi]; rfl
    simp only [hslot, Plan.slotAt]
  · simp [hi, holds]
  · simp [unsigned]

theorem inv_release {i : ℕ} (h : Inv p k s) (hs : step p k s (.release i) = some s') :
    Inv p k s' := by
  simp only [step, Option.ite_none_right_eq_some, Option.some.injEq] at hs
  obtain ⟨⟨hi, hpos⟩, rfl⟩ := hs
  refine h.move (by rw [hi]; rfl) (by simp) rfl ?_ rfl rfl ?_ ?_ ?_
  · exact slot_eq_update h (by rw [hi]; rfl)
  · simp only [hi, holds]
    omega
  · exact (Nat.sub_le _ _).trans h.taken_le
  · simp [unsigned]

theorem inv_signOff {i : ℕ} (h : Inv p k s) (hs : step p k s (.signOff i) = some s') :
    Inv p k s' := by
  simp only [step, Option.ite_none_right_eq_some, Option.some.injEq] at hs
  obtain ⟨⟨hi, hpos⟩, rfl⟩ := hs
  refine h.move (by rw [hi]; rfl) (by simp) rfl ?_ rfl rfl ?_ h.taken_le ?_
  · exact slot_eq_update h (by rw [hi]; rfl)
  · simp [hi, holds]
  · simp only [unsigned]
    omega

theorem inv_collect (h : Inv p k s) (hs : step p k s .collect = some s') : Inv p k s' := by
  simp only [step, Option.ite_none_right_eq_some, Option.some.injEq] at hs
  obtain ⟨⟨hnext, hpending, -⟩, rfl⟩ := hs
  exact ⟨h.next_le, h.ahead, h.aside, h.taken_eq, h.taken_le, h.pending_eq, h.slot_eq,
    fun _ => ⟨hnext, hpending⟩⟩

/-- Every step keeps the invariant. -/
theorem inv_step {a : Action} (h : Inv p k s) (hs : step p k s a = some s') : Inv p k s' := by
  cases a with
  | start => exact inv_start h hs
  | acquire i => exact inv_acquire h hs
  | work i => exact inv_work h hs
  | release i => exact inv_release h hs
  | signOff i => exact inv_signOff h hs
  | collect => exact inv_collect h hs

/-- In a state reached from the beginning the invariant holds. -/
theorem inv_run {as : List Action} (hrun : Transition.run (step p k) p.initial as = some s) :
    Inv p k s := by
  have halways : Transition.Always (step p k) (Inv p k) p.initial as :=
    Transition.always_of_meets (C := fun _ _ => True) inv_initial
      (fun s a s' h _ hs => inv_step h hs) (fun _ _ _ _ _ => trivial)
  exact halways as s (List.prefix_refl as) hrun

/-! ### What is handed out -/

/-- When every thread has signed off, the slots are those of the plain loop. -/
theorem collect_eq (h : Inv p k s) (hnext : s.next = p.size) (hpending : s.pending = 0) :
    p.collect s = p.result := by
  refine List.map_congr_left fun i hi => ?_
  have hsize : i < p.size := List.mem_range.mp hi
  have hcame : s.phase i ≠ .ahead := fun hp => by
    have := (h.ahead i).mp hp
    omega
  have hsigned : unsigned (s.phase i) ≠ 1 := fun hu => by
    have := h.pending_pos hu
    omega
  have hneeds := h.aside i (hnext ▸ hsize)
  have hslot := h.slot_eq i
  -- a job the loop has come to and that is not open was put aside or is done
  cases hp : s.phase i with
  | ahead => exact absurd hp hcame
  | aside =>
    rw [hslot, hp, Plan.final, hneeds.mp hp]
    rfl
  | done =>
    have htrue : p.needs i = true := by
      rw [← Bool.not_eq_false, ← hneeds, hp]
      simp
    rw [hslot, hp, Plan.final, htrue]
    rfl
  | waiting | working | written | leaving => exact absurd (by rw [hp]; rfl) hsigned

/-- What was handed out is the result. -/
def Honest (p : Plan β) (s : State β) : Prop := ∀ out, s.returned = some out → out = p.result

theorem honest_step {a : Action} (h : Inv p k s) (hh : Honest p s)
    (hs : step p k s a = some s') : Honest p s' := by
  cases a with
  | collect =>
    simp only [step, Option.ite_none_right_eq_some, Option.some.injEq] at hs
    obtain ⟨⟨hnext, hpending, -⟩, rfl⟩ := hs
    intro out hout
    exact (Option.some.inj hout).symm.trans (collect_eq h hnext hpending)
  | start | acquire i | work i | release i | signOff i =>
    simp only [step, Option.ite_none_right_eq_some, Option.some.injEq] at hs
    obtain ⟨-, rfl⟩ := hs
    exact hh

/-- What is handed out at the end of any run is what the plain loop computes. -/
theorem returned_eq {as : List Action} {out : List β}
    (hrun : Transition.run (step p k) p.initial as = some s) (hout : s.returned = some out) :
    out = p.result := by
  have halways : Transition.Always (step p k) (fun s => Inv p k s ∧ Honest p s) p.initial as :=
    Transition.always_of_meets (C := fun _ _ => True)
      ⟨inv_initial, fun out hout => by simp [Plan.initial] at hout⟩
      (fun s a s' h _ hs => ⟨inv_step h.1 hs, honest_step h.1 h.2 hs⟩)
      (fun _ _ _ _ _ => trivial)
  exact (halways as s (List.prefix_refl as) hrun).2 out hout

/-- Never more threads are at work than there are permits. -/
theorem inFlight_le {as : List Action}
    (hrun : Transition.run (step p k) p.initial as = some s) : inFlight p s ≤ k := by
  have h := inv_run hrun
  have hle : inFlight p s ≤ weigh p (fun _ => holds) s := by
    simp only [inFlight, weigh]
    refine Finset.sum_le_sum fun i _ => ?_
    cases s.phase i <;> simp [holds]
  exact hle.trans (h.taken_eq ▸ h.taken_le)

/-- Once the slots are handed out, no step is left: nobody writes to them any more. -/
theorem step_of_returned (h : Inv p k s) (hret : s.returned.isSome) (a : Action) :
    step p k s a = none := by
  obtain ⟨hnext, hpending⟩ := h.returned hret
  have hclosed : ∀ i, unsigned (s.phase i) ≠ 1 := fun i hi => by
    have := h.pending_pos hi
    omega
  cases a with
  | start => simp [step, hnext]
  | acquire i | work i | release i | signOff i =>
    have hi := hclosed i
    simp only [step]
    refine if_neg fun hc => hi ?_
    simp [hc, unsigned]
  | collect => simp [step, Option.isSome_iff_ne_none.mp hret]

/-! ### Every run comes to its end -/

/-- The steps a job has before it. -/
def Plan.left (p : Plan β) (i : ℕ) : Phase → ℕ
  | .ahead => if p.needs i then 5 else 1
  | .waiting => 4
  | .working => 3
  | .written => 2
  | .leaving => 1
  | .aside | .done => 0

/-- The steps that are left. -/
def rank (p : Plan β) (s : State β) : ℕ :=
  weigh p p.left s + if s.returned.isNone then 1 else 0

/-- The steps of a whole run. -/
def Plan.steps (p : Plan β) : ℕ :=
  (∑ i ∈ Finset.range p.size, if p.needs i then 5 else 1) + 1

theorem rank_initial : rank p p.initial = p.steps := rfl

/-- A thread that moves on has one step less before it. -/
theorem rank_move {i : ℕ} {ph : Phase} (hi : i < p.size)
    (hphase : s'.phase = Function.update s.phase i ph) (hret : s'.returned = s.returned)
    (hleft : p.left i (s.phase i) = p.left i ph + 1) : rank p s' + 1 = rank p s := by
  have h := weigh_update (w := p.left) hi hphase
  simp only [rank, hret]
  omega

/-- Every step is one of those that were left. -/
theorem rank_step {a : Action} (h : Inv p k s) (hs : step p k s a = some s') :
    rank p s' + 1 = rank p s := by
  cases a with
  | start =>
    simp only [step, Option.ite_none_right_eq_some, Option.some.injEq] at hs
    obtain ⟨hlt, rfl⟩ := hs
    have hahead : s.phase s.next = .ahead := (h.ahead s.next).mpr le_rfl
    refine rank_move hlt rfl rfl ?_
    rw [hahead]
    simp only [Plan.left]
    split <;> rfl
  | collect =>
    simp only [step, Option.ite_none_right_eq_some, Option.some.injEq] at hs
    obtain ⟨⟨-, -, hnone⟩, rfl⟩ := hs
    simp only [rank, hnone, Option.isNone_some, if_true]
    rfl
  | acquire i | work i | release i | signOff i =>
    simp only [step, Option.ite_none_right_eq_some, Option.some.injEq] at hs
    obtain ⟨hc, rfl⟩ := hs
    have hne : s.phase i ≠ .ahead := by simp [hc]
    exact rank_move (h.lt_size hne) rfl rfl (by simp [hc, Plan.left])

/-- The length of a run and what is left after it are the steps of a whole run. -/
theorem length_add_rank {as : List Action} (h : Inv p k s)
    (hrun : Transition.run (step p k) s as = some s') : as.length + rank p s' = rank p s := by
  induction as generalizing s with
  | nil =>
    obtain rfl := Option.some.inj hrun
    simp
  | cons a as ih =>
    obtain ⟨t, ht, hrest⟩ := Option.bind_eq_some_iff.mp hrun
    have hrank := rank_step h ht
    have htail := ih (inv_step h ht) hrest
    rw [List.length_cons]
    omega

/-- As long as nothing was handed out somebody can take a step. -/
theorem exists_step (hk : 0 < k) (h : Inv p k s) (hret : s.returned = none) :
    ∃ a s', step p k s a = some s' := by
  suffices ∃ a, (step p k s a).isSome by
    obtain ⟨a, ha⟩ := this
    exact ⟨a, Option.isSome_iff_exists.mp ha⟩
  by_cases hnext : s.next < p.size
  · exact ⟨.start, by simp [step, hnext]⟩
  have hthrough : s.next = p.size := le_antisymm h.next_le (Nat.not_lt.mp hnext)
  by_cases hpending : s.pending = 0
  · exact ⟨.collect, by simp [step, hthrough, hpending, hret]⟩
  -- a thread that holds a permit is never held up
  have hholder : ∀ j, holds (s.phase j) = 1 → ∃ a, (step p k s a).isSome := by
    intro j hj
    cases hp : s.phase j with
    | working => exact ⟨.work j, by simp [step, hp]⟩
    | written => exact ⟨.release j, by simp [step, hp, h.taken_pos hj]⟩
    | ahead | aside | waiting | leaving | done => simp [hp, holds] at hj
  obtain ⟨i, -, hi⟩ := exists_of_weigh_ne_zero (h.pending_eq ▸ hpending)
  cases hp : s.phase i with
  | ahead | aside | done => simp [hp, unsigned] at hi
  | working | written => exact hholder i (by rw [hp]; rfl)
  | leaving =>
    exact ⟨.signOff i, by simp [step, hp, h.pending_pos (i := i) (by rw [hp]; rfl)]⟩
  | waiting =>
    by_cases hfree : s.taken < k
    · exact ⟨.acquire i, by simp [step, hp, hfree]⟩
    · -- the permits are all taken, so that somebody holds one
      have htaken : weigh p (fun _ => holds) s ≠ 0 := by
        have := h.taken_eq
        omega
      obtain ⟨j, -, hj⟩ := exists_of_weigh_ne_zero htaken
      refine hholder j ?_
      cases hq : s.phase j <;> simp_all [holds]

/-- A run that cannot go on has handed out the result, after the same number of steps
whatever the order. -/
theorem returned_of_stuck {as : List Action} (hk : 0 < k)
    (hrun : Transition.run (step p k) p.initial as = some s) (hstuck : ∀ a, step p k s a = none) :
    s.returned = some p.result ∧ as.length = p.steps := by
  have h := inv_run hrun
  cases hret : s.returned with
  | none =>
    obtain ⟨a, s', hs⟩ := exists_step hk h hret
    simp [hstuck a] at hs
  | some out =>
    have hlen := length_add_rank inv_initial hrun
    have hnext := h.returned (by rw [hret]; rfl)
    have hzero : weigh p p.left s = 0 := by
      refine Finset.sum_eq_zero fun i hi => ?_
      have hsize := Finset.mem_range.mp hi
      have hcame : s.phase i ≠ .ahead := fun hp => by
        have := (h.ahead i).mp hp
        omega
      have hsigned : unsigned (s.phase i) ≠ 1 := fun hu => by
        have := h.pending_pos hu
        omega
      cases hp : s.phase i <;> simp_all [unsigned, Plan.left]
    have hrank : rank p s = 0 := by simp [rank, hzero, hret]
    rw [hrank, rank_initial] at hlen
    exact ⟨by rw [returned_eq hrun hret], hlen⟩

/-- From every state reached there is a way on to the end. -/
theorem exists_run_returned {as : List Action} (hk : 0 < k)
    (hrun : Transition.run (step p k) p.initial as = some s) :
    ∃ bs s', Transition.run (step p k) s bs = some s' ∧ s'.returned = some p.result := by
  induction hr : rank p s generalizing s as with
  | zero =>
    refine ⟨[], s, rfl, (returned_of_stuck hk hrun fun a => ?_).1⟩
    -- a step would be one of those that are left
    refine Option.eq_none_iff_forall_not_mem.mpr fun s' hs' => ?_
    have := rank_step (inv_run hrun) hs'
    omega
  | succ n ih =>
    by_cases hstuck : ∀ a, step p k s a = none
    · exact ⟨[], s, rfl, (returned_of_stuck hk hrun hstuck).1⟩
    · push Not at hstuck
      obtain ⟨a, ha⟩ := hstuck
      obtain ⟨s', hs'⟩ := Option.ne_none_iff_exists'.mp ha
      have hrun' : Transition.run (step p k) p.initial (as ++ [a]) = some s' := by
        rw [Transition.run_append, hrun]
        simp [Transition.run, hs']
      have hdrop := rank_step (inv_run hrun) hs'
      obtain ⟨bs, t, hbs, hret⟩ := ih hrun' (by omega)
      exact ⟨a :: bs, t, by simpa [Transition.run, hs'] using hbs, hret⟩

/-! ### Who works, and how often -/

/-- Whether the thread of a job has worked. -/
def worked : Phase → ℕ
  | .written | .leaving | .done => 1
  | _ => 0

theorem worked_step {a : Action} (i : ℕ) (h : Inv p k s) (hs : step p k s a = some s') :
    worked (s'.phase i) = worked (s.phase i) + if a = .work i then 1 else 0 := by
  cases a with
  | start =>
    simp only [step, Option.ite_none_right_eq_some, Option.some.injEq] at hs
    obtain ⟨-, rfl⟩ := hs
    by_cases hi : i = s.next
    · subst hi
      have hahead : s.phase s.next = .ahead := (h.ahead s.next).mpr le_rfl
      simp only [Function.update_self, hahead]
      cases p.needs s.next <;> rfl
    · simp [Function.update_of_ne hi]
  | collect =>
    simp only [step, Option.ite_none_right_eq_some, Option.some.injEq] at hs
    obtain ⟨-, rfl⟩ := hs
    simp
  | acquire j | work j | release j | signOff j =>
    simp only [step, Option.ite_none_right_eq_some, Option.some.injEq] at hs
    obtain ⟨hc, rfl⟩ := hs
    by_cases hi : i = j
    · subst hi
      simp [hc, worked]
    · have hij : ¬ j = i := fun h => hi h.symm
      simp [Function.update_of_ne hi, hij]

/-- In a run the thread of a job works as often as its place says: not yet, or once. -/
theorem count_work_add {as : List Action} (i : ℕ) (h : Inv p k s)
    (hrun : Transition.run (step p k) s as = some s') :
    as.count (.work i) + worked (s.phase i) = worked (s'.phase i) := by
  induction as generalizing s with
  | nil =>
    obtain rfl := Option.some.inj hrun
    simp
  | cons a as ih =>
    obtain ⟨t, ht, hrest⟩ := Option.bind_eq_some_iff.mp hrun
    have hone := worked_step i h ht
    have htail := ih (inv_step h ht) hrest
    simp only [List.count_cons, beq_iff_eq]
    omega

/-- The thread of a job works at most once, and never where none is needed. -/
theorem count_work {as : List Action} (i : ℕ)
    (hrun : Transition.run (step p k) p.initial as = some s) :
    as.count (.work i) ≤ 1 ∧ (as.count (.work i) = 1 → i < p.size ∧ p.needs i = true) := by
  have h := inv_run hrun
  have hcount := count_work_add i inv_initial hrun
  have hzero : worked (p.initial.phase i) = 0 := rfl
  have hle : worked (s.phase i) ≤ 1 := by cases s.phase i <;> simp [worked]
  refine ⟨by omega, fun hone => ?_⟩
  have hworked : worked (s.phase i) = 1 := by omega
  have hne : s.phase i ≠ .ahead ∧ s.phase i ≠ .aside := by
    constructor <;> intro hp <;> simp [hp, worked] at hworked
  have hlt : i < s.next := Nat.not_le.mp fun hle => hne.1 ((h.ahead i).mpr hle)
  refine ⟨lt_of_lt_of_le hlt h.next_le, ?_⟩
  rw [← Bool.not_eq_false, ← h.aside i hlt]
  exact hne.2

/-- The jobs whose threads have worked, in the order they did. -/
def worksOf (as : List Action) : List ℕ :=
  as.filterMap fun
    | .work i => some i
    | _ => none

theorem count_worksOf (as : List Action) (i : ℕ) :
    (worksOf as).count i = as.count (.work i) := by
  induction as with
  | nil => rfl
  | cons a as ih =>
    rw [worksOf, List.filterMap_cons, List.count_cons, ← ih]
    cases a <;> simp [worksOf, List.count_cons]

/-- No job is worked on twice. -/
theorem nodup_worksOf {as : List Action}
    (hrun : Transition.run (step p k) p.initial as = some s) : (worksOf as).Nodup := by
  refine List.nodup_iff_count_le_one.mpr fun i => ?_
  rw [count_worksOf]
  exact (count_work i hrun).1

/-- Only jobs that need it are worked on. -/
theorem of_mem_worksOf {as : List Action} {i : ℕ}
    (hrun : Transition.run (step p k) p.initial as = some s) (hi : i ∈ worksOf as) :
    i < p.size ∧ p.needs i = true := by
  have hpos : 0 < as.count (.work i) := by
    rw [← count_worksOf]
    exact List.count_pos_iff.mpr hi
  obtain ⟨hle, hone⟩ := count_work i hrun
  exact hone (le_antisymm hle hpos)

/-- No more jobs are worked on than there are. -/
theorem length_worksOf_le {as : List Action}
    (hrun : Transition.run (step p k) p.initial as = some s) : (worksOf as).length ≤ p.size := by
  have hsub : (worksOf as).toFinset ⊆ Finset.range p.size := fun i hi =>
    Finset.mem_range.mpr (of_mem_worksOf hrun (List.mem_toFinset.mp hi)).1
  have hcard := Finset.card_le_card hsub
  rwa [List.toFinset_card_of_nodup (nodup_worksOf hrun), Finset.card_range] at hcard

end FanOut
