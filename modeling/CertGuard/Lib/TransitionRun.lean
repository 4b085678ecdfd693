import Mathlib.Data.List.Forall2
import Mathlib.Data.List.Infix

/-!
# Runs of transition systems

Two kinds of system. One has actions that may be refused, so that a run is a
list of actions each of which is enabled where it is taken; it serves for the
steps of several parties in any order. The other always answers and emits
output; it serves for a single party and for comparing two runs.

## Main definitions

* `Transition.run` — the state a list of actions leads to
* `Transition.Always`, `Transition.Meets` — what holds in every state reached,
  and at every step taken
* `Transition.Reaches` — some run leads from one state to another
* `Transition.watch` — the system with a record of what happened
* `Transition.runOut` — the state and the collected output of a run
* `Transition.MeetsOut` — what holds at every step of such a run

## Main results

* `Transition.always_of_meets` — the invariant rule under a condition on steps
* `Transition.always_iff_meets`, `Transition.always_iff_meets_of_inv`,
  `Transition.always_iff_meets_of_step` — the same rule where the condition is exact
* `Transition.always_watch` — watching a system changes nothing about it
* `Transition.meets_iff_meets`, `Transition.meets_congr_of_inv` — two conditions on steps that
  agree in a run
* `Transition.runOut_induction`, `Transition.runOut_induction_of_meets` — the invariant rules for
  runs with output
* `Transition.runOut_rel`, `Transition.runOut_rel_of_meets` — the rule for two runs side by side
-/

namespace Transition

section Partial

variable {σ α : Type*} (step : σ → α → Option σ)

/-- The state reached by taking actions in order; `none` once one is refused. -/
def run (s : σ) : List α → Option σ
  | [] => some s
  | a :: as => (step s a).bind fun s' => run s' as

/-- `P` holds in every state the run passes through, its first and last included. -/
def Always (P : σ → Prop) (s : σ) (as : List α) : Prop :=
  ∀ pre s', pre <+: as → run step s pre = some s' → P s'

/-- `C` holds at every step of the run, of the state it is taken in and its action. -/
def Meets (C : σ → α → Prop) (s : σ) (as : List α) : Prop :=
  ∀ pre a s', pre ++ [a] <+: as → run step s pre = some s' → C s' a

variable {step} {P Inv : σ → Prop} {C : σ → α → Prop} {s : σ} {a : α} {as bs : List α}

theorem run_append : run step s (as ++ bs) = (run step s as).bind fun s' => run step s' bs := by
  induction as generalizing s with
  | nil => rfl
  | cons a as ih =>
    simp only [List.cons_append, run]
    cases step s a with
    | none => rfl
    | some s' => exact ih

theorem always_nil : Always step P s [] ↔ P s := by
  constructor
  · intro h
    exact h [] s (List.prefix_refl _) rfl
  · intro h pre s' hpre hrun
    obtain rfl := List.prefix_nil.mp hpre
    exact Option.some.inj hrun ▸ h

theorem always_cons : Always step P s (a :: as) ↔
    P s ∧ ∀ s', step s a = some s' → Always step P s' as := by
  constructor
  · refine fun h => ⟨h [] s List.nil_prefix rfl, fun s' hs' pre s'' hpre hrun => ?_⟩
    exact h (a :: pre) s'' (List.prefix_cons_inj a |>.mpr hpre) (by simp [run, hs', hrun])
  · rintro ⟨h0, h⟩ pre s'' hpre hrun
    cases pre with
    | nil => exact Option.some.inj hrun ▸ h0
    | cons b pre =>
      obtain ⟨rfl, hpre'⟩ := List.cons_prefix_cons.mp hpre
      obtain ⟨s', hs', hrun'⟩ := Option.bind_eq_some_iff.mp hrun
      exact h s' hs' pre s'' hpre' hrun'

theorem meets_cons : Meets step C s (a :: as) ↔
    C s a ∧ ∀ s', step s a = some s' → Meets step C s' as := by
  constructor
  · refine fun h => ⟨h [] a s (by simp) rfl, fun s' hs' pre b s'' hpre hrun => ?_⟩
    exact h (a :: pre) b s'' (List.prefix_cons_inj a |>.mpr hpre) (by simp [run, hs', hrun])
  · rintro ⟨h0, h⟩ pre b s'' hpre hrun
    cases pre with
    | nil =>
      obtain ⟨rfl, -⟩ := List.cons_prefix_cons.mp hpre
      exact Option.some.inj hrun ▸ h0
    | cons c pre =>
      obtain ⟨rfl, hpre'⟩ := List.cons_prefix_cons.mp hpre
      obtain ⟨s', hs', hrun'⟩ := Option.bind_eq_some_iff.mp hrun
      exact h s' hs' pre b s'' hpre' hrun'

theorem meets_nil : Meets step C s [] := by
  intro pre a s' hpre
  simp at hpre

theorem meets_cons_of_none (h : step s a = none) : Meets step C s (a :: as) ↔ C s a := by
  simp [meets_cons, h]

theorem meets_cons_of_some {s' : σ} (h : step s a = some s') :
    Meets step C s (a :: as) ↔ C s a ∧ Meets step C s' as := by
  simp [meets_cons, h]

theorem always_append : Always step P s (as ++ bs) ↔
    Always step P s as ∧ ∀ s', run step s as = some s' → Always step P s' bs := by
  induction as generalizing s with
  | nil =>
    constructor
    · intro h
      exact ⟨always_nil.mpr (h [] s List.nil_prefix rfl), fun s' hs' => Option.some.inj hs' ▸ h⟩
    · exact fun h => h.2 s rfl
  | cons a as ih =>
    rw [List.cons_append, always_cons, always_cons, and_assoc]
    refine and_congr_right fun _ => ?_
    cases hs : step s a with
    | none => simp [run, hs]
    | some s' => simpa [run, hs] using ih

theorem meets_append : Meets step C s (as ++ bs) ↔
    Meets step C s as ∧ ∀ s', run step s as = some s' → Meets step C s' bs := by
  induction as generalizing s with
  | nil => simp [run, meets_nil]
  | cons a as ih =>
    rw [List.cons_append, meets_cons, meets_cons, and_assoc]
    refine and_congr_right fun _ => ?_
    cases hs : step s a with
    | none => simp [run, hs]
    | some s' => simpa [run, hs] using ih

/-- Whether a run meets a condition can be computed. -/
instance decidableMeets [∀ s a, Decidable (C s a)] (s : σ) :
    ∀ as : List α, Decidable (Meets step C s as)
  | [] => isTrue meets_nil
  | a :: as =>
    match h : step s a with
    | none => decidable_of_iff _ (meets_cons_of_none h).symm
    | some s' =>
      have := decidableMeets s' as
      decidable_of_iff _ (meets_cons_of_some h).symm

/-- An invariant that every step meeting a condition keeps holds throughout a run
all of whose steps meet it. -/
theorem always_of_meets (h0 : Inv s)
    (hstep : ∀ s a s', Inv s → C s a → step s a = some s' → Inv s')
    (hmeets : Meets step C s as) : Always step Inv s as := by
  induction as generalizing s with
  | nil => exact always_nil.mpr h0
  | cons a as ih =>
    obtain ⟨ha, has⟩ := meets_cons.mp hmeets
    exact always_cons.mpr ⟨h0, fun s' hs' => ih (hstep s a s' h0 ha hs') (has s' hs')⟩

theorem Always.mono {Q : σ → Prop} (h : Always step P s as) (hPQ : ∀ s, P s → Q s) :
    Always step Q s as :=
  fun pre s' hpre hrun => hPQ s' (h pre s' hpre hrun)

/-- In runs whose steps meet `D`, where `C` is exactly what an enabled step needs to
keep the property, the property holds throughout just when every step meets `C`. `Inv`
is what may be assumed as long as the property has held. -/
theorem always_iff_meets (Inv : σ → Prop) {D : σ → α → Prop} (h0 : Inv s) (hP : P s)
    (hinv : ∀ s a s', Inv s → P s → D s a → step s a = some s' → P s' → Inv s')
    (hexact : ∀ s a s', Inv s → P s → D s a → step s a = some s' → (P s' ↔ C s a))
    (hrefused : ∀ s a, step s a = none → C s a) (hD : Meets step D s as) :
    Always step P s as ↔ Meets step C s as := by
  induction as generalizing s with
  | nil => exact iff_of_true (always_nil.mpr hP) meets_nil
  | cons a as ih =>
    obtain ⟨hDa, hDas⟩ := meets_cons.mp hD
    rw [always_cons, meets_cons]
    cases hs : step s a with
    | none => simp [hP, hrefused s a hs]
    | some s' =>
      have hCP := hexact s a s' h0 hP hDa hs
      have htail : P s' → (Always step P s' as ↔ _) := fun hP' =>
        ih (hinv s a s' h0 hP hDa hs hP') hP' (hDas s' hs)
      constructor
      · rintro ⟨-, h⟩
        -- the property holds in the state the first step leads to
        have hP' : P s' := h s' rfl [] s' List.nil_prefix rfl
        refine ⟨hCP.mp hP', fun t ht => ?_⟩
        obtain rfl := Option.some.inj ht
        exact (htail hP').mp (h s' rfl)
      · rintro ⟨hC, h⟩
        have hP' := hCP.mpr hC
        refine ⟨hP, fun t ht => ?_⟩
        obtain rfl := Option.some.inj ht
        exact (htail hP').mpr (h s' rfl)

/-- The rule for all runs. -/
theorem always_iff_meets_of_inv (Inv : σ → Prop) (h0 : Inv s) (hP : P s)
    (hinv : ∀ s a s', Inv s → P s → step s a = some s' → P s' → Inv s')
    (hexact : ∀ s a s', Inv s → P s → step s a = some s' → (P s' ↔ C s a))
    (hrefused : ∀ s a, step s a = none → C s a) :
    Always step P s as ↔ Meets step C s as := by
  have hall : Meets step (fun _ _ => True) s as := fun _ _ _ _ _ => trivial
  exact always_iff_meets Inv h0 hP (fun s a s' hs hPs _ => hinv s a s' hs hPs)
    (fun s a s' hs hPs _ => hexact s a s' hs hPs) hrefused hall

/-- The rule for a property that needs no invariant besides. -/
theorem always_iff_meets_of_step (hP : P s)
    (hexact : ∀ s a s', P s → step s a = some s' → (P s' ↔ C s a))
    (hrefused : ∀ s a, step s a = none → C s a) :
    Always step P s as ↔ Meets step C s as :=
  always_iff_meets_of_inv P hP hP (fun _ _ _ _ _ _ hP' => hP')
    (fun s a s' _ hPs => hexact s a s' hPs) hrefused

theorem meets_congr {D : σ → α → Prop} (h : ∀ s a, C s a ↔ D s a) :
    Meets step C s as ↔ Meets step D s as := by
  constructor
  · intro hmeets pre a s' hpre hrun
    exact (h s' a).mp (hmeets pre a s' hpre hrun)
  · intro hmeets pre a s' hpre hrun
    exact (h s' a).mpr (hmeets pre a s' hpre hrun)

/-- In runs whose steps meet `D`, two conditions on steps that agree wherever an invariant
holds, which may be kept by the steps that meet them only. -/
theorem meets_iff_meets {D E : σ → α → Prop} (Inv : σ → Prop) (h0 : Inv s)
    (hinv : ∀ s a s', Inv s → D s a → C s a → step s a = some s' → Inv s')
    (h : ∀ s a, Inv s → D s a → (C s a ↔ E s a)) (hD : Meets step D s as) :
    Meets step C s as ↔ Meets step E s as := by
  induction as generalizing s with
  | nil => exact iff_of_true meets_nil meets_nil
  | cons a as ih =>
    obtain ⟨hDa, hDas⟩ := meets_cons.mp hD
    rw [meets_cons, meets_cons, ← h s a h0 hDa]
    refine and_congr_right fun hC => forall_congr' fun s' => ?_
    exact forall_congr' fun hs' => ih (hinv s a s' h0 hDa hC hs') (hDas s' hs')

/-- The rule for all runs. -/
theorem meets_congr_of_inv {E : σ → α → Prop} (Inv : σ → Prop) (h0 : Inv s)
    (hinv : ∀ s a s', Inv s → step s a = some s' → Inv s')
    (h : ∀ s a, Inv s → (C s a ↔ E s a)) : Meets step C s as ↔ Meets step E s as := by
  have hall : Meets step (fun _ _ => True) s as := fun _ _ _ _ _ => trivial
  exact meets_iff_meets Inv h0 (fun s a s' hs _ _ => hinv s a s' hs) (fun s a hs _ => h s a hs) hall

/-- Some run leads from one state to the other. -/
def Reaches (step : σ → α → Option σ) (s s' : σ) : Prop := ∃ as, run step s as = some s'

theorem Reaches.refl (s : σ) : Reaches step s s := ⟨[], rfl⟩

theorem Reaches.single {s' : σ} (h : step s a = some s') : Reaches step s s' :=
  ⟨[a], by simp [run, h]⟩

theorem Reaches.trans {s' s'' : σ} (h : Reaches step s s') (h' : Reaches step s' s'') :
    Reaches step s s'' := by
  obtain ⟨as, has⟩ := h
  obtain ⟨bs, hbs⟩ := h'
  exact ⟨as ++ bs, by rw [run_append, has, Option.bind_some, hbs]⟩

/-! ### Watching a run -/

variable {η : Type*}

/-- The same system with a record of what happened, which no step looks at. -/
def watch (step : σ → α → Option σ) (note : η → σ → α → η) (w : σ × η) (a : α) :
    Option (σ × η) :=
  (step w.1 a).map fun s' => (s', note w.2 w.1 a)

/-- Watching changes nothing about the run. -/
theorem run_watch (note : η → σ → α → η) (w : σ × η) :
    (run (watch step note) w as).map Prod.fst = run step w.1 as := by
  induction as generalizing w with
  | nil => rfl
  | cons a as ih =>
    simp only [run, watch]
    cases step w.1 a with
    | none => rfl
    | some s' => exact ih _

/-- What holds of the system holds of it while it is watched. -/
theorem always_watch (note : η → σ → α → η) (h : η) :
    Always (watch step note) (fun w => P w.1) (s, h) as ↔ Always step P s as := by
  constructor
  · intro hall pre s' hpre hrun
    rw [← run_watch note (s, h)] at hrun
    obtain ⟨w, hw, rfl⟩ := Option.map_eq_some_iff.mp hrun
    exact hall pre w hpre hw
  · intro hall pre w hpre hrun
    refine hall pre w.1 hpre ?_
    rw [← run_watch note (s, h), hrun, Option.map_some]

end Partial

section Output

variable {σ τ α α' β γ : Type*} (step : σ → α → σ × List β)

/-- The last state of a run and everything it emitted, in order. -/
def runOut (s : σ) : List α → σ × List β
  | [] => (s, [])
  | a :: as => ((runOut (step s a).1 as).1, (step s a).2 ++ (runOut (step s a).1 as).2)

variable {step}

@[simp] theorem runOut_nil (s : σ) : runOut step s [] = (s, []) := rfl

@[simp] theorem runOut_cons_fst (s : σ) (a : α) (as : List α) :
    (runOut step s (a :: as)).1 = (runOut step (step s a).1 as).1 := rfl

@[simp] theorem runOut_cons_snd (s : σ) (a : α) (as : List α) :
    (runOut step s (a :: as)).2 = (step s a).2 ++ (runOut step (step s a).1 as).2 := rfl

theorem runOut_append_fst (s : σ) (as bs : List α) :
    (runOut step s (as ++ bs)).1 = (runOut step (runOut step s as).1 bs).1 := by
  induction as generalizing s with
  | nil => rfl
  | cons a as ih => exact ih _

/-- An invariant kept by every action of the run holds at its end. -/
theorem runOut_induction {P : σ → Prop} {s : σ} {as : List α} (h0 : P s)
    (hstep : ∀ s a, a ∈ as → P s → P (step s a).1) : P (runOut step s as).1 := by
  induction as generalizing s with
  | nil => exact h0
  | cons a as ih =>
    exact ih (hstep s a (by simp) h0) fun s b hb => hstep s b (List.mem_cons_of_mem _ hb)

/-- Two runs over related actions, whose steps keep a relation and emit the same
visible output, end related and emit the same visible output. -/
theorem runOut_rel {step' : τ → α' → τ × List β} {R : σ → τ → Prop} {S : α → α' → Prop}
    {visible : β → Option γ} {as : List α} {as' : List α'} {s : σ} {t : τ}
    (has : List.Forall₂ S as as') (h0 : R s t)
    (hstep : ∀ s t a a', S a a' → R s t → R (step s a).1 (step' t a').1 ∧
      (step s a).2.filterMap visible = (step' t a').2.filterMap visible) :
    R (runOut step s as).1 (runOut step' t as').1 ∧
      (runOut step s as).2.filterMap visible = (runOut step' t as').2.filterMap visible := by
  induction has generalizing s t with
  | nil => exact ⟨h0, rfl⟩
  | cons ha _ ih =>
    obtain ⟨hR, hout⟩ := hstep _ _ _ _ ha h0
    obtain ⟨hend, htail⟩ := ih hR
    exact ⟨hend, by simp [hout, htail]⟩

/-- `C` holds at every step of the run, of the state it is taken in and its action. -/
def MeetsOut (step : σ → α → σ × List β) (C : σ → α → Prop) (s : σ) (as : List α) : Prop :=
  ∀ pre a post, as = pre ++ a :: post → C (runOut step s pre).1 a

theorem meetsOut_nil {C : σ → α → Prop} {s : σ} : MeetsOut step C s [] := by
  intro pre a post h
  simp at h

theorem meetsOut_cons {C : σ → α → Prop} {s : σ} {a : α} {as : List α} :
    MeetsOut step C s (a :: as) ↔ C s a ∧ MeetsOut step C (step s a).1 as := by
  constructor
  · intro h
    refine ⟨h [] a as rfl, fun pre b post heq => ?_⟩
    exact h (a :: pre) b post (by rw [heq, List.cons_append])
  · rintro ⟨ha, has⟩ pre b post heq
    cases pre with
    | nil =>
      obtain ⟨rfl, -⟩ := List.cons.inj heq
      exact ha
    | cons c pre =>
      obtain ⟨rfl, rfl⟩ := List.cons.inj heq
      exact has pre b post rfl

/-- An invariant kept by the steps that meet a condition holds at the end of a run that meets
it. -/
theorem runOut_induction_of_meets {C : σ → α → Prop} {P : σ → Prop} {s : σ} {as : List α}
    (hmeets : MeetsOut step C s as) (h0 : P s)
    (hstep : ∀ s a, C s a → P s → P (step s a).1) : P (runOut step s as).1 := by
  induction as generalizing s with
  | nil => exact h0
  | cons a as ih =>
    obtain ⟨ha, has⟩ := meetsOut_cons.mp hmeets
    exact ih has (hstep s a ha h0)

/-- Two runs of the same actions, the first of which meets a condition, where the steps that
meet it keep a relation and emit the same visible output. -/
theorem runOut_rel_of_meets {step' : τ → α → τ × List β} {C : σ → α → Prop} {R : σ → τ → Prop}
    {visible : β → Option γ} {as : List α} {s : σ} {t : τ}
    (hmeets : MeetsOut step C s as) (h0 : R s t)
    (hstep : ∀ s t a, a ∈ as → C s a → R s t → R (step s a).1 (step' t a).1 ∧
      (step s a).2.filterMap visible = (step' t a).2.filterMap visible) :
    R (runOut step s as).1 (runOut step' t as).1 ∧
      (runOut step s as).2.filterMap visible = (runOut step' t as).2.filterMap visible := by
  induction as generalizing s t with
  | nil => exact ⟨h0, rfl⟩
  | cons a as ih =>
    obtain ⟨ha, has⟩ := meetsOut_cons.mp hmeets
    obtain ⟨hR, hout⟩ := hstep s t a List.mem_cons_self ha h0
    obtain ⟨hend, htail⟩ := ih has hR fun s t b hb => hstep s t b (List.mem_cons_of_mem _ hb)
    exact ⟨hend, by simp [hout, htail]⟩

end Output

end Transition
