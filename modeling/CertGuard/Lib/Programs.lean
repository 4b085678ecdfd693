import CertGuard.Lib.TransitionRun

/-!
# Programs cut at their statements

A program is a tree of statements, each with what follows what it read and what follows if it
fails. Any number of programs run at the same time over one state, one statement at a time.

## Main definitions

* `Prog` — a program over a state `σ` with statements `α`
* `Prog.exec` — the state it leads to by itself
* `Concurrent`, `Concurrent.step` — programs that run at the same time
* `Concurrent.effect` — the statement an action gives effect to
* `Prog.Heeds` — what a program does next by what its last statement found
* `Concurrent.found`, `Concurrent.Heeding` — a record of what the last statements found, and
  programs that go by it

## Main results

* `Prog.exec_andThen`, `Prog.exec_each` — sequences and loops
* `Concurrent.reaches_exec` — a program that is not interrupted does what it does by itself
* `Concurrent.heeding_step`, `Concurrent.Heeding.effect` — programs go by what they found,
  whatever comes in between
-/

/-- A program: `next` is what follows a statement in the state it found, `fail` what follows
its failure. -/
inductive Prog (σ α : Type)
  | done
  | stmt (a : α) (next : σ → Prog σ α) (fail : Prog σ α)

namespace Prog

variable {σ α β : Type}

/-- One program after another. -/
def andThen : Prog σ α → Prog σ α → Prog σ α
  | done, q => q
  | stmt a next fail, q => stmt a (fun s => (next s).andThen q) (fail.andThen q)

/-- A program for each of a list. -/
def each (body : β → Prog σ α) : List β → Prog σ α
  | [] => done
  | b :: bs => (body b).andThen (each body bs)

/-- A statement, whatever comes of it. -/
def only (a : α) : Prog σ α := stmt a (fun _ => done) done

variable (run : α → σ → σ)

/-- The state a program leads to by itself, when no statement fails. -/
def exec : Prog σ α → σ → σ
  | done, s => s
  | stmt a next _, s => (next s).exec (run a s)

@[simp] theorem exec_done (s : σ) : exec run (done : Prog σ α) s = s := rfl

@[simp] theorem exec_stmt (a : α) (next : σ → Prog σ α) (fail : Prog σ α) (s : σ) :
    exec run (stmt a next fail) s = exec run (next s) (run a s) := rfl

@[simp] theorem exec_only (a : α) (s : σ) : exec run (only a) s = run a s := rfl

@[simp] theorem exec_andThen (p q : Prog σ α) (s : σ) :
    exec run (p.andThen q) s = exec run q (exec run p s) := by
  induction p generalizing s with
  | done => rfl
  | stmt a next fail ih _ => exact ih s (run a s)

theorem exec_each (body : β → Prog σ α) (bs : List β) (s : σ) :
    exec run (each body bs) s = bs.foldl (fun s b => exec run (body b) s) s := by
  induction bs generalizing s with
  | nil => rfl
  | cons b bs ih => rw [each, exec_andThen, ih, List.foldl_cons]

/-! ### What a program goes by -/

/-- Every statement of a program meets a condition on the statement before it and the state that
found; the first, and what follows a failure, on what is known by then. -/
def Heeds (C : Option (α × σ) → α → Prop) : Option (α × σ) → Prog σ α → Prop
  | _, done => True
  | e, stmt a next fail => C e a ∧ (∀ s, Heeds C (some (a, s)) (next s)) ∧ Heeds C none fail

variable {C : Option (α × σ) → α → Prop} {e : Option (α × σ)} {p q : Prog σ α}

theorem heeds_done (e : Option (α × σ)) : (done : Prog σ α).Heeds C e := trivial

theorem Heeds.andThen (hp : p.Heeds C e) (hq : ∀ e, q.Heeds C e) : (p.andThen q).Heeds C e := by
  induction p generalizing e with
  | done => exact hq e
  | stmt a next fail ihnext ihfail =>
    exact ⟨hp.1, fun s => ihnext s (hp.2.1 s), ihfail hp.2.2⟩

theorem Heeds.each {body : β → Prog σ α} {bs : List β}
    (hbody : ∀ b ∈ bs, ∀ e, (body b).Heeds C e) (e : Option (α × σ)) :
    (each body bs).Heeds C e := by
  induction bs generalizing e with
  | nil => trivial
  | cons b bs ih =>
    refine (hbody b List.mem_cons_self e).andThen fun e' => ih (fun b' hb' => ?_) e'
    exact hbody b' (List.mem_cons_of_mem _ hb')

theorem heeds_only {a : α} : (only a : Prog σ α).Heeds C e ↔ C e a := by
  simp [only, Heeds]

end Prog

/-- A state with programs that run over it, each with what it was started for. -/
structure Concurrent (σ α β : Type) where
  state : σ
  running : List (β × Prog σ α)

/-- A program is started, or takes its next statement, which may fail. -/
inductive ProgAct (β : Type)
  | start (b : β)
  | step (i : Nat) (ok : Bool)

namespace Concurrent

open Transition

variable {σ α β : Type} (code : β → Prog σ α) (run : α → σ → σ)

/-- An action: there has to be a statement to take. -/
def step (w : Concurrent σ α β) : ProgAct β → Option (Concurrent σ α β)
  | .start b => some { w with running := w.running ++ [(b, code b)] }
  | .step i ok =>
    match w.running[i]? with
    | some (b, .stmt a next fail) =>
      if ok then some ⟨run a w.state, w.running.set i (b, next w.state)⟩
      else some ⟨w.state, w.running.set i (b, fail)⟩
    | _ => none

/-- The statement that takes effect with an action, by which program and what that was started
for. -/
def effect (w : Concurrent σ α β) : ProgAct β → Option (Nat × β × α)
  | .start _ => none
  | .step i ok =>
    match w.running[i]? with
    | some (b, .stmt a _ _) => if ok then some (i, b, a) else none
    | _ => none

variable {code run} {w w' : Concurrent σ α β} {act : ProgAct β} {acts : List (ProgAct β)}
variable {s : σ} {b : β} {p : Prog σ α} {ps qs : List (β × Prog σ α)} {i : Nat} {ok : Bool}

/-- Without a statement the state stays as it is. -/
theorem state_of_effect_none (heffect : w.effect act = none)
    (hstep : w.step code run act = some w') : w'.state = w.state := by
  cases act with
  | start b =>
    obtain rfl := Option.some.inj hstep
    rfl
  | step i ok =>
    simp only [step] at hstep
    simp only [effect] at heffect
    split at hstep
    · next b a next fail hi =>
      rw [hi] at heffect
      split_ifs at hstep with hok
      · exact absurd heffect (by simp [hok])
      · exact Option.some.inj hstep ▸ rfl
    · exact absurd hstep (by simp)

/-- A statement is all that changes the state. -/
theorem state_of_effect_some {a : α} (heffect : w.effect act = some (i, b, a))
    (hstep : w.step code run act = some w') : w'.state = run a w.state := by
  cases act with
  | start b => exact absurd heffect (by simp [effect])
  | step j ok =>
    simp only [step] at hstep
    simp only [effect] at heffect
    split at hstep
    · next b a next fail hi =>
      rw [hi] at heffect
      split_ifs at hstep with hok
      · simp only [hok, if_true, Option.some.injEq, Prod.mk.injEq] at heffect
        obtain ⟨-, -, rfl⟩ := heffect
        exact Option.some.inj hstep ▸ rfl
      · exact absurd heffect (by simp [hok])
    · exact absurd hstep (by simp)

/-- No statement takes effect with an action that is refused. -/
theorem effect_of_refused (hrefused : w.step code run act = none) : w.effect act = none := by
  cases act with
  | start b => exact absurd hrefused (by simp [step])
  | step i ok =>
    simp only [step] at hrefused
    simp only [effect]
    split at hrefused
    · split_ifs at hrefused
    · rfl

/-- No program is forgotten. -/
theorem length_step (hstep : w.step code run act = some w') :
    w.running.length ≤ w'.running.length := by
  cases act with
  | start b =>
    obtain rfl := Option.some.inj hstep
    simp
  | step i ok =>
    simp only [step] at hstep
    split at hstep
    · split_ifs at hstep <;> exact Option.some.inj hstep ▸ (List.length_set).ge
    · exact absurd hstep (by simp)

/-- What runs after a step ran before, or was just started. -/
theorem running_of_step (hstep : w.step code run act = some w')
    (hi : w'.running[i]? = some (b, p)) :
    (∃ p', w.running[i]? = some (b, p')) ∨ act = .start b ∧ i = w.running.length := by
  cases act with
  | start b' =>
    obtain rfl := Option.some.inj hstep
    dsimp only at hi
    rw [List.getElem?_append] at hi
    split_ifs at hi with hlt
    · exact Or.inl ⟨p, hi⟩
    · rw [List.getElem?_singleton] at hi
      split_ifs at hi with hzero
      obtain ⟨rfl, -⟩ := Prod.mk.inj (Option.some.inj hi)
      exact Or.inr ⟨rfl, by omega⟩
  | step j ok =>
    -- a step replaces what is left of one program
    have hset : ∀ {b' : β} {p' q : Prog σ α}, w.running[j]? = some (b', p') →
        (w.running.set j (b', q))[i]? = some (b, p) → ∃ p', w.running[i]? = some (b, p') := by
      intro b' p' q hj hp
      rw [List.getElem?_set] at hp
      split_ifs at hp with hji
      · obtain ⟨rfl, -⟩ := Prod.mk.inj (Option.some.inj hp)
        exact ⟨p', hji ▸ hj⟩
      · exact ⟨p, hp⟩
    simp only [step] at hstep
    split at hstep
    · next b' a next fail hj =>
      split_ifs at hstep <;> obtain rfl := Option.some.inj hstep <;> exact Or.inl (hset hj hi)
    · exact absurd hstep (by simp)

/-- Only a program that was started takes a statement. -/
theorem running_of_effect {a : α} (heffect : w.effect act = some (i, b, a)) :
    ∃ p, w.running[i]? = some (b, p) := by
  cases act with
  | start b => exact absurd heffect (by simp [effect])
  | step j ok =>
    simp only [effect] at heffect
    split at heffect
    · next b' a' next fail hj =>
      split_ifs at heffect
      obtain ⟨rfl, hrest⟩ := Prod.mk.inj (Option.some.inj heffect)
      obtain ⟨rfl, -⟩ := Prod.mk.inj hrest
      exact ⟨_, hj⟩
    · exact absurd heffect (by simp)

theorem lt_of_effect {a : α} (heffect : w.effect act = some (i, b, a)) :
    i < w.running.length := by
  obtain ⟨p, hi⟩ := running_of_effect heffect
  exact (List.getElem?_eq_some_iff.mp hi).1

/-! ### What programs found -/

/-- The last statement of each program and the state it found, unless it failed. -/
def found (f : Nat → Option (α × σ)) (w : Concurrent σ α β) : ProgAct β → Nat → Option (α × σ)
  | .start _ => f
  | .step i ok =>
    match w.running[i]? with
    | some (_, .stmt a _ _) => Function.update f i (if ok then some (a, w.state) else none)
    | _ => f

/-- Each program goes on by what its last statement found. -/
def Heeding (C : β → Option (α × σ) → α → Prop)
    (v : Concurrent σ α β × (Nat → Option (α × σ))) : Prop :=
  ∀ (i : Nat) (b : β) (p : Prog σ α), v.1.running[i]? = some (b, p) → p.Heeds (C b) (v.2 i)

variable {C : β → Option (α × σ) → α → Prop} {f : Nat → Option (α × σ)}

theorem heeding_start (s : σ) (f : Nat → Option (α × σ)) : Heeding C (⟨s, []⟩, f) :=
  fun _ _ _ hi => absurd hi (by simp)

theorem heeding_step (hcode : ∀ b e, (code b).Heeds (C b) e) (h : Heeding C (w, f))
    (hstep : step code run w act = some w') : Heeding C (w', found f w act) := by
  intro j b p hj
  cases act with
  | start b' =>
    obtain rfl := Option.some.inj hstep
    dsimp only at hj
    rw [List.getElem?_append] at hj
    split_ifs at hj
    · exact h j b p hj
    · rw [List.getElem?_singleton] at hj
      split_ifs at hj
      obtain ⟨rfl, rfl⟩ := Prod.mk.inj (Option.some.inj hj)
      exact hcode b' _
  | step i ok =>
    simp only [step] at hstep
    split at hstep
    · next b' a next fail hi =>
      obtain ⟨-, hnext, hfail⟩ := h i b' _ hi
      have hfound : found f w (.step i ok) =
          Function.update f i (if ok then some (a, w.state) else none) := by
        simp only [found, hi]
      rw [hfound]
      -- its own last statement, or that of another program
      have hset : ∀ p', (w.running.set i (b', p'))[j]? = some (b, p) →
          j = i ∧ b = b' ∧ p = p' ∨ j ≠ i ∧ w.running[j]? = some (b, p) := by
        intro p' hp'
        rw [List.getElem?_set] at hp'
        split_ifs at hp' with hij
        · obtain ⟨rfl, rfl⟩ := Prod.mk.inj (Option.some.inj hp')
          exact Or.inl ⟨hij.symm, rfl, rfl⟩
        · exact Or.inr ⟨Ne.symm hij, hp'⟩
      split_ifs at hstep with hok <;> obtain rfl := Option.some.inj hstep
      · rcases hset _ hj with ⟨rfl, rfl, rfl⟩ | ⟨hij, hold⟩
        · simp only [Function.update_self, hok, if_true]
          exact hnext w.state
        · simp only [Function.update_of_ne hij]
          exact h j b p hold
      · rcases hset _ hj with ⟨rfl, rfl, rfl⟩ | ⟨hij, hold⟩
        · simp only [Function.update_self, hok]
          exact hfail
        · simp only [Function.update_of_ne hij]
          exact h j b p hold
    · exact absurd hstep (by simp)

/-- A statement that takes effect goes by what its program found. -/
theorem Heeding.effect {a : α} (h : Heeding C (w, f)) (heffect : w.effect act = some (i, b, a)) :
    C b (f i) a := by
  cases act with
  | start b' => exact absurd heffect (by simp [Concurrent.effect])
  | step j ok =>
    simp only [Concurrent.effect] at heffect
    split at heffect
    · next b' a' next fail hj =>
      split_ifs at heffect
      simp only [Option.some.injEq, Prod.mk.injEq] at heffect
      obtain ⟨rfl, rfl, rfl⟩ := heffect
      exact (h j b' _ hj).1
    · exact absurd heffect (by simp)

/-- What a program last found is what it had found before, or a statement that takes effect. -/
theorem found_eq_some {a : α} (h : found f w act i = some (a, s)) :
    f i = some (a, s) ∨ s = w.state ∧ ∃ b, w.effect act = some (i, b, a) := by
  cases act with
  | start b => exact Or.inl h
  | step j ok =>
    simp only [found] at h
    rcases hj : w.running[j]? with _ | ⟨b', _ | ⟨a', next, fail⟩⟩ <;> rw [hj] at h
    · exact Or.inl h
    · exact Or.inl h
    · by_cases hij : i = j
      · subst hij
        simp only [Function.update_self] at h
        split_ifs at h with hok
        obtain ⟨rfl, rfl⟩ := Prod.mk.inj (Option.some.inj h)
        exact Or.inr ⟨rfl, b', by simp [Concurrent.effect, hj, hok]⟩
      · simp only [Function.update_of_ne hij] at h
        exact Or.inl h

/-- A program that takes its statements one after the other, with none failing and no other in
between, leads where it leads by itself. -/
theorem reaches_done (s : σ) (b : β) (p : Prog σ α) (ps : List (β × Prog σ α)) :
    Reaches (step code run) ⟨s, ps ++ [(b, p)]⟩ ⟨p.exec run s, ps ++ [(b, .done)]⟩ := by
  induction p generalizing s with
  | done => exact Reaches.refl _
  | stmt a next fail ih _ =>
    refine Reaches.trans (Reaches.single (a := ProgAct.step ps.length true) ?_) (ih s (run a s))
    simp only [step, List.getElem?_append_right (Nat.le_refl _), Nat.sub_self,
      List.getElem?_cons_zero, if_true]
    simp

/-- A program that is started and not interrupted does what it does by itself. -/
theorem reaches_exec (w : Concurrent σ α β) (b : β) :
    Reaches (step code run) w
      ⟨(code b).exec run w.state, w.running ++ [(b, .done)]⟩ := by
  have hstart : Reaches (step code run) w ⟨w.state, w.running ++ [(b, code b)]⟩ :=
    Reaches.single (a := ProgAct.start b) rfl
  exact hstart.trans (reaches_done w.state b (code b) w.running)

end Concurrent
