import Mathlib.Data.List.Basic

/-!
# Statements without a transaction

Statements are carried out one after the other up to the first that returns an error. Nothing
takes back those before it.

## Main definitions

* `Batch.exec` — the state after a batch, and whether it returns no error
* `Batch.upTo` — the state after its first statements

## Main results

* `Batch.exec_append_done`, `Batch.exec_append_error` — one batch after another
* `Batch.exec_of_upTo`, `Batch.exists_upTo` — an error leaves the state after some first
  statements, and any of them
* `Batch.forall_error_iff` — what an error leaves behind, wherever it happens
-/

namespace Batch

variable {σ : Type*}

/-- A batch of statements, each of which gives the state after it or is refused. The database
carries out statement `i` if `ok i`. -/
def exec : List (σ → Option σ) → (Nat → Bool) → σ → σ × Bool
  | [], _, s => (s, true)
  | stmt :: stmts, ok, s =>
    if ok 0 then
      match stmt s with
      | some s' => exec stmts (fun i => ok (i + 1)) s'
      | none => (s, false)
    else (s, false)

/-- The state after the first `n` statements. -/
def upTo : List (σ → Option σ) → Nat → σ → Option σ
  | _, 0, s => some s
  | [], _ + 1, s => some s
  | stmt :: stmts, n + 1, s => (stmt s).bind (upTo stmts n)

variable {stmts : List (σ → Option σ)} {stmt : σ → Option σ} {ok : Nat → Bool} {s s' : σ} {n : Nat}

@[simp] theorem exec_nil : exec [] ok s = (s, true) := rfl

@[simp] theorem upTo_zero : upTo stmts 0 s = some s := by
  cases stmts <;> rfl

@[simp] theorem upTo_cons_succ :
    upTo (stmt :: stmts) (n + 1) s = (stmt s).bind (upTo stmts n) := rfl

theorem exec_fails (h : ok 0 = false) : exec (stmt :: stmts) ok s = (s, false) := by
  simp [exec, h]

theorem exec_refused (h : stmt s = none) : exec (stmt :: stmts) ok s = (s, false) := by
  simp [exec, h]

theorem exec_next (hok : ok 0 = true) (h : stmt s = some s') :
    exec (stmt :: stmts) ok s = exec stmts (fun i => ok (i + 1)) s' := by
  simp [exec, hok, h]

/-- The last statement of a batch. -/
theorem exec_one (h : stmt s = some s') :
    exec [stmt] ok s = if ok 0 then (s', true) else (s, false) := by
  simp [exec, h]

/-- A batch followed by another. -/
theorem exec_append_done {stmts' : List (σ → Option σ)} (h : exec stmts ok s = (s', true)) :
    exec (stmts ++ stmts') ok s = exec stmts' (fun i => ok (i + stmts.length)) s' := by
  induction stmts generalizing ok s with
  | nil =>
    obtain ⟨rfl, -⟩ := Prod.mk.inj h
    rfl
  | cons stmt stmts ih =>
    simp only [exec] at h
    split_ifs at h with hok
    · cases hstmt : stmt s with
      | none => simp [hstmt] at h
      | some s₁ =>
        rw [hstmt] at h
        -- the tail is run with the failures counted from its first statement
        have hshift : (fun i => ok (i + (stmt :: stmts).length)) =
            fun i => ok (i + stmts.length + 1) := by
          ext i
          rw [List.length_cons, Nat.add_assoc]
        rw [List.cons_append, exec_next hok hstmt, ih h, hshift]
    · simp at h

/-- A batch that returns an error, followed by another. -/
theorem exec_append_error {stmts' : List (σ → Option σ)} (h : exec stmts ok s = (s', false)) :
    exec (stmts ++ stmts') ok s = (s', false) := by
  induction stmts generalizing ok s with
  | nil => simp at h
  | cons stmt stmts ih =>
    cases hok : ok 0 with
    | false =>
      rw [exec_fails hok] at h
      rw [List.cons_append, exec_fails hok, h]
    | true =>
      cases hstmt : stmt s with
      | none =>
        rw [exec_refused hstmt] at h
        rw [List.cons_append, exec_refused hstmt, h]
      | some s₁ =>
        rw [exec_next hok hstmt] at h
        rw [List.cons_append, exec_next hok hstmt, ih h]

/-- An error leaves what some first statements made. -/
theorem exists_upTo (h : (exec stmts ok s).2 = false) :
    ∃ n < stmts.length, upTo stmts n s = some (exec stmts ok s).1 := by
  induction stmts generalizing ok s with
  | nil => exact absurd h (by simp)
  | cons stmt stmts ih =>
    cases hok : ok 0 with
    | false => exact ⟨0, by simp, by rw [exec_fails hok, upTo_zero]⟩
    | true =>
      cases hstmt : stmt s with
      | none => exact ⟨0, by simp, by rw [exec_refused hstmt, upTo_zero]⟩
      | some s' =>
        rw [exec_next hok hstmt] at h ⊢
        obtain ⟨n, hn, hupTo⟩ := ih h
        exact ⟨n + 1, by simpa using hn, by rw [upTo_cons_succ, hstmt, Option.bind_some, hupTo]⟩

/-- A batch whose statement `n` fails leaves what those before it made. -/
theorem exec_of_upTo (hn : n < stmts.length) (h : upTo stmts n s = some s') :
    exec stmts (fun i => i != n) s = (s', false) := by
  induction stmts generalizing n s with
  | nil => exact absurd hn (by simp)
  | cons stmt stmts ih =>
    cases n with
    | zero =>
      obtain rfl := Option.some.inj (upTo_zero.symm.trans h)
      exact exec_fails rfl
    | succ n =>
      obtain ⟨s₁, hstmt, hrest⟩ := Option.bind_eq_some_iff.mp h
      have hshift : (fun i => i + 1 != n + 1) = fun i => i != n := by
        ext i
        simp
      rw [exec_next rfl hstmt, hshift]
      exact ih (by simpa using hn) hrest

/-- Something holds after every error exactly if it holds after any first statements but all. -/
theorem forall_error_iff {P : σ → Prop} :
    (∀ ok, (exec stmts ok s).2 = false → P (exec stmts ok s).1) ↔
      ∀ n < stmts.length, ∀ s', upTo stmts n s = some s' → P s' := by
  constructor
  · intro h n hn s' hupTo
    -- a failure of statement `n` stops there
    have hexec := exec_of_upTo hn hupTo
    have hleft := h (fun i => i != n) (by rw [hexec])
    rwa [hexec] at hleft
  · intro h ok herror
    obtain ⟨n, hn, hupTo⟩ := exists_upTo herror
    exact h n hn _ hupTo

end Batch
