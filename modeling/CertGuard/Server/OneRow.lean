import CertGuard.Server.EntryPrograms

/-!
# One entry at an address

An upsert looks for an entry at the address and inserts one if there is none. Nothing keeps a
second upsert from looking in between, and then both insert.

## Main definitions

* `OneEach` — no two active entries at an address
* `InsertsUndisturbed` — between its look and its insert no entry comes to the address

## Main results

* `find_eq_none_iff_undisturbed` — an insert finds the address free exactly if this is so
* `one_each_iff` — there is one entry at an address exactly in runs where this is so
* `inserted_twice` — and a run of two scans that does not
-/

namespace CertGuard

open Transition

/-- A request or a sweep begins, or takes its next statement. -/
abbrev entryStep : Concurrent Store EntryStmt EntryCall → ProgAct EntryCall →
    Option (Concurrent Store EntryStmt EntryCall) :=
  Concurrent.step EntryCall.code EntryStmt.run

/-- At most one active entry is at an address with a host. -/
def OneEach (s : Store) : Prop :=
  ∀ host port id id', host ≠ "" → s.IsAt id host port → s.IsAt id' host port → id = id'

/-- An insert under a host finds no active entry at the address. -/
def InsertsNew (s : Store) : EntryStmt → Prop
  | .insert _ u => u.host ≠ "" → u.find s = none
  | _ => True

variable {s : Store} {a : EntryStmt}

/-- A statement keeps one entry at an address exactly if it inserts only where there is none. -/
theorem oneEach_run (h : OneEach s) : OneEach (a.run s) ↔ InsertsNew s a := by
  by_cases hmoves : a.Moves
  · cases a with
    | insert now u =>
      constructor
      · intro hafter hhost
        cases hfind : u.find s with
        | none => rfl
        | some e =>
          -- what is found and what is inserted would be two at one address
          have hfound := Store.isAt_of_find hfind
          have hsame := hafter u.host u.port e.id s.certs.nextKey hhost
            (isAt_insert.mpr (Or.inl hfound)) (isAt_insert.mpr (Or.inr ⟨rfl, rfl, rfl⟩))
          obtain ⟨r, hrow, -⟩ := hfound
          exact absurd hsame (Table.ne_nextKey hrow)
      · intro hnew host port id id' hhost hid hid'
        -- the new entry has the address to itself
        have hfree : ∀ k, s.IsAt k host port → ¬ (u.host = host ∧ u.port = port) := by
          rintro k hk ⟨rfl, rfl⟩
          exact Store.find_eq_none_iff.mp (hnew hhost) k hk
        rcases isAt_insert.mp hid with hold | ⟨hkey, haddress⟩ <;>
          rcases isAt_insert.mp hid' with hold' | ⟨hkey', haddress'⟩
        · exact h host port id id' hhost hold hold'
        · exact absurd haddress' (hfree id hold)
        · exact absurd haddress (hfree id' hold')
        · exact hkey.trans hkey'.symm
    | softDelete gone =>
      refine iff_of_true (fun host port id id' hhost hid hid' => ?_) trivial
      exact h host port id id' hhost (isAt_softDelete.mp hid).1 (isAt_softDelete.mp hid').1
    | _ => exact absurd hmoves id
  · have hsame : OneEach (a.run s) ↔ OneEach s := by
      simp only [OneEach, isAt_other hmoves]
    refine hsame.trans (iff_of_true h ?_)
    cases a with
    | insert now u => exact absurd trivial hmoves
    | _ => trivial

/-! ### Between a look and an insert -/

/-- What the last statement of each program was, and what it found. -/
abbrev Looks := Nat → Option (EntryStmt × Store)

/-- Requests and sweeps with a record of this. -/
abbrev lookStep : Concurrent Store EntryStmt EntryCall × Looks → ProgAct EntryCall →
    Option (Concurrent Store EntryStmt EntryCall × Looks) :=
  watch entryStep Concurrent.found

/-- The active entries at the address of an insert were there when its program looked. -/
def InsertsUndisturbed (v : Concurrent Store EntryStmt EntryCall × Looks)
    (act : ProgAct EntryCall) : Prop :=
  ∀ i q now u, v.1.effect act = some (i, q, .insert now u) → u.host ≠ "" →
    ∀ a s, v.2 i = some (a, s) → ∀ id, v.1.state.IsAt id u.host u.port → s.IsAt id u.host u.port

variable {w w' : Concurrent Store EntryStmt EntryCall} {looks : Looks} {act : ProgAct EntryCall}
variable {i : Nat} {q : EntryCall} {now : Int} {u : Upsert}

/-- Nothing is asked of a statement that inserts nothing. -/
theorem insertsUndisturbed_of_not_inserts
    (h : (w.effect act).all (fun e => !e.2.2.inserts) = true) :
    InsertsUndisturbed (w, looks) act := by
  intro i q now u heffect
  rw [heffect] at h
  exact absurd h Bool.false_ne_true

/-- An insert finds the address free exactly if no entry came there since its program looked. -/
theorem find_eq_none_iff_undisturbed (h : Concurrent.Heeding GoesByRead (w, looks))
    (heffect : w.effect act = some (i, q, .insert now u)) : u.find w.state = none ↔
      ∀ a s, looks i = some (a, s) → ∀ id, w.state.IsAt id u.host u.port →
        s.IsAt id u.host u.port := by
  -- the look right before it found nothing
  obtain ⟨refreshed, s, hlook, hfree, -⟩ := h.effect heffect
  constructor
  · intro hnow a s' _ id hid
    exact absurd hid (Store.find_eq_none_iff.mp hnow id)
  · intro hsame
    refine Store.find_eq_none_iff.mpr fun id hid => ?_
    exact Store.find_eq_none_iff.mp hfree id (hsame _ s hlook id hid)

theorem oneEach_step (hheeds : Concurrent.Heeding GoesByRead (w, looks)) (h : OneEach w.state)
    (hstep : entryStep w act = some w') :
    OneEach w'.state ↔ InsertsUndisturbed (w, looks) act := by
  cases heffect : w.effect act with
  | none =>
    rw [Concurrent.state_of_effect_none heffect hstep]
    exact iff_of_true h fun i q now u hi => absurd (heffect.symm.trans hi) (by simp)
  | some e =>
    obtain ⟨i, q, a⟩ := e
    rw [Concurrent.state_of_effect_some heffect hstep, oneEach_run h]
    by_cases hinsert : ∃ now u, a = .insert now u
    · obtain ⟨now, u, rfl⟩ := hinsert
      rw [InsertsNew, find_eq_none_iff_undisturbed hheeds heffect]
      constructor
      · intro hnew i' q' now' u' heffect' hhost
        obtain ⟨rfl, hrest⟩ := Prod.mk.inj (Option.some.inj (heffect.symm.trans heffect'))
        obtain ⟨-, hinsert⟩ := Prod.mk.inj hrest
        obtain ⟨-, rfl⟩ := EntryStmt.insert.inj hinsert
        exact hnew hhost
      · exact fun hsame hhost => hsame i q now u heffect hhost
    · refine iff_of_true ?_ fun i' q' now' u' heffect' => ?_
      · cases a with
        | insert now u => exact absurd ⟨now, u, rfl⟩ hinsert
        | _ => trivial
      · obtain ⟨-, hrest⟩ := Prod.mk.inj (Option.some.inj (heffect.symm.trans heffect'))
        exact absurd ⟨now', u', (Prod.mk.inj hrest).2⟩ hinsert

/-- From every store with one active entry at an address, in every run of scans, lookups,
rescans, deletes and sweeps, any number at the same time and cut at their statements, of which
any may fail: there is never a second one exactly if between the look of an upsert and its insert
no entry comes to the address that is still active by then. -/
theorem one_each_iff (s : Store) (acts : List (ProgAct EntryCall)) (h : OneEach s) :
    Always entryStep (fun w => OneEach w.state) ⟨s, []⟩ acts ↔
      Meets lookStep InsertsUndisturbed (⟨s, []⟩, fun _ => none) acts := by
  rw [← always_watch Concurrent.found fun _ => none]
  refine always_iff_meets_of_inv (Concurrent.Heeding GoesByRead)
    (Concurrent.heeding_start s fun _ => none) h ?_ ?_ ?_
  · rintro ⟨w, looks⟩ act ⟨w', looks'⟩ hheeds - hstep -
    obtain ⟨w'', hstep', heq⟩ := Option.map_eq_some_iff.mp hstep
    obtain ⟨rfl, rfl⟩ := Prod.mk.inj heq
    exact Concurrent.heeding_step heeds_code hheeds hstep'
  · rintro ⟨w, looks⟩ act ⟨w', looks'⟩ hheeds hone hstep
    obtain ⟨w'', hstep', heq⟩ := Option.map_eq_some_iff.mp hstep
    obtain ⟨rfl, rfl⟩ := Prod.mk.inj heq
    exact oneEach_step hheeds hone hstep'
  · rintro ⟨w, looks⟩ act hrefused i q now u heffect
    have hnone := Concurrent.effect_of_refused (Option.map_eq_none_iff.mp hrefused)
    exact absurd (hnone.symm.trans heffect) (by simp)

theorem oneEach_empty : OneEach {} := by
  rintro host port id id' - ⟨r, hrow, -⟩
  exact absurd hrow (by simp)

/-- A request to scan an endpoint that answers. -/
def demoRequest : EntryCall :=
  .scan "" 0 (fun _ _ _ => .ok { sha256 := "aa" }) (some { target := .ok ("a", 443) })

/-- Two requests, one after the other. -/
def oneScanAfterTheOther : List (ProgAct EntryCall) :=
  [.start demoRequest, .start demoRequest, .step 0 true, .step 0 true, .step 1 true, .step 1 true]

theorem one_each_demo :
    Always entryStep (fun w => OneEach w.state) ⟨{}, []⟩ oneScanAfterTheOther := by
  refine (one_each_iff {} _ oneEach_empty).mpr ?_
  refine meets_cons.mpr ⟨insertsUndisturbed_of_not_inserts rfl, fun v hv => ?_⟩
  obtain rfl := Option.some.inj hv
  refine meets_cons.mpr ⟨insertsUndisturbed_of_not_inserts rfl, fun v hv => ?_⟩
  obtain rfl := Option.some.inj hv
  refine meets_cons.mpr ⟨insertsUndisturbed_of_not_inserts rfl, fun v hv => ?_⟩
  obtain rfl := Option.some.inj hv
  refine meets_cons.mpr ⟨?_, fun v hv => ?_⟩
  · -- nothing is there yet
    rintro i q now u - - a s - id ⟨r, hrow, -⟩
    have hnone : (Table.empty : Table CertRow).get? id = some r := hrow
    exact absurd hnone (by simp)
  obtain rfl := Option.some.inj hv
  refine meets_cons.mpr ⟨insertsUndisturbed_of_not_inserts rfl, fun v hv => ?_⟩
  obtain rfl := Option.some.inj hv
  -- the second finds what the first inserted
  exact meets_cons.mpr ⟨insertsUndisturbed_of_not_inserts rfl, fun v hv => meets_nil⟩

/-- Two requests look for the entry before either inserts it. -/
def twoScans : List (ProgAct EntryCall) :=
  [.start demoRequest, .start demoRequest, .step 0 true, .step 1 true, .step 0 true, .step 1 true]

theorem inserted_twice : ¬ ∀ s acts, OneEach s →
    Always entryStep (fun w => OneEach w.state) ⟨s, []⟩ acts := by
  intro hall
  have hboth : (run entryStep ⟨{}, []⟩ twoScans).map (fun w =>
      decide (w.state.IsAt 1 "a" 443 ∧ w.state.IsAt 2 "a" 443)) = some true := by decide +kernel
  obtain ⟨w, hrun, hw⟩ := Option.map_eq_some_iff.mp hboth
  obtain ⟨hfirst, hsecond⟩ := of_decide_eq_true hw
  have hone := hall {} twoScans oneEach_empty _ w (List.prefix_refl _) hrun
  exact absurd (hone "a" 443 1 2 (by decide) hfirst hsecond) (by decide)

end CertGuard
