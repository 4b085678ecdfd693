import CertGuard.Scheduler.Interleaving
import CertGuard.Scheduler.Runs

/-!
# Marks that are overwritten

`UpsertScan` reads the counters of an entry, computes them and writes them back. Where it
finds nothing new it writes back what it read, also where a pass marked an alert in
between.

## Main definitions

* `MarkLog` — what the marks wrote, and whose reads are older
* `MarksKept` — every counter is what the last mark wrote
* `WritesBackKept` — what a statement must meet so that this stays so

## Main results

* `marks_kept_iff` — no mark of a run is lost exactly if its statements meet this
* `mark_lost` — and a run with one that does not
-/

namespace CertGuard

open Transition

/-- The counter stored for an entry; 0 without a row. -/
def Store.counterAt (s : Store) (a : Alert) (id : Int) : Int :=
  ((s.certs.get? id).map a.counter).getD 0

/-- What happened in a run as far as marks go. -/
structure MarkLog where
  /-- What the last mark wrote, or what was stored at the beginning. -/
  kept : Int → Alert → Int
  /-- Since the process last read, an alert about the entry was marked. -/
  older : Nat → Int → Alert → Bool

namespace MarkLog

/-- Nothing was marked yet. -/
def start (s : Store) : MarkLog := ⟨fun id a => s.counterAt a id, fun _ _ _ => false⟩

/-- What happened once process `i` has taken a statement. -/
def after (g : MarkLog) (i : Nat) : Effect → MarkLog
  | .read => { g with older := fun j id a => j ≠ i && g.older j id a }
  | .marked _ a c th =>
    { kept := fun id b => if id = c.id ∧ b = a then th else g.kept id b
      older := fun j id b => g.older j id b || (id = c.id && b = a) }
  | _ => g

/-- Keeps the log of a run. -/
def note (g : MarkLog) (y : System) : Act → MarkLog
  | .step i clock ok => g.after i (y.effect (.step i clock ok))
  | _ => g

/-- Every counter is what the last mark wrote. -/
def Agrees (g : MarkLog) (s : Store) : Prop := ∀ id a, s.counterAt a id = g.kept id a

end MarkLog

/-- Every counter is what the last mark wrote, and no alert is due again in the bucket it
was marked in. -/
def MarksKept (w : System × MarkLog) : Prop :=
  w.2.Agrees w.1.store ∧ ∀ id c a now, w.1.store.getByID id = some c →
    a.current c now = w.2.kept id a → ¬ 0 < a.due c now

/-- What a statement of process `i` must meet: an `UPDATE` by a scan that read the entry
before an alert was marked writes back what the mark wrote. -/
def WritesBackKept (g : MarkLog) (i : Nat) : Effect → Prop
  | .wrote _ _ _ (some e) => ∀ a : Alert, g.older i e.id a = true → a.last e = g.kept e.id a
  | _ => True

instance (g : MarkLog) (i : Nat) : DecidablePred (WritesBackKept g i) := fun eff => by
  unfold WritesBackKept
  split <;> infer_instance

/-- The statement taken next writes back what the marks wrote. -/
def WritesBackKeptStep (w : System × MarkLog) : Act → Prop
  | .step i clock ok => WritesBackKept w.2 i (w.1.effect (.step i clock ok))
  | _ => True

instance (w : System × MarkLog) (act : Act) : Decidable (WritesBackKeptStep w act) := by
  unfold WritesBackKeptStep
  split <;> infer_instance

/-- A scan that writes found the certificate and the chain it had read. -/
def Effect.FoundSame : Effect → Prop
  | .wrote _ _ res (some e) => ∀ a : Alert, a.ident e = a.found res
  | _ => True

instance : DecidablePred Effect.FoundSame := fun eff => by
  unfold Effect.FoundSame
  split <;> infer_instance

/-- The statement taken next finds nothing new. -/
def FoundSameStep (w : System × MarkLog) (act : Act) : Prop := (w.1.effect act).FoundSame

instance (w : System × MarkLog) (act : Act) : Decidable (FoundSameStep w act) :=
  inferInstanceAs (Decidable (w.1.effect act).FoundSame)

variable {s : Store} {g : MarkLog} {i j : Nat} {eff : Effect} {a : Alert} {id : Int} {r : CertRow}
variable {p p' : Proc} {w w' : System × MarkLog} {act : Act}

theorem counterAt_of_get? (h : s.certs.get? id = some r) : s.counterAt a id = a.counter r := by
  simp [Store.counterAt, h]

theorem counterAt_of_none (h : s.certs.get? id = none) : s.counterAt a id = 0 := by
  simp [Store.counterAt, h]

theorem counterAt_apply_of_none (h : s.certs.get? id = none) :
    (eff.apply s).counterAt a id = 0 := by
  cases hrow : (eff.apply s).certs.get? id with
  | none => exact counterAt_of_none hrow
  | some r =>
    rw [counterAt_of_get? hrow]
    rcases Effect.row_of_get?_apply hrow with ⟨r, hget, -⟩ | ⟨-, hzero⟩
    · simp [h] at hget
    · exact hzero a

/-- No alert is due in the bucket its counter stands at. -/
theorem not_due_of_current_eq_last {c : Cert} {now : Int} (h : a.current c now = a.last c) :
    ¬ 0 < a.due c now := by
  rw [Alert.due_eq_escalate, h]
  unfold escalate
  split_ifs <;> omega

theorem marksKept_iff : MarksKept w ↔ w.2.Agrees w.1.store := by
  refine ⟨And.left, fun h => ⟨h, fun id c a now hc hcurrent => ?_⟩⟩
  obtain ⟨r, hrow, rfl⟩ := Option.map_eq_some_iff.mp hc
  apply not_due_of_current_eq_last
  rw [hcurrent, ← h, counterAt_of_get? hrow, Alert.last_scanRowValues]

namespace MarkLog

/-! ### One statement -/

/-- What process `i` read is what the marks wrote, unless its read is older. -/
def Follows (g : MarkLog) (s : Store) (i : Nat) (p : Proc) : Prop :=
  ∀ x ∈ p.pending, ∃ r, s.certs.get? x.2.id = some r ∧
    (g.older i x.2.id x.1 = false → x.1.last x.2 = g.kept x.2.id x.1)

/-- A read that a statement leaves up to date was so before, and no mark was written. -/
theorem upToDate_after (hj : eff = .read → j ≠ i)
    (hnew : (g.after i eff).older j id a = false) :
    g.older j id a = false ∧ (g.after i eff).kept id a = g.kept id a := by
  cases eff with
  | read =>
    simp only [after, Bool.and_eq_false_iff, decide_eq_false_iff_not, not_not] at hnew
    exact ⟨hnew.resolve_left (hj rfl), rfl⟩
  | marked clock b c th =>
    simp only [after, Bool.or_eq_false_iff] at hnew
    refine ⟨hnew.1, if_neg fun h => ?_⟩
    simp [h.1, h.2] at hnew
  | sent b c taken => exact ⟨hnew, rfl⟩
  | logged clock b c detail => exact ⟨hnew, rfl⟩
  | wrote clock name res existing => exact ⟨hnew, rfl⟩
  | nothing => exact ⟨hnew, rfl⟩

theorem Follows.after (h : g.Follows s j p) (hj : eff = .read → j ≠ i) :
    (g.after i eff).Follows (eff.apply s) j p := by
  intro x hx
  obtain ⟨r, hrow, hlast⟩ := h x hx
  refine ⟨_, Effect.get?_apply eff hrow, fun hnew => ?_⟩
  obtain ⟨hold, hkept⟩ := upToDate_after hj hnew
  rw [hkept, hlast hold]

theorem Follows.of_moves (h : g.Follows s i p) (hmoves : Proc.Moves s p eff p')
    (hagrees : g.Agrees s) : (g.after i eff).Follows (eff.apply s) i p' := by
  intro x hx
  rcases hmoves.pending x hx with ⟨heff, hold⟩ | ⟨rfl, r, hrow, hread⟩
  · exact (h.after fun hr => absurd hr heff) x hold
  · refine ⟨r, hrow, fun _ => ?_⟩
    have hkept : x.1.counter r = g.kept x.2.id x.1 :=
      (counterAt_of_get? hrow).symm.trans (hagrees x.2.id x.1)
    rw [hread, Alert.last_scanRowValues]
    exact hkept

/-- What an `UPDATE` leaves in a counter when it finds nothing new. -/
theorem counterAt_wrote {clock : Int} {name : String} {res : ScanResult} {e : Cert}
    (hsame : Effect.FoundSame (.wrote clock name res (some e)))
    (hrow : s.certs.get? e.id = some r) :
    (Effect.apply s (.wrote clock name res (some e))).counterAt a e.id = a.last e := by
  rw [counterAt_of_get? (Effect.get?_apply _ hrow)]
  simp only [Effect.row, if_true, Alert.counter_updateScan, hsame a]

/-- After a statement the counters are what the marks wrote exactly if the statement
wrote that back. -/
theorem agrees_after (hagrees : g.Agrees s) (hfollows : g.Follows s i p)
    (hmoves : Proc.Moves s p eff p') (hsame : eff.FoundSame) :
    (g.after i eff).Agrees (eff.apply s) ↔ WritesBackKept g i eff := by
  cases eff with
  | marked t b c th =>
    -- the mark is written to the row the alert was decided on, and to its counter alone
    refine iff_of_true (fun id a => ?_) trivial
    obtain ⟨htold, -⟩ := hmoves.marked _ _ _ _ rfl
    obtain ⟨r, hrow, -⟩ := hfollows _ (Proc.pending_of_told htold)
    simp only [MarkLog.after]
    cases hget : s.certs.get? id with
    | none =>
      have hid : id ≠ c.id := by
        rintro rfl
        simp [hget] at hrow
      rw [counterAt_apply_of_none hget, if_neg fun h => hid h.1, ← hagrees, counterAt_of_none hget]
    | some r' =>
      rw [counterAt_of_get? (Effect.get?_apply _ hget), Effect.row]
      by_cases hid : id = c.id
      · by_cases hab : a = b
        · rw [if_pos hid, if_pos ⟨hid, hab⟩, hab, Alert.counter_markRow_self]
        · rw [if_pos hid, if_neg fun h => hab h.2, Alert.counter_markRow_of_ne hab, ← hagrees,
            counterAt_of_get? hget]
      · rw [if_neg hid, if_neg fun h => hid h.1, ← hagrees, counterAt_of_get? hget]
  | wrote t name res existing =>
    cases existing with
    | none =>
      refine iff_of_true (fun id a => ?_) trivial
      cases hget : s.certs.get? id with
      | none =>
        rw [counterAt_apply_of_none hget]
        exact (counterAt_of_none hget).symm.trans (hagrees id a)
      | some r =>
        rw [counterAt_of_get? (Effect.get?_apply _ hget)]
        exact (counterAt_of_get? hget).symm.trans (hagrees id a)
    | some e =>
      -- the scan writes back the counters it read; the ledger knows which of them are older
      have hread : ∀ a : Alert, ∃ r, s.certs.get? e.id = some r ∧
          (g.older i e.id a = false → a.last e = g.kept e.id a) := fun a =>
        hfollows (a, e) (by
          rw [hmoves.wrote _ _ _ _ rfl]
          cases a <;> simp [Proc.pending])
      constructor
      · intro hafter a _
        obtain ⟨r, hrow, -⟩ := hread a
        rw [← counterAt_wrote hsame hrow]
        exact hafter e.id a
      · intro hback id a
        obtain ⟨r, hrow, hkept⟩ := hread a
        by_cases hid : id = e.id
        · rw [hid, counterAt_wrote hsame hrow]
          cases holder : g.older i e.id a with
          | true => exact hback a holder
          | false => exact hkept holder
        · -- another row, which the statement does not touch
          cases hget : s.certs.get? id with
          | none =>
            rw [counterAt_apply_of_none hget]
            exact (counterAt_of_none hget).symm.trans (hagrees id a)
          | some r' =>
            rw [counterAt_of_get? (Effect.get?_apply _ hget), Effect.row, if_neg hid]
            exact (counterAt_of_get? hget).symm.trans (hagrees id a)
  | read => exact iff_of_true hagrees trivial
  | sent b c taken => exact iff_of_true hagrees trivial
  | logged t b c detail => exact iff_of_true hagrees trivial
  | nothing => exact iff_of_true hagrees trivial

end MarkLog

/-! ### Whole runs -/

/-- Every process follows. -/
def FollowingMarks (w : System × MarkLog) : Prop :=
  ∀ i p, w.1.procs[i]? = some p → w.2.Follows w.1.store i p

theorem followingMarks_step (h : FollowingMarks w) (hkept : MarksKept w)
    (hstep : watch System.step MarkLog.note w act = some w') : FollowingMarks w' := by
  obtain ⟨y', hy, rfl⟩ := Option.map_eq_some_iff.mp hstep
  intro j q hq
  rw [System.store_step hy]
  rcases System.proc_cases hy hq with ⟨hold, hne⟩ | hnil | ⟨clock, ok, p, rfl, hp, hnext⟩
  · cases act with
    | step i clock ok =>
      exact (h j q hold).after fun _ hji => hne clock ok (hji ▸ rfl)
    | startPass now => exact h j q hold
    | startScan name res => exact h j q hold
  · intro x hx
    simp [hnil] at hx
  · exact (h j p hp).of_moves (Proc.moves hnext) hkept.1

theorem marksKept_step (h : FollowingMarks w) (hkept : MarksKept w) (hsame : FoundSameStep w act)
    (hstep : watch System.step MarkLog.note w act = some w') :
    MarksKept w' ↔ WritesBackKeptStep w act := by
  obtain ⟨y', hy, rfl⟩ := Option.map_eq_some_iff.mp hstep
  rw [marksKept_iff]
  simp only [System.store_step hy]
  cases act with
  | startPass now => exact iff_of_true hkept.1 trivial
  | startScan name res => exact iff_of_true hkept.1 trivial
  | step i clock ok =>
    obtain ⟨p, p', hp, hnext⟩ := System.next_of_step hy
    exact MarkLog.agrees_after hkept.1 (h i p hp) (Proc.moves hnext) hsame

/-- Over any interleaving of passes with scans that find nothing new the counters are what
the marks wrote, and no alert is due again in the bucket it was marked in, exactly if
every `UPDATE` by a scan whose read is older than a mark writes back what the mark wrote. -/
theorem marks_kept_iff (s : Store) (acts : List Act)
    (hsame : Meets (watch System.step MarkLog.note) FoundSameStep (⟨s, []⟩, MarkLog.start s) acts) :
    Always (watch System.step MarkLog.note) MarksKept (⟨s, []⟩, MarkLog.start s) acts ↔
      Meets (watch System.step MarkLog.note) WritesBackKeptStep
        (⟨s, []⟩, MarkLog.start s) acts := by
  apply always_iff_meets FollowingMarks (D := FoundSameStep)
  · intro i p hp
    simp at hp
  · exact marksKept_iff.mpr fun id a => rfl
  · intro w act w' hfollow hkept _ hstep _
    exact followingMarks_step hfollow hkept hstep
  · intro w act w' hfollow hkept hsame hstep
    exact marksKept_step hfollow hkept hsame hstep
  · -- a step that is refused has no effect
    intro w act hrefused
    have heff := System.effect_of_refused (Option.map_eq_none_iff.mp hrefused)
    cases act with
    | step i clock ok =>
      rw [WritesBackKeptStep, heff]
      trivial
    | startPass now => trivial
    | startScan name res => trivial
  · exact hsame

/-- A pass sends and marks; a scan reads the entry and writes it. -/
def passThenScan : List Act :=
  [.startPass demoDay, .step 0 demoDay true, .step 0 demoDay true, .step 0 demoDay true,
    .step 0 demoDay true, .step 0 demoDay true, .startScan "" demoFirst, .step 1 demoDay true,
    .step 1 demoDay true]

theorem marks_kept_demo : Always (watch System.step MarkLog.note) MarksKept
    (⟨demoScanned, []⟩, MarkLog.start demoScanned) passThenScan :=
  (marks_kept_iff demoScanned passThenScan (by decide)).mpr (by decide)

/-- A scan reads the entry; a pass sends and marks; the scan writes. -/
def overwrittenMark : List Act :=
  [.startScan "" demoFirst, .step 0 demoDay true, .startPass demoDay, .step 1 demoDay true,
    .step 1 demoDay true, .step 1 demoDay true, .step 1 demoDay true, .step 1 demoDay true,
    .step 0 demoDay true]

/-- The mark is lost although the scan found nothing new. -/
theorem mark_lost : ¬ ∀ s acts,
    Meets (watch System.step MarkLog.note) FoundSameStep (⟨s, []⟩, MarkLog.start s) acts →
      Always (watch System.step MarkLog.note) MarksKept (⟨s, []⟩, MarkLog.start s) acts := by
  intro h
  have hend : (run (watch System.step MarkLog.note)
      (⟨demoScanned, []⟩, MarkLog.start demoScanned) overwrittenMark).map
      (fun w => (w.2.kept 1 .leaf, w.1.store.counterAt .leaf 1)) = some (30, 0) := by decide
  obtain ⟨w, hrun, hw⟩ := Option.map_eq_some_iff.mp hend
  obtain ⟨hkept, hcounter⟩ := Prod.mk.inj hw
  have hlast := (h demoScanned overwrittenMark (by decide) overwrittenMark w
    (List.prefix_refl _) hrun).1 1 .leaf
  rw [hkept, hcounter] at hlast
  exact absurd hlast (by decide)

end CertGuard
