import CertGuard.Scheduler.Interleaving
import CertGuard.Scheduler.Runs

/-!
# A certificate that takes the place of another

`UpsertScan` starts the counters over when it stores another certificate or chain, so
that alerts about the new one are owed from then on. A process that read the entry
before that can still write: a pass marks the entry by its id, and another scan writes
back the counters it read. Both silence the new certificate.

## Main definitions

* `Ledger` — what is owed, and whose reads are out of date
* `NotSilenced` — while an alert is owed its counter is 0
* `Harmless` — what a statement must meet so that this stays so

## Main results

* `not_silenced_iff` — nothing is silenced in a run exactly if its statements are harmless
* `silenced_by_mark` — and a run with one that is not
-/

namespace CertGuard

open Transition

/-- The certificate, or chain, stored for an entry. -/
def Store.storedIdent (s : Store) (a : Alert) (id : Int) : Option (List Char) :=
  (s.getByID id).map a.ident

/-- What happened in a run as far as replacements go. -/
structure Ledger where
  /-- A certificate, or chain, was stored in place of another and no channel has taken
  an alert about it since. -/
  owed : Int → Alert → Bool
  /-- Since the process last read, the certificate, or chain, of the entry has changed. -/
  outdated : Nat → Int → Alert → Bool

namespace Ledger

/-- Nothing happened yet. -/
def empty : Ledger := ⟨fun _ _ => false, fun _ _ _ => false⟩

/-- What happened once process `i` has taken a statement. -/
def after (g : Ledger) (i : Nat) (s : Store) : Effect → Ledger
  | .read => { g with outdated := fun j id a => j ≠ i && g.outdated j id a }
  | .sent a c true =>
    { g with
      owed := fun id b =>
        if id = c.id ∧ b = a ∧ s.storedIdent a id = some (a.ident c) then false
        else g.owed id b }
  | .wrote clock name res (some e) =>
    let s' := (s.writeScan clock name res (some e)).1
    { owed := fun id a =>
        g.owed id a || (id = e.id && s.storedIdent a id ≠ some (a.found res))
      outdated := fun j id a =>
        g.outdated j id a || (id = e.id && (s.storedIdent a id ≠ some (a.found res) ||
          s'.storedIdent a id ≠ some (a.found res))) }
  | _ => g

/-- Keeps the ledger of a run. -/
def note (g : Ledger) (y : System) : Act → Ledger
  | .step i clock ok => g.after i y.store (y.effect (.step i clock ok))
  | _ => g

end Ledger

/-- While an alert about the certificate, or chain, stored for an entry is owed, its
counter is 0. -/
def Ledger.Honoured (g : Ledger) (s : Store) : Prop :=
  ∀ id r a, s.certs.get? id = some r → g.owed id a = true → a.counter r = 0

/-- No certificate, or chain, is silenced by an alert about another. -/
def NotSilenced (w : System × Ledger) : Prop := w.2.Honoured w.1.store

/-- What a statement of process `i` must meet. A mark from an outdated read comes after
the alert that was owed; an `UPDATE` from an outdated read starts the counter over, or
writes back a 0 it read, or comes when nothing is owed and replaces nothing. -/
def Harmless (g : Ledger) (i : Nat) (s : Store) : Effect → Prop
  | .marked _ a c _ => g.outdated i c.id a = true → g.owed c.id a = false
  | .wrote _ _ res (some e) =>
    ∀ a : Alert, g.outdated i e.id a = true →
      g.owed e.id a = true ∨ s.storedIdent a e.id ≠ some (a.found res) →
        a.ident e ≠ a.found res ∨ a.last e = 0
  | _ => True

/-- The statement taken next is harmless. -/
def HarmlessStep (w : System × Ledger) : Act → Prop
  | .step i clock ok => Harmless w.2 i w.1.store (w.1.effect (.step i clock ok))
  | _ => True

variable {s : Store} {g : Ledger} {i j : Nat} {eff : Effect} {a : Alert} {id : Int} {r : CertRow}
variable {p : Proc} {y y' : System} {w w' : System × Ledger} {act : Act}

theorem storedIdent_of_get? (h : s.certs.get? id = some r) :
    s.storedIdent a id = some (a.ident (scanRowValues id r)) := by
  simp [Store.storedIdent, Store.getByID, h]

namespace Ledger

/-! ### One statement -/

/-- A process that a statement leaves up to date was so before, nothing became owed on
the entry, and the entry is about what it was. -/
theorem upToDate_after (hrow : s.certs.get? id = some r) (hj : eff = .read → j ≠ i)
    (hnew : (g.after i s eff).outdated j id a = false) :
    g.outdated j id a = false ∧
      ((g.after i s eff).owed id a = true → g.owed id a = true) ∧
      a.ident (scanRowValues id (eff.row id r)) = a.ident (scanRowValues id r) := by
  cases eff with
  | read =>
    -- only a process that reads becomes up to date
    simp only [after, Bool.and_eq_false_iff, decide_eq_false_iff_not, not_not] at hnew
    exact ⟨hnew.resolve_left (hj rfl), fun h => h, rfl⟩
  | sent b c taken =>
    cases taken with
    | false => exact ⟨hnew, fun h => h, rfl⟩
    | true =>
      refine ⟨hnew, fun howed => ?_, rfl⟩
      simp only [after] at howed
      split_ifs at howed
      exact howed
  | marked clock b c th =>
    refine ⟨hnew, fun h => h, ?_⟩
    simp only [Effect.row]
    split_ifs
    · exact Alert.ident_markRow
    · rfl
  | wrote clock name res existing =>
    cases existing with
    | none => exact ⟨hnew, fun h => h, rfl⟩
    | some e =>
      have hrow' := Effect.get?_apply (.wrote clock name res (some e)) hrow
      rw [Effect.apply] at hrow'
      simp only [after, storedIdent_of_get? hrow, storedIdent_of_get? hrow', Bool.or_eq_false_iff,
        Bool.and_eq_false_iff, decide_eq_false_iff_not, ne_eq, not_not, Option.some.injEq] at hnew
      -- it wrote another row, or what was there before
      refine ⟨hnew.1, fun howed => ?_, ?_⟩
      · rcases hnew.2 with hid | hsame
        · simpa [after, hid] using howed
        · simpa [after, storedIdent_of_get? hrow, hsame.1] using howed
      · rcases hnew.2 with hid | hsame
        · simp only [Effect.row, if_neg hid]
        · rw [hsame.1, hsame.2]
  | logged clock b c detail => exact ⟨hnew, fun h => h, rfl⟩
  | nothing => exact ⟨hnew, fun h => h, rfl⟩

/-- What process `i` works with is what is stored, unless it is outdated: the same
certificate or chain, with counter 0 where an alert is owed. And what it has told a
channel is not owed. -/
structure Follows (g : Ledger) (s : Store) (i : Nat) (p : Proc) : Prop where
  pending : ∀ x ∈ p.pending, ∃ r, s.certs.get? x.2.id = some r ∧
    (g.outdated i x.2.id x.1 = false →
      x.1.ident (scanRowValues x.2.id r) = x.1.ident x.2 ∧
        (g.owed x.2.id x.1 = true → x.1.last x.2 = 0))
  told : ∀ x, p.told = some x → g.outdated i x.2.id x.1 = false → g.owed x.2.id x.1 = false

theorem Follows.of_pending_nil (h : p.pending = []) : g.Follows s i p where
  pending x hx := by simp [h] at hx
  told x hx := by
    have hmem := Proc.pending_of_told hx
    simp [h] at hmem

/-- A process that stands still goes on following. -/
theorem Follows.after (h : g.Follows s j p) (hj : eff = .read → j ≠ i) :
    (g.after i s eff).Follows (eff.apply s) j p where
  pending x hx := by
    obtain ⟨r, hrow, hcurrent⟩ := h.pending x hx
    refine ⟨_, Effect.get?_apply eff hrow, fun hnew => ?_⟩
    obtain ⟨hold, howed, hident⟩ := upToDate_after hrow hj hnew
    rw [hident]
    exact ⟨(hcurrent hold).1, fun h => (hcurrent hold).2 (howed h)⟩
  told x hx hnew := by
    obtain ⟨r, hrow, -⟩ := h.pending x (Proc.pending_of_told hx)
    obtain ⟨hold, howed, -⟩ := upToDate_after hrow hj hnew
    cases hafter : (g.after i s eff).owed x.2.id x.1 with
    | false => rfl
    | true => exact (h.told x hx hold).symm.trans (howed hafter) |>.symm

/-- A process that takes a statement goes on following. -/
theorem Follows.of_moves {p' : Proc} (h : g.Follows s i p) (hmoves : Proc.Moves s p eff p')
    (hhonoured : g.Honoured s) : (g.after i s eff).Follows (eff.apply s) i p' where
  pending x hx := by
    rcases hmoves.pending x hx with ⟨heff, hold⟩ | ⟨rfl, r, hrow, hread⟩
    · exact (h.after fun hr => absurd hr heff).pending x hold
    · refine ⟨r, hrow, fun _ => ⟨by rw [← hread], fun howed => ?_⟩⟩
      rw [hread, Alert.last_scanRowValues]
      exact hhonoured _ r _ hrow howed
  told x hx hnew := by
    rcases hmoves.told x hx with ⟨heff, hold⟩ | rfl
    · exact (h.after fun hr => absurd hr heff).told x hold hnew
    · -- the alert was about what is stored, so it is owed no more
      rcases hmoves.pending x (Proc.pending_of_told hx) with ⟨-, hmem⟩ | ⟨heff, -⟩
      · obtain ⟨r, hrow, hcurrent⟩ := h.pending x hmem
        have hident := (hcurrent hnew).1
        simp [Ledger.after, storedIdent_of_get? hrow, hident]
      · exact absurd heff (by simp)

/-- A harmless statement leaves the counter of every alert that is owed at 0. -/
theorem Honoured.after {p' : Proc} (hhonoured : g.Honoured s) (hfollows : g.Follows s i p)
    (hmoves : Proc.Moves s p eff p') (hharmless : Harmless g i s eff) :
    (g.after i s eff).Honoured (eff.apply s) := by
  intro id r' a hrow' howed'
  rcases Effect.row_of_get?_apply hrow' with ⟨r, hrow, rfl⟩ | ⟨-, hzero⟩
  · cases eff with
    | marked t b c th =>
      have howed : g.owed id a = true := howed'
      simp only [Effect.row]
      by_cases hid : id = c.id
      · by_cases hab : a = b
        · subst hab hid
          have hnot : g.owed c.id a = false := by
            cases hout : g.outdated i c.id a with
            | false => exact hfollows.told _ (hmoves.marked _ _ _ _ rfl).1 hout
            | true => exact hharmless hout
          rw [hnot] at howed
          exact absurd howed (by simp)
        · rw [if_pos hid, Alert.counter_markRow_of_ne hab]
          exact hhonoured id r a hrow howed
      · rw [if_neg hid]
        exact hhonoured id r a hrow howed
    | wrote t name res existing =>
      cases existing with
      | none => exact hhonoured id r a hrow howed'
      | some e =>
        simp only [Effect.row]
        simp only [Ledger.after, Bool.or_eq_true, Bool.and_eq_true, decide_eq_true_eq] at howed'
        by_cases hid : id = e.id
        · subst hid
          have howed := howed'.imp_right And.right
          rw [if_pos rfl, Alert.counter_updateScan]
          split_ifs with hsame
          · cases hout : g.outdated i e.id a with
            | true => exact (hharmless a hout howed).resolve_left fun hne => hne hsame
            | false =>
              -- what the scan read is stored, so it replaces nothing and read a 0
              have hmem : (a, e) ∈ p.pending := by
                rw [hmoves.wrote _ _ _ _ rfl]
                cases a <;> simp [Proc.pending]
              obtain ⟨r₀, hrow₀, hcurrent⟩ := hfollows.pending (a, e) hmem
              obtain rfl := Option.some.inj (hrow₀.symm.trans hrow)
              obtain ⟨hident, hlast⟩ := hcurrent hout
              refine hlast (howed.resolve_right fun hne => hne ?_)
              rw [storedIdent_of_get? hrow, hident, hsame]
          · rfl
        · rw [if_neg hid]
          exact hhonoured id r a hrow (howed'.resolve_right fun h => hid h.1)
    | sent b c taken =>
      refine hhonoured id r a hrow ?_
      cases taken with
      | false => exact howed'
      | true =>
        simp only [Ledger.after] at howed'
        split_ifs at howed'
        exact howed'
    | read => exact hhonoured id r a hrow howed'
    | logged t b c detail => exact hhonoured id r a hrow howed'
    | nothing => exact hhonoured id r a hrow howed'
  · exact hzero a

/-- A statement that leaves them at 0 was harmless. -/
theorem harmless_of_honoured {p' : Proc} (hfollows : g.Follows s i p)
    (hmoves : Proc.Moves s p eff p') (hafter : (g.after i s eff).Honoured (eff.apply s)) :
    Harmless g i s eff := by
  cases eff with
  | marked t b c th =>
    intro _
    obtain ⟨htold, hpos⟩ := hmoves.marked _ _ _ _ rfl
    obtain ⟨r, hrow, -⟩ := hfollows.pending _ (Proc.pending_of_told htold)
    cases howed : g.owed c.id b with
    | false => rfl
    | true =>
      -- the counter that was marked is positive, although the row is owed an alert
      have hcounter := hafter c.id _ b (Effect.get?_apply (.marked t b c th) hrow) howed
      simp only [Effect.row, if_true, Alert.counter_markRow_self] at hcounter
      omega
  | wrote t name res existing =>
    cases existing with
    | none => trivial
    | some e =>
      intro a _ howed
      have hmem : (Alert.leaf, e) ∈ p.pending := by
        rw [hmoves.wrote _ _ _ _ rfl]
        simp [Proc.pending]
      obtain ⟨r, hrow, -⟩ := hfollows.pending _ hmem
      have hcounter := hafter e.id _ a (Effect.get?_apply (.wrote t name res (some e)) hrow)
        (by simpa [Ledger.after] using howed)
      simp only [Effect.row, if_true, Alert.counter_updateScan] at hcounter
      by_cases hsame : a.ident e = a.found res
      · exact Or.inr (by rwa [if_pos hsame] at hcounter)
      · exact Or.inl hsame
  | read => trivial
  | sent b c taken => trivial
  | logged t b c detail => trivial
  | nothing => trivial

end Ledger

/-! ### Whole runs -/

/-- All processes follow. -/
def Following (w : System × Ledger) : Prop :=
  ∀ i p, w.1.procs[i]? = some p → w.2.Follows w.1.store i p

theorem following_step (h : Following w) (hsilent : NotSilenced w)
    (hstep : watch System.step Ledger.note w act = some w') : Following w' := by
  obtain ⟨y', hy, rfl⟩ := Option.map_eq_some_iff.mp hstep
  intro j q hq
  rw [System.store_step hy]
  rcases System.proc_cases hy hq with ⟨hold, hne⟩ | hnil | ⟨clock, ok, p, rfl, hp, hnext⟩
  · cases act with
    | step i clock ok =>
      exact (h j q hold).after fun _ hji => hne clock ok (hji ▸ rfl)
    | startPass now => exact h j q hold
    | startScan name res => exact h j q hold
  · exact Ledger.Follows.of_pending_nil hnil
  · exact (h j p hp).of_moves (Proc.moves hnext) hsilent

/-- After a statement nothing is silenced exactly if the statement was harmless. -/
theorem notSilenced_step (h : Following w) (hsilent : NotSilenced w)
    (hstep : watch System.step Ledger.note w act = some w') :
    NotSilenced w' ↔ HarmlessStep w act := by
  obtain ⟨y', hy, rfl⟩ := Option.map_eq_some_iff.mp hstep
  simp only [NotSilenced, System.store_step hy]
  cases act with
  | startPass now => exact iff_of_true hsilent trivial
  | startScan name res => exact iff_of_true hsilent trivial
  | step i clock ok =>
    obtain ⟨p, p', hp, hnext⟩ := System.next_of_step hy
    constructor
    · exact Ledger.harmless_of_honoured (h i p hp) (Proc.moves hnext)
    · exact hsilent.after (h i p hp) (Proc.moves hnext)

/-- Over any interleaving of passes and scans the counter of a certificate, or chain, that
took the place of another stays 0 until an alert about it was delivered, exactly if every
mark and every `UPDATE` that works from a read older than the replacement is harmless. -/
theorem not_silenced_iff (s : Store) (acts : List Act) :
    Always (watch System.step Ledger.note) NotSilenced (⟨s, []⟩, Ledger.empty) acts ↔
      Meets (watch System.step Ledger.note) HarmlessStep (⟨s, []⟩, Ledger.empty) acts := by
  apply always_iff_meets Following (D := fun _ _ => True)
  · intro i p hp
    simp at hp
  · intro id r a _ howed
    simp [Ledger.empty] at howed
  · intro w act w' hfollow hsilent _ hstep _
    exact following_step hfollow hsilent hstep
  · intro w act w' hfollow hsilent _ hstep
    exact notSilenced_step hfollow hsilent hstep
  · -- a step that is refused has no effect
    intro w act hrefused
    have heff := System.effect_of_refused (Option.map_eq_none_iff.mp hrefused)
    cases act with
    | step i clock ok =>
      rw [HarmlessStep, heff]
      trivial
    | startPass now => trivial
    | startScan name res => trivial
  · intro _ _ _ _ _
    trivial

/-- A pass lists the entry with its first certificate; a scan stores the renewed one;
the pass sends and marks. -/
def lateMark : List Act :=
  [.startPass demoDay, .step 0 demoDay true, .step 0 demoDay true,
    .startScan "" (demoScan "BB" 90 []), .step 1 demoDay true, .step 1 demoDay true,
    .step 0 demoDay true, .step 0 demoDay true, .step 0 demoDay true]

/-- The renewed certificate starts with the mark of the alert about its predecessor. -/
theorem silenced_by_mark : ¬ ∀ s acts,
    Always (watch System.step Ledger.note) NotSilenced (⟨s, []⟩, Ledger.empty) acts := by
  intro h
  have hend : (run (watch System.step Ledger.note) (⟨demoScanned, []⟩, Ledger.empty) lateMark).map
      (fun w => (w.2.owed 1 .leaf,
        (w.1.store.certs.get? 1).map fun r => (r.sha256, Alert.leaf.counter r))) =
        some (true, some ("BB", 30)) := by decide
  obtain ⟨w, hrun, hw⟩ := Option.map_eq_some_iff.mp hend
  obtain ⟨howed, hcounter⟩ := Prod.mk.inj hw
  obtain ⟨r, hrow, hr⟩ := Option.map_eq_some_iff.mp hcounter
  have hzero := h demoScanned lateMark lateMark w (List.prefix_refl _) hrun 1 r .leaf hrow howed
  rw [(Prod.mk.inj hr).2] at hzero
  exact absurd hzero (by decide)

end CertGuard
