import CertGuard.Server.OneRow

/-!
# Deleted entries that come back

A sweep, a scan of everything and a request to rescan work on entries they read earlier. What
they record goes to the active entry at the address by then, and where it was deleted in
between a new one is inserted.

## Main definitions

* `GoneLog` — which addresses were deleted, and which entries a user asked for
* `StaysDeleted` — at a deleted address there are only entries asked for later
* `InTime` — nothing comes between a read of an entry and what is recorded of it
* `Spares` — what a statement must do so that an address stays deleted

## Main results

* `staysDeleted_step` — a statement leaves the deleted addresses so exactly if it does this
* `spares_of_inTime` — it does, where nothing comes in between
* `stays_deleted_in_time` — so that deleted entries stay deleted in such runs
* `swept_back` — and a sweep that brings an entry back
-/

namespace CertGuard

open Transition

/-- What was deleted and asked for: how many programs had begun when an address last lost an
entry, and which request to scan or to track inserted an entry. -/
structure GoneLog where
  deleted : String × Int → Option Nat := fun _ => none
  tracked : Int → Option Nat := fun _ => none

/-- A delete and an insert are noted as they take effect. -/
def GoneLog.note (g : GoneLog) (w : Concurrent Store EntryStmt EntryCall)
    (act : ProgAct EntryCall) : GoneLog :=
  match w.effect act with
  | some (_, _, .softDelete id) =>
    match w.state.certs.get? id with
    | none => g
    | some r =>
      if r.active then
        { g with deleted := Function.update g.deleted (r.host, r.port) (some w.running.length) }
      else g
  | some (i, q, .insert _ _) =>
    if q.Tracks then
      { g with tracked := Function.update g.tracked w.state.certs.nextKey (some i) }
    else g
  | _ => g

/-- Requests and sweeps with a record of this. -/
abbrev goneStep : Concurrent Store EntryStmt EntryCall × GoneLog → ProgAct EntryCall →
    Option (Concurrent Store EntryStmt EntryCall × GoneLog) :=
  watch entryStep GoneLog.note

/-- An active entry at an address that lost one was inserted by a request to scan or to track
that was made after that. -/
def StaysDeleted (v : Concurrent Store EntryStmt EntryCall × GoneLog) : Prop :=
  ∀ host port n, host ≠ "" → v.2.deleted (host, port) = some n →
    ∀ id, v.1.state.IsAt id host port → ∃ i, v.2.tracked id = some i ∧ n ≤ i

/-- A delete takes the only active entry of its address, and what is inserted at an address that
lost an entry is inserted by a request to scan or to track that was made after that. -/
def Spares (v : Concurrent Store EntryStmt EntryCall × GoneLog) (act : ProgAct EntryCall) : Prop :=
  match v.1.effect act with
  | some (_, _, .softDelete id) => ∀ host port, host ≠ "" → v.1.state.IsAt id host port →
      ∀ id', v.1.state.IsAt id' host port → id' = id
  | some (i, q, .insert _ u) => ∀ n, u.host ≠ "" → v.2.deleted (u.host, u.port) = some n →
      q.Tracks ∧ n ≤ i
  | _ => True

variable {w w' : Concurrent Store EntryStmt EntryCall} {g : GoneLog} {act : ProgAct EntryCall}
variable {s : Store} {i : Nat} {q : EntryCall} {id now : Int} {u : Upsert}

/-- What is noted of requests is about requests that were made and entries that were inserted. -/
structure GoneNoted (v : Concurrent Store EntryStmt EntryCall × GoneLog) : Prop where
  begun : ∀ id i, v.2.tracked id = some i → i < v.1.running.length
  inserted : ∀ id i, v.2.tracked id = some i → (v.1.state.certs.get? id).isSome

/-- No statement takes a row away. -/
theorem isSome_run (a : EntryStmt) (h : (s.certs.get? id).isSome) :
    ((a.run s).certs.get? id).isSome := by
  have hmodify : ∀ k f, ((s.certs.modify k f).get? id).isSome := by
    intro k f
    rw [Table.get?_modify]
    split_ifs
    · rwa [Option.isSome_map]
    · exact h
  -- no statement removes a row
  have hactive : ∀ k f, (((s.updateActive k f).getD s).certs.get? id).isSome := by
    intro k f
    unfold Store.updateActive
    split_ifs
    · exact hmodify k f
    · exact h
  cases a with
  | read => exact h
  | find u refreshed => exact h
  | insert now u =>
    obtain ⟨r, hrow⟩ := Option.isSome_iff_exists.mp h
    rw [EntryStmt.run, Table.get?_insert_of_some hrow]
    rfl
  | update now u existing => exact hmodify _ _
  | softDelete gone => exact hactive _ _
  | touchScanError now gone msg => exact hactive _ _
  | updateEntry gone name category notes => exact hactive _ _
  | saveCoverage now gone names => exact hmodify _ _
  | addEvent now kind about name actor detail => exact h

theorem isSome_step (hstep : entryStep w act = some w') (h : (w.state.certs.get? id).isSome) :
    (w'.state.certs.get? id).isSome := by
  cases heffect : w.effect act with
  | none => rwa [Concurrent.state_of_effect_none heffect hstep]
  | some e =>
    obtain ⟨i, q, a⟩ := e
    rw [Concurrent.state_of_effect_some heffect hstep]
    exact isSome_run a h

/-- What a step notes of an entry: nothing new, or that it inserts it. -/
theorem tracked_note {k : Nat} (h : (g.note w act).tracked id = some k) :
    g.tracked id = some k ∨
      id = w.state.certs.nextKey ∧ ∃ q now u, w.effect act = some (k, q, .insert now u) := by
  unfold GoneLog.note at h
  split at h
  · split at h
    · exact Or.inl h
    · split_ifs at h <;> exact Or.inl h
  · next i q now u heffect =>
    split_ifs at h
    · dsimp only at h
      -- the insertion tracks the new entry, and no other
      by_cases hid : id = w.state.certs.nextKey
      · subst hid
        rw [Function.update_self] at h
        obtain rfl := Option.some.inj h
        exact Or.inr ⟨rfl, q, now, u, heffect⟩
      · rw [Function.update_of_ne hid] at h
        exact Or.inl h
    · exact Or.inl h
  · exact Or.inl h

theorem noted_step (h : GoneNoted (w, g)) (hstep : entryStep w act = some w') :
    GoneNoted (w', g.note w act) where
  begun id i hi := by
    refine Nat.lt_of_lt_of_le ?_ (Concurrent.length_step hstep)
    rcases tracked_note hi with hi | ⟨-, q, now, u, heffect⟩
    · exact h.begun id i hi
    · exact Concurrent.lt_of_effect heffect
  inserted id i hi := by
    rcases tracked_note hi with hi | ⟨hid, q, now, u, heffect⟩
    · exact isSome_step hstep (h.inserted id i hi)
    · rw [Concurrent.state_of_effect_some heffect hstep, EntryStmt.run, Table.get?_insert,
        if_pos hid]
      rfl

/-! ### The two statements that matter -/

/-- The log after a delete. -/
theorem note_softDelete (heffect : w.effect act = some (i, q, .softDelete id)) {r : CertRow}
    (hrow : w.state.certs.get? id = some r) (hactive : r.active = true) :
    g.note w act =
      { g with deleted := Function.update g.deleted (r.host, r.port) (some w.running.length) } := by
  simp only [GoneLog.note, heffect, hrow, hactive, if_true]

/-- A delete leaves an address bare exactly if it takes the only active entry there. -/
theorem staysDeleted_softDelete (hnoted : GoneNoted (w, g)) (h : StaysDeleted (w, g))
    (heffect : w.effect act = some (i, q, .softDelete id))
    (hstate : w'.state = (EntryStmt.softDelete id).run w.state) :
    StaysDeleted (w', g.note w act) ↔ ∀ host port, host ≠ "" → w.state.IsAt id host port →
      ∀ id', w.state.IsAt id' host port → id' = id := by
  have hat : ∀ id' host port, w'.state.IsAt id' host port ↔
      w.state.IsAt id' host port ∧ id' ≠ id := by
    intro id' host port
    rw [hstate]
    exact isAt_softDelete
  constructor
  · rintro hafter host port hhost ⟨r, hrow, hactive, rfl, rfl⟩ id' hid'
    -- another entry at the address would have been inserted before the deletion
    by_contra hne
    have hlast : (g.note w act).deleted (r.host, r.port) = some w.running.length := by
      rw [note_softDelete heffect hrow hactive]
      exact Function.update_self _ _ _
    obtain ⟨k, hk, hlate⟩ := hafter r.host r.port _ hhost hlast id' ((hat _ _ _).mpr ⟨hid', hne⟩)
    rw [note_softDelete heffect hrow hactive] at hk
    exact absurd (hnoted.begun id' k hk) (Nat.not_lt.mpr hlate)
  · intro honly host port n hhost hn id' hid'
    obtain ⟨hbefore, hne⟩ := (hat _ _ _).mp hid'
    by_cases hgone : w.state.IsActive id
    · obtain ⟨r, hrow, hactive⟩ := hgone
      rw [note_softDelete heffect hrow hactive] at hn ⊢
      by_cases haddress : (host, port) = (r.host, r.port)
      · obtain ⟨rfl, rfl⟩ := Prod.mk.inj haddress
        exact absurd (honly _ _ hhost ⟨r, hrow, hactive, rfl, rfl⟩ id' hbefore) hne
      · exact h host port n hhost ((Function.update_of_ne haddress _ _).symm.trans hn) id' hbefore
    · -- there was nothing to delete
      have hsame : g.note w act = g := by
        simp only [GoneLog.note, heffect]
        split
        · rfl
        · next r hrow => rw [if_neg fun hactive => hgone ⟨r, hrow, hactive⟩]
      rw [hsame] at hn ⊢
      exact h host port n hhost hn id' hbefore

/-- An insert at an address that lost an entry is asked for later exactly if its program is. -/
theorem staysDeleted_insert (hnoted : GoneNoted (w, g)) (h : StaysDeleted (w, g))
    (heffect : w.effect act = some (i, q, .insert now u))
    (hstate : w'.state = (EntryStmt.insert now u).run w.state) :
    StaysDeleted (w', g.note w act) ↔ ∀ n, u.host ≠ "" →
      g.deleted (u.host, u.port) = some n → q.Tracks ∧ n ≤ i := by
  have hat : ∀ id' host port, w'.state.IsAt id' host port ↔ w.state.IsAt id' host port ∨
      id' = w.state.certs.nextKey ∧ u.host = host ∧ u.port = port := by
    intro id' host port
    rw [hstate]
    exact isAt_insert
  have hdeleted : (g.note w act).deleted = g.deleted := by
    simp only [GoneLog.note, heffect]
    split_ifs <;> rfl
  -- the new entry has no request before it is inserted
  have hnew : g.tracked w.state.certs.nextKey = none := by
    cases htracked : g.tracked w.state.certs.nextKey with
    | none => rfl
    | some k =>
      have hrow := hnoted.inserted _ k htracked
      rw [Table.get?_nextKey] at hrow
      exact absurd hrow (by decide)
  have htracked : (g.note w act).tracked = if q.Tracks then
      Function.update g.tracked w.state.certs.nextKey (some i) else g.tracked := by
    simp only [GoneLog.note, heffect]
    split_ifs <;> rfl
  constructor
  · intro hafter n hhost hn
    obtain ⟨k, hk, hlate⟩ := hafter u.host u.port n hhost (hdeleted ▸ hn) w.state.certs.nextKey
      ((hat _ _ _).mpr (Or.inr ⟨rfl, rfl, rfl⟩))
    dsimp only at hk
    rw [htracked] at hk
    split_ifs at hk with hasked
    · rw [Function.update_self] at hk
      exact ⟨hasked, Option.some.inj hk ▸ hlate⟩
    · exact absurd (hnew.symm.trans hk) (by simp)
  · intro hasked host port n hhost hn id' hid'
    dsimp only at hn
    rw [hdeleted] at hn
    dsimp only
    rw [htracked]
    rcases (hat _ _ _).mp hid' with hold | ⟨rfl, rfl, rfl⟩
    · obtain ⟨k, hk, hlate⟩ := h host port n hhost hn id' hold
      have hne : id' ≠ w.state.certs.nextKey := by
        rintro rfl
        exact absurd (hnew.symm.trans hk) (by simp)
      refine ⟨k, ?_, hlate⟩
      split_ifs
      · rw [Function.update_of_ne hne, hk]
      · exact hk
    · obtain ⟨hq, hlate⟩ := hasked n hhost hn
      exact ⟨i, by rw [if_pos hq, Function.update_self], hlate⟩

/-- Nothing else brings an entry to an address or takes one from it. -/
theorem staysDeleted_other (hat : ∀ id host port, w'.state.IsAt id host port ↔
    w.state.IsAt id host port) : StaysDeleted (w', g) ↔ StaysDeleted (w, g) := by
  simp only [StaysDeleted, hat]

theorem staysDeleted_step (hnoted : GoneNoted (w, g)) (h : StaysDeleted (w, g))
    (hstep : entryStep w act = some w') :
    StaysDeleted (w', g.note w act) ↔ Spares (w, g) act := by
  cases heffect : w.effect act with
  | none =>
    have hsame : g.note w act = g := by simp only [GoneLog.note, heffect]
    simp only [Spares, heffect, iff_true]
    have hstate := Concurrent.state_of_effect_none heffect hstep
    rw [hsame]
    exact (staysDeleted_other fun _ _ _ => by rw [hstate]).mpr h
  | some e =>
    obtain ⟨i, q, a⟩ := e
    have hstate := Concurrent.state_of_effect_some heffect hstep
    by_cases hmoves : a.Moves
    · cases a with
      | insert now u =>
        rw [staysDeleted_insert hnoted h heffect hstate]
        simp only [Spares, heffect]
      | softDelete id =>
        rw [staysDeleted_softDelete hnoted h heffect hstate]
        simp only [Spares, heffect]
      | _ => exact absurd hmoves False.elim
    · -- no other statement moves an entry, and none is noted
      have hrest : g.note w act = g ∧ Spares (w, g) act := by
        cases a with
        | insert now u => exact absurd trivial hmoves
        | softDelete id => exact absurd trivial hmoves
        | _ => simp only [GoneLog.note, Spares, heffect, and_self]
      have hsame : StaysDeleted (w', g) ↔ StaysDeleted (w, g) :=
        staysDeleted_other fun _ _ _ => by rw [hstate, isAt_other hmoves]
      rw [hrest.1]
      exact iff_of_true (hsame.mpr h) hrest.2

/-! ### Nothing in between -/

/-- The same with a record of what the programs looked for and found. -/
abbrev goneLookStep : (Concurrent Store EntryStmt EntryCall × GoneLog) × Looks →
    ProgAct EntryCall → Option ((Concurrent Store EntryStmt EntryCall × GoneLog) × Looks) :=
  watch goneStep fun looks v act => Concurrent.found looks v.1 act

/-- Nothing comes between what a program reads and what it records: where an entry is refreshed,
one is still active at its address when the upsert looks there; between this look and the insert
no entry comes to the address; and none was deleted there since the request to scan or to track
was made. -/
structure InTime (v : (Concurrent Store EntryStmt EntryCall × GoneLog) × Looks)
    (act : ProgAct EntryCall) : Prop where
  refreshed : ∀ i q u c, v.1.1.effect act = some (i, q, .find u (some c)) → u.host ≠ "" →
    ∃ id, v.1.1.state.IsAt id u.host u.port
  undisturbed : InsertsUndisturbed (v.1.1, v.2) act
  made : ∀ i q now u n, v.1.1.effect act = some (i, q, .insert now u) → q.Tracks →
    v.1.2.deleted (u.host, u.port) = some n → n ≤ i

/-- What holds throughout a run in which nothing comes in between: one entry at an address,
entries that stay deleted, and refreshes that found the entry they looked for. -/
structure KeptInTime (v : (Concurrent Store EntryStmt EntryCall × GoneLog) × Looks) : Prop where
  oneEach : OneEach v.1.1.state
  noted : GoneNoted v.1
  stays : StaysDeleted v.1
  heeds : Concurrent.Heeding GoesByRead (v.1.1, v.2)
  looked : ∀ i u c t, v.2 i = some (.find u (some c), t) → u.host ≠ "" →
    ∃ id, t.IsAt id u.host u.port

variable {looks : Looks}

/-- Nothing is asked of a statement that neither looks for an entry nor inserts one. -/
theorem inTime_of_not (h : (w.effect act).all (fun e => !e.2.2.finds && !e.2.2.inserts) = true) :
    InTime ((w, g), looks) act where
  refreshed i q u c heffect := by
    rw [heffect] at h
    exact absurd h Bool.false_ne_true
  undisturbed i q now u heffect := by
    rw [heffect] at h
    exact absurd h Bool.false_ne_true
  made i q now u n heffect := by
    rw [heffect] at h
    exact absurd h Bool.false_ne_true

/-- A delete takes the only entry, a refresh finds its entry and so inserts none, and what a
request inserts was asked for later. -/
theorem spares_of_inTime (h : KeptInTime ((w, g), looks)) (htime : InTime ((w, g), looks) act) :
    Spares (w, g) act := by
  unfold Spares
  split
  · -- no other entry is left at the address
    intro host port hhost hid id' hid'
    exact h.oneEach host port id' _ hhost hid' hid
  · next i q now u heffect =>
    intro n hhost hn
    obtain ⟨refreshed, t, hlook, hfree, hasked⟩ := h.heeds.effect heffect
    have htracks : q.Tracks := by
      rcases hasked with htracks | hrefreshed
      · exact htracks
      · -- a refresh found an entry where it looked, so it does not insert
        obtain ⟨c, rfl⟩ := Option.isSome_iff_exists.mp hrefreshed
        obtain ⟨id, hid⟩ := h.looked i u c t hlook hhost
        exact absurd hid (Store.find_eq_none_iff.mp hfree id)
    exact ⟨htracks, htime.made i q now u n heffect htracks hn⟩
  · trivial

theorem keptInTime_step (h : KeptInTime ((w, g), looks)) (htime : InTime ((w, g), looks) act)
    (hstep : entryStep w act = some w') :
    KeptInTime ((w', g.note w act), Concurrent.found looks w act) where
  oneEach := (oneEach_step h.heeds h.oneEach hstep).mpr htime.undisturbed
  noted := noted_step h.noted hstep
  stays := (staysDeleted_step h.noted h.stays hstep).mpr (spares_of_inTime h htime)
  heeds := Concurrent.heeding_step heeds_code h.heeds hstep
  looked i u c t hlook hhost := by
    rcases Concurrent.found_eq_some hlook with hold | ⟨rfl, q, heffect⟩
    · exact h.looked i u c t hold hhost
    · exact htime.refreshed i q u c heffect hhost

/-- From every store with one active entry at an address, in every run of scans, lookups,
rescans, deletes and sweeps, any number at the same time and cut at their statements, of which
any may fail: as long as nothing comes between what a program reads and what it records, at an
address that lost an entry there are only entries that a request to scan or to track made later
has inserted. -/
theorem stays_deleted_in_time (s : Store) (acts : List (ProgAct EntryCall)) (h : OneEach s)
    (htime : Meets goneLookStep InTime ((⟨s, []⟩, {}), fun _ => none) acts) :
    Always goneStep StaysDeleted (⟨s, []⟩, {}) acts := by
  have hstart : KeptInTime ((⟨s, []⟩, {}), fun _ => none) :=
    { oneEach := h
      noted := ⟨fun _ _ h => absurd h (by simp), fun _ _ h => absurd h (by simp)⟩
      stays := fun _ _ _ _ h => absurd h (by simp)
      heeds := Concurrent.heeding_start s _
      looked := fun _ _ _ _ h => absurd h (by simp) }
  have hall : Always goneLookStep KeptInTime ((⟨s, []⟩, {}), fun _ => none) acts := by
    refine always_of_meets hstart ?_ htime
    rintro ⟨⟨w, g⟩, looks⟩ act ⟨⟨w', g'⟩, looks'⟩ hkept hin hstep
    obtain ⟨v, hstep', heq⟩ := Option.map_eq_some_iff.mp hstep
    obtain ⟨w'', hstep'', rfl⟩ := Option.map_eq_some_iff.mp hstep'
    obtain ⟨hw, rfl⟩ := Prod.mk.inj heq
    obtain ⟨rfl, rfl⟩ := Prod.mk.inj hw
    exact keptInTime_step hkept hin hstep''
  exact (always_watch _ _).mp (hall.mono fun v hv => hv.stays)

/-- A sweep lists an endpoint and looks for it, and then the endpoint is deleted. -/
def sweptInTime : List (ProgAct EntryCall) :=
  [.start (.sweep renewedEnv), .step 0 true, .step 0 true, .step 0 true,
    .start (.delete "" 0 (some 1)), .step 1 true, .step 1 true]

theorem stays_deleted_demo :
    Always goneStep StaysDeleted (⟨knownEndpoint, []⟩, {}) sweptInTime := by
  have hone : OneEach knownEndpoint := by
    rintro host port id id' - ⟨r, hrow, -⟩ ⟨r', hrow', -⟩
    have honly : ∀ k row, knownEndpoint.certs.get? k = some row → k = 1 := by
      intro k row hk
      have hmem := Table.mem_rows_iff.mpr hk
      exact (Prod.mk.inj (List.mem_singleton.mp hmem)).1
    exact (honly id r hrow).trans (honly id' r' hrow').symm
  refine stays_deleted_in_time knownEndpoint sweptInTime hone ?_
  refine meets_cons.mpr ⟨inTime_of_not rfl, fun v hv => ?_⟩
  obtain rfl := Option.some.inj hv
  refine meets_cons.mpr ⟨inTime_of_not rfl, fun v hv => ?_⟩
  obtain rfl := Option.some.inj hv
  refine meets_cons.mpr ⟨⟨?_, ?_, ?_⟩, fun v hv => ?_⟩
  · -- the sweep finds the endpoint it has listed
    rintro i q u c heffect -
    obtain ⟨rfl, hc⟩ := EntryStmt.find.inj
      (Prod.mk.inj (Prod.mk.inj (Option.some.inj heffect)).2).2
    obtain rfl := Option.some.inj hc
    exact ⟨1, _, rfl, rfl, rfl, rfl⟩
  · exact insertsUndisturbed_of_not_inserts rfl
  · intro i q now u n heffect
    have hstmt := (Prod.mk.inj (Prod.mk.inj (Option.some.inj heffect)).2).2
    cases hstmt
  obtain rfl := Option.some.inj hv
  refine meets_cons.mpr ⟨inTime_of_not rfl, fun v hv => ?_⟩
  obtain rfl := Option.some.inj hv
  refine meets_cons.mpr ⟨inTime_of_not rfl, fun v hv => ?_⟩
  obtain rfl := Option.some.inj hv
  refine meets_cons.mpr ⟨inTime_of_not rfl, fun v hv => ?_⟩
  obtain rfl := Option.some.inj hv
  exact meets_cons.mpr ⟨inTime_of_not rfl, fun v hv => meets_nil⟩

/-- A sweep lists an endpoint, the endpoint is deleted, and the sweep records its scan. -/
def sweptRun : List (ProgAct EntryCall) :=
  [.start (.sweep renewedEnv), .step 0 true, .start (.delete "" 0 (some 1)), .step 1 true,
    .step 1 true, .step 0 true, .step 0 true]

theorem swept_back : ¬ ∀ s acts, Always goneStep StaysDeleted (⟨s, []⟩, {}) acts := by
  intro hall
  have hback : (run goneStep (⟨knownEndpoint, []⟩, {}) sweptRun).map (fun v =>
      decide (v.1.state.IsAt 2 "a" 443 ∧ v.2.deleted ("a", 443) = some 2 ∧
        v.2.tracked 2 = none)) = some true := by decide +kernel
  obtain ⟨v, hrun, hv⟩ := Option.map_eq_some_iff.mp hback
  obtain ⟨hat, hdeleted, huntracked⟩ := of_decide_eq_true hv
  obtain ⟨k, hk, -⟩ := hall knownEndpoint sweptRun _ v (List.prefix_refl _) hrun "a" 443 2
    (by decide) hdeleted 2 hat
  exact absurd (huntracked.symm.trans hk) (by simp)

end CertGuard
