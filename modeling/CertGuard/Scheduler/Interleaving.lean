import CertGuard.Lib.TransitionRun
import CertGuard.Scheduler.Counters

/-!
# Passes and scans, statement by statement

The scheduler and the request handlers run at the same time. Each process is cut at
its statements: between two of them any other process may take a step. A pass lists
the entries once and marks by id; a scan reads the entry and writes back counters it
read.

## Main definitions

* `PassPc`, `ScanPc`, `Proc` — where a process stands
* `Effect` — what one statement does
* `Proc.next` — the next statement of a process
* `Proc.pending`, `Proc.told` — the entries, as it read them, a process still works
  with, and the alert it has delivered but not marked
* `System`, `System.step` — any number of processes over one store

## Main results

* `Proc.moves` — what the statements of a process can be
* `System.proc_cases` — where a process comes from that stands in a state after a step
* `Effect.get?_apply` — what a statement does to a row
* `reaches_notifyPass`, `reaches_upsertScan` — a process left alone does what the
  function it was cut from does
-/

namespace CertGuard

open Transition

/-! ### A pass -/

/-- The alert a pass is about to send, with what it still has to look at. -/
structure Job where
  now : Int
  channels : List Channel
  alert : Alert
  cert : Cert
  todo : List (Alert × Cert)
  isDue : 0 < alert.due cert now

/-- The threshold of the alert. -/
def Job.th (job : Job) : Int := job.alert.due job.cert job.now

/-- Where a pass stands: before one of its statements, or at its end. -/
inductive PassPc
  | loadChannels (now : Int)
  | list (now : Int) (channels : List Channel)
  | send (job : Job) (waiting : List Channel) (delivered : Nat)
  | mark (job : Job) (delivered : Nat)
  | log (job : Job) (delivered : Nat)
  | done

/-- Goes to the next alert that is due. -/
def nextAlert (now : Int) (channels : List Channel) : List (Alert × Cert) → PassPc
  | [] => .done
  | (a, c) :: todo =>
    if h : 0 < a.due c now then
      .send ⟨now, channels, a, c, todo, h⟩
        (channels.filter fun ch => ch.wantsThreshold (a.due c now)) 0
    else nextAlert now channels todo

/-- Goes on after the channels in `waiting`, to mark if one of them took the alert. -/
def afterSend (job : Job) (waiting : List Channel) (delivered : Nat) : PassPc :=
  match waiting with
  | [] => if 0 < delivered then .mark job delivered else nextAlert job.now job.channels job.todo
  | _ => .send job waiting delivered

/-! ### A scan -/

/-- Where an `UpsertScan` stands. -/
inductive ScanPc
  | find (name : String) (res : ScanResult)
  | write (name : String) (res : ScanResult) (existing : Option Cert)
  | done

/-! ### Statements -/

/-- A pass or a scan. -/
inductive Proc
  | pass (pc : PassPc)
  | scan (pc : ScanPc)

/-- What a statement does. -/
inductive Effect
  /-- Entries are read. -/
  | read
  /-- A channel is offered an alert about an entry, and takes it or not. -/
  | sent (a : Alert) (c : Cert) (taken : Bool)
  /-- An alert is recorded by the id of its entry. -/
  | marked (clock : Int) (a : Alert) (c : Cert) (th : Int)
  | logged (clock : Int) (a : Alert) (c : Cert) (detail : EventDetail)
  | wrote (clock : Int) (name : String) (res : ScanResult) (existing : Option Cert)
  /-- The statement fails, or is none. -/
  | nothing

/-- The store after a statement. -/
def Effect.apply (s : Store) : Effect → Store
  | marked clock a c th => a.mark s clock c.id th
  | logged clock a c detail => s.addEvent clock a.event c.id c.name "" detail
  | wrote clock name res existing => (s.writeScan clock name res existing).1
  | _ => s

namespace Proc

/-- The next statement of a process and where it stands after it. `ok` is whether the
channel takes the message, whether the statement succeeds. -/
def next (s : Store) (clock : Int) (ok : Bool) : Proc → Option (Effect × Proc)
  | pass (.loadChannels now) =>
    let channels := s.allEnabledChannels
    some (.nothing, .pass (if channels = [] then .done else .list now channels))
  | pass (.list now channels) =>
    some (.read, .pass
      (nextAlert now channels (s.list.flatMap fun c => [(.leaf, c), (.chain, c)])))
  | pass (.send job (_ :: waiting) delivered) =>
    some (.sent job.alert job.cert ok,
      .pass (afterSend job waiting (if ok then delivered + 1 else delivered)))
  | pass (.send job [] delivered) => some (.nothing, .pass (afterSend job [] delivered))
  | pass (.mark job delivered) =>
    some (if ok then .marked clock job.alert job.cert job.th else .nothing,
      .pass (.log job delivered))
  | pass (.log job delivered) =>
    let detail := job.alert.detail job.cert job.th delivered
    some (if ok then .logged clock job.alert job.cert detail else .nothing,
      .pass (nextAlert job.now job.channels job.todo))
  | pass .done => none
  | scan (.find name res) =>
    some (.read, .scan (.write name res (s.findByHostPort res.host res.port)))
  | scan (.write name res existing) =>
    some (if ok then .wrote clock name res existing else .nothing, .scan .done)
  | scan .done => none

end Proc

/-! ### The system -/

/-- The store and the processes at work on it. -/
structure System where
  store : Store
  procs : List Proc

/-- A process is started, or takes its next statement. -/
inductive Act
  | startPass (now : Int)
  | startScan (name : String) (res : ScanResult)
  | step (i : Nat) (clock : Int) (ok : Bool)

namespace System

/-- What an action does to the store. -/
def effect (y : System) : Act → Effect
  | .step i clock ok =>
    ((y.procs[i]?.bind fun p => p.next y.store clock ok).map Prod.fst).getD .nothing
  | _ => .nothing

/-- Takes an action. -/
def step (y : System) : Act → Option System
  | .startPass now => some { y with procs := y.procs ++ [.pass (.loadChannels now)] }
  | .startScan name res => some { y with procs := y.procs ++ [.scan (.find name res)] }
  | .step i clock ok =>
    (y.procs[i]?.bind fun p => p.next y.store clock ok).map fun e =>
      { store := e.1.apply y.store, procs := y.procs.set i e.2 }

end System

/-! ### What a process works with -/

/-- The alerts, each with its entry as it was read, a pass still has to see to. -/
def PassPc.pending : PassPc → List (Alert × Cert)
  | send job _ _ => (job.alert, job.cert) :: job.todo
  | mark job _ => (job.alert, job.cert) :: job.todo
  | log job _ => job.todo
  | _ => []

/-- The alert a channel took and that is not marked yet. -/
def PassPc.told : PassPc → Option (Alert × Cert)
  | send job _ delivered => if 0 < delivered then some (job.alert, job.cert) else none
  | mark job _ => some (job.alert, job.cert)
  | _ => none

namespace Proc

/-- The entries, as they were read, a process still works with. -/
def pending : Proc → List (Alert × Cert)
  | pass pc => pc.pending
  | scan (.write _ _ (some e)) => [(.leaf, e), (.chain, e)]
  | scan _ => []

/-- The alert a process delivered and did not mark yet. -/
def told : Proc → Option (Alert × Cert)
  | pass pc => pc.told
  | scan _ => none

end Proc

/-- The entry is as its row is read. -/
def Store.Holds (s : Store) (c : Cert) : Prop :=
  ∃ r, s.certs.get? c.id = some r ∧ c = scanRowValues c.id r

variable {s : Store} {clock : Int} {ok : Bool} {eff : Effect} {p p' : Proc} {y y' : System}
variable {act : Act} {x : Alert × Cert} {id : Int} {r : CertRow}

theorem pending_nextAlert {now : Int} {channels : List Channel} {todo : List (Alert × Cert)}
    (h : x ∈ (nextAlert now channels todo).pending) : x ∈ todo := by
  induction todo with
  | nil => exact h
  | cons first todo ih =>
    unfold nextAlert at h
    split at h
    · exact h
    · exact List.mem_cons_of_mem _ (ih h)

theorem told_nextAlert {now : Int} {channels : List Channel} {todo : List (Alert × Cert)} :
    (nextAlert now channels todo).told = none := by
  induction todo with
  | nil => rfl
  | cons first todo ih =>
    unfold nextAlert
    split
    · rfl
    · exact ih

theorem pending_afterSend {job : Job} {waiting : List Channel} {delivered : Nat}
    (h : x ∈ (afterSend job waiting delivered).pending) :
    x ∈ (job.alert, job.cert) :: job.todo := by
  unfold afterSend at h
  split at h
  · split at h
    · exact h
    · exact List.mem_cons_of_mem _ (pending_nextAlert h)
  · exact h

theorem told_afterSend {job : Job} {waiting : List Channel} {delivered : Nat}
    (h : (afterSend job waiting delivered).told = some x) :
    0 < delivered ∧ x = (job.alert, job.cert) := by
  unfold afterSend at h
  split at h
  · split at h
    next hpos => exact ⟨hpos, (Option.some.inj h).symm⟩
    next => simp [told_nextAlert] at h
  · simp only [PassPc.told, Option.ite_none_right_eq_some, Option.some.injEq] at h
    exact ⟨h.1, h.2.symm⟩

namespace Proc

theorem pending_of_told (h : p.told = some x) : x ∈ p.pending := by
  cases p with
  | scan pc => simp [told] at h
  | pass pc =>
    cases pc with
    | send job waiting delivered =>
      simp only [told, PassPc.told, Option.ite_none_right_eq_some, Option.some.injEq] at h
      simp [pending, PassPc.pending, h.2]
    | mark job delivered =>
      simp only [told, PassPc.told, Option.some.injEq] at h
      simp [pending, PassPc.pending, h]
    | loadChannels now => simp [told, PassPc.told] at h
    | list now channels => simp [told, PassPc.told] at h
    | log job delivered => simp [told, PassPc.told] at h
    | done => simp [told, PassPc.told] at h

/-- What a statement of a process can be, and what it leaves the process with. -/
structure Moves (s : Store) (p : Proc) (eff : Effect) (p' : Proc) : Prop where
  /-- What a process works with it worked with before, or it has just read it. -/
  pending : ∀ x ∈ p'.pending, (eff ≠ .read ∧ x ∈ p.pending) ∨ (eff = .read ∧ s.Holds x.2)
  /-- An alert is delivered before it is marked. -/
  told : ∀ x, p'.told = some x → (eff ≠ .read ∧ p.told = some x) ∨ eff = .sent x.1 x.2 true
  /-- Only an alert that was delivered is marked, at the threshold it was due at. -/
  marked : ∀ t a c th, eff = .marked t a c th → p.told = some (a, c) ∧ 0 < th
  /-- Only a scan writes, with the entry it read. -/
  wrote : ∀ t name res existing, eff = .wrote t name res existing →
    p = .scan (.write name res existing)

theorem Moves.of_pass {pc : PassPc} {p : Proc} (heff : eff ≠ .read)
    (hpending : ∀ x ∈ pc.pending, x ∈ p.pending)
    (htold : ∀ x, pc.told = some x → p.told = some x ∨ eff = .sent x.1 x.2 true)
    (hmarked : ∀ t a c th, eff = .marked t a c th → p.told = some (a, c) ∧ 0 < th)
    (hwrote : ∀ t name res existing, eff ≠ .wrote t name res existing) :
    Moves s p eff (.pass pc) where
  pending x hx := Or.inl ⟨heff, hpending x hx⟩
  told x hx := (htold x hx).imp_left fun h => ⟨heff, h⟩
  marked := hmarked
  wrote t name res existing h := absurd h (hwrote t name res existing)

theorem moves_pass {pc : PassPc} (h : (pass pc).next s clock ok = some (eff, p')) :
    Moves s (pass pc) eff p' := by
  cases pc with
  | loadChannels now =>
    simp only [next, Option.some.injEq, Prod.mk.injEq] at h
    obtain ⟨rfl, rfl⟩ := h
    apply Moves.of_pass
    · simp
    · intro x hx
      split at hx <;> simp [PassPc.pending] at hx
    · intro x hx
      split at hx <;> simp [PassPc.told] at hx
    · simp
    · simp
  | list now channels =>
    -- alerts are decided on rows as they are read here
    simp only [next, Option.some.injEq, Prod.mk.injEq] at h
    obtain ⟨rfl, rfl⟩ := h
    refine ⟨fun x hx => ?_, fun x hx => ?_, by simp, by simp⟩
    · obtain ⟨c, hc, hxc⟩ := List.mem_flatMap.mp (pending_nextAlert hx)
      obtain ⟨r, hrow, -, hread⟩ := Store.mem_list_iff.mp hc
      have hxc : x.2 = c := by
        rcases List.mem_pair.mp hxc with rfl | rfl <;> rfl
      exact Or.inr ⟨rfl, r, hxc ▸ hrow, hxc ▸ hread⟩
    · simp [told, told_nextAlert] at hx
  | send job waiting delivered =>
    cases waiting with
    | nil =>
      simp only [next, Option.some.injEq, Prod.mk.injEq] at h
      obtain ⟨rfl, rfl⟩ := h
      apply Moves.of_pass
      · simp
      · exact fun x hx => pending_afterSend hx
      · intro x hx
        obtain ⟨hpos, rfl⟩ := told_afterSend hx
        exact Or.inl (if_pos hpos)
      · simp
      · simp
    | cons ch waiting =>
      -- an alert counts as told from the first channel that takes it
      simp only [next, Option.some.injEq, Prod.mk.injEq] at h
      obtain ⟨rfl, rfl⟩ := h
      apply Moves.of_pass
      · simp
      · exact fun x hx => pending_afterSend hx
      · intro x hx
        obtain ⟨hpos, rfl⟩ := told_afterSend hx
        cases ok with
        | true => exact Or.inr rfl
        | false => exact Or.inl (if_pos hpos)
      · simp
      · simp
  | mark job delivered =>
    -- the mark is for the alert that was told, at its threshold
    simp only [next, Option.some.injEq, Prod.mk.injEq] at h
    obtain ⟨rfl, rfl⟩ := h
    apply Moves.of_pass
    · split <;> simp
    · exact fun x hx => List.mem_cons_of_mem _ hx
    · simp [PassPc.told]
    · intro t a c th heq
      split at heq
      · obtain ⟨-, rfl, rfl, rfl⟩ := Effect.marked.inj heq
        exact ⟨rfl, job.isDue⟩
      · simp at heq
    · intro t name res existing
      split <;> simp
  | log job delivered =>
    simp only [next, Option.some.injEq, Prod.mk.injEq] at h
    obtain ⟨rfl, rfl⟩ := h
    apply Moves.of_pass
    · split <;> simp
    · exact fun x hx => pending_nextAlert hx
    · simp [told_nextAlert]
    · intro t a c th heq
      split at heq <;> simp at heq
    · intro t name res existing
      split <;> simp
  | done => simp [next] at h

theorem moves_scan {pc : ScanPc} (h : (scan pc).next s clock ok = some (eff, p')) :
    Moves s (scan pc) eff p' := by
  cases pc with
  | find name res =>
    simp only [next, Option.some.injEq, Prod.mk.injEq] at h
    obtain ⟨rfl, rfl⟩ := h
    refine ⟨fun x hx => ?_, by simp [told], by simp, by simp⟩
    cases hfind : s.findByHostPort res.host res.port with
    | none => simp [pending, hfind] at hx
    | some e =>
      -- the row it found is the one it will write back
      obtain ⟨r, hrow, -, hread⟩ := Store.findByHostPort_eq_some hfind
      rw [hfind] at hx
      have hxe : x.2 = e := by
        rcases List.mem_pair.mp hx with rfl | rfl <;> rfl
      exact Or.inr ⟨rfl, r, hxe ▸ hrow, hxe ▸ hread⟩
  | write name res existing =>
    simp only [next, Option.some.injEq, Prod.mk.injEq] at h
    obtain ⟨rfl, rfl⟩ := h
    refine ⟨by simp [pending], by simp [told], fun t a c th heq => ?_,
      fun t name' res' existing' heq => ?_⟩
    · split at heq <;> simp at heq
    · split at heq
      · obtain ⟨-, rfl, rfl, rfl⟩ := Effect.wrote.inj heq
        rfl
      · simp at heq
  | done => simp [next] at h

/-- What the statements of a process can be. -/
theorem moves (h : p.next s clock ok = some (eff, p')) : Moves s p eff p' := by
  cases p with
  | pass pc => exact moves_pass h
  | scan pc => exact moves_scan h

end Proc

/-! ### What a step does -/

namespace System

theorem store_step (h : y.step act = some y') : y'.store = (y.effect act).apply y.store := by
  cases act with
  | startPass now => exact (congrArg System.store (Option.some.inj h)).symm
  | startScan name res => exact (congrArg System.store (Option.some.inj h)).symm
  | step i clock ok =>
    obtain ⟨e, he, rfl⟩ := Option.map_eq_some_iff.mp h
    simp only [effect, he, Option.map_some, Option.getD_some]

/-- A process of the state after a step has not moved, or has just been started, or is
the one that took the step. -/
theorem proc_cases (h : y.step act = some y') {j : Nat} {q : Proc} (hq : y'.procs[j]? = some q) :
    (y.procs[j]? = some q ∧ ∀ clock ok, act ≠ .step j clock ok) ∨ q.pending = [] ∨
      ∃ clock ok p, act = .step j clock ok ∧ y.procs[j]? = some p ∧
        p.next y.store clock ok = some (y.effect act, q) := by
  -- a process that was just started has nothing pending
  have hstart : ∀ p : Proc, p.pending = [] → (y.procs ++ [p])[j]? = some q →
      y.procs[j]? = some q ∨ q.pending = [] := fun p hp hget => by
    rw [List.getElem?_append] at hget
    split at hget
    · exact Or.inl hget
    · exact Or.inr (List.mem_singleton.mp (List.mem_of_getElem? hget) ▸ hp)
  cases act with
  | startPass now =>
    obtain rfl := Option.some.inj h
    rcases hstart _ rfl hq with hq | hq
    · exact Or.inl ⟨hq, by simp⟩
    · exact Or.inr (Or.inl hq)
  | startScan name res =>
    obtain rfl := Option.some.inj h
    rcases hstart _ rfl hq with hq | hq
    · exact Or.inl ⟨hq, by simp⟩
    · exact Or.inr (Or.inl hq)
  | step i clock ok =>
    obtain ⟨e, he, rfl⟩ := Option.map_eq_some_iff.mp h
    obtain ⟨p, hp, hnext⟩ := Option.bind_eq_some_iff.mp he
    rw [List.getElem?_set] at hq
    split_ifs at hq with hij hlen
    · subst hij
      obtain rfl := Option.some.inj hq
      refine Or.inr (Or.inr ⟨clock, ok, p, rfl, hp, ?_⟩)
      simp only [effect, he, Option.map_some, Option.getD_some, hnext]
    · exact Or.inl ⟨hq, by simp [hij]⟩

/-- A step is the next statement of the process it is a step of. -/
theorem next_of_step {i : Nat} (h : y.step (.step i clock ok) = some y') :
    ∃ p p', y.procs[i]? = some p ∧
      p.next y.store clock ok = some (y.effect (.step i clock ok), p') := by
  obtain ⟨e, he, -⟩ := Option.map_eq_some_iff.mp h
  obtain ⟨p, hp, hnext⟩ := Option.bind_eq_some_iff.mp he
  refine ⟨p, e.2, hp, ?_⟩
  simp only [effect, he, Option.map_some, Option.getD_some, hnext]

/-- A step that is refused would do nothing. -/
theorem effect_of_refused (h : y.step act = none) : y.effect act = .nothing := by
  cases act with
  | startPass now => rfl
  | startScan name res => rfl
  | step i clock ok =>
    have he := Option.map_eq_none_iff.mp h
    simp only [effect, he, Option.map_none, Option.getD_none]

end System

namespace Effect

/-- What a statement makes of a row. -/
def row (id : Int) (r : CertRow) : Effect → CertRow
  | marked clock a c th => if id = c.id then a.markRow clock th r else r
  | wrote clock _ res (some e) => if id = e.id then updateScan clock res e r else r
  | _ => r

/-- Rows stay, and change as `row` says. -/
theorem get?_apply (eff : Effect) (h : s.certs.get? id = some r) :
    (eff.apply s).certs.get? id = some (eff.row id r) := by
  cases eff with
  | marked clock a c th =>
    have hmark : (a.mark s clock c.id th).certs = s.certs.modify c.id (a.markRow clock th) := by
      cases a <;> rfl
    rw [apply, hmark, Table.get?_modify, h, row]
    split_ifs <;> rfl
  | wrote clock name res existing =>
    cases existing with
    | none => exact Store.get?_certs_writeScan_none h
    | some e => rw [apply, Store.get?_certs_writeScan_some, h, Option.map_some, row]
  | read => exact h
  | sent a c taken => exact h
  | logged clock a c detail => exact h
  | nothing => exact h

/-- A row there is was there before, or a scan has added it with both counters 0. -/
theorem row_of_get?_apply {eff : Effect} {r' : CertRow}
    (h : (eff.apply s).certs.get? id = some r') :
    (∃ r, s.certs.get? id = some r ∧ r' = eff.row id r) ∨
      (s.certs.get? id = none ∧ ∀ a : Alert, a.counter r' = 0) := by
  cases hget : s.certs.get? id with
  | some r =>
    rw [get?_apply eff hget] at h
    exact Or.inl ⟨r, rfl, (Option.some.inj h).symm⟩
  | none =>
    -- only the insertion of a scan makes a row, with counters of zero
    refine Or.inr ⟨rfl, ?_⟩
    cases eff with
    | marked clock a c th =>
      have hmark : (a.mark s clock c.id th).certs = s.certs.modify c.id (a.markRow clock th) := by
        cases a <;> rfl
      rw [apply, hmark, Table.get?_modify, hget] at h
      split_ifs at h
      simp at h
    | wrote clock name res existing =>
      cases existing with
      | none =>
        have hinsert : (apply s (.wrote clock name res none)).certs =
            s.certs.insert (insertScan clock name res) := rfl
        rw [hinsert, Table.get?_insert, hget] at h
        split_ifs at h
        · obtain rfl := Option.some.inj h
          intro a
          cases a <;> rfl
      | some e => simp [apply, Store.get?_certs_writeScan_some, hget] at h
    | read => simp [apply, hget] at h
    | sent a c taken => simp [apply, hget] at h
    | logged clock a c detail => simp [apply, Store.addEvent, hget] at h
    | nothing => simp [apply, hget] at h

end Effect

/-! ### A process left alone -/

/-- The statements of a single process one after the other, by their outcomes. -/
def aloneStep (clock : Int) (y : System) (ok : Bool) : Option System := y.step (.step 0 clock ok)

/-- A store with one pass at work on it. -/
def alone (s : Store) (pc : PassPc) : System := ⟨s, [.pass pc]⟩

variable {env : PassEnv} {channels : List Channel} {a : Alert} {c : Cert}
variable {todo : List (Alert × Cert)}

/-- The channels still waiting are asked one by one. -/
theorem reaches_afterSend (env : PassEnv) (job : Job) {waiting : List Channel} (delivered : Nat)
    (hne : waiting ≠ []) :
    Reaches (aloneStep env.clock) (alone s (.send job waiting delivered))
      (alone s (afterSend job [] (delivered + (waiting.filter fun ch =>
        env.send ch (job.alert.message job.cert job.th env.now)).length))) := by
  induction waiting generalizing delivered with
  | nil => exact absurd rfl hne
  | cons ch waiting ih =>
    -- one step for each channel that is left
    have hfirst : Reaches (aloneStep env.clock) (alone s (.send job (ch :: waiting) delivered))
        (alone s (afterSend job waiting
          (if env.send ch (job.alert.message job.cert job.th env.now) then delivered + 1
          else delivered))) :=
      Reaches.single (a := env.send ch (job.alert.message job.cert job.th env.now)) rfl
    refine hfirst.trans ?_
    cases waiting with
    | nil =>
      rw [List.filter_cons]
      split_ifs <;> exact Reaches.refl _
    | cons ch' waiting =>
      have hrest := ih (if env.send ch (job.alert.message job.cert job.th env.now)
        then delivered + 1 else delivered) (by simp)
      rw [List.filter_cons]
      split_ifs at hrest ⊢
      · rw [List.length_cons, ← Nat.add_assoc, Nat.add_right_comm]
        exact hrest
      · exact hrest

/-- The pass deals with one alert as the loop body of `NotifyPass` does. -/
theorem reaches_nextAlert (env : PassEnv) (channels : List Channel) (s : Store) (a : Alert)
    (c : Cert) (todo : List (Alert × Cert)) :
    Reaches (aloneStep env.clock) (alone s (nextAlert env.now channels ((a, c) :: todo)))
      (alone (alertCert env channels a s c).1 (nextAlert env.now channels todo)) := by
  by_cases hdue : 0 < a.due c env.now
  · have hdeliver : took env channels a c =
        (channels.filter fun ch => ch.wantsThreshold (a.due c env.now)).filter fun ch =>
          env.send ch (a.message c (a.due c env.now) env.now) := by
      rw [took, if_pos hdue, deliver, List.filter_filter]
      simp only [Bool.and_comm]
    rw [nextAlert, dif_pos hdue, alertCert_eq, hdeliver]
    cases hwaiting : channels.filter fun ch => ch.wantsThreshold (a.due c env.now) with
    | nil => exact Reaches.single (a := true) rfl
    | cons ch waiting =>
      have hsend := reaches_afterSend (s := s) env ⟨env.now, channels, a, c, todo, hdue⟩ 0
        (List.cons_ne_nil ch waiting)
      refine hsend.trans ?_
      simp only [Job.th, Nat.zero_add]
      cases htook : (ch :: waiting).filter fun ch =>
          env.send ch (a.message c (a.due c env.now) env.now) with
      | nil => exact Reaches.refl _
      | cons ch' taken =>
        -- at least one channel took it: the mark, then the event
        have hmark : Reaches (aloneStep env.clock)
            (alone s (.mark ⟨env.now, channels, a, c, todo, hdue⟩ (ch' :: taken).length))
            (alone (if env.marks a c.id then a.mark s env.clock c.id (a.due c env.now) else s)
              (.log ⟨env.now, channels, a, c, todo, hdue⟩ (ch' :: taken).length)) := by
          cases hmarks : env.marks a c.id with
          | true => exact Reaches.single (a := true) rfl
          | false => exact Reaches.single (a := false) rfl
        exact hmark.trans (Reaches.single (a := true) rfl)
  · rw [nextAlert, dif_neg hdue, alertCert, if_neg hdue]
    exact Reaches.refl _

theorem reaches_done (env : PassEnv) (cs : List Cert) :
    Reaches (aloneStep env.clock)
      (alone s (nextAlert env.now channels (cs.flatMap fun c => [(.leaf, c), (.chain, c)])))
      (alone (Transition.runOut (passCert env channels) s cs).1 .done) := by
  induction cs generalizing s with
  | nil => exact Reaches.refl _
  | cons c cs ih =>
    have hleaf := reaches_nextAlert env channels s .leaf c
      ((.chain, c) :: cs.flatMap fun c => [(.leaf, c), (.chain, c)])
    exact (hleaf.trans (reaches_nextAlert env _ _ .chain c _)).trans ih

/-- A pass that nothing comes in between does what `NotifyPass` does. -/
theorem reaches_notifyPass (env : PassEnv) (s : Store) :
    Reaches (aloneStep env.clock) (alone s (.loadChannels env.now))
      (alone (notifyPass env s).1 .done) := by
  have hload : Reaches (aloneStep env.clock) (alone s (.loadChannels env.now))
      (alone s (if s.allEnabledChannels = [] then .done
        else .list env.now s.allEnabledChannels)) :=
    Reaches.single (a := true) rfl
  refine hload.trans ?_
  rw [notifyPass]
  split_ifs with hchannels
  · exact Reaches.refl _
  · have hlist : Reaches (aloneStep env.clock) (alone s (.list env.now s.allEnabledChannels))
        (alone s (nextAlert env.now s.allEnabledChannels
          (s.list.flatMap fun c => [(.leaf, c), (.chain, c)]))) :=
      Reaches.single (a := true) rfl
    exact hlist.trans (reaches_done env s.list)

/-- A scan that nothing comes in between does what `UpsertScan` does. -/
theorem reaches_upsertScan (s : Store) (clock : Int) (name : String) (res : ScanResult) :
    Reaches (aloneStep clock) ⟨s, [.scan (.find name res)]⟩
      ⟨(s.upsertScan clock name res).1, [.scan .done]⟩ :=
  ⟨[true, true], rfl⟩

end CertGuard
