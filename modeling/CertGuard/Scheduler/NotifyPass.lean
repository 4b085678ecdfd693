import CertGuard.Lib.TransitionRun
import CertGuard.Notify.Message
import CertGuard.Store.Certs

/-!
# The notification pass

A pass lists the entries once and then works on that list: for each entry the
leaf and then the chain, each sent to every channel that subscribes to the
threshold and marked when at least one took it.

## Main definitions

* `PassEnv` — what a pass meets outside the program
* `notifyPass` — the pass, with the deliveries it made
* `took` — the channels that take an alert of an entry

## Main results

* `notifyPass_deliveries` — deliveries depend on the listed entries alone
* `get?_certs_notifyPass` — what a pass does to the row of an entry
-/

namespace CertGuard

open Transition

/-- What a pass meets: the time it is run for, the clock of its statements, which
messages the channels take and which marks are stored. -/
structure PassEnv where
  now : Int
  clock : Int
  send : Channel → Message → Bool
  marks : Alert → Int → Bool

/-- A message a channel took. -/
structure Delivery where
  alert : Alert
  channel : Channel
  message : Message
  deriving DecidableEq, Repr

/-- `deliver`: the subscribed channels that took the message. -/
def deliver (send : Channel → Message → Bool) (channels : List Channel) (th : Int)
    (msg : Message) : List Channel :=
  channels.filter fun ch => ch.wantsThreshold th && send ch msg

namespace Alert

/-- What recording an alert changes in the row of the entry. -/
def markRow (now th : Int) : Alert → CertRow → CertRow
  | leaf, r =>
    { r with lastNotifiedThreshold := th, lastNotifiedOn := some (Rfc3339.format now) }
  | chain, r => { r with lastChainNotifiedThreshold := th }

/-- `MarkNotified` or `MarkChainNotified`. -/
def mark : Alert → Store → Int → Int → Int → Store
  | leaf, s, now, certID, th => s.markNotified now certID th
  | chain, s, _, certID, th => s.markChainNotified certID th

/-- The event an alert is logged as. -/
def event : Alert → EventKind
  | leaf => .notified
  | chain => .chainExpiring

/-- What the log says of an alert about an entry that so many channels took. -/
def detail (c : Cert) (th : Int) (delivered : Nat) : Alert → EventDetail
  | leaf =>
    .plain (intText th ++ GoString.ofString "-day alert to " ++ intText delivered ++
      GoString.ofString " channel" ++ GoString.ofString (if delivered = 1 then "" else "s"))
  | chain =>
    match c.chainRisk with
    | some risk => .chainExpires risk.subject risk.notAfter
    | none => .chainExpires [] 0

end Alert

/-- The part of the loop body that is about one kind of alert. -/
def alertCert (env : PassEnv) (channels : List Channel) (a : Alert) (s : Store) (c : Cert) :
    Store × List Delivery :=
  let th := a.due c env.now
  if 0 < th then
    let msg := a.message c th env.now
    let delivered := deliver env.send channels th msg
    if delivered ≠ [] then
      let marked := if env.marks a c.id then a.mark s env.clock c.id th else s
      (marked.addEvent env.clock a.event c.id c.name "" (a.detail c th delivered.length),
        delivered.map fun ch => ⟨a, ch, msg⟩)
    else (s, [])
  else (s, [])

/-- The loop body: the leaf of an entry, then its chain. -/
def passCert (env : PassEnv) (channels : List Channel) (s : Store) (c : Cert) :
    Store × List Delivery :=
  let leaf := alertCert env channels .leaf s c
  let chain := alertCert env channels .chain leaf.1 c
  (chain.1, leaf.2 ++ chain.2)

/-- `NotifyPass`. The number it returns is how many deliveries it made. -/
def notifyPass (env : PassEnv) (s : Store) : Store × List Delivery :=
  let channels := s.allEnabledChannels
  if channels = [] then (s, []) else runOut (passCert env channels) s s.list

/-! ### One alert -/

/-- The channels that take the alert an entry is due for, if it is due for one. -/
def took (env : PassEnv) (channels : List Channel) (a : Alert) (c : Cert) : List Channel :=
  if 0 < a.due c env.now then
    deliver env.send channels (a.due c env.now) (a.message c (a.due c env.now) env.now)
  else []

/-- The deliveries of one kind of alert for a listed entry. -/
def alertDeliveries (env : PassEnv) (channels : List Channel) (a : Alert) (c : Cert) :
    List Delivery :=
  (took env channels a c).map fun ch => ⟨a, ch, a.message c (a.due c env.now) env.now⟩

/-- What the pass does to the row of a listed entry for one kind of alert. -/
def alertRow (env : PassEnv) (channels : List Channel) (c : Cert) (a : Alert) (r : CertRow) :
    CertRow :=
  if took env channels a c ≠ [] ∧ env.marks a c.id then
    a.markRow env.clock (a.due c env.now) r
  else r

variable {env : PassEnv} {channels : List Channel} {a : Alert} {s : Store} {c : Cert} {id : Int}

theorem alertCert_eq : alertCert env channels a s c =
    if took env channels a c ≠ [] then
      ((if env.marks a c.id then a.mark s env.clock c.id (a.due c env.now) else s).addEvent
        env.clock a.event c.id c.name "" (a.detail c (a.due c env.now)
          (took env channels a c).length), alertDeliveries env channels a c)
    else (s, []) := by
  by_cases hdue : 0 < a.due c env.now
  · simp only [alertCert, alertDeliveries, took, if_pos hdue]
  · simp only [alertCert, took, if_neg hdue, ne_eq, not_true, if_false]

theorem alertCert_snd : (alertCert env channels a s c).2 = alertDeliveries env channels a c := by
  rw [alertCert_eq]
  by_cases h : took env channels a c = []
  · simp [alertDeliveries, h]
  · simp [h]

theorem alertCert_channels : (alertCert env channels a s c).1.channels = s.channels := by
  rw [alertCert_eq]
  split_ifs
  · cases a <;> rfl
  · rfl
  · rfl

theorem alertCert_certs : (alertCert env channels a s c).1.certs =
    if took env channels a c ≠ [] ∧ env.marks a c.id then
      s.certs.modify c.id (a.markRow env.clock (a.due c env.now))
    else s.certs := by
  rw [alertCert_eq]
  by_cases htook : took env channels a c = []
  · simp [htook]
  · by_cases hmark : env.marks a c.id = true
    · simp only [htook, hmark, ne_eq, not_false_iff, if_true, and_self]
      cases a <;> rfl
    · simp [htook, hmark, Store.addEvent]

/-- One alert changes the row of its entry and no other. -/
theorem get?_certs_alertCert : (alertCert env channels a s c).1.certs.get? id =
    (s.certs.get? id).map fun r => if id = c.id then alertRow env channels c a r else r := by
  rw [alertCert_certs]
  by_cases h : took env channels a c ≠ [] ∧ env.marks a c.id
  · rw [if_pos h, Table.get?_modify]
    simp only [alertRow, if_pos h]
    split_ifs <;> simp
  · rw [if_neg h]
    simp only [alertRow, if_neg h, ite_self, Option.map_id']

/-! ### The pass -/

/-- The deliveries of both alerts of a listed entry. -/
def certDeliveries (env : PassEnv) (channels : List Channel) (c : Cert) : List Delivery :=
  alertDeliveries env channels .leaf c ++ alertDeliveries env channels .chain c

/-- What the pass does to the row of a listed entry. -/
def passRow (env : PassEnv) (channels : List Channel) (c : Cert) (r : CertRow) : CertRow :=
  alertRow env channels c .chain (alertRow env channels c .leaf r)

theorem passCert_snd : (passCert env channels s c).2 = certDeliveries env channels c := by
  simp only [passCert, alertCert_snd, certDeliveries]

theorem passCert_channels : (passCert env channels s c).1.channels = s.channels := by
  simp only [passCert, alertCert_channels]

theorem get?_certs_passCert : (passCert env channels s c).1.certs.get? id =
    (s.certs.get? id).map fun r => if id = c.id then passRow env channels c r else r := by
  simp only [passCert, get?_certs_alertCert, Option.map_map, passRow]
  congr 1
  funext r
  split_ifs <;> rfl

theorem runOut_passCert_snd (cs : List Cert) :
    (runOut (passCert env channels) s cs).2 = cs.flatMap (certDeliveries env channels) := by
  induction cs generalizing s with
  | nil => rfl
  | cons c cs ih => simp [passCert_snd, ih]

theorem runOut_passCert_channels (cs : List Cert) :
    (runOut (passCert env channels) s cs).1.channels = s.channels :=
  runOut_induction (P := fun t : Store => t.channels = s.channels) rfl
    fun _ _ _ h => passCert_channels.trans h

/-- The loop changes the row of an entry once, if the entry was listed. -/
theorem get?_certs_runOut_passCert {cs : List Cert} (hnodup : (cs.map Cert.id).Nodup) :
    (runOut (passCert env channels) s cs).1.certs.get? id =
      (s.certs.get? id).map fun r =>
        match cs.find? fun c => c.id = id with
        | some c => passRow env channels c r
        | none => r := by
  induction cs generalizing s with
  | nil => simp
  | cons c cs ih =>
    obtain ⟨hc, hcs⟩ := List.nodup_cons.mp hnodup
    rw [runOut_cons_fst, ih hcs, get?_certs_passCert, Option.map_map]
    congr 1
    funext r
    by_cases h : c.id = id
    · simp [h, find?_id_eq_none (h ▸ hc)]
    · simp [Ne.symm h, eq_comm]

theorem took_nil : took env [] a c = [] := by
  simp [took, deliver]

/-- Without channels the loop would do nothing, so the guard before it is redundant. -/
theorem runOut_passCert_nil (cs : List Cert) : runOut (passCert env []) s cs = (s, []) := by
  have hstep : ∀ (t : Store) (c : Cert), passCert env [] t c = (t, []) := fun t c => by
    simp [passCert, alertCert_eq, took_nil]
  induction cs with
  | nil => rfl
  | cons c cs ih => simp only [runOut, hstep, ih, List.append_nil]

theorem notifyPass_eq :
    notifyPass env s = runOut (passCert env s.allEnabledChannels) s s.list := by
  simp only [notifyPass]
  split_ifs with h
  · rw [h, runOut_passCert_nil]
  · rfl

/-- Deliveries depend on the listed entries alone, not on what the pass marks. -/
theorem notifyPass_deliveries :
    (notifyPass env s).2 = s.list.flatMap (certDeliveries env s.allEnabledChannels) := by
  rw [notifyPass_eq, runOut_passCert_snd]

theorem notifyPass_channels : (notifyPass env s).1.channels = s.channels := by
  rw [notifyPass_eq, runOut_passCert_channels]

/-- A pass changes the row of an active entry by its two alerts, and no other row. -/
theorem get?_certs_notifyPass : (notifyPass env s).1.certs.get? id =
    (s.certs.get? id).map fun r =>
      if r.active then passRow env s.allEnabledChannels (scanRowValues id r) r else r := by
  rw [notifyPass_eq, get?_certs_runOut_passCert s.list_ids_nodup, Store.find?_list]
  cases s.certs.get? id with
  | none => rfl
  | some r => cases hactive : r.active <;> simp [Option.filter, hactive]

end CertGuard
