import CertGuard.Lib.Escalation
import CertGuard.Scheduler.Counters

/-!
# Runs of passes and scans

Passes and scans taken one after the other. As long as no scan of an entry finds
another certificate, what one channel receives about the entry is what a receiver
of an escalation receives: each pass is a look.

## Main definitions

* `Op`, `opStep` — a pass or a scan
* `Replaces` — a scan that finds another certificate, or chain, for an entry
* `looks` — a run as one channel of an escalation sees it

## Main results

* `rungsTo_runOut` — deliveries of a run are those of the escalation
-/

namespace CertGuard

open Transition Escalation

/-- One operation of a run. -/
inductive Op
  | pass (env : PassEnv)
  | scan (now : Int) (name : String) (res : ScanResult)

/-- Takes an operation, with the deliveries it makes. -/
def opStep (s : Store) : Op → Store × List Delivery
  | .pass env => notifyPass env s
  | .scan now name res => ((s.upsertScan now name res).1, [])

/-- The passes of a run. -/
def passes (ops : List Op) : List PassEnv :=
  ops.filterMap fun
    | .pass env => some env
    | .scan .. => none

/-- A scan of the entry that finds another certificate, or chain, than the one stored. -/
def Replaces (a : Alert) (id : Int) (s : Store) : Op → Prop
  | .pass _ => False
  | .scan _ _ res =>
    ∃ c, s.findByHostPort res.host res.port = some c ∧ c.id = id ∧ a.ident c ≠ a.found res

/-- What an operation makes of the row of an entry. -/
def opRow (id : Int) (s : Store) (r : CertRow) : Op → CertRow
  | .pass env =>
    if r.active then passRow env s.allEnabledChannels (scanRowValues id r) r else r
  | .scan now _ res =>
    match s.findByHostPort res.host res.port with
    | some c => if c.id = id then updateScan now res c r else r
    | none => r

variable {a : Alert} {ch : Channel} {id : Int} {s : Store} {r : CertRow} {op : Op} {ops : List Op}
variable {env : PassEnv} {c : Cert}

theorem opStep_channels : (opStep s op).1.channels = s.channels := by
  cases op with
  | pass env => exact notifyPass_channels
  | scan now name res => exact Store.writeScan_channels

theorem get?_certs_opStep (op : Op) (h : s.certs.get? id = some r) :
    (opStep s op).1.certs.get? id = some (opRow id s r op) := by
  cases op with
  | pass env => rw [opStep, get?_certs_notifyPass, h, Option.map_some, opRow]
  | scan now name res =>
    simp only [opStep, Store.upsertScan, opRow]
    cases hfind : s.findByHostPort res.host res.port with
    | none => exact Store.get?_certs_writeScan_none h
    | some c =>
      rw [Store.get?_certs_writeScan_some, h, Option.map_some]
      simp only [eq_comm]

/-- The entry a scan found is the row as it is read. -/
theorem eq_scanRowValues_of_find (h : s.certs.get? id = some r) {host : String} {port : Int}
    (hfind : s.findByHostPort host port = some c) (hid : c.id = id) : c = scanRowValues id r := by
  obtain ⟨r', hget, -, hc⟩ := Store.findByHostPort_eq_some hfind
  rw [hid, h] at hget
  rw [hc, hid, Option.some.inj hget]

theorem active_opRow (h : r.active = true) : (opRow id s r op).active = true := by
  cases op with
  | pass env =>
    rw [opRow, if_pos h, active_passRow, h]
  | scan now name res =>
    simp only [opRow]
    split
    · split_ifs <;> exact h
    · exact h

/-! ### One look -/

/-- The channels that would take an alert at the bucket an entry stands in. -/
def takers (env : PassEnv) (channels : List Channel) (a : Alert) (c : Cert) : List Channel :=
  deliver env.send channels (a.current c env.now) (a.message c (a.current c env.now) env.now)

/-- A pass as one channel of the escalation of an entry sees it. -/
def look (env : PassEnv) (channels : List Channel) (a : Alert) (ch : Channel) (c : Cert) :
    Look Int where
  rung := a.rung c env.now
  noted := takers env channels a c ≠ [] ∧ env.marks a c.id
  mine := ch ∈ takers env channels a c

/-- What is due is taken by those who would take the bucket. -/
theorem took_eq (env : PassEnv) (channels : List Channel) (a : Alert) (c : Cert) :
    took env channels a c =
      if a.rung c env.now < ofCounter (a.last c) then takers env channels a c else [] := by
  unfold took takers
  by_cases hdue : a.rung c env.now < ofCounter (a.last c)
  · have hpos := Alert.due_pos_iff.mpr hdue
    rw [if_pos hpos, if_pos hdue, Alert.due_eq_current hpos]
  · rw [if_neg fun h => hdue (Alert.due_pos_iff.mp h), if_neg hdue]

theorem coe_due (h : a.rung c env.now < ofCounter (a.last c)) :
    (a.due c env.now : WithTop Int) = a.rung c env.now := by
  have hdue := Alert.due_pos_iff.mpr h
  rw [Alert.due_eq_current hdue, Alert.rung_of_pos (Alert.current_pos_of_due hdue)]

/-- A pass leaves the counter where the escalation leaves its last rung. -/
theorem ofCounter_counter_passRow (ch : Channel) {channels : List Channel} :
    ofCounter (a.counter (passRow env channels (scanRowValues id r) r)) =
      mark (ofCounter (a.counter r)) (look env channels a ch (scanRowValues id r)) := by
  rw [counter_passRow, took_eq, Alert.last_scanRowValues]
  by_cases hdue : a.rung (scanRowValues id r) env.now < ofCounter (a.counter r)
  · have hcoe := coe_due ((Alert.last_scanRowValues a id r).symm ▸ hdue)
    have hpos : 0 < a.due (scanRowValues id r) env.now :=
      Alert.due_pos_iff.mpr ((Alert.last_scanRowValues a id r).symm ▸ hdue)
    rw [if_pos hdue]
    simp only [mark, look, hdue, true_and, decide_eq_true_eq]
    split_ifs
    · rw [ofCounter_of_pos hpos, hcoe]
    · rfl
  · rw [if_neg hdue]
    simp only [mark, look, hdue, false_and, if_false, ne_eq, not_true]

/-- A pass alerts a channel about an active entry if the channel took the alert. -/
theorem rungsTo_notifyPass (h : s.certs.get? id = some r) (hactive : r.active = true) :
    rungsTo a ch id (notifyPass env s).2 =
      if ch ∈ took env s.allEnabledChannels a (scanRowValues id r) then
        [a.due (scanRowValues id r) env.now]
      else [] := by
  have hfind : s.list.find? (fun c => c.id = id) = some (scanRowValues id r) := by
    rw [Store.find?_list, h]
    simp [Option.filter, hactive]
  rw [notifyPass_deliveries, rungsTo_flatMap s.allEnabledChannels_nodup s.list_ids_nodup, hfind]

/-- A pass delivers to a channel what the escalation has it receive. -/
theorem map_rungsTo_notifyPass (h : s.certs.get? id = some r) (hactive : r.active = true) :
    ((rungsTo a ch id (notifyPass env s).2).map fun th : Int => (th : WithTop Int)) =
      received (ofCounter (a.counter r))
        [look env s.allEnabledChannels a ch (scanRowValues id r)] := by
  rw [rungsTo_notifyPass h hactive]
  simp only [took_eq, Alert.last_scanRowValues, received, look, List.append_nil,
    decide_eq_true_eq]
  by_cases hdue : a.rung (scanRowValues id r) env.now < ofCounter (a.counter r)
  · have hcoe := coe_due ((Alert.last_scanRowValues a id r).symm ▸ hdue)
    simp only [hdue, if_true, true_and]
    split_ifs
    · rw [List.map_singleton, hcoe]
    · rfl
  · simp [hdue]

/-! ### Whole runs -/

/-- The look an operation takes at an entry, if it takes one. -/
def lookAt (a : Alert) (ch : Channel) (id : Int) (s : Store) : Op → List (Look Int)
  | .pass env =>
    ((s.certs.get? id).map fun r =>
      look env s.allEnabledChannels a ch (scanRowValues id r)).toList
  | .scan .. => []

/-- The looks of a run at an entry, as one channel of the escalation sees them. -/
def looks (a : Alert) (ch : Channel) (id : Int) (s : Store) : List Op → List (Look Int)
  | [] => []
  | op :: ops => lookAt a ch id s op ++ looks a ch id (opStep s op).1 ops

/-- A scan that does not replace the certificate, or chain, keeps the counter. -/
theorem counter_opRow_scan (h : s.certs.get? id = some r) {now : Int} {name : String}
    {res : ScanResult} (hkeep : ¬ Replaces a id s (.scan now name res)) :
    a.counter (opRow id s r (.scan now name res)) = a.counter r := by
  simp only [opRow]
  cases hfind : s.findByHostPort res.host res.port with
  | none => rfl
  | some c =>
    by_cases hid : c.id = id
    · have hsame : a.ident c = a.found res := by
        by_contra hne
        exact hkeep ⟨c, hfind, hid, hne⟩
      simp only [if_pos hid]
      rw [Alert.counter_updateScan, if_pos hsame, eq_scanRowValues_of_find h hfind hid,
        Alert.last_scanRowValues]
    · simp only [if_neg hid]

/-- As long as no scan replaces its certificate, or chain, the counter of an entry is
where the escalation that started at it ends. -/
theorem get?_certs_runOut (ch : Channel) (h : s.certs.get? id = some r)
    (hactive : r.active = true)
    (hkeep : MeetsOut opStep (fun s op => ¬ Replaces a id s op) s ops) :
    ∃ r', (runOut opStep s ops).1.certs.get? id = some r' ∧ r'.active = true ∧
      ofCounter (a.counter r') = marks (ofCounter (a.counter r)) (looks a ch id s ops) := by
  induction ops generalizing s r with
  | nil => exact ⟨r, h, hactive, rfl⟩
  | cons op ops ih =>
    obtain ⟨hop, hops⟩ := meetsOut_cons.mp hkeep
    obtain ⟨r', hrow, hactive', hcounter⟩ := ih (get?_certs_opStep op h) (active_opRow hactive) hops
    refine ⟨r', hrow, hactive', hcounter.trans ?_⟩
    cases op with
    | pass env =>
      rw [opRow, if_pos hactive, ofCounter_counter_passRow ch]
      simp only [looks, lookAt, h]
      rfl
    | scan now name res =>
      rw [counter_opRow_scan h hop]
      rfl

/-- As long as no scan replaces its certificate, or chain, an entry's deliveries to a
channel are those of an escalation that starts at its counter. -/
theorem rungsTo_runOut (ch : Channel) (h : s.certs.get? id = some r) (hactive : r.active = true)
    (hkeep : MeetsOut opStep (fun s op => ¬ Replaces a id s op) s ops) :
    ((rungsTo a ch id (runOut opStep s ops).2).map fun th : Int => (th : WithTop Int)) =
      received (ofCounter (a.counter r)) (looks a ch id s ops) := by
  induction ops generalizing s r with
  | nil => rfl
  | cons op ops ih =>
    obtain ⟨hop, hops⟩ := meetsOut_cons.mp hkeep
    rw [runOut_cons_snd, rungsTo_append, List.map_append,
      ih (get?_certs_opStep op h) (active_opRow hactive) hops]
    cases op with
    | pass env =>
      have hrow : opRow id s r (.pass env) =
          passRow env s.allEnabledChannels (scanRowValues id r) r := if_pos hactive
      rw [hrow, ofCounter_counter_passRow ch, opStep, map_rungsTo_notifyPass h hactive]
      simp only [looks, lookAt, h]
      exact received_append.symm
    | scan now name res =>
      -- no replacement, and so the counter stays
      rw [counter_opRow_scan h hop]
      simp [looks, lookAt, opStep]

/-! ### A small inventory

Two channels and one endpoint, for runs on concrete inputs. -/

/-- The first of May 2025, midnight. -/
def demoDay : Int := 63881654400000000000

/-- A scan of the endpoint that finds a certificate with so many days left. -/
def demoScan (sha256 : String) (days : Int) (chain : List ChainCert) : ScanResult where
  host := "example.org"
  port := 443
  serverName := ""
  subject := []
  issuer := []
  serial := ""
  sha256 := sha256
  notBefore := demoDay
  notAfter := demoDay + days * Rfc3339.oneDay
  dnsNames := []
  keyType := ""
  sigAlg := ""
  chain := chain
  trustError := ""

/-- An intermediate with so many days left. -/
def demoLink (name : String) (days : Int) : ChainCert where
  subject := GoString.ofString name
  issuer := []
  notAfter := demoDay + days * Rfc3339.oneDay
  sha256 := []

/-- One of the two channels, by its id. -/
def demoChannel (id : Int) : Channel where
  id := id
  userId := 1
  type := .slack
  target := "hook"
  thresholds := ""
  enabled := true

/-- The two channels and no entry yet. -/
def demoStore : Store where
  channels :=
    (Table.empty.insert { userId := 1, type := .slack, target := "hook" }).insert
      { userId := 1, type := .slack, target := "hook" }

/-- A pass some days later in which some channels refuse everything. -/
def demoPass (days : Int) (refusing : List Int) : PassEnv where
  now := demoDay + days * Rfc3339.oneDay
  clock := demoDay + days * Rfc3339.oneDay
  send := fun ch _ => ch.id ∉ refusing
  marks := fun _ _ => true

/-- The first scan, of a certificate with twenty days left over an intermediate with five. -/
def demoFirst : ScanResult := demoScan "AA" 20 [demoLink "R3" 5]

/-- The inventory after the first scan. -/
def demoScanned : Store := (demoStore.upsertScan demoDay "" demoFirst).1

/-- The entry the first scan added. -/
def demoCert : Cert := scanRowValues 1 (insertScan demoDay "" demoFirst)

end CertGuard
