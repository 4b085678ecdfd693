import CertGuard.Scheduler.Runs

/-!
# Leaf and chain do not influence each other

Each kind of alert has columns of its own. Two runs that differ only in the
columns of one kind send the same alerts of the other kind and end with the same
counter for it, provided the network decides by what reaches it.

## Main definitions

* `Alert.viewRow`, `Alert.view` — an entry without what only the other kind reads
* `Agree` — stores that look the same to a kind of alert
* `SameOp` — operations that look the same to a kind of alert

## Main results

* `independent_runs` — the two-run theorem, for either kind
-/

namespace CertGuard

open Transition

namespace Alert

/-- A row without the columns that only the other kind of alert reads. -/
def viewRow : Alert → CertRow → CertRow
  | leaf, r => { r with chainJson := [], lastChainNotifiedThreshold := 0 }
  | chain, r => { r with lastNotifiedThreshold := 0, lastNotifiedOn := none }

/-- An entry without what only the other kind of alert reads. -/
def view : Alert → Cert → Cert
  | leaf, c => { c with chain := [], lastChainNotifiedThreshold := 0 }
  | chain, c => { c with lastNotifiedThreshold := 0, lastNotifiedOn := none }

/-- A delivery of the kind, its message about the entry as the kind sees it. -/
def visible (a : Alert) (d : Delivery) : Option (Channel × Message) :=
  if d.alert = a then some (d.channel, { d.message with cert := a.view d.message.cert }) else none

theorem view_scanRowValues (a : Alert) (id : Int) (r : CertRow) :
    a.view (scanRowValues id r) = scanRowValues id (a.viewRow r) := by
  cases a <;> rfl

theorem counter_viewRow (a : Alert) (r : CertRow) : a.counter (a.viewRow r) = a.counter r := by
  cases a <;> rfl

end Alert

/-- Two stores that look the same to a kind of alert. What the log says is left open. -/
structure Agree (a : Alert) (s t : Store) : Prop where
  certs : s.certs.modifyAll a.viewRow = t.certs.modifyAll a.viewRow
  channels : s.channels = t.channels

/-- The network decides by what reaches it. -/
def PassEnv.ByWire (env : PassEnv) : Prop :=
  ∃ cfg taken, env.send = RealSender.send cfg taken

variable {a b : Alert} {s t : Store} {c c' : Cert} {env : PassEnv} {channels : List Channel}

/-! ### One alert -/

theorem due_view : a.due (a.view c) env.now = a.due c env.now := by
  cases a <;> rfl

theorem message_view (th now : Int) :
    a.message (a.view c) th now = { a.message c th now with cert := a.view c } := by
  cases a with
  | leaf => rfl
  | chain =>
    have hrisk : (Alert.chain.view c).chainRisk = c.chainRisk := rfl
    simp only [Alert.message, buildChainMessage, hrisk]
    cases c.chainRisk <;> rfl

/-- What reaches the network shows nothing that only the other kind reads. -/
theorem wire_view (cfg : MailConfig) (ch : Channel) (m : Message) :
    RealSender.wire cfg ch { m with cert := a.view m.cert } = RealSender.wire cfg ch m := by
  unfold RealSender.wire
  cases ch.type <;> cases a <;> rfl

theorem send_view (h : env.ByWire) (ch : Channel) (th now : Int) :
    env.send ch (a.message (a.view c) th now) = env.send ch (a.message c th now) := by
  obtain ⟨cfg, taken, hsend⟩ := h
  have hcert : (a.message c th now).cert = c := Alert.message_cert a c th now
  have hwire := wire_view (a := a) cfg ch (a.message c th now)
  rw [hcert] at hwire
  rw [hsend, RealSender.send, RealSender.send, message_view, hwire]

theorem took_view (h : env.ByWire) : took env channels a (a.view c) = took env channels a c := by
  simp only [took, deliver, due_view, send_view h]

/-- What a kind of alert shows of its deliveries depends on how it sees the entry. -/
theorem visible_alertDeliveries (h : env.ByWire) :
    (alertDeliveries env channels b c).filterMap a.visible =
      if b = a then (took env channels a (a.view c)).map fun ch =>
        (ch, a.message (a.view c) (a.due (a.view c) env.now) env.now)
      else [] := by
  split_ifs with hb
  · subst hb
    simp only [alertDeliveries, List.filterMap_map, took_view h, due_view, message_view]
    rw [← List.filterMap_eq_map]
    refine List.filterMap_congr fun ch _ => ?_
    simp [Alert.visible]
  · refine List.filterMap_eq_nil_iff.mpr fun d hd => ?_
    obtain ⟨ch, -, rfl⟩ := List.mem_map.mp hd
    exact if_neg hb

theorem viewRow_markRow_self (now th : Int) (r : CertRow) :
    a.viewRow (a.markRow now th r) = a.markRow now th (a.viewRow r) := by
  cases a <;> rfl

theorem viewRow_markRow_of_ne (hb : b ≠ a) (now th : Int) (r : CertRow) :
    a.viewRow (b.markRow now th r) = a.viewRow r := by
  cases a <;> cases b <;> first | rfl | exact absurd rfl hb

theorem id_view (c : Cert) : (a.view c).id = c.id := by
  cases a <;> rfl

theorem agree_alertCert (h : env.ByWire) (hst : Agree a s t) (hc : a.view c = a.view c') :
    Agree a (alertCert env channels b s c).1 (alertCert env channels b t c').1 := by
  refine ⟨?_, by rw [alertCert_channels, alertCert_channels, hst.channels]⟩
  have hid : c.id = c'.id := by rw [← id_view (a := a) c, hc, id_view]
  rw [alertCert_certs, alertCert_certs]
  by_cases hb : b = a
  · subst hb
    have htook : took env channels b c = took env channels b c' := by
      rw [← took_view h, hc, took_view h]
    have hdue : b.due c env.now = b.due c' env.now := by
      rw [← due_view, hc, due_view]
    rw [htook, hid, hdue]
    split_ifs
    · refine Table.modifyAll_modify_congr hst.certs fun r r' hr => ?_
      rw [viewRow_markRow_self, viewRow_markRow_self, hr]
    · exact hst.certs
  · -- a mark for the other alert is not in the view
    have hhidden : ∀ (u : Store) (d : Cert),
        (if took env channels b d ≠ [] ∧ env.marks b d.id = true then
          u.certs.modify d.id (b.markRow env.clock (b.due d env.now))
        else u.certs).modifyAll a.viewRow = u.certs.modifyAll a.viewRow := by
      intro u d
      split_ifs
      · exact Table.modifyAll_modify_of_eq (viewRow_markRow_of_ne hb _ _)
      · rfl
    rw [hhidden, hhidden, hst.certs]

/-! ### Operations -/

theorem agree_passCert (h : env.ByWire) (hst : Agree a s t) (hc : a.view c = a.view c') :
    Agree a (passCert env channels s c).1 (passCert env channels t c').1 ∧
      (passCert env channels s c).2.filterMap a.visible =
        (passCert env channels t c').2.filterMap a.visible := by
  refine ⟨agree_alertCert h (agree_alertCert h hst hc) hc, ?_⟩
  simp only [passCert_snd, certDeliveries, List.filterMap_append, visible_alertDeliveries h, hc]

theorem Agree.list (hst : Agree a s t) : s.list.map a.view = t.list.map a.view := by
  have hlist : ∀ u : Store, u.list.map a.view =
      (((u.certs.rows.filter fun r => r.2.active).map fun r => (r.1, a.viewRow r.2)).insertionSort
        fun r r' => r.2.expiresAt ≤ r'.2.expiresAt).map fun r => scanRowValues r.1 r.2 := by
    intro u
    rw [Store.list, ← List.map_insertionSort (r := fun r r' : Int × CertRow =>
      r.2.expiresAt ≤ r'.2.expiresAt), List.map_map, List.map_map]
    · exact List.map_congr_left fun r _ => Alert.view_scanRowValues a r.1 r.2
    · intro r _ r' _
      cases a <;> rfl
  rw [hlist, hlist, Table.map_filter_rows_congr hst.certs fun r => ?_]
  cases a <;> rfl

theorem Agree.findByHostPort (hst : Agree a s t) (host : String) (port : Int) :
    (s.findByHostPort host port).map a.view = (t.findByHostPort host port).map a.view := by
  have hfind : ∀ u : Store, (u.findByHostPort host port).map a.view =
      ((u.certs.rows.find? fun r => r.2.host = host ∧ r.2.port = port ∧ r.2.active).map
        fun r => (r.1, a.viewRow r.2)).map fun r => scanRowValues r.1 r.2 := by
    intro u
    simp only [Store.findByHostPort, Option.map_map, Function.comp_def, Alert.view_scanRowValues]
  rw [hfind, hfind, Table.map_find?_rows_congr hst.certs fun r => ?_]
  cases a <;> rfl

theorem agree_notifyPass (h : env.ByWire) (hst : Agree a s t) :
    Agree a (notifyPass env s).1 (notifyPass env t).1 ∧
      (notifyPass env s).2.filterMap a.visible = (notifyPass env t).2.filterMap a.visible := by
  have hcerts : List.Forall₂ (fun c c' => a.view c = a.view c') s.list t.list := by
    have heq : List.Forall₂ Eq (s.list.map a.view) (t.list.map a.view) := by
      rw [List.forall₂_eq_eq_eq]
      exact hst.list
    rwa [List.forall₂_map_left_iff, List.forall₂_map_right_iff] at heq
  have hchannels : s.allEnabledChannels = t.allEnabledChannels := by
    simp only [Store.allEnabledChannels, hst.channels]
  rw [notifyPass_eq, notifyPass_eq, hchannels]
  exact runOut_rel hcerts hst fun _ _ _ _ hc hst => agree_passCert h hst hc

/-- Two scan results that look the same to a kind of alert. -/
def SameResult : Alert → ScanResult → ScanResult → Prop
  | .leaf, res, res' => { res with chain := [] } = { res' with chain := [] }
  | .chain, res, res' => res = res'

variable {res res' : ScanResult} {r r' : CertRow} {now : Int}

theorem SameResult.exists_chain (h : SameResult .leaf res res') :
    ∃ x, res' = { res with chain := x } := by
  refine ⟨res'.chain, ?_⟩
  cases res
  cases res'
  simpa [SameResult, eq_comm] using h

theorem exists_chain_of_view_leaf (h : Alert.leaf.view c = Alert.leaf.view c') :
    ∃ x n, c' = { c with chain := x, lastChainNotifiedThreshold := n } := by
  refine ⟨c'.chain, c'.lastChainNotifiedThreshold, ?_⟩
  cases c
  cases c'
  simpa [Alert.view, eq_comm] using h

theorem exists_last_of_view_chain (h : Alert.chain.view c = Alert.chain.view c') :
    ∃ n x, c' = { c with lastNotifiedThreshold := n, lastNotifiedOn := x } := by
  refine ⟨c'.lastNotifiedThreshold, c'.lastNotifiedOn, ?_⟩
  cases c
  cases c'
  simpa [Alert.view, eq_comm] using h

theorem viewRow_insertScan (h : SameResult a res res') (name : String) :
    a.viewRow (insertScan now name res) = a.viewRow (insertScan now name res') := by
  cases a with
  | leaf =>
    obtain ⟨x, rfl⟩ := h.exists_chain
    rfl
  | chain =>
    obtain rfl := h
    rfl

/-- A scan reads and writes nothing of one kind that the other kind sees. -/
theorem viewRow_updateScan (h : SameResult a res res') (hc : a.view c = a.view c')
    (hr : a.viewRow r = a.viewRow r') :
    a.viewRow (updateScan now res c r) = a.viewRow (updateScan now res' c' r') := by
  have hlast : a.last (rearm c res) = a.last (rearm c' res') := by
    rw [Alert.last_rearm, Alert.last_rearm]
    -- the columns a view leaves out are set to some values, which the other scan may have
    cases a with
    | leaf =>
      obtain ⟨x, rfl⟩ := h.exists_chain
      obtain ⟨y, n, rfl⟩ := exists_chain_of_view_leaf hc
      rfl
    | chain =>
      obtain rfl := h
      obtain ⟨n, x, rfl⟩ := exists_last_of_view_chain hc
      rfl
  cases a with
  | leaf =>
    obtain ⟨x, rfl⟩ := h.exists_chain
    have hon : (rearm c res).lastNotifiedOn =
        (rearm c' { res with chain := x }).lastNotifiedOn := by
      obtain ⟨y, n, rfl⟩ := exists_chain_of_view_leaf hc
      rw [Alert.lastNotifiedOn_rearm, Alert.lastNotifiedOn_rearm]
    simp only [Alert.last] at hlast
    simp only [Alert.viewRow, CertRow.mk.injEq] at hr
    simp only [Alert.viewRow, updateScan, hlast, hon, hr]
  | chain =>
    obtain rfl := h
    simp only [Alert.last] at hlast
    simp only [Alert.viewRow, CertRow.mk.injEq] at hr
    simp only [Alert.viewRow, updateScan, hlast, hr]

theorem agree_upsertScan (h : SameResult a res res') (hst : Agree a s t) (name : String) :
    Agree a (s.upsertScan now name res).1 (t.upsertScan now name res').1 := by
  -- neither part of a result that may differ decides on the row
  have haddress : res.host = res'.host ∧ res.port = res'.port := by
    cases a with
    | leaf =>
      obtain ⟨x, rfl⟩ := h.exists_chain
      exact ⟨rfl, rfl⟩
    | chain =>
      obtain rfl := h
      exact ⟨rfl, rfl⟩
  have hfind := hst.findByHostPort res.host res.port
  refine ⟨?_, by simp only [Store.upsertScan, Store.writeScan_channels, hst.channels]⟩
  simp only [Store.upsertScan]
  rw [← haddress.1, ← haddress.2]
  cases hs : s.findByHostPort res.host res.port with
  | none =>
    rw [hs, Option.map_none, eq_comm, Option.map_eq_none_iff] at hfind
    rw [hfind]
    exact Table.modifyAll_insert_congr hst.certs (viewRow_insertScan h name)
  | some c =>
    rw [hs, Option.map_some, eq_comm, Option.map_eq_some_iff] at hfind
    obtain ⟨c', ht, hc⟩ := hfind
    have hid : c.id = c'.id := by rw [← id_view (a := a) c, ← hc, id_view]
    rw [ht]
    simp only [Store.writeScan, hid]
    exact Table.modifyAll_modify_congr hst.certs fun r r' hr => viewRow_updateScan h hc.symm hr

/-! ### Runs -/

/-- Two operations that look the same to a kind of alert: the same pass, or scans
whose results look the same. -/
def SameOp (a : Alert) : Op → Op → Prop
  | .pass env, .pass env' => env = env' ∧ env.ByWire
  | .scan now name res, .scan now' name' res' =>
    now = now' ∧ name = name' ∧ SameResult a res res'
  | _, _ => False

theorem agree_opStep {op op' : Op} (h : SameOp a op op') (hst : Agree a s t) :
    Agree a (opStep s op).1 (opStep t op').1 ∧
      (opStep s op).2.filterMap a.visible = (opStep t op').2.filterMap a.visible := by
  cases op with
  | pass env =>
    cases op' with
    | pass env' =>
      obtain ⟨rfl, hwire⟩ := h
      exact agree_notifyPass hwire hst
    | scan => exact absurd h id
  | scan now name res =>
    cases op' with
    | pass => exact absurd h id
    | scan now' name' res' =>
      obtain ⟨rfl, rfl, hres⟩ := h
      exact ⟨agree_upsertScan hres hst name, rfl⟩

theorem Agree.counter (hst : Agree a s t) (id : Int) :
    (s.certs.get? id).map a.counter = (t.certs.get? id).map a.counter := by
  have hget : (s.certs.get? id).map a.viewRow = (t.certs.get? id).map a.viewRow := by
    rw [← Table.get?_modifyAll, ← Table.get?_modifyAll, hst.certs]
  have hview : ∀ u : Store, (u.certs.get? id).map a.counter =
      ((u.certs.get? id).map a.viewRow).map a.counter := by
    intro u
    simp only [Option.map_map, Function.comp_def, Alert.counter_viewRow]
  rw [hview, hview, hget]

/-- Run the same passes and scans from two stores that differ only in the chains of
entries and their chain counters, where scans may find different chains: the same
leaf alerts reach the same channels, and leaf counters end the same. From two stores
that differ only in leaf counters, the same holds of chain alerts and chain counters. -/
theorem independent_runs (a : Alert) (s t : Store) (ops ops' : List Op)
    (hagree : Agree a s t) (hops : List.Forall₂ (SameOp a) ops ops') :
    (runOut opStep s ops).2.filterMap a.visible = (runOut opStep t ops').2.filterMap a.visible ∧
      ∀ id, ((runOut opStep s ops).1.certs.get? id).map a.counter =
        ((runOut opStep t ops').1.certs.get? id).map a.counter := by
  obtain ⟨hend, hout⟩ := runOut_rel hops hagree fun _ _ _ _ hop hst => agree_opStep hop hst
  exact ⟨hout, hend.counter⟩

/-- A pass of the small inventory in which every hook answers. -/
def demoWirePass (days : Int) : PassEnv :=
  { demoPass days [] with send := RealSender.send ⟨"", 0, "", "", ""⟩ fun _ => true }

/-- The small inventory, had the first scan found no chain. -/
def demoUnchained : Store := (demoStore.upsertScan demoDay "" (demoScan "AA" 20 [])).1

/-- The endpoint was first seen with a chain or without, and a scan finds it with the
same or another: leaf alerts are the same. -/
theorem independent_runs_demo :
    (runOut opStep demoScanned [.pass (demoWirePass 0), .scan demoDay "" demoFirst,
        .pass (demoWirePass 18)]).2.filterMap Alert.leaf.visible =
      (runOut opStep demoUnchained [.pass (demoWirePass 0),
        .scan demoDay "" (demoScan "AA" 20 [demoLink "R4" 19]),
        .pass (demoWirePass 18)]).2.filterMap Alert.leaf.visible := by
  have hsame : ∀ chain, SameResult .leaf demoFirst (demoScan "AA" 20 chain) := fun _ => rfl
  have hagree : Agree .leaf demoScanned demoUnchained := agree_upsertScan (hsame []) ⟨rfl, rfl⟩ ""
  have hwire : ∀ days, (demoWirePass days).ByWire := fun _ => ⟨_, _, rfl⟩
  refine (independent_runs .leaf demoScanned demoUnchained _ _ hagree ?_).1
  exact .cons ⟨rfl, hwire 0⟩ (.cons ⟨rfl, rfl, hsame _⟩ (.cons ⟨rfl, hwire 18⟩ .nil))

end CertGuard
