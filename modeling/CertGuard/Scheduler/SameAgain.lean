import CertGuard.Scheduler.NotifyPass
import CertGuard.Store.Entries

/-!
# Finding the same again

A sweep that finds the certificate and the chain of an endpoint, or the expiry of a domain, that
it found before should change nothing that alerts go by. What was found before is known by what
is stored of it: a chain as the text it was printed to, an expiry as a timestamp in whole seconds.
Between the two sweeps alerts may have been sent and marked.

## Main definitions

* `Store.rowAt`, `Store.countersAt` — the entry at an address, and what it was last alerted for
* `Mark`, `Store.markAll` — marks that alerts leave
* `ReadsBack` — a timestamp column that is written back as it is
* `RdapEvent`, `lookupDates` — the dates of a registration

## Main results

* `Upsert.rowAt_write` — the row at an address after something was recorded there
* `scan_again_iff` — when a scan that finds the same leaves the counters, and tells what differs
* `domain_again_iff` — when lookups that find the same do
-/

namespace CertGuard

/-- What an entry was last alerted for, as its row has it. -/
structure Counters where
  lastNotifiedThreshold : Int
  lastNotifiedOn : Option (List Char)
  lastChainNotifiedThreshold : Int
  deriving DecidableEq, Repr

/-- The counters of a row. -/
def CertRow.counters (r : CertRow) : Counters where
  lastNotifiedThreshold := r.lastNotifiedThreshold
  lastNotifiedOn := r.lastNotifiedOn
  lastChainNotifiedThreshold := r.lastChainNotifiedThreshold

/-- A timestamp column that is written back as it was read. -/
def ReadsBack (column : Option (List Char)) : Prop := nullTime (column.map parseTime) = column

instance (column : Option (List Char)) : Decidable (ReadsBack column) := by
  unfold ReadsBack
  infer_instance

/-- What a mark writes reads back, as long as the clock shows a year of four digits. -/
theorem readsBack_format {t : Int} (h0 : 0 ≤ Rfc3339.year t) (h1 : Rfc3339.year t ≤ 9999) :
    ReadsBack (some (Rfc3339.format t)) :=
  congrArg some (format_parseTime_format h0 h1)

/-- The mark of an alert that was sent. -/
structure Mark where
  alert : Alert
  now : Int
  certID : Int
  threshold : Int
  deriving DecidableEq, Repr

namespace Store

/-- The entry at an address, with its row: the first active one by id. -/
def rowAt (s : Store) (host : String) (port : Int) : Option (Int × CertRow) :=
  s.certs.rows.find? fun r => r.2.host = host ∧ r.2.port = port ∧ r.2.active

/-- The counters of the entry at an address. -/
def countersAt (s : Store) (host : String) (port : Int) : Option Counters :=
  (s.rowAt host port).map fun r => r.2.counters

/-- The marks that a number of alerts leave. -/
def markAll (s : Store) (marks : List Mark) : Store :=
  marks.foldl (fun s m => m.alert.mark s m.now m.certID m.threshold) s

variable {s : Store} {host : String} {port k : Int} {f : CertRow → CertRow} {row : CertRow}

theorem findByHostPort_eq (s : Store) (host : String) (port : Int) :
    s.findByHostPort host port = (s.rowAt host port).map fun r => scanRowValues r.1 r.2 := rfl

/-- Rewriting rows in place does not change which one is at an address. -/
theorem rowAt_modify (s : Store) (host : String) (port k : Int) {f : CertRow → CertRow}
    (hf : ∀ r, (f r).host = r.host ∧ (f r).port = r.port ∧ (f r).active = r.active) :
    ({ s with certs := s.certs.modify k f } : Store).rowAt host port =
      (s.rowAt host port).map fun r => (r.1, if r.1 = k then f r.2 else r.2) := by
  rw [rowAt, Table.modify, List.find?_map, rowAt]
  congr 2
  funext r
  simp only [Function.comp_apply]
  split_ifs
  · simp only [hf]
  · rfl

/-- A row that is added at an address where there was none is the one there. -/
theorem rowAt_insert (h : s.rowAt host port = none)
    (hrow : row.host = host ∧ row.port = port ∧ row.active = true) :
    ({ s with certs := s.certs.insert row } : Store).rowAt host port =
      some (s.certs.nextKey, row) := by
  rw [rowAt] at h
  rw [rowAt, Table.insert, List.find?_append, h]
  simp [hrow]

end Store

namespace Upsert

variable {u : Upsert} {s : Store} {now : Int}

theorem update_address (existing : Cert) (r : CertRow) :
    (u.update now existing r).host = r.host ∧ (u.update now existing r).port = r.port ∧
      (u.update now existing r).active = r.active := by
  cases u <;> exact ⟨rfl, rfl, rfl⟩

/-- The row at the address is rewritten, or added. -/
theorem rowAt_write (u : Upsert) (s : Store) (now : Int) :
    (u.write s now (u.find s)).1.rowAt u.host u.port = some
      (match s.rowAt u.host u.port with
        | some r => (r.1, u.update now (scanRowValues r.1 r.2) r.2)
        | none => (s.certs.nextKey, u.newRow now)) := by
  rw [find, Store.findByHostPort_eq]
  cases hrow : s.rowAt u.host u.port with
  | none =>
    rw [Option.map_none, write_none]
    exact Store.rowAt_insert hrow ⟨newRow_host, newRow_port, newRow_active⟩
  | some r =>
    rw [Option.map_some, write_some]
    simp only
    rw [Store.rowAt_modify _ _ _ _ fun r' => u.update_address _ r', hrow, Option.map_some]
    simp [scanRowValues]

end Upsert

/-- The row holds what a scan or a lookup wrote: nothing but marks was written since. -/
structure SameFindings (r r' : CertRow) : Prop where
  sha256 : r'.sha256 = r.sha256
  expiresAt : r'.expiresAt = r.expiresAt
  chainJson : r'.chainJson = r.chainJson

/-- Marks change counters only. -/
theorem Store.rowAt_markAll {s : Store} {host : String} {port k : Int} {r : CertRow}
    (marks : List Mark) (h : s.rowAt host port = some (k, r)) :
    ∃ r', (s.markAll marks).rowAt host port = some (k, r') ∧ SameFindings r r' := by
  induction marks generalizing s r with
  | nil => exact ⟨r, h, rfl, rfl, rfl⟩
  | cons m ms ih =>
    have hmark : (m.alert.mark s m.now m.certID m.threshold).rowAt host port =
        some (k, if k = m.certID then m.alert.markRow m.now m.threshold r else r) := by
      have haddress : ∀ r : CertRow, (m.alert.markRow m.now m.threshold r).host = r.host ∧
          (m.alert.markRow m.now m.threshold r).port = r.port ∧
          (m.alert.markRow m.now m.threshold r).active = r.active := by
        intro r
        cases m.alert <;> exact ⟨rfl, rfl, rfl⟩
      have hrow := s.rowAt_modify host port m.certID haddress
      rw [h] at hrow
      cases halert : m.alert <;> rw [halert] at hrow <;> exact hrow
    obtain ⟨r', hr', hsame⟩ := ih hmark
    refine ⟨r', hr', ?_⟩
    -- marks touch nothing that a scan found
    have hfirst : SameFindings r
        (if k = m.certID then m.alert.markRow m.now m.threshold r else r) := by
      split_ifs
      · cases m.alert <;> exact ⟨rfl, rfl, rfl⟩
      · exact ⟨rfl, rfl, rfl⟩
    exact ⟨hsame.sha256.trans hfirst.sha256, hsame.expiresAt.trans hfirst.expiresAt,
      hsame.chainJson.trans hfirst.chainJson⟩

/-- What stands at the address of a scan or lookup that was recorded, whatever was marked since. -/
theorem Upsert.rowAt_recorded (u : Upsert) (s : Store) (now : Int) (marks : List Mark) :
    ∃ k r r', ((u.write s now (u.find s)).1.markAll marks).rowAt u.host u.port = some (k, r') ∧
      SameFindings r r' ∧ ((∃ existing old, r = u.update now existing old) ∨ r = u.newRow now) := by
  have hwrite := u.rowAt_write s now
  cases hrow : s.rowAt u.host u.port with
  | none =>
    rw [hrow] at hwrite
    obtain ⟨r', hr', hsame⟩ := Store.rowAt_markAll marks hwrite
    exact ⟨_, _, r', hr', hsame, Or.inr rfl⟩
  | some row =>
    rw [hrow] at hwrite
    obtain ⟨r', hr', hsame⟩ := Store.rowAt_markAll marks hwrite
    exact ⟨_, _, r', hr', hsame, Or.inl ⟨_, _, rfl⟩⟩

/-! ### The same certificate and chain -/

/-- A link that expires at 99991231235959-0100, an hour into the year 10000 of UTC. -/
def lateLink : ChainCert where
  subject := GoString.ofString "CN=R3"
  issuer := []
  notAfter := 315537901199000000000
  sha256 := []

example : Rfc3339.year lateLink.notAfter = 10000 := by decide +kernel

/-- The counters after a scan of a row that holds the same certificate and chain. -/
theorem counters_updateScan (now id : Int) {res : ScanResult} {r : CertRow}
    (hsha : r.sha256 = res.sha256) :
    (updateScan now res (scanRowValues id r) r).counters =
      { r.counters with
        lastNotifiedOn := nullTime (r.lastNotifiedOn.map parseTime)
        lastChainNotifiedThreshold :=
          if marshalChain (unmarshalChain r.chainJson) ≠ marshalChain res.chain then 0
          else r.lastChainNotifiedThreshold } := by
  simp only [CertRow.counters, updateScan, rearm, scanRowValues, hsha, ne_eq, not_true, if_false]
  split_ifs <;> rfl

theorem rowAt_scanned (s : Store) (now : Int) (name : String) (res : ScanResult)
    (marks : List Mark) :
    ∃ k r, ((s.upsertScan now name res).1.markAll marks).rowAt res.host res.port = some (k, r) ∧
      r.sha256 = res.sha256 ∧ r.chainJson = marshalChain res.chain := by
  obtain ⟨k, r, r', hrow, hsame, hr⟩ := (Upsert.scan name res).rowAt_recorded s now marks
  refine ⟨k, r', hrow, ?_⟩
  rw [hsame.sha256, hsame.chainJson]
  rcases hr with ⟨existing, old, rfl⟩ | rfl <;> exact ⟨rfl, rfl⟩

/-- A scan is recorded, alerts are sent, and a scan finds the same certificate and chain. Then the
counters stay, the chain is printed as it was, and it is told from every other chain, exactly when
every link can be stored and the time of the last alert reads back. -/
theorem scan_again_iff (s : Store) (now now' : Int) (name name' : String)
    (res res' : ScanResult) (marks : List Mark) (hhost : res'.host = res.host)
    (hport : res'.port = res.port) (hsha : res'.sha256 = res.sha256)
    (hchain : res'.chain = res.chain) :
    let s' := (s.upsertScan now name res).1.markAll marks
    ((s'.upsertScan now' name' res').1.countersAt res.host res.port =
        s'.countersAt res.host res.port ∧
      marshalChain (unmarshalChain (marshalChain res.chain)) = marshalChain res.chain ∧
      ∀ e ∈ s'.findByHostPort res.host res.port, ∀ chain,
        marshalChain e.chain ≠ marshalChain chain ↔ chain ≠ res.chain) ↔
      (∀ ic ∈ res.chain, ic.Storable) ∧
        ∀ c ∈ s'.countersAt res.host res.port, ReadsBack c.lastNotifiedOn := by
  intro s'
  obtain ⟨k, r, hrow, hrsha, hrchain⟩ := rowAt_scanned s now name res marks
  -- the row after the first scan has its leaf and its chain, whatever was marked since
  have hbefore : s'.countersAt res.host res.port = some r.counters := by
    rw [Store.countersAt, hrow, Option.map_some]
  have hafter : (s'.upsertScan now' name' res').1.countersAt res.host res.port =
      some { r.counters with
        lastNotifiedOn := nullTime (r.lastNotifiedOn.map parseTime)
        lastChainNotifiedThreshold :=
          if marshalChain (unmarshalChain (marshalChain res.chain)) ≠ marshalChain res.chain then 0
          else r.lastChainNotifiedThreshold } := by
    have hwrite := Upsert.rowAt_write (.scan name' res') s' now'
    simp only [Upsert.host, Upsert.port, Upsert.update, hhost, hport, s', hrow] at hwrite
    have hcounters := counters_updateScan now' k (hrsha.trans hsha.symm)
    rw [hrchain, hchain] at hcounters
    rw [Store.countersAt, ← hcounters]
    exact congrArg (Option.map fun r => r.2.counters) hwrite
  have hfind : s'.findByHostPort res.host res.port = some (scanRowValues k r) := by
    rw [Store.findByHostPort_eq, hrow, Option.map_some]
  have hread : (scanRowValues k r).chain = unmarshalChain (marshalChain res.chain) :=
    congrArg unmarshalChain hrchain
  rw [hafter, hbefore, hfind]
  simp only [Option.mem_some_iff, forall_eq', Option.some.injEq, hread]
  constructor
  · rintro ⟨hsame, hstable, -⟩
    exact ⟨marshalChain_stable_iff.mp hstable, congrArg Counters.lastNotifiedOn hsame⟩
  · rintro ⟨hstorable, hreads⟩
    have hstable := marshalChain_stable_iff.mpr hstorable
    refine ⟨?_, hstable, fun chain => ?_⟩
    · -- the chain reads the same, and the timestamp is written back as it was
      simp only [hstable, ne_eq, not_true, if_false]
      rw [show nullTime (r.lastNotifiedOn.map parseTime) = r.lastNotifiedOn from hreads]
      rfl
    · rw [hstable, Ne, marshalChain_inj hstorable]
      exact not_congr eq_comm

/-- A scan of an endpoint that serves one such link. -/
def lateScan : ScanResult where
  host := "example.org"
  port := 443
  serverName := ""
  subject := []
  issuer := []
  serial := ""
  sha256 := "AA"
  notBefore := 0
  notAfter := 63913190400000000000
  dnsNames := []
  keyType := ""
  sigAlg := ""
  chain := [lateLink]
  trustError := ""

/-- The chain is not printed as it was, an alert about the chain is marked, and the next scan, which
finds the same certificate and chain, takes the mark away. -/
theorem year_10000_rearms :
    let s' := (({} : Store).upsertScan 0 "" lateScan).1.markAll [⟨.chain, 0, 1, 7⟩]
    marshalChain (unmarshalChain (marshalChain lateScan.chain)) ≠ marshalChain lateScan.chain ∧
      s'.countersAt "example.org" 443 = some ⟨0, none, 7⟩ ∧
      (s'.upsertScan 1 "" lateScan).1.countersAt "example.org" 443 = some ⟨0, none, 0⟩ := by
  decide +kernel

/-- A chain that expires before the year 10000, scanned, alerted about and scanned again. -/
theorem scan_again_demo :
    let res := { lateScan with chain := [{ lateLink with notAfter := 63913190400000000000 }] }
    let s' := (({} : Store).upsertScan 0 "" res).1.markAll [⟨.chain, 0, 1, 7⟩]
    (s'.upsertScan 1 "" res).1.countersAt "example.org" 443 = s'.countersAt "example.org" 443 :=
  ((scan_again_iff {} 0 1 "" ""
    { lateScan with chain := [{ lateLink with notAfter := 63913190400000000000 }] }
    { lateScan with chain := [{ lateLink with notAfter := 63913190400000000000 }] }
    [⟨.chain, 0, 1, 7⟩] rfl rfl rfl rfl).mpr (by decide +kernel)).1

/-! ### The same expiry -/

/-- An event of a registration. -/
structure RdapEvent where
  action : String
  date : List Char
  deriving DecidableEq, Repr

/-- The loop of `Lookup` over the events: when the registration expires, and when it was made. -/
def lookupDates (events : List RdapEvent) : Int × Int :=
  events.foldl
    (fun out e =>
      match Rfc3339.parse e.date with
      | none => out
      | some t =>
        if e.action = "expiration" then (t, out.2)
        else if e.action = "registration" then (out.1, t)
        else out)
    (0, 0)

/-- The counters after a lookup of a row that holds an expiry of its own. -/
theorem counters_updateDomain {now id : Int} {res : DomainResult} {r : CertRow}
    (hexpires : r.expiresAt = Rfc3339.format res.expiresAt) :
    (updateDomain now res (scanRowValues id r) r).counters =
      if CertDate res.expiresAt then
        { r.counters with lastNotifiedOn := nullTime (r.lastNotifiedOn.map parseTime) }
      else { r.counters with lastNotifiedThreshold := 0, lastNotifiedOn := none } := by
  simp only [CertRow.counters, updateDomain, rearmDomain, scanRowValues, hexpires, ne_eq,
    parseTime_format_eq_iff, ite_not]
  split_ifs <;> rfl

/-- Nothing in the counters is lost by a lookup that finds the same expiry: the expiry can be
stored and the time of the last alert reads back, or there was no alert. -/
def Counters.Settled (c : Counters) (expiresAt : Int) : Prop :=
  CertDate expiresAt ∧ ReadsBack c.lastNotifiedOn ∨
    c.lastNotifiedThreshold = 0 ∧ c.lastNotifiedOn = none

theorem counters_updateDomain_eq_iff (now id : Int) {res : DomainResult} {r : CertRow}
    (hexpires : r.expiresAt = Rfc3339.format res.expiresAt) :
    (updateDomain now res (scanRowValues id r) r).counters = r.counters ↔
      r.counters.Settled res.expiresAt := by
  rw [counters_updateDomain hexpires, Counters.Settled]
  by_cases hdate : CertDate res.expiresAt
  · rw [if_pos hdate]
    constructor
    · exact fun h => Or.inl ⟨hdate, congrArg Counters.lastNotifiedOn h⟩
    · rintro (⟨-, hreads⟩ | ⟨-, hnone⟩)
      · exact congrArg (fun column => { r.counters with lastNotifiedOn := column }) hreads
      · have hcolumn : r.lastNotifiedOn = none := hnone
        simp [CertRow.counters, hcolumn, nullTime]
  · rw [if_neg hdate]
    constructor
    · exact fun h => Or.inr ⟨(congrArg Counters.lastNotifiedThreshold h).symm,
        (congrArg Counters.lastNotifiedOn h).symm⟩
    · rintro (⟨h, -⟩ | ⟨hzero, hnone⟩)
      · exact absurd h hdate
      · have hthreshold : r.lastNotifiedThreshold = 0 := hzero
        have hcolumn : r.lastNotifiedOn = none := hnone
        simp [CertRow.counters, hthreshold, hcolumn]

theorem rowAt_lookedUp (s : Store) (now : Int) (name : String) (res : DomainResult)
    (marks : List Mark) :
    ∃ k r, ((s.upsertDomain now name res).1.markAll marks).rowAt res.domain 0 = some (k, r) ∧
      r.expiresAt = Rfc3339.format res.expiresAt := by
  obtain ⟨k, r, r', hrow, hsame, hr⟩ := (Upsert.domain name res).rowAt_recorded s now marks
  refine ⟨k, r', hrow, ?_⟩
  rw [hsame.expiresAt]
  rcases hr with ⟨existing, old, rfl⟩ | rfl <;> rfl

/-- The same lookup, recorded any number of times, at times and under names of their own. -/
def Store.upsertAgain (s : Store) (res : DomainResult) (again : List (Int × String)) : Store :=
  again.foldl (fun s a => (s.upsertDomain a.1 a.2 res).1) s

theorem countersAt_upsertAgain {s : Store} {res : DomainResult} {k : Int} {r : CertRow}
    (again : List (Int × String)) (hrow : s.rowAt res.domain 0 = some (k, r))
    (hexpires : r.expiresAt = Rfc3339.format res.expiresAt)
    (hsettled : r.counters.Settled res.expiresAt) :
    (s.upsertAgain res again).countersAt res.domain 0 = some r.counters := by
  induction again generalizing s r with
  | nil =>
    rw [Store.upsertAgain, List.foldl_nil, Store.countersAt, hrow, Option.map_some]
  | cons a again ih =>
    have hwrite := Upsert.rowAt_write (.domain a.2 res) s a.1
    simp only [Upsert.host, Upsert.port, hrow] at hwrite
    have hsame := (counters_updateDomain_eq_iff a.1 k hexpires).mpr hsettled
    have hrest := ih hwrite rfl (hsame ▸ hsettled)
    exact hrest.trans (congrArg some hsame)

/-- A lookup is recorded and alerts are sent. Then lookups that find the same, however many, leave
the counters as they are exactly when the expiry can be stored and the time of the last alert
reads back, or there was no alert. -/
theorem domain_again_iff (s : Store) (now : Int) (name : String) (res : DomainResult)
    (marks : List Mark) :
    let s' := (s.upsertDomain now name res).1.markAll marks
    (∀ again, (s'.upsertAgain res again).countersAt res.domain 0 = s'.countersAt res.domain 0) ↔
      ∀ c ∈ s'.countersAt res.domain 0, c.Settled res.expiresAt := by
  intro s'
  obtain ⟨k, r, hrow, hexpires⟩ := rowAt_lookedUp s now name res marks
  have hbefore : s'.countersAt res.domain 0 = some r.counters := by
    rw [Store.countersAt, hrow, Option.map_some]
  rw [hbefore]
  simp only [Option.mem_some_iff, forall_eq']
  constructor
  · intro h
    -- one more lookup is enough to tell
    have hwrite := Upsert.rowAt_write (.domain "" res) s' 0
    simp only [Upsert.host, Upsert.port, s', hrow] at hwrite
    have honce : (s'.upsertAgain res [(0, "")]).countersAt res.domain 0 =
        some (updateDomain 0 res (scanRowValues k r) r).counters :=
      congrArg (Option.map fun row : Int × CertRow => row.2.counters) hwrite
    rw [h [(0, "")], Option.some.injEq] at honce
    exact (counters_updateDomain_eq_iff _ _ hexpires).mp honce.symm
  · exact fun hsettled again => countersAt_upsertAgain again hrow hexpires hsettled

/-- A registry publishes an expiry with half a second. The alert that was marked is forgotten by
the next lookup. -/
theorem half_second_rearms :
    let expiry := lookupDates [⟨"expiration", "2026-08-14T00:00:00.5Z".toList⟩]
    let res : DomainResult := { domain := "example.org", expiresAt := expiry.1 }
    let s' := (({} : Store).upsertDomain 0 "" res).1.markAll [⟨.leaf, 0, 1, 30⟩]
    s'.countersAt "example.org" 0 = some ⟨30, some (Rfc3339.format 0), 0⟩ ∧
      (s'.upsertAgain res [(1, "")]).countersAt "example.org" 0 = some ⟨0, none, 0⟩ := by
  decide +kernel

end CertGuard
