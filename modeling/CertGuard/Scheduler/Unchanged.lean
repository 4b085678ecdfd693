import CertGuard.Scheduler.Runs

/-!
# Entries that do not change

An entry whose scans keep finding the same certificate and the same chain. Its
row changes in nothing its alerts go by, so the rungs found over a run are those
of the entry as it was, at the times of the passes.

## Main definitions

* `SameScan` — a scan that finds the certificate and chain of an entry
* `Unchanged` — a row that still stands for an entry

## Main results

* `Unchanged.opRow` — operations keep a row standing for its entry
* `not_replaces_of_same` — scans that find the same replace nothing
* `map_rung_looks` — the rungs found over a run
-/

namespace CertGuard

open Transition Escalation

/-- The scan finds the certificate and the chain of the entry, with names in UTF-8. -/
structure SameScan (c : Cert) (res : ScanResult) : Prop where
  sha256 : res.sha256 = c.sha256
  notAfter : res.notAfter = c.expiresAt
  date : CertDate res.notAfter
  chain : res.chain = c.chain
  clean : ∀ ic ∈ res.chain, ic.Clean
  dates : ∀ ic ∈ res.chain, CertDate ic.notAfter

/-- The row still stands for the entry: it differs from it in nothing alerts go by. -/
structure Unchanged (c : Cert) (r : CertRow) : Prop where
  active : r.active = true
  kind : r.kind = c.kind
  host : r.host = c.host
  port : r.port = c.port
  sha256 : r.sha256 = c.sha256
  expiresAt : parseTime r.expiresAt = c.expiresAt
  chain : unmarshalChain r.chainJson = c.chain

variable {a : Alert} {ch : Channel} {id t : Int} {s : Store} {r : CertRow} {op : Op}
variable {ops : List Op} {env : PassEnv} {c : Cert} {res : ScanResult} {channels : List Channel}

namespace SameScan

theorem found_eq (h : SameScan c res) : a.found res = a.ident c := by
  cases a with
  | leaf => exact congrArg String.toList h.sha256
  | chain => exact congrArg marshalChain h.chain

theorem parseTime_notAfter (h : SameScan c res) :
    parseTime (Rfc3339.format res.notAfter) = c.expiresAt := by
  rw [parseTime_format_of_dvd h.date.1.1 h.date.1.2 h.date.2, h.notAfter]

theorem unmarshalChain_chain (h : SameScan c res) :
    unmarshalChain (marshalChain res.chain) = c.chain := by
  have hprinted : marshalChain res.chain ≠ [] :=
    marshalChain_ne_nil_iff.mpr fun ic hic => (h.dates ic hic).1
  rw [unmarshalChain_marshalChain h.clean hprinted, h.chain]

end SameScan

namespace Unchanged

/-- An entry stands for itself. -/
theorem refl (h : r.active = true) : Unchanged (scanRowValues id r) r :=
  ⟨h, rfl, rfl, rfl, rfl, rfl, rfl⟩

theorem current_eq (h : Unchanged c r) : a.current (scanRowValues id r) t = a.current c t := by
  have hrisk : (scanRowValues id r).chainRisk = c.chainRisk := by
    simp only [Cert.chainRisk, scanRowValues, h.chain, h.expiresAt]
  cases a with
  | leaf =>
    simp only [Alert.current, thresholdFor, Cert.daysRemaining]
    simp only [scanRowValues, h.kind, h.expiresAt]
  | chain => simp only [Alert.current, Cert.chainDaysRemaining, hrisk]

theorem rung_eq (h : Unchanged c r) : a.rung (scanRowValues id r) t = a.rung c t := by
  simp only [Alert.rung, h.current_eq]

theorem ident_eq (h : Unchanged c r) : a.ident (scanRowValues id r) = a.ident c := by
  cases a with
  | leaf => exact congrArg String.toList h.sha256
  | chain => exact congrArg marshalChain h.chain

theorem markRow {now th : Int} (h : Unchanged c r) : Unchanged c (a.markRow now th r) := by
  cases a <;> exact ⟨h.active, h.kind, h.host, h.port, h.sha256, h.expiresAt, h.chain⟩

theorem updateScan {now : Int} {existing : Cert} (h : Unchanged c r) (hsame : SameScan c res) :
    Unchanged c (CertGuard.updateScan now res existing r) :=
  ⟨h.active, h.kind, h.host, h.port, hsame.sha256, hsame.parseTime_notAfter,
    hsame.unmarshalChain_chain⟩

end Unchanged

/-- Every scan at the address of the entry finds its certificate and chain. -/
def AllSame (c : Cert) (ops : List Op) : Prop :=
  ∀ now name res, Op.scan now name res ∈ ops → res.host = c.host → res.port = c.port →
    SameScan c res

theorem AllSame.tail (h : AllSame c (op :: ops)) : AllSame c ops :=
  fun now name res hmem => h now name res (List.mem_cons_of_mem _ hmem)

/-- The entry a scan finds is the one at the address it scanned. -/
theorem SameScan.of_find (hrow : s.certs.get? id = some r) (hr : Unchanged c r) {now : Int}
    {name : String} (hall : AllSame c (.scan now name res :: ops)) {e : Cert}
    (hfind : s.findByHostPort res.host res.port = some e) (hid : e.id = id) : SameScan c res := by
  obtain ⟨hhost, hport⟩ := Store.address_of_find hfind
  rw [eq_scanRowValues_of_find hrow hfind hid] at hhost hport
  exact hall now name res (by simp) (hhost.symm.trans hr.host) (hport.symm.trans hr.port)

theorem Unchanged.opRow (hrow : s.certs.get? id = some r) (hr : Unchanged c r)
    (hall : AllSame c (op :: ops)) : Unchanged c (CertGuard.opRow id s r op) := by
  cases op with
  | pass env =>
    simp only [CertGuard.opRow, if_pos hr.active]
    exact passRow_induction hr fun _ _ _ _ h => h.markRow
  | scan now name res =>
    simp only [CertGuard.opRow]
    cases hfind : s.findByHostPort res.host res.port with
    | none => exact hr
    | some e =>
      by_cases hid : e.id = id
      · simp only [if_pos hid]
        exact hr.updateScan (SameScan.of_find hrow hr hall hfind hid)
      · simp only [if_neg hid]
        exact hr

theorem not_replaces_of_same (hrow : s.certs.get? id = some r) (hr : Unchanged c r)
    (hall : AllSame c (op :: ops)) : ¬ Replaces a id s op := by
  cases op with
  | pass env => exact fun h => h
  | scan now name res =>
    rintro ⟨e, hfind, hid, hne⟩
    refine hne ?_
    rw [(SameScan.of_find hrow hr hall hfind hid).found_eq,
      eq_scanRowValues_of_find hrow hfind hid, hr.ident_eq]

/-- No operation of such a run replaces the certificate, or chain, of the entry. -/
theorem meetsOut_of_allSame (hrow : s.certs.get? id = some r) (hr : Unchanged c r)
    (hall : AllSame c ops) : MeetsOut opStep (fun s op => ¬ Replaces a id s op) s ops := by
  induction ops generalizing s r with
  | nil => exact meetsOut_nil
  | cons op ops ih =>
    exact meetsOut_cons.mpr ⟨not_replaces_of_same hrow hr hall,
      ih (get?_certs_opStep op hrow) (hr.opRow hrow hall) hall.tail⟩

/-- The rungs found over a run are those of the entry at the times of the passes. -/
theorem map_rung_looks (a : Alert) (ch : Channel) (hrow : s.certs.get? id = some r)
    (hr : Unchanged c r)
    (hall : AllSame c ops) :
    (looks a ch id s ops).map Look.rung = (passes ops).map fun env => a.rung c env.now := by
  induction ops generalizing s r with
  | nil => rfl
  | cons op ops ih =>
    have htail := ih (get?_certs_opStep op hrow) (hr.opRow hrow hall) hall.tail
    cases op with
    | pass env =>
      simp only [looks, lookAt, hrow, Option.map_some, Option.toList_some, List.map_append, htail,
        List.map_cons, List.map_nil, look, hr.rung_eq]
      rfl
    | scan now name res =>
      simp only [looks, lookAt, List.nil_append, htail]
      rfl

end CertGuard
